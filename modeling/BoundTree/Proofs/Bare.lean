import BoundTree.Proofs.Procedure
import BoundTree.Proofs.Retouch

/-!
Operations, sessions and steps as if the compiler had supplied everything, in no place in particular. Main
statements: no rule, no link and no walk asks for what is lost, and what a procedure does to the store it
does to what is left of it.
-/
namespace BoundTree

/-- The place that stands for all others. -/
def Locus.nowhere : Locus := ⟨⟨0⟩, ⟨0, 0⟩⟩

/-- The header of the same operation if the compiler had supplied it. -/
def Header.bare (h : Header) : Header := { h with locus := .nowhere, isImplicit := true }

def FunctionRef.bare (f : FunctionRef) : FunctionRef := { f with locus := .nowhere }

/-- Of the values only a function comes from somewhere. -/
def AttributeValue.bare : AttributeValue → AttributeValue
  | .function f => .function f.bare
  | v => v

theorem AttributeValue.resembles_bare (v : AttributeValue) : v.Resembles v.bare := by
  cases v with
  | function f => exact .function rfl
  | _ => exact .same _

/-- A value that is no function comes from nowhere. -/
theorem AttributeValue.bare_of_node? {v : AttributeValue} (h : v.node? = none) : v.bare = v := by
  cases v with
  | function f => cases h
  | _ => rfl

@[simp] theorem AttributeValue.node?_bare (v : AttributeValue) : v.bare.node? = v.node? := by
  cases v <;> rfl

namespace Payload

def bare (p : Payload) : Payload := p.retouch AttributeValue.resembles_bare

@[simp] theorem shape_bare (p : Payload) : p.bare.shape = p.shape := rfl

@[simp] theorem kind_bare (p : Payload) : p.bare.kind = p.kind := rfl

@[simp] theorem evaluationOrder_bare (p : Payload) : p.bare.evaluationOrder = p.evaluationOrder :=
  p.evaluationOrder_retouch _

@[simp] theorem binaryOperator?_bare (p : Payload) (name : String) :
    p.bare.binaryOperator? name = p.binaryOperator? name :=
  p.binaryOperator?_retouch _ name

@[simp] theorem attribute?_bare (p : Payload) (name : String) :
    p.bare.attribute? name = (p.attribute? name).map AttributeValue.bare :=
  p.attribute?_retouch _ name

theorem function?_bare (p : Payload) (name : String) :
    p.bare.function? name = (p.function? name).map FunctionRef.bare := by
  unfold function?
  rw [attribute?_bare]
  rcases p.attribute? name with _ | v
  · rfl
  · cases v <;> rfl

@[simp] theorem nodes_bare (p : Payload) : p.bare.nodes = p.nodes := by
  simp [nodes, bare, retouch, List.filterMap_map]

/-- What keeps an operation from being built is the same wherever it comes from. -/
theorem error?_bare (p : Payload) (h : Header) : p.bare.error? h.bare = p.error? h :=
  p.error?_retouch _ h

theorem make?_bare (shape : Shape) (tag : Option Kind) (values : List AttributeValue) :
    make? shape tag (values.map AttributeValue.bare) = (make? shape tag values).map bare :=
  make?_retouch AttributeValue.resembles_bare shape tag values

end Payload

/-! Expressions and steps. -/

mutual

def NodeExpr.bare : NodeExpr → NodeExpr
  | .named id => .named id
  | .build spec => .build spec.bare
  | .malformed => .malformed

def NodeSpec.bare : NodeSpec → NodeSpec
  | .mk id header shape tag slots attributes =>
    .mk id header.bare shape tag (slotsBare slots) (attributesBare attributes)

def SlotExpr.bare : SlotExpr → SlotExpr
  | .filled values => .filled (nodesBare values)
  | .moved name => .moved name
  | .deferred producer => .deferred producer.bare
  | .malformed => .malformed

def Producer.bare : Producer → Producer
  | .mk counter reenter first later => .mk counter reenter (nodesBare first) (listsBare later)

def AttributeExpr.bare : AttributeExpr → AttributeExpr
  | .value v => .value v
  | .symbol name => .symbol name
  | .optionalSymbols names => .optionalSymbols names
  | .function e => .function e.bare
  | .malformed => .malformed

def nodesBare : List NodeExpr → List NodeExpr
  | [] => []
  | e :: es => e.bare :: nodesBare es

def listsBare : List (List NodeExpr) → List (List NodeExpr)
  | [] => []
  | es :: rest => nodesBare es :: listsBare rest

def slotsBare : List SlotExpr → List SlotExpr
  | [] => []
  | e :: es => e.bare :: slotsBare es

def attributesBare : List AttributeExpr → List AttributeExpr
  | [] => []
  | e :: es => e.bare :: attributesBare es

end

theorem nodesBare_eq (es : List NodeExpr) : nodesBare es = es.map NodeExpr.bare := by
  induction es with
  | nil => rfl
  | cons e es ih => rw [nodesBare, ih, List.map_cons]

theorem listsBare_eq (rest : List (List NodeExpr)) : listsBare rest = rest.map nodesBare := by
  induction rest with
  | nil => rfl
  | cons es rest ih => rw [listsBare, ih, List.map_cons]

mutual

theorem NodeExpr.weight_bare : ∀ e : NodeExpr, e.bare.weight = e.weight
  | .named _ => rfl
  | .build spec => spec.weight_bare
  | .malformed => rfl

theorem NodeSpec.weight_bare : ∀ spec : NodeSpec, spec.bare.weight = spec.weight
  | .mk _ _ _ _ slots attributes => by
    rw [NodeSpec.bare, NodeSpec.weight, NodeSpec.weight, slotsWeight_bare slots,
      attributesWeight_bare attributes]

theorem SlotExpr.weight_bare : ∀ e : SlotExpr, e.bare.weight = e.weight
  | .filled values => by
    rw [SlotExpr.bare, SlotExpr.weight, SlotExpr.weight, nodesWeight_bare values]
  | .moved _ => rfl
  | .deferred producer => by
    rw [SlotExpr.bare, SlotExpr.weight, SlotExpr.weight, producer.weight_bare]
  | .malformed => rfl

theorem Producer.weight_bare : ∀ p : Producer, p.bare.weight = p.weight
  | .mk _ _ first later => by
    rw [Producer.bare, Producer.weight, Producer.weight, nodesWeight_bare first, listsWeight_bare later]

theorem AttributeExpr.weight_bare : ∀ e : AttributeExpr, e.bare.weight = e.weight
  | .value _ => rfl
  | .symbol _ => rfl
  | .optionalSymbols _ => rfl
  | .function e => e.weight_bare
  | .malformed => rfl

theorem nodesWeight_bare : ∀ es, nodesWeight (nodesBare es) = nodesWeight es
  | [] => rfl
  | e :: es => by rw [nodesBare, nodesWeight, nodesWeight, e.weight_bare, nodesWeight_bare es]

theorem listsWeight_bare : ∀ rest, listsWeight (listsBare rest) = listsWeight rest
  | [] => rfl
  | es :: rest => by
    rw [listsBare, listsWeight, listsWeight, nodesWeight_bare es, listsWeight_bare rest]

theorem slotsWeight_bare : ∀ es, slotsWeight (slotsBare es) = slotsWeight es
  | [] => rfl
  | e :: es => by rw [slotsBare, slotsWeight, slotsWeight, e.weight_bare, slotsWeight_bare es]

theorem attributesWeight_bare : ∀ es, attributesWeight (attributesBare es) = attributesWeight es
  | [] => rfl
  | e :: es => by
    rw [attributesBare, attributesWeight, attributesWeight, e.weight_bare, attributesWeight_bare es]

end

namespace Producer

@[simp] theorem counter_bare (p : Producer) : p.bare.counter = p.counter := by
  cases p
  rfl

@[simp] theorem reenter_bare (p : Producer) : p.bare.reenter = p.reenter := by
  cases p
  rfl

theorem valueOf_bare (p : Producer) (run : Nat) : p.bare.valueOf run = nodesBare (p.valueOf run) := by
  cases p with
  | mk counter reenter first later =>
    simp only [bare, valueOf, listsBare_eq, ← List.map_cons, List.length_map, List.getElem?_map]
    cases (first :: later)[min run (later.length + 1) - 1]? <;> rfl

end Producer

def FlowExpr.bare : FlowExpr → FlowExpr
  | .capture id value => .capture id value.bare
  | .captureReference _ id type isInitialization => .captureReference .nowhere id type isInitialization
  | .nullTest operand boolean => .nullTest operand.bare boolean
  | .caughtException _ type => .caughtException .nowhere type
  | .anonymousFunction wrapped => .anonymousFunction wrapped.bare
  | .semaphore _ guarded boolean => .semaphore .nowhere guarded boolean

def Step.bare : Step → Step
  | .build e => .build e.bare
  | .flow g id e => .flow g id e.bare
  | .makeSlot name arity e => .makeSlot name arity e.bare
  | .sameHeader a b => .sameHeader a.bare b.bare
  | e => e

/-! The store. -/

def Content.bare : Content → Content
  | .filled ops => .filled ops
  | .deferred p runs finished published => .deferred p.bare runs finished published

namespace Content

@[simp] theorem published?_bare (a : Content) : a.bare.published? = a.published? := by cases a <;> rfl

@[simp] theorem isDeferred_bare (a : Content) : a.bare.isDeferred = a.isDeferred := by cases a <;> rfl

@[simp] theorem allowance_bare (a : Content) : a.bare.allowance = a.allowance := by
  rcases a with ops | ⟨p, runs, finished, _ | ops⟩
  · rfl
  · simp [bare, allowance, p.weight_bare]
  · rfl

@[simp] theorem bare_countRun (a : Content) : a.countRun.bare = a.bare.countRun := by cases a <;> rfl

@[simp] theorem bare_finishRun (a : Content) (run : Nat) :
    (a.finishRun run).bare = a.bare.finishRun run := by cases a <;> rfl

@[simp] theorem bare_publish (a : Content) (ops : List NodeId) :
    (a.publish ops).bare = a.bare.publish ops := by
  rcases a with ops' | ⟨p, runs, finished, _ | ops'⟩ <;> rfl

end Content

def Cell.bare (c : Cell) : Cell := { c with content := c.content.bare }

def Node.bare (n : Node) : Node := { n with header := n.header.bare, payload := n.payload.bare }

namespace Node

@[simp] theorem payload_bare (n : Node) : n.bare.payload = n.payload.bare := rfl

@[simp] theorem cells_bare (n : Node) : n.bare.cells = n.cells := rfl

@[simp] theorem kind_bare (n : Node) : n.bare.kind = n.kind := rfl

@[simp] theorem shape_bare (n : Node) : n.bare.shape = n.shape := rfl

@[simp] theorem childCells_bare (n : Node) : n.bare.childCells = n.childCells := by
  simp only [childCells, payload_bare, cells_bare, Payload.evaluationOrder_bare]

@[simp] theorem namedChildCells_bare (n : Node) : n.bare.namedChildCells = n.namedChildCells := by
  simp only [namedChildCells, payload_bare, cells_bare, shape_bare, Payload.evaluationOrder_bare]

@[simp] theorem linkedCells_bare (n : Node) : n.bare.linkedCells = n.linkedCells := rfl

@[simp] theorem eventOf?_bare (n : Node) : Session.eventOf? n.bare = Session.eventOf? n := by
  unfold Session.eventOf?
  rw [shape_bare, payload_bare, Payload.attribute?_bare]
  rcases n.payload.attribute? "event" with _ | v
  · rfl
  · cases v <;> rfl

end Node

namespace Store

def bare (s : Store) : Store := ⟨s.nodes.map Node.bare, s.cells.map Cell.bare⟩

@[simp] theorem size_nodes_bare (s : Store) : s.bare.nodes.size = s.nodes.size := Array.size_map

@[simp] theorem size_cells_bare (s : Store) : s.bare.cells.size = s.cells.size := Array.size_map

@[simp] theorem node?_bare (s : Store) (n : NodeId) : s.bare.node? n = (s.node? n).map Node.bare :=
  Array.getElem?_map

@[simp] theorem cell?_bare (s : Store) (c : CellId) : s.bare.cell? c = (s.cell? c).map Cell.bare :=
  Array.getElem?_map

@[simp] theorem published?_bare (s : Store) (c : CellId) : s.bare.published? c = s.published? c := by
  simp only [published?, cell?_bare, Option.bind_map, Function.comp_def, Cell.bare,
    Content.published?_bare]

@[simp] theorem owner?_bare (s : Store) (c : CellId) : s.bare.owner? c = s.owner? c := by
  simp only [owner?, cell?_bare, Option.bind_map, Function.comp_def, Cell.bare]

@[simp] theorem link?_bare (s : Store) (n : NodeId) : s.bare.link? n = s.link? n := by
  simp only [link?, node?_bare, Option.bind_map, Function.comp_def, Node.bare]

@[simp] theorem holds_bare (s : Store) (n : NodeId) : s.bare.holds n = s.holds n := by
  unfold holds
  rw [node?_bare]
  cases s.node? n with
  | none => rfl
  | some node => simp

@[simp] theorem budget_bare (s : Store) : s.bare.budget = s.budget := by
  unfold budget
  rw [size_nodes_bare, ← Array.foldl_toList, ← Array.foldl_toList, bare, Array.toList_map, List.foldl_map]
  simp only [Cell.bare, Content.allowance_bare]

/-! What is done to the store. -/

theorem map_modify {α β : Type} (f : α → α) (g : α → β) (k : β → β) (h : ∀ a, g (f a) = k (g a))
    (xs : Array α) (i : Nat) : (xs.modify i f).map g = (xs.map g).modify i k := by
  refine Array.ext_getElem? fun j => ?_
  simp only [Array.getElem?_map, Array.getElem?_modify]
  split <;> simp [Function.comp_def, h]

@[simp] theorem bare_link (s : Store) (owner child : NodeId) :
    (s.link owner child).bare = s.bare.link owner child := by
  have hnodes := map_modify (Node.adopted · owner) Node.bare (Node.adopted · owner) (fun _ => rfl)
    s.nodes child
  exact congrArg (Store.mk · (s.cells.map Cell.bare)) hnodes

@[simp] theorem bare_linkAll (s : Store) (owner : NodeId) (children : List NodeId) :
    (s.linkAll owner children).bare = s.bare.linkAll owner children :=
  (List.foldl_hom bare fun s c => (s.bare_link owner c).symm).symm

theorem bare_modifyContent {f g : Content → Content} (h : ∀ a, (f a).bare = g a.bare) (s : Store)
    (c : CellId) : (s.modifyContent c f).bare = s.bare.modifyContent c g := by
  have hcells := map_modify (fun cell : Cell => { cell with content := f cell.content }) Cell.bare
    (fun cell => { cell with content := g cell.content }) (fun cell => by simp only [Cell.bare, h])
    s.cells c
  exact congrArg (Store.mk (s.nodes.map Node.bare)) hcells

@[simp] theorem bare_own (s : Store) (c : CellId) (o : Owner) : (s.own c o).bare = s.bare.own c o := by
  have hcells := map_modify (fun cell : Cell => { cell with owner := cell.owner <|> some o }) Cell.bare
    (fun cell => { cell with owner := cell.owner <|> some o }) (fun _ => rfl) s.cells c
  exact congrArg (Store.mk (s.nodes.map Node.bare)) hcells

@[simp] theorem bare_install (s : Store) (owner : NodeId) (l : Linkage) (c : CellId) :
    (s.install owner l c).bare = s.bare.install owner l c := by
  unfold install
  rw [published?_bare]
  split <;> simp

@[simp] theorem bare_installAll (s : Store) (owner : NodeId) (cells : List (Linkage × CellId)) :
    (s.installAll owner cells).bare = s.bare.installAll owner cells :=
  (List.foldl_hom bare fun s c => (s.bare_install owner c.1 c.2).symm).symm

theorem bare_addCell (s : Store) (arity : Arity) (content : Content) :
    (s.addCell ⟨arity, content, none⟩).2.bare = (s.bare.addCell ⟨arity, content.bare, none⟩).2 :=
  congrArg (Store.mk _) Array.map_push

theorem bare_addOperation (s : Store) (header : Header) (payload : Payload) (cells : List CellId) :
    (s.addOperation header payload cells).2.bare =
      (s.bare.addOperation header.bare payload.bare cells).2 := by
  have hadd : (s.addNode ⟨header, payload, cells, none⟩).2.bare =
      (s.bare.addNode ⟨header.bare, payload.bare, cells, none⟩).2 :=
    congrArg (Store.mk · _) Array.map_push
  have hsize : s.bare.nodes.size = s.nodes.size := s.size_nodes_bare
  simp only [addOperation, bare_installAll, hadd]
  simp only [addNode, hsize]
  rfl

theorem bare_receive (s : Store) (c : CellId) (run : Nat) (candidate : List NodeId) :
    (s.receive c run candidate).bare = s.bare.receive c run candidate := by
  have hfinish : (s.modifyContent c (·.finishRun run)).bare = s.bare.modifyContent c (·.finishRun run) :=
    bare_modifyContent (fun a => a.bare_finishRun run) s c
  unfold receive
  rw [owner?_bare]
  split <;> simp [hfinish]

@[simp] theorem isAlive_bare (s : Store) (roots : List NodeId) (n : NodeId) :
    s.bare.isAlive roots n = s.isAlive roots n := by
  rw [Bool.eq_iff_iff, isAlive_iff, isAlive_iff]
  simp only [Alive, size_nodes_bare, holds_bare]

end Store

namespace Session

def bare (s : Session) : Session := { s with store := s.store.bare }

@[simp] theorem store_bare (s : Session) : s.bare.store = s.store.bare := rfl

@[simp] theorem roots_bare (s : Session) : s.bare.roots = s.roots := by
  simp only [roots, store_bare, Store.published?_bare]
  rfl

@[simp] theorem parent?_bare (s : Session) (n : NodeId) : s.bare.parent? n = s.parent? n := by
  simp only [parent?, isAlive, store_bare, Store.node?_bare, roots_bare, Store.isAlive_bare]
  cases s.store.node? n <;> rfl

@[simp] theorem kind?_bare (s : Session) (n : NodeId) : s.bare.kind? n = s.kind? n := by
  simp only [kind?, store_bare, Store.node?_bare, Option.map_map, Function.comp_def, Node.kind_bare]

@[simp] theorem linkFacts?_bare (s : Session) (n : NodeId) : s.bare.linkFacts? n = s.linkFacts? n := by
  simp only [linkFacts?, store_bare, Store.node?_bare, Option.map_map]
  rfl

@[simp] theorem checkLink_bare (s : Session) (owner : NodeId) (l : Linkage) (child : NodeId) :
    s.bare.checkLink owner l child = s.checkLink owner l child := by
  have hlink : (s.bare.store.node? child).bind (·.parent) = (s.store.node? child).bind (·.parent) :=
    s.store.link?_bare child
  have hfacts : s.bare.linkFacts? = s.linkFacts? := funext s.linkFacts?_bare
  simp only [checkLink, hfacts, hlink, parent?_bare]

theorem ownerKind_bare {s t : Session} (h : t.store = s.store.bare) (o : Option Owner) :
    t.ownerKind o = s.ownerKind o := by
  simp only [ownerKind, h, Store.node?_bare, Option.map_map]
  rfl

theorem Sweep.visit_bare (w : Sweep) (s : Session) (owner : NodeId) (l : Linkage) (child : NodeId) :
    w.visit s.bare owner l child = w.visit s owner l child := by
  simp only [Sweep.visit, Sweep.reach, checkLink_bare, linkFacts?_bare]

@[simp] theorem cellText_bare (s : Session) (c : CellId) : s.bare.cellText c = s.cellText c := by
  simp only [cellText, store_bare, Store.published?_bare, Store.node?_bare, Option.map_map]
  rfl

@[simp] theorem payloadText_bare (s : Session) (node : Node) :
    s.bare.payloadText node = s.payloadText node := by
  simp only [payloadText, funext s.cellText_bare]

@[simp] theorem ancestorsUpTo_bare (s : Session) (k : Nat) (n : NodeId) :
    s.bare.ancestorsUpTo k n = s.ancestorsUpTo k n := by
  induction k generalizing n with
  | zero => rfl
  | succ k ih => simp only [ancestorsUpTo, parent?_bare, ih]

@[simp] theorem ancestors?_bare (s : Session) (n : NodeId) : s.bare.ancestors? n = s.ancestors? n := by
  simp only [ancestors?, ancestorsUpTo_bare, store_bare, Store.size_nodes_bare]

/-! What is done to a session. -/

theorem bare_bind (s : Session) (id : Option String) (n : NodeId) :
    (s.bind id n).bare = s.bare.bind id n := by cases id <;> rfl

theorem bare_withOperation (s : Session) (header : Header) (payload : Payload) (cells : List CellId) :
    (s.withOperation header payload cells).bare =
      s.bare.withOperation header.bare payload.bare cells := by
  simp only [withOperation, bare, Store.bare_addOperation]

theorem positions_bare (s : Session) (cells : List (Linkage × CellId)) :
    s.bare.positions cells = s.positions cells := by
  simp only [positions, store_bare, Store.published?_bare]

/-- What the check of an operation finds wrong first. -/
def violation? (s : Session) (n : NodeId) : Option LinkViolation :=
  (s.positions (((s.store.node? n).map (·.linkedCells)).getD [])).findSome? fun x =>
    s.checkLink n x.1 x.2

theorem constructionViolation?_eq (s : Session) (header : Header) (payload : Payload)
    (cells : List CellId) : s.constructionViolation? header payload cells =
      if s.verifies then { s.withOperation header payload cells with
        held := .node s.store.nodes.size :: s.held }.violation? s.store.nodes.size
      else none := rfl

@[simp] theorem violation?_bare (s : Session) (n : NodeId) : s.bare.violation? n = s.violation? n := by
  simp only [violation?, store_bare, Store.node?_bare, Option.map_map, Function.comp_def,
    Node.linkedCells_bare, positions_bare, checkLink_bare]

/-- The check of a new operation finds the same wherever it comes from. -/
theorem constructionViolation?_bare (s : Session) (header : Header) (payload : Payload)
    (cells : List CellId) : s.bare.constructionViolation? header.bare payload.bare cells =
      s.constructionViolation? header payload cells := by
  have hafter : { s.bare.withOperation header.bare payload.bare cells with
      held := .node s.store.nodes.size :: s.held } =
      Session.bare { s.withOperation header payload cells with
        held := .node s.store.nodes.size :: s.held } := by
    rw [← bare_withOperation]
    rfl
  rw [constructionViolation?_eq, constructionViolation?_eq, store_bare, Store.size_nodes_bare]
  exact congrArg (fun t : Session => if s.verifies then t.violation? _ else none) hafter |>.trans
    (by rw [violation?_bare])

theorem bare_settle (s : Session) (c : CellId) (run : Nat) (candidate : List NodeId) :
    (s.settle c run candidate).bare = s.bare.settle c run candidate := by
  have hreceive := s.store.bare_receive c run candidate
  have hpublish := Store.bare_modifyContent (f := (·.publish candidate)) (g := (·.publish candidate))
    (fun a => a.bare_publish candidate) (s.store.receive c run candidate) c
  rw [hreceive] at hpublish
  unfold settle
  simp only [store_bare, Store.published?_bare, Store.owner?_bare]
  cases s.store.published? c with
  | some ops =>
    have hkind := ownerKind_bare (s := { s with store := s.store.receive c run candidate })
      (t := { s.bare with store := s.store.bare.receive c run candidate }) hreceive.symm
      (s.store.owner? c)
    exact congrArg₂ (fun store kind => { s with store, events := .discarded c run kind :: s.events })
      hreceive hkind.symm
  | none =>
    have hkind := ownerKind_bare (s := { s with
        store := (s.store.receive c run candidate).modifyContent c (·.publish candidate) })
      (t := { s.bare with
        store := (s.store.bare.receive c run candidate).modifyContent c (·.publish candidate) })
      hpublish.symm (s.store.owner? c)
    exact congrArg₂ (fun store kind =>
      { s with store, events := .published c run kind candidate.length :: s.events }) hpublish hkind.symm

theorem publicationViolation?_bare (s : Session) (c : CellId) (run : Nat) (candidate : List NodeId) :
    s.bare.publicationViolation? c run candidate = s.publicationViolation? c run candidate := by
  have hcheck : ∀ o : Owner, (s.bare.settle c run candidate).checkLink o.node o.linkage =
      (s.settle c run candidate).checkLink o.node o.linkage := fun o => by
    rw [← bare_settle]
    exact funext (checkLink_bare _ _ _)
  simp only [publicationViolation?, store_bare, Store.published?_bare, Store.owner?_bare, hcheck]
  rfl

theorem bare_started (s : Session) (c : CellId) (p : Producer) :
    (s.started c p).bare = s.bare.started c p.bare := by
  have hcount := Store.bare_modifyContent Content.bare_countRun s.store c
  unfold started
  rw [Producer.counter_bare]
  cases p.counter with
  | none => exact congrArg (fun store => { s with store }) hcount
  | some name => exact congrArg (fun store => Session.count { s with store } name) hcount

end Session
end BoundTree
