import BoundTree.Proofs.Placement
import BoundTree.Proofs.Traversals

/-!
Operations that flow graphs need. A method of a flow graph takes operations that are there, and may link one of
them; what it builds is implicit and belongs to no semantic model. Main statement: what each method comes to,
in every session, and that nothing ever reaches a function through what stands for it.
-/
namespace BoundTree

/-! Operations without slots. -/

namespace Node

variable {node : Node} (h : node.shape.slots = [])
include h

theorem linkedCells_of_no_slots : node.linkedCells = [] := by
  rw [linkedCells, h, List.map_nil, List.zip_nil_left]

theorem childCells_of_no_slots : node.childCells = [] := by
  refine List.eq_nil_iff_forall_not_mem.mpr fun c hc => ?_
  have hlinked := mem_linkedCells_of_childCells hc
  rw [linkedCells_of_no_slots h] at hlinked
  cases hlinked

theorem namedChildCells_of_no_slots : node.namedChildCells = [] := by
  rw [← List.map_eq_nil_iff, map_namedChildCells, childCells_of_no_slots h]

end Node

namespace Session

open Procedure

/-- Nothing is below the operation, whichever way it is walked: nothing is read, produced or reported, and a
dump is the line of the operation itself. -/
structure Leaf (s : Session) (n : NodeId) (node : Node) : Prop where
  there : s.store.node? n = some node
  children : ∀ limit, children n limit s = (.ok [], s)
  slots : ∀ limit, slotViews n limit s = (.ok [], s)
  descendants : ∀ limit, descendants n limit s = (.ok [], s)
  self : ∀ limit, descendantsAndSelf n limit s = (.ok (limit.elim [n] [n].take), s)
  visited : ∀ {σ : Type} (visit : NodeId → σ → Procedure σ) (a : σ), walkChildren visit n a s = (.ok a, s)
  folded : ∀ {α β : Type} (visit : NodeId → α → Procedure β) (a : α), foldChildren visit n a s = (.ok [], s)
  dumped : dumpLines n s = (.ok [⟨0, nodeText node⟩], s)
  verified : verifyTree n s = (.ok [], s)

theorem walkUpTo_nil (s : Session) (limit : Option Nat) : walkUpTo limit [] s = (.ok [], s) := by
  have hnil : ∀ steps, walk steps [] s = (.ok ([], []), s) := fun steps => by cases steps <;> rfl
  cases limit with
  | none =>
    unfold walkUpTo walkAll
    dsimp only
    rw [bind_ok (read_apply s), bind_ok (hnil _)]
    rfl
  | some steps =>
    unfold walkUpTo
    dsimp only
    rw [bind_ok (hnil steps)]
    rfl

theorem leaf_of_no_slots {s : Session} {n : NodeId} {node : Node} (hn : s.store.node? n = some node)
    (h : node.shape.slots = []) : s.Leaf n node := by
  have hchildren : ∀ limit, children n limit s = (.ok [], s) := fun limit => by
    rw [children_apply hn, Node.childCells_of_no_slots h]
    rcases limit with _ | _ | _ <;> rfl
  have hcells : namedChildCells n s = (.ok [], s) := by
    rw [namedChildCells_apply hn, Node.namedChildCells_of_no_slots h]
  have hvisited : ∀ {σ : Type} (visit : NodeId → σ → Procedure σ) (a : σ),
      walkChildren visit n a s = (.ok a, s) := fun visit a => by
    simp only [walkChildren, childCells, bind_apply, read_apply, pure_apply, hn, Option.elim_some,
      Node.childCells_of_no_slots h, threadCells]
  constructor
  · exact hn
  · exact hchildren
  · intro limit
    rw [slotViews, bind_ok hcells]
    cases limit <;> simp [viewSlots]
  · intro limit
    rw [descendants, bind_ok (hchildren none), walkUpTo_nil]
  · have hwalk : ∀ steps, walk (steps + 1) [n] s = (.ok ([n], []), s) := fun steps => by
      rw [walk, bind_ok (hchildren none)]
      cases steps <;> rfl
    intro limit
    unfold descendantsAndSelf walkUpTo walkAll
    rcases limit with _ | _ | steps
    · obtain ⟨steps, hsteps⟩ : ∃ steps, Nat.pow 2 (s.store.budget + 1) = steps + 1 :=
        Nat.exists_eq_add_one.mpr (Nat.two_pow_pos _)
      dsimp only
      rw [bind_ok (read_apply s), hsteps, bind_ok (hwalk steps)]
      rfl
    · rfl
    · dsimp only
      rw [bind_ok (hwalk steps)]
      simp
  · exact hvisited
  · exact fun visit a => hvisited _ _
  · have hlines : dumping.fallback (dumping.acceptWithin s.store.budget) n node 0 s =
        (.ok [⟨0, nodeText node⟩], s) := by
      simp only [dumping, bind_apply, hcells, dumpSlots, pure_apply]
    simp only [dumpLines, Folder.accept, bind_apply, read_apply, Folder.acceptWithin, hn, ofOption_some_apply]
    exact hlines
  · have hsweep : sweep (s.store.budget + 2) ⟨[n], [n], []⟩ s = (.ok ⟨[n], [], []⟩, s) := by
      rw [sweep_next rfl hn, Node.linkedCells_of_no_slots h, sweepSlots, pure_bind]
      exact sweep_done rfl _ s
    rw [verifyTree, bind_ok (read_apply s), bind_ok hsweep]
    rfl

end Session

/-! The methods of a flow graph. -/

/-- A method with its arguments, the operations among them being there. -/
inductive FlowCall
  | capture (id : CaptureId) (value : NodeId)
  | captureReference (locus : Locus) (id : CaptureId) (type : Option TypeId) (isInitialization : Bool)
  | nullTest (operand : NodeId) (boolean : TypeId)
  | caughtException (locus : Locus) (type : TypeId)
  | anonymousFunction (wrapped : NodeId)
  | semaphore (locus : Locus) (guarded : LocalId) (boolean : TypeId)

namespace FlowCall

def kind : FlowCall → Kind
  | .capture .. => .flowCapture
  | .captureReference .. => .flowCaptureReference
  | .nullTest .. => .nullTest
  | .caughtException .. => .caughtException
  | .anonymousFunction _ => .flowAnonymousFunction
  | .semaphore .. => .staticLocalInitializationSemaphore

/-- The operation that is passed in. -/
def operand? : FlowCall → Option NodeId
  | .capture _ n | .nullTest n _ | .anonymousFunction n => some n
  | _ => none

/-- The operation that is taken as a child. -/
def child? : FlowCall → Option NodeId
  | .capture _ n | .nullTest n _ => some n
  | _ => none

/-- What is passed in as a function is something else. -/
def WrapsOther (c : FlowCall) (u : Session) : Prop :=
  ∃ n node, c = .anonymousFunction n ∧ u.store.node? n = some node ∧ node.kind ≠ .anonymousFunction

/-- What is taken as a child has been linked before, whether or not the parent is still there. -/
def TakesLinked (c : FlowCall) (u : Session) : Prop := ∃ n p, c.child? = some n ∧ u.store.link? n = some p

/-- What a method has built, and what has become of everything else. -/
structure Built (c : FlowCall) (u : Session) (n : NodeId) (node : Node) (t : Session) : Prop where
  new : u.store.node? n = none
  added : t.store.node? n = some node
  kind : node.kind = c.kind
  synthetic : node.kind.isSynthetic = true
  implicit : node.header.isImplicit = true
  model : node.header.model = none
  free : node.parent = none
  /-- It comes from where the operation comes from that is passed in. -/
  locus : ∀ m operand, c.operand? = some m → u.store.node? m = some operand →
    node.header.locus = operand.header.locus
  /-- What stands for a function has its type, and refers to it. -/
  type : ∀ m operand, c = .anonymousFunction m → u.store.node? m = some operand →
    node.header.resultType = operand.header.resultType ∧ node.payload.nodes = [m]
  /-- A child gets its link if it has none, and nothing else changes, no slot least of all. -/
  others : ∀ m, m ≠ n → t.store.node? m =
    (u.store.node? m).map fun other => if c.child? = some m then other.adopted n else other
  slots : ∀ d, d < u.store.cells.size →
    t.store.content? d = u.store.content? d ∧ t.store.owner? d = u.store.owner? d
  rest : t = { u with store := t.store }

/-- Nothing is linked that was not, and whatever happens from then on, nothing is below the operation. -/
def Apart (u : Session) (n : NodeId) (node : Node) (t : Session) : Prop :=
  (∀ m, t.store.link? m = u.store.link? m) ∧
    ∀ later, t.Changes later → ∃ node', node.Le node' ∧ later.Leaf n node'

/-- What a method is rejected for. -/
def refusal : ConstructionError := .inconsistentAttribute .flowAnonymousFunction "original" .notFunction

/-- What a method comes to. -/
structure EndsIn (c : FlowCall) (u : Session) (r : Except Fault NodeId × Session) : Prop where
  /-- What is rejected leaves nothing but a report. -/
  rejected : c.WrapsOther u → r = (.error (.rejected refusal),
    { u with events := .rejected .flowAnonymousFunction refusal :: u.events })
  stopped : u.verifies = true → c.TakesLinked u →
    ∃ child actual t, r = (.error (.panicked (.brokenLink (.wrongParent child c.kind actual))), t)
  built : ¬c.WrapsOther u → ¬(u.verifies = true ∧ c.TakesLinked u) →
    ∃ n node t, r = (.ok n, t) ∧ c.Built u n node t ∧ (c.child? = none → Apart u n node t)

/-- The header and the payload are those that a method gives to what it builds, and nothing is wrong with
them. -/
structure Suits (c : FlowCall) (u : Session) (header : Header) (payload : Payload) : Prop where
  kind : payload.kind = c.kind
  implicit : header.isImplicit = true
  model : header.model = none
  locus : ∀ m operand, c.operand? = some m → u.store.node? m = some operand →
    header.locus = operand.header.locus
  type : ∀ m operand, c = .anonymousFunction m → u.store.node? m = some operand →
    header.resultType = operand.header.resultType ∧ payload.nodes = [m]
  valid : payload.error? header = none

variable {c : FlowCall} {u : Session} {r : Except Fault NodeId × Session}

theorem isSynthetic_kind (c : FlowCall) : c.kind.isSynthetic = true := by cases c <;> rfl

/-- A child is passed in, and is no function that something stands for. -/
theorem operand?_of_child? {n : NodeId} (h : c.child? = some n) :
    c.operand? = some n ∧ ∀ m, c ≠ .anonymousFunction m := by
  cases c with
  | capture | nullTest => exact ⟨h, fun _ hm => nomatch hm⟩
  | _ => cases h

/-- A method is rejected for nothing else. -/
theorem EndsIn.rejected_iff (h : c.EndsIn u r) : (∃ x, r.1 = .error (.rejected x)) ↔ c.WrapsOther u := by
  constructor
  · rintro ⟨x, hx⟩
    by_contra hwraps
    by_cases hlinked : u.verifies = true ∧ c.TakesLinked u
    · obtain ⟨_, _, _, rfl⟩ := h.stopped hlinked.1 hlinked.2
      cases hx
    · obtain ⟨_, _, _, rfl, -⟩ := h.built hwraps hlinked
      cases hx
  · intro hwraps
    exact ⟨refusal, by rw [h.rejected hwraps]⟩

/-- A method panics for nothing else. -/
theorem EndsIn.panicked_iff (h : c.EndsIn u r) :
    (∃ p, r.1 = .error (.panicked p)) ↔ u.verifies = true ∧ c.TakesLinked u := by
  constructor
  · rintro ⟨p, hp⟩
    by_contra hlinked
    by_cases hwraps : c.WrapsOther u
    · rw [h.rejected hwraps] at hp
      cases hp
    · obtain ⟨_, _, _, rfl, -⟩ := h.built hwraps hlinked
      cases hp
  · rintro ⟨hverifies, hlinked⟩
    obtain ⟨child, actual, t, rfl⟩ := h.stopped hverifies hlinked
    exact ⟨_, rfl⟩

end FlowCall

/-- From a session, what an operation is to be built from is evaluated, and in the session after that the
method is called. -/
inductive FlowExpr.Calls (s : Session) : FlowExpr → FlowCall → Session → Prop
  | capture {id : CaptureId} {value : NodeExpr} {n : NodeId} {u : Session}
      (h : Session.evalNode value s = (.ok n, u)) : Calls s (.capture id value) (.capture id n) u
  | captureReference {locus : Locus} {id : CaptureId} {type : Option TypeId} {isInitialization : Bool} :
      Calls s (.captureReference locus id type isInitialization)
        (.captureReference locus id type isInitialization) s
  | nullTest {operand : NodeExpr} {boolean : TypeId} {n : NodeId} {u : Session}
      (h : Session.evalNode operand s = (.ok n, u)) :
      Calls s (.nullTest operand (some boolean)) (.nullTest n boolean) u
  | caughtException {locus : Locus} {type : TypeId} :
      Calls s (.caughtException locus type) (.caughtException locus type) s
  | anonymousFunction {wrapped : NodeExpr} {n : NodeId} {u : Session}
      (h : Session.evalNode wrapped s = (.ok n, u)) :
      Calls s (.anonymousFunction wrapped) (.anonymousFunction n) u
  | semaphore {locus : Locus} {guarded : LocalId} {boolean : TypeId} :
      Calls s (.semaphore locus guarded boolean) (.semaphore locus guarded boolean) s

namespace Session

open Procedure

variable {s u : Session} {n : NodeId} {node : Node}

/-- The operation that is evaluated is in use no longer than it was. -/
theorem evalNode_held (e : NodeExpr) (s : Session) : (evalNode e s).2.held = s.held := by
  cases e with
  | named id =>
    rw [evalNode, bind_ok (read_apply s)]
    cases s.node? id <;> rfl
  | malformed => rfl
  | build spec =>
    obtain ⟨id, header, shape, tag, slots, attributes⟩ := spec
    rw [evalNode, evalSpec, bind_apply, releasing_apply]
    generalize (evalSlots _ slots >>= _) s = built
    obtain ⟨_ | n, t⟩ := built
    · rfl
    · cases id <;> rfl

theorem evalOperand_ok {e : NodeExpr} (h : evalNode e s = (.ok n, u)) (hn : u.store.node? n = some node) :
    evalOperand e s = (.ok (n, node.header), { u with held := .node n :: u.held }) := by
  rw [evalOperand, bind_ok h, bind_ok (hold_apply _ _), bind_ok (read_apply _), bind_ok (by rw [hn]; rfl)]
  rfl

/-- An operation that was evaluated is there. -/
theorem evalNode_there {e : NodeExpr} (hs : s.Present) (h : evalNode e s = (.ok n, u)) :
    ∃ node, u.store.node? n = some node ∧ ({ u with held := .node n :: u.held } : Session).Present := by
  obtain ⟨hu, -, hhas⟩ := finds_logic.evalNode e s hs ⟨by simp, by simp⟩
  rw [h] at hu hhas
  have hn : u.Has ⟨[], [n]⟩ := hhas n rfl
  obtain ⟨node, hnode⟩ := Option.isSome_iff_exists.mp
    (Store.node?_isSome (hn.node n (List.mem_singleton_self n)))
  exact ⟨node, hnode, (finds_logic.hold n u hu hn).1⟩

variable {header : Header} {payload : Payload} {shape : Shape} {attributes : List AttributeValue}

theorem constructFlow_nil (hmake : Payload.make? shape none attributes = some payload) :
    constructFlow header shape [] attributes = construct header payload [] := by
  unfold constructFlow
  rw [List.mapM_nil, pure_bind, hmake]
  rfl

theorem constructFlow_singleton (hmake : Payload.make? shape none attributes = some payload) (s : Session) :
    constructFlow header shape [n] attributes s =
      construct header payload [s.store.cells.size] (newCell .one (.filled [n]) s).2 := by
  unfold constructFlow
  rw [List.mapM_cons, List.mapM_nil, hmake]
  rfl

/-- Without slots nothing is out of place. -/
theorem constructionViolation?_nil (s : Session) (header : Header) (payload : Payload) :
    s.constructionViolation? header payload [] = none := by
  cases hverifies : s.verifies with
  | false => simp [constructionViolation?, hverifies]
  | true => rw [constructionViolation?_eq_findSome? header hverifies, places, List.zip_nil_right]; rfl

/-- The session after an operation was evaluated that goes into a slot of its own. -/
def slotted (u : Session) (n : NodeId) : Session :=
  (newCell .one (.filled [n]) { u with held := .node n :: u.held }).2

theorem adopted_slotted {e : NodeExpr} (hs : s.Adopted) (h : evalNode e s = (.ok n, u)) :
    (u.slotted n).Adopted ∧ u.verifies = s.verifies := by
  have hu : s.Changes u := Additions.changes ((adding_logic.evalNode e).reaches h)
  have hheld : u.Changes { u with held := .node n :: u.held } := Additions.changes (Adding.hold _ u)
  have hcell : ({ u with held := .node n :: u.held } : Session).Changes (u.slotted n) :=
    Additions.changes (adding_newCell .one rfl _)
  exact ⟨Changes.keeps Change.adopted (hu.trans (hheld.trans hcell)) hs, hu.verifies⟩

theorem present_slotted {e : NodeExpr} (hs : s.Present) (h : evalNode e s = (.ok n, u)) :
    (u.slotted n).Present := by
  obtain ⟨node, hnode, hu⟩ := evalNode_there hs h
  refine (finds_newCell .one (.filled [n]) _ hu ⟨by simp, fun m hm => ?_⟩).1
  rw [List.mem_singleton.mp hm]
  exact Store.node?_lt hnode

theorem published?_slotted (u : Session) (n : NodeId) :
    (u.slotted n).store.published? u.store.cells.size = some [n] :=
  (u.store.published?_addCell _ _).trans (if_pos rfl)

theorem places_slotted (hslots : payload.shape.slots.map (·.linkage) = [.attached]) (u : Session)
    (n : NodeId) : (u.slotted n).places payload [u.store.cells.size] = [(.attached, n)] := by
  rw [places, hslots]
  simp [positions, published?_slotted]

theorem offered_slotted (hslots : payload.shape.slots.map (·.linkage) = [.attached]) (u : Session)
    (n : NodeId) : (u.slotted n).offered payload [u.store.cells.size] = [n] := by
  rw [offered, hslots]
  simp [Store.heldIn, published?_slotted]

theorem slots_slotted (u : Session) (n : NodeId) (d : CellId) (hd : d < u.store.cells.size) :
    d ∉ [u.store.cells.size] ∧ (u.slotted n).store.content? d = u.store.content? d ∧
      (u.slotted n).store.owner? d = u.store.owner? d :=
  ⟨by simpa using hd.ne, (u.store.content?_addCell _ d).trans (if_neg hd.ne), u.store.owner?_addCell _ _ d⟩

/-- A flow node may take a value of any semantic model, unless the value has been linked before. -/
theorem misplaced_slotted (hsynthetic : payload.kind.isSynthetic = true) {v : LinkViolation}
    (h : (u.slotted n).Misplaced header payload [u.store.cells.size] (.attached, n) v) :
    ∃ p child actual, u.store.link? n = some p ∧ v = .wrongParent child payload.kind actual := by
  cases h with
  | taken there linked => exact ⟨_, _, _, Option.bind_eq_some_iff.mpr ⟨_, there, linked⟩, rfl⟩
  | foreign _ _ _ binds _ => exact absurd hsynthetic binds

theorem construct_linked (header : Header) (hpresent : (u.slotted n).Present) (hadopted : (u.slotted n).Adopted)
    (hslots : payload.shape.slots.map (·.linkage) = [.attached]) (herror : payload.error? header = none)
    (hverifies : u.verifies = true) {p : NodeId} (hlinked : u.store.link? n = some p) :
    ∃ child actual t, construct header payload [u.store.cells.size] (u.slotted n) =
      (.error (.panicked (.brokenLink (.wrongParent child payload.kind actual))), t) := by
  obtain ⟨child, hchild, hp⟩ := Option.bind_eq_some_iff.mp hlinked
  have hverifies : (u.slotted n).verifies = true := hverifies
  have hplace : (u.slotted n).Misplaced header payload [u.store.cells.size] (.attached, n) _ := .taken hchild hp
  have hviolation := constructionViolation?_of_misplaced hverifies hadopted hpresent
    (places_slotted hslots u n : _ = [] ++ (.attached, n) :: []) hplace (fun _ hin => nomatch hin)
  rw [construct_apply, herror, hviolation]
  exact ⟨_, _, _, rfl⟩

theorem construct_free (header : Header) (hpresent : (u.slotted n).Present) (hadopted : (u.slotted n).Adopted)
    (hslots : payload.shape.slots.map (·.linkage) = [.attached]) (hsynthetic : payload.kind.isSynthetic = true)
    (herror : payload.error? header = none) (hfree : u.verifies = true → u.store.link? n = none) :
    construct header payload [u.store.cells.size] (u.slotted n) = (.ok u.store.nodes.size,
      (u.slotted n).withOperation header payload [u.store.cells.size]) := by
  have hnone : (u.slotted n).constructionViolation? header payload [u.store.cells.size] = none := by
    cases hverifies : (u.slotted n).verifies with
    | false => simp [constructionViolation?, hverifies]
    | true =>
      rw [constructionViolation?_eq_none_iff header payload _ hverifies hadopted hpresent,
        places_slotted hslots]
      intro place hplace v hv
      obtain rfl := List.mem_singleton.mp hplace
      obtain ⟨p, -, -, hlinked, -⟩ := misplaced_slotted hsynthetic hv
      rw [hfree hverifies] at hlinked
      cases hlinked
  rw [construct_apply, herror, hnone]
  rfl

/-- A new flow node, whatever has been prepared for it. -/
theorem built_withOperation {c : FlowCall} {w : Session} {cells : List CellId}
    (h : c.Suits u header payload) (hw : w = { u with store := w.store, held := w.held })
    (hnodes : w.store.nodes = u.store.nodes)
    (hslots : ∀ d, d < u.store.cells.size → d ∉ cells ∧
      w.store.content? d = u.store.content? d ∧ w.store.owner? d = u.store.owner? d)
    (hoffered : w.offered payload cells = c.child?.toList)
    (hchild : ∀ m, c.child? = some m → m < u.store.nodes.size) :
    c.Built u u.store.nodes.size ⟨header, payload, cells, none⟩
      { w.withOperation header payload cells with held := u.held } := by
  have hnode : ∀ m, w.store.node? m = u.store.node? m := fun m => by rw [Store.node?, hnodes, Store.node?]
  have hall := w.store.node?_addOperation header payload cells
  have hinstalls := w.installs_withOperation header payload cells w.events
  have hmem : ∀ m, m ∈ w.offered payload cells ↔ c.child? = some m := fun m => by
    rw [hoffered, Option.mem_toList]
  rw [hnodes] at hall
  constructor
  · simp [Store.node?]
  · refine (hall _).trans ?_
    rw [if_pos rfl, Option.map_some]
    refine congrArg some (if_neg fun hin => ?_)
    exact lt_irrefl _ (hchild _ ((hmem _).mp hin))
  · exact h.kind
  · change payload.kind.isSynthetic = true
    rw [h.kind, c.isSynthetic_kind]
  · exact h.implicit
  · exact h.model
  · rfl
  · exact h.locus
  · exact h.type
  · intro m hm
    refine (hall m).trans ?_
    rw [if_neg hm, hnode]
    refine congrArg (fun f => (u.store.node? m).map f) (funext fun other => ?_)
    exact if_congr (hmem m) rfl rfl
  · intro d hd
    obtain ⟨hnew, hcontent, howner⟩ := hslots d hd
    exact ⟨(hinstalls.content d).trans hcontent, (hinstalls.owner d hnew).trans howner⟩
  · rw [hw]
    rfl

/-- What has no slots stays without anything below it. -/
theorem apart_of_built {c : FlowCall} {t : Session} (h : c.Built u n node t) (hchild : c.child? = none)
    (hslots : node.shape.slots = []) : FlowCall.Apart u n node t := by
  refine ⟨fun m => ?_, fun later hlater => ?_⟩
  · by_cases hm : m = n
    · subst hm
      simp [Store.link?, h.added, h.new, h.free]
    · have hother := h.others m hm
      simp only [hchild, reduceCtorEq, if_false, Option.map_id'] at hother
      rw [Store.link?, hother, Store.link?]
  · obtain ⟨node', hnode', hle⟩ := (Changes.le hlater).node h.added
    have hshape : node'.shape = node.shape := congrArg Payload.shape hle.payload
    exact ⟨node', hle, leaf_of_no_slots hnode' (hshape ▸ hslots)⟩

/-- A method that is given no child and has nothing to object to. -/
theorem endsIn_nil {c : FlowCall} {v : Session} {r : Except Fault NodeId × Session}
    (h : c.Suits u header payload) (hv : v = { u with held := v.held }) (hchild : c.child? = none)
    (hwraps : ¬c.WrapsOther u) (hslots : payload.shape.slots = [])
    (hr : r = ((construct header payload [] v).1,
      { (construct header payload [] v).2 with held := u.held })) : c.EndsIn u r := by
  refine ⟨fun hother => absurd hother hwraps, fun _ => fun ⟨m, p, hm, _⟩ => ?_, fun _ _ => ?_⟩
  · rw [hchild] at hm
    cases hm
  · have hstore : v.store = u.store := by rw [hv]
    have hoffered : v.offered payload [] = c.child?.toList := by
      rw [hchild, offered, hslots]
      rfl
    have hbuilt := built_withOperation (w := v) h (hstore ▸ hv) (congrArg Store.nodes hstore)
      (fun d _ => ⟨List.not_mem_nil, by rw [hstore], by rw [hstore]⟩) hoffered (by simp [hchild])
    refine ⟨_, _, _, ?_, hbuilt, fun _ => apart_of_built hbuilt hchild hslots⟩
    rw [hr, construct_apply, h.valid, constructionViolation?_nil, hstore]

/-- A method that is given no operation. -/
theorem endsIn_alone {c : FlowCall} {locus : Locus} {type : Option TypeId} (payload : Payload)
    (hoperand : c.operand? = none) (hkind : payload.kind = c.kind) (hslots : payload.shape.slots = [])
    (hvalid : payload.error? (flowHeader locus type) = none) :
    c.EndsIn s (construct (flowHeader locus type) payload [] s) := by
  have hfunction : ∀ m, c ≠ .anonymousFunction m := fun m h => by
    rw [h] at hoperand
    cases hoperand
  have hsuits : c.Suits s (flowHeader locus type) payload :=
    ⟨hkind, rfl, rfl, fun m _ hm => (by rw [hoperand] at hm; cases hm), fun m _ h => absurd h (hfunction m),
      hvalid⟩
  have hchild : c.child? = none := Option.eq_none_iff_forall_ne_some.mpr fun m hm => by
    rw [(FlowCall.operand?_of_child? hm).1] at hoperand
    cases hoperand
  refine endsIn_nil (v := s) hsuits rfl hchild (fun ⟨m, _, h, _⟩ => hfunction m h) hslots ?_
  rw [construct_apply, hvalid, constructionViolation?_nil]
  rfl

/-- A method that is given a child. -/
theorem endsIn_singleton {c : FlowCall} {e : NodeExpr} (type : Option TypeId) (payload : Payload)
    {r : Except Fault NodeId × Session} (hs : s.Present) (hadopted : s.Adopted)
    (he : evalNode e s = (.ok n, u)) (hn : u.store.node? n = some node) (hchild : c.child? = some n)
    (hkind : payload.kind = c.kind) (hslots : payload.shape.slots.map (·.linkage) = [.attached])
    (hvalid : payload.error? (flowHeader node.header.locus type) = none)
    (hr : r = ((construct (flowHeader node.header.locus type) payload [u.store.cells.size] (u.slotted n)).1,
      { (construct (flowHeader node.header.locus type) payload [u.store.cells.size] (u.slotted n)).2 with
        held := u.held })) : c.EndsIn u r := by
  have hpresent := present_slotted hs he
  have hadopted := (adopted_slotted hadopted he).1
  obtain ⟨hoperand, hfunction⟩ := FlowCall.operand?_of_child? hchild
  have hlocus : ∀ m operand, c.operand? = some m → u.store.node? m = some operand →
      node.header.locus = operand.header.locus := fun m operand hm hother => by
    obtain rfl : n = m := Option.some.inj (hoperand.symm.trans hm)
    rw [Option.some.inj (hn.symm.trans hother)]
  have hsuits : c.Suits u (flowHeader node.header.locus type) payload :=
    ⟨hkind, rfl, rfl, hlocus, fun m _ h => absurd h (hfunction m), hvalid⟩
  refine ⟨fun ⟨m, _, hm, _⟩ => absurd hm (hfunction m), fun hverifies => fun ⟨m, p, hm, hp⟩ => ?_,
    fun _ hnot => ?_⟩
  · obtain rfl : n = m := Option.some.inj (hchild.symm.trans hm)
    obtain ⟨child, actual, t, ht⟩ := construct_linked _ hpresent hadopted hslots hvalid hverifies hp
    rw [hr, ht, hkind]
    exact ⟨child, actual, _, rfl⟩
  · have hfree : u.verifies = true → u.store.link? n = none := fun hverifies =>
      Option.eq_none_iff_forall_ne_some.mpr fun p hp => hnot ⟨hverifies, n, p, hchild, hp⟩
    have hoffered : (u.slotted n).offered payload [u.store.cells.size] = c.child?.toList := by
      rw [offered_slotted hslots, hchild]
      rfl
    have hthere : ∀ m, c.child? = some m → m < u.store.nodes.size := fun m hm => by
      obtain rfl : n = m := Option.some.inj (hchild.symm.trans hm)
      exact Store.node?_lt hn
    have hbuilt := built_withOperation (w := u.slotted n) hsuits rfl rfl (slots_slotted u n) hoffered hthere
    refine ⟨_, _, _, ?_, hbuilt, fun hnone => ?_⟩
    · rw [hr, construct_free _ hpresent hadopted hslots (hkind ▸ c.isSynthetic_kind) hvalid hfree]
    · rw [hchild] at hnone
      cases hnone

/-- What stands for a function. -/
def wrapping (g : FlowGraph) (f : FunctionRef) : Payload :=
  ⟨.flowAnonymousFunction, none, [("original", .function f), ("context", .handle .context g.context)], rfl⟩

theorem error?_wrapping (g : FlowGraph) (f : FunctionRef) (locus : Locus) (type : Option TypeId) :
    (wrapping g f).error? (flowHeader locus type) =
      if f.kind ≠ .anonymousFunction then some FlowCall.refusal else none := by
  have hrule : (wrapping g f).error? (flowHeader locus type) =
      (wrapping g f).blame "original" (f.kind ≠ .anonymousFunction) .notFunction := rfl
  rw [hrule, Payload.blame]
  simp only [decide_eq_true_eq]
  rfl

theorem evalFlow_anonymousFunction {wrapped : NodeExpr} (g : FlowGraph) (he : evalNode wrapped s = (.ok n, u))
    (hn : u.store.node? n = some node) : evalFlow g (.anonymousFunction wrapped) s =
      ((construct (flowHeader node.header.locus node.header.resultType)
        (wrapping g ⟨n, node.kind, node.header.locus⟩) [] { u with held := .node n :: u.held }).1,
      { (construct (flowHeader node.header.locus node.header.resultType)
        (wrapping g ⟨n, node.kind, node.header.locus⟩) [] { u with held := .node n :: u.held }).2 with
        held := s.held }) := by
  have hfunction : functionRef n { u with held := .node n :: u.held } =
      (.ok ⟨n, node.kind, node.header.locus⟩, { u with held := .node n :: u.held }) := by
    simp only [functionRef, bind_apply, read_apply, hn, ofOption_some_apply, pure_apply]
  rw [evalFlow, releasing_apply, bind_ok (evalOperand_ok he hn)]
  dsimp only
  rw [bind_ok hfunction, constructFlow_nil rfl]
  rfl

/-- A method is called once what it is given is there, which is in use until the method ends. -/
theorem endsIn_evalFlow {verifies : Bool} (hs : Reached verifies s) (g : FlowGraph) {e : FlowExpr}
    {c : FlowCall} (hcall : e.Calls s c u) : c.EndsIn u (evalFlow g e s) := by
  have hpresent := hs.present
  have hadopted := hs.adopted
  have hheld : ∀ {e n u}, evalNode e s = (.ok n, u) → u.held = s.held := fun {e n u} he => by
    have hheld := evalNode_held e s
    rwa [he] at hheld
  cases hcall with
  | @capture id value n u he =>
    obtain ⟨node, hn, -⟩ := evalNode_there hpresent he
    refine endsIn_singleton none ⟨.flowCapture, none, [("id", .handle .capture id)], rfl⟩ hpresent
      hadopted he hn rfl rfl rfl rfl ?_
    rw [evalFlow, releasing_apply, bind_ok (evalOperand_ok he hn), ← hheld he]
    dsimp only
    rw [constructFlow_singleton rfl]
    rfl
  | @nullTest operand boolean n u he =>
    obtain ⟨node, hn, -⟩ := evalNode_there hpresent he
    refine endsIn_singleton (some boolean) ⟨.nullTest, none, [], rfl⟩ hpresent hadopted he hn
      rfl rfl rfl rfl ?_
    rw [evalFlow, releasing_apply, bind_ok (evalOperand_ok he hn), ← hheld he]
    dsimp only
    rw [ofOption, pure_bind, constructFlow_singleton rfl]
    rfl
  | @captureReference locus id type isInitialization =>
    exact endsIn_alone ⟨.flowCaptureReference, none,
      [("id", .handle .capture id), ("is_initialization", .flag isInitialization)], rfl⟩ rfl rfl rfl rfl
  | @caughtException locus type =>
    exact endsIn_alone ⟨.caughtException, none, [], rfl⟩ rfl rfl rfl rfl
  | @semaphore locus guarded boolean =>
    exact endsIn_alone ⟨.staticLocalInitializationSemaphore, none,
      [("local", .handle .localVar guarded)], rfl⟩ rfl rfl rfl rfl
  | @anonymousFunction wrapped n u he =>
    obtain ⟨node, hn, -⟩ := evalNode_there hpresent he
    have hflow := evalFlow_anonymousFunction g he hn
    rw [← hheld he] at hflow
    have herror := error?_wrapping g ⟨n, node.kind, node.header.locus⟩ node.header.locus node.header.resultType
    -- the only rule of a flow node that depends on what it is given
    by_cases hkind : node.kind = .anonymousFunction
    · rw [if_neg (not_not.mpr hkind)] at herror
      have hsuits : (FlowCall.anonymousFunction n).Suits u
          (flowHeader node.header.locus node.header.resultType)
          (wrapping g ⟨n, node.kind, node.header.locus⟩) := by
        refine ⟨rfl, rfl, rfl, fun m operand hm hoperand => ?_, fun m operand hm hoperand => ?_, herror⟩
        all_goals
          cases hm
          cases hn.symm.trans hoperand
        · rfl
        · exact ⟨rfl, rfl⟩
      refine endsIn_nil hsuits rfl rfl ?_ rfl hflow
      rintro ⟨m, other, hm, hother, hne⟩
      cases hm
      cases hn.symm.trans hother
      exact hne hkind
    · rw [if_pos hkind] at herror
      have hother : (FlowCall.anonymousFunction n).WrapsOther u := ⟨n, node, rfl, hn, hkind⟩
      refine ⟨fun _ => ?_, fun _ ⟨_, _, h, _⟩ => (nomatch h), fun h => absurd hother h⟩
      rw [hflow, construct_apply, herror]
      rfl

/-- Without a call nothing is built. -/
theorem calls_of_evalFlow {g : FlowGraph} {e : FlowExpr} (h : (evalFlow g e s).1 = .ok n) :
    ∃ c u, e.Calls s c u := by
  have hoperand : ∀ {operand : NodeExpr} {f : NodeId × Header → Procedure NodeId},
      (releasing (evalOperand operand >>= f) s).1 = .ok n → ∃ m u, evalNode operand s = (.ok m, u) := by
    intro operand f h
    rw [releasing_apply] at h
    obtain ⟨_, _, hvalue, -⟩ := bind_eq_ok (eq_ok h)
    obtain ⟨m, u, hm, -⟩ := bind_eq_ok hvalue
    exact ⟨m, u, hm⟩
  cases e with
  | capture => obtain ⟨m, u, hm⟩ := hoperand h; exact ⟨_, u, .capture hm⟩
  | captureReference => exact ⟨_, s, .captureReference⟩
  | nullTest operand boolean =>
    obtain ⟨m, u, hm⟩ := hoperand h
    cases boolean with
    | some boolean => exact ⟨_, u, .nullTest hm⟩
    | none =>
      rw [evalFlow, releasing_apply] at h
      obtain ⟨_, _, -, h⟩ := bind_eq_ok (eq_ok h)
      cases h
  | caughtException => exact ⟨_, s, .caughtException⟩
  | anonymousFunction => obtain ⟨m, u, hm⟩ := hoperand h; exact ⟨_, u, .anonymousFunction hm⟩
  | semaphore => exact ⟨_, s, .semaphore⟩

/-- In every session that is reached, whatever a method of a flow graph is called with: a function is refused
exactly if it is none, and then nothing happens; a child is refused, where links are checked, exactly if it
has been linked before, of whatever model it is; and all else is built, implicit, of no model, and from where
the operation comes from that is passed in. What stands for a function links nothing, and at no later time is
the function below it. -/
theorem flow_methods {verifies : Bool} (hs : Reached verifies s) (g : FlowGraph) {e : FlowExpr} {c : FlowCall}
    (hcall : e.Calls s c u) :
    c.EndsIn u (evalFlow g e s) ∧
      ((∃ x, (evalFlow g e s).1 = .error (.rejected x)) ↔ c.WrapsOther u) ∧
      ((∃ p, (evalFlow g e s).1 = .error (.panicked p)) ↔ u.verifies = true ∧ c.TakesLinked u) := by
  have hends := endsIn_evalFlow hs g hcall
  exact ⟨hends, hends.rejected_iff, hends.panicked_iff⟩

/-- A function whose body cannot be made. -/
def unfinished : List Step :=
  [.build (statement (some "f") .anonymousFunction [.deferred (.mk none none [.named "missing"] [])]
    [.value (.handle .method ⟨0⟩)])]

/-- What stands for it is checked all the same, and its body is not asked for. -/
theorem flow_methods_unfinished :
    Reached true ((start true).after unfinished) ∧
      (FlowExpr.anonymousFunction (.named "f")).Calls ((start true).after unfinished) (.anonymousFunction 0)
        ((start true).after unfinished) ∧
      ∃ n t, evalFlow ⟨⟨0⟩⟩ (.anonymousFunction (.named "f")) ((start true).after unfinished) = (.ok n, t) ∧
        verifyTree n t = (.ok [], t) := by
  have hs : Reached true ((start true).after unfinished) := Reached.start.after _
  have hcall : (FlowExpr.anonymousFunction (.named "f")).Calls ((start true).after unfinished)
      (.anonymousFunction 0) ((start true).after unfinished) := .anonymousFunction rfl
  have hkind : (((start true).after unfinished).store.node? 0).map (·.kind) = some .anonymousFunction := by
    decide
  obtain ⟨hends, -, -⟩ := flow_methods hs ⟨⟨0⟩⟩ hcall
  have hwraps : ¬(FlowCall.anonymousFunction 0).WrapsOther ((start true).after unfinished) := by
    rintro ⟨_, node, hm, hnode, hother⟩
    cases hm
    rw [hnode] at hkind
    exact hother (Option.some.inj hkind)
  obtain ⟨n, node, t, ht, -, hapart⟩ := hends.built hwraps fun ⟨_, _, _, h, _⟩ => nomatch h
  obtain ⟨_, -, hleaf⟩ := (hapart rfl).2 t .refl
  exact ⟨hs, hcall, n, t, ht, hleaf.verified⟩

end Session
end BoundTree
