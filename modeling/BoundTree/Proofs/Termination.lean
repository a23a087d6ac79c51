import BoundTree.Proofs.Runs

/-!
Reads end. What a store can still come to hold bounds the depth of nested reads, and no read makes it
more. Main statement: reading a slot, and checking a whole tree, is never given up.
-/
namespace BoundTree

/-- How many slots and places a content can still give rise to. A producer that has not run yet runs
twice at most: once more while it runs for the first time. -/
def Content.potential : Content → Nat
  | .filled ops => ops.length
  | .deferred _ _ _ (some ops) => ops.length
  | .deferred p 0 _ none => 1 + 2 * p.weight
  | .deferred p (_ + 1) _ none => p.weight

theorem Content.potential_finishRun (a : Content) (run : Nat) :
    (a.finishRun run).potential = a.potential := by
  rcases a with ops | ⟨p, _ | runs, finished, _ | ops⟩ <;> rfl

theorem Content.potential_le_allowance (a : Content) : a.potential ≤ 1 + a.allowance := by
  rcases a with ops | ⟨p, _ | runs, finished, _ | ops⟩ <;> simp only [potential, allowance] <;> omega

theorem Producer.weight_pos (p : Producer) : 0 < p.weight := by
  obtain ⟨counter, reenter, first, later⟩ := p
  simp only [Producer.weight]
  omega

theorem nodesWeight_le_of_mem {es : List NodeExpr} {lists : List (List NodeExpr)} (h : es ∈ lists) :
    nodesWeight es ≤ listsWeight lists := by
  induction lists with
  | nil => cases h
  | cons l lists ih =>
    rw [listsWeight]
    rcases List.mem_cons.mp h with rfl | h
    · exact Nat.le_add_right _ _
    · exact (ih h).trans (Nat.le_add_left _ _)

/-- The values of a run weigh no more than its producer. -/
theorem Producer.weight_valueOf (p : Producer) (run : Nat) : nodesWeight (p.valueOf run) ≤ p.weight := by
  have hvalues : p.weight = 1 + listsWeight p.values := by
    cases p
    rw [weight, values, listsWeight, Nat.add_assoc]
  have hvalue := nodesWeight_le_of_mem (p.valueOf_mem run)
  omega

namespace Store

/-- What the slots of a store hold, in the order of their places. -/
def contents (s : Store) : List Content := s.cells.toList.map (·.content)

theorem getElem?_contents (s : Store) (c : CellId) : s.contents[c]? = s.content? c := by
  simp [contents, content?, cell?]

@[simp] theorem contents_linkAll (s : Store) (owner : NodeId) (children : List NodeId) :
    (s.linkAll owner children).contents = s.contents := by
  induction children generalizing s with
  | nil => rfl
  | cons n ns ih => exact (ih (s.link owner n)).trans rfl

theorem contents_modifyContent (s : Store) (c : CellId) (f : Content → Content) :
    (s.modifyContent c f).contents = s.contents.modify c f := by
  apply List.ext_getElem?
  intro d
  rw [getElem?_contents, content?_modifyContent, List.getElem?_modify, getElem?_contents]
  by_cases h : d = c
  · simp [h]
  · have hne : c ≠ d := fun he => h he.symm
    simp [h, hne]

@[simp] theorem contents_installAll (s : Store) (owner : NodeId) (cells : List (Linkage × CellId)) :
    (s.installAll owner cells).contents = s.contents := by
  apply List.ext_getElem?
  intro d
  rw [getElem?_contents, getElem?_contents, content?_installAll]

theorem contents_addCell (s : Store) (cell : Cell) :
    (s.addCell cell).2.contents = s.contents ++ [cell.content] := by
  simp [contents, addCell]

@[simp] theorem contents_addOperation (s : Store) (header : Header) (payload : Payload)
    (cells : List CellId) : (s.addOperation header payload cells).2.contents = s.contents :=
  contents_installAll _ _ _

/-- How many slots and places a store can still come to hold. -/
def potential (s : Store) : Nat := (s.contents.map Content.potential).sum

end Store

theorem sum_map_modify {α : Type} (g : α → Nat) (f : α → α) {l : List α} {i : Nat} {a : α}
    (h : l[i]? = some a) : ((l.modify i f).map g).sum + g a = (l.map g).sum + g (f a) := by
  induction l generalizing i with
  | nil => simp at h
  | cons b l ih =>
    cases i with
    | zero =>
      obtain rfl : b = a := by simpa using h
      simp only [List.modify_zero_cons, List.map_cons, List.sum_cons]
      omega
    | succ i =>
      have := ih (by simpa using h)
      simp only [List.modify_succ_cons, List.map_cons, List.sum_cons]
      omega

namespace Store

theorem potential_modifyContent {s : Store} {c : CellId} {a : Content} (h : s.content? c = some a)
    (f : Content → Content) :
    (s.modifyContent c f).potential + a.potential = s.potential + (f a).potential := by
  unfold potential
  rw [contents_modifyContent]
  exact sum_map_modify _ f (by rw [getElem?_contents, h])

theorem potential_addCell (s : Store) (cell : Cell) :
    (s.addCell cell).2.potential = s.potential + cell.content.potential := by
  simp [potential, contents_addCell]

theorem potential_addOperation (s : Store) (header : Header) (payload : Payload)
    (cells : List CellId) : (s.addOperation header payload cells).2.potential = s.potential := by
  simp [potential]

/-- A value that arrives takes the place of what was still to come; a value that comes too late takes
none. -/
theorem potential_receive (s : Store) (c : CellId) (run : Nat) (candidate : List NodeId) :
    (s.receive c run candidate).potential = s.potential := by
  have hfinish : (s.modifyContent c (·.finishRun run)).potential = s.potential := by
    cases ha : s.content? c with
    | none =>
      have hle : s.contents.length ≤ c := by
        rw [← List.getElem?_eq_none_iff, getElem?_contents, ha]
      simp [potential, contents_modifyContent, List.modify_eq_self hle]
    | some a =>
      have := potential_modifyContent ha (·.finishRun run)
      rw [Content.potential_finishRun] at this
      omega
  unfold receive
  split
  · rw [← hfinish]
    simp [potential]
  · exact hfinish

/-- How many operations, slots and places a store has or can still come to have. -/
def extent (s : Store) : Nat := s.nodes.size + s.potential

theorem extent_modifyContent {s : Store} {c : CellId} {a : Content} (h : s.content? c = some a)
    (f : Content → Content) :
    (s.modifyContent c f).extent + a.potential = s.extent + (f a).potential := by
  have := potential_modifyContent h f
  have hsize := s.size_modifyContent c f
  unfold extent
  omega

theorem extent_receive (s : Store) (c : CellId) (run : Nat) (candidate : List NodeId) :
    (s.receive c run candidate).extent = s.extent := by
  have hsize : (s.receive c run candidate).nodes.size = s.nodes.size := by
    unfold receive
    split <;> simp
  rw [extent, extent, hsize, potential_receive]

theorem content_le_extent {s : Store} {c : CellId} {a : Content} (h : s.content? c = some a) :
    a.potential ≤ s.extent := by
  refine le_trans (List.le_sum_of_mem (List.mem_map.mpr ⟨a, ?_, rfl⟩)) (Nat.le_add_left _ _)
  exact List.mem_of_getElem? (by rw [getElem?_contents, h])

theorem extent_le_budget (s : Store) : s.extent ≤ s.budget := by
  have hfold : ∀ (cells : List Cell) (total : Nat), total + (cells.map (·.content.potential)).sum ≤
      cells.foldl (fun total c => total + 1 + c.content.allowance) total := by
    intro cells
    induction cells with
    | nil => simp
    | cons c cells ih =>
      intro total
      have hc := c.content.potential_le_allowance
      refine le_trans ?_ (ih _)
      simp only [List.map_cons, List.sum_cons]
      omega
  unfold extent budget
  rw [← Array.foldl_toList]
  have h := hfold s.cells.toList 0
  rw [Nat.zero_add] at h
  simp only [potential, contents, List.map_map]
  exact Nat.add_le_add_left h _

end Store

namespace Procedure

variable {α β : Type}

/-- A procedure that ends and, where it succeeds, adds at most so much to what the store can come to
hold, less what the result will take up. -/
structure Costs (x : Procedure α) (cost : Nat) (size : α → Nat) : Prop where
  ends : ∀ s, (x s).1 ≠ .error .exhausted
  ok : ∀ {s t a}, x s = (.ok a, t) → t.store.extent + size a ≤ s.store.extent + cost

theorem bind_ends {x : Procedure α} {f : α → Procedure β} {s : Session}
    (hx : (x s).1 ≠ .error .exhausted)
    (hf : ∀ {a t}, x s = (.ok a, t) → (f a t).1 ≠ .error .exhausted) :
    ((x >>= f) s).1 ≠ .error .exhausted := by
  rw [bind_apply]
  rcases hr : x s with ⟨e | a, t⟩
  · rw [hr] at hx
    exact fun he => hx (by cases he; rfl)
  · exact hf hr

theorem Costs.pure (a : α) {cost : Nat} {size : α → Nat} (h : size a ≤ cost) :
    Costs (Pure.pure a : Procedure α) cost size := by
  refine ⟨fun s => by simp, ?_⟩
  intro s t b hb
  cases hb
  omega

theorem Costs.fail {f : Fault} (h : f ≠ .exhausted) (cost : Nat) (size : α → Nat) :
    Costs (fail f : Procedure α) cost size :=
  ⟨fun _ he => h (by cases he; rfl), fun h => nomatch h⟩

theorem Costs.bind {x : Procedure α} {f : α → Procedure β} {cost k : Nat} {size : α → Nat}
    {size' : β → Nat} (hx : Costs x cost size) (hf : ∀ a, Costs (f a) (k + size a) size') :
    Costs (x >>= f) (cost + k) size' := by
  refine ⟨fun s => bind_ends (hx.ends s) fun _ => (hf _).ends _, ?_⟩
  intro s t b h
  obtain ⟨a, u, hu, ht⟩ := bind_eq_ok h
  have h₁ := hx.ok hu
  have h₂ := (hf a).ok ht
  omega

/-- What goes on with the session as it is. -/
theorem Costs.reading {f : Session → Procedure β} {cost : Nat} {size : β → Nat}
    (hf : ∀ s, Costs (f s) cost size) : Costs (read >>= f) cost size :=
  ⟨fun s => (hf s).ends s, fun {s} _ _ h => (hf s).ok h⟩

theorem Costs.mono {x : Procedure α} {cost cost' : Nat} {size size' : α → Nat} (h : Costs x cost size)
    (hc : ∀ a, cost + size' a ≤ cost' + size a) : Costs x cost' size' := by
  refine ⟨h.ends, ?_⟩
  intro s t a ha
  have h₁ := h.ok ha
  have h₂ := hc a
  omega

theorem Costs.releasing {x : Procedure α} {cost : Nat} {size : α → Nat} (h : Costs x cost size) :
    Costs (releasing x) cost size := by
  refine ⟨fun s => h.ends s, ?_⟩
  intro s t a ha
  rw [releasing_apply] at ha
  obtain ⟨hr, rfl⟩ := Prod.mk.inj ha
  exact h.ok (t := (x s).2) (Prod.ext hr rfl)

/-- What leaves the store as large as it was costs nothing. -/
theorem Costs.free {x : Procedure α} (hends : ∀ s, (x s).1 ≠ .error .exhausted)
    (h : ∀ s, (x s).2.store.extent = s.store.extent) : Costs x 0 fun _ => 0 := by
  refine ⟨hends, ?_⟩
  intro s t a ha
  have hs := h s
  rw [ha] at hs
  exact hs.le

theorem Costs.ofOption {f : Fault} (h : f ≠ .exhausted) (a : Option α) :
    Costs (ofOption f a) 0 fun _ => 0 := by
  cases a with
  | none => exact .fail h 0 _
  | some a => exact .pure a le_rfl

end Procedure

namespace Session

open Procedure

/-! Building costs no more than what is built weighs. -/

theorem costs_hold (h : Holder) : Costs (hold h) 0 fun _ => 0 := .free (fun _ he => nomatch he) fun _ => rfl

theorem costs_newCell (arity : Arity) (content : Content) :
    Costs (newCell arity content) content.potential fun _ => 0 := by
  refine ⟨fun s he => (nomatch he), ?_⟩
  intro s t c h
  rw [newCell_apply] at h
  cases h
  have := Store.potential_addCell s.store ⟨arity, content, none⟩
  simp only [Store.extent, this]
  exact (Nat.add_assoc _ _ _).ge

theorem costs_takeSlot (arity : Arity) (name : String) : Costs (takeSlot arity name) 0 fun _ => 0 := by
  apply Costs.free
  · intro s
    rw [takeSlot_apply]
    split
    · simp
    · split <;> simp
  · intro s
    rw [takeSlot_apply]
    split
    · rfl
    · split <;> rfl

theorem costs_intern (name : String) : Costs (intern name) 0 fun _ => 0 :=
  .free (fun _ he => nomatch he) fun _ => rfl

theorem costs_internAll (names : List NameExpr) : Costs (internAll names) 0 fun _ => 0 := by
  induction names with
  | nil => exact .pure [] le_rfl
  | cons e names ih =>
    cases e with
    | absent => exact ih.bind (k := 0) fun _ => .pure _ le_rfl
    | malformed => exact .fail (by simp) 0 _
    | name name =>
      exact (costs_intern name).bind (k := 0) fun _ => ih.bind (k := 0) fun _ => .pure _ le_rfl

theorem costs_functionRef (n : NodeId) : Costs (functionRef n) 0 fun _ => 0 :=
  .reading fun _ => (Costs.ofOption (f := .unknown) (by simp) _).bind (k := 0) fun _ =>
    .pure _ le_rfl

theorem costs_bind (id : Option String) (n : NodeId) : Costs (modify (·.bind id n)) 0 fun _ => 0 :=
  .free (fun _ he => nomatch he) fun s => by
    rw [modify_apply]
    exact congrArg Store.extent (s.bind_store id n).1

theorem costs_construct (header : Header) (payload : Payload) (cells : List CellId) :
    Costs (construct header payload cells) 1 fun _ => 0 := by
  refine ⟨fun s => ?_, fun {s t n} h => ?_⟩
  · rw [construct_apply]
    split
    · simp
    · split <;> simp
  · obtain ⟨-, rfl, -, -⟩ := construct_eq_ok h
    unfold Store.extent withOperation
    simp only [Store.potential_addOperation, Store.size_addOperation]
    omega

mutual

theorem costs_evalNode : ∀ e, Costs (evalNode e) e.weight fun _ => 0
  | .named id => by
    rw [evalNode, NodeExpr.weight]
    exact .reading fun s => .ofOption (by simp) _
  | .malformed => by
    rw [evalNode]
    exact .fail (by simp) _ _
  | .build spec => by
    rw [evalNode, NodeExpr.weight]
    exact costs_evalSpec spec

theorem costs_evalSpec : ∀ spec, Costs (evalSpec spec) spec.weight fun _ => 0
  | .mk id header shape tag slots attributes => by
    rw [evalSpec, NodeSpec.weight]
    have hpayload (cells : List CellId) (values : List AttributeValue) :
        Costs (ofOption .malformed (Payload.make? shape tag values) >>= fun payload =>
          construct header payload cells) (0 + 1) fun _ => 0 :=
      (Costs.ofOption (by simp) _).bind fun payload => costs_construct header payload cells
    have hbuild := (costs_evalSlots (shape.slots.map (·.arity)) slots).bind
      (k := attributesWeight attributes + (0 + 1)) fun cells =>
        (costs_evalAttributes attributes).bind (k := 0 + 1) (hpayload cells)
    refine (hbuild.releasing.bind fun n => (costs_bind id n).bind fun _ => .pure n le_rfl).mono ?_
    intro n
    omega

theorem costs_evalNodes : ∀ es, Costs (evalNodes es) (nodesWeight es) List.length
  | [] => by
    rw [evalNodes]
    exact .pure [] (by simp)
  | e :: es => by
    rw [evalNodes, nodesWeight]
    have htail (n : NodeId) : Costs (hold (.node n) >>= fun _ => evalNodes es >>= fun ns =>
        pure (n :: ns)) (0 + (nodesWeight es + 1)) List.length :=
      (costs_hold (.node n)).bind fun _ => (costs_evalNodes es).bind fun ns => .pure _ (by simp)
    refine ((costs_evalNode e).bind (k := 0 + (nodesWeight es + 1)) htail).mono ?_
    intro ns
    omega

theorem costs_evalSlot (arity : Arity) : ∀ e, Costs (evalSlot arity e) e.weight fun _ => 0
  | .filled values => by
    rw [evalSlot, SlotExpr.weight]
    have hnodes : Costs (evalNodes values >>= fun ops => newCell arity (.filled ops))
        (nodesWeight values + 0) fun _ => 0 :=
      (costs_evalNodes values).bind fun ops => (costs_newCell arity _).mono fun _ => by
        simp [Content.potential]
    dsimp only
    split
    · exact ((Costs.fail (by simp) 0 fun _ => 0).bind fun _ => hnodes).mono fun _ => by omega
    · exact hnodes.mono fun _ => by omega
  | .moved name => by
    rw [evalSlot, SlotExpr.weight]
    exact costs_takeSlot arity name
  | .deferred producer => by
    rw [evalSlot, SlotExpr.weight]
    exact costs_newCell arity _
  | .malformed => by
    rw [evalSlot]
    exact .fail (by simp) _ _

theorem costs_evalSlots : ∀ arities es, Costs (evalSlots arities es) (slotsWeight es) fun _ => 0
  | [], _ => by
    rw [evalSlots]
    exact .pure [] (by simp)
  | arity :: arities, e :: es => by
    rw [evalSlots, slotsWeight]
    exact (costs_evalSlot arity e).bind fun c => (costs_evalSlots arities es).bind (k := 0) fun cs =>
      .pure (c :: cs) le_rfl
  | _ :: _, [] => by
    rw [evalSlots]
    exact .fail (by simp) _ _

theorem costs_evalAttribute : ∀ e, Costs (evalAttribute e) e.weight fun _ => 0
  | .value v => by
    rw [evalAttribute, AttributeExpr.weight]
    split
    · exact .fail (by simp) _ _
    · exact .pure v le_rfl
  | .symbol name => by
    rw [evalAttribute, AttributeExpr.weight]
    exact (costs_intern name).bind (k := 0) fun _ => .pure _ le_rfl
  | .optionalSymbols names => by
    rw [evalAttribute, AttributeExpr.weight]
    exact (costs_internAll names).bind (k := 0) fun _ => .pure _ le_rfl
  | .function e => by
    rw [evalAttribute, AttributeExpr.weight]
    exact (costs_evalNode e).bind (k := 0) fun n => (costs_hold _).bind fun _ =>
      (costs_functionRef n).bind fun _ => .pure _ le_rfl
  | .malformed => by
    rw [evalAttribute]
    exact .fail (by simp) _ _

theorem costs_evalAttributes : ∀ es, Costs (evalAttributes es) (attributesWeight es) fun _ => 0
  | [] => by
    rw [evalAttributes]
    exact .pure [] (by simp)
  | e :: es => by
    rw [evalAttributes, attributesWeight]
    exact (costs_evalAttribute e).bind fun v => (costs_evalAttributes es).bind (k := 0) fun vs =>
      .pure (v :: vs) le_rfl

end

/-! Reading makes no more of what can still come. -/

theorem extent_started_first {s : Session} {c : CellId} {p : Producer} {finished : List Nat}
    (h : s.store.content? c = some (.deferred p 0 finished none)) :
    (s.started c p).store.extent + (1 + p.weight) = s.store.extent := by
  have hcount : (s.started c p).store.extent + (1 + 2 * p.weight) =
      s.store.extent + p.weight := by
    rw [started_store]
    exact Store.extent_modifyContent h (·.countRun)
  omega

theorem extent_started_later {s : Session} {c : CellId} {p : Producer} {runs : Nat}
    {finished : List Nat} (h : s.store.content? c = some (.deferred p (runs + 1) finished none)) :
    (s.started c p).store.extent = s.store.extent := by
  have hcount : (s.started c p).store.extent + p.weight = s.store.extent + p.weight := by
    rw [started_store]
    exact Store.extent_modifyContent h (·.countRun)
  omega

theorem extent_settle_published {s : Session} {c : CellId} {ops : List NodeId}
    (h : s.store.published? c = some ops) (run : Nat) (candidate : List NodeId) :
    (s.settle c run candidate).store.extent = s.store.extent := by
  unfold settle
  rw [h]
  exact s.store.extent_receive c run candidate

theorem extent_settle_waiting {s : Session} {c : CellId} {p : Producer} {runs : Nat}
    {finished : List Nat} (h : s.store.content? c = some (.deferred p (runs + 1) finished none))
    (run : Nat) (candidate : List NodeId) :
    (s.settle c run candidate).store.extent + p.weight =
      s.store.extent + candidate.length := by
  have hpub : s.store.published? c = none := by
    simp [Store.published?_eq_content?, h, Content.published?]
  have hreceive : (s.store.receive c run candidate).content? c =
      some (.deferred p (runs + 1) (run :: finished) none) := by
    simp [Store.content?_receive, h, Content.finishRun]
  have := Store.extent_modifyContent hreceive (·.publish candidate)
  simp only [Content.potential, Content.publish, Store.extent_receive] at this
  unfold settle
  rw [hpub]
  exact this

/-- As long as what the store can still come to hold is within the depth, the procedure ends, and where
it succeeds the store can come to hold no more than before. -/
def EndsWithin {α : Type} (depth : Nat) (x : Procedure α) : Prop :=
  ∀ s : Session, s.store.extent ≤ depth → (x s).1 ≠ .error .exhausted ∧
    ∀ a t, x s = (.ok a, t) → t.store.extent ≤ s.store.extent

theorem EndsWithin.pure {α : Type} (depth : Nat) (a : α) :
    EndsWithin depth (Pure.pure a : Procedure α) :=
  fun s _ => ⟨by simp, fun _ _ h => by cases h; exact le_rfl⟩

theorem EndsWithin.bind {α β : Type} {depth : Nat} {x : Procedure α} {f : α → Procedure β}
    (hx : EndsWithin depth x) (hf : ∀ a, EndsWithin depth (f a)) : EndsWithin depth (x >>= f) := by
  intro s hs
  obtain ⟨hends, hok⟩ := hx s hs
  refine ⟨bind_ends hends fun h => (hf _ _ ((hok _ _ h).trans hs)).1, ?_⟩
  intro b t h
  obtain ⟨a, u, hu, ht⟩ := bind_eq_ok h
  have h₁ := hok a u hu
  exact ((hf a u (h₁.trans hs)).2 b t ht).trans h₁

theorem endsWithin_enumerate {depth : Nat} {readOne : CellId → Procedure (List NodeId)}
    (h : ∀ c, EndsWithin depth (readOne c)) (cells : List CellId) :
    EndsWithin depth (enumerate readOne cells) := by
  induction cells with
  | nil => exact .pure depth ()
  | cons c cells ih => exact (h c).bind fun _ => ih

theorem EndsWithin.reading {α : Type} {depth : Nat} {f : Session → Procedure α}
    (hf : ∀ s, EndsWithin depth (f s)) : EndsWithin depth (read >>= f) := fun s => hf s s

theorem EndsWithin.releasing {α : Type} {depth : Nat} {x : Procedure α} (h : EndsWithin depth x) :
    EndsWithin depth (releasing x) := by
  intro s hs
  obtain ⟨hends, hok⟩ := h s hs
  refine ⟨hends, ?_⟩
  intro a t ht
  rw [releasing_apply] at ht
  obtain ⟨ha, rfl⟩ := Prod.mk.inj ht
  exact hok a (x s).2 (Prod.ext ha rfl)

theorem EndsWithin.hold (depth : Nat) (h : Holder) : EndsWithin depth (hold h) :=
  fun _ _ => ⟨fun he => (nomatch he), fun _ _ h => by cases h; exact le_rfl⟩

theorem endsWithin_prepare {depth : Nat} {readOne : CellId → Procedure (List NodeId)}
    (h : ∀ c, EndsWithin depth (readOne c)) (p : Producer) (run : Nat) :
    EndsWithin depth (prepare readOne p run) := by
  refine .reading fun s => ?_
  generalize p.reenter.bind s.node? = n
  split
  · refine EndsWithin.releasing ((EndsWithin.hold depth _).bind fun _ => ?_)
    exact EndsWithin.reading fun s => endsWithin_enumerate h _
  · exact .pure depth ()

theorem producerFault_eq_exhausted {f : Fault} (h : producerFault f = .exhausted) : f = .exhausted := by
  cases f <;> first | rfl | cases h

/-- What a run can come to takes up no more than what its producer stands for. -/
theorem produce_ends {depth bound : Nat} {p : Producer} {run : Nat}
    (h : EndsWithin bound (prepare (readCell depth) p run)) {s : Session}
    (hs : s.store.extent ≤ bound) :
    (produce depth p run s).1 ≠ .error .exhausted ∧
      ∀ candidate t, produce depth p run s = (.ok candidate, t) →
        t.store.extent + candidate.length ≤ s.store.extent + p.weight := by
  have hvalue := costs_evalNodes (p.valueOf run)
  have hweight := p.weight_valueOf run
  obtain ⟨hends, hok⟩ := h s hs
  let body : Procedure (List NodeId) := prepare (readCell depth) p run >>= fun _ =>
    evalNodes (p.valueOf run)
  have hrun : produce depth p run s = ((body s).1.mapError producerFault,
      { (body s).2 with held := s.held }) := by
    unfold produce
    rw [mapFault_apply, releasing_apply]
  have hnever : (body s).1 ≠ .error .exhausted := bind_ends hends fun {_ t} _ => hvalue.ends t
  rw [hrun]
  rcases hx : body s with ⟨f | ops, u⟩
  · rw [hx] at hnever
    refine ⟨fun he => hnever ?_, fun _ _ h => by cases (Prod.mk.inj h).1⟩
    have hf : producerFault f = .exhausted := by simpa [Except.mapError] using he
    rw [producerFault_eq_exhausted hf]
  · refine ⟨fun he => (nomatch he), ?_⟩
    intro candidate t ht
    cases ht
    obtain ⟨_, v, hv, hu⟩ := bind_eq_ok hx
    have h₁ := hok _ v hv
    have h₂ := hvalue.ok hu
    dsimp only at h₂ ⊢
    omega

theorem content?_started {s : Session} {c : CellId} {p : Producer} {runs : Nat} {finished : List Nat}
    (h : s.store.content? c = some (.deferred p runs finished none)) :
    (s.started c p).store.content? c = some (.deferred p (runs + 1) finished none) := by
  simp [Store.content?_modifyContent, h, Content.countRun]

/-- A later run builds its value and does nothing else. -/
theorem adding_produce (depth : Nat) (p : Producer) (run : Nat) : Adding (produce depth p (run + 2)) :=
  .mapFault _ (Adding.releasing (adding_logic.evalNodes _))

/-- What is left to come after a run, if its value is published or another one was before. -/
theorem extent_settle_le {s : Session} {c : CellId} {p : Producer} {runs bound : Nat}
    {finished : List Nat} {published : Option (List NodeId)}
    (h : s.store.content? c = some (.deferred p (runs + 1) finished published)) (run : Nat)
    {candidate : List NodeId} (hs : s.store.extent + candidate.length ≤ bound + p.weight)
    (hpublished : published.isSome → s.store.extent ≤ bound) :
    (s.settle c run candidate).store.extent ≤ bound := by
  cases published with
  | none =>
    have := extent_settle_waiting h run candidate
    omega
  | some ops =>
    have hpub : s.store.published? c = some ops := by
      simp [Store.published?_eq_content?, h, Content.published?]
    rw [extent_settle_published hpub]
    exact hpublished rfl

/-- Reading a slot ends when the depth covers what the store can still come to hold: a first run takes
from it before anything else is read, and a later run reads nothing. -/
theorem endsWithin_readCell (depth : Nat) (c : CellId) : EndsWithin depth (readCell (depth + 1) c) := by
  induction depth using Nat.strong_induction_on generalizing c with
  | _ depth ih =>
  intro s hs
  rcases s.cell_cases c with hc | ⟨ops, ho⟩ | ⟨cell, p, runs, finished, hc, hd⟩
  · rw [readCell_missing hc]
    exact ⟨by simp, fun _ _ h => nomatch h⟩
  · rw [readCell_published ho]
    exact ⟨by simp, fun _ _ h => by cases h; exact le_rfl⟩
  have hcontent : s.store.content? c = some (.deferred p runs finished none) := by
    simp [Store.content?, hc, hd]
  have hpos := p.weight_pos
  have hle := Store.content_le_extent hcontent
  have hstarted := content?_started hcontent
  rw [readCell_deferred hc hd]
  -- the run ends, and what it comes to fits
  obtain ⟨hends, hok⟩ : (produce depth p (runs + 1) (s.started c p)).1 ≠ .error .exhausted ∧
      ∀ candidate t, produce depth p (runs + 1) (s.started c p) = (.ok candidate, t) →
        (t.settle c (runs + 1) candidate).store.extent ≤ s.store.extent := by
    cases runs with
    | zero =>
      have hfirst := extent_started_first hcontent
      obtain ⟨d, rfl⟩ : ∃ d, depth = d + 1 := ⟨depth - 1, by simp only [Content.potential] at hle; omega⟩
      obtain ⟨hends, hok⟩ := produce_ends (endsWithin_prepare (ih d (Nat.lt_succ_self d)) p 1)
        (s := s.started c p) (by omega)
      refine ⟨hends, fun candidate t ht => ?_⟩
      have hfits := hok candidate t ht
      have hchanges : (s.started c p).Changes t := (changing_logic.produce (d + 1) p 1).reaches ht
      obtain ⟨runs', finished', published', ht', hr⟩ := hchanges.le.deferred hstarted
      obtain ⟨r, rfl⟩ : ∃ r, runs' = r + 1 := ⟨runs' - 1, by omega⟩
      exact extent_settle_le ht' 1 (by omega) fun _ => by omega
    | succ runs =>
      have hlater := extent_started_later hcontent
      have hprepare : EndsWithin depth (prepare (readCell depth) p (runs + 2)) := .pure depth ()
      obtain ⟨hends, hok⟩ := produce_ends hprepare (s := s.started c p) (by omega)
      refine ⟨hends, fun candidate t ht => ?_⟩
      have hfits := hok candidate t ht
      have hadds := (Additions.grows (adding_produce depth p runs (s.started c p))).content? hstarted
      rw [ht] at hadds
      dsimp only at hadds
      exact extent_settle_le hadds _ (by omega) fun h => by cases h
  have hchanges : s.Changes (produce depth p (runs + 1) (s.started c p)).2 :=
    (s.changes_started c p).trans (changing_logic.produce depth p (runs + 1) _)
  refine ⟨bind_ends hends fun {candidate t} ht => ?_, fun ops t ht => ?_⟩
  · rw [ht] at hchanges
    obtain ⟨cell', hc', -⟩ := hchanges.le.cell hc
    rw [offer_apply _ candidate hc']
    cases t.publicationViolation? c (runs + 1) candidate <;> simp
  · obtain ⟨candidate, u, hu, ht⟩ := bind_eq_ok ht
    rw [hu] at hchanges
    obtain ⟨cell', hc', -⟩ := hchanges.le.cell hc
    obtain ⟨-, -, rfl⟩ := (offer_eq_ok hc').mp ht
    exact hok candidate u hu

/-- No read is given up. -/
theorem operations_ends (c : CellId) (s : Session) :
    (operations c s).1 ≠ .error .exhausted ∧ ∀ ops t, operations c s = (.ok ops, t) →
      t.store.extent ≤ s.store.extent := by
  cases hp : s.store.published? c with
  | some ops =>
    rw [operations_published hp]
    exact ⟨by simp, fun _ _ h => by cases h; exact le_rfl⟩
  | none =>
    have := s.store.extent_le_budget
    rw [operations_unpublished hp]
    exact endsWithin_readCell s.store.budget c s (by omega)

/-- Where it succeeds, the store can come to hold no more than before. -/
def Shrinking {α : Type} (x : Procedure α) : Prop :=
  ∀ s a t, x s = (.ok a, t) → t.store.extent ≤ s.store.extent

theorem shrinking_reads : Reads Shrinking where
  pure a s b t h := by
    cases h
    exact le_rfl
  fail f s b t h := nomatch h
  reading _ hf s b t h := hf s s b t h
  bind hx hf s b t h := by
    obtain ⟨a, u, hu, ht⟩ := bind_eq_ok h
    exact (hf a u b t ht).trans (hx s a u hu)
  operations c s ops t h := (operations_ends c s).2 ops t h
  warn count root s a t h := by
    cases h
    exact le_rfl

end Session
end BoundTree
