import BoundTree.Store.Alive
import Mathlib.Tactic

/-!
What the changes of a store leave alone. A store only grows: operations keep their facts, a link that is
set stays, and so does a published value. Main statements: every change leads to a later store.
-/
namespace BoundTree

/-- The same operation at a later time: at most its parent link was set meanwhile. -/
structure Node.Le (a b : Node) : Prop where
  header : b.header = a.header
  payload : b.payload = a.payload
  cells : b.cells = a.cells
  parent : ∀ p, a.parent = some p → b.parent = some p

namespace Node

theorem Le.refl (a : Node) : a.Le a := ⟨rfl, rfl, rfl, fun _ h => h⟩

theorem Le.trans {a b c : Node} (h : a.Le b) (k : b.Le c) : a.Le c :=
  ⟨k.header.trans h.header, k.payload.trans h.payload, k.cells.trans h.cells,
    fun p hp => k.parent p (h.parent p hp)⟩

theorem Le.linkedCells {a b : Node} (h : a.Le b) : b.linkedCells = a.linkedCells := by
  simp only [Node.linkedCells, Node.shape, h.payload, h.cells]

theorem linkedCells_sublist (n : Node) : (n.linkedCells.map (·.2)).Sublist n.cells := by
  have hzip : ∀ (ls : List Linkage) (cells : List CellId), ((ls.zip cells).map (·.2)).Sublist cells := by
    intro ls
    induction ls with
    | nil => simp
    | cons l ls ih =>
      intro cells
      cases cells with
      | nil => simp
      | cons c cells => exact (ih cells).cons_cons c
  exact hzip _ _

theorem Le.kind {a b : Node} (h : a.Le b) : b.kind = a.kind := by
  simp only [Node.kind, h.payload]

theorem Le.namedChildCells {a b : Node} (h : a.Le b) : b.namedChildCells = a.namedChildCells := by
  simp only [Node.namedChildCells, Node.shape, h.payload, h.cells]

end Node

/-- The content of the same slot at a later time: runs may have been started and may have come to a
value, and a value may have been published. -/
inductive Content.Le : Content → Content → Prop
  | filled (ops : List NodeId) : Le (.filled ops) (.filled ops)
  | deferred (p : Producer) {runs runs' : Nat} {finished finished' : List Nat}
      {published published' : Option (List NodeId)} (hr : runs ≤ runs')
      (hf : finished <:+ finished') (hp : ∀ ops, published = some ops → published' = some ops) :
      Le (.deferred p runs finished published) (.deferred p runs' finished' published')

namespace Content

theorem Le.refl (a : Content) : a.Le a := by
  cases a with
  | filled ops => exact .filled ops
  | deferred p runs finished published =>
    exact .deferred p le_rfl List.suffix_rfl fun _ h => h

theorem Le.trans {a b c : Content} (h : a.Le b) (k : b.Le c) : a.Le c := by
  cases h with
  | filled ops => exact k
  | deferred p hr hf hp =>
    cases k with
    | deferred _ hr' hf' hp' =>
      exact .deferred p (hr.trans hr') (hf.trans hf') fun ops ho => hp' ops (hp ops ho)

theorem Le.published? {a b : Content} (h : a.Le b) {ops : List NodeId}
    (ha : a.published? = some ops) : b.published? = some ops := by
  cases h with
  | filled _ => exact ha
  | deferred _ _ _ hp => exact hp ops ha

theorem Le.isDeferred {a b : Content} (h : a.Le b) : b.isDeferred = a.isDeferred := by
  cases h <;> rfl

@[simp] theorem published?_countRun (a : Content) : a.countRun.published? = a.published? := by
  cases a <;> rfl

@[simp] theorem published?_finishRun (a : Content) (run : Nat) :
    (a.finishRun run).published? = a.published? := by cases a <;> rfl

/-- A value that is offered is published unless there is one already. -/
@[simp] theorem published?_publish (a : Content) (ops : List NodeId) :
    (a.publish ops).published? = some (a.published?.getD ops) := by
  cases a with
  | filled _ => rfl
  | deferred p runs finished published => cases published <;> rfl

theorem publish_of_published {a : Content} {ops : List NodeId} (h : a.published? = some ops)
    (later : List NodeId) : a.publish later = a := by
  cases a with
  | filled _ => rfl
  | deferred p runs finished published =>
    cases published with
    | none => cases h
    | some _ => rfl

theorem le_countRun (a : Content) : a.Le a.countRun := by
  cases a with
  | filled ops => exact .filled ops
  | deferred p _ _ _ => exact .deferred p (Nat.le_succ _) List.suffix_rfl fun _ h => h

theorem le_finishRun (a : Content) (run : Nat) : a.Le (a.finishRun run) := by
  cases a with
  | filled ops => exact .filled ops
  | deferred p _ _ _ => exact .deferred p le_rfl (List.suffix_cons _ _) fun _ h => h

theorem le_publish (a : Content) (ops : List NodeId) : a.Le (a.publish ops) := by
  cases a with
  | filled ops => exact .filled ops
  | deferred p runs finished published =>
    cases published with
    | none => exact .deferred p le_rfl List.suffix_rfl fun _ h => nomatch h
    | some _ => exact .deferred p le_rfl List.suffix_rfl fun _ h => h

end Content

/-- The same slot at a later time. -/
structure Cell.Le (a b : Cell) : Prop where
  arity : b.arity = a.arity
  content : a.content.Le b.content
  owner : ∀ o, a.owner = some o → b.owner = some o

theorem Cell.Le.refl (a : Cell) : a.Le a := ⟨rfl, .refl _, fun _ h => h⟩

theorem Cell.Le.trans {a b c : Cell} (h : a.Le b) (k : b.Le c) : a.Le c :=
  ⟨k.arity.trans h.arity, h.content.trans k.content, fun o ho => k.owner o (h.owner o ho)⟩

namespace Store

/-- The parent link of an operation. -/
def link? (s : Store) (n : NodeId) : Option NodeId := (s.node? n).bind (·.parent)

/-- What the slots of that linkage hold already, slot by slot. -/
def heldIn (s : Store) (l : Linkage) (cells : List (Linkage × CellId)) : List NodeId :=
  cells.flatMap fun c => if c.1 = l then (s.published? c.2).getD [] else []

theorem heldIn_cons (s : Store) (l : Linkage) (c : Linkage × CellId) (cells : List (Linkage × CellId)) :
    s.heldIn l (c :: cells) =
      (if c.1 = l then (s.published? c.2).getD [] else []) ++ s.heldIn l cells := rfl

/-- What the published slots of an operation hold of that linkage, in declaration order. -/
def heldBy (s : Store) (l : Linkage) (p : NodeId) : List NodeId :=
  s.heldIn l ((s.node? p).elim [] (·.linkedCells))

theorem mem_heldIn {s : Store} {l : Linkage} {cells : List (Linkage × CellId)} {n : NodeId} :
    n ∈ s.heldIn l cells ↔ ∃ c ops, (l, c) ∈ cells ∧ s.published? c = some ops ∧ n ∈ ops := by
  simp only [heldIn, List.mem_flatMap, Prod.exists]
  constructor
  · rintro ⟨l', c, hc, hn⟩
    by_cases hl : l' = l
    · subst hl
      rw [if_pos rfl] at hn
      cases ho : s.published? c with
      | none => simp [ho] at hn
      | some ops => exact ⟨c, ops, hc, ho, by simpa [ho] using hn⟩
    · simp [hl] at hn
  · rintro ⟨c, ops, hc, ho, hn⟩
    exact ⟨l, c, hc, by simpa [ho] using hn⟩

theorem mem_heldBy {s : Store} {l : Linkage} {p n : NodeId} :
    n ∈ s.heldBy l p ↔ ∃ node c ops, s.node? p = some node ∧ (l, c) ∈ node.linkedCells ∧
      s.published? c = some ops ∧ n ∈ ops := by
  rw [heldBy, mem_heldIn]
  cases hp : s.node? p with
  | none => simp
  | some node => simp

/-! Links. -/

end Store

/-- The operation once it has a parent link, this one if there was none. -/
def Node.adopted (n : Node) (owner : NodeId) : Node :=
  { n with parent := n.parent <|> some owner }

theorem Node.le_adopted (n : Node) (owner : NodeId) : n.Le (n.adopted owner) :=
  ⟨rfl, rfl, rfl, fun p hp => by simp [Node.adopted, hp]⟩

@[simp] theorem Node.adopted_adopted (n : Node) (p q : NodeId) :
    (n.adopted p).adopted q = n.adopted p := by
  cases h : n.parent <;> simp [Node.adopted, h]

namespace Store

theorem node?_link (s : Store) (owner child n : NodeId) :
    (s.link owner child).node? n =
      (s.node? n).map fun node => if n = child then node.adopted owner else node := by
  simp only [node?, link, Array.getElem?_modify, eq_comm (a := child)]
  by_cases h : n = child
  · simp [h, Node.adopted]
  · simp [h]

theorem node?_linkAll (s : Store) (owner : NodeId) (children : List NodeId) (n : NodeId) :
    (s.linkAll owner children).node? n =
      (s.node? n).map fun node => if n ∈ children then node.adopted owner else node := by
  induction children generalizing s with
  | nil => simp [linkAll]
  | cons c cs ih =>
    have hstep : s.linkAll owner (c :: cs) = (s.link owner c).linkAll owner cs := rfl
    rw [hstep, ih, node?_link, Option.map_map]
    congr 1
    funext node
    by_cases hc : n = c
    · subst hc
      by_cases hs : n ∈ cs <;> simp [hs]
    · simp [hc]

@[simp] theorem size_linkAll (s : Store) (owner : NodeId) (children : List NodeId) :
    (s.linkAll owner children).nodes.size = s.nodes.size := by
  induction children generalizing s with
  | nil => rfl
  | cons n ns ih => exact (ih (s.link owner n)).trans (by simp [link])

@[simp] theorem size_modifyContent (s : Store) (c : CellId) (f : Content → Content) :
    (s.modifyContent c f).nodes.size = s.nodes.size := rfl

@[simp] theorem cell?_linkAll (s : Store) (owner : NodeId) (children : List NodeId) (c : CellId) :
    (s.linkAll owner children).cell? c = s.cell? c := by
  induction children generalizing s with
  | nil => rfl
  | cons n ns ih => exact (ih (s.link owner n)).trans rfl

@[simp] theorem published?_linkAll (s : Store) (owner : NodeId) (children : List NodeId)
    (c : CellId) : (s.linkAll owner children).published? c = s.published? c := by
  simp [published?]

/-! Contents and owners. -/

/-- What a slot holds, if it is there. -/
def content? (s : Store) (c : CellId) : Option Content := (s.cell? c).map (·.content)

theorem published?_eq_content? (s : Store) (c : CellId) :
    s.published? c = (s.content? c).bind Content.published? := by
  simp only [published?, content?]
  cases s.cell? c <;> rfl

@[simp] theorem content?_linkAll (s : Store) (owner : NodeId) (children : List NodeId) (c : CellId) :
    (s.linkAll owner children).content? c = s.content? c := by simp [content?]

/-- The recorded owner of a slot. -/
def owner? (s : Store) (c : CellId) : Option Owner := (s.cell? c).bind (·.owner)

/-- The operation whose children the values of a slot are. -/
def adopter? (s : Store) (c : CellId) : Option NodeId :=
  (s.owner? c).bind fun o => if o.linkage = .attached then some o.node else none

theorem adopter?_eq_some {s : Store} {c : CellId} {p : NodeId} :
    s.adopter? c = some p ↔ s.owner? c = some ⟨p, .attached⟩ := by
  unfold adopter?
  rcases s.owner? c with _ | ⟨q, _ | _⟩ <;> simp

theorem adopter?_congr {s t : Store} (h : ∀ c, t.owner? c = s.owner? c) : t.adopter? = s.adopter? := by
  funext c
  rw [adopter?, adopter?, h]

@[simp] theorem owner?_linkAll (s : Store) (owner : NodeId) (children : List NodeId) (c : CellId) :
    (s.linkAll owner children).owner? c = s.owner? c := by simp [owner?]

@[simp] theorem node?_modifyContent (s : Store) (c : CellId) (f : Content → Content) (n : NodeId) :
    (s.modifyContent c f).node? n = s.node? n := rfl

@[simp] theorem link?_modifyContent (s : Store) (c : CellId) (f : Content → Content) (n : NodeId) :
    (s.modifyContent c f).link? n = s.link? n := rfl

theorem cell?_modifyContent (s : Store) (c : CellId) (f : Content → Content) (d : CellId) :
    (s.modifyContent c f).cell? d =
      (s.cell? d).map fun cell => if d = c then { cell with content := f cell.content } else cell := by
  simp only [cell?, modifyContent, Array.getElem?_modify, eq_comm (a := c)]
  by_cases h : d = c <;> simp [h]

theorem content?_modifyContent (s : Store) (c : CellId) (f : Content → Content) (d : CellId) :
    (s.modifyContent c f).content? d = if d = c then (s.content? c).map f else s.content? d := by
  simp only [content?, cell?_modifyContent]
  by_cases h : d = c
  · subst h
    cases s.cell? d <;> simp
  · simp [h]

/-- A change that publishes nothing new leaves all values as they are. -/
theorem published?_modifyContent_of {f : Content → Content}
    (hf : ∀ a, (f a).published? = a.published?) (s : Store) (c d : CellId) :
    (s.modifyContent c f).published? d = s.published? d := by
  simp only [published?, cell?_modifyContent]
  cases s.cell? d with
  | none => rfl
  | some cell => by_cases h : d = c <;> simp [h, hf]

theorem published?_publish (s : Store) (c : CellId) (ops : List NodeId) (d : CellId) :
    (s.modifyContent c (·.publish ops)).published? d =
      if d = c ∧ (s.cell? c).isSome then some ((s.published? c).getD ops)
      else s.published? d := by
  simp only [published?, cell?_modifyContent]
  by_cases h : d = c
  · subst h
    cases s.cell? d <;> simp
  · cases s.cell? d <;> simp [h]

@[simp] theorem node?_own (s : Store) (c : CellId) (o : Owner) (n : NodeId) :
    (s.own c o).node? n = s.node? n := rfl

theorem cell?_own (s : Store) (c : CellId) (o : Owner) (d : CellId) :
    (s.own c o).cell? d = (s.cell? d).map fun cell =>
      if d = c then { cell with owner := cell.owner <|> some o } else cell := by
  simp only [cell?, own, Array.getElem?_modify, eq_comm (a := c)]
  by_cases h : d = c <;> simp [h]

@[simp] theorem published?_own (s : Store) (c : CellId) (o : Owner) (d : CellId) :
    (s.own c o).published? d = s.published? d := by
  simp only [published?, cell?_own]
  cases s.cell? d with
  | none => rfl
  | some cell => by_cases h : d = c <;> simp [h]

@[simp] theorem owner?_modifyContent (s : Store) (c : CellId) (f : Content → Content) (d : CellId) :
    (s.modifyContent c f).owner? d = s.owner? d := by
  simp only [owner?, cell?_modifyContent]
  cases s.cell? d with
  | none => rfl
  | some cell => by_cases h : d = c <;> simp [h]

@[simp] theorem content?_own (s : Store) (c : CellId) (o : Owner) (d : CellId) :
    (s.own c o).content? d = s.content? d := by
  simp only [content?, cell?_own]
  cases s.cell? d with
  | none => rfl
  | some cell => by_cases h : d = c <;> simp [h]

/-- The first owner of a slot stays. -/
theorem owner?_own (s : Store) (c : CellId) (o : Owner) (d : CellId) :
    (s.own c o).owner? d =
      if d = c ∧ (s.cell? c).isSome then s.owner? c <|> some o else s.owner? d := by
  simp only [owner?, cell?_own]
  by_cases h : d = c
  · subst h
    cases s.cell? d <;> simp
  · cases s.cell? d <;> simp [h]

/-! Later stores. -/

/-- Everything in the one store is in the other, at a later time. -/
structure Le (s t : Store) : Prop where
  node : ∀ {n node}, s.node? n = some node → ∃ node', t.node? n = some node' ∧ node.Le node'
  cell : ∀ {c cell}, s.cell? c = some cell → ∃ cell', t.cell? c = some cell' ∧ cell.Le cell'

theorem Le.refl (s : Store) : s.Le s :=
  ⟨fun h => ⟨_, h, .refl _⟩, fun h => ⟨_, h, .refl _⟩⟩

theorem Le.trans {s t u : Store} (h : s.Le t) (k : t.Le u) : s.Le u := by
  constructor
  · intro n node hn
    obtain ⟨node', hn', hl⟩ := h.node hn
    obtain ⟨node'', hn'', hl'⟩ := k.node hn'
    exact ⟨node'', hn'', hl.trans hl'⟩
  · intro c cell hc
    obtain ⟨cell', hc', hl⟩ := h.cell hc
    obtain ⟨cell'', hc'', hl'⟩ := k.cell hc'
    exact ⟨cell'', hc'', hl.trans hl'⟩

theorem Le.published? {s t : Store} (h : s.Le t) {c : CellId} {ops : List NodeId}
    (hs : s.published? c = some ops) : t.published? c = some ops := by
  obtain ⟨cell, hc, ho⟩ := Option.bind_eq_some_iff.mp hs
  obtain ⟨cell', hc', hl⟩ := h.cell hc
  simp [Store.published?, hc', hl.content.published? ho]

/-- A deferred slot stays one with the same producer. -/
theorem Le.deferred {s t : Store} (h : s.Le t) {c : CellId} {p : Producer} {runs : Nat}
    {finished : List Nat} {published : Option (List NodeId)}
    (hs : s.content? c = some (.deferred p runs finished published)) :
    ∃ runs' finished' published', t.content? c = some (.deferred p runs' finished' published') ∧
      runs ≤ runs' := by
  obtain ⟨cell, hc, ha⟩ := Option.map_eq_some_iff.mp hs
  obtain ⟨cell', hc', hl⟩ := h.cell hc
  have hcontent := hl.content
  rw [ha] at hcontent
  generalize hb : cell'.content = b at hcontent
  cases hcontent with
  | deferred _ hr _ _ => exact ⟨_, _, _, Option.map_eq_some_iff.mpr ⟨cell', hc', hb⟩, hr⟩

theorem Le.link? {s t : Store} (h : s.Le t) {n p : NodeId} (hs : s.link? n = some p) :
    t.link? n = some p := by
  obtain ⟨node, hn, hp⟩ := Option.bind_eq_some_iff.mp hs
  obtain ⟨node', hn', hl⟩ := h.node hn
  simp [Store.link?, hn', hl.parent p hp]

theorem Le.arity? {s t : Store} (h : s.Le t) {c : CellId} (hc : c < s.cells.size) :
    (t.cell? c).map (·.arity) = (s.cell? c).map (·.arity) := by
  have hcell : s.cell? c = some s.cells[c] := Array.getElem?_eq_getElem hc
  obtain ⟨cell', hcell', hl⟩ := h.cell hcell
  rw [hcell, hcell', Option.map_some, Option.map_some, hl.arity]

theorem le_linkAll (s : Store) (owner : NodeId) (children : List NodeId) :
    s.Le (s.linkAll owner children) := by
  constructor
  · intro n node hn
    refine ⟨_, by rw [node?_linkAll, hn]; rfl, ?_⟩
    split
    · exact node.le_adopted owner
    · exact .refl node
  · intro c cell hc
    exact ⟨cell, by simpa using hc, .refl cell⟩

theorem le_modifyContent {f : Content → Content} (hf : ∀ a, Content.Le a (f a)) (s : Store) (c : CellId) :
    s.Le (s.modifyContent c f) := by
  refine ⟨fun h => ⟨_, h, .refl _⟩, ?_⟩
  intro d cell hd
  refine ⟨_, by rw [cell?_modifyContent, hd]; rfl, ?_⟩
  split
  · exact ⟨rfl, hf _, fun _ h => h⟩
  · exact .refl cell

/-- A store that has got new operations, slots, links and owners, while no slot that was there has got
a value. -/
structure Grows (s t : Store) : Prop extends Le s t where
  content : ∀ {c cell}, s.cell? c = some cell →
    ∃ cell', t.cell? c = some cell' ∧ cell'.content = cell.content

theorem Grows.refl (s : Store) : s.Grows s := ⟨.refl s, fun h => ⟨_, h, rfl⟩⟩

theorem Grows.trans {s t u : Store} (h : s.Grows t) (k : t.Grows u) : s.Grows u := by
  refine ⟨h.toLe.trans k.toLe, ?_⟩
  intro c cell hc
  obtain ⟨cell', hc', he⟩ := h.content hc
  obtain ⟨cell'', hc'', he'⟩ := k.content hc'
  exact ⟨cell'', hc'', he'.trans he⟩

/-- A slot that is there holds what it held. -/
theorem Grows.published? {s t : Store} (h : s.Grows t) {c : CellId} (hc : (s.cell? c).isSome) :
    t.published? c = s.published? c := by
  obtain ⟨cell, hc⟩ := Option.isSome_iff_exists.mp hc
  obtain ⟨cell', hc', he⟩ := h.content hc
  simp [Store.published?, hc, hc', he]

theorem Grows.content? {s t : Store} (h : s.Grows t) {c : CellId} {a : Content}
    (hs : s.content? c = some a) : t.content? c = some a := by
  obtain ⟨cell, hc, rfl⟩ := Option.map_eq_some_iff.mp hs
  obtain ⟨cell', hc', he⟩ := h.content hc
  simp [Store.content?, hc', he]

theorem grows_linkAll (s : Store) (owner : NodeId) (children : List NodeId) :
    s.Grows (s.linkAll owner children) :=
  ⟨le_linkAll s owner children, fun {_ cell} h => ⟨cell, by simpa using h, rfl⟩⟩

theorem grows_own (s : Store) (c : CellId) (o : Owner) : s.Grows (s.own c o) := by
  have hcell : ∀ {d cell}, s.cell? d = some cell → ∃ cell', (s.own c o).cell? d = some cell' ∧
      cell.Le cell' ∧ cell'.content = cell.content := by
    intro d cell hd
    refine ⟨_, by rw [cell?_own, hd]; rfl, ?_⟩
    split
    · exact ⟨⟨rfl, .refl _, fun o' ho => by simp [ho]⟩, rfl⟩
    · exact ⟨.refl cell, rfl⟩
  refine ⟨⟨fun h => ⟨_, h, .refl _⟩, fun hd => ?_⟩, fun hd => ?_⟩
  · obtain ⟨cell', hd', hl, -⟩ := hcell hd
    exact ⟨cell', hd', hl⟩
  · obtain ⟨cell', hd', -, he⟩ := hcell hd
    exact ⟨cell', hd', he⟩

/-! New operations and slots. -/

theorem node?_lt {s : Store} {n : NodeId} {node : Node} (h : s.node? n = some node) :
    n < s.nodes.size := (Array.getElem?_eq_some_iff.mp h).1

theorem cell?_lt {s : Store} {c : CellId} {cell : Cell} (h : s.cell? c = some cell) :
    c < s.cells.size := (Array.getElem?_eq_some_iff.mp h).1

theorem content?_lt {s : Store} {c : CellId} {a : Content} (h : s.content? c = some a) :
    c < s.cells.size := by
  obtain ⟨cell, hcell, -⟩ := Option.map_eq_some_iff.mp h
  exact cell?_lt hcell

theorem node?_addNode (s : Store) (node : Node) (n : NodeId) :
    (s.addNode node).2.node? n = if n = s.nodes.size then some node else s.node? n := by
  simp [addNode, node?, Array.getElem?_push]

theorem cell?_addCell (s : Store) (cell : Cell) (c : CellId) :
    (s.addCell cell).2.cell? c = if c = s.cells.size then some cell else s.cell? c := by
  simp [addCell, cell?, Array.getElem?_push]

theorem content?_addCell (s : Store) (cell : Cell) (c : CellId) :
    (s.addCell cell).2.content? c = if c = s.cells.size then some cell.content else s.content? c := by
  simp only [content?, cell?_addCell]
  split <;> rfl

theorem owner?_addCell (s : Store) (arity : Arity) (content : Content) (c : CellId) :
    (s.addCell ⟨arity, content, none⟩).2.owner? c = s.owner? c := by
  simp only [owner?, cell?_addCell]
  split
  · next h =>
    have hnone : s.cell? c = none := by simp [cell?, h]
    simp [hnone]
  · rfl

theorem published?_addCell (s : Store) (cell : Cell) (c : CellId) :
    (s.addCell cell).2.published? c =
      if c = s.cells.size then cell.content.published? else s.published? c := by
  simp only [published?, cell?_addCell]
  split <;> rfl

theorem grows_addNode (s : Store) (node : Node) : s.Grows (s.addNode node).2 := by
  refine ⟨⟨fun {n old} h => ⟨old, ?_, .refl old⟩, fun h => ⟨_, h, .refl _⟩⟩, fun h => ⟨_, h, rfl⟩⟩
  rw [node?_addNode, if_neg (node?_lt h).ne, h]

theorem size_addCell (s : Store) (cell : Cell) : (s.addCell cell).2.cells.size = s.cells.size + 1 :=
  Array.size_push _

theorem grows_addCell (s : Store) (cell : Cell) : s.Grows (s.addCell cell).2 := by
  have hold : ∀ {c old}, s.cell? c = some old → (s.addCell cell).2.cell? c = some old := by
    intro c old h
    rw [cell?_addCell, if_neg (cell?_lt h).ne, h]
  exact ⟨⟨fun h => ⟨_, h, .refl _⟩, fun h => ⟨_, hold h, .refl _⟩⟩, fun h => ⟨_, hold h, rfl⟩⟩

/-! Installing slots. -/

theorem heldIn_congr {s t : Store} {l : Linkage} {cells : List (Linkage × CellId)}
    (h : ∀ c ∈ cells, t.published? c.2 = s.published? c.2) : t.heldIn l cells = s.heldIn l cells := by
  simp only [heldIn]
  exact List.flatMap_congr fun c hc => by rw [h c hc]

theorem mem_heldIn_cons {s : Store} {l : Linkage} {c : Linkage × CellId}
    {cells : List (Linkage × CellId)} {n : NodeId} :
    n ∈ s.heldIn l (c :: cells) ↔ n ∈ s.heldIn l [c] ∨ n ∈ s.heldIn l cells := by
  simp [heldIn]

@[simp] theorem published?_install (s : Store) (owner : NodeId) (l : Linkage) (c d : CellId) :
    (s.install owner l c).published? d = s.published? d := by
  unfold install
  split <;> simp

theorem install_eq (s : Store) (owner : NodeId) (l : Linkage) (c : CellId) :
    s.install owner l c = (s.linkAll owner (s.heldIn .attached [(l, c)])).own c ⟨owner, l⟩ := by
  unfold install
  cases l with
  | attached => cases hp : s.published? c <;> simp [heldIn, hp, linkAll]
  | detached => simp [heldIn, linkAll]

/-- Installing slots links what the attached ones hold, and nothing else. -/
theorem node?_installAll (s : Store) (owner : NodeId) (cells : List (Linkage × CellId)) (n : NodeId) :
    (s.installAll owner cells).node? n = (s.node? n).map fun node =>
      if n ∈ s.heldIn .attached cells then node.adopted owner else node := by
  induction cells generalizing s with
  | nil => simp [installAll, heldIn]
  | cons c cs ih =>
    have hstep : s.installAll owner (c :: cs) = (s.install owner c.1 c.2).installAll owner cs := rfl
    have hheld : (s.install owner c.1 c.2).heldIn .attached cs = s.heldIn .attached cs :=
      heldIn_congr fun d _ => published?_install s owner c.1 c.2 d.2
    rw [hstep, ih, hheld, install_eq, node?_own, node?_linkAll, Option.map_map]
    have hmem : n ∈ s.heldIn .attached (c :: cs) ↔
        n ∈ s.heldIn .attached [c] ∨ n ∈ s.heldIn .attached cs := mem_heldIn_cons
    congr 1
    funext node
    by_cases hc : n ∈ s.heldIn .attached [c] <;> by_cases hs : n ∈ s.heldIn .attached cs <;>
      simp [hmem, hc, hs]

theorem link?_installAll (s : Store) (owner : NodeId) (cells : List (Linkage × CellId)) (n : NodeId) :
    (s.installAll owner cells).link? n =
      if n ∈ s.heldIn .attached cells ∧ (s.node? n).isSome then s.link? n <|> some owner
      else s.link? n := by
  simp only [link?, node?_installAll]
  cases hn : s.node? n with
  | none => simp
  | some node => by_cases hc : n ∈ s.heldIn .attached cells <;> simp [hc, Node.adopted]

theorem cell?_install (s : Store) (owner : NodeId) (l : Linkage) (c d : CellId) :
    (s.install owner l c).cell? d = (s.own c ⟨owner, l⟩).cell? d := by
  rw [install_eq, cell?_own, cell?_own, cell?_linkAll]

theorem owner?_installAll_of_notMem {s : Store} {owner : NodeId} {cells : List (Linkage × CellId)}
    {c : CellId} (h : c ∉ cells.map (·.2)) : (s.installAll owner cells).owner? c = s.owner? c := by
  induction cells generalizing s with
  | nil => rfl
  | cons d cs ih =>
    have hd : ¬(c = d.2 ∧ (s.cell? d.2).isSome) := fun hc => h (by simp [hc.1])
    have hstep : (s.install owner d.1 d.2).owner? c = s.owner? c := by
      rw [install_eq, owner?_own, cell?_linkAll, if_neg hd, owner?_linkAll]
    exact (ih fun hc => h (by simp [List.mem_map.mp hc])).trans hstep

/-- A slot without an owner gets the one that installs it. -/
theorem owner?_installAll_of_mem {s : Store} {owner : NodeId} {cells : List (Linkage × CellId)}
    (hn : (cells.map (·.2)).Nodup) {l : Linkage} {c : CellId} (h : (l, c) ∈ cells)
    (hc : (s.cell? c).isSome) (ho : s.owner? c = none) :
    (s.installAll owner cells).owner? c = some ⟨owner, l⟩ := by
  induction cells generalizing s with
  | nil => simp at h
  | cons d cs ih =>
    obtain ⟨hd, hcs⟩ := List.nodup_cons.mp hn
    have hstep : s.installAll owner (d :: cs) = (s.install owner d.1 d.2).installAll owner cs := rfl
    rw [hstep]
    rcases List.mem_cons.mp h with rfl | h
    · rw [owner?_installAll_of_notMem hd, install_eq, owner?_own, cell?_linkAll,
        if_pos ⟨rfl, hc⟩, owner?_linkAll, ho]
      rfl
    · have hne : c ≠ d.2 := fun he => hd (List.mem_map.mpr ⟨_, h, he⟩)
      refine ih hcs h ?_ ?_
      · rw [cell?_install, cell?_own]
        simpa using hc
      · rw [install_eq, owner?_own, if_neg fun hq => hne hq.1, owner?_linkAll, ho]

theorem grows_install (s : Store) (owner : NodeId) (l : Linkage) (c : CellId) :
    s.Grows (s.install owner l c) := by
  unfold install
  split
  · exact (grows_linkAll s owner _).trans (grows_own _ c _)
  · exact grows_own s c _

theorem grows_installAll (s : Store) (owner : NodeId) (cells : List (Linkage × CellId)) :
    s.Grows (s.installAll owner cells) := by
  induction cells generalizing s with
  | nil => exact .refl s
  | cons c cs ih => exact (grows_install s owner c.1 c.2).trans (ih _)

/-- Installing slots leaves what they hold as it is. -/
theorem content?_installAll (s : Store) (owner : NodeId) (cells : List (Linkage × CellId))
    (c : CellId) : (s.installAll owner cells).content? c = s.content? c := by
  induction cells generalizing s with
  | nil => rfl
  | cons d cs ih =>
    have hstep : (s.install owner d.1 d.2).content? c = s.content? c := by
      rw [install_eq, content?_own, content?_linkAll]
    exact (ih _).trans hstep

theorem size_installAll (s : Store) (owner : NodeId) (cells : List (Linkage × CellId)) :
    (s.installAll owner cells).nodes.size = s.nodes.size := by
  induction cells generalizing s with
  | nil => rfl
  | cons c cs ih =>
    have hstep : (s.install owner c.1 c.2).nodes.size = s.nodes.size := by
      rw [install_eq]
      exact size_linkAll _ _ _
    exact (ih _).trans hstep

theorem size_cells_addOperation (s : Store) (header : Header) (payload : Payload)
    (cells : List CellId) : (s.addOperation header payload cells).2.cells.size = s.cells.size := by
  have hlink : ∀ (s : Store) owner children, (s.linkAll owner children).cells.size = s.cells.size := by
    intro s owner children
    induction children generalizing s with
    | nil => rfl
    | cons n ns ih => exact ih (s.link owner n)
  have hinstall : ∀ (s : Store) owner cells, (s.installAll owner cells).cells.size = s.cells.size := by
    intro s owner cells
    induction cells generalizing s with
    | nil => rfl
    | cons c cs ih =>
      have hstep : (s.install owner c.1 c.2).cells.size = s.cells.size := by
        rw [install_eq]
        exact Array.size_modify.trans (hlink _ _ _)
      exact (ih _).trans hstep
  exact hinstall _ _ _

theorem size_addOperation (s : Store) (header : Header) (payload : Payload) (cells : List CellId) :
    (s.addOperation header payload cells).2.nodes.size = s.nodes.size + 1 :=
  (size_installAll _ _ _).trans (Array.size_push _)

theorem content?_addOperation (s : Store) (header : Header) (payload : Payload)
    (cells : List CellId) (c : CellId) :
    (s.addOperation header payload cells).2.content? c = s.content? c :=
  content?_installAll _ _ _ c

theorem published?_addOperation (s : Store) (header : Header) (payload : Payload)
    (cells : List CellId) (c : CellId) :
    (s.addOperation header payload cells).2.published? c = s.published? c := by
  rw [published?_eq_content?, published?_eq_content?, content?_addOperation]

theorem grows_addOperation (s : Store) (header : Header) (payload : Payload) (cells : List CellId) :
    s.Grows (s.addOperation header payload cells).2 :=
  (grows_addNode s _).trans (grows_installAll _ _ _)

theorem node?_isSome {s : Store} {n : NodeId} (h : n < s.nodes.size) : (s.node? n).isSome := by
  simp [node?, h]

theorem size_nodes_le {s t : Store} (h : ∀ {n node}, s.node? n = some node → (t.node? n).isSome) :
    s.nodes.size ≤ t.nodes.size := by
  refine Nat.le_of_not_lt fun hlt => ?_
  obtain ⟨node, hnode⟩ := Option.isSome_iff_exists.mp (node?_isSome hlt)
  obtain ⟨node', hnode'⟩ := Option.isSome_iff_exists.mp (h hnode)
  exact lt_irrefl _ (node?_lt hnode')

theorem Le.size_nodes {s t : Store} (h : s.Le t) : s.nodes.size ≤ t.nodes.size :=
  size_nodes_le fun hn => by
    obtain ⟨node', hnode', -⟩ := h.node hn
    exact Option.isSome_of_mem hnode'

theorem Le.size_cells {s t : Store} (h : s.Le t) : s.cells.size ≤ t.cells.size := by
  refine Nat.le_of_not_lt fun hlt => ?_
  have hcell : s.cell? t.cells.size = some s.cells[t.cells.size] := Array.getElem?_eq_getElem hlt
  obtain ⟨cell', hcell', -⟩ := h.cell hcell
  exact lt_irrefl _ (cell?_lt hcell')

/-- The operations after one has been added are those before and the new one, and what its slots for
children hold is linked to it. -/
theorem node?_addOperation (s : Store) (header : Header) (payload : Payload) (cells : List CellId)
    (n : NodeId) : (s.addOperation header payload cells).2.node? n =
      (if n = s.nodes.size then some ⟨header, payload, cells, none⟩ else s.node? n).map fun node =>
        if n ∈ s.heldIn .attached ((payload.shape.slots.map (·.linkage)).zip cells) then
          node.adopted s.nodes.size
        else node := by
  rw [← node?_addNode]
  exact node?_installAll _ _ _ n

/-- A new operation links what its slots for children hold, and nothing else. -/
theorem link?_addOperation (s : Store) (header : Header) (payload : Payload) (cells : List CellId)
    (n : NodeId) : (s.addOperation header payload cells).2.link? n =
      if n ∈ s.heldIn .attached ((payload.shape.slots.map (·.linkage)).zip cells) ∧
          n ≤ s.nodes.size then s.link? n <|> some s.nodes.size
      else s.link? n := by
  have hnew : s.node? s.nodes.size = none := by simp [node?]
  simp only [link?, node?_addOperation]
  by_cases hn : n = s.nodes.size
  · subst hn
    by_cases hin : s.nodes.size ∈ s.heldIn .attached ((payload.shape.slots.map (·.linkage)).zip cells) <;>
      simp [hnew, hin, Node.adopted]
  · cases hs : s.node? n with
    | none =>
      have hle : ¬n ≤ s.nodes.size := fun h =>
        hn (h.antisymm (Array.getElem?_eq_none_iff.mp hs))
      simp [hn, hle]
    | some node =>
      have hle : n ≤ s.nodes.size := (node?_lt hs).le
      by_cases hin : n ∈ s.heldIn .attached ((payload.shape.slots.map (·.linkage)).zip cells) <;>
        simp [hn, hin, hle, Node.adopted]

theorem le_addOperation {s : Store} {header : Header} {payload : Payload} {cells : List CellId}
    {p : NodeId} {node' : Node} (h : (s.addOperation header payload cells).2.node? p = some node') :
    ∃ node, (if p = s.nodes.size then some ⟨header, payload, cells, none⟩ else s.node? p) = some node ∧
      node.Le node' := by
  rw [node?_addOperation] at h
  obtain ⟨node, hnode, rfl⟩ := Option.map_eq_some_iff.mp h
  refine ⟨node, hnode, ?_⟩
  split
  · exact node.le_adopted _
  · exact .refl node

end Store
end BoundTree
