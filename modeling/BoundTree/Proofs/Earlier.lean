import BoundTree.Proofs.Adoption
import BoundTree.Proofs.Naming
import BoundTree.Proofs.Replay

/-!
Making values at an earlier moment. Time only takes possibilities away: links that were free are set, names
are gone, and slots that wait get values, which are checked then as well. Main statement: values that can
be made at some moment could have been made at any moment before it, if what has a name then had the same
name before.
-/
namespace BoundTree

namespace Session

open Procedure

variable {us : List Use} {r u s t : Session}

/-- What is used by its name had that name before. -/
structure Keeps (us : List Use) (s t : Session) : Prop where
  node : ∀ use ∈ us, ∀ id n, use.id? = some id → t.node? id = some n → s.node? id = some n
  slot : ∀ name c, .slot name ∈ us → lookup t.slots name = some c → lookup s.slots name = some c

/-- The slot that stands for a slot later: itself, unless it was new. -/
def laterCell (s t : Session) (c : Nat) : Nat :=
  if c < s.store.cells.size then c else c - s.store.cells.size + t.store.cells.size

theorem laterCell_of_lt {c : CellId} (h : c < s.store.cells.size) : s.laterCell t c = c := if_pos h

/-- What was added to the earlier session was added to the later one too, where less is free and more is
known. -/
structure Trails (us : List Use) (r u s t : Session) : Prop where
  nodes : s.store.nodes.size + u.store.nodes.size = t.store.nodes.size + r.store.nodes.size
  cells : s.store.cells.size + u.store.cells.size = t.store.cells.size + r.store.cells.size
  oldNodes : r.store.nodes.size ≤ s.store.nodes.size
  oldCells : r.store.cells.size ≤ s.store.cells.size
  verifies : t.verifies = s.verifies
  adopted : t.Adopted
  node : ∀ {n node}, s.store.node? n = some node → ∃ node', t.store.node? (r.again u n) = some node' ∧
    node'.header = node.header ∧ node'.kind = node.kind ∧ (node'.parent = none → node.parent = none)
  arity : ∀ {c}, c < s.store.cells.size →
    (t.store.cell? (r.laterCell u c)).map (·.arity) = (s.store.cell? c).map (·.arity)
  published : ∀ {c ops}, s.store.published? c = some ops →
    t.store.published? (r.laterCell u c) = some (ops.map (r.again u))
  named : ∀ use ∈ us, ∀ id m, use.id? = some id → t.node? id = some m →
    ∃ n, s.node? id = some n ∧ m = r.again u n ∧ n < s.store.nodes.size
  slot : ∀ name d, .slot name ∈ us → lookup t.slots name = some d →
    ∃ c, lookup s.slots name = some c ∧ d = r.laterCell u c ∧ c < s.store.cells.size

theorem Trails.refl (hr : r.Present) (hu : u.Adopted) (hle : r.store.Le u.store)
    (hv : u.verifies = r.verifies) (hk : Keeps us r u) : Trails us r u r u where
  nodes := Nat.add_comm _ _
  cells := Nat.add_comm _ _
  oldNodes := le_rfl
  oldCells := le_rfl
  verifies := hv
  adopted := hu
  node {n node} hn := by
    obtain ⟨node', hn', hl⟩ := hle.node hn
    refine ⟨node', by rwa [again_of_lt (Store.node?_lt hn)], hl.header, hl.kind, fun hnone => ?_⟩
    cases hp : node.parent with
    | none => rfl
    | some p => cases hnone.symm.trans (hl.parent p hp)
  arity {c} hc := by
    have hcell : r.store.cell? c = some r.store.cells[c] := Array.getElem?_eq_getElem hc
    obtain ⟨cell', hcell', hl⟩ := hle.cell hcell
    rw [laterCell_of_lt hc, hcell, hcell', Option.map_some, Option.map_some, hl.arity]
  published {c ops} ho := by
    obtain ⟨cell, hc, -⟩ := Option.bind_eq_some_iff.mp ho
    have hsame : ∀ n ∈ ops, r.again u n = id n := fun n hn => again_of_lt (hr.node (.published ho hn))
    rw [laterCell_of_lt (Store.cell?_lt hc), List.map_congr_left hsame, List.map_id]
    exact hle.published? ho
  named use huse id m hid hm := by
    have hn := hk.node use huse id m hid hm
    have hlt := hr.node (mentions_node? hn)
    exact ⟨m, hn, (again_of_lt hlt).symm, hlt⟩
  slot name d hname hd := by
    have hc := hk.slot name d hname hd
    have hlt := hr.slot (lookup_mem hc)
    exact ⟨d, hc, (laterCell_of_lt hlt).symm, hlt⟩

namespace Trails

variable (h : Trails us r u s t)
include h

theorem again_size : r.again u s.store.nodes.size = t.store.nodes.size := by
  have hnodes := h.nodes
  have hold := h.oldNodes
  rw [again, if_neg (Nat.not_lt.mpr hold)]
  omega

theorem laterCell_size : r.laterCell u s.store.cells.size = t.store.cells.size := by
  have hcells := h.cells
  have hold := h.oldCells
  rw [laterCell, if_neg (Nat.not_lt.mpr hold)]
  omega

/-- What slots hold they hold later. -/
theorem mem_heldIn {l : Linkage} {ls : List Linkage} {cs : List CellId} {n : NodeId}
    (hn : n ∈ s.store.heldIn l (ls.zip cs)) :
    r.again u n ∈ t.store.heldIn l (ls.zip (cs.map (r.laterCell u))) := by
  obtain ⟨c, ops, hc, ho, hn⟩ := Store.mem_heldIn.mp hn
  refine Store.mem_heldIn.mpr ⟨r.laterCell u c, _, ?_, h.published ho, List.mem_map_of_mem hn⟩
  rw [List.zip_map_right]
  exact List.mem_map.mpr ⟨(l, c), hc, rfl⟩

/-- What is free later was free before. -/
theorem link?_eq_none {n : NodeId} (hn : n < s.store.nodes.size)
    (hnone : t.store.link? (r.again u n) = none) : s.store.link? n = none := by
  obtain ⟨node, hnode⟩ := Option.isSome_iff_exists.mp (Store.node?_isSome hn)
  obtain ⟨node', hnode', -, -, hparent⟩ := h.node hnode
  rw [Store.link?, hnode', Option.bind_some] at hnone
  rw [Store.link?, hnode, Option.bind_some, hparent hnone]

theorem modelsAgree {p c : NodeId} (hagree : t.store.ModelsAgree (r.again u p) (r.again u c)) :
    s.store.ModelsAgree p c := by
  intro parent child hp hc
  obtain ⟨parent', hp', hheader, hkind, -⟩ := h.node hp
  obtain ⟨child', hc', hheader', hkind', -⟩ := h.node hc
  rw [← hheader, ← hkind, ← hheader', ← hkind']
  exact hagree parent' child' hp' hc'

theorem laterCell_lt {c : CellId} (hc : c < s.store.cells.size) :
    r.laterCell u c < t.store.cells.size := by
  have hcell : s.store.cell? c = some s.store.cells[c] := Array.getElem?_eq_getElem hc
  have harity := h.arity hc
  rw [hcell, Option.map_some] at harity
  obtain ⟨cell', hcell', -⟩ := Option.map_eq_some_iff.mp harity
  exact Store.cell?_lt hcell'

theorem again_lt {n : NodeId} (hn : n < s.store.nodes.size) : r.again u n < t.store.nodes.size := by
  obtain ⟨node, hnode⟩ := Option.isSome_iff_exists.mp (Store.node?_isSome hn)
  obtain ⟨node', hnode', -⟩ := h.node hnode
  exact Store.node?_lt hnode'

/-- Nothing in the store and no name has changed. -/
theorem aside {s' t' : Session} (hs : s'.store = s.store ∧ s'.bindings = s.bindings ∧
      s'.slots = s.slots ∧ s'.verifies = s.verifies)
    (ht : t'.store = t.store ∧ t'.bindings = t.bindings ∧ t'.slots = t.slots ∧
      t'.verifies = t.verifies) (events : t'.events = t.events) : Trails us r u s' t' := by
  have hnames : s'.node? = s.node? ∧ t'.node? = t.node? := by
    constructor <;> funext id
    · rw [node?, node?, hs.2.1]
    · rw [node?, node?, ht.2.1]
  have hadopted : t'.Adopted := Change.adopted (.adds (.names ht.1 events ht.2.2.2)) h.adopted
  refine ⟨?_, ?_, ?_, ?_, ?_, hadopted, ?_, ?_, ?_, ?_, ?_⟩
  all_goals simp only [hs.1, hs.2.2.1, hs.2.2.2, ht.1, ht.2.2.1, ht.2.2.2, hnames.1, hnames.2]
  · exact h.nodes
  · exact h.cells
  · exact h.oldNodes
  · exact h.oldCells
  · exact h.verifies
  · exact h.node
  · exact h.arity
  · exact h.published
  · exact h.named
  · exact h.slot

theorem newCell (arity : Arity) {content content' : Content} (hnew : content'.isNew)
    (hcontent : ∀ ops, content.published? = some ops →
      content'.published? = some (ops.map (r.again u))) :
    Trails us r u { s with store := (s.store.addCell ⟨arity, content, none⟩).2 }
      { t with store := (t.store.addCell ⟨arity, content', none⟩).2 } := by
  have hcells := h.cells
  have hold := h.oldCells
  refine ⟨h.nodes, ?_, h.oldNodes, ?_, h.verifies, Change.adopted (.adds (.addCell t arity hnew)) h.adopted,
    h.node, ?_, ?_, h.named, ?_⟩
  · simp only [Store.size_addCell]
    omega
  · simp only [Store.size_addCell]
    omega
  · intro c hc
    have hc : c < s.store.cells.size + 1 := s.store.size_addCell ⟨arity, content, none⟩ ▸ hc
    dsimp only
    rw [Store.cell?_addCell, Store.cell?_addCell]
    rcases Nat.lt_succ_iff_lt_or_eq.mp hc with hlt | rfl
    · rw [if_neg (h.laterCell_lt hlt).ne, if_neg hlt.ne]
      exact h.arity hlt
    · rw [if_pos h.laterCell_size, if_pos rfl]
      rfl
  · intro c ops ho
    dsimp only at ho ⊢
    rw [Store.published?_addCell] at ho ⊢
    split at ho
    · next heq =>
      rw [heq, if_pos h.laterCell_size]
      exact hcontent ops ho
    · obtain ⟨cell, hc, -⟩ := Option.bind_eq_some_iff.mp ho
      rw [if_neg (h.laterCell_lt (Store.cell?_lt hc)).ne]
      exact h.published ho
  · intro name d hname hd
    obtain ⟨c, hc, hlater, hlt⟩ := h.slot name d hname hd
    exact ⟨c, hc, hlater, hlt.trans_le ((Nat.le_succ _).trans_eq (s.store.size_addCell _).symm)⟩

/-- A new operation of slots that stand for those of a new one later. -/
theorem withOperation (header : Header) {p q : Payload} (hblank : q.blank = p.blank)
    (he : q.error? header = none) (cs : List CellId) :
    Trails us r u (s.withOperation header p cs)
      (t.withOperation header q (cs.map (r.laterCell u))) := by
  have hshape : q.shape = p.shape := by rw [← q.shape_blank, hblank, p.shape_blank]
  have hkind : q.kind = p.kind := by rw [← q.kind_blank, hblank, p.kind_blank]
  have hnodes := h.nodes
  have hsize := s.store.size_addOperation header p cs
  have hsize' := t.store.size_addOperation header q (cs.map (r.laterCell u))
  have hcells := s.store.size_cells_addOperation header p cs
  have hcells' := t.store.size_cells_addOperation header q (cs.map (r.laterCell u))
  refine ⟨?_, ?_, ?_, ?_, h.verifies,
    Change.adopted (.adds (.addOperation t _ he)) h.adopted, ?_, ?_, ?_, ?_, ?_⟩
  · dsimp only [Session.withOperation]
    omega
  · dsimp only [Session.withOperation]
    rw [hcells, hcells']
    exact h.cells
  · exact h.oldNodes.trans ((Nat.le_succ _).trans_eq hsize.symm)
  · exact h.oldCells.trans_eq hcells.symm
  · intro n node₁ hn
    have hn : (s.store.addOperation header p cs).2.node? n = some node₁ := hn
    rw [Store.node?_addOperation] at hn
    obtain ⟨node, hnode, rfl⟩ := Option.map_eq_some_iff.mp hn
    have hlater : ∃ later, (if r.again u n = t.store.nodes.size then
        some ⟨header, q, cs.map (r.laterCell u), none⟩ else t.store.node? (r.again u n)) = some later ∧
        later.header = node.header ∧ later.kind = node.kind ∧
          (later.parent = none → node.parent = none) := by
      split at hnode
      · next heq =>
        cases hnode
        rw [heq, if_pos h.again_size]
        exact ⟨_, rfl, rfl, hkind, fun _ => rfl⟩
      · rw [if_neg (h.again_lt (Store.node?_lt hnode)).ne]
        exact h.node hnode
    obtain ⟨later, hlater, hheader, hkind, hparent⟩ := hlater
    refine ⟨_, (t.store.node?_addOperation header q _ _).trans (by rw [hlater]; rfl), ?_, ?_, ?_⟩
    · split <;> split <;> exact hheader
    · split <;> split <;> exact hkind
    · intro hnone
      -- what is adopted has a parent, and what is adopted here is adopted later
      split at hnone
      · cases hp : later.parent <;> simp [Node.adopted, hp] at hnone
      · next hnot =>
        have hnot' : n ∉ s.store.heldIn .attached ((p.shape.slots.map (·.linkage)).zip cs) :=
          fun hin => hnot (by rw [hshape]; exact h.mem_heldIn hin)
        rw [if_neg hnot']
        exact hparent hnone
  · intro c hc
    have hc : c < s.store.cells.size := hcells ▸ hc
    have hle : s.store.Le (s.withOperation header p cs).store :=
      (s.store.grows_addOperation header p cs).toLe
    have hle' : t.store.Le (t.withOperation header q (cs.map (r.laterCell u))).store :=
      (t.store.grows_addOperation header q _).toLe
    exact (hle'.arity? (h.laterCell_lt hc)).trans ((h.arity hc).trans (hle.arity? hc).symm)
  · intro c ops ho
    have ho : s.store.published? c = some ops :=
      (s.store.published?_addOperation header p cs c).symm.trans ho
    exact (t.store.published?_addOperation header q _ _).trans (h.published ho)
  · intro use huse id m hid hm
    obtain ⟨n, hn, hm, hlt⟩ := h.named use huse id m hid hm
    exact ⟨n, hn, hm, hlt.trans_le ((Nat.le_succ _).trans_eq hsize.symm)⟩
  · intro name d hname hd
    obtain ⟨c, hc, hlater, hlt⟩ := h.slot name d hname hd
    exact ⟨c, hc, hlater, hlt.trans_eq hcells.symm⟩

/-- Where the check of a new operation finds nothing wrong later, it finds nothing wrong before. -/
theorem constructionViolation? (header : Header) {p q : Payload} (hblank : q.blank = p.blank)
    (he : q.error? header = none) {cs : List CellId}
    (hnone : t.constructionViolation? header q (cs.map (r.laterCell u)) = none) :
    s.constructionViolation? header p cs = none := by
  have hshape : q.shape = p.shape := by rw [← q.shape_blank, hblank, p.shape_blank]
  have hafter := h.withOperation header hblank he cs
  have hsize := s.store.size_addOperation header p cs
  rw [constructionViolation?_eq_none] at hnone ⊢
  simp only [heldBy_withOperation] at hnone ⊢
  rw [h.verifies, hshape] at hnone
  intro hv
  obtain ⟨hchildren, hvalues⟩ := hnone hv
  constructor
  · intro n hn hle
    have hn' := h.mem_heldIn hn
    have hlt : n < (s.withOperation header p cs).store.nodes.size :=
      (Nat.lt_succ_of_le hle).trans_eq hsize.symm
    have hlater : r.again u n ≤ t.store.nodes.size := Nat.lt_succ_iff.mp
      ((hafter.again_lt hlt).trans_eq (t.store.size_addOperation header q (cs.map (r.laterCell u))))
    obtain ⟨hlink, hmodels⟩ := hchildren _ hn' hlater
    refine ⟨?_, hafter.modelsAgree (by rwa [h.again_size])⟩
    have hlink : (t.store.addOperation header q (cs.map (r.laterCell u))).2.link? (r.again u n) =
        some t.store.nodes.size := hlink
    rw [Store.link?_addOperation, hshape, if_pos ⟨hn', hlater⟩] at hlink
    -- nothing is linked to an operation that is not there yet
    have hfree : t.store.link? (r.again u n) = none := by
      cases hp : t.store.link? (r.again u n) with
      | none => rfl
      | some m =>
        obtain ⟨-, ⟨node, hnode, -⟩, -⟩ := h.adopted.link hp
        rw [hp] at hlink
        cases hlink
        exact absurd (Store.node?_lt hnode) (lt_irrefl _)
    have hfree' : s.store.link? n = none := by
      rcases hle.lt_or_eq with hlt | heq
      · exact h.link?_eq_none hlt hfree
      · rw [heq]
        simp [Store.link?, Store.node?]
    exact (s.store.link?_addOperation header p cs n).trans (by rw [if_pos ⟨hn, hle⟩, hfree']; rfl)
  · intro n hn
    have hlater := hvalues _ (h.mem_heldIn hn)
    cases hnode : (s.withOperation header p cs).store.node? n with
    | none => simp [Store.link?, hnode]
    | some node => exact hafter.link?_eq_none (Store.node?_lt hnode) hlater

/-- A slot that loses its name. -/
theorem takeSlot (name : String) :
    Trails us r u { s with slots := remove s.slots name } { t with slots := remove t.slots name } where
  nodes := h.nodes
  cells := h.cells
  oldNodes := h.oldNodes
  oldCells := h.oldCells
  verifies := h.verifies
  adopted := Change.adopted (s := t) (.adds (.names rfl rfl rfl)) h.adopted
  node := h.node
  arity := h.arity
  published := h.published
  named := h.named
  slot other d hother hd := by
    rw [lookup_remove] at hd ⊢
    split at hd
    · cases hd
    · next hne =>
      rw [if_neg hne]
      exact h.slot other d hother hd

/-- A new operation that gets a name. -/
theorem bind (name : Option String) {n : NodeId} (hn : n < s.store.nodes.size) :
    Trails us r u (s.bind name n) (t.bind name (r.again u n)) := by
  obtain ⟨hstore, -, hverifies⟩ := s.bind_store name n
  obtain ⟨hstore', hevents', hverifies'⟩ := t.bind_store name (r.again u n)
  have hadopted : (t.bind name (r.again u n)).Adopted :=
    Change.adopted (.adds (.names hstore' hevents' hverifies')) h.adopted
  refine ⟨?_, ?_, ?_, ?_, ?_, hadopted, ?_, ?_, ?_, ?_, ?_⟩
  all_goals simp only [hstore, hstore', hverifies, hverifies', slots_bind]
  · exact h.nodes
  · exact h.cells
  · exact h.oldNodes
  · exact h.oldCells
  · exact h.verifies
  · exact h.node
  · exact h.arity
  · exact h.published
  · intro use huse id m hid hm
    rw [node?_bind] at hm ⊢
    split at hm
    · next heq =>
      cases hm
      exact ⟨n, by rw [if_pos heq], rfl, hn⟩
    · next hne =>
      rw [if_neg hne]
      exact h.named use huse id m hid hm
  · exact h.slot

end Trails

end Session

namespace Procedure

open Session

variable {α β γ δ : Type} {us : List Use} {r u s t : Session}

/-- Where the second procedure succeeds later, the first one does, and makes the same. -/
def Foretells (us : List Use) (r u : Session) (x : Procedure α) (y : Procedure β) (s t : Session)
    (R : α → β → Store → Prop) : Prop :=
  ∀ b t', y t = (.ok b, t') → ∃ a s', x s = (.ok a, s') ∧ Trails us r u s' t' ∧ R a b s'.store

namespace Foretells

variable {x : Procedure α} {y : Procedure β} {R : α → β → Store → Prop}

theorem pure {a : α} {b : β} (h : Trails us r u s t) (hab : R a b s.store) :
    Foretells us r u (Pure.pure a) (Pure.pure b) s t R := by
  intro b' t' heq
  cases heq
  exact ⟨a, s, rfl, h, hab⟩

theorem fail (f : Fault) : Foretells us r u x (fail f) s t R := by
  intro b t' heq
  cases heq

theorem bind {f : α → Procedure γ} {g : β → Procedure δ} {Q : γ → δ → Store → Prop}
    (hx : Foretells us r u x y s t R) (hf : ∀ a b s' t', Trails us r u s' t' → R a b s'.store →
      Foretells us r u (f a) (g b) s' t' Q) : Foretells us r u (x >>= f) (y >>= g) s t Q := by
  intro d t'' heq
  obtain ⟨b, t', hrun, hrest⟩ := bind_eq_ok heq
  obtain ⟨a, s', hrun', h, hab⟩ := hx b t' hrun
  obtain ⟨c, s'', hrest', h', hcd⟩ := hf a b s' t' h hab d t'' hrest
  exact ⟨c, s'', (bind_ok hrun').trans hrest', h', hcd⟩

/-- What is read off the session is known. -/
theorem reading {f : Session → Procedure α} {g : Session → Procedure β}
    (hf : Foretells us r u (f s) (g t) s t R) : Foretells us r u (read >>= f) (read >>= g) s t R := hf

theorem ofOption {f : Fault} {a? : Option α} {b? : Option β} (h : Trails us r u s t)
    (hab : ∀ b, b? = some b → ∃ a, a? = some a ∧ R a b s.store) :
    Foretells us r u (Procedure.ofOption f a?) (Procedure.ofOption f b?) s t R := by
  cases b? with
  | none => exact fail f
  | some b =>
    obtain ⟨a, rfl, hR⟩ := hab b rfl
    exact pure h hR

/-- What adds nothing to the store and changes no name. -/
theorem aside {s' t' : Session} {a : α} {b : β} (h : Trails us r u s t) (hx : x s = (.ok a, s'))
    (hy : y t = (.ok b, t')) (hs : s'.store = s.store ∧ s'.bindings = s.bindings ∧
      s'.slots = s.slots ∧ s'.verifies = s.verifies)
    (ht : t'.store = t.store ∧ t'.bindings = t.bindings ∧ t'.slots = t.slots ∧
      t'.verifies = t.verifies) (events : t'.events = t.events) (hab : R a b s.store) :
    Foretells us r u x y s t R := by
  intro b' t'' heq
  cases hy.symm.trans heq
  exact ⟨a, s', hx, h.aside hs ht events, hs.1 ▸ hab⟩

theorem hold (h : Trails us r u s t) (a b : Holder) {P : Store → Prop} (hP : P s.store) :
    Foretells us r u (Procedure.hold a) (Procedure.hold b) s t fun _ _ z => P z :=
  aside h (hold_apply a s) (hold_apply b t) ⟨rfl, rfl, rfl, rfl⟩ ⟨rfl, rfl, rfl, rfl⟩ rfl hP

theorem releasing (hx : Foretells us r u x y s t R) :
    Foretells us r u (releasing x) (releasing y) s t R := by
  intro b t' heq
  rw [releasing_apply] at heq
  obtain ⟨hok, rfl⟩ := Prod.mk.inj heq
  obtain ⟨a, s', hrun, h, hab⟩ := hx b _ (Prod.ext hok rfl)
  refine ⟨a, { s' with held := s.held }, by rw [releasing_apply, hrun], ?_, hab⟩
  exact h.aside ⟨rfl, rfl, rfl, rfl⟩ ⟨rfl, rfl, rfl, rfl⟩ rfl

end Foretells
end Procedure

namespace Session

open Procedure

/-- An operation, and the one that stands for it. -/
def Counterpart (r u : Session) (n m : NodeId) (s : Store) : Prop :=
  m = r.again u n ∧ n < s.nodes.size

theorem foretells_named (h : Trails us r u s t) {use : Use} {id : String} (hid : use.id? = some id)
    (hus : use ∈ us) :
    Foretells us r u (read >>= fun s => Procedure.ofOption .unknown (s.node? id))
      (read >>= fun s => Procedure.ofOption .unknown (s.node? id)) s t (Counterpart r u) := by
  refine .reading (.ofOption h fun m hm => ?_)
  obtain ⟨n, hn, hstands, hlt⟩ := h.named use hus id m hid hm
  exact ⟨n, hn, hstands, hlt⟩

theorem foretells_construct (h : Trails us r u s t) (header : Header) {p q : Payload}
    (hblank : q.blank = p.blank) {cs ds : List CellId} (hds : ds = cs.map (r.laterCell u)) :
    Foretells us r u (construct header p cs) (construct header q ds) s t (Counterpart r u) := by
  intro m t' heq
  obtain ⟨rfl, rfl, herror, hviolation⟩ := construct_eq_ok heq
  subst hds
  have herror' : p.error? header = none := by rw [← p.error?_blank, ← hblank, q.error?_blank, herror]
  refine ⟨s.store.nodes.size, s.withOperation header p cs, ?_,
    h.withOperation header hblank herror cs, h.again_size.symm, ?_⟩
  · rw [construct_apply, herror', h.constructionViolation? header hblank herror hviolation]
  · exact (Nat.lt_succ_self _).trans_eq (s.store.size_addOperation header p cs).symm

theorem foretells_newCell (h : Trails us r u s t) (arity : Arity) (content content' : Content)
    (hnew : content'.isNew) (hcontent : ∀ ops, content.published? = some ops →
      content'.published? = some (ops.map (r.again u))) :
    Foretells us r u (newCell arity content) (newCell arity content') s t
      fun c d _ => [d] = [c].map (r.laterCell u) := by
  intro d t' heq
  rw [newCell_apply] at heq
  cases heq
  refine ⟨_, _, newCell_apply arity content s, ?_, congrArg (fun c => [c]) h.laterCell_size.symm⟩
  exact (h.newCell arity hnew hcontent).aside ⟨rfl, rfl, rfl, rfl⟩ ⟨rfl, rfl, rfl, rfl⟩ rfl

theorem foretells_takeSlot (h : Trails us r u s t) (arity : Arity) {name : String}
    (hus : .slot name ∈ us) :
    Foretells us r u (takeSlot arity name) (takeSlot arity name) s t
      fun c d _ => [d] = [c].map (r.laterCell u) := by
  intro d t' heq
  rw [takeSlot_apply] at heq
  cases hd : lookup t.slots name with
  | none =>
    rw [hd] at heq
    cases heq
  | some d' =>
    obtain ⟨c, hc, rfl, hlt⟩ := h.slot name d' hus hd
    rw [hd] at heq
    dsimp only at heq
    split at heq
    · next harity =>
      cases heq
      have harity' : (s.store.cell? c).map (·.arity) = some arity := (h.arity hlt).symm.trans harity
      refine ⟨c, { s with slots := remove s.slots name, held := .cell c :: s.held }, ?_, ?_, rfl⟩
      · rw [takeSlot_apply, hc]
        dsimp only
        rw [if_pos harity']
      · exact (h.takeSlot name).aside ⟨rfl, rfl, rfl, rfl⟩ ⟨rfl, rfl, rfl, rfl⟩ rfl
    · cases heq

theorem foretells_functionRef (h : Trails us r u s t) {n m : NodeId}
    (hnm : Counterpart r u n m s.store) :
    Foretells us r u (functionRef n) (functionRef m) s t
      fun f g _ => (AttributeValue.function g).blank = (AttributeValue.function f).blank := by
  obtain ⟨rfl, hlt⟩ := hnm
  obtain ⟨node, hn⟩ := Option.isSome_iff_exists.mp (Store.node?_isSome hlt)
  obtain ⟨node', hn', hheader, hkind, -⟩ := h.node hn
  have hnode : Foretells us r u (Procedure.ofOption .unknown (s.store.node? n))
      (Procedure.ofOption .unknown (t.store.node? (r.again u n))) s t
      fun x y _ => y.header = x.header ∧ y.kind = x.kind :=
    .ofOption h fun y hy => by
      cases hn'.symm.trans hy
      exact ⟨node, hn, hheader, hkind⟩
  refine .reading (hnode.bind fun x y s' t' h' hxy => .pure h' ?_)
  simp [AttributeValue.blank, hxy.1, hxy.2]

theorem foretells_bindName (h : Trails us r u s t) (id : Option String) {n m : NodeId}
    (hnm : Counterpart r u n m s.store) :
    Foretells us r u (modify (·.bind id n)) (modify (·.bind id m)) s t
      fun _ _ z => Counterpart r u n m z := by
  obtain ⟨rfl, hlt⟩ := hnm
  intro _ t' heq
  cases heq
  refine ⟨(), s.bind id n, rfl, h.bind id hlt, rfl, ?_⟩
  rw [(s.bind_store id n).1]
  exact hlt

theorem foretells_intern (h : Trails us r u s t) (name : String) :
    Foretells us r u (intern name) (intern name) s t fun _ _ _ => True :=
  .aside h rfl rfl ⟨rfl, rfl, rfl, rfl⟩ ⟨rfl, rfl, rfl, rfl⟩ rfl trivial

/-- Sessions of which the one is later, and what has been made in both. -/
def trailing (us : List Use) (r u : Session) : Pairing where
  session := Trails us r u
  later _ _ := True
  node _ := Counterpart r u
  nodes _ ns ms _ := ms = ns.map (r.again u)
  slots _ cs ds _ := ds = cs.map (r.laterCell u)

theorem foretells_lockstep : Lockstep us (trailing us r u) (Foretells us r u) where
  pure h hab := .pure h hab
  fail f := .fail f
  bind hx hf := hx.bind fun a b s' t' h hab => hf a b s' t' h trivial hab
  releasing hx := hx.releasing
  named h hid hus := foretells_named h hid hus
  hold a b _ h hP := .hold h a b hP
  intern name h := foretells_intern h name
  functionRef h hnm := foretells_functionRef h hnm
  filled arity _ ns ms h hns := foretells_newCell h arity (.filled ns) (.filled ms) rfl fun _ ho => by
    cases ho
    exact congrArg some hns
  deferred arity p _ h := foretells_newCell h arity _ _ (by simp [Content.isNew]) fun _ ho => nomatch ho
  takeSlot arity _ _ h hus := foretells_takeSlot h arity hus
  construct header _ _ _ _ h hblank hs := foretells_construct h header hblank hs
  bindName {_ _ _ id _ _} h _ hnm := foretells_bindName h id hnm
  nodesNil _ _ := rfl
  nodesCons hnm _ hns := congrArg₂ List.cons hnm.1 hns
  slotsNil _ := rfl
  slotsCons hc hcs := congrArg₂ List.cons (List.cons.inj hc).1 hcs
  slotsLater hs _ := hs

/-- Values that can be made could have been made before, if what they use by its name had that name
before. -/
theorem evalNodes_before {es : List NodeExpr} (hr : r.Present) (hu : u.Adopted)
    (hle : r.store.Le u.store) (hv : u.verifies = r.verifies) (hk : Keeps (nodesUses .value es) r u)
    {ops : List NodeId} {u' : Session} (h : evalNodes es u = (.ok ops, u')) :
    ∃ ops' r', evalNodes es r = (.ok ops', r') := by
  have hname : ∀ id, (Use.value id).id? = some id := fun _ => rfl
  obtain ⟨ops', r', hrun, -⟩ := foretells_lockstep.evalNodes es hname (List.Subset.refl _)
    (Trails.refl hr hu hle hv hk) ops u' h
  exact ⟨ops', r', hrun⟩

end Session
end BoundTree
