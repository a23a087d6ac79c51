import BoundTree.Proofs.Preorder

/-!
All traversals are one. Main statement: where every child slot below an operation has its value and
nothing comes back to itself, walks, visitors, dumps and folders meet the same operations in the same
order, which is the pre-order.
-/
namespace BoundTree

namespace Procedure

variable {α β : Type} {s : Session}

theorem foldlM_ok {f : β → α → Procedure β} {g : β → α → β} {l : List α}
    (h : ∀ a ∈ l, ∀ b, f b a s = (.ok (g b a), s)) (b : β) :
    l.foldlM f b s = (.ok (l.foldl g b), s) := by
  induction l generalizing b with
  | nil => rfl
  | cons a l ih =>
    rw [List.foldlM_cons, bind_ok (h a List.mem_cons_self b)]
    exact ih (fun c hc => h c (List.mem_cons_of_mem a hc)) _

theorem mapM_ok {f : α → Procedure β} {Q : α → β → Prop} {l : List α}
    (h : ∀ a ∈ l, ∃ b, f a s = (.ok b, s) ∧ Q a b) :
    ∃ bs, l.mapM f s = (.ok bs, s) ∧ List.Forall₂ Q l bs := by
  induction l with
  | nil => exact ⟨[], rfl, .nil⟩
  | cons a l ih =>
    obtain ⟨b, hb, hQ⟩ := h a List.mem_cons_self
    obtain ⟨bs, hbs, hrest⟩ := ih fun c hc => h c (List.mem_cons_of_mem a hc)
    refine ⟨b :: bs, ?_, .cons hQ hrest⟩
    rw [List.mapM_cons, bind_ok hb, bind_ok hbs]
    rfl

end Procedure

namespace Node

theorem map_namedChildCells (n : Node) : n.namedChildCells.map (·.2) = n.childCells := by
  rw [namedChildCells, childCells, List.map_filterMap]
  refine List.filterMap_congr fun i hi => ?_
  obtain ⟨field, hfield, -⟩ := Option.map_eq_some_iff.mp (Payload.linkage_of_mem_evaluationOrder hi)
  have hslot : n.shape.slots[i]? = some field := hfield
  simp [hslot]

end Node

namespace Session

open Procedure

variable {s : Session} {r : NodeId}

/-! The slots of an operation that is found. -/

section

variable {n : NodeId} {node : Node} (hn : s.store.node? n = some node)
include hn

theorem namedChildCells_apply : namedChildCells n s = (.ok node.namedChildCells, s) := by
  simp only [namedChildCells, bind_apply, read_apply, pure_apply, hn, Option.elim_some]

theorem children_apply (limit : Option Nat) : children n limit s = gather node.childCells limit s := by
  simp only [children, childCells, bind_apply, read_apply, pure_apply, hn, Option.elim_some]

end

/-! Slots that have their values. -/

/-- What slots hold, one slot after the other. -/
def valuesOf (s : Session) (cells : List CellId) : List NodeId :=
  cells.flatMap fun c => (s.store.published? c).getD []

theorem childrenOf_eq {n : NodeId} {node : Node} (hn : s.store.node? n = some node) :
    s.store.childrenOf n = s.valuesOf node.childCells := by
  simp [Store.childrenOf, valuesOf, hn]

theorem gather_published {cells : List CellId} (h : ∀ c ∈ cells, (s.store.published? c).isSome) :
    gather cells none s = (.ok (s.valuesOf cells), s) := by
  induction cells with
  | nil => rfl
  | cons c cells ih =>
    obtain ⟨ops, ho⟩ := Option.isSome_iff_exists.mp (h c List.mem_cons_self)
    have hrest := ih fun d hd => h d (List.mem_cons_of_mem c hd)
    have hstep : gather (c :: cells) none =
        operations c >>= fun ops => gather cells none >>= fun rest => pure (ops ++ rest) := rfl
    rw [hstep, bind_ok (operations_published ho), bind_ok hrest]
    simp [valuesOf, ho]

/-- Slot by slot is child by child, where no visit changes anything. -/
theorem threadCells_published {σ : Type} {visit : NodeId → σ → Procedure σ} {g : σ → NodeId → σ}
    {cells : List CellId} (h : ∀ c ∈ cells, (s.store.published? c).isSome)
    (hvisit : ∀ child ∈ s.valuesOf cells, ∀ a, visit child a s = (.ok (g a child), s)) (a : σ) :
    threadCells visit cells a s = (.ok ((s.valuesOf cells).foldl g a), s) := by
  induction cells generalizing a with
  | nil => rfl
  | cons c cells ih =>
    obtain ⟨ops, ho⟩ := Option.isSome_iff_exists.mp (h c List.mem_cons_self)
    have hvalues : s.valuesOf (c :: cells) = ops ++ s.valuesOf cells := by simp [valuesOf, ho]
    rw [hvalues] at hvisit ⊢
    have hfold : ops.foldlM (fun a child => visit child a) a s = (.ok (ops.foldl g a), s) :=
      foldlM_ok (fun child hchild => hvisit child (List.mem_append_left _ hchild)) a
    rw [threadCells, bind_ok (operations_published ho), bind_ok hfold, List.foldl_append]
    exact ih (fun d hd => h d (List.mem_cons_of_mem c hd))
      (fun child hchild => hvisit child (List.mem_append_right _ hchild)) _

section Unfolds

variable (h : s.store.Unfolds r) {n : NodeId} (hn : s.store.Below r n)
include h hn

theorem children_unfolds : children n none s = (.ok (s.store.childrenOf n), s) := by
  obtain ⟨node, hnode, hcells⟩ := h.there n hn
  rw [children_apply hnode, gather_published hcells, childrenOf_eq hnode]

theorem walkChildren_unfolds {σ : Type} {visit : NodeId → σ → Procedure σ} {g : σ → NodeId → σ}
    (hvisit : ∀ child ∈ s.store.childrenOf n, ∀ a, visit child a s = (.ok (g a child), s)) (a : σ) :
    walkChildren visit n a s = (.ok ((s.store.childrenOf n).foldl g a), s) := by
  obtain ⟨node, hnode, hcells⟩ := h.there n hn
  have hwalk : walkChildren visit n a s = threadCells visit node.childCells a s := by
    simp only [walkChildren, childCells, bind_apply, read_apply, pure_apply, hnode, Option.elim_some]
  rw [childrenOf_eq hnode] at hvisit ⊢
  rw [hwalk, threadCells_published hcells hvisit]

theorem foldChildren_unfolds {α β : Type} {visit : NodeId → α → Procedure β} {g : NodeId → β} {a : α}
    (hvisit : ∀ child ∈ s.store.childrenOf n, visit child a s = (.ok (g child), s)) :
    foldChildren visit n a s = (.ok ((s.store.childrenOf n).map g), s) := by
  have hstep : ∀ child ∈ s.store.childrenOf n, ∀ done,
      (visit child a >>= fun b => pure (done ++ [b])) s = (.ok (done ++ [g child]), s) :=
    fun child hchild done => bind_ok (hvisit child hchild)
  rw [foldChildren, walkChildren_unfolds h hn hstep, List.foldl_append_eq_append, List.nil_append,
    ← List.flatMap_def, ← List.map_eq_flatMap]

end Unfolds

/-! The walk. -/

/-- A walk with steps enough comes to its end, and takes the pre-orders of what was pending. -/
theorem walk_unfolds (h : s.store.Unfolds r) {steps : Nat} {pending : List NodeId}
    (hpending : ∀ n ∈ pending, s.store.Below r n)
    (hsteps : (pending.flatMap s.store.preorder).length ≤ steps) :
    walk steps pending s = (.ok (pending.flatMap s.store.preorder, []), s) := by
  induction steps generalizing pending with
  | zero =>
    cases pending with
    | nil => rfl
    | cons n pending =>
      rw [List.flatMap_cons, h.preorder_eq (hpending n List.mem_cons_self)] at hsteps
      simp at hsteps
  | succ steps ih =>
    cases pending with
    | nil => rfl
    | cons n pending =>
      have hn := hpending n List.mem_cons_self
      have horder : (n :: pending).flatMap s.store.preorder =
          n :: (s.store.childrenOf n ++ pending).flatMap s.store.preorder := by
        rw [List.flatMap_cons, h.preorder_eq hn, List.flatMap_append, List.cons_append]
      rw [horder] at hsteps ⊢
      have hbelow : ∀ m ∈ s.store.childrenOf n ++ pending, s.store.Below r m := fun m hm =>
        (List.mem_append.mp hm).elim (hn.child ·) fun hm => hpending m (List.mem_cons_of_mem n hm)
      have hrest := ih hbelow (by simpa using hsteps)
      rw [walk, bind_ok (children_unfolds h hn), bind_ok hrest]
      rfl

theorem walkUpTo_unfolds (h : s.store.Unfolds r) {pending : List NodeId}
    (hpending : ∀ n ∈ pending, s.store.Below r n)
    (hsteps : (pending.flatMap s.store.preorder).length ≤ 2 ^ s.store.budget) :
    walkUpTo none pending s = (.ok (pending.flatMap s.store.preorder), s) := by
  have hfuel : 2 ^ s.store.budget ≤ Nat.pow 2 (s.store.budget + 1) :=
    Nat.pow_le_pow_right two_pos (Nat.le_succ _)
  have hwalk := walk_unfolds h hpending (hsteps.trans hfuel)
  unfold walkUpTo walkAll
  dsimp only
  rw [bind_ok (read_apply s), bind_ok hwalk]
  rfl

section Descendants

variable (h : s.store.Unfolds r) (hplaces : s.store.places ≤ s.store.budget) {n : NodeId}
  (hn : s.store.Below r n)
include h hplaces hn

/-- The store is made for the whole pre-order. -/
theorem length_preorder_le_budget : (s.store.preorder n).length ≤ 2 ^ s.store.budget :=
  (h.length_preorder_le_places hn).trans (Nat.pow_le_pow_right two_pos hplaces)

theorem descendantsAndSelf_unfolds :
    descendantsAndSelf n none s = (.ok (s.store.preorder n), s) := by
  have hself : ∀ m ∈ [n], s.store.Below r m := fun m hm => List.mem_singleton.mp hm ▸ hn
  have hlength := length_preorder_le_budget h hplaces hn
  rw [descendantsAndSelf, walkUpTo_unfolds h hself (by simpa using hlength), List.flatMap_singleton]

theorem descendants_unfolds : descendants n none s = (.ok (s.store.preorder n).tail, s) := by
  have hbelow : ∀ m ∈ s.store.childrenOf n, s.store.Below r m := fun m hm => hn.child hm
  have htail : (s.store.preorder n).tail = (s.store.childrenOf n).flatMap s.store.preorder := by
    rw [h.preorder_eq hn, List.tail_cons]
  rw [descendants, bind_ok (children_unfolds h hn), htail]
  refine walkUpTo_unfolds h hbelow (le_trans ?_ (length_preorder_le_budget h hplaces hn))
  rw [← htail, List.length_tail]
  exact Nat.sub_le _ _

end Descendants

/-! Folders. -/

/-- What a folder does at an operation, given what it does at the children, it does at every operation
that is found. -/
theorem accept_unfolds {α β : Type} {f : Folder α β} {Q : NodeId → α → β → Prop}
    (h : s.store.Unfolds r)
    (hstep : ∀ n node visit, s.store.Below r n → s.store.node? n = some node →
      (∀ child ∈ s.store.childrenOf n, ∀ a, ∃ b, visit child a s = (.ok b, s) ∧ Q child a b) →
      ∀ a, ∃ b, f.handler node.shape visit n node a s = (.ok b, s) ∧ Q n a b)
    (a : α) : ∃ b, f.accept r a s = (.ok b, s) ∧ Q r a b := by
  have hwithin : ∀ depth n, s.store.Below r n → s.store.progeny n < depth →
      ∀ a, ∃ b, f.acceptWithin depth n a s = (.ok b, s) ∧ Q n a b := by
    intro depth
    induction depth with
    | zero => exact fun n _ hlt => absurd hlt (Nat.not_lt_zero _)
    | succ depth ih =>
      intro n hn hlt a
      obtain ⟨node, hnode, -⟩ := h.there n hn
      have hchildren : ∀ child ∈ s.store.childrenOf n, ∀ a, ∃ b,
          f.acceptWithin depth child a s = (.ok b, s) ∧ Q child a b := fun child hchild =>
        ih child (hn.child hchild) ((h.progeny_lt hn hchild).trans_le (Nat.le_of_lt_succ hlt))
      obtain ⟨b, hb, hQ⟩ := hstep n node (f.acceptWithin depth) hn hnode hchildren a
      refine ⟨b, ?_, hQ⟩
      simp only [Folder.acceptWithin, bind_apply, read_apply, hnode, ofOption_some_apply, hb]
  have hsize : s.store.nodes.size ≤ s.store.budget :=
    le_trans (Nat.le_add_right _ _) s.store.extent_le_budget
  exact hwithin _ r .refl ((h.progeny_lt_size .refl).trans_le (hsize.trans (Nat.le_succ _))) a

/-- A visitor that notes every operation, and goes on to its children. -/
def enumerating : Visitor (List NodeId) where
  method _ := none
  fallback visit n _ seen := walkChildren visit n (seen ++ [n])

theorem enumerating_unfolds (h : s.store.Unfolds r) (seen : List NodeId) :
    enumerating.accept r seen s = (.ok (seen ++ s.store.preorder r), s) := by
  obtain ⟨b, hb, rfl⟩ := accept_unfolds (f := enumerating)
    (Q := fun n seen b => b = seen ++ s.store.preorder n) h
    (fun n node visit hn hnode hvisit seen => by
      have hwalk : walkChildren visit n (seen ++ [n]) s = (.ok ((s.store.childrenOf n).foldl
          (fun seen child => seen ++ s.store.preorder child) (seen ++ [n])), s) := by
        refine walkChildren_unfolds h hn (fun child hchild seen => ?_) _
        obtain ⟨b, hb, rfl⟩ := hvisit child hchild seen
        exact hb
      refine ⟨_, hwalk, ?_⟩
      rw [List.foldl_append_eq_append, h.preorder_eq hn, List.append_assoc, ← List.flatMap_def]
      rfl) seen
  exact hb

/-- A folder that counts the operations. -/
def sizing : Folder Unit Nat where
  method _ := none
  fallback visit n _ a := do return 1 + (← foldChildren visit n a).sum

theorem sizing_unfolds (h : s.store.Unfolds r) :
    sizing.accept r () s = (.ok (s.store.preorder r).length, s) := by
  obtain ⟨b, hb, rfl⟩ := accept_unfolds (f := sizing)
    (Q := fun n _ b => b = (s.store.preorder n).length) h
    (fun n node visit hn hnode hvisit a => by
      have hfold : foldChildren visit n a s =
          (.ok ((s.store.childrenOf n).map fun child => (s.store.preorder child).length), s) := by
        refine foldChildren_unfolds h hn fun child hchild => ?_
        obtain ⟨b, hb, rfl⟩ := hvisit child hchild a
        exact hb
      exact ⟨_, bind_ok hfold, (h.length_preorder hn).symm⟩) ()
  exact hb

/-! The dump. -/

/-- The texts of the operations in a dump from a level on. Every other level is one of slots. -/
def nodeTexts (level : Nat) (lines : List Line) : List String :=
  (lines.filter fun l => l.level % 2 == level % 2).map Line.text

theorem nodeTexts_append (level : Nat) (a b : List Line) :
    nodeTexts level (a ++ b) = nodeTexts level a ++ nodeTexts level b := by
  simp [nodeTexts]

theorem nodeTexts_flatten (level : Nat) {texts : NodeId → List String} {ops : List NodeId}
    {below : List (List Line)}
    (h : List.Forall₂ (fun n lines => nodeTexts level lines = texts n) ops below) :
    nodeTexts level below.flatten = ops.flatMap texts := by
  induction h with
  | nil => rfl
  | cons hhead _ ih => rw [List.flatten_cons, nodeTexts_append, hhead, ih, List.flatMap_cons]

theorem nodeTexts_slot (level : Nat) (text : String) (lines : List Line) :
    nodeTexts (level + 1) (⟨level, text⟩ :: lines) = nodeTexts (level + 1) lines := by
  have hother : (level % 2 == (level + 1) % 2) = false := beq_false_of_ne (by omega)
  rw [nodeTexts, List.filter_cons_of_neg (by simp [hother])]
  rfl

/-- The text of an operation in a dump. -/
def textOf (s : Session) (n : NodeId) : String := (s.store.node? n).elim "" nodeText

theorem dumpSlots_published {visit : NodeId → Nat → Procedure (List Line)} {level : Nat}
    {texts : NodeId → List String} {cells : List (String × CellId)}
    (h : ∀ c ∈ cells, (s.store.published? c.2).isSome)
    (hvisit : ∀ child ∈ s.valuesOf (cells.map (·.2)), ∃ lines,
      visit child (level + 1) s = (.ok lines, s) ∧ nodeTexts (level + 1) lines = texts child) :
    ∃ lines, dumpSlots visit level cells s = (.ok lines, s) ∧
      nodeTexts (level + 1) lines = (s.valuesOf (cells.map (·.2))).flatMap texts := by
  induction cells with
  | nil => exact ⟨[], rfl, rfl⟩
  | cons c cells ih =>
    obtain ⟨ops, ho⟩ := Option.isSome_iff_exists.mp (h c List.mem_cons_self)
    have hvalues : s.valuesOf ((c :: cells).map (·.2)) = ops ++ s.valuesOf (cells.map (·.2)) := by
      simp [valuesOf, ho]
    rw [hvalues] at hvisit ⊢
    obtain ⟨below, hbelow, hforall⟩ := mapM_ok (f := fun n => visit n (level + 1))
      fun child hchild => hvisit child (List.mem_append_left _ hchild)
    obtain ⟨rest, hrest, htexts⟩ := ih (fun d hd => h d (List.mem_cons_of_mem _ hd))
      fun child hchild => hvisit child (List.mem_append_right _ hchild)
    refine ⟨⟨level, slotText c.1 ops.isEmpty⟩ :: below.flatten ++ rest, ?_, ?_⟩
    · rw [dumpSlots, bind_ok (operations_published ho), bind_ok hbelow, bind_ok hrest]
      rfl
    · rw [List.cons_append, nodeTexts_slot, nodeTexts_append, nodeTexts_flatten _ hforall, htexts,
        List.flatMap_append]

theorem dumpLines_unfolds (h : s.store.Unfolds r) : ∃ lines, dumpLines r s = (.ok lines, s) ∧
    nodeTexts 0 lines = (s.store.preorder r).map s.textOf := by
  refine accept_unfolds (f := dumping)
    (Q := fun n level lines => nodeTexts level lines = (s.store.preorder n).map s.textOf) h
    (fun n node visit hn hnode hvisit level => ?_) 0
  obtain ⟨node', hnode', hcells⟩ := h.there n hn
  obtain rfl : node = node' := Option.some.inj (hnode.symm.trans hnode')
  obtain ⟨lines, hlines, htexts⟩ : ∃ lines,
      dumpSlots visit (level + 1) node.namedChildCells s = (.ok lines, s) ∧
        nodeTexts (level + 1 + 1) lines =
          (s.valuesOf (node.namedChildCells.map (·.2))).flatMap fun n =>
            (s.store.preorder n).map s.textOf := by
    refine dumpSlots_published (fun c hc => hcells c.2 ?_) fun child hchild => ?_
    · exact node.map_namedChildCells ▸ List.mem_map_of_mem hc
    · rw [node.map_namedChildCells, ← childrenOf_eq hnode] at hchild
      exact hvisit child hchild (level + 1 + 1)
  rw [node.map_namedChildCells, ← childrenOf_eq hnode] at htexts
  refine ⟨⟨level, nodeText node⟩ :: lines, ?_, ?_⟩
  · have hdump : (namedChildCells n >>= fun cells => dumpSlots visit (level + 1) cells >>= fun below =>
        pure (⟨level, nodeText node⟩ :: below)) s = (.ok (⟨level, nodeText node⟩ :: lines), s) := by
      rw [bind_ok (namedChildCells_apply hnode), bind_ok hlines]
      rfl
    exact hdump
  · have htext : s.textOf n = nodeText node := by simp [textOf, hnode]
    have hparity : nodeTexts level lines = nodeTexts (level + 1 + 1) lines := by
      simp [nodeTexts, Nat.add_assoc]
    rw [h.preorder_eq hn, List.map_cons, List.map_flatMap, htext, ← htexts, ← hparity, nodeTexts,
      List.filter_cons_of_pos (by simp)]
    rfl

end Session
end BoundTree
