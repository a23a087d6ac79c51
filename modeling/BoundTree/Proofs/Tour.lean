import BoundTree.Proofs.Browsing

/-!
Tours through what is as described, from an operation down: each operation has its turn once, for it was
reached from the one that it is linked to. Main statements: a walk comes to the operations in pre-order
and ends; and there are never more of them than the store can come to hold.
-/
namespace BoundTree

open Session Procedure

namespace Description

variable {d e : Description} {verifies : Bool}

theorem Valid.attached_perm (h : d.Valid verifies) : d.attached.Perm d.children := by
  obtain ⟨hp, -, harities, -, -, -⟩ := h
  exact Description.attached_perm hp harities.length_eq.symm

theorem Valid.size_lt (h : d.Valid verifies) (he : e ∈ d.attached) : e.size < d.size :=
  Description.size_lt (h.attached_perm.subset he)

end Description

namespace Chart

variable {m m' : Chart} {s t : Session}

/-- Links of what is on the chart stay as they are. -/
theorem Grows.link? (h : m.Grows s m' t) (hs : m.Fits s) (ht : m'.Fits t) {n : NodeId} {d : Description}
    (hn : m.node n = some d) : t.store.link? n = s.store.link? n := by
  rw [ht.link (h.node hn), hs.link hn, h.place hn]
  cases hc : m.place n with
  | none => rfl
  | some c =>
    obtain ⟨ds, hds⟩ := Option.isSome_iff_exists.mp (hs.place hc).1
    simp only [Option.bind_some, Store.adopter?, h.owner hds]

/-- On the way from an operation down: those that had their turn, and those that were reached and wait
for it. All but the first are linked to one that had its turn. -/
structure Tour (m : Chart) (s : Session) (root : NodeId) (d : Description)
    (done pending : List NodeId) : Prop where
  charted : m.node root = some d
  nodup : (done ++ pending).Nodup
  size : ∀ n ∈ done ++ pending, ∃ e, m.node n = some e ∧ e.size ≤ d.size
  linked : ∀ n ∈ done ++ pending, n ≠ root → ∃ p ∈ done, s.store.link? n = some p

namespace Tour

variable {root n : NodeId} {d : Description} {done pending : List NodeId}

theorem start (h : m.node root = some d) : m.Tour s root d [] [root] where
  charted := h
  nodup := by simp
  size n hn := by
    obtain rfl := List.mem_singleton.mp hn
    exact ⟨d, h, le_rfl⟩
  linked n hn hne := (hne (List.mem_singleton.mp hn)).elim

theorem later (h : m.Tour s root d done pending) (hgrows : m.Grows s m' t) (hs : m.Fits s)
    (ht : m'.Fits t) : m'.Tour t root d done pending where
  charted := hgrows.node h.charted
  nodup := h.nodup
  size n hn := by
    obtain ⟨e, he, hle⟩ := h.size n hn
    exact ⟨e, hgrows.node he, hle⟩
  linked n hn hne := by
    obtain ⟨p, hp, hlink⟩ := h.linked n hn hne
    obtain ⟨e, he, -⟩ := h.size n hn
    exact ⟨p, hp, (hgrows.link? hs ht he).trans hlink⟩

/-- Nothing that was reached is linked to the one whose turn it is. -/
theorem unlinked (h : m.Tour s root d done (n :: pending)) (hm : m.Holds s) {k : NodeId}
    (hk : k ∈ done ++ n :: pending) : s.store.link? k ≠ some n := by
  intro hlink
  by_cases hroot : k = root
  · subst hroot
    obtain ⟨e, he, hd⟩ := hm.fits.parent h.charted hlink
    obtain ⟨e', he', hle⟩ := h.size n (List.mem_append_right _ List.mem_cons_self)
    cases he.symm.trans he'
    exact ((hm.valid.node he).size_lt hd).not_ge hle
  · obtain ⟨p, hp, hlink'⟩ := h.linked k hk hroot
    cases hlink.symm.trans hlink'
    exact (List.nodup_append.mp h.nodup).2.2 _ hp _ List.mem_cons_self rfl

/-- The turn of an operation: what is linked to it was not reached before. -/
theorem next (h : m.Tour s root d done (n :: pending)) (hm : m.Holds s) {below : List NodeId}
    (hnodup : below.Nodup) (hnode : ∀ k ∈ below, (m.node k).isSome)
    (hlink : ∀ k ∈ below, s.store.link? k = some n) :
    m.Tour s root d (n :: done) (below ++ pending) := by
  obtain ⟨e, he, hle⟩ := h.size n (List.mem_append_right _ List.mem_cons_self)
  have hperm : (n :: done ++ (below ++ pending)).Perm (below ++ (done ++ n :: pending)) := by
    have hmiddle : (done ++ n :: pending).Perm (n :: (done ++ pending)) := List.perm_middle
    calc n :: done ++ (below ++ pending)
        _ = n :: done ++ below ++ pending := (List.append_assoc _ _ _).symm
        List.Perm _ (below ++ n :: done ++ pending) := List.perm_append_comm.append_right pending
        _ = below ++ (n :: (done ++ pending)) := by simp
        List.Perm _ (below ++ (done ++ n :: pending)) := hmiddle.symm.append_left below
  have hmem : ∀ k, k ∈ n :: done ++ (below ++ pending) → k ∈ below ∨ k ∈ done ++ n :: pending := by
    intro k hk
    exact List.mem_append.mp (hperm.mem_iff.mp hk)
  refine ⟨h.charted, ?_, ?_, ?_⟩
  · refine hperm.nodup_iff.mpr (hnodup.append h.nodup fun k hk hk' => ?_)
    exact h.unlinked hm hk' (hlink k hk)
  · intro k hk
    rcases hmem k hk with hk | hk
    · obtain ⟨c, hc⟩ := Option.isSome_iff_exists.mp (hnode k hk)
      obtain ⟨e', he', hce⟩ := hm.fits.parent hc (hlink k hk)
      cases he.symm.trans he'
      exact ⟨c, hc, ((hm.valid.node he).size_lt hce).le.trans hle⟩
    · exact h.size k hk
  · intro k hk hne
    rcases hmem k hk with hk | hk
    · exact ⟨n, List.mem_cons_self, hlink k hk⟩
    · obtain ⟨p, hp, hkp⟩ := h.linked k hk hne
      exact ⟨p, List.mem_cons_of_mem _ hp, hkp⟩

/-- No more is reached than there is. -/
theorem length_le (h : m.Tour s root d done pending) (hs : m.Fits s) :
    (done ++ pending).length ≤ s.store.nodes.size := by
  have hsub : done ++ pending ⊆ List.range s.store.nodes.size := by
    intro n hn
    obtain ⟨e, he, -⟩ := h.size n hn
    exact List.mem_range.mpr (hs.lt_node he)
  exact (h.nodup.subperm hsub).length_le.trans_eq List.length_range

end Tour
end Chart

namespace Session

open Chart

variable {m : Chart} {s : Session} {root : NodeId} {d : Description} {done pending : List NodeId}
  {ds : List Description}

/-- A walk comes to what is described, in pre-order. -/
theorem yields_walk (steps : Nat) (h : m.Holds s) (hr : m.running = none)
    (htour : m.Tour s root d done pending) (hpending : pending.map m.node = ds.map some) :
    Yields (walk steps pending) s m fun r t m' =>
      r.1.map m'.node = ((ds.flatMap Description.all).take steps).map some ∧
      ((ds.flatMap Description.all).length ≤ steps → r.2 = []) ∧
      m'.Tour t root d (r.1.reverse ++ done) r.2 := by
  induction steps generalizing done pending ds s m with
  | zero =>
    rw [walk]
    refine .pure h ⟨by simp, fun hle => ?_, htour⟩
    have hnil : ds.flatMap Description.all = [] := List.length_eq_zero_iff.mp (Nat.le_zero.mp hle)
    cases ds with
    | nil => simpa using hpending
    | cons e ds => simp [Description.all_eq] at hnil
  | succ steps ih =>
    cases pending with
    | nil =>
      obtain rfl : ds = [] := by simpa using hpending.symm
      exact .pure h ⟨by simp, fun _ => rfl, htour⟩
    | cons n pending =>
      cases ds with
      | nil => simp at hpending
      | cons e ds =>
        obtain ⟨hn, hrest⟩ := List.cons.inj hpending
        rw [walk]
        refine (yields_children none h hr hn).bind fun {below _ m₁} hholds hgrows hbelow => ?_
        obtain ⟨hnodes, hnodup, hlink⟩ := hbelow
        have hnext := (htour.later hgrows h.fits hholds.fits).next hholds hnodup
          (fun k => isSome_of_map_eq hnodes) hlink
        have hpending' : (below ++ pending).map m₁.node = (e.children ++ ds).map some := by
          rw [List.map_append, List.map_append, hnodes, map_eq_of_le hrest hgrows.node]
          rfl
        refine (ih hholds (hgrows.running.trans hr) hnext hpending').bind
          fun hholds' hgrows' hr' => ?_
        obtain ⟨hops, hend, htour'⟩ := hr'
        refine .pure hholds' ⟨?_, fun hle => hend ?_, ?_⟩
        · rw [List.map_cons, hops, hgrows'.node (hgrows.node hn), List.flatMap_cons, e.all_eq]
          simp
        · rw [List.flatMap_cons, e.all_eq] at hle
          simp only [List.length_append, List.length_cons, List.flatMap_append] at hle ⊢
          omega
        · simpa using htour'

/-- What is below is never more than the store can come to hold. -/
theorem length_le_extent (h : m.Holds s) (hr : m.running = none)
    (htour : m.Tour s root d done pending) (hpending : pending.map m.node = ds.map some) :
    (ds.flatMap Description.all).length ≤ s.store.extent := by
  obtain ⟨r, t, m', hrun, hholds, -, hops, -, htour'⟩ :=
    yields_walk (ds.flatMap Description.all).length h hr htour hpending
  have hlength := congrArg List.length hops
  have hsize := htour'.length_le hholds.fits
  have hextent := shrinking_reads.browses.walk _ _ _ _ _ hrun
  simp only [List.length_map, List.take_length] at hlength
  simp only [List.length_append, List.length_reverse] at hsize
  unfold Store.extent at hextent ⊢
  omega

theorem size_le_budget (h : m.Holds s) (hr : m.running = none) {n : NodeId} (hn : m.node n = some d) :
    d.size ≤ s.store.budget := by
  have hpending : [n].map m.node = [d].map some := by simp [hn]
  have hsize := length_le_extent h hr (.start hn) hpending
  rw [List.flatMap_singleton] at hsize
  exact hsize.trans s.store.extent_le_budget

theorem yields_walkUpTo (limit : Option Nat) (h : m.Holds s) (hr : m.running = none)
    (htour : m.Tour s root d done pending) (hpending : pending.map m.node = ds.map some) :
    Yields (walkUpTo limit pending) s m fun ops _ m' => ops.map m'.node =
      (limit.elim (ds.flatMap Description.all) (ds.flatMap Description.all).take).map some := by
  cases limit with
  | some k => exact (yields_walk k h hr htour hpending).bind fun hholds _ hops => .pure hholds hops.1
  | none =>
    have hlength : (ds.flatMap Description.all).length ≤ Nat.pow 2 (s.store.budget + 1) := by
      have hextent := length_le_extent h hr htour hpending
      have hbudget := s.store.extent_le_budget
      have hpow : s.store.budget + 1 < Nat.pow 2 (s.store.budget + 1) := Nat.lt_two_pow_self
      omega
    refine .skip h (read_apply s) rfl (.refl _) rfl fun h' => ?_
    refine (yields_walk _ h' hr htour hpending).bind fun {r _ _} hholds _ hops => ?_
    obtain ⟨hops, hend, -⟩ := hops
    have hempty : r.2.isEmpty = true := by simp [hend hlength]
    dsimp only
    rw [if_pos hempty]
    refine .pure hholds ?_
    rw [hops, List.take_of_length_le hlength]
    rfl

/-- The operation and all below it. -/
theorem yields_descendantsAndSelf {n : NodeId} (limit : Option Nat) (h : m.Holds s)
    (hr : m.running = none) (hn : m.node n = some d) :
    Yields (descendantsAndSelf n limit) s m fun ops _ m' =>
      ops.map m'.node = (limit.elim d.all d.all.take).map some := by
  have hpending : [n].map m.node = [d].map some := by simp [hn]
  have hwalk := yields_walkUpTo limit h hr (.start hn) hpending
  rw [List.flatMap_singleton] at hwalk
  exact hwalk

theorem yields_descendants {n : NodeId} (limit : Option Nat) (h : m.Holds s) (hr : m.running = none)
    (hn : m.node n = some d) :
    Yields (descendants n limit) s m fun ops _ m' =>
      ops.map m'.node = (limit.elim d.all.tail d.all.tail.take).map some := by
  have htail : d.all.tail = d.children.flatMap Description.all := by rw [d.all_eq, List.tail_cons]
  rw [htail]
  refine (yields_children none h hr hn).bind fun {below _ _} hholds hgrows hbelow => ?_
  obtain ⟨hnodes, hnodup, hlink⟩ := hbelow
  have hnext := ((Tour.start hn).later hgrows h.fits hholds.fits).next hholds hnodup
    (fun k => isSome_of_map_eq hnodes) hlink
  rw [List.append_nil] at hnext
  exact yields_walkUpTo limit hholds (hgrows.running.trans hr) hnext hnodes

end Session
end BoundTree
