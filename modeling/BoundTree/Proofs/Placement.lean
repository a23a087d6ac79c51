import BoundTree.Proofs.Adoption
import BoundTree.Proofs.Attempts

/-!
Whether values can be in the slots of a new operation. The check of the links comes after all slots have
been linked, and yet it can be told before which of them it refuses, and why. Main statement: an operation
that is accepted is stopped exactly where a value is out of place, and the first such value is reported.
-/
namespace BoundTree.Session

open Procedure

variable {s : Session} {header : Header} {payload : Payload} {cells : List CellId} {n p : NodeId}
  {child : Node} {v : LinkViolation}

/-- What the slots of a payload hold already, slot by slot in declaration order. -/
def places (s : Session) (payload : Payload) (cells : List CellId) : List (Linkage × NodeId) :=
  s.positions ((payload.shape.slots.map (·.linkage)).zip cells)

/-- The session while a payload is at hand, which keeps in use what its slots and its attributes hold. -/
def offering (s : Session) (payload : Payload) (cells : List CellId) : Session :=
  { s with held := cells.map .cell ++ payload.nodes.map .node ++ s.held }

/-- What is wrong with a value at its place, told before the operation is there. -/
inductive Misplaced (s : Session) (header : Header) (payload : Payload) (cells : List CellId) :
    Linkage × NodeId → LinkViolation → Prop
  /-- The child was linked before, whether or not the parent is still there. -/
  | taken {n p : NodeId} {child : Node} (there : s.store.node? n = some child)
      (linked : child.parent = some p) :
      Misplaced s header payload cells (.attached, n) (.wrongParent child.kind payload.kind
        (if (s.offering payload cells).isAlive p then s.kind? p else none))
  /-- The child is free and belongs to another semantic model. -/
  | foreign {n : NodeId} {child : Node} (there : s.store.node? n = some child)
      (free : child.parent = none) (bound : ¬child.kind.isSynthetic) (binds : ¬payload.kind.isSynthetic)
      (other : child.header.model ≠ header.model) :
      Misplaced s header payload cells (.attached, n)
        (.modelMismatch child.kind payload.kind child.header.model header.model)
  /-- The value was linked before, or it is also a child of the operation. -/
  | linked {n : NodeId} {value : Node} (there : s.store.node? n = some value)
      (why : value.parent.isSome ∨ n ∈ s.offered payload cells) :
      Misplaced s header payload cells (.detached, n) (.unexpectedParent value.kind payload.kind)

/-! The moment of the check. -/

/-- The session in which the links of a new operation are checked. -/
def installing (s : Session) (header : Header) (payload : Payload) (cells : List CellId) : Session :=
  { s.withOperation header payload cells with held := .node s.store.nodes.size :: s.held }

theorem node?_installing_new (s : Session) (header : Header) (payload : Payload) (cells : List CellId) :
    ∃ parent, (s.installing header payload cells).store.node?
    s.store.nodes.size = some ⟨header, payload, cells, parent⟩ :=
  (s.installs_withOperation header payload cells s.events).added

/-- What was there has got the new operation as its parent, if it is a child without one. -/
theorem node?_installing (header : Header) (payload : Payload) (cells : List CellId)
    (hn : s.store.node? n = some child) :
    (s.installing header payload cells).store.node? n =
      some (if n ∈ s.offered payload cells then child.adopted s.store.nodes.size else child) := by
  have hinstalls := s.installs_withOperation header payload cells s.events
  split
  · next hin => exact hinstalls.child hn hin
  · next hout => exact (hinstalls.other (Store.node?_lt hn).ne hout).trans hn

theorem kind?_installing (hn : n < s.store.nodes.size) :
    (s.installing header payload cells).kind? n = s.kind? n := by
  obtain ⟨child, hchild⟩ := Option.isSome_iff_exists.mp (Store.node?_isSome hn)
  rw [kind?, kind?, node?_installing header payload cells hchild, hchild]
  split <;> rfl

theorem published?_installing (c : CellId) :
    (s.installing header payload cells).store.published? c = s.store.published? c :=
  s.store.published?_addOperation header payload cells c

theorem holds_installing (hn : n < s.store.nodes.size) :
    (s.installing header payload cells).store.holds n = s.store.holds n := by
  obtain ⟨child, hchild⟩ := Option.isSome_iff_exists.mp (Store.node?_isSome hn)
  simp only [Store.holds, node?_installing header payload cells hchild, hchild, published?_installing]
  split <;> rfl

theorem holds_installing_new : (s.installing header payload cells).store.holds s.store.nodes.size =
    cells.flatMap (fun c => (s.store.published? c).getD []) ++ payload.nodes := by
  obtain ⟨parent, hnew⟩ := s.node?_installing_new header payload cells
  simp only [Store.holds, hnew, published?_installing]

/-- More holders keep what they hold. -/
theorem mem_roots_append (more : List Holder) :
    n ∈ ({ s with held := more ++ s.held } : Session).roots ↔ n ∈ s.roots ∨
      Holder.node n ∈ more ∨ ∃ c, Holder.cell c ∈ more ∧ n ∈ (s.store.published? c).getD [] := by
  simp only [roots, List.flatMap_append, List.mem_append, List.mem_flatMap (l := more)]
  rw [or_left_comm, or_comm]
  refine or_congr_right ⟨?_, ?_⟩
  · rintro ⟨m | c, hmore, hn⟩
    · exact .inl (List.mem_singleton.mp hn ▸ hmore)
    · exact .inr ⟨c, hmore, hn⟩
  · rintro (hmore | ⟨c, hmore, hn⟩)
    · exact ⟨_, hmore, List.mem_singleton_self n⟩
    · exact ⟨_, hmore, hn⟩

theorem mem_roots_installing : n ∈ (s.installing header payload cells).roots ↔
    n ∈ s.roots ∨ n = s.store.nodes.size := by
  have hroots : (s.installing header payload cells).roots =
      ({ s with held := [.node s.store.nodes.size] ++ s.held } : Session).roots := by
    simp only [roots, published?_installing]
    rfl
  rw [hroots, mem_roots_append]
  simp

theorem mem_roots_offering : n ∈ (s.offering payload cells).roots ↔
    n ∈ s.roots ∨ n ∈ cells.flatMap (fun c => (s.store.published? c).getD []) ++ payload.nodes := by
  rw [offering, mem_roots_append, or_comm (a := Holder.node n ∈ _)]
  simp

/-- The new operation keeps alive what the payload did, and nothing more. -/
theorem isAlive_installing (hn : n < s.store.nodes.size) :
    (s.installing header payload cells).isAlive n = (s.offering payload cells).isAlive n := by
  have hsize : (s.installing header payload cells).store.nodes.size = s.store.nodes.size + 1 :=
    s.store.size_addOperation header payload cells
  refine Bool.eq_iff_iff.mpr (Iff.trans Store.isAlive_iff (Iff.trans ?_ Store.isAlive_iff.symm))
  constructor
  · rintro ⟨p, hpn, hp⟩
    refine ⟨fun m => p m ∧ m < s.store.nodes.size, ⟨hpn, hn⟩, fun m hm => ⟨hm.2, ?_⟩⟩
    rw [mem_roots_offering]
    rcases (hp m hm.1).2 with hroot | ⟨k, hk, hmk⟩
    · exact .inl (.inl ((mem_roots_installing.mp hroot).resolve_right hm.2.ne))
    · have hle : k ≤ s.store.nodes.size := Nat.lt_succ_iff.mp ((hp k hk).1.trans_eq hsize)
      rcases hle.lt_or_eq with hlt | rfl
      · exact .inr ⟨k, ⟨hk, hlt⟩, holds_installing hlt ▸ hmk⟩
      · exact .inl (.inr (holds_installing_new ▸ hmk))
  · rintro ⟨p, hpn, hp⟩
    refine ⟨fun m => p m ∨ m = s.store.nodes.size, .inl hpn, fun m hm => ?_⟩
    rw [mem_roots_installing, hsize]
    rcases hm with hm | rfl
    · have hlt : m < s.store.nodes.size := (hp m hm).1
      refine ⟨hlt.trans (Nat.lt_succ_self _), ?_⟩
      rcases (hp m hm).2 with hroot | ⟨k, hk, hmk⟩
      · rcases mem_roots_offering.mp hroot with hroot | hpayload
        · exact .inl (.inl hroot)
        · exact .inr ⟨s.store.nodes.size, .inr rfl, holds_installing_new ▸ hpayload⟩
      · exact .inr ⟨k, .inl hk, (holds_installing (hp k hk).1).symm ▸ hmk⟩
    · exact ⟨Nat.lt_succ_self _, .inl (.inr rfl)⟩

theorem parent?_installing (hn : (s.installing header payload cells).store.node? n = some child)
    (hp : child.parent = some p) (hlt : p < s.store.nodes.size) :
    ((s.installing header payload cells).parent? n).bind (s.installing header payload cells).kind? =
      if (s.offering payload cells).isAlive p then s.kind? p else none := by
  have hparent : (s.installing header payload cells).parent? n =
      if (s.installing header payload cells).isAlive p then some p else none := by
    simp [parent?, hn, hp]
  rw [hparent, isAlive_installing hlt]
  split
  · exact kind?_installing hlt
  · rfl

/-- The check of a child finds what could be told before. -/
theorem childFault?_installing (hn : s.store.node? n = some child) (hin : n ∈ s.offered payload cells)
    (hlinks : ∀ p, child.parent = some p → p < s.store.nodes.size) :
    (s.installing header payload cells).childFault? s.store.nodes.size n = some v ↔
      s.Misplaced header payload cells (.attached, n) v := by
  obtain ⟨parent, hnew⟩ := s.node?_installing_new header payload cells
  have hthere := node?_installing header payload cells hn
  rw [if_pos hin] at hthere
  have hkind : (child.adopted s.store.nodes.size).kind = child.kind := rfl
  have hheader : (child.adopted s.store.nodes.size).header = child.header := rfl
  simp only [childFault?, hnew, hthere, Option.bind_eq_bind, Option.bind_some, hkind, hheader]
  cases hp : child.parent with
  | some p =>
    have hlt := hlinks p hp
    have hstays : (child.adopted s.store.nodes.size).parent = some p := by simp [Node.adopted, hp]
    rw [parent?_installing hthere hstays hlt, hstays, if_pos (by simpa using hlt.ne)]
    constructor
    · intro h
      obtain rfl := Option.some.inj h
      exact .taken hn hp
    · rintro (⟨hn', hp'⟩ | ⟨hn', hfree, -, -, -⟩)
      · cases hn.symm.trans hn'
        cases hp.symm.trans hp'
        rfl
      · cases hn.symm.trans hn'
        cases hp.symm.trans hfree
  | none =>
    have hgets : (child.adopted s.store.nodes.size).parent = some s.store.nodes.size := by
      simp [Node.adopted, hp]
    rw [hgets, if_neg (by simp)]
    constructor
    · intro h
      split at h
      · next hforeign =>
        obtain rfl := Option.some.inj h
        exact .foreign hn hp hforeign.1 hforeign.2.1 hforeign.2.2
      · cases h
    · rintro (⟨hn', hp'⟩ | ⟨hn', -, hbound, hbinds, hother⟩)
      · cases hn.symm.trans hn'
        cases hp.symm.trans hp'
      · cases hn.symm.trans hn'
        exact if_pos ⟨hbound, hbinds, hother⟩

/-- The check of a value finds what could be told before. -/
theorem valueFault?_installing (hn : s.store.node? n = some child) :
    (s.installing header payload cells).valueFault? s.store.nodes.size n = some v ↔
      s.Misplaced header payload cells (.detached, n) v := by
  obtain ⟨parent, hnew⟩ := s.node?_installing_new header payload cells
  have hthere := node?_installing header payload cells hn
  have hlinked : (if n ∈ s.offered payload cells then child.adopted s.store.nodes.size
      else child).parent.isSome ↔ child.parent.isSome ∨ n ∈ s.offered payload cells := by
    split
    · next hin => cases hp : child.parent <;> simp [Node.adopted, hp, hin]
    · next hout => simp [hout]
  have hkind : (if n ∈ s.offered payload cells then child.adopted s.store.nodes.size
      else child).kind = child.kind := by
    split <;> rfl
  simp only [valueFault?, hnew, hthere, Option.bind_eq_bind, Option.bind_some, hlinked, hkind]
  constructor
  · intro h
    split at h
    · next hwhy => exact Option.some.inj h ▸ .linked hn hwhy
    · cases h
  · intro h
    cases h with
    | linked hn' hwhy =>
      cases hn.symm.trans hn'
      exact if_pos hwhy

/-- The check of a value that the operation holds finds what could be told before. -/
theorem checkLink_installing (header : Header) (hs : s.Adopted) (hpresent : s.Present)
    {place : Linkage × NodeId} (hplace : place ∈ s.places payload cells) :
    (s.installing header payload cells).checkLink s.store.nodes.size place.1 place.2 = some v ↔
      s.Misplaced header payload cells place v := by
  obtain ⟨l, n⟩ := place
  obtain ⟨c, ops, -, ho, hmem⟩ := Store.mem_heldIn.mp (mem_positions.mp hplace)
  obtain ⟨child, hchild⟩ := Option.isSome_iff_exists.mp
    (Store.node?_isSome (hpresent.node (.published ho hmem)))
  cases l with
  | attached =>
    rw [checkLink_attached]
    refine childFault?_installing hchild (mem_positions.mp hplace) fun p hp => ?_
    obtain ⟨d, ⟨node, hnode, -⟩, -⟩ := hs.link (Option.bind_eq_some_iff.mpr ⟨child, hchild, hp⟩)
    exact Store.node?_lt hnode
  | detached =>
    rw [checkLink_detached]
    exact valueFault?_installing hchild

/-! What an attempt comes to. -/

theorem constructionViolation?_eq_findSome? (header : Header) (hverifies : s.verifies = true) :
    s.constructionViolation? header payload cells = (s.places payload cells).findSome? fun place =>
      (s.installing header payload cells).checkLink s.store.nodes.size place.1 place.2 := by
  obtain ⟨parent, hnew⟩ := s.node?_installing_new header payload cells
  have hplaced : (s.installing header payload cells).positions
      ((((s.installing header payload cells).store.node? s.store.nodes.size).map
        (·.linkedCells)).getD []) = s.places payload cells := by
    simp only [hnew, Option.map_some, Option.getD_some, positions, published?_installing]
    rfl
  rw [← hplaced]
  exact if_pos hverifies

/-- Nothing is found exactly where every value is in place. -/
theorem constructionViolation?_eq_none_iff (header : Header) (payload : Payload) (cells : List CellId)
    (hverifies : s.verifies = true) (hs : s.Adopted) (hpresent : s.Present) :
    s.constructionViolation? header payload cells = none ↔
      ∀ place ∈ s.places payload cells, ∀ w, ¬s.Misplaced header payload cells place w := by
  rw [constructionViolation?_eq_findSome? header hverifies, List.findSome?_eq_none_iff]
  refine forall₂_congr fun place hplace => ?_
  rw [Option.eq_none_iff_forall_ne_some]
  exact forall_congr' fun w => not_congr (checkLink_installing header hs hpresent hplace)

/-- The first value that is out of place is found. -/
theorem constructionViolation?_of_misplaced (hverifies : s.verifies = true) (hs : s.Adopted)
    (hpresent : s.Present) {before after : List (Linkage × NodeId)} {place : Linkage × NodeId}
    (hplaced : s.places payload cells = before ++ place :: after)
    (hplace : s.Misplaced header payload cells place v)
    (hbefore : ∀ other ∈ before, ∀ w, ¬s.Misplaced header payload cells other w) :
    s.constructionViolation? header payload cells = some v := by
  rw [constructionViolation?_eq_findSome? header hverifies, List.findSome?_eq_some_iff]
  refine ⟨before, place, after, hplaced, ?_, fun other hother => ?_⟩
  · exact (checkLink_installing header hs hpresent (by simp [hplaced])).mpr hplace
  · refine Option.eq_none_iff_forall_ne_some.mpr fun w hw => hbefore other hother w ?_
    exact (checkLink_installing header hs hpresent (by simp [hplaced, hother])).mp hw

/-- What is out of place among fewer values, or the same taken more often, is out of place. -/
theorem Misplaced.mono {again : List CellId} (hsub : s.places payload again ⊆ s.places payload cells)
    {place : Linkage × NodeId} (h : s.Misplaced header payload again place v) :
    ∃ w, s.Misplaced header payload cells place w := by
  cases h with
  | taken there linked => exact ⟨_, .taken there linked⟩
  | foreign there free bound binds other => exact ⟨_, .foreign there free bound binds other⟩
  | linked there why =>
    refine ⟨_, .linked there (why.imp_right fun hin => ?_)⟩
    exact mem_positions.mp (hsub (mem_positions.mpr hin))

/-- At every moment of a run with the checks on, whether a valid operation is built is told by its values:
its construction panics exactly where one of them is out of place. The first one in declaration order is
what the panic says and what is reported, once. To take a value in more than one child slot, or more than
once in one, is no reason for it. -/
theorem construct_panics_iff (hs : (start true).Changes s) (hpresent : s.Present)
    (hvalid : payload.error? header = none) :
    ((∃ p, (construct header payload cells s).1 = .error (.panicked p)) ↔
      ∃ place ∈ s.places payload cells, ∃ v, s.Misplaced header payload cells place v) ∧
    (∀ before place after v, s.places payload cells = before ++ place :: after →
      s.Misplaced header payload cells place v →
      (∀ other ∈ before, ∀ w, ¬s.Misplaced header payload cells other w) →
        ∃ t, construct header payload cells s = (.error (.panicked (.brokenLink v)), t) ∧
          (Panic.brokenLink v).message = v.message ∧
          t.events = .linkViolated .construction v :: s.events) ∧
    ((∀ place ∈ s.places payload cells, ∀ v, ¬s.Misplaced header payload cells place v) →
      ∃ n t, construct header payload cells s = (.ok n, t) ∧ t.events = s.events) ∧
    ∀ again, s.places payload again ⊆ s.places payload cells →
      (∃ n, (construct header payload cells s).1 = .ok n) →
        ∃ n, (construct header payload again s).1 = .ok n := by
  have hverifies : s.verifies = true := hs.verifies
  have hadopted : s.Adopted := hs.keeps Change.adopted (adopted_start true)
  have hnone := fun cells =>
    constructionViolation?_eq_none_iff header payload cells hverifies hadopted hpresent
  have hbuilt : ∀ cells, s.constructionViolation? header payload cells = none →
      construct header payload cells s =
        (.ok s.store.nodes.size, s.withOperation header payload cells) := fun cells hv => by
    rw [construct_apply, hvalid, hv]
  have hstopped : ∀ cells v, s.constructionViolation? header payload cells = some v →
      ∃ t, construct header payload cells s = (.error (.panicked (.brokenLink v)), t) ∧
        t.events = .linkViolated .construction v :: s.events := fun cells v hv => by
    rw [construct_apply, hvalid, hv]
    exact ⟨_, rfl, rfl⟩
  refine ⟨?_, ?_, fun h => ⟨_, _, hbuilt cells ((hnone cells).mpr h), rfl⟩, ?_⟩
  · have hpanics : (∃ p, (construct header payload cells s).1 = .error (.panicked p)) ↔
        ¬s.constructionViolation? header payload cells = none := by
      cases hv : s.constructionViolation? header payload cells with
      | none => simp [hbuilt cells hv]
      | some v =>
        obtain ⟨t, ht, -⟩ := hstopped cells v hv
        simp [ht]
    rw [hpanics, hnone]
    push Not
    rfl
  · intro before place after v hplaced hplace hbefore
    obtain ⟨t, ht, hevents⟩ := hstopped cells v
      (constructionViolation?_of_misplaced hverifies hadopted hpresent hplaced hplace hbefore)
    exact ⟨t, ht, rfl, hevents⟩
  · rintro again hsub ⟨n, hn⟩
    refine ⟨_, congrArg Prod.fst (hbuilt again ((hnone again).mpr fun place hplace v hv => ?_))⟩
    -- it would be out of place the first time as well
    obtain ⟨w, hw⟩ := hv.mono hsub
    cases hfirst : s.constructionViolation? header payload cells with
    | none => exact (hnone cells).mp hfirst place (hsub hplace) w hw
    | some v =>
      obtain ⟨t, ht, -⟩ := hstopped cells v hfirst
      rw [ht] at hn
      cases hn

/-- A statement has lost its parent. It is in a slot for the body of a switch case, after another one
that is there twice; that one is in a slot for the condition as well. -/
def lostParent : List Step :=
  [.build (emptyStatement (some "x")), .build (block (some "b") (.filled [.named "x"])), .drop "b",
    .build (emptyStatement (some "y")), .makeSlot "clauses" .many (.filled []),
    .makeSlot "body" .many (.filled [.named "y", .named "y", .named "x"]),
    .makeSlot "condition" .optional (.filled [.named "y"])]

/-- The switch case that takes these slots is stopped for the lost parent. -/
theorem construct_panics_lostParent : ∃ header payload t,
    (start true).Changes ((start true).after lostParent) ∧ ((start true).after lostParent).Present ∧
      payload.error? header = none ∧
      construct header payload [1, 2, 3] ((start true).after lostParent) =
        (.error (.panicked (.brokenLink (.wrongParent .empty .switchCase none))), t) ∧
      t.events = [.linkViolated .construction (.wrongParent .empty .switchCase none)] := by
  let header : Header := { locus := ⟨⟨0⟩, Span.make 0 0⟩ }
  let payload : Payload := ⟨.switchCase, none, [("locals", .handles .localVar [])], rfl⟩
  have hreached : Reached true ((start true).after lostParent) := Reached.start.after _
  have hs : (start true).Changes ((start true).after lostParent) :=
    hreached.holds .refl fun hc h => h.tail hc
  have hplaced : ((start true).after lostParent).places payload [1, 2, 3] =
      [(.attached, 2), (.attached, 2)] ++ (.attached, 0) :: [(.detached, 2)] := by decide
  have hfree : ((start true).after lostParent).store.link? 2 = none := by decide
  have hmodel : (((start true).after lostParent).store.node? 2).map (·.header.model) = some none := by
    decide
  have hbefore : ∀ other ∈ [(Linkage.attached, 2), (Linkage.attached, 2)], ∀ w,
      ¬((start true).after lostParent).Misplaced header payload [1, 2, 3] other w := by
    intro other hother w hw
    obtain rfl : other = (.attached, 2) := by simpa using hother
    cases hw with
    | taken there linked => simp [Store.link?, there, linked] at hfree
    | foreign there _ _ _ other =>
      rw [there] at hmodel
      exact other (Option.some.inj hmodel)
  obtain ⟨child, hchild, hlinked⟩ := Option.bind_eq_some_iff.mp
    (show ((start true).after lostParent).store.link? 0 = some 1 by decide)
  have hkind : child.kind = .empty := by
    have hkind : (((start true).after lostParent).store.node? 0).map (·.kind) = some .empty := by decide
    rw [hchild] at hkind
    exact Option.some.inj hkind
  have hgone : (((start true).after lostParent).offering payload [1, 2, 3]).isAlive 1 = false := by
    decide +kernel
  have hplace : ((start true).after lostParent).Misplaced header payload [1, 2, 3] (.attached, 0)
      (.wrongParent .empty .switchCase none) := by
    have hviolation : LinkViolation.wrongParent .empty .switchCase none =
        .wrongParent child.kind payload.kind (if (((start true).after lostParent).offering payload
          [1, 2, 3]).isAlive 1 then ((start true).after lostParent).kind? 1 else none) := by
      rw [hkind, hgone]
      rfl
    exact hviolation ▸ .taken hchild hlinked
  have hvalid : payload.error? header = none := by decide
  obtain ⟨t, ht, -, hevents⟩ :=
    (construct_panics_iff hs hreached.present hvalid).2.1 _ _ _ _ hplaced hplace hbefore
  exact ⟨header, payload, t, hs, hreached.present, hvalid, ht, hevents⟩

end BoundTree.Session
