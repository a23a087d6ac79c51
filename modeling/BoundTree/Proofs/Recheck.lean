import BoundTree.Proofs.Observation
import BoundTree.Proofs.Sweep

/-!
A tree that is checked twice. The first check reads the slots that it comes to, and what it reads late may
link what it has seen before; so it reports what it found on the way. Main statement: the second check
comes to the same positions and reports what is wrong then, as does every further one; it tells of links
that were set after the first one had passed, and otherwise repeats it.
-/
namespace BoundTree

/-- The violation, without what is said of the parent that there is instead. -/
def LinkViolation.withoutActual : LinkViolation → LinkViolation
  | .wrongParent c p _ => .wrongParent c p none
  | v => v

namespace Session

open Procedure

/-! What becomes of a report. -/

/-- What is reported of a child is reported later as well, but for the parent that there is instead, which
may be gone; and of a value either the same is reported, or it got a parent meanwhile. -/
def Look.Lasts (l : Look) (s t : Session) : Prop :=
  match l.linkage with
  | .attached =>
    (l.report t).map (·.withoutActual) = (l.report s).map (·.withoutActual) ∧
      (t.parent? l.child = s.parent? l.child → l.report t = l.report s)
  | .detached => l.report t = l.report s ∨
      s.store.link? l.child = none ∧ (t.store.link? l.child).isSome ∧ l.report s = [] ∧
        ∃ child owner, l.report t = [.unexpectedParent child owner]

theorem linkFacts?_of_le {s t : Session} (hle : s.store.Le t.store) {n : NodeId} {f : LinkFacts}
    (h : s.linkFacts? n = some f) : t.linkFacts? n = some f := by
  obtain ⟨node, hnode, rfl⟩ := Option.map_eq_some_iff.mp h
  obtain ⟨node', hnode', hl⟩ := hle.node hnode
  simp [linkFacts?, hnode', hl.kind, hl.header]

theorem linkFacts?_isSome {s : Session} {n : NodeId} (h : n < s.store.nodes.size) :
    ∃ f, s.linkFacts? n = some f := by
  obtain ⟨node, hnode⟩ := Option.isSome_iff_exists.mp (Store.node?_isSome h)
  exact ⟨_, by rw [linkFacts?, hnode]; rfl⟩

/-- A child keeps its link, so the same is wrong about it, whatever has become of its parent. -/
theorem lasts_child {s t : Session} {owner child : NodeId} {again : Bool} (hs : s.Orderly {})
    (hle : s.store.Le t.store) (hheld : child ∈ s.store.heldBy .attached owner) :
    Look.Lasts ⟨owner, .attached, child, again⟩ s t := by
  obtain ⟨node, c, ops, hnode, -, ho, hmem⟩ := Store.mem_heldBy.mp hheld
  obtain ⟨o, howner⟩ := linkFacts?_isSome (Store.node?_lt hnode)
  obtain ⟨f, hchild⟩ := linkFacts?_isSome (hs.node (.published ho hmem))
  obtain ⟨p, hp⟩ := Option.isSome_iff_exists.mp (hs.linked owner child hheld)
  have hp' : t.store.link? child = some p := hle.link? hp
  have howner' := linkFacts?_of_le hle howner
  have hchild' := linkFacts?_of_le hle hchild
  have hsharing : ∀ u : Session, u.linkFacts? child = some f →
      u.sharing? child = some (.sharedNode f.kind) := by
    intro u hu
    obtain ⟨node, hnode, rfl⟩ := Option.map_eq_some_iff.mp hu
    simp [sharing?, kind?, hnode]
  have hcheck : ∀ u : Session, u.linkFacts? owner = some o → u.linkFacts? child = some f →
      u.store.link? child = some p → u.checkLink owner .attached child =
        if p ≠ owner then
          some (.wrongParent f.kind o.kind (((u.parent? child).bind u.linkFacts?).map (·.kind)))
        else if ¬f.agree o then some (.modelMismatch f.kind o.kind f.model o.model) else none := by
    intro u ho hf hl
    have hlink : (u.store.node? child).bind (·.parent) = some p := hl
    simp [checkLink, ho, hf, hlink]
  have hparent : t.parent? child = s.parent? child →
      (t.parent? child).bind t.linkFacts? = (s.parent? child).bind s.linkFacts? := by
    intro hsame
    rw [hsame]
    cases hq : s.parent? child with
    | none => rfl
    | some q =>
      obtain ⟨f, hf⟩ := linkFacts?_isSome (parent?_lt hq)
      exact (linkFacts?_of_le hle hf).trans hf.symm
  unfold Look.Lasts Look.report
  simp only [hsharing s hchild, hsharing t hchild', hcheck s howner hchild hp,
    hcheck t howner' hchild' hp']
  constructor
  · split
    · simp [LinkViolation.withoutActual]
    · rfl
  · intro hsame
    rw [hparent hsame]

/-- A value keeps a parent that it has. -/
theorem lasts_value {s t : Session} {owner child : NodeId} (hs : s.Orderly {})
    (hle : s.store.Le t.store) (hheld : child ∈ s.store.heldBy .detached owner) :
    Look.Lasts ⟨owner, .detached, child, false⟩ s t := by
  obtain ⟨node, c, ops, hnode, -, ho, hmem⟩ := Store.mem_heldBy.mp hheld
  obtain ⟨o, howner⟩ := linkFacts?_isSome (Store.node?_lt hnode)
  obtain ⟨f, hchild⟩ := linkFacts?_isSome (hs.node (.published ho hmem))
  have hreport : ∀ u : Session, u.linkFacts? owner = some o → u.linkFacts? child = some f →
      Look.report ⟨owner, .detached, child, false⟩ u =
        if (u.store.link? child).isSome then [.unexpectedParent f.kind o.kind] else [] := by
    intro u ho hf
    have hlink : (u.store.node? child).bind (·.parent) = u.store.link? child := rfl
    simp only [Look.report, checkLink, ho, hf, hlink, Option.bind_eq_bind, Option.bind_some]
    split <;> rfl
  have hfirst := hreport s howner hchild
  have hsecond := hreport t (linkFacts?_of_le hle howner) (linkFacts?_of_le hle hchild)
  cases hs : s.store.link? child with
  | some p =>
    left
    rw [hfirst, hsecond, hs, hle.link? hs]
  | none =>
    cases ht : t.store.link? child with
    | none =>
      left
      rw [hfirst, hsecond, hs, ht]
    | some q =>
      right
      rw [hs] at hfirst
      rw [ht] at hsecond
      exact ⟨hs, by simp [ht], hfirst, _, _, hsecond⟩

theorem Visited.lasts {s t u : Session} {visited : List (Session × Look)} (h : s.Visited t visited)
    (hle : t.store.Le u.store) {v : Session × Look} (hv : v ∈ visited) : v.2.Lasts v.1 u := by
  have hs := h.orderly v hv
  have hvu : v.1.store.Le u.store := (h.upto v hv).le.trans hle
  have hheld := h.held v hv
  have hagain := h.again v hv
  obtain ⟨x, owner, linkage, child, again⟩ := v
  cases linkage with
  | attached => exact lasts_child hs hvu hheld
  | detached =>
    cases again with
    | false => exact lasts_value hs hvu hheld
    | true => cases hagain rfl

/-! The check as a question about an operation. -/

/-- The session while an operation is asked about. -/
def asking (s : Session) (r : NodeId) : Session := { s with held := .node r :: s.held }

/-- A check of a tree is a sweep, and at most a warning more. -/
theorem verifyTree_of_sweep {s u : Session} {r : NodeId} {w : Sweep}
    (hw : sweep (s.store.budget + 2) ⟨[r], [r], []⟩ s = (.ok w, u)) :
    ∃ es, verifyTree r s = (.ok w.found.reverse, { u with events := es }) := by
  unfold verifyTree
  rw [bind_ok (read_apply s), bind_ok hw]
  cases hnil : w.found.reverse.isEmpty with
  | true => exact ⟨u.events, by simp⟩
  | false =>
    simp only [Bool.false_eq_true, not_false_eq_true, if_true, bind_apply, read_apply]
    cases u.linkFacts? r with
    | none => exact ⟨u.events, rfl⟩
    | some f => exact ⟨_, rfl⟩

theorem verifyTree_eq_ok {s t : Session} {r : NodeId} {vs : List LinkViolation}
    (h : verifyTree r s = (.ok vs, t)) :
    ∃ w u, sweep (s.store.budget + 2) ⟨[r], [r], []⟩ s = (.ok w, u) ∧ vs = w.found.reverse ∧
      ∃ es, t = { u with events := es } := by
  have hrun := h
  unfold verifyTree at hrun
  rw [bind_ok (read_apply s)] at hrun
  obtain ⟨w, u, hw, -⟩ := bind_eq_ok hrun
  obtain ⟨es, hverify⟩ := verifyTree_of_sweep hw
  obtain ⟨hvs, ht⟩ := Prod.mk.inj (h.symm.trans hverify)
  exact ⟨w, u, hw, Except.ok.inj hvs, es, ht⟩

/-- Asking for the check of a tree keeps its root in use meanwhile. -/
theorem inquire_verify {s : Session} {r : NodeId} (hr : (s.store.node? r).isSome) :
    inquire r .verify s = ((verifyTree r (s.asking r)).1.map .violations,
      { (verifyTree r (s.asking r)).2 with held := s.held }) := by
  obtain ⟨node, hnode⟩ := Option.isSome_iff_exists.mp hr
  have hanswer : (hold (.node r) >>= fun _ => read >>= fun s =>
      ofOption .unknown (s.store.node? r) >>= fun node => answer r node .verify) s =
        (verifyTree r >>= fun vs => pure (.violations vs)) (s.asking r) := by
    have hthere : (s.asking r).store.node? r = some node := hnode
    rw [bind_ok (hold_apply _ _), bind_ok (read_apply _)]
    change (ofOption .unknown ((s.asking r).store.node? r) >>= _) (s.asking r) = _
    rw [hthere]
    rfl
  unfold inquire
  rw [releasing_apply, hanswer, bind_apply]
  rcases verifyTree r (s.asking r) with ⟨_ | _, _⟩ <;> rfl

theorem inquire_missing {s : Session} {r : NodeId} (hr : s.store.node? r = none) (q : Query) :
    (inquire r q s).1 = .error .unknown := by
  unfold inquire
  rw [releasing_apply, bind_ok (hold_apply _ _), bind_ok (read_apply _)]
  change ((ofOption .unknown (s.store.node? r) >>= fun node => answer r node q) _).1 = _
  rw [hr]
  rfl

theorem Orderly.asking {s : Session} (hs : s.Orderly {}) {r : NodeId} (hr : (s.store.node? r).isSome) :
    (s.asking r).Orderly {} := by
  obtain ⟨node, hnode⟩ := Option.isSome_iff_exists.mp hr
  have hheld : s.Orderly (⟨[], [r]⟩ ++ {}) := by
    refine ⟨hs.toPresent, hs.toOwned, fun c hc => (nomatch hc), fun n hn => ?_⟩
    rw [List.mem_singleton.mp hn]
    exact Store.node?_lt hnode
  exact ((orders_logic.hold r).ok hheld (hold_apply (.node r) s)).mono (.empty _)

/-- A check that ends is a sweep from the operation that is asked about. -/
theorem swept_of_verify {s t : Session} {r : NodeId} {vs : List LinkViolation} (hs : s.Orderly {})
    (h : inquire r .verify s = (.ok (.violations vs), t)) :
    ∃ w u visited, (s.store.node? r).isSome ∧ Swept w u ⟨[r], [r], []⟩ (s.asking r) visited ∧
      sweep (s.store.budget + 2) ⟨[r], [r], []⟩ (s.asking r) = (.ok w, u) ∧
      vs = visited.flatMap (fun v => v.2.report v.1) ∧ ∃ es, t = { u with held := s.held, events := es } := by
  have hr : (s.store.node? r).isSome := by
    cases hnode : s.store.node? r with
    | none =>
      have hfails := inquire_missing hnode .verify
      rw [h] at hfails
      cases hfails
    | some node => rfl
  rw [inquire_verify hr] at h
  rcases hv : verifyTree r (s.asking r) with ⟨f | found, t'⟩ <;> rw [hv] at h <;> cases h
  obtain ⟨w, u, hw, rfl, es, rfl⟩ := verifyTree_eq_ok hv
  obtain ⟨visited, hswept⟩ := swept_of_sweep hw (hs.asking hr) fun n hn =>
    List.mem_singleton.mp hn ▸ hr
  refine ⟨w, u, visited, hr, hswept, hw, ?_, es, rfl⟩
  rw [hswept.found]
  simp

/-- A check of a tree that ends leaves every slot of it with its value. -/
theorem Swept.materialized {w : Sweep} {s t : Session} {r : NodeId} {visited : List (Session × Look)}
    (h : Swept w t ⟨[r], [r], []⟩ s visited) : t.store.Materialized r :=
  .of_closed w.seen (h.seen (by simp)) fun _ hp =>
    (h.closed hp).resolve_left fun hknown => hknown.2 hknown.1

/-- Where all slots have their values, a check comes to the same positions as one before. -/
theorem Swept.repeats {w : Sweep} {s t u : Session} {r : NodeId} {visited : List (Session × Look)}
    (h : Swept w t ⟨[r], [r], []⟩ s visited) (hle : t.store.Le u.store)
    (hm : u.store.Materialized r) :
    (∃ es, verifyTree r u = (.ok (visited.flatMap fun v => v.2.report u), { u with events := es })) ∧
      ((visited.flatMap fun v => v.2.report u) = [] ↔ u.IsTree r) := by
  obtain ⟨order, found, root, horder, hbelow, -, hvs, hverify⟩ := verifyTree_reports hm
  have hempty := reports_eq_nil_iff hm horder hbelow hvs
  obtain ⟨w', u', hrun, rfl, es, hends⟩ := verifyTree_eq_ok hverify
  rw [hends] at hverify
  obtain ⟨rfl, rfl⟩ := h.again hle hrun
  simp only [List.append_nil, List.reverse_reverse] at hverify hempty
  exact ⟨⟨es, hverify⟩, hempty⟩

/-- What was reported at first is, but for parents that there are instead, part of what is reported
later. -/
theorem Visited.sublist {s t u : Session} {visited : List (Session × Look)} (h : s.Visited t visited)
    (hle : t.store.Le u.store) :
    ((visited.flatMap fun v => v.2.report v.1).map (·.withoutActual)).Sublist
      ((visited.flatMap fun v => v.2.report u).map (·.withoutActual)) := by
  have hlasts : ∀ v ∈ visited, v.2.Lasts v.1 u := fun v hv => h.lasts hle hv
  clear h
  induction visited with
  | nil => exact .slnil
  | cons v visited ih =>
    simp only [List.flatMap_cons, List.map_append]
    refine List.Sublist.append ?_ (ih fun v hv => hlasts v (List.mem_cons_of_mem _ hv))
    have hv := hlasts v List.mem_cons_self
    unfold Look.Lasts at hv
    split at hv
    · rw [hv.1]
    · rcases hv with hsame | ⟨-, -, hnone, -⟩
      · rw [hsame]
      · rw [hnone]
        exact List.nil_sublist _

/-- Where nothing was reported at first, only values that have got a parent since can be reported later. -/
theorem Visited.unexpected {s t u : Session} {visited : List (Session × Look)} (h : s.Visited t visited)
    (hle : t.store.Le u.store) (hnone : (visited.flatMap fun v => v.2.report v.1) = [])
    {violation : LinkViolation} (hv : violation ∈ visited.flatMap fun v => v.2.report u) :
    ∃ child owner, violation = .unexpectedParent child owner := by
  obtain ⟨v, hmem, hv⟩ := List.mem_flatMap.mp hv
  have hfirst : v.2.report v.1 = [] := List.flatMap_eq_nil_iff.mp hnone v hmem
  have hlasts := h.lasts hle hmem
  unfold Look.Lasts at hlasts
  split at hlasts
  · have hempty := hlasts.1
    rw [hfirst, List.map_nil, List.map_eq_nil_iff] at hempty
    simp [hempty] at hv
  · rcases hlasts with hsame | ⟨-, -, -, child, owner, hreport⟩
    · simp [hsame, hfirst] at hv
    · rw [hreport] at hv
      exact ⟨child, owner, List.mem_singleton.mp hv⟩

/-- A tree that is checked again at once. The first check leaves every slot below the operation with its
value. It reports of each position what is wrong at the moment it comes to it, and the second check of
each what is wrong in the end, in the same order; so does every further one. The reports differ only in
values that have got a parent meanwhile, and in what is said of parents that were lost. It is the second
report that tells whether there is a tree; where the first one was empty, only such values can be wrong,
and where no slot was without its value, they are the same. -/
theorem verify_again {verifies : Bool} {s t : Session} {r : NodeId} {vs : List LinkViolation}
    (hs : Reached verifies s) (h : inquire r .verify s = (.ok (.violations vs), t)) :
    t.store.Materialized r ∧ ∃ (visited : List (Session × Look)) (again : List LinkViolation),
      (∀ v ∈ visited, s.store.Le v.1.store ∧ v.1.store.Le t.store ∧ v.2.Lasts v.1 (t.asking r)) ∧
      vs = visited.flatMap (fun v => v.2.report v.1) ∧
      again = visited.flatMap (fun v => v.2.report (t.asking r)) ∧
      (∀ es, ∃ es', inquire r .verify { t with events := es } =
        (.ok (.violations again), { t with events := es' })) ∧
      (vs.map (·.withoutActual)).Sublist (again.map (·.withoutActual)) ∧
      (again = [] ↔ t.IsTree r) ∧
      (vs = [] → ∀ v ∈ again, ∃ child owner, v = .unexpectedParent child owner) ∧
      (s.store.Materialized r → again = vs) := by
  obtain ⟨w, u, visited, hr, hswept, hsweep, rfl, es₀, ht⟩ := swept_of_verify hs.orderly h
  have hstore : t.store = u.store := by rw [ht]
  have hle : u.store.Le (t.asking r).store := hstore ▸ .refl u.store
  have hm : t.store.Materialized r := hstore ▸ hswept.materialized
  have hvisited := hswept.visits
  have hthere : (t.store.node? r).isSome := by
    obtain ⟨node, hnode, -⟩ := hm r .refl
    exact Option.isSome_of_mem hnode
  have htree : (t.asking r).IsTree r ↔ t.IsTree r :=
    ⟨fun h => ⟨h.linked, h.models, h.once, h.apart, h.root, h.values⟩,
      fun h => ⟨h.linked, h.models, h.once, h.apart, h.root, h.values⟩⟩
  refine ⟨hm, visited, _, ?_, rfl, rfl, ?_, hvisited.sublist hle, (hswept.repeats hle hm).2.trans htree,
    fun hnone v hv => hvisited.unexpected hle hnone hv, ?_⟩
  · intro v hv
    exact ⟨(hvisited.since v hv).le, hstore ▸ (hvisited.upto v hv).le, hvisited.lasts hle hv⟩
  · intro es
    obtain ⟨⟨es', hverify⟩, -⟩ := hswept.repeats (u := ({ t with events := es } : Session).asking r) hle hm
    have hasked := inquire_verify (s := { t with events := es }) hthere
    rw [hverify] at hasked
    exact ⟨es', hasked⟩
  · intro hms
    -- nothing was read, so nothing has changed
    have hms' : (s.asking r).store.Materialized r := hms
    obtain ⟨-, vs, _, -, -, -, -, hverify⟩ := verifyTree_reports hms'
    obtain ⟨es, hends⟩ := verifyTree_of_sweep hsweep
    have hsame : u.store = s.store := by
      have hu := congrArg Session.store (Prod.mk.inj (hends.symm.trans hverify)).2
      refine hu.trans ?_
      split <;> rfl
    have hsu : u.store.Le (s.asking r).store := hsame ▸ .refl u.store
    obtain ⟨hw, rfl⟩ := hswept.again hsu hsweep
    have hfound := hswept.found
    rw [hw] at hfound
    simp only [List.append_nil, List.reverse_inj] at hfound
    rw [← hfound, ht]
    rfl

/-! A first check that does not tell everything. -/

/-- The violations that a question was answered with. -/
def violations? (r : Except Fault Reply × Session) : Option (List LinkViolation) :=
  match r.1 with
  | .ok (.violations vs) => some vs
  | _ => none

theorem violations?_eq_some {r : Except Fault Reply × Session} {vs : List LinkViolation}
    (h : violations? r = some vs) : r = (.ok (.violations vs), r.2) := by
  obtain ⟨_ | reply, t⟩ := r
  · cases h
  · cases reply <;> cases h
    rfl

/-- Two trees with slots that wait for their values. Below the block "r", the condition of the case "c" is
also what "e" is going to hold. Below the block "z", "q" holds an operation of "p", whose name "f" is going
to give to another one. -/
def lateLinks : List Step :=
  [.build (emptyStatement (some "x")), .build (emptyStatement (some "y")),
    .build (switchCase (some "c") (.filled [.named "x"])),
    .build (block (some "e") (.deferred (.mk none none [.named "x"] []))),
    .build (block (some "r") (.filled [.named "e", .named "c"])),
    .build (block (some "p") (.filled [.named "y"])),
    .build (block (some "q") (.deferred (.mk none none [.named "y"] []))),
    .ask "q" (.children none),
    .build (block (some "f") (.deferred (.mk none none [emptyStatement (some "p")] []))),
    .build (block (some "z") (.filled [.named "f", .named "q"]))]

/-- The first check of "r" finds nothing wrong and the second one does. -/
theorem verify_again_lateLinks :
    ∃ t, inquire 4 .verify ((start true).after lateLinks) = (.ok (.violations []), t) ∧
      t.store.Materialized 4 ∧ ¬t.IsTree 4 ∧
      violations? (inquire 4 .verify t) = some [.unexpectedParent .empty .switchCase] := by
  obtain ⟨t, hfirst, hsecond⟩ : ∃ t,
      inquire 4 .verify ((start true).after lateLinks) = (.ok (.violations []), t) ∧
        violations? (inquire 4 .verify t) = some [.unexpectedParent .empty .switchCase] :=
    ⟨_, violations?_eq_some (by decide +kernel), by decide +kernel⟩
  obtain ⟨hm, -, again, -, -, -, hagain, -, hempty, -, -⟩ :=
    verify_again (Reached.start.after lateLinks) hfirst
  refine ⟨t, hfirst, hm, fun htree => ?_, hsecond⟩
  obtain ⟨es, hes⟩ := hagain t.events
  rw [hempty.mpr htree] at hes
  have hnone : violations? (inquire 4 .verify t) = some [] := congrArg violations? hes
  rw [hsecond] at hnone
  cases hnone

/-- A check that is made again at once can find more than the first one, where that found nothing, and it
can miss a parent that the first one named. -/
theorem verify_again_differs :
    ∃ s, Reached true s ∧
      violations? (inquire 4 .verify s) = some [] ∧
      violations? (inquire 4 .verify (inquire 4 .verify s).2) =
        some [.unexpectedParent .empty .switchCase] ∧
      violations? (inquire 8 .verify s) = some [.wrongParent .empty .block (some .block)] ∧
      violations? (inquire 8 .verify (inquire 8 .verify s).2) = some [.wrongParent .empty .block none] := by
  refine ⟨_, Reached.start.after lateLinks, ?_, ?_, ?_, ?_⟩ <;> decide +kernel

end Session
end BoundTree
