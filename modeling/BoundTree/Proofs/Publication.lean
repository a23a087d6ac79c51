import BoundTree.Proofs.Runs

/-!
Deferred slots publish once. Whatever the nesting of reads, a slot has at most one value, every read that
returns gives this value, and the reports account for every run of the producer that came to one: the
first was published and the others were dropped.
-/
namespace BoundTree

/-- The reports that belong to what a slot holds, the latest first. -/
inductive Content.Accounted : Content → List (Nat × Option Nat) → Prop
  | filled (ops : List NodeId) : Accounted (.filled ops) []
  | waiting (p : Producer) (runs : Nat) : Accounted (.deferred p runs [] none) []
  | settled (p : Producer) (runs : Nat) (later : List Nat) (first : Nat) (ops : List NodeId) :
      Accounted (.deferred p runs (later ++ [first]) (some ops))
        (later.map (·, none) ++ [(first, some ops.length)])

namespace Content

theorem Accounted.of_isNew {a : Content} (h : a.isNew) : a.Accounted [] := by
  cases a with
  | filled ops => exact .filled ops
  | deferred p runs finished published =>
    obtain ⟨-, rfl, rfl⟩ : runs = 0 ∧ finished = [] ∧ published = none := by simpa [isNew] using h
    exact .waiting p runs

theorem Accounted.countRun {a : Content} {reports : List (Nat × Option Nat)}
    (h : a.Accounted reports) : a.countRun.Accounted reports := by
  cases h with
  | filled ops => exact .filled ops
  | waiting p runs => exact .waiting p (runs + 1)
  | settled p runs later first ops => exact .settled p (runs + 1) later first ops

/-- One more run has come to a value, which is published if it is the first. -/
theorem Accounted.settle {a : Content} {reports : List (Nat × Option Nat)}
    (h : a.Accounted reports) (hd : a.isDeferred) (run : Nat) (candidate : List NodeId) :
    ((a.finishRun run).publish candidate).Accounted
      ((run, if a.published?.isSome then none else some candidate.length) :: reports) := by
  cases h with
  | filled ops => cases hd
  | waiting p runs => exact .settled p runs [] run candidate
  | settled p runs later first ops => exact .settled p runs (run :: later) first ops

end Content

namespace Session

open Procedure

/-- What has been reported of the runs of a slot, the latest first. -/
def reports (s : Session) (c : CellId) : List (Nat × Option Nat) :=
  s.events.filterMap (Event.report? c)

/-- The reports are those that belong to what the slot holds; of a slot that is not there, there are
none. -/
def Accounted (s : Session) (c : CellId) : Prop :=
  (s.store.content? c).elim (s.reports c = []) fun a => a.Accounted (s.reports c)

theorem Accounted.congr {s t : Session} {c : CellId} (hc : t.store.content? c = s.store.content? c)
    (hr : t.reports c = s.reports c) (h : s.Accounted c) : t.Accounted c := by
  unfold Accounted
  rw [hc, hr]
  exact h

theorem reports_settle (s : Session) (c : CellId) (run : Nat) (candidate : List NodeId)
    (d : CellId) : (s.settle c run candidate).reports d =
      if d = c then
        (run, if (s.store.published? c).isSome then none else some candidate.length) :: s.reports d
      else s.reports d := by
  by_cases h : d = c
  · subst h
    unfold settle
    cases hp : s.store.published? d <;> simp [reports, Event.report?]
  · have hne : c ≠ d := fun he => h he.symm
    unfold settle
    cases hp : s.store.published? c <;> simp [reports, Event.report?, h, hne]

theorem content?_settle (s : Session) (c : CellId) (run : Nat) (candidate : List NodeId)
    (d : CellId) : (s.settle c run candidate).store.content? d =
      if d = c then (s.store.content? c).map fun a => (a.finishRun run).publish candidate
      else s.store.content? d := by
  have hpub := s.store.published?_eq_content? c
  unfold settle
  cases hp : s.store.published? c with
  | none =>
    simp only [Store.content?_modifyContent, Store.content?_receive]
    by_cases h : d = c <;> simp [h, Function.comp_def]
  | some ops =>
    simp only [Store.content?_receive]
    by_cases h : d = c
    · -- what was published before stays in place
      rw [hp] at hpub
      obtain ⟨a, ha, ho⟩ := Option.bind_eq_some_iff.mp hpub.symm
      have hfinished : (a.finishRun run).published? = some ops := by simpa using ho
      simp [h, ha, Content.publish_of_published hfinished]
    · simp [h]

/-- What is published when a value has come was published before, or is the value. -/
theorem published?_of_settle {s : Session} {c d : CellId} {run : Nat} {candidate ops : List NodeId}
    (h : (s.settle c run candidate).store.published? d = some ops) :
    s.store.published? d = some ops ∨ d = c ∧ s.store.published? c = none ∧ ops = candidate := by
  rw [Store.published?_eq_content?, content?_settle] at h
  split at h
  · next heq =>
    subst heq
    have hpublished := s.store.published?_eq_content? d
    cases ha : s.store.content? d with
    | none => simp [ha] at h
    | some a =>
      rw [ha, Option.bind_some] at hpublished
      have hops : a.published?.getD candidate = ops := by simpa [ha] using h
      cases ho : a.published? with
      | none => exact .inr ⟨rfl, hpublished.trans ho, by simp [← hops, ho]⟩
      | some ops' => exact .inl (hpublished.trans (by simp [← hops, ho]))
  · exact .inl ((s.store.published?_eq_content? d).trans h)

theorem Addition.accounted {s t : Session} (h : Addition s t) (hs : ∀ c, s.Accounted c)
    (c : CellId) : t.Accounted c := by
  cases h with
  | names store events _ => exact .congr (by rw [store]) (by rw [reports, reports, events]) (hs c)
  | report h => exact .congr (s := s) rfl (by simp [reports, Event.report?_eq_none h]) (hs c)
  | addOperation cells h => exact .congr (s := s) (Store.content?_addOperation ..) rfl (hs c)
  | addCell arity h =>
    have hc := hs c
    unfold Accounted at hc ⊢
    rw [Store.content?_addCell]
    split
    · next heq =>
      -- nothing was reported of a slot that was not there
      have hnone : s.store.content? c = none := by simp [Store.content?, Store.cell?, heq]
      rw [hnone] at hc
      have hr : s.reports c = [] := hc
      change Content.Accounted _ (s.reports c)
      rw [hr]
      exact .of_isNew h
    · exact hc

/-- Every change keeps the accounts. -/
theorem Change.accounted {s t : Session} (h : Change s t) (hs : ∀ c, s.Accounted c) (c : CellId) :
    t.Accounted c := by
  cases h with
  | adds h => exact h.accounted hs c
  | startRun d =>
    have hc := hs c
    unfold Accounted at hc ⊢
    rw [Store.content?_modifyContent]
    split
    · next heq =>
      subst heq
      change (s.store.content? c).elim _ _ at hc
      cases ha : s.store.content? c with
      | none =>
        rw [ha] at hc
        exact hc
      | some a =>
        rw [ha] at hc
        exact Content.Accounted.countRun hc
    · exact hc
  | settle run candidate hcell hd =>
    rename_i d cell
    have hc := hs c
    unfold Accounted at hc ⊢
    rw [content?_settle, reports_settle]
    by_cases heq : c = d
    · subst heq
      have ha : s.store.content? c = some cell.content := by simp [Store.content?, hcell]
      have hp : s.store.published? c = cell.content.published? := by
        simp [Store.published?, hcell]
      rw [ha] at hc ⊢
      simp only [if_true, hp]
      exact Content.Accounted.settle hc hd run candidate
    · simpa [heq] using hc

theorem accounted_start (verifies : Bool) (c : CellId) : (Session.start verifies).Accounted c := by
  simp [Accounted, Session.start, Store.content?, Store.cell?, reports]

/-! Reads. -/

/-- What a read of a slot comes to: one from outside, or one inside a producer at any depth. -/
def IsRead (s : Session) (c : CellId) (r : Except Fault (List NodeId) × Session) : Prop :=
  r = operations c s ∨ ∃ depth, r = readCell (depth + 1) c s

theorem IsRead.changes {s : Session} {c : CellId} {r : Except Fault (List NodeId) × Session}
    (h : s.IsRead c r) : s.Changes r.2 := by
  rcases h with rfl | ⟨depth, rfl⟩
  · exact changing_logic.operations c s
  · exact changing_logic.readSlotCell (depth + 1) c s

/-- A run that has come to a value and was not stopped by the check leaves its slot published with what
it returns. -/
theorem published?_of_offer {s t : Session} {c : CellId} {cell : Cell} {run : Nat}
    {candidate ops : List NodeId} (hc : s.store.cell? c = some cell)
    (h : (finishRun c run >>= fun _ => offer c run candidate) s = (.ok ops, t)) :
    t.store.published? c = some ops := by
  have ha : s.store.content? c = some cell.content := by simp [Store.content?, hc]
  have hp : s.store.published? c = cell.content.published? := by simp [Store.published?, hc]
  obtain ⟨rfl, -, rfl⟩ := (offer_eq_ok hc).mp h
  rw [Store.published?_eq_content?, content?_settle, ha, hp]
  simp

/-- What a read of a slot comes to. -/
inductive ReadsTo (depth : Nat) (c : CellId) (s : Session) : Except Fault (List NodeId) → Session → Prop
  | missing (missing : s.store.cell? c = none) : ReadsTo depth c s (.error .malformed) s
  | published {ops : List NodeId} (published : s.store.published? c = some ops) : ReadsTo depth c s (.ok ops) s
  /-- A run comes to no value. -/
  | failed {p : Producer} {runs : Nat} {finished : List Nat} {f : Fault} {t : Session}
      (content : s.store.content? c = some (.deferred p runs finished none))
      (produced : produce depth p (runs + 1) (s.started c p) = (.error f, t)) : ReadsTo depth c s (.error f) t
  /-- A run comes to a value, which passes the check. -/
  | settled {p : Producer} {runs : Nat} {finished : List Nat} {candidate ops : List NodeId} {t : Session}
      (content : s.store.content? c = some (.deferred p runs finished none))
      (produced : produce depth p (runs + 1) (s.started c p) = (.ok candidate, t))
      (accepted : t.publicationViolation? c (runs + 1) candidate = none)
      (published : (t.settle c (runs + 1) candidate).store.published? c = some ops) :
      ReadsTo depth c s (.ok ops) (t.settle c (runs + 1) candidate)
  | refused {p : Producer} {runs : Nat} {finished : List Nat} {candidate : List NodeId} {t : Session}
      {v : LinkViolation} (content : s.store.content? c = some (.deferred p runs finished none))
      (produced : produce depth p (runs + 1) (s.started c p) = (.ok candidate, t))
      (refused : t.publicationViolation? c (runs + 1) candidate = some v) :
      ReadsTo depth c s (.error (.panicked (.brokenLink v)))
        { t.settle c (runs + 1) candidate with
          events := .linkViolated (.publication c) v :: (t.settle c (runs + 1) candidate).events }

theorem readsTo_of_readCell {depth : Nat} {s t : Session} {c : CellId} {r : Except Fault (List NodeId)}
    (h : readCell (depth + 1) c s = (r, t)) : s.ReadsTo depth c r t := by
  rcases s.cell_cases c with hc | ⟨ops, ho⟩ | ⟨cell, p, runs, finished, hc, hd⟩
  · rw [readCell_missing hc] at h
    cases h
    exact .missing hc
  · rw [readCell_published ho] at h
    cases h
    exact .published ho
  · have hcontent : s.store.content? c = some (.deferred p runs finished none) := by
      simp [Store.content?, hc, hd]
    rw [readCell_deferred hc hd] at h
    rcases hx : produce depth p (runs + 1) (s.started c p) with ⟨f | candidate, u⟩
    · rw [bind_error hx] at h
      cases h
      exact .failed hcontent hx
    · rw [bind_ok hx] at h
      obtain ⟨cell', hc', -⟩ := (changes_produced hx).le.cell hc
      have hoffer := offer_apply (runs + 1) candidate hc'
      cases hv : u.publicationViolation? c (runs + 1) candidate with
      | none =>
        rw [hv] at hoffer
        cases h.symm.trans hoffer
        exact .settled hcontent hx hv (published?_of_offer hc' hoffer)
      | some v =>
        rw [hv] at hoffer
        cases h.symm.trans hoffer
        exact .refused hcontent hx hv

theorem published?_of_readCell {depth : Nat} {s t : Session} {c : CellId} {ops : List NodeId}
    (h : readCell (depth + 1) c s = (.ok ops, t)) : t.store.published? c = some ops := by
  cases readsTo_of_readCell h with
  | published hpublished => exact hpublished
  | settled _ _ _ hpublished => exact hpublished

/-- Every read that returns gives what is published then. -/
theorem IsRead.published? {s t : Session} {c : CellId} {ops : List NodeId}
    (h : s.IsRead c (.ok ops, t)) : t.store.published? c = some ops := by
  rcases h with h | ⟨depth, h⟩
  · cases hp : s.store.published? c with
    | some ops' =>
      rw [operations_published hp] at h
      cases h
      exact hp
    | none => exact published?_of_readCell ((operations_unpublished hp).symm.trans h.symm)
  · exact published?_of_readCell h.symm

/-- Reading what is there runs no producer and changes nothing. -/
theorem IsRead.eq_of_published {s : Session} {c : CellId} {ops : List NodeId}
    {r : Except Fault (List NodeId) × Session} (h : s.IsRead c r)
    (hp : s.store.published? c = some ops) : r = (.ok ops, s) := by
  rcases h with rfl | ⟨depth, rfl⟩
  · exact operations_published hp
  · exact readCell_published hp depth

theorem Reached.accounted {verifies : Bool} {s : Session} (h : Reached verifies s) (c : CellId) :
    s.Accounted c :=
  h.holds (P := fun s => ∀ c, s.Accounted c) (accounted_start verifies) Change.accounted c

/-- A slot has one value for good, which is what every read gives that returns, whether or not its own
run came first; reading it again runs nothing. After every step, the runs that came to a value are in
order those of the reports: the first was published, with the length of the value, and each of the
others was dropped. -/
theorem publishes_once (verifies : Bool) (c : CellId) :
    (∀ s t : Session, s.Changes t → ∀ ops, s.store.published? c = some ops →
      t.store.published? c = some ops) ∧
    (∀ (s : Session) r, s.IsRead c r → s.Changes r.2 ∧
      ∀ ops, r.1 = .ok ops → r.2.store.published? c = some ops) ∧
    (∀ (s : Session) ops, s.store.published? c = some ops → ∀ r, s.IsRead c r → r = (.ok ops, s)) ∧
    (∀ (s : Session) (e : Step), s.Changes (s.step e).session) ∧
    ∀ s, Reached verifies s →
      (∀ ops, s.store.content? c = some (.filled ops) → s.reports c = []) ∧
      ∀ p runs finished published,
        s.store.content? c = some (.deferred p runs finished published) →
        (finished = [] ∧ published = none ∧ s.reports c = []) ∨
        ∃ ops first later, published = some ops ∧ finished = later ++ [first] ∧
          s.reports c = later.map (·, none) ++ [(first, some ops.length)] := by
  refine ⟨fun s t h ops hp => h.le.published? hp, ?_, fun s ops hp r h => h.eq_of_published hp,
    changes_step, ?_⟩
  · rintro s ⟨r, t⟩ h
    refine ⟨h.changes, fun ops ho => ?_⟩
    cases ho
    exact h.published?
  · intro s hs
    have hacc : s.Accounted c :=
      hs.holds (P := fun s => ∀ c, s.Accounted c) (accounted_start verifies) Change.accounted c
    unfold Accounted at hacc
    constructor
    · intro ops ha
      rw [ha] at hacc
      generalize s.reports c = reports at hacc
      cases hacc
      rfl
    · intro p runs finished published ha
      rw [ha] at hacc
      generalize s.reports c = reports at hacc ⊢
      cases hacc with
      | waiting => exact .inl ⟨rfl, rfl, rfl⟩
      | settled _ _ later first ops => exact .inr ⟨ops, first, later, rfl, rfl, rfl⟩

/-- A block whose one slot is filled by a producer that enumerates the children of the block. -/
def selfReading : List Step :=
  [.build (.build (.mk (some "b") { locus := ⟨⟨0⟩, Span.make 0 0⟩ } .block none
      [.deferred (.mk none (some "b") [] [])] [.value (.handles .localVar [])])),
    .ask "b" (.children none)]

/-- The second run starts within the first, is the first to come to a value and publishes it. -/
theorem publishes_once_selfReading :
    ((start true).after selfReading).reports 0 = [(1, none), (2, some 0)] ∧
      operations 0 ((start true).after selfReading) = (.ok [], (start true).after selfReading) := by
  obtain ⟨-, -, hread, -, hreports⟩ := publishes_once true 0
  have hcontent : ((start true).after selfReading).store.content? 0 =
      some (.deferred (.mk none (some "b") [] []) 2 [1, 2] (some [])) := rfl
  constructor
  · rcases (hreports _ (Reached.start.after selfReading)).2 _ _ _ _ hcontent with
      ⟨hnone, -⟩ | ⟨ops, first, later, hops, hruns, hr⟩
    · cases hnone
    · obtain ⟨rfl, rfl⟩ : later = [1] ∧ first = 2 := by
        have h : [1] ++ [2] = later ++ [first] := hruns
        have := List.append_inj' h rfl
        simp_all
      rw [hr, ← Option.some.inj hops]
      rfl
  · exact hread _ _ (by simp [Store.published?_eq_content?, hcontent, Content.published?]) _ (.inl rfl)

end Session
end BoundTree
