import BoundTree.Proofs.Logic

/-!
Every procedure is a sequence of changes, and building one of additions only. Main statement: every step
is a sequence of changes, and a run is therefore one long sequence of changes from the empty session.
-/
namespace BoundTree

namespace Procedure

variable {α β : Type} {R : Session → Session → Prop}

/-- Whether it succeeds or not, the procedure leads to where such transitions lead. -/
def Within (R : Session → Session → Prop) (x : Procedure α) : Prop :=
  ∀ s : Session, Relation.ReflTransGen R s (x s).2

/-- Where one run of it ends. -/
theorem Within.reaches {x : Procedure α} (h : Within R x) {s t : Session} {r : Except Fault α}
    (hx : x s = (r, t)) : Relation.ReflTransGen R s t := by
  have hs := h s
  rwa [hx] at hs

theorem Within.pure (a : α) : Within R (Pure.pure a : Procedure α) := fun _ => .refl

theorem Within.fail (f : Fault) : Within R (fail f : Procedure α) := fun _ => .refl

/-- What comes next may rely on what is known of the results. -/
theorem Within.bind_of {x : Procedure α} {f : α → Procedure β} {Q : α → Prop} (hx : Within R x)
    (hQ : ∀ s a t, x s = (.ok a, t) → Q a) (hf : ∀ a, Q a → Within R (f a)) : Within R (x >>= f) := by
  intro s
  rw [bind_apply]
  rcases hr : x s with ⟨_ | a, t⟩
  · exact hx.reaches hr
  · exact (hx.reaches hr).trans (hf a (hQ s a t hr) t)

theorem Within.bind {x : Procedure α} {f : α → Procedure β} (hx : Within R x)
    (hf : ∀ a, Within R (f a)) : Within R (x >>= f) :=
  hx.bind_of (Q := fun _ => True) (fun _ _ _ _ => trivial) fun a _ => hf a

theorem Within.reading {f : Session → Procedure β} (hf : ∀ s, Within R (f s)) :
    Within R (read >>= f) := fun s => hf s s

theorem Within.compositional : Compositional fun x => Within R x where
  pure := .pure
  fail := .fail
  bind := .bind
  reading _ hf := .reading hf

theorem Within.mapFault {x : Procedure α} (f : Fault → Fault) (h : Within R x) :
    Within R (mapFault f x) := by
  intro s
  rw [mapFault_apply]
  exact h s

theorem Within.mono {S : Session → Session → Prop} (h : ∀ s t, R s t → S s t) {x : Procedure α}
    (hx : Within R x) : Within S x := fun s => Relation.ReflTransGen.mono h _ _ (hx s)

/-- Transitions that add up lead there at once. -/
theorem Within.apply {x : Procedure α} (h : Within R x) (hrefl : ∀ s, R s s)
    (htrans : ∀ {s t u}, R s t → R t u → R s u) (s : Session) : R s (x s).2 := by
  have hs := h s
  generalize (x s).2 = t at hs
  induction hs with
  | refl => exact hrefl s
  | tail _ hr ih => exact htrans ih hr

abbrev Adding : Procedure α → Prop := Within Session.Addition

abbrev Changing : Procedure α → Prop := Within Session.Change

/-- Names, labels, counters and what is in use may change in any way. -/
theorem Adding.names {x : Procedure α}
    (h : ∀ s : Session, (x s).2.store = s.store ∧ (x s).2.events = s.events ∧
      (x s).2.verifies = s.verifies) : Adding x :=
  fun s => .single (.names (h s).1 (h s).2.1 (h s).2.2)

theorem Adding.hold (h : Holder) : Adding (hold h) := .names fun _ => ⟨rfl, rfl, rfl⟩

theorem Adding.emit {e : Event} (h : e.isReport = false) : Adding (emit e) :=
  fun s => .single (.report s h)

theorem Adding.releasing {x : Procedure α} (h : Adding x) : Adding (releasing x) :=
  fun s => (h s).tail (.names rfl rfl rfl)

end Procedure

namespace Session

open Procedure

/-! Building. -/

theorem adding_construct (header : Header) (payload : Payload) (cells : List CellId) :
    Adding (construct header payload cells) := by
  intro s
  rw [construct_apply]
  cases he : payload.error? header with
  | some e => exact .single (.report s rfl)
  | none =>
    have hadd : s.Additions (s.withOperation header payload cells) := .single (.addOperation s cells he)
    cases s.constructionViolation? header payload cells with
    | none => exact hadd
    | some v => exact hadd.tail (.report _ rfl)

theorem adding_newCell (arity : Arity) {content : Content} (h : content.isNew) :
    Adding (newCell arity content) := by
  intro s
  have hadd : s.Additions { s with store := (s.store.addCell ⟨arity, content, none⟩).2 } :=
    .single (.addCell s arity h)
  exact hadd.tail (.names rfl rfl rfl)

theorem adding_takeSlot (arity : Arity) (name : String) : Adding (takeSlot arity name) := by
  intro s
  rw [takeSlot_apply]
  split
  · exact .refl
  · split <;> exact .single (.names rfl rfl rfl)

theorem adding_intern (name : String) : Adding (intern name) := .names fun _ => ⟨rfl, rfl, rfl⟩

theorem bind_store (s : Session) (id : Option String) (n : NodeId) :
    (s.bind id n).store = s.store ∧ (s.bind id n).events = s.events ∧
      (s.bind id n).verifies = s.verifies := by
  cases id <;> exact ⟨rfl, rfl, rfl⟩

theorem adding_bind (id : Option String) (n : NodeId) : Adding (modify (·.bind id n)) :=
  .names fun s => s.bind_store id n

/-- Building adds, and does nothing else. -/
theorem adding_logic : BuildLogic fun _ x _ => Adding x where
  pure _ := .pure _
  fail f := .fail f
  bind hx hf := hx.bind hf
  frame hx _ := hx
  weaken hx _ _ := hx
  recalling _ _ _ hf := .reading hf
  releasing hx := .releasing hx
  hold _ := .hold _
  bindName := adding_bind
  intern := adding_intern
  newCell arity _ h := adding_newCell arity h
  takeSlot := adding_takeSlot
  construct := adding_construct

/-! Reading. -/

/-- What happens to a session at once, and which run a value comes from. -/
inductive Happening : Session → Session → Prop
  | adds {s t : Session} (h : Addition s t) : Happening s t
  | startRun (s : Session) (c : CellId) :
      Happening s { s with store := s.store.modifyContent c (·.countRun) }
  | settle {s u : Session} {c : CellId} {depth run runs : Nat} {p : Producer} {finished : List Nat}
      {published : Option (List NodeId)} {candidate : List NodeId}
      (content : s.store.content? c = some (.deferred p runs finished published))
      (value : produce depth p run u = (.ok candidate, s)) : Happening s (s.settle c run candidate)

/-- What happened, one thing after the other. -/
abbrev Happenings : Session → Session → Prop := Relation.ReflTransGen Happening

theorem Happening.change {s t : Session} (h : s.Happening t) : s.Change t := by
  cases h with
  | adds h => exact .adds h
  | startRun c => exact .startRun s c
  | settle content _ =>
    obtain ⟨cell, hc, hd⟩ := Option.map_eq_some_iff.mp content
    exact .settle _ _ hc (by rw [hd]; rfl)

theorem Happenings.changes {s t : Session} (h : s.Happenings t) : s.Changes t :=
  Relation.ReflTransGen.mono (fun _ _ => Happening.change) _ _ h

theorem happenings_started (s : Session) (c : CellId) (p : Producer) :
    s.Happenings (s.started c p) := by
  have hrun : s.Happenings { s with store := s.store.modifyContent c (·.countRun) } :=
    .single (.startRun s c)
  unfold started
  cases p.counter with
  | none => exact hrun
  | some name => exact hrun.tail (.adds (.names rfl rfl rfl))

theorem changes_started (s : Session) (c : CellId) (p : Producer) : s.Changes (s.started c p) :=
  (s.happenings_started c p).changes

/-- A run that comes to a value settles its slot. -/
theorem happenings_offer {s u : Session} {c : CellId} {depth run runs : Nat} {p : Producer}
    {finished : List Nat} {published : Option (List NodeId)} {candidate : List NodeId}
    (content : s.store.content? c = some (.deferred p runs finished published))
    (value : produce depth p run u = (.ok candidate, s)) :
    s.Happenings ((finishRun c run >>= fun _ => offer c run candidate) s).2 := by
  have hsettle : s.Happenings (s.settle c run candidate) := .single (.settle content value)
  obtain ⟨cell, hc, -⟩ := Option.map_eq_some_iff.mp content
  rw [offer_apply run candidate hc]
  cases s.publicationViolation? c run candidate with
  | none => exact hsettle
  | some v => exact hsettle.tail (.adds (.report _ rfl))

theorem happening_readCell {depth : Nat} (h : ∀ p run, Within Happening (produce depth p run))
    (c : CellId) : Within Happening (readCell (depth + 1) c) := by
  intro s
  rcases s.cell_cases c with hc | ⟨ops, ho⟩ | ⟨cell, p, runs, finished, hc, hd⟩
  · rw [readCell_missing hc]
  · rw [readCell_published ho]
  · have hstart := s.happenings_started c p
    have hrun := h p (runs + 1) (s.started c p)
    rw [readCell_deferred hc hd, bind_apply]
    rcases hr : produce depth p (runs + 1) (s.started c p) with ⟨r, t⟩
    rw [hr] at hrun
    have hhappened : s.Happenings t := hstart.trans hrun
    cases r with
    | error f => exact hhappened
    | ok candidate =>
      have hcontent : s.store.content? c = some (.deferred p runs finished none) := by
        simp [Store.content?, hc, hd]
      obtain ⟨runs', finished', published', hcontent', -⟩ := hhappened.changes.le.deferred hcontent
      exact hhappened.trans (happenings_offer hcontent' hr)

/-- Where building is allowed, and reading a slot is, every step is taken. -/
theorem within_logic {R : Session → Session → Prop} (hadd : ∀ s t, Addition s t → R s t)
    (hread : ∀ {depth}, (∀ p run, Within R (produce depth p run)) → ∀ c,
      Within R (readCell (depth + 1) c)) : StepLogic fun _ x _ => Within R x := by
  have hadding : ∀ {α : Type} {x : Procedure α}, Adding x → Within R x := fun h => h.mono hadd
  exact {
    pure := fun _ => .pure _
    fail := fun f => .fail f
    bind := fun hx hf => hx.bind hf
    frame := fun hx _ => hx
    weaken := fun hx _ _ => hx
    recalling := fun _ _ _ hf => .reading hf
    releasing := fun hx s => (hx s).tail (hadd _ _ (.names rfl rfl rfl))
    hold := fun _ => hadding (.hold _)
    bindName := fun id n => hadding (adding_bind id n)
    intern := fun name => hadding (adding_intern name)
    newCell := fun arity _ h => hadding (adding_newCell arity h)
    takeSlot := fun arity name => hadding (adding_takeSlot arity name)
    construct := fun header payload cells => hadding (adding_construct header payload cells)
    producing := fun hx => .mapFault _ hx
    readCell := fun _ c h => hread h c
    warn := fun _ _ => hadding (.emit rfl)
    holdCell := fun _ => hadding (.hold _)
    dropName := fun _ => hadding (.names fun _ => ⟨rfl, rfl, rfl⟩)
    nameSlot := fun _ _ => hadding (.names fun _ => ⟨rfl, rfl, rfl⟩) }

theorem happening_logic : StepLogic fun _ x _ => Within Happening x :=
  within_logic (fun _ _ => .adds) happening_readCell

/-- Every step is a sequence of changes, also one that fails. -/
theorem changing_logic : StepLogic fun _ x _ => Changing x :=
  within_logic (fun _ _ => .adds) fun _ c =>
    (happening_logic.readSlotCell _ c).mono fun _ _ => Happening.change

theorem changes_produced {s t : Session} {c : CellId} {p : Producer} {depth run : Nat}
    {r : Except Fault (List NodeId)} (h : produce depth p run (s.started c p) = (r, t)) : s.Changes t :=
  (s.changes_started c p).trans ((changing_logic.produce depth p run).reaches h)

/-- The sessions that steps lead to, from a session in which nothing has been done. -/
inductive Reached (verifies : Bool) : Session → Prop
  | start : Reached verifies (Session.start verifies)
  | step {s : Session} (h : Reached verifies s) (e : Step) : Reached verifies (s.step e).session

/-- The session after some steps. -/
def after (s : Session) (steps : List Step) : Session :=
  steps.foldl (fun s e => (s.step e).session) s

theorem Reached.after {verifies : Bool} {s : Session} (h : Reached verifies s) (steps : List Step) :
    Reached verifies (s.after steps) := by
  induction steps generalizing s with
  | nil => exact h
  | cons e steps ih => exact ih (h.step e)

theorem happenings_step (s : Session) (e : Step) : s.Happenings (s.step e).session :=
  happening_logic.perform e s

theorem changes_step (s : Session) (e : Step) : s.Changes (s.step e).session :=
  Happenings.changes (s.happenings_step e)

/-- What holds at the start and is kept by every change holds in every session that is reached. -/
theorem Reached.holds {verifies : Bool} {P : Session → Prop} (h0 : P (Session.start verifies))
    (hP : ∀ {s t}, Change s t → P s → P t) {s : Session} (h : Reached verifies s) : P s := by
  induction h with
  | start => exact h0
  | step _ e ih => exact (changes_step _ e).keeps hP ih

end Session
end BoundTree
