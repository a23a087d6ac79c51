import BoundTree.Proofs.Runs
import Mathlib.Data.List.TakeWhile

/-!
The checks of links only observe. Main statement: as long as no step ends with a broken link, a run with
the checks and one without them have the same outcomes.
-/
namespace BoundTree

/-- A check of links stopped what was under way. -/
def Fault.breaksLink : Fault → Bool
  | .panicked (.brokenLink _) => true
  | _ => false

/-- A broken link was reported. -/
def Event.isLinkViolation : Event → Bool
  | .linkViolated .. => true
  | _ => false

namespace Procedure

variable {α β : Type}

/-- Unless a check stops it, the procedure does without the checks what it does with them, and reports no
broken link. -/
def Observed (x : Procedure α) : Prop :=
  ∀ s : Session, (∃ f, (x s).1 = .error f ∧ f.breaksLink) ∨
    x s.unchecked = ((x s).1, (x s).2.unchecked) ∧
      (x s).2.events.filter Event.isLinkViolation = s.events.filter Event.isLinkViolation

namespace Observed

theorem pure (a : α) : Observed (Pure.pure a : Procedure α) := fun _ => .inr ⟨rfl, rfl⟩

theorem fail (f : Fault) : Observed (fail f : Procedure α) := fun _ => .inr ⟨rfl, rfl⟩

theorem bind {x : Procedure α} {f : α → Procedure β} (hx : Observed x) (hf : ∀ a, Observed (f a)) :
    Observed (x >>= f) := by
  intro s
  have hs := hx s
  rcases hr : x s with ⟨e | a, t⟩
  · rw [hr] at hs
    rw [bind_error hr]
    refine hs.imp ?_ fun ⟨hsame, hevents⟩ => ⟨bind_error hsame, hevents⟩
    rintro ⟨f, hf, hbreaks⟩
    cases hf
    exact ⟨e, rfl, hbreaks⟩
  · rw [hr] at hs
    rw [bind_ok hr]
    rcases hs with ⟨f, hf, -⟩ | ⟨hsame, hevents⟩
    · cases hf
    · rw [bind_ok hsame]
      exact (hf a t).imp_right fun ⟨hsame', hevents'⟩ => ⟨hsame', hevents'.trans hevents⟩

theorem reading {f : Session → Procedure α} (same : ∀ s, f s.unchecked = f s)
    (hf : ∀ s, Observed (f s)) : Observed (read >>= f) := by
  intro s
  have hread : (read >>= f) s.unchecked = f s s.unchecked :=
    (bind_ok (read_apply s.unchecked)).trans (by rw [same])
  rw [hread, bind_ok (read_apply s)]
  exact hf s s

theorem releasing {x : Procedure α} (hx : Observed x) : Observed (releasing x) := by
  intro s
  rw [releasing_apply, releasing_apply]
  refine (hx s).imp_right fun ⟨hsame, hevents⟩ => ⟨?_, hevents⟩
  rw [hsame]
  rfl

/-- What reports nothing and does not look at whether links are checked. -/
theorem update {f : Session → α × Session}
    (hf : ∀ s, f s.unchecked = ((f s).1, (f s).2.unchecked))
    (hevents : ∀ s, (f s).2.events = s.events) : Observed (update f) := by
  refine fun s => .inr ⟨?_, congrArg _ (hevents s)⟩
  rw [update_apply, update_apply, hf]

theorem modify {f : Session → Session} (hf : ∀ s, f s.unchecked = (f s).unchecked)
    (hevents : ∀ s, (f s).events = s.events) : Observed (modify f) :=
  fun s => .inr ⟨congrArg (Prod.mk _) (hf s), congrArg _ (hevents s)⟩

theorem emit {e : Event} (h : e.isLinkViolation = false) : Observed (emit e) :=
  fun s => .inr ⟨rfl, by rw [emit_apply, List.filter_cons_of_neg (by simp [h])]⟩

/-- A producer passes on that a check stopped it. -/
theorem producing {x : Procedure α} (hx : Observed x) : Observed (mapFault Session.producerFault x) := by
  intro s
  rw [mapFault_apply, mapFault_apply]
  refine (hx s).imp ?_ fun ⟨hsame, hevents⟩ => ⟨by rw [hsame], hevents⟩
  rintro ⟨f, hf, hbreaks⟩
  refine ⟨Session.producerFault f, by rw [hf]; rfl, ?_⟩
  cases f with
  | panicked p => exact hbreaks
  | _ => cases hbreaks

end Observed
end Procedure

namespace Session

open Procedure

theorem observed_construct (header : Header) (payload : Payload) (cells : List CellId) :
    Observed (construct header payload cells) := by
  intro s
  rw [construct_apply, construct_apply]
  cases payload.error? header with
  | some e => exact .inr ⟨rfl, List.filter_cons_of_neg (by simp [Event.isLinkViolation])⟩
  | none =>
    have hnone : s.unchecked.constructionViolation? header payload cells = none := rfl
    rw [hnone]
    cases s.constructionViolation? header payload cells with
    | none => exact .inr ⟨rfl, rfl⟩
    | some v => exact .inl ⟨_, rfl, rfl⟩

theorem observed_takeSlot (arity : Arity) (name : String) : Observed (takeSlot arity name) := by
  refine .reading (fun _ => rfl) fun s => ?_
  cases lookup s.slots name with
  | none => exact .fail _
  | some c =>
    refine (Observed.pure c).bind fun c =>
      Observed.bind (.modify (fun _ => rfl) fun _ => rfl) fun _ => .reading (fun _ => rfl) fun s => ?_
    split
    · split
      · exact Observed.bind (.modify (fun _ => rfl) fun _ => rfl) fun _ => .pure _
      · exact .fail _
    · exact .fail _

theorem observed_offer (c : CellId) (run : Nat) (candidate : List NodeId) :
    Observed (finishRun c run >>= fun _ => offer c run candidate) := by
  intro s
  cases hc : s.store.cell? c with
  | none =>
    rw [offer_missing hc, offer_missing (s := s.unchecked) hc]
    exact .inr ⟨rfl, rfl⟩
  | some cell =>
    have hnone : s.unchecked.publicationViolation? c run candidate = none := by
      have hverifies : s.unchecked.verifies = false := rfl
      unfold publicationViolation?
      rw [hverifies]
      split <;> rfl
    have hsettle : s.unchecked.settle c run candidate = (s.settle c run candidate).unchecked := by
      have hpublished : s.unchecked.store.published? c = s.store.published? c := rfl
      unfold settle
      rw [hpublished]
      split <;> rfl
    have hevents : (s.settle c run candidate).events.filter Event.isLinkViolation =
        s.events.filter Event.isLinkViolation := by
      unfold settle
      split <;> exact List.filter_cons_of_neg (by simp [Event.isLinkViolation])
    rw [offer_apply run candidate hc, offer_apply (s := s.unchecked) run candidate hc, hnone, hsettle]
    cases s.publicationViolation? c run candidate with
    | none => exact .inr ⟨rfl, hevents⟩
    | some v => exact .inl ⟨_, rfl, rfl⟩

theorem observed_readCell {depth : Nat} (h : ∀ p run, Observed (produce depth p run)) (c : CellId) :
    Observed (readCell (depth + 1) c) := by
  intro s
  rcases s.cell_cases c with hc | ⟨ops, ho⟩ | ⟨cell, p, runs, finished, hc, hd⟩
  · rw [readCell_missing hc, readCell_missing (s := s.unchecked) hc]
    exact .inr ⟨rfl, rfl⟩
  · rw [readCell_published ho, readCell_published (s := s.unchecked) ho]
    exact .inr ⟨rfl, rfl⟩
  · have hstarted : s.unchecked.started c p = (s.started c p).unchecked := by
      unfold started
      cases p.counter <;> rfl
    have hevents : (s.started c p).events = s.events := by
      unfold started
      cases p.counter <;> rfl
    rw [readCell_deferred hc hd, readCell_deferred (s := s.unchecked) hc hd, hstarted, ← hevents]
    exact ((h p (runs + 1)).bind fun candidate => observed_offer c (runs + 1) candidate) _

/-- Nothing that a step does depends on the checks, unless one of them stops it. -/
theorem observed_logic : StepLogic fun _ x _ => Observed x where
  pure _ := .pure _
  fail f := .fail f
  bind hx hf := hx.bind hf
  frame hx _ := hx
  weaken hx _ _ := hx
  recalling _ _ same hf := .reading same hf
  releasing hx := .releasing hx
  hold _ := .modify (fun _ => rfl) fun _ => rfl
  bindName id n := .modify (fun s => by cases id <;> rfl) fun s => (s.bind_store id n).2.1
  intern _ := .update (fun _ => rfl) fun _ => rfl
  newCell _ _ _ := Observed.bind (.update (fun _ => rfl) fun _ => rfl) fun _ =>
    Observed.bind (.modify (fun _ => rfl) fun _ => rfl) fun _ => .pure _
  takeSlot := observed_takeSlot
  construct := observed_construct
  producing hx := .producing hx
  readCell _ c h := observed_readCell h c
  warn _ _ := .emit rfl
  holdCell _ := .modify (fun _ => rfl) fun _ => rfl
  dropName _ := .modify (fun _ => rfl) fun _ => rfl
  nameSlot _ _ := .modify (fun _ => rfl) fun _ => rfl

/-- A check of links stopped the step. -/
def Outcome.breaksLink (o : Outcome) : Bool :=
  match o.answer with
  | .ok _ => false
  | .error f => f.breaksLink

/-- The outcome up to whether links are checked. -/
def Outcome.unchecked (o : Outcome) : Outcome := { o with session := o.session.unchecked }

/-- A step that no check stops has the same outcome without the checks. -/
theorem step_unchecked {s : Session} {e : Step} (h : (s.step e).breaksLink = false) :
    s.unchecked.step e = (s.step e).unchecked := by
  have hx : Observed (perform e) := observed_logic.perform e
  rcases hx s with ⟨f, hf, hbreaks⟩ | ⟨hsame, -⟩
  · have hanswer : (s.step e).answer = .error f := hf
    simp [Outcome.breaksLink, hanswer, hbreaks] at h
  · unfold step
    rw [hsame]
    rfl

/-- A step that no check stops reports no broken link. -/
theorem step_events {s : Session} {e : Step} (h : (s.step e).breaksLink = false) :
    (s.step e).session.events.filter Event.isLinkViolation =
      s.events.filter Event.isLinkViolation := by
  have hx : Observed (perform e) := observed_logic.perform e
  rcases hx s with ⟨f, hf, hbreaks⟩ | ⟨-, hevents⟩
  · have hanswer : (s.step e).answer = .error f := hf
    simp [Outcome.breaksLink, hanswer, hbreaks] at h
  · exact hevents

/-- Nor does a run without such a step. -/
theorem after_events {s : Session} {steps : List Step} (h : ∀ o ∈ s.run steps, o.breaksLink = false) :
    (s.after steps).events.filter Event.isLinkViolation = s.events.filter Event.isLinkViolation := by
  induction steps generalizing s with
  | nil => rfl
  | cons e steps ih =>
    have hstep : (s.step e).breaksLink = false := h _ List.mem_cons_self
    have hrest : ∀ o ∈ (s.step e).session.run steps, o.breaksLink = false := fun o ho =>
      h o (List.mem_cons_of_mem _ ho)
    exact (ih hrest).trans (step_events hstep)

/-- The steps in front of the first one that a check stops have the same outcomes without the checks. -/
theorem run_unchecked (s : Session) (steps : List Step) :
    (s.unchecked.run steps).take ((s.run steps).takeWhile (!·.breaksLink)).length =
      ((s.run steps).takeWhile (!·.breaksLink)).map Outcome.unchecked := by
  induction steps generalizing s with
  | nil => rfl
  | cons e steps ih =>
    have hrun : ∀ t : Session, t.run (e :: steps) = t.step e :: (t.step e).session.run steps :=
      fun _ => rfl
    rw [hrun, hrun]
    cases hbreaks : (s.step e).breaksLink with
    | true => rw [List.takeWhile_cons_of_neg (by simp [hbreaks])]; rfl
    | false =>
      rw [List.takeWhile_cons_of_pos (by simp [hbreaks]), step_unchecked hbreaks, List.length_cons,
        List.take_succ_cons, List.map_cons]
      exact congrArg _ (ih (s.step e).session)

theorem length_run (s : Session) (steps : List Step) : (s.run steps).length = steps.length := by
  induction steps generalizing s with
  | nil => rfl
  | cons e steps ih => exact congrArg Nat.succ (ih (s.step e).session)

/-- Up to the first step that a check stops, a run with the checks and one without them give the same
answers, report the same, and lead through the same sessions, up to whether links are checked; when no
check stops a step, all of the run is the same. -/
theorem checks_observe (steps : List Step) :
    ((start false).run steps).take (((start true).run steps).takeWhile (!·.breaksLink)).length =
        (((start true).run steps).takeWhile (!·.breaksLink)).map Outcome.unchecked ∧
      ((∀ o ∈ (start true).run steps, o.breaksLink = false) →
        (start false).run steps = ((start true).run steps).map Outcome.unchecked) := by
  have hrun := run_unchecked (start true) steps
  refine ⟨hrun, fun h => ?_⟩
  have hall : ((start true).run steps).takeWhile (!·.breaksLink) = (start true).run steps :=
    List.takeWhile_eq_self_iff.mpr fun o ho => by simp [h o ho]
  rw [hall, length_run, ← length_run (start true).unchecked steps, List.take_length] at hrun
  exact hrun

/-! Small trees. -/

/-- A statement that belongs to no semantic model. -/
def statement (id : Option String) (shape : Shape) (slots : List SlotExpr)
    (attributes : List AttributeExpr) : NodeExpr :=
  .build (.mk id { locus := ⟨⟨0⟩, Span.make 0 0⟩ } shape none slots attributes)

def emptyStatement (id : Option String) : NodeExpr := statement id .empty [] []

def block (id : Option String) (operations : SlotExpr) : NodeExpr :=
  statement id .block [operations] [.value (.handles .localVar [])]

def switchCase (id : Option String) (condition : SlotExpr) : NodeExpr :=
  statement id .switchCase [.filled [], .filled [], condition] [.value (.handles .localVar [])]

/-- Two blocks take the same statement. -/
def twoParents : List Step :=
  [.build (emptyStatement (some "x")), .build (block (some "b") (.filled [.named "x"])),
    .build (block (some "c") (.filled [.named "x"]))]

/-- The check stops the second block, and all was the same before. -/
theorem checks_observe_twoParents :
    ((start true).run twoParents).map Outcome.breaksLink = [false, false, true] ∧
      ((start false).run twoParents).take 2 =
        (((start true).run twoParents).takeWhile (!·.breaksLink)).map Outcome.unchecked ∧
      (start false).run (twoParents.take 2) =
        ((start true).run (twoParents.take 2)).map Outcome.unchecked := by
  have hbreaks : ((start true).run twoParents).map Outcome.breaksLink = [false, false, true] := by
    decide
  have hlength : (((start true).run twoParents).takeWhile (!·.breaksLink)).length = 2 := by
    decide
  have hclear : ((start true).run (twoParents.take 2)).all (!·.breaksLink) := by decide
  refine ⟨hbreaks, hlength ▸ (checks_observe twoParents).1, (checks_observe _).2 fun o ho => ?_⟩
  simpa using List.all_eq_true.mp hclear o ho

end Session
end BoundTree
