import BoundTree.Proofs.Change

/-!
Each procedure of the library in closed form: what it answers, and the session it ends in.
-/
namespace BoundTree

namespace Procedure

variable {α β : Type}

@[simp] theorem update_apply (f : Session → α × Session) (s : Session) :
    update f s = (.ok (f s).1, (f s).2) := rfl

@[simp] theorem ofOption_some_apply (f : Fault) (a : α) (s : Session) :
    (ofOption f (some a) : Procedure α) s = (.ok a, s) := rfl

@[simp] theorem ofOption_none_apply (f : Fault) (s : Session) :
    (ofOption f none : Procedure α) s = (.error f, s) := rfl

@[simp] theorem emit_apply (e : Event) (s : Session) :
    emit e s = (.ok (), { s with events := e :: s.events }) := rfl

@[simp] theorem hold_apply (h : Holder) (s : Session) :
    hold h s = (.ok (), { s with held := h :: s.held }) := rfl

theorem releasing_apply (x : Procedure α) (s : Session) :
    releasing x s = ((x s).1, { (x s).2 with held := s.held }) := rfl

theorem mapFault_apply (f : Fault → Fault) (x : Procedure α) (s : Session) :
    mapFault f x s = ((x s).1.mapError f, (x s).2) := by
  unfold mapFault
  split <;> rename_i h <;> simp [h, Except.mapError]

theorem mapError_eq_error {r : Except Fault α} {g : Fault → Fault} {f : Fault}
    (h : r.mapError g = .error f) : ∃ f', r = .error f' ∧ f = g f' := by
  cases r with
  | ok a => cases h
  | error f' =>
    cases h
    exact ⟨f', rfl, rfl⟩

/-- A run that succeeds ends in some session. -/
theorem eq_ok {x : Procedure α} {s : Session} {a : α} (h : (x s).1 = .ok a) :
    x s = (.ok a, (x s).2) := by rw [← h]

theorem bind_ok {x : Procedure α} {f : α → Procedure β} {s t : Session} {a : α}
    (h : x s = (.ok a, t)) : (x >>= f) s = f a t := by
  rw [bind_apply, h]

theorem bind_error {x : Procedure α} {f : α → Procedure β} {s t : Session} {e : Fault}
    (h : x s = (.error e, t)) : (x >>= f) s = (.error e, t) := by
  rw [bind_apply, h]

/-- A run of two procedures is one of the first, and where that one succeeds one of the second. -/
theorem bind_eq_ok {x : Procedure α} {f : α → Procedure β} {s t : Session} {b : β}
    (h : (x >>= f) s = (.ok b, t)) : ∃ a u, x s = (.ok a, u) ∧ f a u = (.ok b, t) := by
  rw [bind_apply] at h
  rcases hx : x s with ⟨r, u⟩
  rw [hx] at h
  cases r with
  | ok a => exact ⟨a, u, rfl, h⟩
  | error e => simp at h

end Procedure

namespace Session

open Procedure

/-- The first broken link is a panic; without one nothing happens. -/
theorem assertLinks_apply (check : LinkCheck) (owner : NodeId) (l : Linkage) (children : List NodeId)
    (s : Session) : assertLinks check owner l children s =
      match children.findSome? (s.checkLink owner l) with
      | none => (.ok (), s)
      | some v => (.error (.panicked (.brokenLink v)),
          { s with events := .linkViolated check v :: s.events }) := by
  induction children with
  | nil => rfl
  | cons n ns ih =>
    simp only [assertLinks, bind_apply, read_apply, List.findSome?_cons]
    cases h : s.checkLink owner l n with
    | none => simpa using ih
    | some v => simp [bind_apply]

/-- What slots hold already, slot by slot, and of which linkage it is. -/
def positions (s : Session) (cells : List (Linkage × CellId)) : List (Linkage × NodeId) :=
  cells.flatMap fun c => ((s.store.published? c.2).getD []).map (c.1, ·)

theorem positions_cons (s : Session) (c : Linkage × CellId) (cells : List (Linkage × CellId)) :
    s.positions (c :: cells) =
      ((s.store.published? c.2).getD []).map (c.1, ·) ++ s.positions cells := rfl

theorem assertSlots_apply (owner : NodeId) (cells : List (Linkage × CellId)) (s : Session) :
    assertSlots owner cells s =
      match (s.positions cells).findSome? fun n => s.checkLink owner n.1 n.2 with
      | none => (.ok (), s)
      | some v => (.error (.panicked (.brokenLink v)),
          { s with events := .linkViolated .construction v :: s.events }) := by
  induction cells with
  | nil => rfl
  | cons c cells ih =>
    rw [positions_cons, List.findSome?_append, List.findSome?_map]
    simp only [assertSlots, bind_apply, read_apply]
    cases hp : s.store.published? c.2 with
    | none => simpa using ih
    | some ops =>
      dsimp only
      cases hv : ops.findSome? (s.checkLink owner c.1) with
      | none =>
        rw [bind_ok (by rw [assertLinks_apply, hv])]
        simpa [hv, Function.comp_def] using ih
      | some v =>
        rw [bind_error (by rw [assertLinks_apply, hv])]
        simp [hv, Function.comp_def]

/-- The session with a new operation, and the operation. -/
def withOperation (s : Session) (header : Header) (payload : Payload) (cells : List CellId) :
    Session :=
  { s with store := (s.store.addOperation header payload cells).2 }

/-- What the check of a new operation finds wrong first, while the operation is in use. -/
def constructionViolation? (s : Session) (header : Header) (payload : Payload)
    (cells : List CellId) : Option LinkViolation :=
  let t := { s.withOperation header payload cells with
    held := .node s.store.nodes.size :: s.held }
  if s.verifies then
    (t.positions (((t.store.node? s.store.nodes.size).map (·.linkedCells)).getD [])).findSome?
      fun n => t.checkLink s.store.nodes.size n.1 n.2
  else none

/-- A rejected operation changes nothing; another one is there, with its links, also where its check
fails. -/
theorem construct_apply (header : Header) (payload : Payload) (cells : List CellId) (s : Session) :
    construct header payload cells s =
      match payload.error? header with
      | some e => (.error (.rejected e),
          { s with events := .rejected payload.kind e :: s.events })
      | none =>
        match s.constructionViolation? header payload cells with
        | none => (.ok s.store.nodes.size, s.withOperation header payload cells)
        | some v => (.error (.panicked (.brokenLink v)),
            { s.withOperation header payload cells with
              events := .linkViolated .construction v :: s.events }) := by
  unfold construct
  cases he : payload.error? header with
  | some e => simp [bind_apply]
  | none =>
    have hadd : (s.store.addOperation header payload cells).1 = s.store.nodes.size := rfl
    simp only [releasing_apply, bind_apply, update_apply, hold_apply, read_apply, hadd]
    unfold constructionViolation?
    cases hv : s.verifies with
    | false => simp [withOperation, hv]
    | true =>
      simp only [if_true, assertSlots_apply, bind_apply, withOperation, hv]
      generalize List.findSome? _ _ = violation
      cases violation <;> rfl

theorem construct_eq_ok {header : Header} {payload : Payload} {cells : List CellId} {s t : Session}
    {n : NodeId} (h : construct header payload cells s = (.ok n, t)) :
    n = s.store.nodes.size ∧ t = s.withOperation header payload cells ∧
      payload.error? header = none ∧ s.constructionViolation? header payload cells = none := by
  rw [construct_apply] at h
  split at h
  · cases (Prod.mk.inj h).1
  · next he =>
    split at h
    · next hv =>
      obtain ⟨hn, rfl⟩ := Prod.mk.inj h
      exact ⟨(Except.ok.inj hn).symm, rfl, he, hv⟩
    · cases (Prod.mk.inj h).1

theorem newCell_apply (arity : Arity) (content : Content) (s : Session) :
    newCell arity content s = (.ok s.store.cells.size,
      { s with
        store := (s.store.addCell ⟨arity, content, none⟩).2
        held := .cell s.store.cells.size :: s.held }) := rfl

/-- A slot that is taken loses its name, also where it does not fit. -/
theorem takeSlot_apply (arity : Arity) (name : String) (s : Session) :
    takeSlot arity name s =
      match lookup s.slots name with
      | none => (.error .unknown, s)
      | some c =>
        if (s.store.cell? c).map (·.arity) = some arity then
          (.ok c, { s with slots := remove s.slots name, held := .cell c :: s.held })
        else (.error .malformed, { s with slots := remove s.slots name }) := by
  unfold takeSlot
  simp only [bind_apply, read_apply]
  cases hl : lookup s.slots name with
  | none => rfl
  | some c =>
    simp only [ofOption_some_apply, modify_apply]
    cases hc : s.store.cell? c with
    | none => rfl
    | some cell => by_cases ha : cell.arity = arity <;> simp [ha, bind_apply]

/-- What the check of a published value finds wrong first. -/
def publicationViolation? (s : Session) (c : CellId) (run : Nat) (candidate : List NodeId) :
    Option LinkViolation :=
  match s.store.published? c, s.store.owner? c with
  | none, some o =>
    if s.verifies then candidate.findSome? ((s.settle c run candidate).checkLink o.node o.linkage)
    else none
  | _, _ => none

/-- A slot that is not there takes no value. -/
theorem offer_missing {s : Session} {c : CellId} {run : Nat} {candidate : List NodeId}
    (hc : s.store.cell? c = none) : (finishRun c run >>= fun _ => offer c run candidate) s =
      (.error .malformed, { s with store := s.store.modifyContent c (·.finishRun run) }) := by
  have hgone : (s.store.modifyContent c (·.finishRun run)).cell? c = none := by
    rw [Store.cell?_modifyContent, hc]
    rfl
  simp only [finishRun, offer, bind_apply, modify_apply, read_apply, hgone, ofOption_none_apply]

/-- A run that has come to a value answers what is published then, unless the check of its own
publication fails. -/
theorem offer_apply {s : Session} {c : CellId} {cell : Cell} (run : Nat) (candidate : List NodeId)
    (hc : s.store.cell? c = some cell) :
    (finishRun c run >>= fun _ => offer c run candidate) s =
      match s.publicationViolation? c run candidate with
      | none => (.ok ((s.store.published? c).getD candidate), s.settle c run candidate)
      | some v => (.error (.panicked (.brokenLink v)),
          { s.settle c run candidate with
            events := .linkViolated (.publication c) v ::
              (s.settle c run candidate).events }) := by
  have hcell : (s.store.modifyContent c (·.finishRun run)).cell? c =
      some { cell with content := cell.content.finishRun run } := by
    simp [Store.cell?_modifyContent, hc]
  have howner : s.store.owner? c = cell.owner := by simp [Store.owner?, hc]
  have hpub : s.store.published? c = cell.content.published? := by simp [Store.published?, hc]
  simp only [finishRun, offer, bind_apply, modify_apply, read_apply, hcell, ofOption_some_apply,
    Content.published?_finishRun]
  unfold publicationViolation? settle Store.receive
  simp only [howner, hpub]
  cases hp : cell.content.published? with
  | some ops => rcases cell.owner with _ | ⟨p, _ | _⟩ <;> rfl
  | none =>
    rcases cell.owner with _ | ⟨p, l⟩
    · simp [bind_apply, publish]
    · cases l <;> cases s.verifies <;>
        simp only [bind_apply, publish, modify_apply, emit_apply, read_apply, if_true,
          assertLinks_apply, Bool.false_eq_true, if_false, pure_apply, Option.getD_none]
      all_goals
        generalize List.findSome? _ _ = violation
        cases violation <;> rfl

theorem offer_eq_ok {s t : Session} {c : CellId} {cell : Cell} {run : Nat} {candidate ops : List NodeId}
    (hc : s.store.cell? c = some cell) :
    (finishRun c run >>= fun _ => offer c run candidate) s = (.ok ops, t) ↔
      ops = (s.store.published? c).getD candidate ∧ s.publicationViolation? c run candidate = none ∧
        t = s.settle c run candidate := by
  rw [offer_apply run candidate hc]
  cases s.publicationViolation? c run candidate with
  | none =>
    constructor
    · intro h
      obtain ⟨hops, rfl⟩ := Prod.mk.inj h
      exact ⟨(Except.ok.inj hops).symm, rfl, rfl⟩
    · rintro ⟨rfl, -, rfl⟩
      rfl
  | some v => exact ⟨fun h => (by cases (Prod.mk.inj h).1), fun h => (by cases h.2.1)⟩

/-- A run of the producer of a slot has been started. -/
def started (s : Session) (c : CellId) (p : Producer) : Session :=
  let t := { s with store := s.store.modifyContent c (·.countRun) }
  p.counter.elim t t.count

@[simp] theorem started_store (s : Session) (c : CellId) (p : Producer) :
    (s.started c p).store = s.store.modifyContent c (·.countRun) := by
  unfold started
  cases p.counter <;> rfl

theorem started_names (s : Session) (c : CellId) (p : Producer) :
    (s.started c p).names = s.names ∧ (s.started c p).verifies = s.verifies := by
  unfold started
  cases p.counter <;> exact ⟨rfl, rfl⟩

theorem started_rest (s : Session) (c : CellId) (p : Producer) :
    (s.started c p).bindings = s.bindings ∧ (s.started c p).slots = s.slots ∧
      (s.started c p).held = s.held := by
  unfold started
  cases p.counter <;> exact ⟨rfl, rfl, rfl⟩

theorem startRun_apply (c : CellId) (p : Producer) (runs : Nat) (s : Session) :
    startRun c p runs s = (.ok (runs + 1), s.started c p) := by
  unfold startRun started
  cases p.counter <;> rfl

/-- What a run does from its start until it has come to a value. -/
def produce (depth : Nat) (p : Producer) (run : Nat) : Procedure (List NodeId) :=
  mapFault producerFault (releasing do
    prepare (readCell depth) p run
    evalNodes (p.valueOf run))

/-- A slot is not there, has a value, or waits for one. -/
theorem cell_cases (s : Session) (c : CellId) :
    s.store.cell? c = none ∨ (∃ ops, s.store.published? c = some ops) ∨
      ∃ cell p runs finished, s.store.cell? c = some cell ∧
        cell.content = .deferred p runs finished none := by
  cases hc : s.store.cell? c with
  | none => exact .inl rfl
  | some cell =>
    rcases hd : cell.content with ops | ⟨p, runs, finished, _ | ops⟩
    · exact .inr (.inl ⟨ops, by simp [Store.published?, hc, hd, Content.published?]⟩)
    · exact .inr (.inr ⟨cell, p, runs, finished, rfl, hd⟩)
    · exact .inr (.inl ⟨ops, by simp [Store.published?, hc, hd, Content.published?]⟩)

theorem readCell_missing {s : Session} {c : CellId} (hc : s.store.cell? c = none) (depth : Nat) :
    readCell (depth + 1) c s = (.error .malformed, s) := by
  simp only [readCell, bind_apply, read_apply, hc, ofOption_none_apply]

/-- Reading what is there runs nothing and changes nothing. -/
theorem readCell_published {s : Session} {c : CellId} {ops : List NodeId}
    (h : s.store.published? c = some ops) (depth : Nat) :
    readCell (depth + 1) c s = (.ok ops, s) := by
  obtain ⟨cell, hc, ho⟩ := Option.bind_eq_some_iff.mp h
  simp only [readCell, bind_apply, read_apply, hc, ofOption_some_apply]
  rcases hd : cell.content with ops' | ⟨p, runs, finished, _ | ops'⟩ <;>
    simp_all [Content.published?]

/-- Reading a slot that waits for its value starts a run, and offers what it comes to. -/
theorem readCell_deferred {s : Session} {c : CellId} {cell : Cell} {p : Producer} {runs : Nat}
    {finished : List Nat} (hc : s.store.cell? c = some cell)
    (hd : cell.content = .deferred p runs finished none) (depth : Nat) :
    readCell (depth + 1) c s = (produce depth p (runs + 1) >>= fun candidate =>
      finishRun c (runs + 1) >>= fun _ => offer c (runs + 1) candidate) (s.started c p) := by
  simp only [readCell, bind_apply, read_apply, hc, ofOption_some_apply, hd, startRun_apply]
  rfl

theorem operations_published {s : Session} {c : CellId} {ops : List NodeId}
    (h : s.store.published? c = some ops) : operations c s = (.ok ops, s) := by
  simp only [operations, bind_apply, read_apply, h, pure_apply]

theorem operations_unpublished {s : Session} {c : CellId} (h : s.store.published? c = none) :
    operations c s = readCell (s.store.budget + 1) c s := by
  simp only [operations, bind_apply, read_apply, h]

end Session
end BoundTree
