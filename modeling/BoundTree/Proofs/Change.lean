import BoundTree.Proofs.Store
import BoundTree.Session.Step
import Mathlib.Logic.Relation

/-!
What can happen to a session at once, and that every procedure is a sequence of such changes, whether it
succeeds or not. What holds at the start and is kept by every change therefore holds at every moment of
every run.
-/
namespace BoundTree

/-- What an event reports of a run of a slot: its number and, if its value was published, how many
operations there are. -/
def Event.report? (c : CellId) : Event → Option (Nat × Option Nat)
  | .published d run _ count => if d = c then some (run, some count) else none
  | .discarded d run _ => if d = c then some (run, none) else none
  | _ => none

/-- Whether the event is about the value of a run. -/
def Event.isReport : Event → Bool
  | .published .. => true
  | .discarded .. => true
  | _ => false

theorem Event.report?_eq_none {e : Event} (h : e.isReport = false) (c : CellId) :
    e.report? c = none := by
  cases e <;> first | rfl | cases h

/-- A slot that has just been made: what is in it was there before, or nothing was tried yet. -/
def Content.isNew : Content → Bool
  | .filled _ => true
  | .deferred _ runs finished published => runs = 0 ∧ finished = [] ∧ published = none

/-- The value of a run has come: it is counted and linked. -/
def Store.receive (s : Store) (c : CellId) (run : Nat) (candidate : List NodeId) : Store :=
  match s.owner? c with
  | some ⟨p, .attached⟩ => (s.modifyContent c (·.finishRun run)).linkAll p candidate
  | _ => s.modifyContent c (·.finishRun run)

theorem Store.le_receive (s : Store) (c : CellId) (run : Nat) (candidate : List NodeId) :
    s.Le (s.receive c run candidate) := by
  have hfinish : s.Le (s.modifyContent c (·.finishRun run)) :=
    le_modifyContent (fun a => a.le_finishRun run) s c
  unfold receive
  split
  · exact hfinish.trans (le_linkAll _ _ _)
  · exact hfinish

@[simp] theorem Store.owner?_receive (s : Store) (c : CellId) (run : Nat) (candidate : List NodeId)
    (d : CellId) : (s.receive c run candidate).owner? d = s.owner? d := by
  unfold receive
  split <;> simp

theorem Store.content?_receive (s : Store) (c : CellId) (run : Nat) (candidate : List NodeId)
    (d : CellId) : (s.receive c run candidate).content? d =
      if d = c then (s.content? c).map (·.finishRun run) else s.content? d := by
  unfold receive
  split <;> simp [content?_modifyContent]

/-- A value gets the link to the operation that the slot belongs to as a child slot. -/
theorem Store.node?_receive (s : Store) (c : CellId) (run : Nat) (candidate : List NodeId)
    (n : NodeId) : (s.receive c run candidate).node? n = (s.node? n).map fun node =>
      if n ∈ candidate then { node with parent := node.parent <|> s.adopter? c } else node := by
  unfold receive adopter?
  rcases s.owner? c with _ | ⟨p, _ | _⟩
  · simp
  · exact node?_linkAll _ _ _ _
  · simp

theorem Store.link?_receive (s : Store) (c : CellId) (run : Nat) (candidate : List NodeId)
    (n : NodeId) : (s.receive c run candidate).link? n =
      if n ∈ candidate ∧ (s.node? n).isSome then s.link? n <|> s.adopter? c else s.link? n := by
  simp only [link?, node?_receive]
  cases hn : s.node? n with
  | none => simp
  | some node => by_cases hc : n ∈ candidate <;> simp [hc]

namespace Session

open Procedure

/-- The value of a run is put in place, or dropped if there is one already. -/
def settle (s : Session) (c : CellId) (run : Nat) (candidate : List NodeId) : Session :=
  let r := { s with store := s.store.receive c run candidate }
  match s.store.published? c with
  | some _ => { r with events := .discarded c run (r.ownerKind (s.store.owner? c)) :: r.events }
  | none =>
    let p := { r with store := r.store.modifyContent c (·.publish candidate) }
    { p with
      events := .published c run (p.ownerKind (s.store.owner? c)) candidate.length :: p.events }

/-- What building does: slots and operations come to be. -/
inductive Addition : Session → Session → Prop
  /-- Names, labels, counters, and what is in use. -/
  | names {s t : Session} (store : t.store = s.store) (events : t.events = s.events)
      (verifies : t.verifies = s.verifies) : Addition s t
  | report (s : Session) {e : Event} (h : e.isReport = false) :
      Addition s { s with events := e :: s.events }
  | addCell (s : Session) (arity : Arity) {content : Content} (h : content.isNew) :
      Addition s { s with store := (s.store.addCell ⟨arity, content, none⟩).2 }
  | addOperation (s : Session) {header : Header} {payload : Payload} (cells : List CellId)
      (h : payload.error? header = none) :
      Addition s { s with store := (s.store.addOperation header payload cells).2 }

inductive Change : Session → Session → Prop
  | adds {s t : Session} (h : Addition s t) : Change s t
  | startRun (s : Session) (c : CellId) :
      Change s { s with store := s.store.modifyContent c (·.countRun) }
  | settle {s : Session} {c : CellId} {cell : Cell} (run : Nat) (candidate : List NodeId)
      (hc : s.store.cell? c = some cell) (hd : cell.content.isDeferred) :
      Change s (s.settle c run candidate)

/-- Any number of additions, one after the other. -/
abbrev Additions : Session → Session → Prop := Relation.ReflTransGen Addition

/-- Any number of changes, one after the other. -/
abbrev Changes : Session → Session → Prop := Relation.ReflTransGen Change

theorem Additions.changes {s t : Session} (h : Additions s t) : Changes s t := by
  induction h with
  | refl => exact .refl
  | tail _ hc ih => exact ih.tail (.adds hc)

/-- What every single change keeps, any number of them keep. -/
theorem Changes.keeps {P : Session → Prop} (hP : ∀ {s t}, Change s t → P s → P t) {s t : Session}
    (h : Changes s t) (hs : P s) : P t := by
  induction h with
  | refl => exact hs
  | tail _ hc ih => exact hP hc ih

theorem Changes.names {s t : Session} (store : t.store = s.store) (events : t.events = s.events)
    (verifies : t.verifies = s.verifies) : Changes s t :=
  .single (.adds (.names store events verifies))

/-! What changes leave alone. -/

theorem le_settle (s : Session) (c : CellId) (run : Nat) (candidate : List NodeId) :
    s.store.Le (s.settle c run candidate).store := by
  have hreceive := s.store.le_receive c run candidate
  unfold settle
  split
  · exact hreceive
  · exact hreceive.trans (Store.le_modifyContent (fun a => a.le_publish candidate) _ c)

/-- Building leaves what the slots hold as it is. -/
theorem Addition.grows {s t : Session} (h : Addition s t) : s.store.Grows t.store := by
  cases h with
  | names store _ _ => exact store ▸ .refl _
  | report => exact .refl _
  | addCell arity h => exact Store.grows_addCell _ _
  | addOperation cells h => exact Store.grows_addOperation _ _ _ _

theorem Additions.grows {s t : Session} (h : s.Additions t) : s.store.Grows t.store := by
  induction h with
  | refl => exact .refl _
  | tail _ hc ih => exact ih.trans hc.grows

theorem Change.le {s t : Session} (h : Change s t) : s.store.Le t.store := by
  cases h with
  | adds h => exact h.grows.toLe
  | startRun c => exact Store.le_modifyContent Content.le_countRun _ c
  | settle run candidate => exact le_settle _ _ run candidate

theorem Changes.le {s t : Session} (h : s.Changes t) : s.store.Le t.store := by
  induction h with
  | refl => exact .refl _
  | tail _ hc ih => exact ih.trans hc.le

theorem node?_settle (s : Session) (c : CellId) (run : Nat) (candidate : List NodeId) (n : NodeId) :
    (s.settle c run candidate).store.node? n = (s.store.receive c run candidate).node? n := by
  unfold settle
  split <;> rfl

/-- A value brings no operation. -/
theorem le_node_settle {s : Session} {c : CellId} {run : Nat} {candidate : List NodeId} {n : NodeId}
    {node' : Node} (h : (s.settle c run candidate).store.node? n = some node') :
    ∃ node, s.store.node? n = some node ∧ node.Le node' := by
  rw [node?_settle, Store.node?_receive] at h
  obtain ⟨node, hnode, rfl⟩ := Option.map_eq_some_iff.mp h
  refine ⟨node, hnode, ?_⟩
  split
  · exact ⟨rfl, rfl, rfl, fun q hq => by simp [hq]⟩
  · exact .refl node

/-- A value gets the link to the operation that the slot belongs to as a child slot, also if it is
dropped. -/
theorem link?_settle (s : Session) (c : CellId) (run : Nat) (candidate : List NodeId) (n : NodeId) :
    (s.settle c run candidate).store.link? n =
      if n ∈ candidate ∧ (s.store.node? n).isSome then s.store.link? n <|> s.store.adopter? c
      else s.store.link? n := by
  rw [Store.link?, node?_settle]
  exact Store.link?_receive _ _ _ _ _

/-- All names, and what is in use, stay as they are. -/
theorem settle_names (s : Session) (c : CellId) (run : Nat) (candidate : List NodeId) :
    (s.settle c run candidate).names = s.names ∧
      (s.settle c run candidate).verifies = s.verifies ∧
      (s.settle c run candidate).bindings = s.bindings ∧
      (s.settle c run candidate).slots = s.slots ∧ (s.settle c run candidate).held = s.held := by
  unfold settle
  split <;> exact ⟨rfl, rfl, rfl, rfl, rfl⟩

@[simp] theorem owner?_settle (s : Session) (c : CellId) (run : Nat) (candidate : List NodeId)
    (d : CellId) : (s.settle c run candidate).store.owner? d = s.store.owner? d := by
  unfold settle
  split <;> simp

theorem settle_events (s : Session) (c : CellId) (run : Nat) (candidate : List NodeId) :
    ∃ e, (s.settle c run candidate).events = e :: s.events := by
  unfold settle
  split <;> exact ⟨_, rfl⟩

/-- What has been reported stays reported. -/
theorem Changes.events {s t : Session} (h : s.Changes t) : s.events <:+ t.events := by
  induction h with
  | refl => exact List.suffix_rfl
  | tail _ hc ih =>
    cases hc with
    | adds h =>
      cases h with
      | names _ events _ => exact events ▸ ih
      | report => exact ih.trans (List.suffix_cons _ _)
      | _ => exact ih
    | startRun => exact ih
    | settle run candidate =>
      obtain ⟨e, he⟩ := settle_events _ _ run candidate
      exact ih.trans (he ▸ List.suffix_cons _ _)

theorem Changes.verifies {s t : Session} (h : s.Changes t) : t.verifies = s.verifies := by
  induction h with
  | refl => rfl
  | tail _ hc ih =>
    cases hc with
    | adds h =>
      cases h with
      | names _ _ verifies => exact verifies.trans ih
      | _ => exact ih
    | startRun => exact ih
    | settle => exact (settle_names _ _ _ _).2.1.trans ih

end Session
end BoundTree
