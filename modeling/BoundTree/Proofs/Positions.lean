import BoundTree.Proofs.Erasure

/-!
Where operations come from and whether they are implicit changes nothing but how they are shown. Main
statement: runs of the same steps with headers that differ in nothing else come to the same in every step,
and dumps differ line by line in the operations' places and marks only.
-/
namespace BoundTree

namespace Procedure

open Session

variable {α β γ δ : Type}

/-- Both fail, and alike, or come to results that are related. -/
inductive Results (R : α → β → Prop) : Except Fault α → Except Fault β → Prop
  | ok {a : α} {b : β} (h : R a b) : Results R (.ok a) (.ok b)
  | error (f : Fault) : Results R (.error f) (.error f)

theorem Results.mono {R R' : α → β → Prop} {r : Except Fault α} {r' : Except Fault β}
    (h : Results R r r') (hR : ∀ a b, R a b → R' a b) : Results R' r r' := by
  cases h with
  | ok hab => exact .ok (hR _ _ hab)
  | error f => exact .error f

/-- In sessions of which the same is left both come to the same, and the same is left of the sessions. -/
def Agrees (R : α → β → Prop) (x : Procedure α) (y : Procedure β) : Prop :=
  ∀ s t : Session, s.bare = t.bare → Results R (x s).1 (y t).1 ∧ (x s).2.bare = (y t).2.bare

namespace Agrees

variable {R : α → β → Prop} {Q : γ → δ → Prop} {x : Procedure α} {y : Procedure β}

theorem pure {a : α} {b : β} (h : R a b) : Agrees R (Pure.pure a) (Pure.pure b) :=
  fun _ _ hs => ⟨.ok h, hs⟩

theorem fail (f : Fault) : Agrees R (Procedure.fail f) (Procedure.fail f) :=
  fun _ _ hs => ⟨.error f, hs⟩

theorem bind {f : α → Procedure γ} {f' : β → Procedure δ} (hx : Agrees R x y)
    (hf : ∀ a b, R a b → Agrees Q (f a) (f' b)) : Agrees Q (x >>= f) (y >>= f') := by
  intro s t hs
  obtain ⟨hresult, hleft⟩ := hx s t hs
  rw [bind_apply, bind_apply]
  rcases hxs : x s with ⟨r, s'⟩
  rcases hyt : y t with ⟨r', t'⟩
  rw [hxs, hyt] at hresult hleft
  dsimp only at hresult hleft
  cases hresult with
  | ok h => exact hf _ _ h s' t' hleft
  | error f => exact ⟨.error f, hleft⟩

theorem reading {f : Session → Procedure α} {f' : Session → Procedure β}
    (hf : ∀ s t : Session, s.bare = t.bare → Agrees R (f s) (f' t)) :
    Agrees R (read >>= f) (read >>= f') := fun s t hs => hf s t hs s t hs

theorem mono {R' : α → β → Prop} (hx : Agrees R x y) (h : ∀ a b, R a b → R' a b) : Agrees R' x y :=
  fun s t hs => ⟨(hx s t hs).1.mono h, (hx s t hs).2⟩

theorem releasing (hx : Agrees R x y) :
    Agrees R (Procedure.releasing x) (Procedure.releasing y) := by
  intro s t hs
  obtain ⟨hresult, hleft⟩ := hx s t hs
  have hheld : s.bare.held = t.bare.held := congrArg Session.held hs
  rw [releasing_apply, releasing_apply]
  exact ⟨hresult, congrArg₂ (fun u held => { u with held }) hleft hheld⟩

/-- What erases to the same agrees. -/
theorem of_erases {g : α → γ} {k : β → γ} {z : Procedure γ} (hx : Erases g x z) (hy : Erases k y z) :
    Agrees (fun a b => g a = k b) x y := by
  intro s t hs
  have hsame := (hx s).symm.trans ((congrArg z hs).trans (hy t))
  obtain ⟨hresult, hleft⟩ := Prod.mk.inj hsame
  refine ⟨?_, hleft⟩
  rcases hrx : (x s).1 with f | a <;> rcases hry : (y t).1 with f' | b <;> rw [hrx, hry] at hresult
  · cases hresult
    exact .error f
  · cases hresult
  · cases hresult
  · exact .ok (Except.ok.inj hresult)

theorem of_blind {x : Procedure α} (hx : Blind x) : Agrees Eq x x := of_erases hx hx

theorem mapM {f : γ → Procedure α} {f' : γ → Procedure β} (hf : ∀ c, Agrees R (f c) (f' c))
    (l : List γ) : Agrees (List.Forall₂ R) (l.mapM f) (l.mapM f') := by
  induction l with
  | nil => exact pure .nil
  | cons c l ih =>
    rw [List.mapM_cons, List.mapM_cons]
    exact (hf c).bind fun _ _ h => ih.bind fun _ _ hs => pure (.cons h hs)

/-- The operation at a place. -/
theorem node? {n : NodeId} {f f' : Node → Procedure α} {R : α → α → Prop}
    (hf : ∀ node node', node.bare = node'.bare → Agrees R (f node) (f' node')) :
    Agrees R (read >>= fun s => Procedure.ofOption .unknown (s.store.node? n) >>= f)
      (read >>= fun s => Procedure.ofOption .unknown (s.store.node? n) >>= f') := by
  refine reading fun s t hs => ?_
  have hnode : (s.store.node? n).map Node.bare = (t.store.node? n).map Node.bare := by
    rw [← Store.node?_bare, ← Store.node?_bare]
    exact congrArg (fun u : Session => u.store.node? n) hs
  cases hn : s.store.node? n with
  | none =>
    rw [hn, Option.map_none, eq_comm, Option.map_eq_none_iff] at hnode
    rw [hnode]
    exact fail _
  | some node =>
    rw [hn, Option.map_some, eq_comm, Option.map_eq_some_iff] at hnode
    obtain ⟨node', hn', hbare⟩ := hnode
    rw [hn']
    exact hf node node' hbare.symm

end Agrees
end Procedure

namespace Session

open Procedure

/-! What is read off a session. -/

theorem parent?_congr {s t : Session} (h : s.bare = t.bare) (n : NodeId) : s.parent? n = t.parent? n := by
  rw [← parent?_bare, h, parent?_bare]

theorem ancestors?_congr {s t : Session} (h : s.bare = t.bare) (n : NodeId) :
    s.ancestors? n = t.ancestors? n := by
  rw [← ancestors?_bare, h, ancestors?_bare]

theorem cellText_congr {s t : Session} (h : s.bare = t.bare) (c : CellId) :
    s.cellText c = t.cellText c := by
  rw [← cellText_bare, h, cellText_bare]

theorem published?_congr {s t : Session} (h : s.bare = t.bare) (c : CellId) :
    s.store.published? c = t.store.published? c := by
  rw [← Store.published?_bare, ← store_bare, h, store_bare, Store.published?_bare]

/-! Dumps. -/

/-- Lines that show the same, but for where an operation comes from and whether it is implicit. -/
inductive Line.Alike : Line → Line → Prop
  | operation (level : Nat) {node node' : Node} (h : node.bare = node'.bare) :
    Line.Alike ⟨level, nodeText node⟩ ⟨level, nodeText node'⟩
  | slot (level : Nat) (name : String) (isEmpty : Bool) :
    Line.Alike ⟨level, slotText name isEmpty⟩ ⟨level, slotText name isEmpty⟩

theorem agrees_dumpSlots {visit : NodeId → Nat → Procedure (List Line)}
    (hvisit : ∀ n level, Agrees (List.Forall₂ Line.Alike) (visit n level) (visit n level)) (level : Nat)
    (cells : List (String × CellId)) :
    Agrees (List.Forall₂ Line.Alike) (dumpSlots visit level cells) (dumpSlots visit level cells) := by
  induction cells with
  | nil => exact .pure .nil
  | cons c cells ih =>
    refine (Agrees.of_blind (blind_operations c.2)).bind ?_
    rintro ops _ rfl
    refine (Agrees.mapM (fun n => hvisit n (level + 1)) ops).bind fun below below' hbelow => ?_
    exact ih.bind fun _ _ hrest =>
      .pure (.cons (.slot level c.1 ops.isEmpty) (List.rel_append (List.rel_flatten hbelow) hrest))

theorem agrees_dumpLines (n : NodeId) :
    Agrees (List.Forall₂ Line.Alike) (dumpLines n) (dumpLines n) := by
  have hwithin : ∀ depth n level, Agrees (List.Forall₂ Line.Alike) (dumping.acceptWithin depth n level)
      (dumping.acceptWithin depth n level) := by
    intro depth
    induction depth with
    | zero => exact fun _ _ => .fail _
    | succ depth ih =>
      refine fun n level => .node? fun node node' h => ?_
      refine (Agrees.of_blind (blind_browses.namedChildCells n)).bind ?_
      rintro cells _ rfl
      exact (agrees_dumpSlots ih (level + 1) cells).bind fun _ _ hbelow =>
        .pure (.cons (.operation level h) hbelow)
  refine .reading fun s t hs => ?_
  have hbudget : s.store.budget = t.store.budget := by
    simpa using congrArg (fun u : Session => u.store.budget) hs
  rw [hbudget]
  exact hwithin _ n 0

/-! Questions. -/

/-- Replies that say the same, but for where operations come from and whether they are implicit. -/
inductive Query.Alike : Query → Reply → Reply → Prop
  | info {node node' : Node} (h : node.bare = node'.bare) (parent : Option NodeId) :
    Query.Alike .info (.info node parent) (.info node' parent)
  | payload {p p' : Payload} (h : p.bare = p'.bare) (slots : List String) :
    Query.Alike .payload (.text (p.debug slots)) (.text (p'.debug slots))
  | dump {ls ls' : List Line} (h : List.Forall₂ Line.Alike ls ls') :
    Query.Alike .dump (.text (String.join (ls.map Line.render)))
      (.text (String.join (ls'.map Line.render)))
  | other {q : Query} (h : q ∉ [.info, .payload, .dump]) (r : Reply) : Query.Alike q r r

theorem particulars_bare (node : Node) : particulars node.bare = particulars node := by
  unfold particulars
  rw [Node.shape_bare, Node.kind_bare, Node.payload_bare, Payload.function?_bare, Payload.attribute?_bare]
  split
  · rfl
  · rfl
  · rcases node.payload.function? "original" with _ | f
    · rfl
    · rcases node.payload.attribute? "context" with _ | v
      · rfl
      · cases v with
        | handle c h => cases c <;> rfl
        | _ => rfl
  · rfl

theorem answer_bare (n : NodeId) (node : Node) {q : Query} (hq : q ∉ [.info, .payload, .dump]) :
    answer n node.bare q = answer n node q := by
  cases q with
  | info => simp at hq
  | payload => simp at hq
  | dump => simp at hq
  | particulars => simp only [answer, particulars_bare]
  | descendants withSelf limit => cases withSelf <;> rfl
  | _ => rfl

/-- A question is answered alike of operations that differ in nothing but where they come from. -/
theorem agrees_answer (n : NodeId) {node node' : Node} (h : node.bare = node'.bare) (q : Query) :
    Agrees q.Alike (answer n node q) (answer n node' q) := by
  have hother : q ∉ [.info, .payload, .dump] → Agrees q.Alike (answer n node q) (answer n node' q) := by
    intro hq
    have hblind : Blind (answer n node' q) :=
      blind_browses.answer n node' q fun hdump => absurd hdump (by rintro rfl; simp at hq)
    rw [← answer_bare n node hq, h, answer_bare n node' hq]
    refine (Agrees.of_blind hblind).mono ?_
    rintro r _ rfl
    exact .other hq r
  cases q with
  | info =>
    refine .reading fun s t hs => .pure ?_
    rw [parent?_congr hs]
    exact .info h _
  | payload =>
    refine .reading fun s t hs => .pure ?_
    have htexts : node.cells.map s.cellText = node'.cells.map t.cellText := by
      have hcells : node.cells = node'.cells := congrArg (·.cells) h
      rw [hcells]
      exact List.map_congr_left fun c _ => cellText_congr hs c
    rw [payloadText, payloadText, htexts]
    exact .payload (congrArg (·.payload) h) _
  | dump =>
    have hdump : Agrees (fun x x' => Query.Alike .dump (.text x) (.text x')) (dump n) (dump n) :=
      (agrees_dumpLines n).bind fun _ _ hlines => .pure (.dump hlines)
    exact hdump.bind fun _ _ htext => .pure htext
  | _ => exact hother (by simp)

theorem agrees_ask (id : String) (q : Query) : Agrees q.Alike (ask id q) (ask id q) := by
  refine .reading fun s t hs => ?_
  have hnamed : s.bare.node? id = t.bare.node? id := congrArg (·.node? id) hs
  change Agrees _ (Procedure.ofOption _ (s.bare.node? id) >>= _) _
  rw [hnamed]
  refine (Agrees.of_blind (blind_ofOption _ _)).bind ?_
  rintro n _ rfl
  exact .releasing ((Agrees.of_blind (blind_hold _)).bind fun _ _ _ =>
    .node? fun node node' h => agrees_answer n h q)

theorem blind_built (n : NodeId) : Blind (built n) := by
  refine .reading fun s => ?_
  rw [store_bare, Store.node?_bare]
  exact (Erases.ofOption Node.bare _ _).bind fun node => .pure id _

end Session

/-! Steps. -/

namespace Step

/-- What only asks about an operation, or about headers. -/
def isQuestion : Step → Bool
  | .ask .. => true
  | .sameHeader .. => true
  | _ => false

theorem isQuestion_bare (e : Step) : e.bare.isQuestion = e.isQuestion := by cases e <;> rfl

/-- Answers that say the same, but for where operations come from and whether they are implicit. Headers
that are compared are compared as they are given. -/
inductive Alike : Step → Answer → Answer → Prop
  | ask (id : String) {q : Session.Query} {r r' : Session.Reply} (h : q.Alike r r') :
    Alike (.ask id q) (.reply r) (.reply r')
  | sameHeader {a a' b b' : Header} (ha : a.bare = a'.bare) (hb : b.bare = b'.bare) :
    Alike (.sameHeader a b) (.reply (.truth (a.valueEq b))) (.reply (.truth (a'.valueEq b')))
  | other {e : Step} (h : e.isQuestion = false) (a : Answer) : Alike e a a

end Step

namespace Session

open Procedure

theorem erases_perform {e : Step} (he : e.isQuestion = false) :
    Erases id (perform e) (perform e.bare) := by
  cases e with
  | ask id q => cases he
  | sameHeader a b => cases he
  | build e => exact (erases_evalNode e).bind fun n => blind_built n
  | flow g id e =>
    exact (erases_evalFlow g e).bind fun n => (blind_bindName id n).bind fun _ => blind_built n
  | calls => exact .reading fun s => .pure id _
  | drop name =>
    have hdrop : Blind (modify fun s => { s with bindings := remove s.bindings name }) :=
      .modify fun _ => rfl
    exact .reading fun s => (blind_ofOption _ _).bind fun _ => hdrop.bind fun _ => .pure id _
  | makeSlot name arity e =>
    have hslot : ∀ c, Blind (modify fun s => { s with slots := (name, c) :: remove s.slots name }) :=
      fun c => .modify fun _ => rfl
    exact (Erases.releasing ((erases_evalSlot arity e).bind hslot)).bind fun _ => .pure id _
  | readSlot name =>
    exact .reading fun s => (blind_ofOption _ _).bind fun c => .releasing ((blind_hold _).bind fun _ =>
      (blind_operations c).bind fun ops => .pure id _)
  | slotState name =>
    refine .reading fun s => (blind_ofOption _ _).bind fun c => ?_
    rw [store_bare, Store.cell?_bare]
    refine (Erases.ofOption Cell.bare _ _).bind fun cell => ?_
    simp only [Cell.bare, Content.isDeferred_bare, Content.published?_bare, cellText_bare]
    exact .pure id _
  | symbol name => exact .reading fun s => .pure id _
  | malformed => exact .fail id _

theorem agrees_perform {e e' : Step} (h : e.bare = e'.bare) :
    Agrees e.Alike (perform e) (perform e') := by
  have hquestion : e'.isQuestion = e.isQuestion := by
    rw [← e'.isQuestion_bare, ← h, e.isQuestion_bare]
  cases he : e.isQuestion with
  | false =>
    have herases := erases_perform (hquestion.trans he)
    rw [← h] at herases
    refine (Agrees.of_erases (erases_perform he) herases).mono ?_
    rintro a _ rfl
    exact .other he a
  | true =>
    rw [he] at hquestion
    cases e with
    | ask id q =>
      cases e' <;> cases h
      exact (agrees_ask id q).bind fun _ _ hr => .pure (.ask id hr)
    | sameHeader a b =>
      cases e' <;> simp only [Step.bare, reduceCtorEq, Step.sameHeader.injEq] at h
      exact .pure (.sameHeader h.1 h.2)
    | _ => cases he

/-! Runs. -/

/-- The step came to the same in both runs, and only places and marks differ in what is left. -/
structure Outcome.Alike (e : Step) (o o' : Outcome) : Prop where
  answer : Results e.Alike o.answer o'.answer
  events : o.events = o'.events
  parents : ∀ n, o.session.parent? n = o'.session.parent? n
  ancestors : ∀ n, o.session.ancestors? n = o'.session.ancestors? n
  published : ∀ c, o.session.store.published? c = o'.session.store.published? c
  /-- Producers ran as often. -/
  counters : o.session.counters = o'.session.counters
  left : o.session.bare = o'.session.bare

theorem alike_step {s t : Session} (hs : s.bare = t.bare) {e e' : Step} (h : e.bare = e'.bare) :
    (s.step e).Alike e (t.step e') := by
  obtain ⟨hanswer, hleft⟩ := agrees_perform h s t hs
  have hbefore : s.bare.events = t.bare.events := congrArg _ hs
  have hafter : (perform e s).2.bare.events = (perform e' t).2.bare.events := congrArg _ hleft
  refine ⟨hanswer, ?_, fun n => ?_, fun n => ?_, fun c => ?_, congrArg (fun u => u.counters) hleft, hleft⟩
  · exact congrArg₂ (fun after before : List Event =>
      (after.take (after.length - before.length)).reverse) hafter hbefore
  · exact parent?_congr hleft n
  · exact ancestors?_congr hleft n
  · exact published?_congr hleft c

theorem alike_run {s t : Session} (hs : s.bare = t.bare) {steps steps' : List Step}
    (h : steps.map Step.bare = steps'.map Step.bare) :
    List.Forall₂ (fun x o' => x.2.Alike x.1 o') (steps.zip (s.run steps)) (t.run steps') := by
  induction steps generalizing s t steps' with
  | nil =>
    cases steps' with
    | nil => exact .nil
    | cons => cases h
  | cons e steps ih =>
    cases steps' with
    | nil => cases h
    | cons e' steps' =>
      obtain ⟨he, hrest⟩ := List.cons.inj h
      have hstep := alike_step hs he
      exact .cons hstep (ih hstep.left hrest)

/-- Steps are taken twice, with headers that differ in nothing but where operations come from and whether
they are implicit, also those that producers build with. Every step comes to the same: it fails alike, or
its answer is the same but for places and marks that are shown; and the same happens on the way. -/
theorem positions_immaterial (verifies : Bool) {steps steps' : List Step}
    (h : steps.map Step.bare = steps'.map Step.bare) :
    List.Forall₂ (fun x o' => x.2.Alike x.1 o') (steps.zip ((start verifies).run steps))
      ((start verifies).run steps') :=
  alike_run rfl h

/-- A block with a statement that is produced, and a flow node. -/
def placed (place : UInt32) (isImplicit : Bool) : List Step :=
  let header : Header := { locus := ⟨⟨0⟩, Span.make place place⟩, isImplicit }
  let leaf : NodeExpr := .build (.mk none header .empty none [] [])
  [.build (.build (.mk (some "b") header .block none [.deferred (.mk (some "p") none [leaf] [])]
      [.value (.handles .localVar [])])),
    .flow ⟨⟨0⟩⟩ (some "c") (.capture ⟨0⟩ leaf), .ask "b" .dump, .ask "c" .info, .calls]

theorem positions_immaterial_placed : (placed 1 false).map Step.bare = (placed 2 true).map Step.bare ∧
    ((start true).run (placed 1 false)).all (·.answer.isOk) ∧
    List.Forall₂ (fun x o' => x.2.Alike x.1 o')
      ((placed 1 false).zip ((start true).run (placed 1 false))) ((start true).run (placed 2 true)) := by
  have hbare : (placed 1 false).map Step.bare = (placed 2 true).map Step.bare := rfl
  exact ⟨hbare, by decide +kernel, positions_immaterial true hbare⟩

end Session
end BoundTree
