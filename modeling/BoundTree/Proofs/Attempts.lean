import BoundTree.Proofs.Observation
import BoundTree.Proofs.Ownership

/-!
What an attempt to build an operation leaves behind. A rejected operation leaves nothing. One that is built,
and one whose check of links fails, gets the children that had no parent, and nothing else changes. Main
statement: so it is at every moment, and the links to an operation whose check has failed lead nowhere for
good.
-/
namespace BoundTree

namespace Session

variable {s t : Session} {n : NodeId}

/-- The operation is there, and nothing leads to it. -/
structure Forgets (s : Session) (n : NodeId) : Prop where
  there : n < s.store.nodes.size
  unmentioned : ¬s.Mentions n

theorem Forgets.isAlive (h : s.Forgets n) : s.isAlive n = false :=
  Bool.eq_false_iff.mpr fun ha => h.unmentioned (mentions_of_isAlive ha)

/-- A link to what is forgotten is the link to no parent. -/
theorem Forgets.parent? (h : s.Forgets n) {m : NodeId} (hm : s.store.link? m = some n) :
    s.parent? m = none := by
  obtain ⟨node, hnode, hparent⟩ := Option.bind_eq_some_iff.mp hm
  simp [Session.parent?, hnode, hparent, h.isAlive]

/-- The operation is forgotten, and not at hand either. -/
structure Avoids (n : NodeId) (s : Session) (h : Holding) : Prop extends s.Forgets n where
  notMem : n ∉ h.nodes

theorem Avoids.mono {a b : Holding} (hs : s.Avoids n b) (hle : a.Le b) : s.Avoids n a :=
  ⟨hs.toForgets, fun hn => hs.notMem (hle.nodes hn)⟩

theorem Avoids.recall {h : Holding} {ns : List NodeId} (hs : s.Avoids n h)
    (hns : ∀ m ∈ ns, s.Mentions m) : s.Avoids n (h ++ ⟨[], ns⟩) :=
  ⟨hs.toForgets, fun hn => (List.mem_append.mp hn).elim hs.notMem fun hn => hs.unmentioned (hns n hn)⟩

/-- What is in use again avoids the operation, as it did before. -/
theorem Avoids.restore {u : Session} {h : Holding} (hu : u.Avoids n h) (hheld : s.heldNodes ⊆ h.nodes) :
    ({ u with held := s.held } : Session).Avoids n h where
  there := hu.there
  unmentioned hm := by
    cases hm with
    | bound hb => exact hu.unmentioned (.bound hb)
    | held hh => exact hu.notMem (hheld (mem_heldNodes.mpr hh))
    | published hc hn => exact hu.unmentioned (.published hc hn)
    | payload hp hn => exact hu.unmentioned (.payload hp hn)
  notMem := hu.notMem

end Session

namespace Procedure

open Session

variable {α : Type} {pre : Holding} {x : Procedure α} {post : α → Holding}

/-- Nothing comes to lead to the operation. -/
abbrev Misses (n : NodeId) : Holding → Procedure α → (α → Holding) → Prop :=
  Preserves (Avoids n) fun _ => False

/-- A procedure that leads only to what was led to or at hand, and leaves at hand only what was at hand or is
new. -/
theorem misses_of (n : NodeId) (hx : Changing x)
    (hmentions : ∀ {s m}, (x s).2.Mentions m → s.Mentions m ∨ m ∈ pre.nodes)
    (hpost : ∀ {s t a}, x s = (.ok a, t) → ∀ m ∈ (post a).nodes, m ∈ pre.nodes ∨ s.store.nodes.size ≤ m) :
    Misses n pre x post := by
  have hforgets : ∀ {s : Session} {frame : Holding}, s.Avoids n (pre ++ frame) → (x s).2.Forgets n := by
    intro s frame hs
    refine ⟨hs.there.trans_le (Changes.le (hx s)).size_nodes, fun hm => ?_⟩
    exact (hmentions hm).elim hs.unmentioned fun hn => hs.notMem (List.mem_append_left _ hn)
  constructor
  · intro s t frame a hs ht
    have ht' : t.Forgets n := by
      have h := hforgets hs
      rwa [ht] at h
    refine ⟨ht', fun hn => (List.mem_append.mp hn).elim (fun hn => ?_) fun hn =>
      hs.notMem (List.mem_append_right _ hn)⟩
    rcases hpost ht n hn with hn | hn
    · exact hs.notMem (List.mem_append_left _ hn)
    · exact absurd hs.there (Nat.not_lt.mpr hn)
  · intro s t frame f hs ht
    have ht' : t.Forgets n := by
      have h := hforgets hs
      rwa [ht] at h
    exact .inl ⟨ht', fun hn => hs.notMem (List.mem_append_right _ hn)⟩

end Procedure

namespace Session

open Procedure

variable {s : Session} {n : NodeId}

/-- What leaves at hand nothing that was not at hand. -/
theorem misses_of_le (n : NodeId) {α : Type} {pre : Holding} {x : Procedure α} {post : α → Holding}
    (hx : Changing x) (hmentions : ∀ {s m}, (x s).2.Mentions m → s.Mentions m ∨ m ∈ pre.nodes)
    (hpost : ∀ a, (post a).nodes ⊆ pre.nodes) : Misses n pre x post :=
  misses_of n hx hmentions fun _ _ hm => .inl (hpost _ hm)

theorem misses_construct (n : NodeId) (header : Header) (payload : Payload) (cells : List CellId) :
    Misses n ⟨cells, payload.nodes⟩ (construct header payload cells) fun m => ⟨[], [m]⟩ := by
  refine misses_of n ((adding_construct header payload cells).mono fun _ _ => .adds) (fun {s m} hm => ?_)
    fun {s t m} ht k hk => ?_
  · rw [construct_apply] at hm
    split at hm
    · exact .inl (hm.congr rfl rfl rfl)
    · split at hm
      · exact mentions_withOperation hm
      · exact mentions_withOperation (hm.congr rfl rfl rfl)
  · -- the operation that is built is new
    obtain ⟨rfl, -, -, -⟩ := construct_eq_ok ht
    exact .inr (List.mem_singleton.mp hk).ge

theorem misses_readCell {depth : Nat}
    (h : ∀ p run, Misses n {} (produce depth p run) fun ops => ⟨[], ops⟩) (c : CellId) :
    Misses n {} (readCell (depth + 1) c) fun ops => ⟨[], ops⟩ := by
  have hresult : ∀ {s t : Session} {frame : Holding} {r : Except Fault (List NodeId)},
      s.Avoids n ({} ++ frame) → readCell (depth + 1) c s = (r, t) →
        t.Avoids n frame ∧ ∀ ops, r = .ok ops → n ∉ ops := by
    intro s t frame r hs ht
    have hs : s.Avoids n frame := hs
    have hstarted : ∀ p, (s.started c p).Avoids n ({} ++ frame) := fun p =>
      ⟨⟨hs.there.trans_le (s.changes_started c p).le.size_nodes,
        fun hm => hs.unmentioned (mentions_started hm)⟩, hs.notMem⟩
    have hsettled : ∀ {p run candidate u}, produce depth p run (s.started c p) = (.ok candidate, u) →
        (u.settle c run candidate).Avoids n frame := by
      intro p run candidate u hx
      have hu := (h p run).ok (hstarted p) hx
      have hcandidate : n ∉ candidate := fun hn => hu.notMem (List.mem_append_left _ hn)
      exact ⟨⟨hu.there.trans_le (u.le_settle c run candidate).size_nodes,
        fun hm => (mentions_settle hm).elim hu.unmentioned hcandidate⟩,
        fun hn => hu.notMem (List.mem_append_right _ hn)⟩
    cases readsTo_of_readCell ht with
    | missing _ => exact ⟨hs, fun _ hr => nomatch hr⟩
    | published ho =>
      refine ⟨hs, fun ops hr hn => hs.unmentioned ?_⟩
      cases hr
      exact .published ho hn
    | failed _ hx =>
      have hu := ((h _ _).error (hstarted _) hx).resolve_right id
      exact ⟨⟨hu.toForgets, hu.notMem⟩, fun _ hr => nomatch hr⟩
    | settled _ hx _ ho =>
      refine ⟨hsettled hx, fun ops hr hn => (hsettled hx).unmentioned ?_⟩
      cases hr
      exact .published ho hn
    | refused _ hx _ =>
      refine ⟨⟨⟨(hsettled hx).there, fun hm => ?_⟩, (hsettled hx).notMem⟩, fun _ hr => nomatch hr⟩
      exact (hsettled hx).unmentioned (hm.congr rfl rfl rfl)
  constructor
  · intro s t frame ops hs ht
    obtain ⟨hfinal, hops⟩ := hresult hs ht
    exact ⟨hfinal.toForgets, fun hn => (List.mem_append.mp hn).elim (hops ops rfl) hfinal.notMem⟩
  · intro s t frame f hs ht
    have hfinal := (hresult hs ht).1
    exact .inl ⟨hfinal.toForgets, hfinal.notMem⟩

/-- What nothing leads to, nothing leads to after any step. -/
theorem misses_logic (n : NodeId) : StepLogic (Misses n) where
  pure := .pure fun hs hle => hs.mono hle
  fail f := .fail (fun hs hle => hs.mono hle) f
  bind hx hf := hx.bind hf
  frame hx kept := hx.frame (fun hs hle => hs.mono hle) kept
  weaken hx hpre hpost := hx.weaken (fun hs hle => hs.mono hle) hpre hpost
  recalling ns hn _ hf := .recalling (fun hs hle => hs.mono hle) (fun hs hns => hs.recall hns) ns hn hf
  releasing hx := hx.releasing (fun hs hle => hs.mono hle) (fun hs hns => hs.recall hns)
    (fun hu hheld => hu.restore hheld) id
  hold m := misses_of_le n ((Adding.hold _).mono fun _ _ => .adds)
    (fun hm => (mentions_hold hm).imp_right List.mem_singleton.mpr) fun _ => List.Subset.refl _
  bindName id m := misses_of_le n ((adding_bind id m).mono fun _ _ => .adds)
    (fun hm => (mentions_bind hm).imp_right List.mem_singleton.mpr) fun _ => List.Subset.refl _
  intern name := misses_of_le n ((adding_intern name).mono fun _ _ => .adds)
    (fun hm => .inl (hm.congr rfl rfl rfl)) fun _ => List.Subset.refl _
  newCell arity content hnew := misses_of_le n ((adding_newCell arity hnew).mono fun _ _ => .adds)
    mentions_newCell fun _ => List.nil_subset _
  takeSlot arity name := misses_of_le n ((adding_takeSlot arity name).mono fun _ _ => .adds)
    (fun hm => .inl (mentions_takeSlot hm)) fun _ => List.nil_subset _
  construct := misses_construct n
  producing hx := .mapFault _ hx
  readCell _ c h := misses_readCell h c
  warn count root := misses_of_le n (changing_logic.warn count root)
    (fun hm => .inl (hm.congr rfl rfl rfl)) fun _ => List.Subset.refl _
  holdCell c := misses_of_le n (changing_logic.holdCell c)
    (fun hm => .inl (hm.of_subset rfl (List.Subset.refl _) (by simp))) fun _ => List.Subset.refl _
  dropName id := misses_of_le n (changing_logic.dropName id)
    (fun hm => .inl (hm.of_subset rfl (List.filter_subset_self _) fun _ h => h)) fun _ => List.Subset.refl _
  nameSlot name c := misses_of_le n (changing_logic.nameSlot name c)
    (fun hm => .inl (hm.of_subset rfl (List.Subset.refl _) fun _ h => h)) fun _ => List.Subset.refl _

theorem Forgets.step (h : s.Forgets n) (e : Step) : (s.step e).session.Forgets n := by
  have hs : s.Avoids n ({} ++ {}) := ⟨h, List.not_mem_nil⟩
  have hstep : (s.step e).session = (perform e s).2 := rfl
  rw [hstep]
  rcases hx : perform e s with ⟨f | a, t⟩
  · exact (((misses_logic n).perform e).error hs hx).resolve_right id |>.toForgets
  · exact (((misses_logic n).perform e).ok hs hx).toForgets

/-- What nothing leads to is out of reach for good. -/
theorem Forgets.after (h : s.Forgets n) (steps : List Step) : (s.after steps).Forgets n := by
  induction steps generalizing s with
  | nil => exact h
  | cons e steps ih => exact ih (h.step e)

/-! What an attempt leaves behind. -/

variable {header : Header} {payload : Payload} {cells : List CellId}

/-- What the child slots of a payload hold already. -/
def offered (s : Session) (payload : Payload) (cells : List CellId) : List NodeId :=
  s.store.heldIn .attached ((payload.shape.slots.map (·.linkage)).zip cells)

/-- The operation has been added. What its child slots held already is linked to it if it had no link, and
nothing else has happened to what was there: not to values apart from children, not to what a producer has
yet to make, not to what the attributes refer to. -/
structure Installs (s : Session) (header : Header) (payload : Payload) (cells : List CellId) (n : NodeId)
    (t : Session) : Prop where
  new : s.store.node? n = none
  added : ∃ parent, t.store.node? n = some ⟨header, payload, cells, parent⟩
  child : ∀ {m node}, s.store.node? m = some node → m ∈ s.offered payload cells →
    t.store.node? m = some { node with parent := node.parent <|> some n }
  other : ∀ {m}, m ≠ n → m ∉ s.offered payload cells → t.store.node? m = s.store.node? m
  content : ∀ c, t.store.content? c = s.store.content? c
  owner : ∀ c, c ∉ cells → t.store.owner? c = s.store.owner? c
  rest : t = { s with store := t.store, events := t.events }

/-- Nothing leads to the operation from then on, whatever steps are taken and whatever is in use but the
operation itself: the links to it stay, and lead to no parent. -/
def Lost (t : Session) (n : NodeId) : Prop :=
  ∀ held steps, Holder.node n ∉ held → (({ t with held } : Session).after steps).isAlive n = false ∧
    ∀ m, t.store.link? m = some n →
      (({ t with held } : Session).after steps).store.link? m = some n ∧
        (({ t with held } : Session).after steps).parent? m = none

/-- What an attempt to build an operation may come to, and the session after it. -/
def Attempted (s : Session) (header : Header) (payload : Payload) (cells : List CellId) :
    Except Fault NodeId × Session → Prop
  -- a rejection is reported, and any other operation can be built as before
  | (.error (.rejected e), t) => payload.error? header = some e ∧
      t = { s with events := .rejected payload.kind e :: s.events } ∧
      ∀ header' payload' cells', ∃ r, ∃ u : Session, ∃ reports : List Event,
        construct header' payload' cells' s = (r, { u with events := reports ++ s.events }) ∧
          construct header' payload' cells' t = (r, { u with events := reports ++ t.events })
  | (.ok n, t) => payload.error? header = none ∧ s.Installs header payload cells n t ∧
      t.events = s.events
  | (.error (.panicked (.brokenLink v)), t) => payload.error? header = none ∧ s.verifies = true ∧
      t.events = .linkViolated .construction v :: s.events ∧
      ∃ n, s.Installs header payload cells n t ∧ t.Lost n
  | _ => False

theorem installs_withOperation (s : Session) (header : Header) (payload : Payload) (cells : List CellId)
    (events : List Event) : s.Installs header payload cells s.store.nodes.size
      { s.withOperation header payload cells with events } := by
  have hnode := s.store.node?_addOperation header payload cells
  refine ⟨by simp [Store.node?], ?_, ?_, ?_, s.store.content?_addOperation header payload cells, ?_, rfl⟩
  · have hnew := hnode s.store.nodes.size
    rw [if_pos rfl, Option.map_some] at hnew
    refine Exists.imp (fun parent h => hnew.trans h) ?_
    split <;> exact ⟨_, rfl⟩
  · intro m node hm hin
    refine (hnode m).trans ?_
    rw [if_neg (Store.node?_lt hm).ne, hm, Option.map_some]
    exact congrArg some (if_pos hin)
  · intro m hm hin
    refine (hnode m).trans ?_
    rw [if_neg hm]
    cases s.store.node? m with
    | none => rfl
    | some node => exact congrArg some (if_neg hin)
  · intro c hc
    refine Store.owner?_installAll_of_notMem fun hmem => hc ?_
    exact (Node.linkedCells_sublist ⟨header, payload, cells, none⟩).subset hmem

/-- Nothing leads to a new operation yet, but for what holds it. -/
theorem forgets_withOperation (header : Header) (hs : s.Present) (hpre : s.Has ⟨cells, payload.nodes⟩)
    {held : List Holder} (hheld : Holder.node s.store.nodes.size ∉ held) (events : List Event) :
    ({ s.withOperation header payload cells with events, held } : Session).Forgets s.store.nodes.size where
  there := (Nat.lt_succ_self _).trans_eq (s.store.size_addOperation header payload cells).symm
  unmentioned hm := by
    have hold : s.Mentions s.store.nodes.size ∨ s.store.nodes.size ∈ payload.nodes := by
      cases hm with
      | bound hb => exact .inl (.bound hb)
      | held hh => exact absurd hh hheld
      | published ho hn => exact mentions_withOperation (.published ho hn)
      | payload hp hn => exact mentions_withOperation (.payload hp hn)
    exact hold.elim (fun h => lt_irrefl _ (hs.node h)) fun h => lt_irrefl _ (hpre.node _ h)

theorem Changes.after (s : Session) (steps : List Step) : s.Changes (s.after steps) := by
  induction steps generalizing s with
  | nil => exact .refl
  | cons e steps ih => exact (s.changes_step e).trans (ih _)

theorem lost_withOperation (hs : s.Present) (hpre : s.Has ⟨cells, payload.nodes⟩) (events : List Event) :
    ({ s.withOperation header payload cells with events } : Session).Lost s.store.nodes.size := by
  intro held steps hheld
  have hforgets := (forgets_withOperation header hs hpre hheld events).after steps
  refine ⟨hforgets.isAlive, fun m hm => ?_⟩
  have hlink := (Changes.le (Changes.after { s.withOperation header payload cells with events, held }
    steps)).link? hm
  exact ⟨hlink, hforgets.parent? hlink⟩

/-- An attempt does not depend on what has been reported. -/
theorem construct_of_events (s : Session) (e : Event) (header : Header) (payload : Payload)
    (cells : List CellId) : ∃ r, ∃ u : Session, ∃ reports : List Event,
      construct header payload cells s = (r, { u with events := reports ++ s.events }) ∧
        construct header payload cells { s with events := e :: s.events } =
          (r, { u with events := reports ++ e :: s.events }) := by
  have hviolation : ({ s with events := e :: s.events } : Session).constructionViolation? header payload
      cells = s.constructionViolation? header payload cells := rfl
  rw [construct_apply, construct_apply, hviolation]
  cases payload.error? header with
  | some error => exact ⟨_, s, [.rejected payload.kind error], rfl, rfl⟩
  | none =>
    cases s.constructionViolation? header payload cells with
    | none => exact ⟨_, s.withOperation header payload cells, [], rfl, rfl⟩
    | some v =>
      exact ⟨_, s.withOperation header payload cells, [.linkViolated .construction v], rfl, rfl⟩

/-- At every moment, where whatever is referred to is there: a rejected operation leaves nothing behind but a
report; one that is built runs no producer and gets the children without a link that its slots hold already,
and no other operation changes; and one whose check fails leaves the same links, which lead nowhere for
good. -/
theorem construct_effect (hs : s.Present) (hpre : s.Has ⟨cells, payload.nodes⟩) (header : Header) :
    s.Attempted header payload cells (construct header payload cells s) := by
  rw [construct_apply]
  cases herror : payload.error? header with
  | some e => exact ⟨herror, rfl, construct_of_events s _⟩
  | none =>
    cases hviolation : s.constructionViolation? header payload cells with
    | none => exact ⟨herror, s.installs_withOperation header payload cells s.events, rfl⟩
    | some v =>
      refine ⟨herror, ?_, rfl, s.store.nodes.size, s.installs_withOperation header payload cells _,
        lost_withOperation hs hpre _⟩
      -- without the checks there is no violation
      by_contra hv
      have hunchecked : s.verifies = false := Bool.eq_false_iff.mpr hv
      simp [constructionViolation?, hunchecked] at hviolation

/-- A statement is in a slot for the body of a switch case, and in one for its condition. -/
def slotTwice : List Step :=
  [.build (emptyStatement (some "x")), .makeSlot "clauses" .many (.filled []),
    .makeSlot "body" .many (.filled [.named "x"]), .makeSlot "condition" .optional (.filled [.named "x"])]

/-- The check stops the switch case that takes both. -/
theorem construct_effect_slotTwice : ∃ header payload t,
    ((start true).after slotTwice).Present ∧
      ((start true).after slotTwice).Has ⟨[0, 1, 2], payload.nodes⟩ ∧
      construct header payload [0, 1, 2] ((start true).after slotTwice) =
        (.error (.panicked (.brokenLink (.unexpectedParent .empty .switchCase))), t) ∧
      ((start true).after slotTwice).Attempted header payload [0, 1, 2]
        (.error (.panicked (.brokenLink (.unexpectedParent .empty .switchCase))), t) := by
  let header : Header := { locus := ⟨⟨0⟩, Span.make 0 0⟩ }
  let payload : Payload := ⟨.switchCase, none, [("locals", .handles .localVar [])], rfl⟩
  have hs : ((start true).after slotTwice).Present := ((Reached.start : Reached true _).after _).present
  have hpre : ((start true).after slotTwice).Has ⟨[0, 1, 2], payload.nodes⟩ :=
    ⟨by decide, fun n hn => nomatch hn⟩
  have herror : payload.error? header = none := by decide
  have hviolation : ((start true).after slotTwice).constructionViolation? header payload [0, 1, 2] =
      some (.unexpectedParent .empty .switchCase) := by decide
  have hresult := construct_apply header payload [0, 1, 2] ((start true).after slotTwice)
  rw [herror, hviolation] at hresult
  have heffect := construct_effect hs hpre header
  rw [hresult] at heffect
  exact ⟨header, payload, _, hs, hpre, hresult, heffect⟩

end Session
end BoundTree
