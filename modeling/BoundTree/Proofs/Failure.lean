import BoundTree.Proofs.Earlier
import BoundTree.Proofs.Remains

/-!
What becomes of a slot after a read that failed. If its values could not be made, they cannot be made later
either, as long as no name that they use is bound to something new. If they were made and published over a
wrong link, they stay, and later reads return them. Main statement: every failed read is of one of the two
kinds, and stays so.
-/
namespace BoundTree.Session

open Procedure

variable {us : List Use} {s t u v w : Session} {c : CellId} {p : Producer} {es : List NodeExpr}
  {r : Except Fault (List NodeId) × Session}

/-! Slots that make the same values in every run. -/

/-- Every run of the producer of the slot evaluates these values, and does nothing before. -/
structure Makes (s : Session) (c : CellId) (p : Producer) (es : List NodeExpr) : Prop where
  content : ∃ runs finished published, s.store.content? c = some (.deferred p runs finished published)
  alone : p.reenter = none
  value : ∀ run, p.valueOf run = es

theorem Makes.le (h : s.Makes c p es) (hle : s.store.Le t.store) : t.Makes c p es := by
  obtain ⟨runs, finished, published, hcontent⟩ := h.content
  obtain ⟨runs', finished', published', hcontent', -⟩ := hle.deferred hcontent
  exact ⟨⟨runs', finished', published', hcontent'⟩, h.alone, h.value⟩

theorem Makes.produce (h : s.Makes c p es) (depth run : Nat) (u : Session) :
    produce depth p run u =
      ((evalNodes es u).1.mapError producerFault, { (evalNodes es u).2 with held := u.held }) := by
  unfold Session.produce
  rw [mapFault_apply, releasing_apply, bind_ok (prepare_eq (fun _ => h.alone) u), h.value]

/-- A read of such a slot, while it waits, is a run. -/
theorem Makes.isRead (h : s.Makes c p es) (hnone : s.store.published? c = none) (hr : s.IsRead c r) :
    ∃ depth run, r = (Session.produce depth p run >>= fun candidate =>
      finishRun c run >>= fun _ => offer c run candidate) (s.started c p) := by
  obtain ⟨runs, finished, published, hcontent⟩ := h.content
  obtain rfl : published = none := by
    rw [Store.published?_eq_content?, hcontent] at hnone
    exact hnone
  obtain ⟨cell, hc, hd⟩ := Option.map_eq_some_iff.mp hcontent
  obtain ⟨depth, rfl⟩ : ∃ depth, r = readCell (depth + 1) c s := by
    rcases hr with rfl | hr
    · exact ⟨_, operations_unpublished hnone⟩
    · exact hr
  exact ⟨depth, runs + 1, readCell_deferred hc hd depth⟩

/-- While the values are made, the slot waits on. -/
theorem Makes.made (h : s.Makes c p es) (hnone : s.store.published? c = none)
    {x : Except Fault (List NodeId)} (heval : evalNodes es (s.started c p) = (x, t)) :
    (s.started c p).Changes { t with held := s.held } ∧ t.store.published? c = none ∧
      ∃ cell, t.store.cell? c = some cell := by
  have hadds := additions_of_evalNodes heval
  have hrest : t.Changes { t with held := s.held } := Changes.names rfl rfl rfl
  obtain ⟨_, _, _, hcontent⟩ := h.content
  obtain ⟨cell, hcell, -⟩ := Option.map_eq_some_iff.mp hcontent
  obtain ⟨cell', hcell', -⟩ := (s.changes_started c p).le.cell hcell
  obtain ⟨cell'', hcell'', -⟩ := hadds.grows.toLe.cell hcell'
  refine ⟨hadds.changes.trans hrest, ?_, cell'', hcell''⟩
  rw [hadds.grows.published? (Option.isSome_of_mem hcell'), started_store,
    Store.published?_modifyContent_of (by simp), hnone]

/-- A read comes to the values of its run, or to their fault. -/
theorem Makes.isRead_eq (h : s.Makes c p es) (hnone : s.store.published? c = none)
    (hr : s.IsRead c r) {x : Except Fault (List NodeId)}
    (heval : evalNodes es (s.started c p) = (x, t)) :
    ∃ run, r = match x with
      | .error f => (.error (producerFault f), { t with held := s.held })
      | .ok ops => (finishRun c run >>= fun _ => offer c run ops) { t with held := s.held } := by
  obtain ⟨depth, run, rfl⟩ := h.isRead hnone hr
  have hproduce := h.produce depth run (s.started c p)
  rw [heval, (s.started_rest c p).2.2] at hproduce
  refine ⟨run, ?_⟩
  cases x with
  | error f => exact bind_error hproduce
  | ok ops => exact bind_ok hproduce

/-! Values that cannot be made. -/

/-- The values could not be made at that moment. -/
def Unmakeable (s : Session) (c : CellId) (p : Producer) (es : List NodeExpr) : Prop :=
  ∃ f, (evalNodes es (s.started c p)).1 = .error f

theorem keeps_started (us : List Use) (s t : Session) (c : CellId) (p : Producer) :
    Keeps us (s.started c p) (t.started c p) ↔ Keeps us s t := by
  have hnode : ∀ z : Session, (z.started c p).node? = z.node? := fun z => by
    funext id
    rw [node?, node?, (z.started_rest c p).1]
  constructor
  · intro h
    refine ⟨fun use huse id n hid hn => ?_, fun name d hname hd => ?_⟩
    · have hn' := h.node use huse id n hid
      rw [hnode, hnode] at hn'
      exact hn' hn
    · have hd' := h.slot name d hname
      rw [(s.started_rest c p).2.1, (t.started_rest c p).2.1] at hd'
      exact hd' hd
  · intro h
    refine ⟨fun use huse id n hid hn => ?_, fun name d hname hd => ?_⟩
    · rw [hnode] at hn ⊢
      exact h.node use huse id n hid hn
    · rw [(t.started_rest c p).2.1] at hd
      rw [(s.started_rest c p).2.1]
      exact h.slot name d hname hd

theorem Moment.adopted (h : s.Moment) : s.Adopted := h.changes.keeps Change.adopted (adopted_start true)

/-- What cannot be made cannot be made later, if what is used by its name had that name before. -/
theorem Unmakeable.later (h : s.Unmakeable c p es) (hs : s.Moment) (hv : (s.started c p).Changes v)
    (hk : Keeps (nodesUses .value es) s v) : v.Unmakeable c p es := by
  obtain ⟨f, hf⟩ := h
  rcases hr : evalNodes es (v.started c p) with ⟨g | ops, v'⟩
  · exact ⟨g, by rw [hr]⟩
  · have hchanges : (s.started c p).Changes (v.started c p) := hv.trans (v.changes_started c p)
    obtain ⟨ops', r', hrun⟩ := evalNodes_before (hs.present.started c p)
      (Changes.keeps Change.adopted ((s.changes_started c p).trans hchanges) hs.adopted) hchanges.le
      hchanges.verifies
      ((keeps_started _ s v c p).mpr hk) hr
    rw [hrun] at hf
    cases hf

theorem evalNodes_ends (es : List NodeExpr) (s : Session) {f : Fault}
    (h : (evalNodes es s).1 = .error f) : ∃ g, producerFault f = .panicked g := by
  have hends := (costs_evalNodes es).ends s
  rw [h] at hends
  cases f with
  | exhausted => exact absurd rfl hends
  | _ => exact ⟨_, rfl⟩

/-- A read of a slot whose values cannot be made panics, and publishes nothing. -/
theorem Unmakeable.isRead (h : v.Unmakeable c p es) (hc : v.Makes c p es)
    (hnone : v.store.published? c = none) (hr : v.IsRead c r) :
    (∃ g, r.1 = .error (.panicked g)) ∧ r.2.store.published? c = none := by
  obtain ⟨f, hf⟩ := h
  obtain ⟨g, hg⟩ := evalNodes_ends es _ hf
  obtain ⟨_, rfl⟩ := hc.isRead_eq hnone hr (Prod.ext hf rfl)
  exact ⟨⟨g, congrArg Except.error hg⟩, (hc.made hnone (Prod.ext hf rfl)).2.1⟩

/-! What other procedures do to such a slot. -/

/-- One of the names is that of something that was not there before. -/
def Renamed (us : List Use) (s v : Session) : Prop :=
  ∃ use ∈ us, ∃ id n, use.id? = some id ∧ v.node? id = some n ∧ s.store.nodes.size ≤ n

theorem Renamed.advances (h : Renamed us s v) (hle : s.store.nodes.size ≤ v.store.nodes.size)
    (hw : v.Advances w) : Renamed us s w := by
  obtain ⟨use, huse, id, n, hid, hn, hnew⟩ := h
  rcases hw.node id with hsame | ⟨m, hm, hfresh⟩
  · exact ⟨use, huse, id, n, hid, hsame.trans hn, hnew⟩
  · exact ⟨use, huse, id, m, hid, hm, hle.trans hfresh⟩

theorem Renamed.not_keeps (h : Renamed us s v) (hs : s.Present) : ¬Keeps us s v := by
  obtain ⟨use, huse, id, n, hid, hn, hnew⟩ := h
  intro hk
  exact absurd (hs.node (mentions_node? (hk.node use huse id n hid hn))) (Nat.not_lt.mpr hnew)

theorem Keeps.advances (h : Keeps us s v) (hle : s.store.nodes.size ≤ v.store.nodes.size)
    (hw : v.Advances w) : Keeps us s w ∨ Renamed us s w := by
  by_cases hrenamed : Renamed us s w
  · exact .inr hrenamed
  · refine .inl ⟨fun use huse id n hid hn => ?_, fun name d hname hd =>
      h.slot name d hname (hw.slot name d hd)⟩
    rcases hw.node id with hsame | ⟨m, hm, hfresh⟩
    · exact h.node use huse id n hid (hsame.symm.trans hn)
    · exact absurd ⟨use, huse, id, m, hid, hm, hle.trans hfresh⟩ hrenamed

/-- The slot waits, and the names are those of the same things, or one of them is that of something
new. -/
structure Barred (us : List Use) (s : Session) (c : CellId) (t v : Session) : Prop where
  later : t.Changes v
  waits : Keeps us s v ∧ v.store.published? c = none ∨ Renamed us s v

theorem Barred.changes (h : Barred us s c t v) (hle : s.store.Le t.store) (hw : v.Changes w)
    (hnames : v.Advances w) (hnone : Keeps us s v → Keeps us s w → v.store.published? c = none →
      w.store.published? c = none) : Barred us s c t w := by
  have hsize := (hle.trans h.later.le).size_nodes
  refine ⟨h.later.trans hw, ?_⟩
  rcases h.waits with ⟨hk, ho⟩ | hrenamed
  · rcases hk.advances hsize hnames with hk' | hrenamed
    · exact .inl ⟨hk', hnone hk hk' ho⟩
    · exact .inr hrenamed
  · exact .inr (hrenamed.advances hsize hnames)

/-- The procedure leaves the slot so. -/
abbrev Bars {α : Type} (us : List Use) (s : Session) (c : CellId) (t : Session) : Procedure α → Prop :=
  Within fun v w => Barred us s c t v → Barred us s c t w

namespace Bars

variable {α : Type} {x : Procedure α}

theorem barred (hx : Bars us s c t x) (hv : Barred us s c t v) : Barred us s c t (x v).2 :=
  hx.apply (fun _ h => h) (fun h k hv => k (h hv)) v hv

/-- What is built publishes nothing, and gives names to new operations only. -/
theorem adds (hc : s.Makes c p es) (hle : s.store.Le t.store) (hadds : Adding x)
    (hnames : Advancing x) : Bars us s c t x := by
  refine fun v => .single fun hv => ?_
  have hadded : v.Additions (x v).2 := hadds v
  obtain ⟨_, _, _, hcontent⟩ := (hc.le (hle.trans hv.later.le)).content
  obtain ⟨cell, hcell, -⟩ := Option.map_eq_some_iff.mp hcontent
  refine hv.changes hle hadded.changes (hnames.advances v) fun _ _ hnone => ?_
  rw [hadded.grows.published? (Option.isSome_of_mem hcell), hnone]

theorem compositional : Compositional (Bars us s c t) where
  pure _ := .pure _
  fail f := .fail f
  bind hx hf := hx.bind hf
  reading _ hf := .reading hf

theorem releasing (hx : Bars us s c t x) (hle : s.store.Le t.store) : Bars us s c t (releasing x) :=
  fun v => (hx v).tail fun hv =>
    hv.changes hle (Changes.names rfl rfl rfl) (.of_size le_rfl rfl rfl) fun _ _ h => h

end Bars

variable (hs : s.Moment) (hc : s.Makes c p es) (hun : s.Unmakeable c p es)
  (ht : (s.started c p).Changes t)

include ht in
theorem le_of_started : s.store.Le t.store := (s.changes_started c p).le.trans ht.le

include ht in
theorem Barred.started (hv : Barred us s c t v) (d : CellId) (q : Producer) :
    Barred us s c t (v.started d q) := by
  refine hv.changes (le_of_started ht) (v.changes_started d q) ?_ fun _ _ hnone => ?_
  · obtain ⟨hbindings, hslots, -⟩ := v.started_rest d q
    exact .of_size (v.changes_started d q).le.size_nodes hbindings hslots
  · rw [started_store, Store.published?_modifyContent_of (by simp), hnone]

include ht in
/-- A value for another slot, or for this one once a name is new. -/
theorem Barred.settle (hw : Barred us s c t w) {d : CellId} {cell : Cell} (run : Nat)
    (candidate : List NodeId) (hd : w.store.cell? d = some cell) (hdeferred : cell.content.isDeferred)
    (hother : Keeps us s w → d ≠ c) : Barred us s c t (w.settle d run candidate) := by
  refine hw.changes (le_of_started ht) (.single (.settle run candidate hd hdeferred)) ?_ fun hk _ hnone => ?_
  · obtain ⟨-, -, hbindings, hslots, -⟩ := w.settle_names d run candidate
    exact .of_size (w.le_settle d run candidate).size_nodes hbindings hslots
  · rw [Store.published?_eq_content?, content?_settle, if_neg (hother hk).symm,
      ← Store.published?_eq_content?, hnone]

include hc ht in
theorem bars_prepare {readOne : CellId → Procedure (List NodeId)}
    (hread : ∀ d, Bars us s c t (readOne d)) (q : Producer) (run : Nat) :
    Bars us s c t (prepare readOne q run) := by
  have hle := le_of_started ht
  have hall : ∀ cells, Bars us s c t (enumerate readOne cells) := by
    intro cells
    induction cells with
    | nil => exact .pure ()
    | cons d cells ih => exact (hread d).bind fun _ => ih
  have hhold : ∀ n, Bars us s c t (Procedure.hold (.node n)) := fun n =>
    .adds hc hle (.hold _) (.hold _)
  refine .reading fun v => ?_
  split
  · exact Bars.releasing ((hhold _).bind fun _ => .bind (.reading fun _ => .pure _) hall) hle
  · exact .pure ()

include hs hc hun ht in
/-- A run that has made what could not be made has found something new under one of the names. -/
theorem Unmakeable.not_made (hv : Barred (nodesUses .value es) s c t v) {q : Producer} {runs : Nat}
    {finished : List Nat} (hcontent : v.store.content? c = some (.deferred q runs finished none))
    {depth run : Nat} {candidate : List NodeId}
    (hr : Session.produce depth q run (v.started c q) = (.ok candidate, w)) :
    ¬Keeps (nodesUses .value es) s w := by
  intro hk
  have hmakes := hc.le ((le_of_started ht).trans hv.later.le)
  obtain ⟨_, _, _, hcontent'⟩ := hmakes.content
  cases hcontent.symm.trans hcontent'
  rw [hmakes.produce] at hr
  obtain ⟨hmade, rfl⟩ := Prod.mk.inj hr
  have hnames : v.Advances { (evalNodes es (v.started c p)).2 with held := (v.started c p).held } := by
    obtain ⟨hbindings, hslots, -⟩ := v.started_rest c p
    have hstart : v.Advances (v.started c p) :=
      .of_size (v.changes_started c p).le.size_nodes hbindings hslots
    exact (hstart.trans ((advancing_evalNodes es).advances _)).trans (.of_size le_rfl rfl rfl)
  rcases hv.waits with ⟨hk', -⟩ | hrenamed
  · obtain ⟨f, hf⟩ := hun.later hs (ht.trans hv.later) hk'
    rw [hf] at hmade
    cases hmade
  · have hsize := ((le_of_started ht).trans hv.later.le).size_nodes
    exact (hrenamed.advances hsize hnames).not_keeps hs.present hk

include hs hc hun ht in
/-- No read gives the slot a value. -/
theorem bars_readCell (depth : Nat) (d : CellId) :
    Bars (nodesUses .value es) s c t (readCell depth d) := by
  have hle := le_of_started ht
  induction depth generalizing d with
  | zero => exact .fail _
  | succ depth ih =>
    refine fun v => .single fun hv => ?_
    rcases hr : readCell (depth + 1) d v with ⟨r, w⟩
    have hproduced : ∀ {q runs r u}, produce depth q (runs + 1) (v.started d q) = (r, u) →
        Barred (nodesUses .value es) s c t u := by
      intro q runs r u hx
      have hproduce : Bars (nodesUses .value es) s c t (produce depth q (runs + 1)) :=
        .mapFault _ (Bars.releasing ((bars_prepare hc ht ih q _).bind fun _ =>
          Bars.adds hc hle (adding_logic.evalNodes _) (advancing_evalNodes _)) hle)
      have hbarred := hproduce.barred (hv.started ht d q)
      rwa [hx] at hbarred
    have hsettled : ∀ {q runs finished candidate u},
        v.store.content? d = some (.deferred q runs finished none) →
          produce depth q (runs + 1) (v.started d q) = (.ok candidate, u) →
            Barred (nodesUses .value es) s c t (u.settle d (runs + 1) candidate) := by
      intro q runs finished candidate u hcontent hx
      obtain ⟨runs', finished', published', hcontent', -⟩ := (changes_produced hx).le.deferred hcontent
      obtain ⟨cell, hd, hcell⟩ := Option.map_eq_some_iff.mp hcontent'
      refine (hproduced hx).settle ht _ candidate hd (by rw [hcell]; rfl) fun hk => ?_
      rintro rfl
      exact hun.not_made hs hc ht hv hcontent hx hk
    cases readsTo_of_readCell hr with
    | missing _ => exact hv
    | published _ => exact hv
    | failed _ hx => exact hproduced hx
    | settled hcontent hx _ _ => exact hsettled hcontent hx
    | refused hcontent hx _ =>
      exact (hsettled hcontent hx).changes hle (.single (.adds (.report _ rfl))) (.of_size le_rfl rfl rfl)
        fun _ _ h => h

include hs hc hun ht in
/-- Nor does any question. -/
theorem bars_reads : Reads (Bars (nodesUses .value es) s c t) where
  toCompositional := Bars.compositional
  operations d := by
    refine .reading fun v => ?_
    split
    · exact .pure _
    · exact .reading fun _ => bars_readCell hs hc hun ht _ d
  warn _ _ := .adds hc (le_of_started ht) (.emit rfl) fun _ => .single (.of_size le_rfl rfl rfl)

include hs hc hun ht in
/-- Steps build, or they ask. -/
theorem adding_or_bars (e : Step) :
    Adding (perform e) ∨ Bars (nodesUses .value es) s c t (perform e) := by
  have hle := le_of_started ht
  have hreads := bars_reads hs hc hun ht
  have hadds := adding_logic.compositional
  have hhold : ∀ holder, Bars (nodesUses .value es) s c t (Procedure.hold holder) := fun holder =>
    .adds hc hle (.hold holder) (.hold holder)
  have hbuilt : ∀ n, Adding (built n) := fun n =>
    .reading fun _ => (hadds.ofOption _ _).bind fun _ => .pure _
  cases e with
  | build e => exact .inl ((adding_logic.evalNode e).bind hbuilt)
  | flow g id e =>
    exact .inl ((adding_logic.evalFlow g e).bind fun n => (adding_bind id n).bind fun _ => hbuilt n)
  | ask id q =>
    have hasked : ∀ n, Bars (nodesUses .value es) s c t (inquire n q) := fun n =>
      .releasing (.bind (hhold _) fun _ => .reading fun _ =>
        (hreads.ofOption _ _).bind fun node => hreads.answer n node q) hle
    exact .inr (.bind (.reading fun _ => (hreads.ofOption _ _).bind hasked) fun _ => .pure _)
  | readSlot name =>
    refine .inr (.reading fun _ => (hreads.ofOption _ _).bind fun d => Bars.releasing ?_ hle)
    exact .bind (hhold _) fun _ => .bind (hreads.operations d) fun _ => .pure _
  | calls => exact .inl (.reading fun _ => .pure _)
  | drop id =>
    refine .inl (.reading fun _ => (hadds.ofOption _ _).bind fun _ => .bind ?_ fun _ => .pure _)
    exact Adding.names fun _ => ⟨rfl, rfl, rfl⟩
  | makeSlot name arity e =>
    refine .inl (.bind (Adding.releasing ((adding_logic.evalSlot arity e).bind fun d => ?_)) fun _ =>
      .pure _)
    exact Adding.names fun _ => ⟨rfl, rfl, rfl⟩
  | slotState name =>
    exact .inl (.reading fun _ => (hadds.ofOption _ _).bind fun _ =>
      (hadds.ofOption _ _).bind fun _ => .pure _)
  | sameHeader a b => exact .inl (.pure _)
  | symbol name => exact .inl (.reading fun _ => .pure _)
  | malformed => exact .inl (.fail _)

/-- The sessions after steps that leave the names with what they stood for. The first step ends with the
read at hand. -/
inductive Steady (us : List Use) (s t : Session) : Session → Prop
  | ended (hk : Keeps us s t) : Steady us s t (t.holding [])
  | step {u : Session} (h : Steady us s t u) (e : Step) (hk : Keeps us s (u.step e).session) :
    Steady us s t (u.step e).session

include hs hc hun ht in
/-- As long as the names stay, the slot gets no value. -/
theorem Steady.barred (hu : Steady (nodesUses .value es) s t u) (hnone : t.store.published? c = none) :
    t.Changes u ∧ Keeps (nodesUses .value es) s u ∧ u.store.published? c = none := by
  induction hu with
  | ended hk => exact ⟨Changes.names rfl rfl rfl, ⟨hk.node, hk.slot⟩, hnone⟩
  | @step u _ e hk ih =>
    obtain ⟨hchanges, hkeeps, hnone⟩ := ih
    have hstep : u.Changes (u.step e).session := changes_step u e
    refine ⟨hchanges.trans hstep, hk, ?_⟩
    rcases adding_or_bars hs hc hun ht e with hadds | hbars
    · obtain ⟨_, _, _, hcontent⟩ := (hc.le ((le_of_started ht).trans hchanges.le)).content
      obtain ⟨cell, hcell, -⟩ := Option.map_eq_some_iff.mp hcontent
      have hadded : u.Additions (u.step e).session := hadds u
      rw [hadded.grows.published? (Option.isSome_of_mem hcell), hnone]
    · have hbarred := hbars.barred ⟨hchanges, .inl ⟨hkeeps, hnone⟩⟩
      exact (hbarred.waits.resolve_right fun hrenamed => hrenamed.not_keeps hs.present hk).2

/-! Values over a wrong link. -/

/-- What a check is about is there. -/
theorem exists_of_checkLink {owner n : NodeId} {l : Linkage} (h : (s.checkLink owner l n).isSome) :
    ∃ o child, s.store.node? owner = some o ∧ s.store.node? n = some child := by
  unfold checkLink linkFacts? at h
  cases ho : s.store.node? owner with
  | none => simp [ho] at h
  | some o =>
    cases hn : s.store.node? n with
    | none => simp [ho, hn] at h
    | some child => exact ⟨o, child, rfl, rfl⟩

/-- What is wrong with a child that has a link, or with a value, stays wrong. -/
theorem checkLink_lasts (hle : s.store.Le t.store) {owner n : NodeId} {l : Linkage}
    (hlinked : l = .attached → (s.store.link? n).isSome) (h : (s.checkLink owner l n).isSome) :
    (t.checkLink owner l n).isSome := by
  obtain ⟨o, child, ho, hn⟩ := exists_of_checkLink h
  obtain ⟨o', ho', hlo⟩ := hle.node ho
  obtain ⟨child', hn', hln⟩ := hle.node hn
  rw [Option.isSome_iff_ne_none] at h ⊢
  intro hnone
  apply h
  cases l with
  | attached =>
    rw [checkLink_attached] at hnone ⊢
    obtain ⟨hlink, hmodels⟩ := (childFault?_eq_none ho' hn').mp hnone
    refine (childFault?_eq_none ho hn).mpr ⟨?_, fun x y hx hy => ?_⟩
    · obtain ⟨q, hq⟩ := Option.isSome_iff_exists.mp (hlinked rfl)
      rw [hq, ← hlink, hle.link? hq]
    · cases ho.symm.trans hx
      cases hn.symm.trans hy
      have hagree := hmodels o' child' ho' hn'
      rwa [hlo.kind, hlo.header, hln.kind, hln.header] at hagree
  | detached =>
    rw [checkLink_detached] at hnone ⊢
    rw [valueFault?_eq_none ho'] at hnone
    rw [valueFault?_eq_none ho]
    cases hq : s.store.link? n with
    | none => rfl
    | some q => cases (hle.link? hq).symm.trans hnone

/-- A value whose check fails is published all the same, and it is one of its operations that the check
is about. -/
theorem broken_offer {cell : Cell} {run : Nat} {candidate : List NodeId} {f : Fault}
    (hcell : s.store.cell? c = some cell) (hnone : s.store.published? c = none)
    (h : (finishRun c run >>= fun _ => offer c run candidate) s = (.error f, t)) :
    ∃ o violation, f = .panicked (.brokenLink violation) ∧ t.store.published? c = some candidate ∧
      t.store.owner? c = some o ∧ ∃ n ∈ candidate, (t.checkLink o.node o.linkage n).isSome ∧
        (o.linkage = .attached → (t.store.link? n).isSome) := by
  rw [offer_apply run candidate hcell] at h
  cases hv : s.publicationViolation? c run candidate with
  | none =>
    rw [hv] at h
    cases (Prod.mk.inj h).1
  | some violation =>
    rw [hv] at h
    obtain ⟨hf, rfl⟩ := Prod.mk.inj h
    cases hf
    unfold publicationViolation? at hv
    rw [hnone] at hv
    cases howner : s.store.owner? c with
    | none =>
      rw [howner] at hv
      cases hv
    | some o =>
      rw [howner] at hv
      dsimp only at hv
      split at hv
      · obtain ⟨n, hn, hcheck⟩ := List.exists_of_findSome?_eq_some hv
        have hcheck : ((s.settle c run candidate).checkLink o.node o.linkage n).isSome :=
          Option.isSome_of_mem hcheck
        refine ⟨o, violation, rfl, ?_, (s.owner?_settle c run candidate c).trans howner, n, hn, hcheck,
          fun hl => ?_⟩
        · have hcontent : s.store.content? c = some cell.content := by simp [Store.content?, hcell]
          have hwaits : cell.content.published? = none := by
            simpa [Store.published?_eq_content?, hcontent] using hnone
          rw [Store.published?_eq_content?, content?_settle, if_pos rfl, hcontent]
          simp [hwaits]
        · obtain ⟨-, child, -, hchild⟩ := exists_of_checkLink hcheck
          obtain ⟨child', hchild', -⟩ := le_node_settle hchild
          have hadopter : s.store.adopter? c = some o.node :=
            Store.adopter?_eq_some.mpr (howner.trans (by rw [← hl]))
          have hlink := link?_settle s c run candidate n
          rw [if_pos ⟨hn, Option.isSome_of_mem hchild'⟩, hadopter] at hlink
          refine (congrArg Option.isSome hlink).trans ?_
          cases s.store.link? n <;> rfl
      · cases hv

/-! The two kinds of failure. -/

/-- A read of a slot whose producer makes the same values in every run panics for good, or for once. If
nothing was published, because the values could not be made, the slot gets no value as long as steps leave
the names with what they stood for, and every read of it panics at every moment at which they stand for
that. If the values were published over a wrong link, the panic reports it; they stay, every read returns
them from then on and runs nothing, and the link stays wrong. -/
theorem failure_lasts {f : Panic} (hs : s.Moment) (hc : s.Makes c p es)
    (h : s.IsRead c (.error (.panicked f), t)) :
    (s.Unmakeable c p es ∧ t.store.published? c = none ∧ ∀ u, Steady (nodesUses .value es) s t u →
      u.store.published? c = none ∧ ∀ v, u.Changes v → Keeps (nodesUses .value es) s v →
        v.store.published? c = none → ∀ r, v.IsRead c r →
          (∃ g, r.1 = .error (.panicked g)) ∧ r.2.store.published? c = none) ∨
    ∃ ops o violation, f = .brokenLink violation ∧ t.store.published? c = some ops ∧
      t.store.owner? c = some o ∧ ∀ v, t.Changes v → (∀ r, v.IsRead c r → r = (.ok ops, v)) ∧
        ∃ n ∈ ops, (v.checkLink o.node o.linkage n).isSome := by
  have hnone : s.store.published? c = none := by
    cases ho : s.store.published? c with
    | none => rfl
    | some ops => cases h.eq_of_published ho
  rcases heval : evalNodes es (s.started c p) with ⟨g | candidate, w⟩
  · left
    obtain ⟨ht, hw, -⟩ := hc.made hnone heval
    obtain ⟨_, heq⟩ := hc.isRead_eq hnone h heval
    obtain ⟨-, rfl⟩ := Prod.mk.inj heq
    have hun : s.Unmakeable c p es := ⟨g, by rw [heval]⟩
    refine ⟨hun, hw, fun u hu => ?_⟩
    obtain ⟨hchanges, -, hunone⟩ := hu.barred hs hc hun ht hw
    refine ⟨hunone, fun v hv hk hvnone r hr => ?_⟩
    have hlater := ht.trans (hchanges.trans hv)
    exact (hun.later hs hlater hk).isRead (hc.le (le_of_started hlater)) hvnone hr
  · right
    obtain ⟨-, hw, cell, hcell⟩ := hc.made hnone heval
    obtain ⟨run, heq⟩ := hc.isRead_eq hnone h heval
    obtain ⟨o, violation, hf, ho, howner, n, hn, hcheck, hlinked⟩ :=
      broken_offer (s := { w with held := s.held }) hcell hw heq.symm
    cases hf
    refine ⟨candidate, o, violation, rfl, ho, howner, fun v hv => ⟨fun r hr => ?_, n, hn, ?_⟩⟩
    · exact hr.eq_of_published (hv.le.published? ho)
    · exact checkLink_lasts hv.le hlinked hcheck

/-- A block in use that makes these values when it is read, after a statement has become the child of
another block. -/
def taken (es : List NodeExpr) : Session :=
  ((start true).after [.build (emptyStatement (some "x")),
    .build (block (some "a") (.filled [.named "x"])),
    .build (block (some "b") (.deferred (.mk none none es [])))]).holding [2]

theorem taken_moment (es : List NodeExpr) : (taken es).Moment := by
  have hsize : (taken es).store.nodes.size = 3 := rfl
  refine (Reached.start.after _).moment fun n hn => ?_
  rw [List.mem_singleton.mp hn]
  exact (Nat.lt_succ_self 2).trans_eq hsize.symm

theorem taken_makes (es : List NodeExpr) : (taken es).Makes 1 (.mk none none es []) es :=
  ⟨⟨0, [], none, rfl⟩, rfl, Producer.valueOf_single _ _ es⟩

theorem keeps_single {use : Use} {id : String} (hid : use.id? = some id) (h : t.node? id = s.node? id) :
    Keeps [use] s t := by
  constructor
  · intro use' huse id' n hid' hn
    rw [List.mem_singleton.mp huse, hid] at hid'
    cases hid'
    exact h.symm.trans hn
  · intro name d hname
    rw [← List.mem_singleton.mp hname] at hid
    cases hid

/-- A block of the statement. -/
def takenAgain : List NodeExpr := [block none (.filled [.named "x"])]

/-- It cannot be made, now or when it is asked for again. -/
theorem failure_lasts_takenAgain : ∃ t, operations 1 (taken takenAgain) =
      (.error (.panicked (.brokenLink (.wrongParent .empty .block (some .block)))), t) ∧
    ((t.holding []).step (.ask "b" (.children none))).session.store.published? 1 = none := by
  have hread : (operations 1 (taken takenAgain)).1 =
      .error (.panicked (.brokenLink (.wrongParent .empty .block (some .block)))) := by decide +kernel
  have hpublished : (operations 1 (taken takenAgain)).2.store.published? 1 = none := by decide +kernel
  have hname : (operations 1 (taken takenAgain)).2.node? "x" = (taken takenAgain).node? "x" := by
    decide +kernel
  have hname' : (((operations 1 (taken takenAgain)).2.holding []).step
      (.ask "b" (.children none))).session.node? "x" = (taken takenAgain).node? "x" := by decide +kernel
  have huses : nodesUses .value takenAgain = [.child "x"] := rfl
  rcases hrun : operations 1 (taken takenAgain) with ⟨x, t⟩
  rw [hrun] at hread hpublished hname hname'
  dsimp only at hread hpublished hname hname'
  subst hread
  have hsteady : Steady (nodesUses .value takenAgain) (taken takenAgain) t
      ((t.holding []).step (.ask "b" (.children none))).session := by
    rw [huses]
    exact .step (.ended (keeps_single rfl hname)) _ (keeps_single rfl hname')
  rcases failure_lasts (taken_moment _) (taken_makes _) (.inl hrun.symm) with
    ⟨-, -, hlasts⟩ | ⟨ops, o, violation, -, ho, -⟩
  · exact ⟨t, rfl, (hlasts _ hsteady).1⟩
  · cases hpublished.symm.trans ho

/-- The statement itself is made, and published before its link is found to be wrong: the next read
returns it. -/
theorem failure_passes : ¬∀ (s t : Session) (c : CellId) (p : Producer) (es : List NodeExpr) (f : Panic),
    s.Moment → s.Makes c p es → s.IsRead c (.error (.panicked f), t) →
      ∀ v, t.Changes v → Keeps (nodesUses .value es) s v →
        ∀ r, v.IsRead c r → ∃ g, r.1 = .error (.panicked g) := by
  intro h
  have hread : (operations 1 (taken [.named "x"])).1 =
      .error (.panicked (.brokenLink (.wrongParent .empty .block (some .block)))) := by decide +kernel
  have hagain : (operations 1 (operations 1 (taken [.named "x"])).2).1 = .ok [0] := by decide +kernel
  have hname : (operations 1 (taken [.named "x"])).2.node? "x" = (taken [.named "x"]).node? "x" := by
    decide +kernel
  have huses : nodesUses .value [.named "x"] = [.value "x"] := rfl
  rcases hrun : operations 1 (taken [.named "x"]) with ⟨x, t⟩
  rw [hrun] at hread hagain hname
  dsimp only at hread hagain hname
  subst hread
  obtain ⟨g, hg⟩ := h _ t 1 _ _ _ (taken_moment _) (taken_makes _) (.inl hrun.symm) t .refl
    (huses ▸ keeps_single rfl hname) _ (.inl rfl)
  cases hagain.symm.trans hg

end BoundTree.Session
