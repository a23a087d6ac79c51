import BoundTree.Proofs.Mentions

/-!
What is referred to is there. What an operation is built from is older than the operation, and only a
value that is produced later can lead forward. Main statement: so it is in every session that steps lead
to, whatever failed on the way.
-/
namespace BoundTree

namespace Session

/-- A parent is an operation that is there. -/
theorem parent?_lt {s : Session} {n p : NodeId} (h : s.parent? n = some p) : p < s.store.nodes.size := by
  unfold parent? at h
  obtain ⟨node, -, h⟩ := Option.bind_eq_some_iff.mp h
  obtain ⟨q, -, h⟩ := Option.bind_eq_some_iff.mp h
  split at h
  · next halive =>
    cases h
    obtain ⟨P, hp, hP⟩ := Store.isAlive_iff.mp halive
    exact (hP p hp).1
  · cases h

/-- Operations and slots that something leads to are in the store, and what an operation was built from is
older than the operation. -/
structure Present (s : Session) : Prop where
  node : ∀ {n}, s.Mentions n → n < s.store.nodes.size
  slot : ∀ {b}, b ∈ s.slots → b.2 < s.store.cells.size
  cell : ∀ {p node c}, s.store.node? p = some node → c ∈ node.cells → c < s.store.cells.size
  filled : ∀ {p node c ops n}, s.store.node? p = some node → c ∈ node.cells →
    s.store.content? c = some (.filled ops) → n ∈ ops → n < p
  payload : ∀ {p node n}, s.store.node? p = some node → n ∈ node.payload.nodes → n < p

/-- What is at hand is in the store. -/
structure Has (s : Session) (h : Holding) : Prop where
  cell : ∀ c ∈ h.cells, c < s.store.cells.size
  node : ∀ n ∈ h.nodes, n < s.store.nodes.size

theorem Has.le {s t : Session} {h : Holding} (hs : s.Has h) (hle : s.store.Le t.store) : t.Has h :=
  ⟨fun c hc => (hs.cell c hc).trans_le hle.size_cells,
    fun n hn => (hs.node n hn).trans_le hle.size_nodes⟩

theorem Has.mono {s : Session} {a b : Holding} (hs : s.Has b) (hab : a.Le b) : s.Has a :=
  ⟨fun c hc => hs.cell c (hab.cells.subset hc), fun n hn => hs.node n (hab.nodes hn)⟩

theorem Has.append {s : Session} {a b : Holding} (ha : s.Has a) (hb : s.Has b) : s.Has (a ++ b) :=
  ⟨fun c hc => (List.mem_append.mp hc).elim (ha.cell c) (hb.cell c),
    fun n hn => (List.mem_append.mp hn).elim (ha.node n) (hb.node n)⟩

theorem Present.transfer {s t : Session} (hs : s.Present) (store : t.store = s.store)
    (hslots : ∀ b ∈ t.slots, b.2 < s.store.cells.size)
    (hnodes : ∀ n, t.Mentions n → n < s.store.nodes.size) : t.Present := by
  refine ⟨fun hn => ?_, fun hb => ?_, ?_, ?_, ?_⟩
  · rw [store]
    exact hnodes _ hn
  · rw [store]
    exact hslots _ hb
  all_goals rw [store]
  · exact hs.cell
  · exact hs.filled
  · exact hs.payload

end Session

namespace Procedure

open Session

variable {α β : Type}

/-- Where what is referred to is there, and what is at hand, so it is after the procedure, also with what
it leaves at hand if it succeeds. -/
def Finds (pre : Holding) (x : Procedure α) (post : α → Holding) : Prop :=
  ∀ s : Session, s.Present → s.Has pre → (x s).2.Present ∧ s.store.Le (x s).2.store ∧
    ∀ a, (x s).1 = .ok a → (x s).2.Has (post a)

namespace Finds

variable {pre : Holding} {x : Procedure α} {post : α → Holding}

theorem pure {a : α} (h : (post a).Le pre) : Finds pre (Pure.pure a) post := by
  refine fun s hs hpre => ⟨hs, .refl _, fun b hb => ?_⟩
  cases hb
  exact hpre.mono h

theorem fail (f : Fault) : Finds pre (fail f) post :=
  fun _ hs _ => ⟨hs, .refl _, fun _ h => nomatch h⟩

theorem bind {mid : α → Holding} {f : α → Procedure β} {post : β → Holding}
    (hx : Finds pre x mid) (hf : ∀ a, Finds (mid a) (f a) post) : Finds pre (x >>= f) post := by
  intro s hs hpre
  obtain ⟨ht, hle, hmid⟩ := hx s hs hpre
  rcases hr : x s with ⟨e | a, t⟩
  · rw [hr] at ht hle
    rw [bind_error hr]
    exact ⟨ht, hle, fun _ h => nomatch h⟩
  · rw [hr] at ht hle hmid
    rw [bind_ok hr]
    obtain ⟨hu, hle', hpost⟩ := hf a t ht (hmid a rfl)
    exact ⟨hu, hle.trans hle', hpost⟩

theorem frame (hx : Finds pre x post) (kept : Holding) :
    Finds (pre ++ kept) x fun a => post a ++ kept := by
  intro s hs hpre
  have hkept : s.Has kept := ⟨fun c hc => hpre.cell c (List.mem_append_right _ hc),
    fun n hn => hpre.node n (List.mem_append_right _ hn)⟩
  obtain ⟨ht, hle, hpost⟩ := hx s hs (hpre.mono (.append_left _ _))
  exact ⟨ht, hle, fun a ha => (hpost a ha).append (hkept.le hle)⟩

theorem weaken {pre' : Holding} {post' : α → Holding} (hx : Finds pre x post) (hpre : pre.Le pre')
    (hpost : ∀ a, (post' a).Le (post a)) : Finds pre' x post' := by
  intro s hs hs'
  obtain ⟨ht, hle, ha⟩ := hx s hs (hs'.mono hpre)
  exact ⟨ht, hle, fun a h => (ha a h).mono (hpost a)⟩

theorem recalling {f : Session → Procedure α} (ns : Session → List NodeId)
    (hn : ∀ s n, n ∈ ns s → s.Mentions n) (hf : ∀ s, Finds (pre ++ ⟨[], ns s⟩) (f s) post) :
    Finds pre (read >>= f) post := by
  intro s hs hpre
  refine hf s s hs (hpre.append ⟨fun c hc => (by cases hc), fun n h => hs.node (hn s n h)⟩)

theorem releasing (hx : Finds pre x post) : Finds pre (releasing x) post := by
  intro s hs hpre
  obtain ⟨ht, hle, hpost⟩ := hx s hs hpre
  rw [releasing_apply]
  refine ⟨ht.transfer rfl (fun b hb => ht.slot hb) ?_, hle,
    fun a ha => ⟨(hpost a ha).cell, (hpost a ha).node⟩⟩
  rintro n (h | h | ⟨h, hn⟩ | ⟨h, hn⟩)
  · exact ht.node (.bound h)
  · exact (hs.node (.held h)).trans_le hle.size_nodes
  · exact ht.node (.published h hn)
  · exact ht.node (.payload h hn)

theorem producing (hx : Finds pre x post) : Finds pre (mapFault producerFault x) post := by
  intro s hs hpre
  obtain ⟨ht, hle, hpost⟩ := hx s hs hpre
  rw [mapFault_apply]
  refine ⟨ht, hle, fun a ha => hpost a ?_⟩
  cases hr : (x s).1 with
  | ok b =>
    rw [hr] at ha
    exact ha
  | error f =>
    rw [hr] at ha
    cases ha

/-- What leaves the store as it is, and leads only to what was at hand. -/
theorem modify {f : Session → Session} {pre post : Holding} (hpost : post.Le pre)
    (hstore : ∀ s, (f s).store = s.store)
    (hslots : ∀ s, ∀ b ∈ (f s).slots, b ∈ s.slots ∨ b.2 ∈ pre.cells)
    (hmentions : ∀ s n, (f s).Mentions n → s.Mentions n ∨ n ∈ pre.nodes) :
    Finds pre (modify f) fun _ => post := by
  intro s hs hpre
  rw [modify_apply]
  dsimp only
  have hle : s.store.Le (f s).store := hstore s ▸ .refl _
  refine ⟨hs.transfer (hstore s) (fun b hb => ?_) fun n hn => ?_, hle,
    fun _ _ => (hpre.mono hpost).le hle⟩
  · exact (hslots s b hb).elim hs.slot (hpre.cell _)
  · exact (hmentions s n hn).elim hs.node (hpre.node n)

end Finds
end Procedure

namespace Session

open Procedure

theorem finds_hold (n : NodeId) : Finds ⟨[], [n]⟩ (hold (.node n)) fun _ => ⟨[], [n]⟩ :=
  .modify (.refl _) (fun _ => rfl) (fun _ _ hb => .inl hb) fun _ _ h =>
    (mentions_hold h).imp_right List.mem_singleton.mpr

theorem finds_bind (id : Option String) (n : NodeId) :
    Finds ⟨[], [n]⟩ (modify (·.bind id n)) fun _ => ⟨[], [n]⟩ :=
  .modify (.refl _) (fun s => (s.bind_store id n).1)
    (fun s b hb => .inl (by cases id <;> exact hb)) fun _ _ h =>
    (mentions_bind h).imp_right List.mem_singleton.mpr

/-- What gives no new names, and holds no more. -/
theorem finds_names {f : Session → Session} (hstore : ∀ s, (f s).store = s.store)
    (hslots : ∀ s, (f s).slots ⊆ s.slots) (hbindings : ∀ s, (f s).bindings ⊆ s.bindings)
    (hheld : ∀ s n, Holder.node n ∈ (f s).held → Holder.node n ∈ s.held) :
    Finds {} (modify f) fun _ => {} :=
  .modify (.refl _) hstore (fun s _ hb => .inl (hslots s hb)) fun s _ h =>
    .inl (h.of_subset (hstore s) (hbindings s) (hheld s))

theorem finds_intern (name : String) : Finds {} (intern name) fun _ => {} := by
  refine fun s hs hpre => ⟨hs.transfer rfl (fun _ hb => hs.slot hb) fun n hn => hs.node ?_, .refl _,
    fun _ _ => ⟨hpre.cell, hpre.node⟩⟩
  exact hn.congr rfl rfl rfl

theorem finds_newCell (arity : Arity) (content : Content) :
    Finds ⟨[], content.published?.getD []⟩ (newCell arity content) fun c => ⟨[c], []⟩ := by
  intro s hs hpre
  have hmentions : ∀ n, (newCell arity content s).2.Mentions n → n < s.store.nodes.size := fun n hn =>
    (mentions_newCell hn).elim hs.node (hpre.node n)
  rw [newCell_apply] at hmentions ⊢
  dsimp only
  have hgrows := s.store.grows_addCell ⟨arity, content, none⟩
  have hsize := s.store.size_addCell ⟨arity, content, none⟩
  have hcontent : ∀ {d a}, d < s.store.cells.size →
      (s.store.addCell ⟨arity, content, none⟩).2.content? d = some a → s.store.content? d = some a := by
    intro d a hd ha
    rwa [Store.content?_addCell, if_neg hd.ne] at ha
  refine ⟨⟨hmentions _, ?_, ?_, ?_, hs.payload⟩, hgrows.toLe, ?_⟩
  · intro b hb
    rw [hsize]
    exact (hs.slot hb).trans (Nat.lt_succ_self _)
  · intro p node d hp hd
    rw [hsize]
    exact (hs.cell hp hd).trans (Nat.lt_succ_self _)
  · exact fun hp hd ha hn => hs.filled hp hd (hcontent (hs.cell hp hd) ha) hn
  · intro c hc
    cases hc
    refine ⟨fun d hd => ?_, fun n hn => nomatch hn⟩
    rw [List.mem_singleton.mp hd, hsize]
    exact Nat.lt_succ_self _

theorem finds_takeSlot (arity : Arity) (name : String) :
    Finds {} (takeSlot arity name) fun c => ⟨[c], []⟩ := by
  intro s hs hpre
  have hrest : ∀ held, (∀ n, Holder.node n ∈ held → Holder.node n ∈ s.held) →
      ({ s with slots := remove s.slots name, held } : Session).Present := by
    intro held hheld
    exact hs.transfer rfl (fun b hb => hs.slot (List.mem_of_mem_filter hb)) fun n hn =>
      hs.node (hn.of_subset rfl (List.Subset.refl _) hheld)
  rw [takeSlot_apply]
  cases hl : lookup s.slots name with
  | none => exact ⟨hs, .refl _, fun _ h => nomatch h⟩
  | some c =>
    obtain ⟨b, hb, rfl⟩ := Option.map_eq_some_iff.mp hl
    dsimp only
    split
    · refine ⟨hrest _ (by simp), .refl _, fun d hd => ?_⟩
      cases hd
      refine ⟨fun d hd => ?_, fun n hn => nomatch hn⟩
      rw [List.mem_singleton.mp hd]
      exact hs.slot (List.mem_of_find?_eq_some hb)
    · exact ⟨hrest _ fun _ h => h, .refl _, fun _ h => nomatch h⟩

/-- The new operation is the youngest, and refers to what was there. -/
theorem Present.withOperation {s : Session} (hs : s.Present) {header : Header} {payload : Payload}
    {cells : List CellId} (hpre : s.Has ⟨cells, payload.nodes⟩) :
    (s.withOperation header payload cells).Present := by
  have hgrows := s.store.grows_addOperation header payload cells
  have hnodes := hgrows.toLe.size_nodes
  have hcells := hgrows.toLe.size_cells
  have hcontent : ∀ c, (s.withOperation header payload cells).store.content? c = s.store.content? c :=
    s.store.content?_addOperation header payload cells
  refine ⟨fun hn => ?_, fun hb => (hs.slot hb).trans_le hcells, ?_, ?_, ?_⟩
  · exact ((mentions_withOperation hn).elim hs.node (hpre.node _)).trans_le hnodes
  · intro p node' c hp hc
    obtain ⟨node, hnode, hle⟩ := Store.le_addOperation hp
    rw [hle.cells] at hc
    split at hnode
    · cases hnode
      exact (hpre.cell c hc).trans_le hcells
    · exact (hs.cell hnode hc).trans_le hcells
  · intro p node' c ops n hp hc ha hn
    obtain ⟨node, hnode, hle⟩ := Store.le_addOperation hp
    rw [hle.cells] at hc
    rw [hcontent] at ha
    split at hnode
    · next heq =>
      -- what the slot holds already was there before the operation
      have ho : s.store.published? c = some ops := by
        simp [Store.published?_eq_content?, ha, Content.published?]
      rw [heq]
      exact hs.node (.published ho hn)
    · exact hs.filled hnode hc ha hn
  · intro p node' n hp hn
    obtain ⟨node, hnode, hle⟩ := Store.le_addOperation hp
    rw [hle.payload] at hn
    split at hnode
    · next heq =>
      cases hnode
      rw [heq]
      exact hpre.node n hn
    · exact hs.payload hnode hn

theorem Present.of_events {s : Session} (hs : s.Present) (es : List Event) :
    ({ s with events := es } : Session).Present :=
  hs.transfer rfl (fun _ hb => hs.slot hb) fun _ hn => hs.node (hn.congr rfl rfl rfl)

theorem finds_construct (header : Header) (payload : Payload) (cells : List CellId) :
    Finds ⟨cells, payload.nodes⟩ (construct header payload cells) fun n => ⟨[], [n]⟩ := by
  intro s hs hpre
  have hgrows := s.store.grows_addOperation header payload cells
  have ht : (s.withOperation header payload cells).Present := hs.withOperation hpre
  rw [construct_apply]
  cases payload.error? header with
  | some e => exact ⟨hs.of_events _, .refl _, fun _ h => nomatch h⟩
  | none =>
    cases s.constructionViolation? header payload cells with
    | some v => exact ⟨ht.of_events _, hgrows.toLe, fun _ h => nomatch h⟩
    | none =>
      refine ⟨ht, hgrows.toLe, fun n hn => ⟨fun c hc => (nomatch hc), fun m hm => ?_⟩⟩
      cases hn
      rw [List.mem_singleton.mp hm]
      exact (Nat.lt_succ_self _).trans_eq (s.store.size_addOperation header payload cells).symm

/-- When a value comes, nothing changes that an operation was built from. -/
theorem Present.settle {s : Session} (hs : s.Present) (c : CellId) (run : Nat) {candidate : List NodeId}
    (hcandidate : ∀ n ∈ candidate, n < s.store.nodes.size) : (s.settle c run candidate).Present := by
  have hle := s.le_settle c run candidate
  obtain ⟨-, -, -, hslots, -⟩ := s.settle_names c run candidate
  refine ⟨fun hn => ?_, fun hb => (hs.slot (hslots ▸ hb)).trans_le hle.size_cells, ?_, ?_, ?_⟩
  · exact ((mentions_settle hn).elim hs.node (hcandidate _)).trans_le hle.size_nodes
  · intro p node' d hp hd
    obtain ⟨node, hnode, hl⟩ := le_node_settle hp
    exact (hs.cell hnode (hl.cells ▸ hd)).trans_le hle.size_cells
  · intro p node' d ops n hp hd ha hn
    obtain ⟨node, hnode, hl⟩ := le_node_settle hp
    refine hs.filled hnode (hl.cells ▸ hd) ?_ hn
    rw [content?_settle] at ha
    split at ha
    · next heq =>
      rw [heq]
      cases hb : s.store.content? c with
      | none => simp [hb] at ha
      | some b =>
        cases b with
        | filled ops' => simpa [hb, Content.finishRun, Content.publish] using ha
        | deferred p runs finished published =>
          cases published <;> simp [hb, Content.finishRun, Content.publish] at ha
    · exact ha
  · intro p node' n hp hn
    obtain ⟨node, hnode, hl⟩ := le_node_settle hp
    exact hs.payload hnode (hl.payload ▸ hn)

theorem Present.started {s : Session} (hs : s.Present) (c : CellId) (p : Producer) :
    (s.started c p).Present := by
  have hcount : ({ s with store := s.store.modifyContent c (·.countRun) } : Session).Present := by
    have hle : s.store.Le (s.store.modifyContent c (·.countRun)) :=
      Store.le_modifyContent Content.le_countRun _ c
    have hpublished := Store.published?_modifyContent_of (f := (·.countRun)) (by simp) s.store c
    refine ⟨?_, fun hb => (hs.slot hb).trans_le hle.size_cells,
      fun hp hd => (hs.cell hp hd).trans_le hle.size_cells, ?_, hs.payload⟩
    · rintro n (h | h | ⟨h, hn⟩ | ⟨h, hn⟩)
      · exact hs.node (.bound h)
      · exact hs.node (.held h)
      · exact hs.node (.published ((hpublished _).symm.trans h) hn)
      · exact hs.node (.payload h hn)
    · intro p node d ops n hp hd ha hn
      refine hs.filled hp hd ?_ hn
      have ha : (s.store.modifyContent c (·.countRun)).content? d = some (.filled ops) := ha
      rw [Store.content?_modifyContent] at ha
      split at ha
      · next heq =>
        rw [heq]
        cases hb : s.store.content? c with
        | none => simp [hb] at ha
        | some b =>
          cases b with
          | filled ops' => simpa [hb, Content.countRun] using ha
          | deferred => simp [hb, Content.countRun] at ha
      · exact ha
  unfold Session.started
  cases p.counter with
  | none => exact hcount
  | some name =>
    exact hcount.transfer rfl (fun _ hb => hcount.slot hb) fun _ hn => hcount.node (hn.congr rfl rfl rfl)

theorem finds_readCell {depth : Nat}
    (h : ∀ p run, Finds {} (produce depth p run) fun ops => ⟨[], ops⟩) (c : CellId) :
    Finds {} (readCell (depth + 1) c) fun ops => ⟨[], ops⟩ := by
  intro s hs hpre
  rcases hr : readCell (depth + 1) c s with ⟨r, t⟩
  have hproduced : ∀ {p runs r u}, produce depth p (runs + 1) (s.started c p) = (r, u) →
      u.Present ∧ s.store.Le u.store ∧ ∀ ops, r = .ok ops → u.Has ⟨[], ops⟩ := by
    intro p runs r u hx
    obtain ⟨hu, -, hpost⟩ := h p (runs + 1) _ (hs.started c p) (hpre.le (s.changes_started c p).le)
    rw [hx] at hu hpost
    exact ⟨hu, (changes_produced hx).le, hpost⟩
  cases readsTo_of_readCell hr with
  | missing _ => exact ⟨hs, .refl _, fun _ h => nomatch h⟩
  | published ho =>
    refine ⟨hs, .refl _, fun ops' h => ⟨fun c hc => (nomatch hc), fun n hn => ?_⟩⟩
    cases h
    exact hs.node (.published ho hn)
  | failed _ hx =>
    obtain ⟨hu, hle, -⟩ := hproduced hx
    exact ⟨hu, hle, fun _ h => nomatch h⟩
  | @settled _ runs _ candidate _ u _ hx _ ho =>
    obtain ⟨hu, hle, hpost⟩ := hproduced hx
    have hsettled := hu.settle c (runs + 1) (hpost candidate rfl).node
    refine ⟨hsettled, hle.trans (u.le_settle c _ candidate),
      fun ops h => ⟨fun c hc => (nomatch hc), fun n hn => ?_⟩⟩
    cases h
    exact hsettled.node (.published ho hn)
  | @refused _ runs _ candidate u _ _ hx _ =>
    obtain ⟨hu, hle, hpost⟩ := hproduced hx
    have hsettled := hu.settle c (runs + 1) (hpost candidate rfl).node
    exact ⟨hsettled.of_events _, hle.trans (u.le_settle c _ candidate), fun _ h => nomatch h⟩

/-- Every step leads only to what is there. -/
theorem finds_logic : StepLogic Finds where
  pure := .pure
  fail f := .fail f
  bind hx hf := hx.bind hf
  frame hx kept := hx.frame kept
  weaken hx hpre hpost := hx.weaken hpre hpost
  recalling ns hn _ hf := .recalling ns hn hf
  releasing hx := .releasing hx
  hold := finds_hold
  bindName := finds_bind
  intern := finds_intern
  newCell arity content _ := finds_newCell arity content
  takeSlot := finds_takeSlot
  construct := finds_construct
  producing hx := .producing hx
  readCell _ c h := finds_readCell h c
  warn _ _ := finds_names (fun _ => rfl) (fun _ => List.Subset.refl _) (fun _ => List.Subset.refl _)
    fun _ _ h => h
  holdCell c := finds_names (fun _ => rfl) (fun _ => List.Subset.refl _) (fun _ => List.Subset.refl _)
    fun s n h => by simpa using h
  dropName id := finds_names (fun _ => rfl) (fun _ => List.Subset.refl _)
    (fun _ => List.filter_subset_self _) fun _ _ h => h
  nameSlot name c := by
    refine .modify (.empty _) (fun _ => rfl) (fun s b hb => ?_) ?_
    · rcases List.mem_cons.mp hb with rfl | hb
      · exact .inr (List.mem_singleton.mpr rfl)
      · exact .inl (List.mem_of_mem_filter hb)
    · exact fun s n h => .inl (h.of_subset rfl (List.Subset.refl _) fun _ h => h)

theorem has_nothing (s : Session) : s.Has {} := ⟨fun _ h => (nomatch h), fun _ h => nomatch h⟩

theorem present_start (verifies : Bool) : (start verifies).Present := by
  have hnode : ∀ p, (start verifies).store.node? p = none := fun p => by simp [start, Store.node?]
  refine ⟨?_, fun hb => absurd hb List.not_mem_nil, fun hp => ?_, fun hp => ?_, fun hp => ?_⟩
  · rintro n (h | h | ⟨h, hn⟩ | ⟨h, hn⟩)
    · cases h
    · cases h
    · simp [start, Store.published?, Store.cell?] at h
    · cases (hnode _).symm.trans h
  all_goals cases (hnode _).symm.trans hp

/-- Whatever steps lead to refers to what is there. -/
theorem Reached.present {verifies : Bool} {s : Session} (h : Reached verifies s) : s.Present := by
  induction h with
  | start => exact present_start verifies
  | step _ e ih => exact (finds_logic.perform e _ ih (has_nothing _)).1

end Session
end BoundTree
