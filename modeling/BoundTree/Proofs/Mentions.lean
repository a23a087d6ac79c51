import BoundTree.Proofs.Publication

/-!
What leads to operations. Names, holders, values and payloads do, and whatever happens at once, what is led
to afterwards was led to before or has just been handed over. Main statement: what nothing leads to is not
alive.
-/
namespace BoundTree.Session

variable {s t : Session} {c : CellId} {m n : NodeId}

/-- What is alive is referred to. -/
theorem mentions_of_isAlive (h : s.isAlive n = true) : s.Mentions n := by
  obtain ⟨p, hn, hp⟩ := Store.isAlive_iff.mp h
  have hcell : ∀ {c}, n ∈ (s.store.published? c).getD [] → s.Mentions n := by
    intro c hc
    cases ho : s.store.published? c with
    | none => simp [ho] at hc
    | some ops => exact .published ho (by simpa [ho] using hc)
  rcases (hp n hn).2 with hroot | ⟨k, -, hk⟩
  · simp only [roots, List.mem_append, List.mem_map, List.mem_flatMap] at hroot
    rcases hroot with (⟨b, hb, rfl⟩ | ⟨b, -, hb⟩) | ⟨holder, hholder, hm⟩
    · exact .bound hb
    · exact hcell hb
    · cases holder with
      | node m =>
        obtain rfl := List.mem_singleton.mp hm
        exact .held hholder
      | cell c => exact hcell hm
  · unfold Store.holds at hk
    cases hnode : s.store.node? k with
    | none => simp [hnode] at hk
    | some node =>
      simp only [hnode, List.mem_append, List.mem_flatMap] at hk
      rcases hk with ⟨c, -, hc⟩ | hk
      · exact hcell hc
      · exact .payload hnode hk

/-- A session with the same store leads no further when it has no more names and holds no more. -/
theorem Mentions.of_subset (h : t.Mentions m) (store : t.store = s.store)
    (bindings : t.bindings ⊆ s.bindings)
    (held : ∀ n, Holder.node n ∈ t.held → Holder.node n ∈ s.held) : s.Mentions m := by
  cases h with
  | bound h => exact .bound (bindings h)
  | held h => exact .held (held m h)
  | published h hn => exact .published (store ▸ h) hn
  | payload h hn => exact .payload (store ▸ h) hn

theorem mentions_hold (h : ({ s with held := .node n :: s.held } : Session).Mentions m) :
    s.Mentions m ∨ m = n := by
  cases h with
  | bound h => exact .inl (.bound h)
  | held h =>
    rcases List.mem_cons.mp h with heq | h
    · exact .inr (Holder.node.inj heq)
    · exact .inl (.held h)
  | published h hn => exact .inl (.published h hn)
  | payload h hn => exact .inl (.payload h hn)

theorem mentions_bind {id : Option String} (h : (s.bind id n).Mentions m) : s.Mentions m ∨ m = n := by
  have hstore := (s.bind_store id n).1
  cases h with
  | bound h =>
    cases id with
    | none => exact .inl (.bound h)
    | some id =>
      rcases List.mem_cons.mp h with heq | h
      · exact .inr (Prod.mk.inj heq).2
      · exact .inl (.bound (List.mem_of_mem_filter h))
  | held h => exact .inl (.held (by cases id <;> exact h))
  | published h hn => exact .inl (.published (hstore ▸ h) hn)
  | payload h hn => exact .inl (.payload (hstore ▸ h) hn)

theorem mentions_newCell {arity : Arity} {content : Content}
    (h : (newCell arity content s).2.Mentions m) : s.Mentions m ∨ m ∈ content.published?.getD [] := by
  rw [newCell_apply] at h
  cases h with
  | bound h => exact .inl (.bound h)
  | held h => exact .inl (.held (by simpa using h))
  | @published d ops h hn =>
    rw [Store.published?_addCell] at h
    split at h
    · exact .inr (by simpa [show content.published? = some ops from h] using hn)
    · exact .inl (.published h hn)
  | payload h hn => exact .inl (.payload h hn)

theorem mentions_takeSlot {arity : Arity} {name : String} (h : (takeSlot arity name s).2.Mentions m) :
    s.Mentions m := by
  rw [takeSlot_apply] at h
  split at h
  · exact h
  · split at h <;> exact h.of_subset rfl (List.Subset.refl _) (by simp)

theorem mentions_withOperation {header : Header} {payload : Payload} {cells : List CellId}
    (h : (s.withOperation header payload cells).Mentions m) : s.Mentions m ∨ m ∈ payload.nodes := by
  cases h with
  | bound h => exact .inl (.bound h)
  | held h => exact .inl (.held h)
  | published h hn =>
    exact .inl (.published ((s.store.published?_addOperation header payload cells _).symm.trans h) hn)
  | payload h hn =>
    obtain ⟨node, hnode, hle⟩ := Store.le_addOperation h
    rw [hle.payload] at hn
    split at hnode
    · cases hnode
      exact .inr hn
    · exact .inl (.payload hnode hn)

theorem mentions_started {p : Producer} (h : (s.started c p).Mentions m) : s.Mentions m := by
  obtain ⟨hbindings, -, hheld⟩ := s.started_rest c p
  cases h with
  | bound h => exact .bound (hbindings ▸ h)
  | held h => exact .held (hheld ▸ h)
  | published h hn =>
    rw [started_store, Store.published?_modifyContent_of (by simp)] at h
    exact .published h hn
  | payload h hn =>
    rw [started_store] at h
    exact .payload h hn

theorem mentions_settle {run : Nat} {candidate : List NodeId}
    (h : (s.settle c run candidate).Mentions m) : s.Mentions m ∨ m ∈ candidate := by
  obtain ⟨-, -, hbindings, -, hheld⟩ := s.settle_names c run candidate
  cases h with
  | bound h => exact .inl (.bound (hbindings ▸ h))
  | held h => exact .inl (.held (hheld ▸ h))
  | published h hn =>
    rcases published?_of_settle h with h | ⟨-, -, rfl⟩
    · exact .inl (.published h hn)
    · exact .inr hn
  | payload h hn =>
    obtain ⟨node, hnode, hle⟩ := le_node_settle h
    exact .inl (.payload hnode (hle.payload ▸ hn))

end BoundTree.Session
