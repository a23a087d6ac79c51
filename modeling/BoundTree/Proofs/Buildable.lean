import BoundTree.Proofs.Building

/-!
What was built at once can be built again, and with producers in any of its slots: nothing in it is
rejected, and the models agree. Main statement: so much follows from one run that succeeds.
-/
namespace BoundTree.Session

open Procedure Chart

/-- A slot that is filled at once has its values. -/
theorem evalSlot_filled_eq_ok {arity : Arity} {values : List NodeExpr} {s t : Session} {c : CellId}
    (h : evalSlot arity (.filled values) s = (.ok c, t)) :
    arity.admits values.length = true ∧ (t.store.published? c).isSome ∧
      ∃ ops u, evalNodes values s = (.ok ops, u) := by
  rw [evalSlot] at h
  dsimp only at h
  split at h
  · obtain ⟨_, _, hfail, -⟩ := bind_eq_ok h
    cases (Prod.mk.inj hfail).1
  · next ha =>
    obtain ⟨ops, u, hnodes, hcell⟩ := bind_eq_ok h
    rw [newCell_apply] at hcell
    obtain ⟨hc, rfl⟩ := Prod.mk.inj hcell
    cases hc
    refine ⟨by simpa using ha, ?_, ops, u, hnodes⟩
    rw [Store.published?_addCell, if_pos rfl]
    rfl

mutual

theorem valid_evalNode : ∀ (e : NodeExpr) {s t : Session} {m : Chart} {n : NodeId}, e.isClosed →
    m.Holds s → evalNode e.forced s = (.ok n, t) → ∀ d ∈ e.described, d.Valid s.verifies
  | .named _, _, _, _, _, hc, _, _ => by simp [NodeExpr.isClosed] at hc
  | .malformed, _, _, _, _, hc, _, _ => by simp [NodeExpr.isClosed] at hc
  | .build spec, s, t, m, n, hc, hm, h => by
    rw [NodeExpr.forced, evalNode] at h
    rw [NodeExpr.described]
    intro d hd
    obtain rfl := List.mem_singleton.mp hd
    exact valid_evalSpec spec hc hm h

/-- What was built at once can be built. -/
theorem valid_evalSpec : ∀ (spec : NodeSpec) {s t : Session} {m : Chart} {n : NodeId}, spec.isClosed →
    m.Holds s → evalSpec spec.forced s = (.ok n, t) → spec.description.Valid s.verifies
  | .mk id header shape tag slots attributes, s, t, m, n, hc, hm, h => by
    rw [NodeSpec.isClosed, Bool.and_eq_true] at hc
    rw [NodeSpec.forced, evalSpec] at h
    rw [NodeSpec.description]
    obtain ⟨n', u, hreleased, -⟩ := bind_eq_ok h
    rw [releasing_apply] at hreleased
    obtain ⟨hresult, -⟩ := Prod.mk.inj hreleased
    obtain ⟨cells, t₁, hslots, h₁⟩ := bind_eq_ok (Prod.ext hresult rfl)
    obtain ⟨values, t₂, hattributes, h₂⟩ := bind_eq_ok h₁
    obtain ⟨payload, t₃, hpayload, h₃⟩ := bind_eq_ok h₂
    -- what is in the slots and what the attributes refer to can be built
    obtain ⟨harities, hvalues, hpublished⟩ := valid_evalSlots _ slots hc.1 hm hslots
    obtain ⟨m₁, hm₁, hgrows₁, hcells⟩ := (yields_evalSlots (shape.slots.map (·.arity))
      (slotsForced slots) (slotsClosed_forced slots hc.1) (by rwa [slotsDescribed_forced])
      (by rwa [slotsDescribed_forced]) hm).of_ok hslots
    have hfunctions := valid_evalAttributes attributes hc.2 hm₁ hattributes
    obtain ⟨m₂, hm₂, hgrows₂, hshown⟩ := (yields_evalAttributes (attributesForced attributes)
      (attributesClosed_forced attributes hc.2) (by rwa [attributesTraits_forced]) hm₁).of_ok
        hattributes
    rw [slotsDescribed_forced, List.length_map] at hcells
    rw [attributesTraits_forced] at hshown
    rw [List.length_map] at harities hvalues
    have hcells₂ := hcells.grows hgrows₂
    -- and it was put together without a fault
    obtain ⟨hmake, ht₃⟩ : Payload.make? shape tag values = some payload ∧ t₃ = t₂ := by
      cases hp : Payload.make? shape tag values with
      | none => simp [hp] at hpayload
      | some p =>
        rw [hp] at hpayload
        cases hpayload
        exact ⟨rfl, rfl⟩
    subst ht₃
    obtain ⟨-, -, haccepted, hviolation⟩ := construct_eq_ok h₃
    have hdescribes : (Description.mk header shape tag (attributesTraits attributes)
        ((slotsDescribed slots).take shape.slots.length)).Describes t₃.names
          ⟨header, payload, cells, none⟩ := describes hshown hmake cells
    have hfits := hm₂.fits.addOperation hcells₂.described hcells₂.nodup hcells₂.unowned hdescribes
    refine .intro hdescribes.payload ?_ ?_ ?_ hvalues ?_
    · rw [Payload.error?_blank]
      exact haccepted
    · exact (List.forall₂_map_left_iff).mp harities
    · intro hv
      have hv' : t₃.verifies = true := ((hgrows₁.trans hgrows₂).verifies).trans hv
      refine hfits.faults_eq_nil hviolation hv' fun c hcell => ?_
      obtain ⟨ops, ho⟩ := Option.isSome_iff_exists.mp (hpublished c hcell)
      obtain ⟨ds, -, hds⟩ := exists_of_map_eq hcells.described hcell
      simp [hgrows₂.published hds ho]
    · exact fun d hd => hgrows₁.verifies ▸ hfunctions d hd

theorem valid_evalNodes : ∀ (es : List NodeExpr) {s t : Session} {m : Chart} {ops : List NodeId},
    nodesClosed es → m.Holds s → evalNodes (nodesForced es) s = (.ok ops, t) →
    ∀ d ∈ nodesDescribed es, d.Valid s.verifies
  | [], _, _, _, _, _, _, _ => by simp [nodesDescribed]
  | e :: es, s, t, m, ops, hc, hm, h => by
    rw [nodesClosed, Bool.and_eq_true] at hc
    rw [nodesForced, evalNodes] at h
    obtain ⟨n, u, hnode, h⟩ := bind_eq_ok h
    obtain ⟨_, v, hhold, h⟩ := bind_eq_ok h
    obtain ⟨ns, w, hnodes, -⟩ := bind_eq_ok h
    have hhead := valid_evalNode e hc.1 hm hnode
    obtain ⟨m', hm', hgrows, -⟩ := (yields_evalNode e.forced (e.isClosed_forced hc.1)
      (by rwa [e.described_forced]) hm).of_ok hnode
    cases hhold
    have hm'' : m'.Holds { u with held := .node n :: u.held } := hm'.of_store_eq rfl (.refl _) rfl
    have htail := valid_evalNodes es hc.2 hm'' hnodes
    intro d hd
    rw [nodesDescribed] at hd
    rcases List.mem_append.mp hd with hd | hd
    · exact hhead d hd
    · exact hgrows.verifies ▸ htail d hd

theorem valid_evalSlot : ∀ (e : SlotExpr) (arity : Arity) {s t : Session} {m : Chart} {c : CellId},
    e.isClosed → m.Holds s → evalSlot arity e.forced s = (.ok c, t) →
    arity.admits e.described.length = true ∧ (∀ d ∈ e.described, d.Valid s.verifies) ∧
      (t.store.published? c).isSome
  | .filled values, arity, s, t, m, c, hc, hm, h => by
    obtain ⟨ha, hpublished, ops, u, hnodes⟩ := evalSlot_filled_eq_ok h
    refine ⟨?_, valid_evalNodes values hc hm hnodes, hpublished⟩
    rwa [← nodesDescribed_length (nodesClosed_forced values hc), nodesDescribed_forced] at ha
  | .moved _, _, _, _, _, _, hc, _, _ => by simp [SlotExpr.isClosed] at hc
  | .deferred (.mk counter reenter first later), arity, s, t, m, c, hc, hm, h => by
    rw [SlotExpr.isClosed, Producer.isClosed, Bool.and_eq_true] at hc
    obtain ⟨ha, hpublished, ops, u, hnodes⟩ := evalSlot_filled_eq_ok h
    refine ⟨?_, valid_evalNodes first hc.2 hm hnodes, hpublished⟩
    rw [Producer.forced, ← nodesDescribed_length (nodesClosed_forced first hc.2),
      nodesDescribed_forced] at ha
    exact ha
  | .malformed, _, _, _, _, _, hc, _, _ => by simp [SlotExpr.isClosed] at hc

theorem valid_evalSlots : ∀ (arities : List Arity) (es : List SlotExpr) {s t : Session} {m : Chart}
    {cells : List CellId}, slotsClosed es → m.Holds s →
    evalSlots arities (slotsForced es) s = (.ok cells, t) →
    List.Forall₂ (fun a ds => a.admits ds.length = true) arities
      ((slotsDescribed es).take arities.length) ∧
    (∀ ds ∈ (slotsDescribed es).take arities.length, ∀ d ∈ ds, d.Valid s.verifies) ∧
    ∀ c ∈ cells, (t.store.published? c).isSome
  | [], es, s, t, m, cells, _, _, h => by
    rw [evalSlots] at h
    cases h
    simp
  | arity :: arities, e :: es, s, t, m, cells, hc, hm, h => by
    rw [slotsClosed, Bool.and_eq_true] at hc
    rw [slotsForced, evalSlots] at h
    obtain ⟨c, u, hslot, h⟩ := bind_eq_ok h
    obtain ⟨cs, v, hslots, h⟩ := bind_eq_ok h
    cases h
    obtain ⟨ha, hvalid, hpublished⟩ := valid_evalSlot e arity hc.1 hm hslot
    obtain ⟨m', hm', hgrows, hcell⟩ := (yields_evalSlot e.forced arity (e.isClosed_forced hc.1)
      (by rwa [e.described_forced]) (by rwa [e.described_forced]) hm).of_ok hslot
    obtain ⟨has, hvalids, hpublisheds⟩ := valid_evalSlots arities es hc.2 hm' hslots
    obtain ⟨m'', hm'', hgrows', -⟩ := (yields_evalSlots arities (slotsForced es)
      (slotsClosed_forced es hc.2) (by rwa [slotsDescribed_forced])
      (by rwa [slotsDescribed_forced]) hm').of_ok hslots
    rw [slotsDescribed, List.length_cons, List.take_succ_cons]
    refine ⟨.cons ha has, ?_, ?_⟩
    · intro ds hds
      rcases List.mem_cons.mp hds with rfl | hds
      · exact hvalid
      · exact fun d hd => hgrows.verifies ▸ hvalids ds hds d hd
    · intro k hk
      rcases List.mem_cons.mp hk with rfl | hk
      · obtain ⟨ops, ho⟩ := Option.isSome_iff_exists.mp hpublished
        have hnew : m'.cell k = some e.forced.described := by simpa using hcell.described
        simp [hgrows'.published hnew ho]
      · exact hpublisheds k hk
  | arity :: arities, [], s, t, m, cells, hc, hm, h => by
    rw [slotsForced, evalSlots] at h
    cases (Prod.mk.inj h).1

theorem valid_evalAttribute : ∀ (e : AttributeExpr) {s t : Session} {m : Chart} {v : AttributeValue},
    e.isClosed → m.Holds s → evalAttribute e.forced s = (.ok v, t) →
    ∀ d, .function d ∈ e.traits → d.Valid s.verifies
  | .value _, _, _, _, _, _, _, _ => by simp [AttributeExpr.traits]
  | .symbol _, _, _, _, _, _, _, _ => by simp [AttributeExpr.traits]
  | .optionalSymbols _, _, _, _, _, _, _, _ => by simp [AttributeExpr.traits]
  | .function e, s, t, m, v, hc, hm, h => by
    rw [AttributeExpr.forced, evalAttribute] at h
    obtain ⟨n, u, hnode, -⟩ := bind_eq_ok h
    intro d hd
    refine valid_evalNode e hc hm hnode d ?_
    simpa [AttributeExpr.traits] using hd
  | .malformed, _, _, _, _, hc, _, _ => by simp [AttributeExpr.isClosed] at hc

theorem valid_evalAttributes : ∀ (es : List AttributeExpr) {s t : Session} {m : Chart}
    {vs : List AttributeValue}, attributesClosed es → m.Holds s →
    evalAttributes (attributesForced es) s = (.ok vs, t) →
    ∀ d, .function d ∈ attributesTraits es → d.Valid s.verifies
  | [], _, _, _, _, _, _, _ => by simp [attributesTraits]
  | e :: es, s, t, m, vs, hc, hm, h => by
    rw [attributesClosed, Bool.and_eq_true] at hc
    rw [attributesForced, evalAttributes] at h
    obtain ⟨v, u, hvalue, h⟩ := bind_eq_ok h
    obtain ⟨ws, w, hvalues, -⟩ := bind_eq_ok h
    have hhead := valid_evalAttribute e hc.1 hm hvalue
    obtain ⟨m', hm', hgrows, -⟩ := (yields_evalAttribute e.forced (e.isClosed_forced hc.1)
      (by rwa [e.traits_forced]) hm).of_ok hvalue
    have htail := valid_evalAttributes es hc.2 hm' hvalues
    intro d hd
    rw [attributesTraits] at hd
    rcases List.mem_append.mp hd with hd | hd
    · exact hhead d hd
    · exact hgrows.verifies ▸ htail d hd

end

end BoundTree.Session
