import BoundTree.Proofs.Lockstep

/-!
Making the same values again. Main statement: values that change nothing for good that has a name can be
made again wherever what they name is as it was, and what is made is the same up to its places in the
store.
-/
namespace BoundTree

namespace Procedure

open Session

variable {α β γ δ : Type} {us : List Use} {r u s t : Session}

/-- Where the one procedure succeeds, the other one does, and makes the same. -/
def Repeats (r u : Session) (x : Procedure α) (y : Procedure β) (s t : Session)
    (R : α → β → Store → Prop) : Prop :=
  ∀ a s', x s = (.ok a, s') → ∃ b t', y t = (.ok b, t') ∧ r.Mirrors u s' t' ∧
    s.store.Grows s'.store ∧ R a b s'.store

namespace Repeats

variable {x : Procedure α} {y : Procedure β} {R : α → β → Store → Prop}

theorem pure {a : α} {b : β} (h : r.Mirrors u s t) (hab : R a b s.store) :
    Repeats r u (Pure.pure a) (Pure.pure b) s t R := by
  intro a' s' heq
  cases heq
  exact ⟨b, t, rfl, h, .refl _, hab⟩

theorem fail (f : Fault) : Repeats r u (fail f) y s t R := by
  intro a s' heq
  cases heq

theorem bind {f : α → Procedure γ} {g : β → Procedure δ} {Q : γ → δ → Store → Prop}
    (hx : Repeats r u x y s t R) (hf : ∀ a b s' t', r.Mirrors u s' t' → s.store.Grows s'.store →
      R a b s'.store → Repeats r u (f a) (g b) s' t' Q) : Repeats r u (x >>= f) (y >>= g) s t Q := by
  intro c s'' heq
  obtain ⟨a, s', hrun, hrest⟩ := bind_eq_ok heq
  obtain ⟨b, t', hrun', h, hgrows, hab⟩ := hx a s' hrun
  obtain ⟨d, t'', hrest', h', hgrows', hcd⟩ := hf a b s' t' h hgrows hab c s'' hrest
  exact ⟨d, t'', (bind_ok hrun').trans hrest', h', hgrows.trans hgrows', hcd⟩

/-- What is read off the session is known. -/
theorem reading {f : Session → Procedure α} {g : Session → Procedure β}
    (hf : Repeats r u (f s) (g t) s t R) : Repeats r u (read >>= f) (read >>= g) s t R := hf

theorem ofOption {f : Fault} {a? : Option α} {b? : Option β} (h : r.Mirrors u s t)
    (hab : ∀ a, a? = some a → ∃ b, b? = some b ∧ R a b s.store) :
    Repeats r u (Procedure.ofOption f a?) (Procedure.ofOption f b?) s t R := by
  cases a? with
  | none => exact fail f
  | some a =>
    obtain ⟨b, rfl, hR⟩ := hab a rfl
    exact pure h hR

/-- What adds nothing to the store. -/
theorem aside {s' t' : Session} {a : α} {b : β} (h : r.Mirrors u s t) (hx : x s = (.ok a, s'))
    (hy : y t = (.ok b, t')) (hs : s'.store = s.store ∧ s'.bindings = s.bindings ∧
      s'.slots = s.slots ∧ s'.verifies = s.verifies)
    (ht : t'.store = t.store ∧ t'.bindings = t.bindings ∧ t'.slots = t.slots ∧
      t'.verifies = t.verifies) (hab : R a b s.store) : Repeats r u x y s t R := by
  intro a' s'' heq
  cases hx.symm.trans heq
  refine ⟨b, t', hy, h.of_store ?_ ?_ hs.1 ht.1, hs.1 ▸ .refl _, hs.1 ▸ hab⟩
  · exact h.left.of_store hs.1 hs.2.1 hs.2.2.1 hs.2.2.2
  · exact h.right.of_store ht.1 ht.2.1 ht.2.2.1 ht.2.2.2

theorem hold (h : r.Mirrors u s t) (a b : Holder) {P : Store → Prop} (hP : P s.store) :
    Repeats r u (Procedure.hold a) (Procedure.hold b) s t fun _ _ z => P z :=
  aside h (hold_apply a s) (hold_apply b t) ⟨rfl, rfl, rfl, rfl⟩ ⟨rfl, rfl, rfl, rfl⟩ hP

theorem releasing (hx : Repeats r u x y s t R) :
    Repeats r u (releasing x) (releasing y) s t R := by
  intro a s' heq
  rw [releasing_apply] at heq
  obtain ⟨hok, rfl⟩ := Prod.mk.inj heq
  obtain ⟨b, t', hrun, h, hgrows, hab⟩ := hx a _ (Prod.ext hok rfl)
  refine ⟨b, { t' with held := t.held }, by rw [releasing_apply, hrun], ?_, hgrows, hab⟩
  exact h.of_store (h.left.of_store rfl rfl rfl rfl) (h.right.of_store rfl rfl rfl rfl) rfl rfl

end Repeats

end Procedure

namespace Session

open Procedure

variable {us : List Use} {r u s t : Session}

/-- Operations, and what stands for them. -/
def Standing (us : List Use) (r u : Session) (as : String → Use) (ns ms : List NodeId) (s : Store) :
    Prop :=
  ms = ns.map (r.again u) ∧ ∀ n ∈ ns, Stands us r as s n

theorem repeats_named (hr : Recurs us r u) (h : r.Mirrors u s t) {as : String → Use} {id : String}
    (hid : (as id).id? = some id) (hus : as id ∈ us) :
    Repeats r u (read >>= fun s => Procedure.ofOption .unknown (s.node? id))
      (read >>= fun s => Procedure.ofOption .unknown (s.node? id)) s t
      fun n m z => Standing us r u as [n] [m] z := by
  have hnames : ∀ {a b : Session}, a.Spares b → b.node? id = a.node? id := fun h => by
    rw [node?, node?, h.bindings]
  refine .reading (.ofOption h fun n hn => ?_)
  have hn : r.node? id = some n := (hnames h.left).symm.trans hn
  have hlt := hr.known _ hus id n hid hn
  refine ⟨n, ?_, ?_, ?_⟩
  · rw [hnames h.right, hr.named _ hus id hid, hn]
  · rw [List.map_singleton, again_of_lt hlt]
  · intro m hm
    rw [List.mem_singleton.mp hm]
    exact ⟨hlt.trans_le h.left.grows.toLe.size_nodes, .inr ⟨id, hus, hn⟩⟩

theorem repeats_construct (hr : Recurs us r u) (h : r.Mirrors u s t) (header : Header) {p q : Payload}
    (hblank : q.blank = p.blank) {cs ds : List CellId}
    (hs : Slots us r u (p.shape.slots.map (·.linkage)) cs ds s.store) (as : String → Use) :
    Repeats r u (construct header p cs) (construct header q ds) s t
      fun n m z => Standing us r u as [n] [m] z := by
  intro n s' heq
  obtain ⟨rfl, rfl, herror, hviolation⟩ := construct_eq_ok heq
  have herror' : q.error? header = none := by rw [← q.error?_blank, hblank, p.error?_blank, herror]
  refine ⟨t.store.nodes.size, t.withOperation header q ds, ?_, h.withOperation hr header hblank hs,
    s.store.grows_addOperation header p cs, ?_, ?_⟩
  · rw [construct_apply, herror', h.constructionViolation? hr header hblank hs hviolation]
  · rw [List.map_singleton, h.again_size]
  · intro n hn
    rw [List.mem_singleton.mp hn]
    refine ⟨?_, .inl h.left.grows.toLe.size_nodes⟩
    exact (Nat.lt_succ_self _).trans_eq (s.store.size_addOperation header p cs).symm

theorem repeats_newCell (h : r.Mirrors u s t) (arity : Arity) (content content' : Content)
    (hnew : content.isNew) (hnew' : content'.isNew)
    (hcontent : content'.published? = content.published?.map (·.map (r.again u))) {l : Linkage}
    (hstands : ∀ ops, content.published? = some ops →
      ∀ n ∈ ops, Stands us r (.ofLinkage l) s.store n) :
    Repeats r u (newCell arity content) (newCell arity content') s t
      fun c d z => Slots us r u [l] [c] [d] z := by
  intro c s' heq
  rw [newCell_apply] at heq
  cases heq
  have hgrows := s.store.grows_addCell ⟨arity, content, none⟩
  have hnew₀ : r.store.cells.size ≤ s.store.cells.size := h.left.grows.toLe.size_cells
  refine ⟨t.store.cells.size, _, newCell_apply arity content' t, ⟨h.left.newCell arity hnew _,
    h.right.newCell arity hnew' _, h.nodes, ?_, h.node, ?_⟩, hgrows, ?_⟩
  · have hcells := h.cells
    simp only [Store.size_addCell]
    omega
  · intro c hc
    have hsame : r.againCell u c = t.store.cells.size ↔ c = s.store.cells.size := by
      have hcells := h.cells
      unfold againCell
      omega
    dsimp only
    rw [Store.published?_addCell, Store.published?_addCell]
    by_cases heq : c = s.store.cells.size
    · rw [if_pos (hsame.mpr heq), if_pos heq]
      exact hcontent
    · rw [if_neg fun h => heq (hsame.mp h), if_neg heq]
      exact h.published hc
  · refine ⟨by rw [List.map_singleton, h.againCell_size], ?_, ?_, ?_⟩
    · exact fun c hc => List.mem_singleton.mp hc ▸ hnew₀
    · intro c hc
      rw [List.mem_singleton.mp hc]
      exact (Nat.lt_succ_self _).trans_eq (s.store.size_addCell _).symm
    · intro l' c ops hc ho n hn
      obtain ⟨rfl, rfl⟩ : l' = l ∧ c = s.store.cells.size := by simpa using hc
      have ho : (s.store.addCell ⟨arity, content, none⟩).2.published? s.store.cells.size = some ops := ho
      rw [Store.published?_addCell, if_pos rfl] at ho
      exact (hstands ops ho n hn).mono hgrows.toLe

theorem Standing.mono {as : String → Use} {ns ms : List NodeId} {x y : Store}
    (h : Standing us r u as ns ms x) (hle : x.Le y) : Standing us r u as ns ms y :=
  ⟨h.1, fun n hn => (h.2 n hn).mono hle⟩

theorem Standing.cons {as : String → Use} {n m : NodeId} {ns ms : List NodeId} {x : Store}
    (h : Standing us r u as [n] [m] x) (hs : Standing us r u as ns ms x) :
    Standing us r u as (n :: ns) (m :: ms) x := by
  refine ⟨?_, List.forall_mem_cons.mpr ⟨h.2 n (List.mem_singleton.mpr rfl), hs.2⟩⟩
  rw [List.map_cons, ← hs.1, (List.cons.inj h.1).1]

theorem repeats_functionRef (hr : Recurs us r u) (h : r.Mirrors u s t) (n : NodeId) :
    Repeats r u (functionRef n) (functionRef (r.again u n)) s t
      fun f g _ => (AttributeValue.function g).blank = (AttributeValue.function f).blank := by
  have hnode : Repeats r u (Procedure.ofOption .unknown (s.store.node? n))
      (Procedure.ofOption .unknown (t.store.node? (r.again u n))) s t
      fun x y _ => y.header = x.header ∧ y.kind = x.kind :=
    .ofOption h fun x hx => by
      obtain ⟨y, hy, hheader, hkind⟩ := h.facts hr hx
      exact ⟨y, hy, hheader, hkind⟩
  refine .reading (hnode.bind fun x y s' t' h' _ hxy => .pure h' ?_)
  simp [AttributeValue.blank, hxy.1, hxy.2]

/-- Sessions to which the same is added, and what has been added. -/
def mirroring (us : List Use) (r u : Session) : Pairing where
  session := r.Mirrors u
  later := Store.Grows
  node as n m := Standing us r u as [n] [m]
  nodes := Standing us r u
  slots := Slots us r u

theorem repeats_lockstep (hr : Recurs us r u) : Lockstep us (mirroring us r u) (Repeats r u) where
  pure h hab := .pure h hab
  fail f := .fail f
  bind hx hf := hx.bind hf
  releasing hx := hx.releasing
  named h hid hus := repeats_named hr h hid hus
  hold a b _ h hP := .hold h a b hP
  intern _ h := .aside h rfl rfl ⟨rfl, rfl, rfl, rfl⟩ ⟨rfl, rfl, rfl, rfl⟩ trivial
  functionRef {_ _ _ n m} h hnm := by
    obtain rfl : m = r.again u n := (List.cons.inj hnm.1).1
    exact repeats_functionRef hr h n
  filled arity _ ns ms h hns := repeats_newCell h arity (.filled ns) (.filled ms) rfl rfl
    (congrArg some hns.1) fun _ ho n hn => hns.2 n (Option.some.inj ho ▸ hn)
  deferred arity p _ h := repeats_newCell h arity _ _ (by simp [Content.isNew])
    (by simp [Content.isNew]) rfl fun _ ho => nomatch ho
  takeSlot _ _ name _ hus := by cases hr.passive (.slot name) hus
  construct header _ _ _ _ h hblank hs := repeats_construct hr h header hblank hs _
  bindName {_ _ _ id _ _} h hgives hnm := by
    cases id with
    | some name => cases hr.passive (.gives name) (hgives name rfl)
    | none => exact .aside h rfl rfl ⟨rfl, rfl, rfl, rfl⟩ ⟨rfl, rfl, rfl, rfl⟩ hnm
  nodesNil _ _ := ⟨rfl, fun n hn => absurd hn List.not_mem_nil⟩
  nodesCons hnm hlater hns := (hnm.mono hlater.toLe).cons hns
  slotsNil _ := .nil _ _
  slotsCons hc hcs := hc.cons hcs
  slotsLater hs hlater := hs.mono hlater

/-- Values that could be made once can be made again, from then on, wherever what they name is as it
was. -/
theorem evalNodes_again {es : List NodeExpr} (hr : Recurs (nodesUses .value es) s t) {ops : List NodeId}
    {s' : Session} (h : evalNodes es s = (.ok ops, s')) :
    ∃ t', evalNodes es t = (.ok (ops.map (s.again t)), t') ∧ s.Mirrors t s' t' ∧
      ∀ n ∈ ops, Stands (nodesUses .value es) s .value s'.store n := by
  have hname : ∀ id, (Use.value id).id? = some id := fun _ => rfl
  obtain ⟨ops', t', hrun, hmirrors, -, rfl, hstands⟩ :=
    (repeats_lockstep hr).evalNodes es hname (List.Subset.refl _) (Mirrors.refl s t) ops s' h
  exact ⟨t', hrun, hmirrors, hstands⟩

end Session
end BoundTree
