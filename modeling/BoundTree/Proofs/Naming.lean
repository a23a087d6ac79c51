import BoundTree.Proofs.Evaluation
import BoundTree.Proofs.Presence

/-!
Names. Main statement: while values are made, a name keeps what it stands for or is bound to something new,
and a slot that has lost its name does not get it back.
-/
namespace BoundTree

namespace Session

theorem lookup_mem {l : List (String × Nat)} {name : String} {c : Nat} (h : lookup l name = some c) :
    (name, c) ∈ l := by
  obtain ⟨b, hb, rfl⟩ := Option.map_eq_some_iff.mp h
  have hname : b.1 = name := by simpa using List.find?_some hb
  exact hname ▸ List.mem_of_find?_eq_some hb

theorem lookup_remove (l : List (String × Nat)) (name other : String) :
    lookup (remove l name) other = if other = name then none else lookup l other := by
  unfold lookup remove
  rw [List.find?_filter]
  split
  · next heq =>
    rw [heq, List.find?_eq_none.mpr (by simp), Option.map_none]
  · next hne =>
    refine congrArg (Option.map _) (List.find?_congr fun b _ => ?_)
    by_cases hb : b.1 = other
    · simp [hb, hne]
    · simp [hb]

theorem lookup_cons_remove (l : List (String × Nat)) (name : String) (c : Nat) (other : String) :
    lookup ((name, c) :: remove l name) other = if other = name then some c else lookup l other := by
  by_cases heq : other = name
  · simp [lookup, heq]
  · have hne : ¬name = other := fun h => heq h.symm
    have htail : lookup ((name, c) :: remove l name) other = lookup (remove l name) other := by
      simp [lookup, hne]
    rw [htail, lookup_remove, if_neg heq, if_neg heq]

/-- The name that is given is that of the operation, and the other ones are as before. -/
theorem node?_bind (s : Session) (name : Option String) (n : NodeId) (id : String) :
    (s.bind name n).node? id = if name = some id then some n else s.node? id := by
  cases name with
  | none => simp [node?, bind]
  | some name =>
    refine (lookup_cons_remove s.bindings name n id).trans ?_
    simp only [Option.some.injEq, eq_comm (a := name)]
    rfl

theorem slots_bind (s : Session) (name : Option String) (n : NodeId) :
    (s.bind name n).slots = s.slots := by
  cases name <;> rfl

/-- What has a name had it before, or is new. -/
structure Advances (s t : Session) : Prop where
  size : s.store.nodes.size ≤ t.store.nodes.size
  node : ∀ id, t.node? id = s.node? id ∨ ∃ n, t.node? id = some n ∧ s.store.nodes.size ≤ n
  slot : ∀ name c, lookup t.slots name = some c → lookup s.slots name = some c

namespace Advances

variable {s t u : Session}

theorem refl (s : Session) : s.Advances s := ⟨le_rfl, fun _ => .inl rfl, fun _ _ h => h⟩

theorem trans (h : s.Advances t) (k : t.Advances u) : s.Advances u := by
  refine ⟨h.size.trans k.size, fun id => ?_, fun name c hc => h.slot name c (k.slot name c hc)⟩
  rcases k.node id with hk | ⟨n, hn, hle⟩
  · rw [hk]
    exact h.node id
  · exact .inr ⟨n, hn, h.size.trans hle⟩

theorem of_size (hsize : s.store.nodes.size ≤ t.store.nodes.size) (bindings : t.bindings = s.bindings)
    (slots : t.slots = s.slots) : s.Advances t := by
  refine ⟨hsize, fun id => .inl ?_, fun name c hc => slots ▸ hc⟩
  rw [node?, node?, bindings]

/-- A name is given to something new. -/
theorem bind (h : s.Advances t) (name : Option String) {n : NodeId} (hn : s.store.nodes.size ≤ n) :
    s.Advances (t.bind name n) := by
  refine ⟨?_, fun id => ?_, fun name' c hc => h.slot name' c ?_⟩
  · rw [(t.bind_store name n).1]
    exact h.size
  · rw [node?_bind]
    split
    · exact .inr ⟨n, rfl, hn⟩
    · exact h.node id
  · rwa [slots_bind] at hc

end Advances

end Session

namespace Procedure

open Session

variable {α β : Type} {x : Procedure α}

/-- Whatever the procedure gives a name is new. -/
abbrev Advancing : Procedure α → Prop := Within Session.Advances

namespace Advancing

theorem advances (hx : Advancing x) (s : Session) : s.Advances (x s).2 := hx.apply .refl .trans s

theorem ofOption (f : Fault) (a : Option α) : Advancing (Procedure.ofOption f a) :=
  Within.compositional.ofOption f a

theorem releasing (hx : Advancing x) : Advancing (releasing x) :=
  fun s => (hx s).tail (.of_size le_rfl rfl rfl)

theorem hold (h : Holder) : Advancing (hold h) := fun _ => .single (.of_size le_rfl rfl rfl)

end Advancing

/-- And the result of the procedure is new. -/
structure Renewing (x : Procedure NodeId) : Prop where
  advancing : Advancing x
  fresh : ∀ {s t n}, x s = (.ok n, t) → s.store.nodes.size ≤ n

namespace Renewing

/-- What comes next may rely on what is known of the results. -/
theorem bind_of {f : α → Procedure NodeId} {Q : α → Prop} (hx : Advancing x)
    (hQ : ∀ s a t, x s = (.ok a, t) → Q a) (hf : ∀ a, Q a → Renewing (f a)) : Renewing (x >>= f) := by
  refine ⟨Within.bind_of hx hQ fun a ha => (hf a ha).advancing, fun {s t n} h => ?_⟩
  obtain ⟨a, u, hu, ht⟩ := bind_eq_ok h
  have hadvances := hx.advances s
  rw [hu] at hadvances
  exact hadvances.size.trans ((hf a (hQ s a u hu)).fresh ht)

theorem releasing {x : Procedure NodeId} (hx : Renewing x) : Renewing (releasing x) := by
  refine ⟨Advancing.releasing hx.advancing, fun {s t n} h => ?_⟩
  rw [releasing_apply] at h
  exact hx.fresh (Prod.ext (Prod.mk.inj h).1 rfl)

/-- The result gets a name. -/
theorem named {x : Procedure NodeId} (hx : Renewing x) (name : Option String) :
    Advancing (x >>= fun n => modify (·.bind name n) >>= fun _ => Pure.pure n) := by
  intro s
  apply Relation.ReflTransGen.single
  have hs := hx.advancing.advances s
  rcases hr : x s with ⟨f | n, t⟩
  · rw [hr] at hs
    rw [bind_error hr]
    exact hs
  · rw [hr] at hs
    rw [bind_ok hr]
    exact hs.bind name (hx.fresh hr)

end Renewing
end Procedure

namespace Session

open Procedure

theorem renewing_construct (header : Header) (payload : Payload) (cells : List CellId) :
    Renewing (construct header payload cells) := by
  refine ⟨fun s => .single ?_, fun h => ?_⟩
  · have hsize := (Additions.grows (adding_construct header payload cells s)).toLe.size_nodes
    rw [construct_apply] at hsize ⊢
    split at hsize
    · exact .of_size hsize rfl rfl
    · split at hsize <;> exact .of_size hsize rfl rfl
  · obtain ⟨rfl, -⟩ := construct_eq_ok h
    exact le_rfl

theorem advancing_newCell (arity : Arity) (content : Content) : Advancing (newCell arity content) :=
  fun _ => .single (.of_size le_rfl rfl rfl)

theorem advancing_takeSlot (arity : Arity) (name : String) : Advancing (takeSlot arity name) := by
  intro s
  apply Relation.ReflTransGen.single
  have hlost : ∀ held, s.Advances { s with slots := remove s.slots name, held := held } := by
    refine fun held => ⟨le_rfl, fun _ => .inl rfl, fun other c hc => ?_⟩
    rw [lookup_remove] at hc
    split at hc
    · cases hc
    · exact hc
  rw [takeSlot_apply]
  split
  · exact .refl s
  · split
    · exact hlost _
    · exact hlost _

theorem advancing_intern (name : String) : Advancing (intern name) :=
  fun _ => .single (.of_size le_rfl rfl rfl)

theorem advancing_logic : EvalLogic (fun _ _ => True) (fun x => Advancing x) Renewing where
  toCompositional := Within.compositional
  hold := .hold
  intern := advancing_intern
  newCell arity content _ := advancing_newCell arity content
  takeSlot := advancing_takeSlot
  assemble _ cells _ _ _ := .bind_of (.ofOption _ _) (fun _ _ _ _ => trivial) fun payload _ =>
    renewing_construct _ payload cells
  after hx hQ hf := .bind_of hx hQ hf
  releasing hx := hx.releasing
  named id hx := hx.named id

theorem advancing_evalNodes (es : List NodeExpr) : Advancing (evalNodes es) :=
  advancing_logic.evalNodes es fun _ _ => trivial

end Session
end BoundTree
