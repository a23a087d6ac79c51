import BoundTree.Proofs.Bare

/-!
Properties of procedures that pass to everything put together from procedures that have them. Main
statement: what is true of reading a slot is true of every question.
-/
namespace BoundTree

namespace Procedure

theorem id_map' {α : Type} (x : Procedure α) : id <$> x = x := by
  have hmap : id <$> x = x >>= fun a => pure (id a) := rfl
  funext s
  rw [hmap, bind_apply]
  rcases x s with ⟨_ | _, _⟩ <;> rfl

theorem bind_assoc' {α β γ : Type} (x : Procedure α) (f : α → Procedure β) (g : β → Procedure γ) :
    x >>= f >>= g = x >>= fun a => f a >>= g := by
  funext s
  simp only [bind_apply]
  rcases x s with ⟨_ | _, _⟩ <;> rfl

instance : LawfulMonad Procedure :=
  LawfulMonad.mk' Procedure id_map' (fun _ _ => rfl) bind_assoc'

end Procedure

namespace Session

/-- The session without the checks of links. -/
def unchecked (s : Session) : Session := { s with verifies := false }

@[simp] theorem ancestorsUpTo_unchecked (s : Session) (k : Nat) (n : NodeId) :
    s.unchecked.ancestorsUpTo k n = s.ancestorsUpTo k n := by
  induction k generalizing n with
  | zero => rfl
  | succ k ih =>
    have hparent : s.unchecked.parent? n = s.parent? n := rfl
    simp only [ancestorsUpTo, hparent, ih]

@[simp] theorem ancestors?_unchecked (s : Session) (n : NodeId) :
    s.unchecked.ancestors? n = s.ancestors? n := by
  have hsize : s.unchecked.store.nodes.size = s.store.nodes.size := rfl
  simp only [ancestors?, ancestorsUpTo_unchecked, hsize]

/-! Folders that do not ask where an operation comes from. -/

def Folder.Blind {α β : Type} (f : Folder α β) : Prop :=
  ∀ shape visit n (node : Node) a,
    f.handler shape visit n node.bare a = f.handler shape visit n node a

theorem tracing_blind (pruned : List String) : (tracing pruned).Blind := fun _ _ _ _ _ => rfl

theorem noting_blind : noting.Blind := by
  intro shape visit n node notes
  cases shape with
  | binary =>
    change noteBinary visit n node.bare notes = noteBinary visit n node notes
    simp only [noteBinary, noteAnywhere, Node.kind_bare, Node.payload_bare, Payload.binaryOperator?_bare]
  | _ => rfl

theorem outlining_blind : outlining.Blind := fun _ _ _ _ _ => rfl

theorem counting_blind : counting.Blind := by
  intro shape visit n node depth
  cases shape <;> rfl

theorem evaluating_blind : evaluating.Blind := by
  intro shape visit n node scale
  cases shape with
  | binary =>
    change evaluateBinary visit n node.bare scale = evaluateBinary visit n node scale
    simp only [evaluateBinary, Node.payload_bare, Payload.binaryOperator?_bare]
  | _ => rfl

end Session

namespace Procedure

variable {α β : Type}

/-- What passes from procedures to what comes one after the other. -/
structure Sequential (L : ∀ {α : Type}, Procedure α → Prop) : Prop where
  pure : ∀ {α : Type} (a : α), L (Pure.pure a : Procedure α)
  fail : ∀ {α : Type} (f : Fault), L (Procedure.fail f : Procedure α)
  bind : ∀ {α β : Type} {x : Procedure α} {f : α → Procedure β}, L x → (∀ a, L (f a)) → L (x >>= f)

namespace Sequential

variable {L : ∀ {α : Type}, Procedure α → Prop} (h : Sequential L)
include h

theorem ofOption (f : Fault) (a : Option α) : L (Procedure.ofOption f a) := by
  cases a with
  | none => exact h.fail f
  | some a => exact h.pure a

theorem mapM {f : α → Procedure β} (hf : ∀ a, L (f a)) (l : List α) : L (l.mapM f) := by
  induction l with
  | nil => exact h.pure []
  | cons a l ih =>
    rw [List.mapM_cons]
    exact h.bind (hf a) fun _ => h.bind ih fun _ => h.pure _

theorem foldlM {f : β → α → Procedure β} (hf : ∀ b a, L (f b a)) (l : List α) (b : β) :
    L (l.foldlM f b) := by
  induction l generalizing b with
  | nil => exact h.pure b
  | cons a l ih => exact h.bind (hf b a) ih

theorem internAll (hintern : ∀ name, L (Session.intern name)) (names : List NameExpr) :
    L (Session.internAll names) := by
  induction names with
  | nil => exact h.pure []
  | cons e names ih =>
    cases e with
    | absent => exact h.bind ih fun _ => h.pure _
    | malformed => exact h.fail _
    | name name => exact h.bind (hintern name) fun _ => h.bind ih fun _ => h.pure _

theorem enumerate {readOne : CellId → Procedure (List NodeId)} (hread : ∀ c, L (readOne c))
    (cells : List CellId) : L (Session.enumerate readOne cells) := by
  induction cells with
  | nil => exact h.pure ()
  | cons c cells ih => exact h.bind (hread c) fun _ => ih

/-- A folder has what handing on an operation has, given that what is handed on to has it. -/
theorem acceptWithin {f : Session.Folder α β}
    (hf : ∀ visit, (∀ n a, L (visit n a)) → ∀ n a, L (read >>= fun s =>
      Procedure.ofOption .unknown (s.store.node? n) >>= fun node => f.handler node.shape visit n node a))
    (depth : Nat) (n : NodeId) (a : α) : L (f.acceptWithin depth n a) := by
  induction depth generalizing n a with
  | zero => exact h.fail _
  | succ depth ih => exact hf _ ih n a

end Sequential

/-- What is read off the session to go on from there is never whether links are checked. -/
structure Compositional (L : ∀ {α : Type}, Procedure α → Prop) : Prop extends Sequential L where
  reading : ∀ {α : Type} {f : Session → Procedure α}, (∀ s, f s.unchecked = f s) → (∀ s, L (f s)) →
    L (read >>= f)

/-- What reading a slot and reporting a failed verification have as well. What is read off the session is
neither whether links are checked nor where anything comes from. -/
structure Browses (L : ∀ {α : Type}, Procedure α → Prop) : Prop extends Sequential L where
  reading : ∀ {α : Type} {f : Session → Procedure α}, (∀ s, f s.unchecked = f s ∧ f s.bare = f s) →
    (∀ s, L (f s)) → L (read >>= f)
  operations : ∀ c, L (Session.operations c)
  warn : ∀ count root, L (emit (.verificationFailed count root))

namespace Browses

open Session

variable {L : ∀ {α : Type}, Procedure α → Prop} (h : Browses L)
include h

theorem childCells (n : NodeId) : L (Session.childCells n) :=
  h.reading (fun s => ⟨rfl, by simp [Option.elim_map, Function.comp_def]⟩) fun _ => h.pure _

theorem namedChildCells (n : NodeId) : L (Session.namedChildCells n) :=
  h.reading (fun s => ⟨rfl, by simp [Option.elim_map, Function.comp_def]⟩) fun _ => h.pure _

theorem gather (cells : List CellId) (limit : Option Nat) : L (Session.gather cells limit) := by
  induction cells generalizing limit with
  | nil => cases limit with
    | none => exact h.pure []
    | some k => cases k <;> exact h.pure []
  | cons c cells ih =>
    match limit with
    | none => exact h.bind (h.operations c) fun _ => h.bind (ih none) fun _ => h.pure _
    | some 0 => exact h.pure []
    | some (k + 1) => exact h.bind (h.operations c) fun _ => h.bind (ih _) fun _ => h.pure _

theorem children (n : NodeId) (limit : Option Nat) : L (Session.children n limit) :=
  h.bind (h.childCells n) fun _ => h.gather _ _

theorem viewSlots (cells : List (String × CellId)) : L (Session.viewSlots cells) := by
  induction cells with
  | nil => exact h.pure []
  | cons c cells ih => exact h.bind (h.operations c.2) fun _ => h.bind ih fun _ => h.pure _

theorem slotViews (n : NodeId) (limit : Option Nat) : L (Session.slotViews n limit) :=
  h.bind (h.namedChildCells n) fun _ => h.viewSlots _

theorem slotView? (n : NodeId) (place : Nat) : L (Session.slotView? n place) := by
  refine h.bind (h.namedChildCells n) fun cells => ?_
  cases cells[place]? with
  | none => exact h.pure none
  | some c => exact h.bind (h.operations c.2) fun _ => h.pure _

theorem walk (steps : Nat) (pending : List NodeId) : L (Session.walk steps pending) := by
  induction steps generalizing pending with
  | zero => exact h.pure _
  | succ steps ih =>
    cases pending with
    | nil => exact h.pure _
    | cons n pending => exact h.bind (h.children n none) fun _ => h.bind (ih _) fun _ => h.pure _

theorem walkUpTo (limit : Option Nat) (pending : List NodeId) : L (Session.walkUpTo limit pending) := by
  cases limit with
  | some steps => exact h.bind (h.walk _ _) fun _ => h.pure _
  | none =>
    refine h.reading (fun s => ⟨rfl, by simp⟩) fun s => h.bind (h.walk _ _) fun r => ?_
    dsimp only
    split
    · exact h.pure _
    · exact h.fail _

theorem descendants (n : NodeId) (limit : Option Nat) : L (Session.descendants n limit) :=
  h.bind (h.children n none) fun _ => h.walkUpTo _ _

theorem ancestors (n : NodeId) (limit : Option Nat) : L (Session.ancestors n limit) := by
  cases limit with
  | none => exact h.reading (fun s => by simp) fun _ => h.ofOption _ _
  | some k => exact h.reading (fun s => by simp) fun _ => h.pure _

theorem findAncestor? (n : NodeId) (k : Kind) : L (Session.findAncestor? n k) := by
  refine h.reading (fun s => ⟨by rw [ancestorsUpTo_unchecked]; rfl, by simp⟩) fun s => ?_
  split
  · exact h.pure _
  · exact h.bind (h.ancestors n none) fun _ => h.pure _

/-! Folders. -/

theorem threadCells {σ : Type} {visit : NodeId → σ → Procedure σ} (hv : ∀ n a, L (visit n a))
    (cells : List CellId) (a : σ) : L (Session.threadCells visit cells a) := by
  induction cells generalizing a with
  | nil => exact h.pure a
  | cons c cells ih =>
    exact h.bind (h.operations c) fun ops =>
      h.bind (h.foldlM (fun a child => hv child a) ops a) fun _ => ih _

theorem walkChildren {σ : Type} {visit : NodeId → σ → Procedure σ} (hv : ∀ n a, L (visit n a))
    (n : NodeId) (a : σ) : L (Session.walkChildren visit n a) :=
  h.bind (h.childCells n) fun _ => h.threadCells hv _ _

theorem foldChildren {visit : NodeId → α → Procedure β} (hv : ∀ n a, L (visit n a)) (n : NodeId)
    (a : α) : L (Session.foldChildren visit n a) :=
  h.walkChildren (fun child _ => h.bind (hv child a) fun _ => h.pure _) n []

/-- A folder has what each of its handlers has, given that what they hand on to has it. -/
theorem acceptWithin {f : Folder α β} (hb : f.Blind)
    (hf : ∀ shape visit, (∀ n a, L (visit n a)) → ∀ n node a, L (f.handler shape visit n node a))
    (depth : Nat) (n : NodeId) (a : α) : L (f.acceptWithin depth n a) := by
  refine h.toSequential.acceptWithin (fun visit hv n a => h.reading (fun s => ⟨rfl, ?_⟩) fun s =>
    h.bind (h.ofOption _ _) fun node => hf _ _ hv n node a) depth n a
  rw [store_bare, Store.node?_bare]
  cases s.store.node? n with
  | none => rfl
  | some node => exact hb _ _ _ _ _

theorem accept {f : Folder α β} (hb : f.Blind)
    (hf : ∀ shape visit, (∀ n a, L (visit n a)) → ∀ n node a, L (f.handler shape visit n node a))
    (n : NodeId) (a : α) : L (f.accept n a) :=
  h.reading (fun s => ⟨rfl, by simp⟩) fun _ => h.acceptWithin hb hf _ n a

theorem dumpSlots {visit : NodeId → Nat → Procedure (List Line)} (hv : ∀ n a, L (visit n a))
    (level : Nat) (cells : List (String × CellId)) : L (Session.dumpSlots visit level cells) := by
  induction cells with
  | nil => exact h.pure []
  | cons c cells ih =>
    exact h.bind (h.operations c.2) fun ops =>
      h.bind (h.mapM (fun n => hv n (level + 1)) ops) fun _ => h.bind ih fun _ => h.pure _

theorem visits (n : NodeId) (pruned : List String) : L (Session.visits n pruned) := by
  refine h.accept (tracing_blind pruned) (fun shape visit hv n node vs => ?_) n []
  change L (if node.shape.visitMethod ∈ pruned then _ else _)
  split
  · exact h.pure _
  · exact h.walkChildren hv _ _

theorem notes (n : NodeId) : L (Session.notes n) := by
  refine h.accept noting_blind (fun shape visit hv n node vs => ?_) n []
  have hany : ∀ vs, L (noteAnywhere visit n node vs) := fun vs => h.walkChildren hv _ _
  unfold Folder.handler noting
  cases shape <;> exact hany _

theorem outline (n : NodeId) (depth : Int) : L (Session.outline n depth) := by
  refine h.acceptWithin outlining_blind (fun shape visit hv n node depth => ?_) _ n depth
  exact h.bind (h.ofOption _ _) fun _ => h.bind (h.foldChildren hv _ _) fun _ => h.pure _

theorem census (n : NodeId) (depth : Int) : L (Session.census n depth) := by
  refine h.acceptWithin counting_blind (fun shape visit hv n node depth => ?_) _ n depth
  have hany : L (counting.fallback visit n node depth) := by
    change L (if depth ≤ 0 then _ else _)
    split
    · exact h.pure _
    · exact h.bind (h.foldChildren hv _ _) fun _ => h.pure _
  unfold Folder.handler
  cases hm : counting.method shape with
  | none => exact hany
  | some f =>
    have hf : f = fun _ _ _ _ => pure 0 := by
      cases shape <;> simp [counting] at hm
      exact hm.symm
    subst hf
    exact h.pure 0

theorem evaluate? (n : NodeId) (scale : Int) : L (Session.evaluate? n scale) := by
  refine h.accept evaluating_blind (fun shape visit hv n node scale => ?_) n scale
  have hbinary : L (evaluateBinary visit n node scale) := by
    refine h.bind (h.foldChildren hv _ _) fun r => ?_
    split <;> exact h.pure _
  have hany : L (evaluating.fallback visit n node scale) := by
    refine h.bind (h.children n (some 1)) fun ops => ?_
    split
    · exact hv _ _
    · exact h.pure _
  unfold Folder.handler evaluating
  cases shape <;> first | exact hany | exact hbinary | exact h.pure _

theorem fold (n : NodeId) (f : Folding) (argument : Int) : L (Session.fold n f argument) := by
  cases f with
  | outline => exact h.bind (h.outline n argument) fun _ => h.pure _
  | census => exact h.bind (h.census n argument) fun _ => h.pure _
  | evaluation => exact h.bind (h.evaluate? n argument) fun _ => h.pure _

/-! The check of a whole tree, and the other questions. -/

theorem sweepSlots (owner : NodeId) (cells : List (Linkage × CellId)) (w : Sweep) :
    L (Session.sweepSlots owner cells w) := by
  induction cells generalizing w with
  | nil => exact h.pure w
  | cons c cells ih =>
    exact h.bind (h.operations c.2) fun _ =>
      h.reading (fun s => ⟨rfl, by simp only [Sweep.visit_bare]⟩) fun _ => ih _

theorem sweep (steps : Nat) (w : Sweep) : L (Session.sweep steps w) := by
  induction steps generalizing w with
  | zero => exact h.fail _
  | succ steps ih =>
    unfold Session.sweep
    split
    · exact h.pure w
    · exact h.reading (fun s => ⟨rfl, by simp [Option.elim_map, Function.comp_def]⟩) fun _ =>
        h.bind (h.sweepSlots _ _ _) fun _ => ih _

theorem verifyTree (n : NodeId) : L (Session.verifyTree n) := by
  refine h.reading (fun s => ⟨rfl, by simp⟩) fun s => h.bind (h.sweep _ _) fun w => ?_
  dsimp only
  split
  · refine h.reading (fun s => ⟨rfl, by simp⟩) fun s => ?_
    split
    · exact h.bind (h.warn _ _) fun _ => h.pure _
    · exact h.pure _
  · exact h.pure _

theorem particulars (node : Node) : L (Session.particulars node) := by
  have hat : ∀ place, L (operationsAt node place) := by
    intro place
    unfold operationsAt
    split
    · exact h.operations _
    · exact h.pure _
  unfold Session.particulars
  split
  · refine h.bind (hat 0) fun ops => h.reading (fun s => ⟨rfl, ?_⟩) fun _ => h.pure _
    cases ops.head? with
    | none => rfl
    | some n => simp [Option.bind_map]
  · exact h.bind (hat 2) fun _ => h.pure _
  · split <;> exact h.pure _
  · split <;> exact h.pure _

/-- Only a dump asks where the operations below come from. -/
theorem answer (n : NodeId) (node : Node) (q : Query) (hdump : q = .dump → L (Session.dump n)) :
    L (Session.answer n node q) := by
  cases q with
  | particulars => exact h.bind (h.particulars node) fun _ => h.pure _
  | children limit => exact h.bind (h.children n limit) fun _ => h.pure _
  | slots limit => exact h.bind (h.slotViews n limit) fun _ => h.pure _
  | slot place => exact h.bind (h.slotView? n place) fun _ => h.pure _
  | root => exact h.bind (h.bind (h.ancestors n none) fun _ => h.pure _) fun _ => h.pure _
  | descendants withSelf limit =>
    cases withSelf with
    | true => exact h.bind (h.walkUpTo limit [n]) fun _ => h.pure _
    | false => exact h.bind (h.descendants n limit) fun _ => h.pure _
  | ancestors limit => exact h.bind (h.ancestors n limit) fun _ => h.pure _
  | findAncestor k => exact h.bind (h.findAncestor? n k) fun _ => h.pure _
  | dump => exact h.bind (hdump rfl) fun _ => h.pure _
  | verify => exact h.bind (h.verifyTree n) fun _ => h.pure _
  | visits pruned => exact h.bind (h.visits n pruned) fun _ => h.pure _
  | notes => exact h.bind (h.notes n) fun _ => h.pure _
  | fold f argument => exact h.fold n f argument
  | downcast s => exact h.pure _
  | malformed => exact h.fail _
  | info => exact h.reading (fun s => ⟨rfl, by simp⟩) fun _ => h.pure _
  | published => exact h.reading (fun s => ⟨rfl, by simp [slotStates]⟩) fun _ => h.pure _
  | payload => exact h.reading (fun s => ⟨rfl, by simp⟩) fun _ => h.pure _
  | parent => exact h.reading (fun s => ⟨rfl, by simp⟩) fun _ => h.pure _

end Browses

/-- What reading a slot and reporting a failed verification have as well. -/
structure Reads (L : ∀ {α : Type}, Procedure α → Prop) : Prop extends Compositional L where
  operations : ∀ c, L (Session.operations c)
  warn : ∀ count root, L (emit (.verificationFailed count root))

namespace Reads

open Session

variable {L : ∀ {α : Type}, Procedure α → Prop} (h : Reads L)
include h

theorem browses : Browses L where
  toSequential := h.toSequential
  reading same hf := h.reading (fun s => (same s).1) hf
  operations := h.operations
  warn := h.warn

theorem dump (n : NodeId) : L (Session.dump n) := by
  refine h.bind (h.reading (fun _ => rfl) fun _ => h.toSequential.acceptWithin (fun visit hv n level =>
    h.reading (fun _ => rfl) fun _ => h.bind (h.ofOption _ _) fun node => ?_) _ n 0) fun _ => h.pure _
  exact h.bind (h.browses.namedChildCells _) fun _ => h.bind (h.browses.dumpSlots hv _ _) fun _ => h.pure _

/-- Every question reads slots, and does nothing else. -/
theorem answer (n : NodeId) (node : Node) (q : Query) : L (Session.answer n node q) :=
  h.browses.answer n node q fun _ => h.dump n

end Reads
end Procedure
end BoundTree
