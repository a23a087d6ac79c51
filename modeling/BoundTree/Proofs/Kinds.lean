import BoundTree.Proofs.Observation
import BoundTree.Proofs.Presence

/-!
What the kind of an operation tells of it. The table of shapes is searched by kind, and the first shape
that is found is the only one that serves the kind. Main statement: whatever has been done, every
operation that was ever built is of the shape that serves its kind, is handed to the one handler of that
shape, and has a header that suits the kind.
-/
namespace BoundTree

namespace Shape

/-- A kind is served by one shape, which is the one that is found. -/
theorem ofKind?_eq_some {s : Shape} {k : Kind} : ofKind? k = some s ↔ k ∈ s.kinds := by
  have htable : ∀ s ∈ all, ∀ k ∈ s.kinds, ofKind? k = some s := by decide +kernel
  constructor
  · intro h
    simpa using List.find?_some h
  · intro h
    exact htable s s.mem_all k h

def isLoop (s : Shape) : Bool := s ∈ [whileLoop, forLoop, forToLoop, forEachLoop]

def isCaseClause (s : Shape) : Bool :=
  s ∈ [singleValueCaseClause, relationalCaseClause, rangeCaseClause, patternCaseClause,
    defaultCaseClause]

/-- Loops and case clauses are told by their shape as well as by their kind. -/
theorem isLoop_kind {s : Shape} {k : Kind} (h : k ∈ s.kinds) :
    k.isLoop = s.isLoop ∧ k.isCaseClause = s.isCaseClause := by
  have htable : ∀ s ∈ all, ∀ k ∈ s.kinds,
      k.isLoop = s.isLoop ∧ k.isCaseClause = s.isCaseClause := by decide +kernel
  exact htable s s.mem_all k h

end Shape

namespace Payload

variable {p : Payload} {h : Header}

/-- Nothing keeps an operation from being built where none of the three checks fails. -/
theorem error?_eq_none : p.error? h = none ↔
    h.error? p.kind = none ∧ p.kindError? = none ∧ p.ruleError? h = none := by
  unfold error?
  cases h.error? p.kind <;> cases p.kindError? <;> simp

theorem kindError?_eq_none : p.kindError? = none ↔ p.kind ∈ p.shape.kinds := by
  unfold kindError?
  split <;> simp_all

end Payload

theorem Header.error?_eq_none {h : Header} {k : Kind} : h.error? k = none ↔
    (k.isStatement = true → h.resultType = none ∧ h.constant = none) ∧
      (k.isSynthetic = true → h.model = none) := by
  unfold Header.error?
  cases k.isStatement <;> cases k.isSynthetic <;> cases h.resultType <;> cases h.constant <;>
    cases h.model <;> simp

namespace Session

open Procedure

/-- Every operation passed the checks of its header and of its payload. -/
def Checked (s : Session) : Prop :=
  ∀ n node, s.store.node? n = some node → node.payload.error? node.header = none

theorem Change.checked {s t : Session} (h : s.Change t) (hs : s.Checked) : t.Checked := by
  cases h with
  | adds h =>
    cases h with
    | names store =>
      intro n node hn
      exact hs n node (store ▸ hn)
    | report => exact hs
    | addCell => exact hs
    | addOperation cells he =>
      intro n node' hn
      obtain ⟨node, hnode, hle⟩ := Store.le_addOperation hn
      rw [hle.payload, hle.header]
      split at hnode
      · cases hnode
        exact he
      · exact hs n _ hnode
  | startRun => exact hs
  | settle run candidate =>
    intro n node' hn
    obtain ⟨node, hnode, hle⟩ := le_node_settle hn
    rw [hle.payload, hle.header]
    exact hs n _ hnode

theorem checked_start (verifies : Bool) : (start verifies).Checked := by
  intro n node hn
  simp [start, Store.node?] at hn

theorem Reached.checked {verifies : Bool} {s : Session} (h : Reached verifies s) : s.Checked :=
  h.holds (checked_start verifies) Change.checked

/-- A visitor that notes the method that was called, and does nothing else. -/
def recording : Visitor (List String) where
  method shape := some fun _ _ _ called => pure (called ++ [shape.visitMethod])
  fallback _ _ _ called := pure called

/-- An operation is handed to the handler of its shape, once. -/
theorem accept_apply {α β : Type} (f : Folder α β) {s : Session} {n : NodeId} {node : Node}
    (h : s.store.node? n = some node) (a : α) :
    f.accept n a s = f.handler node.shape (f.acceptWithin s.store.budget) n node a s := by
  simp only [Folder.accept, Folder.acceptWithin, bind_apply, read_apply, h, ofOption_some_apply]

/-- Whether links are checked or not, and whatever the steps came to: the kind of an operation finds the
descriptor of its shape in the table, and the visitor method that the descriptor names is called, once,
with the operation; a cast succeeds for that shape alone; loops and case clauses are those of their
shapes; a statement has neither result type nor constant, and a flow node has no semantic model. -/
theorem kind_tells {verifies : Bool} {s : Session} (hs : Reached verifies s) {n : NodeId} {node : Node}
    (hn : s.store.node? n = some node) :
    (∃ d, (Shape.ofKind? node.kind).map Shape.descriptor = some d ∧ d.name = node.shape.name ∧
      node.kind ∈ d.kinds ∧ recording.accept n [] s = (.ok ["visit_" ++ Text.snakeCase d.name], s)) ∧
    (∀ {α β : Type} (f : Folder α β) a, f.accept n a s =
      f.handler node.shape (f.acceptWithin s.store.budget) n node a s) ∧
    (∀ shape, (∃ b, answer n node (.downcast shape) s = (.ok (.truth b), s)) ∧
      (answer n node (.downcast shape) s = (.ok (.truth true), s) ↔
        Shape.ofKind? node.kind = some shape)) ∧
    (LoopKind.ofKind? node.kind).isSome = node.shape.isLoop ∧
    (CaseKind.ofKind? node.kind).isSome = node.shape.isCaseClause ∧
    (node.kind.isStatement = true → node.header.resultType = none ∧ node.header.constant = none) ∧
    (node.kind.isSynthetic = true → node.header.model = none) := by
  obtain ⟨hheader, hkind, -⟩ := Payload.error?_eq_none.mp (hs.checked n node hn)
  have hmem : node.kind ∈ node.shape.kinds := Payload.kindError?_eq_none.mp hkind
  have hfound : Shape.ofKind? node.kind = some node.shape := Shape.ofKind?_eq_some.mpr hmem
  obtain ⟨hstatement, hsynthetic⟩ := Header.error?_eq_none.mp hheader
  obtain ⟨hloop, hclause⟩ := Shape.isLoop_kind hmem
  refine ⟨⟨node.shape.descriptor, ?_, rfl, hmem, ?_⟩, fun f a => accept_apply f hn a, fun shape => ?_,
    ?_, ?_, hstatement, hsynthetic⟩
  · rw [hfound]
    rfl
  · rw [accept_apply recording hn]
    rfl
  · have hanswer : answer n node (.downcast shape) s = (.ok (.truth (node.shape = shape)), s) := rfl
    refine ⟨⟨_, hanswer⟩, ?_⟩
    rw [hanswer, hfound]
    simp
  · rw [LoopKind.isSome_ofKind?, hloop]
  · rw [CaseKind.isSome_ofKind?, hclause]

/-- A statement, and a temporary of a flow graph that keeps it. -/
def capturedStatement : List Step :=
  [.build (emptyStatement (some "x")), .flow ⟨⟨0⟩⟩ none (.capture ⟨0⟩ (.named "x"))]

theorem kind_tells_captured : ∃ node,
    ((start true).after capturedStatement).store.node? 1 = some node ∧ node.kind = .flowCapture ∧
      (recording.accept 1 [] ((start true).after capturedStatement)).1 =
        .ok ["visit_flow_capture"] ∧ node.header.model = none := by
  obtain ⟨node, hnode⟩ : ∃ node, ((start true).after capturedStatement).store.node? 1 = some node :=
    Option.isSome_iff_exists.mp (by decide)
  have hkind : node.kind = .flowCapture := by
    have hmap : (((start true).after capturedStatement).store.node? 1).map Node.kind =
        some .flowCapture := by decide
    rwa [hnode, Option.map_some, Option.some_inj] at hmap
  obtain ⟨⟨d, hd, -, -, hcalled⟩, -, -, -, -, -, hsynthetic⟩ :=
    kind_tells (Reached.start.after capturedStatement) hnode
  have hname : d.name = "FlowCapture" := by
    rw [hkind, Shape.ofKind?_eq_some.mpr (show Kind.flowCapture ∈ Shape.flowCapture.kinds by decide)] at hd
    cases hd
    rfl
  have hmethod : "visit_" ++ Text.snakeCase "FlowCapture" = "visit_flow_capture" := by decide +kernel
  rw [hname, hmethod] at hcalled
  exact ⟨node, hnode, hkind, congrArg Prod.fst hcalled, hsynthetic (by rw [hkind]; decide)⟩

end Session
end BoundTree
