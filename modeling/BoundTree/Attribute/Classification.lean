import BoundTree.Kind.Basic

/-!
Small classifications that operations carry.
-/
namespace BoundTree

/-- Where a branch jumps. -/
inductive BranchKind
  /-- The next round of the enclosing loop. -/
  | toContinue
  /-- The end of the enclosing loop or switch. -/
  | toBreak
  /-- A label. -/
  | toLabel
  deriving DecidableEq, Repr

namespace BranchKind

def name : BranchKind → String
  | .toContinue => "Continue"
  | .toBreak => "Break"
  | .toLabel => "GoTo"

def all : List BranchKind :=
  [.toContinue, .toBreak, .toLabel]

instance : Named BranchKind := ⟨all, name⟩

theorem mem_all (x : BranchKind) : x ∈ all := by cases x <;> decide

end BranchKind

/-- The forms of loops. -/
inductive LoopKind
  | whileLoop
  | forLoop
  | forToLoop
  | forEachLoop
  deriving DecidableEq, Repr

namespace LoopKind

def name : LoopKind → String
  | .whileLoop => "While"
  | .forLoop => "For"
  | .forToLoop => "ForTo"
  | .forEachLoop => "ForEach"

def all : List LoopKind :=
  [.whileLoop, .forLoop, .forToLoop, .forEachLoop]

instance : Named LoopKind := ⟨all, name⟩

theorem mem_all (x : LoopKind) : x ∈ all := by cases x <;> decide

/-- The form of a kind that is a loop. -/
def ofKind? : Kind → Option LoopKind
  | .whileLoop => some .whileLoop
  | .forLoop => some .forLoop
  | .forToLoop => some .forToLoop
  | .forEachLoop => some .forEachLoop
  | _ => none

theorem isSome_ofKind? (k : Kind) : (ofKind? k).isSome = k.isLoop := by cases k <;> rfl

end LoopKind

/-- The forms of case clauses. -/
inductive CaseKind
  | singleValue
  | relational
  | range
  | pattern
  /-- Whatever no other clause matches. -/
  | otherwise
  deriving DecidableEq, Repr

namespace CaseKind

def name : CaseKind → String
  | .singleValue => "SingleValue"
  | .relational => "Relational"
  | .range => "Range"
  | .pattern => "Pattern"
  | .otherwise => "Default"

def all : List CaseKind :=
  [.singleValue, .relational, .range, .pattern, .otherwise]

instance : Named CaseKind := ⟨all, name⟩

theorem mem_all (x : CaseKind) : x ∈ all := by cases x <;> decide

/-- The form of a kind that is a case clause. -/
def ofKind? : Kind → Option CaseKind
  | .singleValueCaseClause => some .singleValue
  | .relationalCaseClause => some .relational
  | .rangeCaseClause => some .range
  | .patternCaseClause => some .pattern
  | .defaultCaseClause => some .otherwise
  | _ => none

theorem isSome_ofKind? (k : Kind) : (ofKind? k).isSome = k.isCaseClause := by cases k <;> rfl

end CaseKind

/-- How an argument was supplied. -/
inductive ArgumentKind
  | explicit
  /-- The rest of the arguments, in an array. -/
  | paramArray
  | defaultValue
  /-- The rest of the arguments, in a collection. -/
  | paramCollection
  deriving DecidableEq, Repr

namespace ArgumentKind

def name : ArgumentKind → String
  | .explicit => "Explicit"
  | .paramArray => "ParamArray"
  | .defaultValue => "DefaultValue"
  | .paramCollection => "ParamCollection"

def all : List ArgumentKind :=
  [.explicit, .paramArray, .defaultValue, .paramCollection]

instance : Named ArgumentKind := ⟨all, name⟩

theorem mem_all (x : ArgumentKind) : x ∈ all := by cases x <;> decide

end ArgumentKind

/-- How an argument is passed. -/
inductive RefKind
  | byValue
  | byRef
  | byOut
  | byIn
  | refReadOnlyParameter
  deriving DecidableEq, Repr

namespace RefKind

def name : RefKind → String
  | .byValue => "None"
  | .byRef => "Ref"
  | .byOut => "Out"
  | .byIn => "In"
  | .refReadOnlyParameter => "RefReadOnlyParameter"

def all : List RefKind :=
  [.byValue, .byRef, .byOut, .byIn, .refReadOnlyParameter]

instance : Named RefKind := ⟨all, name⟩

theorem mem_all (x : RefKind) : x ∈ all := by cases x <;> decide

end RefKind

/-- What a reference to an instance stands for. -/
inductive InstanceReferenceKind
  | containingTypeInstance
  | implicitReceiver
  | patternInput
  | interpolatedStringHandler
  deriving DecidableEq, Repr

namespace InstanceReferenceKind

def name : InstanceReferenceKind → String
  | .containingTypeInstance => "ContainingTypeInstance"
  | .implicitReceiver => "ImplicitReceiver"
  | .patternInput => "PatternInput"
  | .interpolatedStringHandler => "InterpolatedStringHandler"

def all : List InstanceReferenceKind :=
  [.containingTypeInstance, .implicitReceiver, .patternInput, .interpolatedStringHandler]

instance : Named InstanceReferenceKind := ⟨all, name⟩

theorem mem_all (x : InstanceReferenceKind) : x ∈ all := by cases x <;> decide

end InstanceReferenceKind

/-- The value that a placeholder stands for. -/
inductive PlaceholderKind
  | unspecified
  | switchOperationCaseValue
  | forToLoopBinaryOperatorLeftOperand
  | forToLoopBinaryOperatorRightOperand
  | aggregationGroup
  deriving DecidableEq, Repr

namespace PlaceholderKind

def name : PlaceholderKind → String
  | .unspecified => "Unspecified"
  | .switchOperationCaseValue => "SwitchOperationCaseValue"
  | .forToLoopBinaryOperatorLeftOperand => "ForToLoopBinaryOperatorLeftOperand"
  | .forToLoopBinaryOperatorRightOperand => "ForToLoopBinaryOperatorRightOperand"
  | .aggregationGroup => "AggregationGroup"

def all : List PlaceholderKind :=
  [.unspecified, .switchOperationCaseValue, .forToLoopBinaryOperatorLeftOperand,
    .forToLoopBinaryOperatorRightOperand, .aggregationGroup]

instance : Named PlaceholderKind := ⟨all, name⟩

theorem mem_all (x : PlaceholderKind) : x ∈ all := by cases x <;> decide

end PlaceholderKind

/-- The value that a placeholder in the construction of a string handler stands for. -/
inductive HandlerPlaceholder
  | callsiteArgument (position : UInt32)
  | callsiteReceiver
  | trailingValidityArgument
  deriving DecidableEq, Repr

def HandlerPlaceholder.debug : HandlerPlaceholder → String
  | .callsiteArgument p => "CallsiteArgument(" ++ toString p.toNat ++ ")"
  | .callsiteReceiver => "CallsiteReceiver"
  | .trailingValidityArgument => "TrailingValidityArgument"

end BoundTree
