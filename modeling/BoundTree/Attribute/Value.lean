import BoundTree.Attribute.Classification
import BoundTree.Attribute.Conversion
import BoundTree.Attribute.Operator
import BoundTree.Interner
import BoundTree.Shape.Field
import BoundTree.Source
import BoundTree.Text.Quoted

/-!
The values of plain attributes and their written forms.
-/
namespace BoundTree

/-- An operation by its place in the store. -/
abbrev NodeId := Nat

/-- The function that a flow node stands for, with what is shown of it. -/
structure FunctionRef where
  node : NodeId
  kind : Kind
  locus : Locus
  deriving DecidableEq, Repr

def FunctionRef.debug (f : FunctionRef) : String := f.kind.name ++ "@" ++ f.locus.display

inductive AttributeValue
  | flag (b : Bool)
  | handle (c : Category) (h : Handle c)
  | optionalHandle (c : Category) (h : Option (Handle c))
  | handles (c : Category) (hs : List (Handle c))
  | text (s : String)
  | symbol (s : Symbol)
  | optionalSymbols (ss : List (Option Symbol))
  | unaryOperator (o : UnaryOperator)
  | binaryOperator (o : BinaryOperator)
  | branchKind (k : BranchKind)
  | argumentKind (k : ArgumentKind)
  | refKinds (ks : List RefKind)
  | instanceReferenceKind (k : InstanceReferenceKind)
  | placeholderKind (k : PlaceholderKind)
  | handlerPlaceholder (p : HandlerPlaceholder)
  | conversion (c : Conversion)
  | forEachInfo (i : Option ForEachInfo)
  | function (f : FunctionRef)
  deriving DecidableEq, Repr

namespace AttributeValue

def type : AttributeValue → AttributeType
  | .flag _ => .flag
  | .handle c _ => .handle c
  | .optionalHandle c _ => .optionalHandle c
  | .handles c _ => .handles c
  | .text _ => .text
  | .symbol _ => .symbol
  | .optionalSymbols _ => .optionalSymbols
  | .unaryOperator _ => .unaryOperator
  | .binaryOperator _ => .binaryOperator
  | .branchKind _ => .branchKind
  | .argumentKind _ => .argumentKind
  | .refKinds _ => .refKinds
  | .instanceReferenceKind _ => .instanceReferenceKind
  | .placeholderKind _ => .placeholderKind
  | .handlerPlaceholder _ => .handlerPlaceholder
  | .conversion _ => .conversion
  | .forEachInfo _ => .forEachInfo
  | .function _ => .function

def debug : AttributeValue → String
  | .flag b => Text.truth b
  | .handle _ h => h.debug
  | .optionalHandle _ h => Text.optional (h.map Handle.debug)
  | .handles _ hs => Text.listed (hs.map Handle.debug)
  | .text s => Text.quoteString s
  | .symbol s => s.debug
  | .optionalSymbols ss => Text.listed (ss.map fun s => Text.optional (s.map Symbol.debug))
  | .unaryOperator o => o.name
  | .binaryOperator o => o.name
  | .branchKind k => k.name
  | .argumentKind k => k.name
  | .refKinds ks => Text.listed (ks.map RefKind.name)
  | .instanceReferenceKind k => k.name
  | .placeholderKind k => k.name
  | .handlerPlaceholder p => p.debug
  | .conversion c => c.debug
  | .forEachInfo i => Text.optional (i.map ForEachInfo.debug)
  | .function f => f.debug

/-- The operation that a value keeps alive. -/
def node? : AttributeValue → Option NodeId
  | .function f => some f.node
  | _ => none

end AttributeValue
end BoundTree
