import BoundTree.Derive.Ident
import BoundTree.Text.Quoted

/-!
Why nothing can be made of a declaration.
-/
namespace BoundTree.Derive

/-- The annotations that are understood. -/
inductive Directive
  | shape
  | slot
  | visitor
  deriving DecidableEq, Repr

def Directive.word : Directive → String
  | .shape => "shape"
  | .slot => "slot"
  | .visitor => "visitor"

/-- What was expected where something else stood. -/
inductive Expected
  | equals
  | comma
  | parentheses
  | identifier
  deriving DecidableEq, Repr

inductive DeriveError
  /-- An annotation has no parentheses. -/
  | withoutSettings (d : Directive)
  | unsupported (d : Directive)
  | expected (e : Expected)
  | keyword (i : Ident)
  | emptyKinds
  | notKindName
  | noKind
  | severalKinds
  | notStruct
  | notNamed
  | noKindField
  | noNode
  | notEnum
  | notOneShape
  deriving DecidableEq, Repr

def Expected.message : Expected → String
  | .equals => "expected `=`"
  | .comma => "expected `,`"
  | .parentheses => "expected parentheses"
  | .identifier => "expected identifier"

def DeriveError.message : DeriveError → String
  | .withoutSettings d => "expected attribute arguments in parentheses: #[" ++ d.word ++ "(...)]"
  | .unsupported d => "unsupported " ++ d.word ++ " option"
  | .expected e => e.message
  | .keyword i => "expected identifier, found keyword `" ++ i.text ++ "`"
  | .emptyKinds => "unexpected end of input, expected nested attribute"
  | .notKindName => "expected an operation kind name"
  | .noKind => "a shape needs #[shape(kind = ..)] or #[shape(kinds(..))]"
  | .severalKinds => "use #[shape(kinds(..))] for shapes shared by several kinds"
  | .notStruct => "Shape can only be derived for structs"
  | .notNamed => "Shape needs named fields"
  | .noKindField => "shapes shared by several kinds need a `kind: OperationKind` field"
  | .noNode => "missing #[visitor(node = ..)]"
  | .notEnum => "Visitor can only be derived for enums"
  | .notOneShape => "each variant must wrap exactly one shape"

/-- What keeps code from being generated. -/
inductive DeriveFault
  | refused (e : DeriveError)
  /-- A name for the generated code would be no identifier. -/
  | invalidName (name : String)
  deriving DecidableEq, Repr

def DeriveFault.message : DeriveFault → String
  | .refused e => e.message
  | .invalidName name => Text.quoteString name ++ " is not a valid Ident"

end BoundTree.Derive
