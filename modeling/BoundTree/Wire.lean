import BoundTree.Attribute.Classification
import BoundTree.Attribute.Conversion
import BoundTree.Attribute.Operator
import BoundTree.Constant
import BoundTree.Json.Basic
import BoundTree.Source

/-!
The interchange form of values. A record is an object, or an array of all its fields in order; a
constructor without value is its name, any other an object of one member. Reading ignores what a
record does not know, takes a missing field for null, and null is a value of optional fields only.
-/
namespace BoundTree

class Wire (α : Type) where
  write : α → Json
  read? : Json → Option α

namespace Wire

/-- The fields of a record by their names, null standing for a missing one. -/
def record? (names : List String) : Json → Option (List Json)
  | .obj members => some (names.map fun n => (Json.lookup members n).getD .null)
  | .arr items => if items.length = names.length then some items else none
  | _ => none

/-- The constructor and its value, null standing for none. -/
def variant? : Json → Option (String × Json)
  | .str name => some (name, .null)
  | .obj [(name, value)] => some (name, value)
  | _ => none

def readNamed? {α : Type} [Named α] (j : Json) : Option α :=
  match variant? j with
  | some (name, .null) => Named.ofName? name
  | _ => none

/-- Types of named values are written by name. -/
instance {α : Type} [Named α] : Wire α := ⟨fun a => .str (Named.name a), readNamed?⟩

instance : Wire Bool := ⟨.bool, Json.bool?⟩

instance : Wire UInt32 := ⟨Json.ofUInt32, Json.uint32?⟩

/-- A handle is its bare index. -/
instance {c : Category} : Wire (Handle c) :=
  ⟨fun h => write h.index, fun j => (read? j).map Handle.mk⟩

instance {α : Type} [Wire α] : Wire (Option α) where
  write
    | none => .null
    | some a => write a
  read?
    | .null => some none
    | j => (read? j).map some

instance : Wire Span where
  write s := .obj [("start", write s.start), ("end", write s.stop)]
  read? j := do
    match ← record? ["start", "end"] j with
    | [start, stop] => return ⟨← read? start, ← read? stop⟩
    | _ => none

instance : Wire Locus where
  write l := .obj [("file", write l.file), ("span", write l.span)]
  read? j := do
    match ← record? ["file", "span"] j with
    | [file, span] => return ⟨← read? file, ← read? span⟩
    | _ => none

instance : Wire HandlerPlaceholder where
  write
    | .callsiteArgument p => .obj [("CallsiteArgument", write p)]
    | .callsiteReceiver => .str "CallsiteReceiver"
    | .trailingValidityArgument => .str "TrailingValidityArgument"
  read? j := do
    match ← variant? j with
    | ("CallsiteArgument", p) => return .callsiteArgument (← read? p)
    | ("CallsiteReceiver", .null) => return .callsiteReceiver
    | ("TrailingValidityArgument", .null) => return .trailingValidityArgument
    | _ => none

def conversionFields : List String :=
  ["exists", "is_identity", "is_numeric", "is_reference", "is_nullable", "is_implicit", "method",
    "constrained_to_type"]

instance : Wire Conversion where
  write c := .obj [("exists", write c.isDefined), ("is_identity", write c.isIdentity),
    ("is_numeric", write c.isNumeric), ("is_reference", write c.isReference),
    ("is_nullable", write c.isNullable), ("is_implicit", write c.isImplicit),
    ("method", write c.method), ("constrained_to_type", write c.constrainedTo)]
  read? j := do
    match ← record? conversionFields j with
    | [a, b, c, d, e, f, g, h] =>
      return ⟨← read? a, ← read? b, ← read? c, ← read? d, ← read? e, ← read? f, ← read? g, ← read? h⟩
    | _ => none

def forEachFields : List String :=
  ["element_type", "get_enumerator_method", "move_next_method", "current_property",
    "dispose_method", "current_conversion", "element_conversion", "known_to_implement_disposable"]

instance : Wire ForEachInfo where
  write i := .obj [("element_type", write i.elementType),
    ("get_enumerator_method", write i.getEnumeratorMethod),
    ("move_next_method", write i.moveNextMethod), ("current_property", write i.currentProperty),
    ("dispose_method", write i.disposeMethod), ("current_conversion", write i.currentConversion),
    ("element_conversion", write i.elementConversion),
    ("known_to_implement_disposable", write i.knownToImplementDisposable)]
  read? j := do
    match ← record? forEachFields j with
    | [a, b, c, d, e, f, g, h] =>
      return ⟨← read? a, ← read? b, ← read? c, ← read? d, ← read? e, ← read? f, ← read? g, ← read? h⟩
    | _ => none

def writeConstant : Constant → Json
  | .null => .str "Null"
  | .bool b => .obj [("Bool", .bool b)]
  | .char c => .obj [("Char", .str (String.ofList [c]))]
  | .int n => .obj [("Int", .int n.toInt)]
  | .uint n => .obj [("UInt", .int n.toNat)]
  | .float x => .obj [("Float", if x.isNaN || x.isInfinite then .null else .float x)]
  | .string s => .obj [("String", .str s)]

/-- A string of one character. -/
def readChar? : Json → Option Char
  | .str s =>
    match s.toList with
    | [c] => some c
    | _ => none
  | _ => none

/-- An integer is taken for the nearest double. -/
def readFloat? : Json → Option Binary64
  | .float x => some x
  | .int n => some (Binary64.ofInt n)
  | _ => none

def readConstant? (j : Json) : Option Constant := do
  match ← variant? j with
  | ("Null", .null) => return .null
  | ("Bool", v) => return .bool (← v.bool?)
  | ("Char", v) => return .char (← readChar? v)
  | ("Int", v) => return .int (Int64.ofInt (← v.int64?))
  | ("UInt", v) => return .uint (← v.uint64?)
  | ("Float", v) => return .float (← readFloat? v)
  | ("String", v) => return .string (← v.str?)
  | _ => none

instance : Wire Constant := ⟨writeConstant, readConstant?⟩

/-- A value read as `α`, written back and shown. -/
def echoAs? (α : Type) [Wire α] (debug : α → String) (j : Json) : Option (Json × String) :=
  (read? j : Option α).map fun a => (write a, debug a)

/-- The types of the library that have an interchange form, by their names. -/
def echo? (typeName : String) : Json → Option (Json × String) :=
  match typeName with
  | "OperationKind" => echoAs? Kind Kind.name
  | "KindFamily" => echoAs? Family Family.name
  | "UnaryOperatorKind" => echoAs? UnaryOperator UnaryOperator.name
  | "BinaryOperatorKind" => echoAs? BinaryOperator BinaryOperator.name
  | "BranchKind" => echoAs? BranchKind BranchKind.name
  | "LoopKind" => echoAs? LoopKind LoopKind.name
  | "CaseKind" => echoAs? CaseKind CaseKind.name
  | "ArgumentKind" => echoAs? ArgumentKind ArgumentKind.name
  | "RefKind" => echoAs? RefKind RefKind.name
  | "InstanceReferenceKind" => echoAs? InstanceReferenceKind InstanceReferenceKind.name
  | "PlaceholderKind" => echoAs? PlaceholderKind PlaceholderKind.name
  | "HandlerPlaceholderKind" => echoAs? HandlerPlaceholder HandlerPlaceholder.debug
  | "ConversionInfo" => echoAs? Conversion Conversion.debug
  | "ForEachLoopInfo" => echoAs? ForEachInfo ForEachInfo.debug
  | "ConstantValue" => echoAs? Constant Constant.debug
  | "Span" => echoAs? Span Span.debug
  | "SourceLocus" => echoAs? Locus Locus.debug
  | name =>
    match Category.ofTypeName? name with
    | some c => echoAs? (Handle c) Handle.debug
    | none => fun _ => none

end Wire
end BoundTree
