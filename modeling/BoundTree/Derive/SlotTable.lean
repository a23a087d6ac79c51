import BoundTree.Derive.Settings
import BoundTree.Derive.Written
import BoundTree.Shape.Field

/-!
The slot table of a shape: which kinds it serves, which of its fields are slots, in which order the
child slots are exposed, and which fields are plain attributes.
-/
namespace BoundTree.Derive

/-- What the annotations of a shape say. -/
structure ShapeSettings where
  kinds : List Ident := []
  /-- The kinds were given as a list, and every operation says which one it has. -/
  isShared : Bool := false
  order : Option Ident := none
  validation : Option Ident := none
  deriving DecidableEq, Repr

namespace ShapeSettings

/-- The names in a list of kinds, which holds at least one. -/
def kindNames : List Setting → Except DeriveError (List Ident)
  | [] => .ok []
  | s :: rest => do
    match s.path.ident? with
    | none => .error .notKindName
    | some i => do
      s.bare
      return i :: (← kindNames rest)

def kindList : Setting → Except DeriveError (List Ident)
  | .list _ [] => .error .emptyKinds
  | .list _ items => kindNames items
  | _ => .error (.expected .parentheses)

def apply (o : ShapeSettings) (s : Setting) : Except DeriveError ShapeSettings := do
  if s.path.isWord "kind" then
    return { o with kinds := o.kinds ++ [← s.identValue] }
  else if s.path.isWord "kinds" then
    return { o with isShared := true, kinds := o.kinds ++ (← kindList s) }
  else if s.path.isWord "order" then
    return { o with order := some (← s.identValue) }
  else if s.path.isWord "validate" then
    return { o with validation := some (← s.identValue) }
  else .error (.unsupported .shape)

/-- A shape needs a kind; several kinds are given as a list. -/
def read (annotations : List Annotation) : Except DeriveError ShapeSettings := do
  let o ← readSettings .shape apply {} annotations
  if o.kinds.isEmpty then .error .noKind
  else if !o.isShared && 1 < o.kinds.length then .error .severalKinds
  else .ok o

end ShapeSettings

/-- A type whose last segment names a slot type, whatever its argument is. -/
def TypeExpr.isSlot : TypeExpr → Bool
  | .path _ segments _ => segments.getLast?.any fun i => i.text ∈ Arity.all.map Arity.typeName
  | _ => false

def applySlot (_ : Linkage) (s : Setting) : Except DeriveError Linkage := do
  if s.path.isWord "detached" then
    s.bare
    return .detached
  else .error (.unsupported .slot)

/-- A slot holds children unless it is annotated. -/
def NamedField.linkage (f : NamedField) : Except DeriveError Linkage :=
  readSettings .slot applySlot .attached f.annotations

/-- The fields of a shape by their roles, in declaration order. -/
structure FieldRoles where
  slots : List (Ident × Linkage) := []
  attributes : List Ident := []
  /-- There is a field that says the kind of an operation. -/
  hasKind : Bool := false
  deriving DecidableEq, Repr

namespace FieldRoles

def add (r : FieldRoles) (f : NamedField) : Except DeriveError FieldRoles := do
  if f.type.isSlot then return { r with slots := r.slots ++ [(f.name, ← f.linkage)] }
  else if f.name.text = "kind" then return { r with hasKind := true }
  else return { r with attributes := r.attributes ++ [f.name] }

def read (fields : List NamedField) : Except DeriveError FieldRoles := fields.foldlM add {}

end FieldRoles

structure SlotTable where
  name : Ident
  generics : List Parameter
  settings : ShapeSettings
  /-- All slots in declaration order. -/
  slots : List (Ident × Linkage)
  attributes : List Ident
  deriving DecidableEq, Repr

namespace SlotTable

/-- The settings are read before the form is looked at. -/
def ofItem? (item : Item) : Except DeriveError SlotTable := do
  let settings ← ShapeSettings.read item.annotations
  match item.form with
  | .struct (.named fields) => do
    let roles ← FieldRoles.read fields
    if settings.isShared && !roles.hasKind then .error .noKindField
    else return ⟨item.name, item.generics, settings, roles.slots, roles.attributes⟩
  | .struct _ => .error .notNamed
  | _ => .error .notStruct

/-- The slots that hold children. -/
def attached (t : SlotTable) : List Ident :=
  (t.slots.filter (·.2 = .attached)).map (·.1)

def slotNames (t : SlotTable) : List String := t.attached.map (·.text)

/-! The code of the table. -/

def kindWords (i : Ident) : Words := words "crate : : OperationKind : :" ++ [i.text]

def fieldWords (i : Ident) : Words := ["self", ".", i.text]

def strWords : Words := words "& ' static str"

def viewWords : Words :=
  words ": : core : : option : : Option < crate : : slot : : SlotView < ' _ > >"

def noneWords : Words := words ": : core : : option : : Option : : None"

def nameConst (t : SlotTable) : Member :=
  .const [] [] "NAME" strWords [Text.quoteString t.name.text]

def kindsConst (t : SlotTable) : Member :=
  .const [] [] "KINDS" (words "& ' static" ++ brackets (words "crate : : OperationKind"))
    ("&" :: brackets (separated (t.settings.kinds.map kindWords)))

def slotNamesConst (t : SlotTable) : Member :=
  .const [] [] "SLOT_NAMES" (words "& ' static" ++ brackets strWords)
    ("&" :: brackets (separated (t.slotNames.map fun n => [Text.quoteString n])))

def kindFunction (t : SlotTable) : Function where
  name := "kind"
  parameters := words "& self"
  result := words "crate : : OperationKind"
  body := some (.code
    (if t.settings.isShared then words "self . kind" else (t.settings.kinds.head?.elim [] kindWords)))

/-- The case of a child slot at its place. -/
def slotArm (slot : Ident × Nat) : Arm :=
  ⟨[toString slot.2 ++ "usize"],
    words ": : core : : option : : Option : : Some" ++ parens (
      words "crate : : slot : : SlotView : : new" ++ parens (
        Text.quoteString slot.1.text :: "," :: fieldWords slot.1 ++ words ". as_slice ( )")
        ++ [","])⟩

/-- The cases of all child slots, in declaration order. -/
def slotArms (t : SlotTable) : List Arm := t.attached.zipIdx.map slotArm

def slotBody (t : SlotTable) : Body :=
  match t.settings.order with
  | some method => .code (fieldWords method ++ parens ["index"])
  | none =>
    if t.attached.isEmpty then .code (words "let _ = index ;" ++ noneWords)
    else .choice ["index"] (t.slotArms ++ [⟨["_"], noneWords⟩])

def slotFunction (t : SlotTable) : Function where
  name := "slot"
  parameters := words "& self , index : usize"
  result := some viewWords
  body := some t.slotBody

def linkageWords (l : Linkage) : Words :=
  words "crate : : slot : : Linkage : :" ++ [match l with
    | .attached => "Attached"
    | .detached => "Detached"]

def installCall (slot : Ident × Linkage) : Words :=
  "visit" :: parens ("&" :: fieldWords slot.1 ++ "," :: linkageWords slot.2) ++ [";"]

def installVisitor : Words :=
  words "visit : & mut dyn FnMut" ++ parens
    (words "& dyn crate : : slot : : InstallSlot , crate : : slot : : Linkage")

def forEachSlotFunction (t : SlotTable) : Function where
  name := "for_each_slot"
  parameters := words "& self ," ++ installVisitor ++ [","]
  body := some (.code
    (if t.slots.isEmpty then words "let _ = visit ;" else t.slots.flatMap installCall))

/-- A kind that the shape does not serve is an error. -/
def membershipCheck (t : SlotTable) : Words :=
  words "if ! < Self as crate : : shape : : Shape > : : KINDS . contains ( & self . kind )" ++ braces (
    words "return : : core : : result : : Result : : Err" ++ parens (
      words "crate : : ConstructionError : : KindMismatch" ++ braces (
        "shape" :: ":" :: Text.quoteString t.name.text :: words ", kind : self . kind ,")) ++ [";"])

def checkedResult : Words := words ": : core : : result : : Result < ( ) , crate : : ConstructionError >"

def validateFunction (t : SlotTable) : Function where
  name := "validate"
  parameters := words "& self , header : & crate : : OperationHeader ,"
  result := some checkedResult
  body := some (.code
    ((if t.settings.isShared then t.membershipCheck else [])
      ++ match t.settings.validation with
        | some method => fieldWords method ++ parens ["header"]
        | none => words "let _ = header ; : : core : : result : : Result : : Ok ( ( ) )"))

def describeCall (i : Ident) : Words :=
  "visit" :: parens (Text.quoteString i.text :: "," :: "&" :: fieldWords i) ++ [";"]

def describeVisitor : Words :=
  words "visit : & mut dyn FnMut" ++ parens (strWords ++ words ", & dyn : : core : : fmt : : Debug")

def describeFunction (t : SlotTable) : Function where
  name := "describe"
  parameters := words "& self ," ++ describeVisitor
  body := some (.code
    (if t.attributes.isEmpty then words "let _ = visit ;" else t.attributes.flatMap describeCall))

def block (t : SlotTable) : Block where
  head := "impl" :: parameterWords t.generics ++ words "crate : : shape : : Shape for" ++ t.name.text
    :: parameterWords t.generics
  members := [t.nameConst, t.kindsConst, t.slotNamesConst, .function t.kindFunction,
    .function t.slotFunction, .function t.forEachSlotFunction, .function t.validateFunction,
    .function t.describeFunction]

end SlotTable

/-- The code for a shape. -/
def shapeCode? (item : Item) : Except DeriveFault String := do
  match SlotTable.ofItem? item with
  | .ok t => .ok (render [t.block])
  | .error e => .error (.refused e)

end BoundTree.Derive
