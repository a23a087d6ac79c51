import BoundTree.Derive.SlotTable
import BoundTree.Derive.Written
import BoundTree.Text.Snake

/-!
The dispatch layer of an enumeration of shapes: two traits with a method for every shape, conversions,
the table of shapes, and the functions that choose by shape.
-/
namespace BoundTree.Derive

/-- What the annotations of an enumeration say. -/
structure DispatchSettings where
  node : Option Path := none
  visitor : Ident
  folder : Ident
  deriving DecidableEq, Repr

namespace DispatchSettings

def apply (o : DispatchSettings) (s : Setting) : Except DeriveError DispatchSettings := do
  if s.path.isWord "node" then return { o with node := some (← s.pathValue) }
  else if s.path.isWord "visitor" then return { o with visitor := ← s.identValue }
  else if s.path.isWord "folder" then return { o with folder := ← s.identValue }
  else .error (.unsupported .visitor)

/-- The traits are named after the enumeration unless they are given names. -/
def defaults (name : Ident) : DispatchSettings :=
  { visitor := ⟨name.bare ++ "Visitor"⟩, folder := ⟨name.bare ++ "Folder"⟩ }

def read (name : Ident) (annotations : List Annotation) : Except DeriveError DispatchSettings :=
  readSettings .visitor apply (defaults name) annotations

end DispatchSettings

/-- A variant with the type it wraps and the method for it. -/
structure Route where
  variant : Ident
  type : TypeExpr
  deriving Repr

namespace Route

def ofVariant? (v : Variant) : Except DeriveError Route :=
  match v.fields with
  | .unnamed [type] => .ok ⟨v.name, type⟩
  | _ => .error .notOneShape

def method (r : Route) : String := "visit_" ++ Text.snakeCase r.variant.text

def doc (r : Route) : Doc := .made ("Visits a [`" ++ r.type.text ++ "`] node")

/-- A table of the shape that a type implements. -/
def table (r : Route) (name : String) : Words :=
  "<" :: r.type.words ++ words "as crate : : shape : : Shape > : :" ++ [name]

/-- The entry in the table of shapes. -/
def descriptor (r : Route) : Words :=
  words "crate : : shape : : ShapeDescriptor" ++ braces (
    words "name :" ++ r.table "NAME" ++ words ", kinds :" ++ r.table "KINDS"
      ++ words ", slot_names :" ++ r.table "SLOT_NAMES"
      ++ words ", visit_method :" ++ [Text.quoteString r.method, ","])

/-- A call of the method. -/
def call (r : Route) (arguments : Words) : Words :=
  "visitor" :: "." :: r.method :: parens arguments

end Route

structure Dispatch where
  name : Ident
  node : Path
  visitor : Ident
  folder : Ident
  routes : List Route
  deriving Repr

namespace Dispatch

/-- The settings are read before the form is looked at. -/
def ofItem? (item : Item) : Except DeriveError Dispatch := do
  let settings ← DispatchSettings.read item.name item.annotations
  match settings.node with
  | none => .error .noNode
  | some node =>
    match item.form with
    | .enum variants => do
      return ⟨item.name, node, settings.visitor, settings.folder, ← variants.mapM Route.ofVariant?⟩
    | _ => .error .notEnum

/-- A raw variant would put its mark inside the name of its method. -/
def invalidMethod? (d : Dispatch) : Option String :=
  (d.routes.map Route.method).find? fun m => !Ident.isWord m.toList

/-! The code of the layer. -/

def operationWords (d : Dispatch) : Words := words "operation : &" ++ d.node.words

def mutSelf : Words := words "& mut self ,"

def visitorMethod (d : Dispatch) (r : Route) : Function where
  docs := [r.doc]
  name := r.method
  parameters := mutSelf ++ d.operationWords ++ words ", shape : &" ++ r.type.words
  body := some (.code (words "let _ = shape ; self . default_visit ( operation ) ;"))

def visitorFallback (d : Dispatch) : Function where
  docs := [.line "Fallback for every shape the visitor does not handle itself"]
  name := "default_visit"
  parameters := mutSelf ++ d.operationWords
  body := none

def visitorTrait (d : Dispatch) : Block where
  docs := [.line "Side-effecting visitor: one method per shape", .line "",
    .line "Every method falls back to [`Self::default_visit`]; overriding a",
    .line "method is how a consumer handles one kind of node."]
  head := ["pub", "trait", d.visitor.text]
  members := d.routes.map (fun r => .function (d.visitorMethod r)) ++ [.function d.visitorFallback]

def output : Words := words "Self : : Output"

def folderMethod (d : Dispatch) (r : Route) : Function where
  docs := [r.doc]
  name := r.method
  parameters := mutSelf ++ d.operationWords ++ words ", shape : &" ++ r.type.words
    ++ words ", argument : A"
  result := output
  body := some (.code (words "let _ = shape ; self . default_visit ( operation , argument )"))

def folderFallback (d : Dispatch) : Function where
  docs := [.line "Fallback for every shape the folder does not handle itself"]
  name := "default_visit"
  parameters := mutSelf ++ d.operationWords ++ words ", argument : A"
  result := output
  body := none

def folderTrait (d : Dispatch) : Block where
  docs := [.line "Argument/result visitor: one method per shape", .line "",
    .line "Used for folds and transforms where each node produces a value."]
  head := "pub" :: "trait" :: d.folder.text :: words "< A >"
  members := .type [.line "Value produced for each visited node"] "Output"
    :: d.routes.map (fun r => .function (d.folderMethod r)) ++ [.function d.folderFallback]

/-- A shape becomes a payload. -/
def fromBlock (d : Dispatch) (r : Route) : Block where
  head := words "impl : : core : : convert : : From <" ++ r.type.words ++ [">", "for", d.name.text]
  members := [.function {
    name := "from"
    parameters := words "shape :" ++ r.type.words
    result := some ["Self"]
    body := some (.code (words "Self : :" ++ r.variant.text :: parens ["shape"])) }]

/-- A payload is asked for one shape. -/
def castBlock (d : Dispatch) (r : Route) : Block where
  head := words "impl crate : : shape : : ShapeCast for" ++ r.type.words
  members := [.function {
    name := "cast"
    parameters := words "payload : &" ++ [d.name.text]
    result := words ": : core : : option : : Option < & Self >"
    body := some (.choice ["payload"]
      [⟨d.name.text :: ":" :: ":" :: r.variant.text :: parens ["shape"],
          words ": : core : : option : : Option : : Some ( shape )"⟩,
        ⟨["_"], SlotTable.noneWords⟩]) }]

def conversions (d : Dispatch) : List Block :=
  d.routes.flatMap fun r => [d.fromBlock r, d.castBlock r]

def shapesConst (d : Dispatch) : Member :=
  .const [.line "Static table of every shape, in declaration order"] ["pub"] "SHAPES"
    (words "& ' static" ++ brackets (words "crate : : shape : : ShapeDescriptor"))
    ("&" :: brackets (separated (d.routes.map Route.descriptor)))

/-- A case for every variant. -/
def choose (d : Dispatch) (binder : String) (value : Route → Words) : Body :=
  .choice ["self"] (d.routes.map fun r =>
    ⟨words "Self : :" ++ r.variant.text :: parens [binder], value r⟩)

/-- The same function of the shape that is wrapped. -/
def forward (function : String) (arguments : Words) : Words :=
  words "crate : : shape : : Shape : :" ++ function :: parens arguments

def mustUse : Words := words "# [ must_use ] pub"

def kindFunction (d : Dispatch) : Function where
  docs := [.line "Kind reported by the wrapped shape"]
  modifiers := mustUse
  name := "kind"
  parameters := words "& self"
  result := words "crate : : OperationKind"
  body := d.choose "shape" fun _ => forward "kind" ["shape"]

def shapeNameFunction (d : Dispatch) : Function where
  docs := [.line "Name of the wrapped shape"]
  modifiers := mustUse
  name := "shape_name"
  parameters := words "& self"
  result := SlotTable.strWords
  body := d.choose "_" fun r => r.table "NAME"

def slotFunction (d : Dispatch) : Function where
  docs := [.line "Child slot at `index`, materializing it if it is lazy"]
  modifiers := mustUse
  name := "slot"
  parameters := words "& self , index : usize"
  result := SlotTable.viewWords
  body := d.choose "shape" fun _ => forward "slot" (words "shape , index")

def forEachSlotFunction (d : Dispatch) : Function where
  docs := [.line "Every slot field, attached or detached"]
  modifiers := ["pub"]
  name := "for_each_slot"
  parameters := words "& self ," ++ SlotTable.installVisitor ++ [","]
  body := d.choose "shape" fun _ => forward "for_each_slot" (words "shape , visit")

def validateFunction (d : Dispatch) : Function where
  docs := [.line "Shape-specific construction checks", .line "", .line "# Errors", .line "",
    .line "Returns the first inconsistency the wrapped shape reports"]
  modifiers := ["pub"]
  name := "validate"
  parameters := words "& self , header : & crate : : OperationHeader ,"
  result := SlotTable.checkedResult
  body := d.choose "shape" fun _ => forward "validate" (words "shape , header")

def describeFunction (d : Dispatch) : Function where
  docs := [.line "Plain (non-child) attributes of the wrapped shape"]
  modifiers := ["pub"]
  name := "describe"
  parameters := words "& self ," ++ SlotTable.describeVisitor
  body := d.choose "shape" fun _ => forward "describe" (words "shape , visit")

def dispatchFunction (d : Dispatch) : Function where
  docs := [.line "Routes `operation` to the visitor method of its shape"]
  modifiers := ["pub"]
  name := "dispatch"
  generics := words "< V :" ++ d.visitor.text :: words "+ ? Sized >"
  parameters := words "& self ," ++ d.operationWords ++ words ", visitor : & mut V"
  body := d.choose "shape" fun r => r.call (words "operation , shape")

def dispatchWithFunction (d : Dispatch) : Function where
  docs := [.line "Routes `operation` and `argument` to the folder method of its shape"]
  modifiers := ["pub"]
  name := "dispatch_with"
  generics := words "< A , V :" ++ d.folder.text :: words "< A > + ? Sized >"
  parameters := words "& self ," ++ d.operationWords ++ words ", visitor : & mut V , argument : A ,"
  result := words "V : : Output"
  body := d.choose "shape" fun r => r.call (words "operation , shape , argument")

def payloadBlock (d : Dispatch) : Block where
  head := ["impl", d.name.text]
  members := [d.shapesConst, .function d.kindFunction, .function d.shapeNameFunction,
    .function d.slotFunction, .function d.forEachSlotFunction, .function d.validateFunction,
    .function d.describeFunction, .function d.dispatchFunction, .function d.dispatchWithFunction]

def blocks (d : Dispatch) : List Block :=
  d.visitorTrait :: d.folderTrait :: d.conversions ++ [d.payloadBlock]

end Dispatch

/-- The code for an enumeration of shapes. -/
def dispatchCode? (item : Item) : Except DeriveFault String :=
  match Dispatch.ofItem? item with
  | .error e => .error (.refused e)
  | .ok d =>
    match d.invalidMethod? with
    | some name => .error (.invalidName name)
    | none => .ok (render d.blocks)

end BoundTree.Derive
