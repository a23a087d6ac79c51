import BoundTree.Text.Structured

/-!
Handles of entities that were resolved elsewhere: an index that is comparable only within its
category.
-/
namespace BoundTree

/-- What a handle stands for. -/
inductive Category
  | type
  | method
  | field
  | property
  | event
  | localVar
  | parameter
  | label
  | symbol
  | model
  | file
  | capture
  | context
  deriving DecidableEq, Repr

namespace Category

/-- The word in front of the index when a handle is shown. -/
def word : Category → String
  | .type => "type"
  | .method => "method"
  | .field => "field"
  | .property => "property"
  | .event => "event"
  | .localVar => "local"
  | .parameter => "parameter"
  | .label => "label"
  | .symbol => "symbol"
  | .model => "model"
  | .file => "file"
  | .capture => "capture"
  | .context => "context"

/-- The name of the handle type of the category. -/
def typeName : Category → String
  | .type => "TypeId"
  | .method => "MethodId"
  | .field => "FieldId"
  | .property => "PropertyId"
  | .event => "EventId"
  | .localVar => "LocalId"
  | .parameter => "ParameterId"
  | .label => "LabelId"
  | .symbol => "SymbolId"
  | .model => "SemanticModelId"
  | .file => "FileId"
  | .capture => "CaptureId"
  | .context => "FlowContextId"

def all : List Category :=
  [.type, .method, .field, .property, .event, .localVar, .parameter, .label, .symbol, .model,
    .file, .capture, .context]

theorem mem_all (c : Category) : c ∈ all := by cases c <;> decide

def ofTypeName? (name : String) : Option Category := all.find? (·.typeName == name)

end Category

structure Handle (c : Category) where
  index : UInt32
  deriving DecidableEq, Repr

namespace Handle

variable {c : Category}

/-- The form for readers, such as `type#4`. -/
def display (h : Handle c) : String := c.word ++ "#" ++ toString h.index.toNat

/-- The structural form, such as `TypeId(4)`. -/
def debug (h : Handle c) : String := Text.applied c.typeName (toString h.index.toNat)

def compare (a b : Handle c) : Ordering := Ord.compare a.index b.index

end Handle

abbrev TypeId := Handle .type
abbrev MethodId := Handle .method
abbrev PropertyId := Handle .property
abbrev EventId := Handle .event
abbrev LocalId := Handle .localVar
abbrev ModelId := Handle .model
abbrev FileId := Handle .file
abbrev CaptureId := Handle .capture
abbrev ContextId := Handle .context

end BoundTree
