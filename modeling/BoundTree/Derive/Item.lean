import BoundTree.Derive.Ident

/-!
Declarations of types: what is written down of one before anything is made of it.
-/
namespace BoundTree.Derive

/-- The word behind an apostrophe. -/
structure Lifetime where
  name : Ident
  deriving DecidableEq, Repr

def Lifetime.ofString? (s : String) : Option Lifetime :=
  match s.toList with
  | '\x27' :: word => (Ident.ofWord? (String.ofList word)).map Lifetime.mk
  | _ => none

/-- A parameter that a declaration is generic in. -/
inductive Parameter
  | lifetime (l : Lifetime)
  | type (name : Ident)
  deriving DecidableEq, Repr

namespace Parameter

def ofString? (s : String) : Option Parameter :=
  ((Lifetime.ofString? s).map .lifetime) <|> ((Ident.orUnderscore? s).map .type)

def isLifetime : Parameter → Bool
  | .lifetime _ => true
  | .type _ => false

end Parameter

/-- What a type says of a bound in place of a type: a value behind it, or some type that meets it. -/
inductive BoundMark
  | dynamic
  | some
  deriving DecidableEq, Repr

def BoundMark.word : BoundMark → String
  | .dynamic => "dyn"
  | .some => "impl"

mutual

inductive TypeExpr
  /-- The last segment may take an argument. -/
  | path (isGlobal : Bool) (segments : List Ident) (argument : Option TypeArgument)
  /-- The bound is a global path. -/
  | bound (mark : BoundMark) (segments : List Ident) (argument : Option TypeArgument)
  | reference (lifetime : Option Lifetime) (isMutable : Bool) (target : TypeExpr)
  | tuple (items : List TypeExpr)
  /-- An underscore in place of the type. -/
  | inferred
  deriving Repr

inductive TypeArgument
  | type (t : TypeExpr)
  | lifetime (l : Lifetime)
  | literal (b : Bool)
  deriving Repr

end

/-- What stands between the parentheses of an annotation. -/
inductive Setting
  | flag (name : Path)
  | value (name value : Path)
  | list (name : Path) (items : List Setting)
  deriving Repr

namespace Setting

def path : Setting → Path
  | .flag p => p
  | .value p _ => p
  | .list p _ => p

end Setting

/-- Without parentheses an annotation has no settings, not even an empty list of them. -/
structure Annotation where
  name : Path
  settings : Option (List Setting)
  deriving Repr

/-- The name of an annotation is a path of names and places, or a keyword that marks it. -/
def Annotation.nameOf? (s : String) : Option Path :=
  (Path.ofString? s).filter fun p => p.isWord "unsafe" || p.segments.all Ident.namesPlace

structure NamedField where
  name : Ident
  type : TypeExpr
  annotations : List Annotation
  deriving Repr

inductive Fields
  | named (fields : List NamedField)
  | unnamed (types : List TypeExpr)
  | unit
  deriving Repr

structure Variant where
  name : Ident
  fields : Fields
  deriving Repr

inductive Form
  | struct (fields : Fields)
  | enum (variants : List Variant)
  | union (fields : List NamedField)
  deriving Repr

structure Item where
  name : Ident
  generics : List Parameter
  annotations : List Annotation
  form : Form
  deriving Repr

end BoundTree.Derive
