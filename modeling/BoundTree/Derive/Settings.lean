import BoundTree.Derive.Error
import BoundTree.Derive.Item

/-!
Reading the settings of annotations. They are read in order, and the first one that cannot be read is
the error.
-/
namespace BoundTree.Derive

namespace Setting

/-- The value, where one has to follow. -/
def value? : Setting → Except DeriveError Path
  | .value _ v => .ok v
  | _ => .error (.expected .equals)

/-- A value that is an identifier; of a longer path only the first segment would be read. -/
def identValue (s : Setting) : Except DeriveError Ident := do
  match ← s.value? with
  | ⟨true, _⟩ | ⟨_, []⟩ => .error (.expected .identifier)
  | ⟨false, i :: rest⟩ =>
    if i.isKeyword then .error (.keyword i)
    else if rest.isEmpty then .ok i
    else .error (.expected .comma)

/-- A value that is a path; the first word that cannot stand in one is the error. -/
def pathValue (s : Setting) : Except DeriveError Path := do
  let p ← s.value?
  match p.segments.find? fun i => !i.isSegment with
  | some i => .error (.keyword i)
  | none => .ok p

/-- Nothing may follow the name. -/
def bare : Setting → Except DeriveError Unit
  | .flag _ => .ok ()
  | _ => .error (.expected .comma)

end Setting

/-- The settings of the annotations of a name; other annotations are passed over. -/
def readSettings {σ : Type} (d : Directive) (apply : σ → Setting → Except DeriveError σ) :
    σ → List Annotation → Except DeriveError σ
  | a, [] => .ok a
  | a, annotation :: rest => do
    if annotation.name.isWord d.word then
      match annotation.settings with
      | none => .error (.withoutSettings d)
      | some settings => readSettings d apply (← settings.foldlM apply a) rest
    else readSettings d apply a rest

end BoundTree.Derive
