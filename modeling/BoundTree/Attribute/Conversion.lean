import BoundTree.Handle

/-!
Conversions, and what makes the description of one contradict itself.
-/
namespace BoundTree

structure Conversion where
  /-- There is such a conversion at all. -/
  isDefined : Bool
  isIdentity : Bool
  isNumeric : Bool
  isReference : Bool
  /-- Nullable value types take part. -/
  isNullable : Bool
  isImplicit : Bool
  /-- The operator that performs a user-defined conversion. -/
  method : Option MethodId
  /-- The type that a static abstract conversion is constrained to. -/
  constrainedTo : Option TypeId
  deriving DecidableEq, Repr

namespace Conversion

def identity : Conversion := ⟨true, true, false, false, false, true, none, none⟩

instance : Inhabited Conversion := ⟨identity⟩

def numeric (isImplicit : Bool) : Conversion :=
  { identity with isIdentity := false, isNumeric := true, isImplicit }

def reference (isImplicit : Bool) : Conversion :=
  { identity with isIdentity := false, isReference := true, isImplicit }

def userDefined (method : MethodId) (isImplicit : Bool) : Conversion :=
  { identity with isIdentity := false, isImplicit, method := some method }

/-- The conversion that does not exist. -/
def missing : Conversion :=
  { identity with isDefined := false, isIdentity := false, isImplicit := false }

def isUserDefined (c : Conversion) : Bool := c.method.isSome

/-- Why a description cannot be right. -/
inductive Contradiction
  | missingYetPerformed
  | identityYetChanging
  | numericAndReference
  deriving DecidableEq, Repr

def Contradiction.reason : Contradiction → String
  | .missingYetPerformed => "a conversion that does not exist cannot be an identity or user-defined"
  | .identityYetChanging =>
    "an identity conversion cannot also be numeric, reference or user-defined"
  | .numericAndReference => "a conversion cannot be both numeric and reference"

def contradiction? (c : Conversion) : Option Contradiction :=
  if !c.isDefined && (c.isIdentity || c.isUserDefined) then some .missingYetPerformed
  else if c.isIdentity && (c.isNumeric || c.isReference || c.isUserDefined) then
    some .identityYetChanging
  else if c.isNumeric && c.isReference then some .numericAndReference
  else none

@[simp] theorem contradiction?_identity : identity.contradiction? = none := rfl

@[simp] theorem contradiction?_missing : missing.contradiction? = none := rfl

@[simp] theorem contradiction?_numeric (b : Bool) : (numeric b).contradiction? = none := rfl

@[simp] theorem contradiction?_reference (b : Bool) : (reference b).contradiction? = none := rfl

@[simp] theorem contradiction?_userDefined (m : MethodId) (b : Bool) :
    (userDefined m b).contradiction? = none := rfl

def debug (c : Conversion) : String :=
  Text.record "ConversionInfo"
    [("exists", Text.truth c.isDefined), ("is_identity", Text.truth c.isIdentity),
      ("is_numeric", Text.truth c.isNumeric), ("is_reference", Text.truth c.isReference),
      ("is_nullable", Text.truth c.isNullable), ("is_implicit", Text.truth c.isImplicit),
      ("method", Text.optional (c.method.map Handle.debug)),
      ("constrained_to_type", Text.optional (c.constrainedTo.map Handle.debug))]

end Conversion

/-- The members that a loop over a collection binds to. -/
structure ForEachInfo where
  elementType : TypeId
  getEnumeratorMethod : MethodId
  moveNextMethod : MethodId
  currentProperty : PropertyId
  disposeMethod : Option MethodId
  currentConversion : Conversion
  elementConversion : Conversion
  knownToImplementDisposable : Bool
  deriving DecidableEq, Repr

def ForEachInfo.debug (i : ForEachInfo) : String :=
  Text.record "ForEachLoopInfo"
    [("element_type", i.elementType.debug),
      ("get_enumerator_method", i.getEnumeratorMethod.debug),
      ("move_next_method", i.moveNextMethod.debug),
      ("current_property", i.currentProperty.debug),
      ("dispose_method", Text.optional (i.disposeMethod.map Handle.debug)),
      ("current_conversion", i.currentConversion.debug),
      ("element_conversion", i.elementConversion.debug),
      ("known_to_implement_disposable", Text.truth i.knownToImplementDisposable)]

end BoundTree
