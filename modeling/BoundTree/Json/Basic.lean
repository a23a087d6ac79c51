import BoundTree.Number.Binary64

/-!
Interchange values. A number is an integer of at most 64 bits or a double, and the two are told apart
by how they are written.
-/
namespace BoundTree

inductive Json
  | null
  | bool (b : Bool)
  | int (n : Int)
  | float (x : Binary64)
  | str (s : String)
  | arr (items : List Json)
  | obj (members : List (String × Json))
  deriving Repr

namespace Json

/-- The integers that are written as integers: those of a signed or an unsigned 64-bit word. -/
def InWord (n : Int) : Prop := -Int.pow 2 63 ≤ n ∧ n < Int.pow 2 64

instance (n : Int) : Decidable (InWord n) := by unfold InWord; infer_instance

/-- The value of a member. -/
def lookup (members : List (String × Json)) (name : String) : Option Json :=
  (members.find? (·.1 == name)).map (·.2)

/-- A member of an object; nothing of any other value. -/
def get? (j : Json) (name : String) : Option Json :=
  match j with
  | .obj members => lookup members name
  | _ => none

def isNull : Json → Bool
  | .null => true
  | _ => false

def bool? : Json → Option Bool
  | .bool b => some b
  | _ => none

def str? : Json → Option String
  | .str s => some s
  | _ => none

def arr? : Json → Option (List Json)
  | .arr items => some items
  | _ => none

def obj? : Json → Option (List (String × Json))
  | .obj members => some members
  | _ => none

def int? : Json → Option Int
  | .int n => some n
  | _ => none

/-- An integer from `low` to `high`. -/
def between? (low high : Int) (j : Json) : Option Int :=
  match j with
  | .int n => if low ≤ n ∧ n ≤ high then some n else none
  | _ => none

def uint32? (j : Json) : Option UInt32 :=
  (j.between? 0 (Int.pow 2 32 - 1)).map fun n => UInt32.ofNat n.toNat

def uint64? (j : Json) : Option UInt64 :=
  (j.between? 0 (Int.pow 2 64 - 1)).map fun n => UInt64.ofNat n.toNat

def int64? (j : Json) : Option Int :=
  j.between? (-Int.pow 2 63) (Int.pow 2 63 - 1)

def ofUInt32 (n : UInt32) : Json := .int n.toNat

def ofUInt64 (n : UInt64) : Json := .int n.toNat

def ofOption (j : Option Json) : Json := j.getD .null

def strings (l : List String) : Json := .arr (l.map .str)

end Json
end BoundTree
