/-!
The written form of structured values: records with named fields, constructors applied to values,
lists and optional values.
-/
namespace BoundTree.Text

def joinFields (fields : List (String × String)) : String :=
  ", ".intercalate (fields.map fun f => f.1 ++ ": " ++ f.2)

/-- A record without fields is its bare name. -/
def record (name : String) (fields : List (String × String)) : String :=
  if fields.isEmpty then name else name ++ " \x7b " ++ joinFields fields ++ " \x7d"

/-- A record that shows only some of its fields. -/
def openRecord (name : String) (fields : List (String × String)) : String :=
  name ++ " \x7b " ++ joinFields fields ++ ", .. \x7d"

def applied (name value : String) : String := name ++ "(" ++ value ++ ")"

def listed (values : List String) : String := "[" ++ ", ".intercalate values ++ "]"

def optional : Option String → String
  | none => "None"
  | some value => applied "Some" value

def truth (b : Bool) : String := if b then "true" else "false"

end BoundTree.Text
