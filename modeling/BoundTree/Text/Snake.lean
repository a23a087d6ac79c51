import BoundTree.Text.LetterCase

/-!
Names in words joined by underscores, from names whose words start with a capital.
-/
namespace BoundTree.Text

/-- What stands for one character: a capital is lowered and, except at the start, set off. -/
def snakeChar (atStart : Bool) (c : Char) : List Char :=
  if isUpperCase c then (if atStart then [] else ['_']) ++ toLowerCase c else [c]

def snakeChars : List Char → List Char
  | [] => []
  | c :: rest => snakeChar true c ++ rest.flatMap (snakeChar false)

def snakeCase (name : String) : String := String.ofList (snakeChars name.toList)

@[simp] theorem snakeChars_nil : snakeChars [] = [] := rfl

end BoundTree.Text
