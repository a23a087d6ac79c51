/-!
Finite types whose values are known by name.
-/
namespace BoundTree

class Named (α : Type) where
  all : List α
  name : α → String

/-- The value of a name. -/
def Named.ofName? {α : Type} [Named α] (name : String) : Option α :=
  (Named.all : List α).find? fun a => Named.name a == name

theorem Named.name_of_ofName? {α : Type} [Named α] {name : String} {a : α}
    (h : ofName? name = some a) : Named.name a = name := by
  simpa using List.find?_some h

end BoundTree
