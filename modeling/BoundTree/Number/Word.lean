/-!
Signed integers of 64 bits, as the integers that fit.
-/
namespace BoundTree

/-- The integer, if it fits. -/
def inWord? (n : Int) : Option Int := if -Int.pow 2 63 ≤ n ∧ n < Int.pow 2 63 then some n else none

theorem inWord?_eq_some_iff {n m : Int} : inWord? n = some m ↔
    n = m ∧ -Int.pow 2 63 ≤ n ∧ n < Int.pow 2 63 := by
  unfold inWord?
  split
  · next h =>
    constructor
    · intro he
      cases he
      exact ⟨rfl, h⟩
    · rintro ⟨rfl, -⟩
      rfl
  · next h =>
    constructor
    · intro he
      cases he
    · rintro ⟨-, hr⟩
      exact absurd hr h

end BoundTree
