import BoundTree.Handle

/-!
Spans of a source file and the places operations come from. `Span.make` orders its bounds; a span
that was read may have them reversed, and then it has no length.
-/
namespace BoundTree

/-- The bytes from `start` up to and without `stop`. -/
structure Span where
  start : UInt32
  stop : UInt32
  deriving DecidableEq, Repr

namespace Span

def make (a b : UInt32) : Span := if a ≤ b then ⟨a, b⟩ else ⟨b, a⟩

/-- The bounds are in order. -/
def Ordered (s : Span) : Prop := s.start ≤ s.stop

instance (s : Span) : Decidable s.Ordered := by unfold Ordered; infer_instance

theorem ordered_make (a b : UInt32) : (make a b).Ordered := by
  unfold make Ordered
  split
  · assumption
  · next h => exact UInt32.le_of_lt (UInt32.not_le.mp h)

/-- Nothing when the bounds are reversed, where the difference would fall below zero. -/
def length? (s : Span) : Option UInt32 := if s.start ≤ s.stop then some (s.stop - s.start) else none

def isEmpty (s : Span) : Bool := s.start == s.stop

def contains (s t : Span) : Bool := s.start ≤ t.start && t.stop ≤ s.stop

/-- From the lower start to the higher end. -/
def cover (s t : Span) : Span := make (min s.start t.start) (max s.stop t.stop)

def display (s : Span) : String := toString s.start.toNat ++ ".." ++ toString s.stop.toNat

def debug (s : Span) : String :=
  Text.record "Span" [("start", toString s.start.toNat), ("end", toString s.stop.toNat)]

end Span

/-- A span of one file. -/
structure Locus where
  file : FileId
  span : Span
  deriving DecidableEq, Repr

namespace Locus

def contains (a b : Locus) : Bool := a.file == b.file && a.span.contains b.span

def display (l : Locus) : String := l.file.display ++ "@" ++ l.span.display

def debug (l : Locus) : String :=
  Text.record "SourceLocus" [("file", l.file.debug), ("span", l.span.debug)]

end Locus
end BoundTree
