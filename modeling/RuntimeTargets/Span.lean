import RuntimeTargets.Word

/-!
# Address spans

A span is half open: it holds its start and stops short of its end, so that
spans laid end to end share no address.
-/

namespace RuntimeTargets

structure Span where
  start : Word
  stop : Word
  deriving DecidableEq, Repr

namespace Span

instance : Membership Word Span where
  mem s address := s.start ≤ address ∧ address < s.stop

instance (address : Word) (s : Span) : Decidable (address ∈ s) :=
  inferInstanceAs (Decidable (_ ∧ _))

/-- The `size` bytes from `address`, cut off at the end of the address space. -/
def ofSize (address size : Word) : Span := ⟨address, Word.addSaturating address size⟩

/-- Every address of `s` would fit between the bounds of `outer`. -/
def Within (s outer : Span) : Prop := outer.start ≤ s.start ∧ s.stop ≤ outer.stop

instance (s outer : Span) : Decidable (s.Within outer) :=
  inferInstanceAs (Decidable (_ ∧ _))

/-- One span ends before the other begins. -/
def Apart (s other : Span) : Prop := s.stop ≤ other.start ∨ other.stop ≤ s.start

instance (s other : Span) : Decidable (s.Apart other) :=
  inferInstanceAs (Decidable (_ ∨ _))

end Span

end RuntimeTargets
