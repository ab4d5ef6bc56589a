/-!
# Spans

Consecutive indices, from a first one up to but without a last one.
-/

namespace WholeBody

/-- The indices `start, …, stop - 1`. -/
structure Span where
  start : Nat
  stop : Nat
deriving DecidableEq

namespace Span

def size (s : Span) : Nat := s.stop - s.start

def isEmpty (s : Span) : Bool := s.stop ≤ s.start

/-- The span of `len` indices from `start` on. -/
def ofSize (start len : Nat) : Span := ⟨start, start + len⟩

@[simp] theorem size_ofSize (start len : Nat) : (ofSize start len).size = len := by
  simp [size, ofSize]

@[simp] theorem start_ofSize (start len : Nat) : (ofSize start len).start = start := rfl

@[simp] theorem stop_ofSize (start len : Nat) : (ofSize start len).stop = start + len := rfl

end Span

end WholeBody
