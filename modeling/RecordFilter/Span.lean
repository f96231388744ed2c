/-!
Stretches of a filter text, as byte offsets. The stop is exclusive.
-/
namespace RecordFilter

structure Span where
  start : Nat := 0
  stop : Nat := 0
  deriving DecidableEq

namespace Span

/-- The smallest span that holds both. -/
def union (a b : Span) : Span := ⟨min a.start b.start, max a.stop b.stop⟩

@[simp] theorem union_start (a b : Span) : (a.union b).start = min a.start b.start := rfl
@[simp] theorem union_stop (a b : Span) : (a.union b).stop = max a.stop b.stop := rfl

/-- The same stretch of a text that has `n` more bytes in front. -/
def shift (n : Nat) (s : Span) : Span := ⟨s.start + n, s.stop + n⟩

/-- The empty span at the end of this one. -/
def after (s : Span) : Span := ⟨s.stop, s.stop⟩

def describe (s : Span) : String := s!"{s.start}..{s.stop}"

end Span
end RecordFilter
