/-
  Spans: stretches of a source text between two byte offsets.
-/

namespace FluentGrammar

/-- The stretch from `start` up to `stop`. Offsets are as large as a source needs them; in a source
    of less than 4 GiB they have room in 32 bits. -/
structure Span where
  start : Nat
  stop : Nat
  deriving Repr, DecidableEq, Inhabited

namespace Span

/-- The empty stretch at an offset. -/
def empty (offset : Nat) : Span := ⟨offset, offset⟩

/-- The least stretch that holds both. -/
def cover (a b : Span) : Span := ⟨min a.start b.start, max a.stop b.stop⟩

/-- The stretch in words. -/
def text (s : Span) : String := toString s.start ++ ".." ++ toString s.stop

end Span

end FluentGrammar
