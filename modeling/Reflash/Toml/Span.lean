/-!
# Stretches of a text

Where a piece of a text is, counted in bytes from the start of the text. What is read of a text
keeps the stretch that it was read from, so that a fault can be shown in its place.
-/

namespace Reflash.Toml

def byteLength (s : List Char) : Nat := s.foldl (fun n c => n + c.utf8Size) 0

/-- A stretch of a text, from one byte up to another. -/
structure Span where
  start : Nat
  stop : Nat
  deriving DecidableEq

namespace Span

def point (n : Nat) : Span := ⟨n, n⟩

def front (s : Span) : Span := point s.start

def back (s : Span) : Span := point s.stop

def first (s : Span) (count : Nat) : Span := ⟨s.start, s.start + count⟩

def through (s t : Span) : Span := ⟨s.start, t.stop⟩

/-- The stretch of a text that ends where a longer one ends. -/
def tail (s : Span) (text : List Char) : Span := ⟨s.stop - byteLength text, s.stop⟩

end Span

/-- Something that was read, and the stretch that it was read from. -/
structure Located (α : Type) where
  span : Span
  value : α

def Located.map {α β : Type} (f : α → β) (a : Located α) : Located β := ⟨a.span, f a.value⟩

end Reflash.Toml
