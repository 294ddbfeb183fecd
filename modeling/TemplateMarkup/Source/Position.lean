/-!
# Positions

Lines count from 1 and columns from 0. A line feed opens the next line, every other character moves
one column to the right, and a column counts characters, not bytes.
-/

namespace TemplateMarkup

structure Position where
  line : Nat
  column : Nat
deriving DecidableEq, Repr

namespace Position

/-- The position before the first character of a document. -/
def start : Position := ⟨1, 0⟩

instance : Inhabited Position := ⟨start⟩

/-- The position after a character that stands at `p`. -/
def next (p : Position) (c : Char) : Position :=
  if c = '\n' then ⟨p.line + 1, 0⟩ else ⟨p.line, p.column + 1⟩

instance : ToString Position where
  toString p := s!"{p.line}:{p.column}"

end Position

/-- The part of a document between two positions. -/
structure Span where
  start : Position
  stop : Position
deriving DecidableEq, Repr

instance : ToString Span where
  toString s := s!"{s.start}-{s.stop}"

end TemplateMarkup
