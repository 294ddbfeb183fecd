import TemplateMarkup.Token.Display

/-!
# Tokens on a terminal

One line for each token. The part of the document that the token covers comes first, in a column
of its own, and every kind of token has its colour.
-/

namespace TemplateMarkup.CommandLine

/-- The select-graphic-rendition codes that turn a style on and off. -/
structure Style where
  on : Nat
  off : Nat
deriving DecidableEq, Repr

namespace Style

def dimmed : Style := ⟨2, 0⟩

def green : Style := ⟨32, 39⟩

def yellow : Style := ⟨33, 39⟩

def magenta : Style := ⟨35, 39⟩

def cyan : Style := ⟨36, 39⟩

def paint (s : Style) (text : String) : String :=
  s!"\x1b[{s.on}m" ++ text ++ s!"\x1b[{s.off}m"

def ofKind : TokenKind → Style
  | .chars _ => green
  | .comment _ => dimmed
  | .startTag _ _ _ | .endTag _ => cyan
  | .startExpression _ _ _ | .endExpression _ => magenta

end Style

/-- The width of the column for the places of tokens. -/
def spanWidth : Nat := 12

/-- The line of a token. The column is filled up before it is painted. -/
def line (color : Bool) (t : Token) : String :=
  let paint (s : Style) (text : String) := if color then s.paint text else text
  let text := paint (.ofKind t.kind) t.kind.display
  match t.span with
  | none => text
  | some span =>
    let place := toString span
    paint .yellow (place.pushn ' ' (spanWidth - place.length)) ++ " " ++ text

end TemplateMarkup.CommandLine
