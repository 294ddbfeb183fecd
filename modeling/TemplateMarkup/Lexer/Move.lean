import TemplateMarkup.Event
import TemplateMarkup.Lexer.Log

/-!
# Moves

One step of the lexer, decided by the active state from the characters ahead of the cursor and not
yet carried out. A move waits, rejects the next character, takes at least one character, or takes
none and lets another state look at the same character.
-/

namespace TemplateMarkup

/-- The place that the cursor marks before it moves on. -/
inductive Mark where
  /-- The `<` of a tag, a comment or a declaration. -/
  | tag
  /-- The first of the two braces of an expression. -/
  | expression
deriving DecidableEq, Repr

/-- A move over at least one character. -/
structure Take where
  next : State
  events : List Event := []
  /-- How many characters are taken after the first. -/
  extra : Nat := 0
  mark : Option Mark := none
  note : Option Note := none
deriving DecidableEq, Repr

inductive Move where
  /-- Nothing can be decided before one more character is there. -/
  | wait
  /-- The next character is wrong where it stands. -/
  | reject (cause : SyntaxError.Cause)
  /-- The same character is for the state `next` to look at. -/
  | reexamine (next : State) (events : List Event)
  | take (t : Take)
deriving DecidableEq, Repr

namespace Move

/-- Takes one character, goes to `next` and reports `events`. -/
def advance (next : State) (events : List Event) : Move :=
  .take { next, events }

/-- Drops one character and stays. -/
def drop (stay : State) (note : Note) : Move :=
  .take { next := stay, note := some note }

end Move

end TemplateMarkup
