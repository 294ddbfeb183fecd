import TemplateMarkup.Lexer.Move
import TemplateMarkup.Reference.Lookup

/-!
# Moves in text

A text run ends at `<` and at two braces in a row. A single brace is text, and which of the two it
is shows only when the character after it is there.
-/

namespace TemplateMarkup.Move

/-- Takes an `&` in the state `stay`, together with the reference it begins if there is one. -/
def reference (resolve : Resolver) (stay : State) (append : String → Event) (rest : List Char) :
    Move :=
  match Reference.lookup resolve rest with
  | .unterminated =>
    .take { next := stay, events := [append "&"], note := some .unterminatedReference }
  | .unknown name =>
    .take { next := stay, events := [append "&"], note := some (.unknownReference name) }
  | .resolved length text =>
    .take { next := stay, events := [append text], extra := length + 1 }

theorem reference_ne_reexamine {resolve : Resolver} {stay next : State}
    {append : String → Event} {rest : List Char} {events : List Event} :
    reference resolve stay append rest ≠ .reexamine next events := by
  unfold reference
  split <;> simp

def beforeData (c : Char) (rest : List Char) : Move :=
  if c = '<' then .take { next := .tagOpen, mark := some .tag }
  else if c = '{' then
    match rest with
    | [] => .wait
    | d :: _ =>
      if d = '{' then .take { next := .expressionOpen, extra := 1, mark := some .expression }
      else advance .data [.beginChars, .appendChars "\x7b"]
  else .reexamine .data [.beginChars]

def data (resolve : Resolver) (here : Position) (c : Char) (rest : List Char) : Move :=
  if c = '<' then
    .take { next := .tagOpen, events := [.finishChars here], mark := some .tag }
  else if c = '&' then reference resolve .data .appendChars rest
  else if c = '{' then .reexamine .possibleExpressionOpen []
  else advance .data [.appendChars (String.singleton c)]

/-- The cursor stands on a brace. -/
def possibleExpressionOpen (here : Position) (rest : List Char) : Move :=
  match rest with
  | [] => .wait
  | d :: _ =>
    if d = '{' then
      .take {
        next := .expressionOpen
        events := [.finishChars here]
        extra := 1
        mark := some .expression }
    else
      .take {
        next := .data
        events := [.appendChars "\x7b", .appendChars (String.singleton d)]
        extra := 1 }

end TemplateMarkup.Move
