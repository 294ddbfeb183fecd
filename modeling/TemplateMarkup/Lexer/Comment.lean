import TemplateMarkup.Lexer.Move

/-!
# Moves in comments

Of the declarations that `<!` may open only comments are known: everything up to the first `--` is
dropped. A dash in a comment is held back until the next character shows that the comment goes on.
-/

namespace TemplateMarkup.Move

/-- Takes the `>` that ends a comment. -/
def finishComment (after : Position) : Move :=
  advance .beforeData [.finishComment after]

/-- The comment goes on: the dashes held back are part of its text, and so is `c`. -/
def resumeComment (dashes : String) (c : Char) : Move :=
  advance .comment [.appendComment dashes, .appendComment (String.singleton c)]

def markupDeclaration (c : Char) (rest : List Char) : Move :=
  if c = '-' then
    match rest with
    | [] => .wait
    | d :: _ =>
      if d = '-' then .take { next := .commentStart, events := [.beginComment], extra := 1 }
      else drop .markupDeclaration (.droppedInDeclaration c)
  else drop .markupDeclaration (.droppedInDeclaration c)

def commentStart (after : Position) (c : Char) : Move :=
  if c = '-' then advance .commentStartDash []
  else if c = '>' then finishComment after
  else advance .comment [.appendComment (String.singleton c)]

def commentStartDash (after : Position) (c : Char) : Move :=
  if c = '-' then advance .commentEnd []
  else if c = '>' then finishComment after
  else resumeComment "-" c

def comment (c : Char) : Move :=
  if c = '-' then advance .commentEndDash []
  else advance .comment [.appendComment (String.singleton c)]

def commentEndDash (c : Char) : Move :=
  if c = '-' then advance .commentEnd []
  else resumeComment "-" c

/-- A third dash does not end the comment, nor is it held back. -/
def commentEnd (after : Position) (c : Char) : Move :=
  if c = '>' then finishComment after
  else resumeComment "--" c

end TemplateMarkup.Move
