import TemplateMarkup.Lexer.Step
import TemplateMarkup.Source.Buffer
import TemplateMarkup.Text.LineEnding

/-!
# The lexer

A state, the text so far with the cursor in it, and two marks: where the last tag and the last
expression began. The lexer holds no tokens. It reads as far as the text allows and reports
events; a document may come in any number of chunks, and the next chunk finds the lexer as the
last one left it.
-/

namespace TemplateMarkup

structure Lexer where
  state : State := .beforeData
  buffer : Buffer := ∅
  /-- The position of the last `<` that opened something. -/
  tagStart : Position := .start
  /-- The position of the last two braces that opened an expression. -/
  expressionStart : Position := .start
  /-- Whether the last character fed was a carriage return, whose line feed may be still to come. -/
  afterReturn : Bool := false
deriving DecidableEq, Repr

/-- What a stretch of reading comes to. -/
structure Scan where
  lexer : Lexer
  events : List Event
  log : List LogEntry
  /-- Why reading stopped early, if it did. -/
  error? : Option SyntaxError
deriving DecidableEq, Repr

namespace Lexer

/-- The position of the cursor. -/
def position (l : Lexer) : Position :=
  l.buffer.position

/-! ## Carrying out a move -/

def mark (l : Lexer) : Mark → Lexer
  | .tag => { l with tagStart := l.position }
  | .expression => { l with expressionStart := l.position }

/-- Marks the cursor if the move says so, takes the characters and changes the state. -/
def take (l : Lexer) (t : Take) : Lexer :=
  let l := (t.mark.map l.mark).getD l
  { l with state := t.next, buffer := l.buffer.advance (t.extra + 1) }

/-- A change of state is logged, staying is not. -/
def transition (source target : State) : List LogEntry :=
  if source = target then [] else [.transition source target]

/-- The log of a move that has led from `l` to `l'`. -/
def takeLog (l l' : Lexer) (t : Take) : List LogEntry :=
  (t.note.map (LogEntry.note · l'.position)).toList ++ transition l.state l'.state

/-- The error at the character that was taken last. -/
def syntaxError (l : Lexer) (cause : SyntaxError.Cause) : SyntaxError :=
  ⟨cause, l.position, l.expressionStart⟩

/-! ## Reading on -/

/-- Two moves for each unread character at the most, one of which hands it on. -/
def workLeft (l : Lexer) : Nat :=
  2 * l.buffer.unread.length + (l.buffer.unread.head?.any l.state.restless).toNat

theorem workLeft_take (l : Lexer) (t : Take) {c : Char} {rest : List Char}
    (h : l.buffer.unread = c :: rest) : (l.take t).workLeft < l.workLeft := by
  have hunread : (l.take t).buffer.unread = rest.drop t.extra := by
    cases hmark : t.mark with
    | none => simp [take, hmark, h]
    | some m => cases m <;> simp [take, mark, hmark, h]
  have hdrop : (rest.drop t.extra).length ≤ rest.length := by simp
  have hbit := Bool.toNat_le ((rest.drop t.extra).head?.any t.next.restless)
  have hstate : (l.take t).state = t.next := rfl
  simp only [workLeft, hunread, hstate, h, List.length_cons]
  omega

theorem workLeft_reexamine (l : Lexer) (resolve : Resolver) {c : Char} {rest : List Char}
    {next : State} {events : List Event} (h : l.buffer.unread = c :: rest)
    (hm : l.state.move resolve l.position c rest = .reexamine next events) :
    { l with state := next : Lexer }.workLeft < l.workLeft := by
  obtain ⟨h₁, h₂⟩ := State.restless_of_move_eq_reexamine hm
  simp [workLeft, h, h₁, h₂]

/-- Makes moves until the text runs out, the state has to wait, or a character is rejected. The
events and the log of the moves before are handed in with the newest first. -/
def runFrom (resolve : Resolver) (l : Lexer) (events : List Event) (log : List LogEntry) : Scan :=
  match h : l.buffer.unread with
  | [] => ⟨l, events.reverse, log.reverse, none⟩
  | c :: rest =>
    match hm : l.state.move resolve l.position c rest with
    | .wait => ⟨l, events.reverse, (.waiting l.state :: log).reverse, none⟩
    | .reject cause =>
      let l' := { l with buffer := l.buffer.advance 1 }
      ⟨l', events.reverse, log.reverse, some (l'.syntaxError cause)⟩
    | .reexamine next sent =>
      have := workLeft_reexamine l resolve h hm
      runFrom resolve { l with state := next } (sent.reverse ++ events)
        ((transition l.state next).reverse ++ log)
    | .take t =>
      have := workLeft_take l t h
      runFrom resolve (l.take t) (t.events.reverse ++ events)
        ((takeLog l (l.take t) t).reverse ++ log)
termination_by l.workLeft

/-- Reads as far as the text allows. -/
def run (resolve : Resolver) (l : Lexer) : Scan :=
  runFrom resolve l [] []

/-! ## The three operations -/

/-- Appends a chunk to the text and reads on. Nothing is undone when a character is rejected: the
characters after it stay unread, and the state stays what it is. -/
def feed (resolve : Resolver) (l : Lexer) (text : String) : Scan :=
  let chunk := LineEnding.fold l.afterReturn text.toList
  let scan := run resolve {
    l with
    buffer := l.buffer.push chunk
    afterReturn := LineEnding.endsInReturn l.afterReturn text.toList }
  let closing :=
    if scan.error?.isNone then [.scanned scan.lexer.state scan.lexer.position] else []
  { scan with log := .feeding chunk.length l.state :: scan.log ++ closing }

/-- Settles the one character for which more text was awaited: a brace becomes text, anything else
is dropped. -/
def settle (l : Lexer) : Scan :=
  match l.buffer.unread with
  | [] => ⟨l, [], [], none⟩
  | c :: _ =>
    let l' := { l with buffer := l.buffer.advance 1 }
    match l.state with
    | .beforeData =>
      ⟨{ l' with state := .data }, [.beginChars, .appendChars "\x7b"],
        transition l.state .data, none⟩
    | .possibleExpressionOpen =>
      ⟨{ l' with state := .data }, [.appendChars "\x7b"], transition l.state .data, none⟩
    | _ => ⟨l', [], [.droppedAtEnd c l.state], none⟩

/-- Ends the document: a text run is complete, every other unfinished construct stays unfinished. -/
def flush (l : Lexer) : Scan :=
  let settled := l.settle
  let l' := settled.lexer
  let ended := if l'.state = .data then { l' with state := .beforeData } else l'
  let finish := if l'.state = .data then [.finishChars l'.position] else []
  ⟨ended, settled.events ++ finish,
    settled.log ++ transition l'.state ended.state ++ [.flushed ended.state ended.position], none⟩

/-- Forgets the document. -/
def reset : Scan :=
  ⟨{}, [.reset], [], none⟩

end Lexer

end TemplateMarkup
