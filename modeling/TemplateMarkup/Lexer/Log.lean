import TemplateMarkup.Lexer.State
import TemplateMarkup.SyntaxError

/-!
# The log

What the lexer and the tokenizer tell about their work: chunks, state transitions, and every
character that is dropped or kept against its looks. An entry has a level, a message and named
fields.
-/

namespace TemplateMarkup

/-- The texts after which a character that fits nothing is dropped. -/
inductive Opener where
  | tag
  | endTag
  | expression
  | block
  | endExpression
deriving DecidableEq, Repr

def Opener.text : Opener → String
  | tag => "<"
  | endTag => "</"
  | expression => "\x7b\x7b"
  | block => "\x7b\x7b#"
  | endExpression => "\x7b\x7b/"

/-- A remark on a single move of the lexer. -/
inductive Note where
  | droppedAfter (opener : Opener) (dropped : Char)
  | droppedInDeclaration (dropped : Char)
  /-- A `!` that would open a comment expression, of which there are none. -/
  | commentExpression
  /-- An `&` with no `;` after it in the text at hand. -/
  | unterminatedReference
  | unknownReference (name : String)
deriving DecidableEq, Repr

inductive LogEntry where
  /-- A chunk of so many characters arrives. -/
  | feeding (characters : Nat) (state : State)
  | scanned (state : State) (position : Position)
  /-- The state needs one character more than there is. -/
  | waiting (state : State)
  | transition (source target : State)
  /-- A remark, with the position after the character it is about. -/
  | note (note : Note) (position : Position)
  /-- A character that was still unread at the end of the document. -/
  | droppedAtEnd (dropped : Char) (state : State)
  | flushed (state : State) (position : Position)
  | rejected (error : SyntaxError)
deriving DecidableEq, Repr

inductive LogLevel where
  | debug
  | trace
deriving DecidableEq, Repr

def LogLevel.name : LogLevel → String
  | debug => "DEBUG"
  | trace => "TRACE"

namespace Note

def message : Note → String
  | droppedAfter opener _ => "ignoring character after '" ++ opener.text ++ "'"
  | droppedInDeclaration _ => "ignoring markup declaration character"
  | commentExpression => "comment expressions are not supported"
  | unterminatedReference => "no ';' buffered after '&'"
  | unknownReference _ => "unresolved character reference"

def fields : Note → List (String × String)
  | droppedAfter _ dropped => [("dropped", Quoted.char dropped)]
  | droppedInDeclaration dropped => [("dropped", Quoted.char dropped)]
  | commentExpression => []
  | unterminatedReference => []
  | unknownReference name => [("name", name)]

end Note

namespace LogEntry

def level : LogEntry → LogLevel
  | waiting _ => .trace
  | transition _ _ => .trace
  | _ => .debug

def message : LogEntry → String
  | feeding _ _ => "feeding chunk"
  | scanned _ _ => "chunk scanned"
  | waiting _ => "waiting for more input"
  | transition _ _ => "state transition"
  | note n _ => n.message
  | droppedAtEnd _ _ => "dropping incomplete markup at end of input"
  | flushed _ _ => "flushed"
  | rejected _ => "input rejected"

def fields : LogEntry → List (String × String)
  | feeding characters state => [("chars", toString characters), ("state", state.name)]
  | scanned state position => [("state", state.name), ("position", toString position)]
  | waiting state => [("state", state.name)]
  | transition source target => [("from", source.name), ("to", target.name)]
  | note n position => n.fields ++ [("position", toString position)]
  | droppedAtEnd dropped state =>
    [("dropped", "Some(" ++ Quoted.char dropped ++ ")"), ("state", state.name)]
  | flushed state position => [("state", state.name), ("position", toString position)]
  | rejected error => [("err", error.message)]

end LogEntry

end TemplateMarkup
