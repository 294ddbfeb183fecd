import TemplateMarkup.CommandLine.Arguments
import TemplateMarkup.CommandLine.Line
import TemplateMarkup.Token.ToJson
import TemplateMarkup.Tokenizer

/-!
# What the program answers

From settings to the text that is printed, or to the problem that is reported. Reading a file is
the only thing left open: it may happen in any monad, and the document is read before the options.
-/

namespace TemplateMarkup.CommandLine

/-! ## Without a document -/

def usage : String :=
  "Usage: curly [OPTIONS] [FILE]\n\n" ++
  "  --html <HTML>       Tokenize this string instead of a file\n" ++
  "  --json              Print tokens as a JSON array\n" ++
  "  --loc               Attach line:column spans to tokens\n" ++
  "  --config <FILE>     Load tokenizer options from a JSON file\n" ++
  "  --chunk-size <N>    Feed the input in chunks of this many characters\n" ++
  "  --no-color          Disable colored output\n" ++
  "  -v, --verbose       Log to standard error; twice for every transition\n" ++
  "  -h, --help          Print help\n" ++
  "  -V, --version       Print version\n"

def version : String :=
  "curly 0.1.0\n"

/-- What is printed in the place of tokens. -/
def Stop.text : Stop → String
  | .usage | .help => CommandLine.usage
  | .version => CommandLine.version

/-- Only arguments that make no sense are a failure. -/
def Stop.exitCode : Stop → UInt32
  | .usage => 2
  | .version | .help => 0

/-! ## Problems -/

/-- Why a file has no text. -/
inductive ReadFailure where
  | missing
  | directory
  /-- The bytes are not UTF-8. -/
  | notText
  | other (message : String)
deriving DecidableEq, Repr

def ReadFailure.message : ReadFailure → String
  | missing => "No such file or directory (os error 2)"
  | directory => "Is a directory (os error 21)"
  | notText => "stream did not contain valid UTF-8"
  | other message => message

/-- Why there is no answer. -/
inductive Problem where
  | noDocument
  | unreadableDocument (path : String) (failure : ReadFailure)
  | unreadableConfig (path : String) (failure : ReadFailure)
  | invalidConfig (path : String)
  /-- The document, known by the name given, is wrong. -/
  | invalidDocument (name : String) (failure : Failure)
deriving DecidableEq, Repr

namespace Problem

def message : Problem → String
  | noDocument => "no input given; pass a FILE or --html"
  | unreadableDocument path _ => "failed to read " ++ path
  | unreadableConfig path _ => "failed to read config " ++ path
  | invalidConfig path => "invalid config " ++ path
  | invalidDocument name _ => "failed to tokenize " ++ name

def cause? : Problem → Option String
  | noDocument => none
  | unreadableDocument _ failure => some failure.message
  | unreadableConfig _ failure => some failure.message
  | invalidConfig _ => none
  | invalidDocument _ failure => some failure.message

/-- The message, and below it the cause if it is known. -/
def report (p : Problem) : String :=
  let cause := (p.cause?.map ("\n\nCaused by:\n    " ++ ·)).getD ""
  "Error: " ++ p.message ++ cause ++ "\n"

end Problem

/-! ## The run -/

/-- A list in pieces of `size` elements. The last piece may be shorter, and none is empty. -/
def pieces {α : Type} (size : Nat) : List α → List (List α)
  | [] => []
  | a :: l => (a :: l.take (size - 1)) :: pieces size (l.drop (size - 1))
termination_by l => l.length
decreasing_by
  simp only [List.length_cons, List.length_drop]
  omega

/-- What a document that could be read comes to. -/
structure Answer where
  outcome : Except Problem String
  log : List LogEntry

namespace Settings

variable {m : Type → Type} [Monad m]

/-- The document and the name it has in messages. -/
def document (read : String → m (Except ReadFailure String)) (s : Settings) :
    ExceptT Problem m (String × String) := do
  match s.html, s.file with
  | some html, _ => return ("--html input", html)
  | none, some path =>
    match ← read path with
    | .ok text => return (path, text)
    | .error failure => throw (.unreadableDocument path failure)
  | none, none => throw .noDocument

/-- The options. An argument can turn locations on but not off. -/
def options (read : String → m (Except ReadFailure String)) (s : Settings) :
    ExceptT Problem m Options := do
  match s.config with
  | none => return ⟨s.loc⟩
  | some path =>
    match ← read path with
    | .error failure => throw (.unreadableConfig path failure)
    | .ok text =>
      match Options.ofJson? text with
      | none => throw (.invalidConfig path)
      | some options => return ⟨s.loc || options.trackLocations⟩

/-- The tokens of a document, fed at once or in chunks. -/
def tokenize (s : Settings) (options : Options) (text : String) : Reply (List Token) :=
  let t := Tokenizer.ofOptions options
  match s.chunkSize with
  | none => t.tokenize Reference.standard text
  | some size =>
    t.tokenizeChunks Reference.standard ((pieces size text.toList).map String.ofList)

/-- The text that shows the tokens. -/
def render (s : Settings) (tokens : List Token) : String :=
  if s.json then Token.renderList tokens ++ "\n"
  else String.join (tokens.map fun t => line (!s.noColor) t ++ "\n")

/-- The whole run, from the settings to the answer. -/
def answer (read : String → m (Except ReadFailure String)) (s : Settings) : m Answer := do
  let input ← (do return (← s.document read, ← s.options read) : ExceptT Problem m _).run
  match input with
  | .error problem => return ⟨.error problem, []⟩
  | .ok ((name, text), options) =>
    let reply := s.tokenize options text
    match reply.outcome with
    | .ok tokens => return ⟨.ok (s.render tokens), reply.log⟩
    | .error failure => return ⟨.error (.invalidDocument name failure), reply.log⟩

end Settings

end TemplateMarkup.CommandLine
