import TemplateMarkup.Text.CharClass

/-!
# Command line arguments

Arguments are read from left to right, and the first one that makes no sense decides; so does a
request for the version or for help. Options with a value take it from behind an `=` or from the
next argument, which must not look like an option then. Only `-v` may be given more than once.
-/

namespace TemplateMarkup.CommandLine

/-- What the arguments ask for. -/
structure Settings where
  /-- The file that holds the document. -/
  file : Option String := none
  /-- The document itself. -/
  html : Option String := none
  /-- The file that holds the options. -/
  config : Option String := none
  /-- The number of characters in a chunk, if the document is to be fed in chunks. -/
  chunkSize : Option Nat := none
  json : Bool := false
  loc : Bool := false
  noColor : Bool := false
  verbosity : Nat := 0
deriving DecidableEq, Repr

/-- Why no document is to be tokenized. -/
inductive Stop where
  | usage
  | version
  | help
deriving DecidableEq, Repr

inductive ValueOption where
  | html
  | config
  | chunkSize
deriving DecidableEq, Repr

inductive Flag where
  | json
  | loc
  | noColor
  | verbose
  | version
  | help
deriving DecidableEq, Repr

def ValueOption.ofName? : String → Option ValueOption
  | "html" => some html
  | "config" => some config
  | "chunk-size" => some chunkSize
  | _ => none

def Flag.ofName? : String → Option Flag
  | "json" => some json
  | "loc" => some loc
  | "no-color" => some noColor
  | "verbose" => some verbose
  | "version" => some version
  | "help" => some help
  | _ => none

def Flag.ofLetter? : Char → Option Flag
  | 'v' => some verbose
  | 'V' => some version
  | 'h' => some help
  | _ => none

/-- A number of characters: decimal digits, perhaps after a plus sign, for a number from one up to
the greatest of sixty-four bits. -/
def chunkSize? (text : String) : Option Nat :=
  let digits :=
    match text.toList with
    | '+' :: digits => digits
    | digits => digits
  (number? 10 digits).filter fun n => 0 < n && n < UInt64.size

namespace Settings

def setFile (s : Settings) (path : String) : Except Stop Settings :=
  if s.file.isSome ∨ path.isEmpty then .error .usage else .ok { s with file := some path }

def setOption (s : Settings) (o : ValueOption) (value : String) : Except Stop Settings :=
  match o with
  | .html => if s.html.isSome then .error .usage else .ok { s with html := some value }
  | .config =>
    if s.config.isSome ∨ value.isEmpty then .error .usage else .ok { s with config := some value }
  | .chunkSize =>
    match s.chunkSize, chunkSize? value with
    | none, some n => .ok { s with chunkSize := some n }
    | _, _ => .error .usage

def setFlag (s : Settings) (f : Flag) : Except Stop Settings :=
  match f with
  | .json => if s.json then .error .usage else .ok { s with json := true }
  | .loc => if s.loc then .error .usage else .ok { s with loc := true }
  | .noColor => if s.noColor then .error .usage else .ok { s with noColor := true }
  | .verbose => .ok { s with verbosity := s.verbosity + 1 }
  | .version => .error .version
  | .help => .error .help

/-- A cluster of one-letter flags. -/
def setLetter (s : Settings) (c : Char) : Except Stop Settings :=
  match Flag.ofLetter? c with
  | some f => s.setFlag f
  | none => .error .usage

end Settings

/-- An argument by its looks. -/
inductive Argument where
  | file (path : String)
  /-- Two dashes and a name, perhaps with a value behind an `=`. -/
  | long (name : String) (value : Option String)
  /-- A dash and letters. -/
  | letters (cs : List Char)
deriving DecidableEq, Repr

/-- A single dash is a file. -/
def Argument.ofString (text : String) : Argument :=
  match text.toList with
  | ['-'] => .file text
  | '-' :: '-' :: cs =>
    let name := String.ofList (cs.takeWhile (· != '='))
    let value := if '=' ∈ cs then some ((cs.dropWhile (· != '=')).drop 1) else none
    .long name (value.map String.ofList)
  | '-' :: cs => .letters cs
  | _ => .file text

/-- Whether the argument after an option can be the value of the option. -/
def canBeValue (text : String) : Bool :=
  match Argument.ofString text with
  | .file _ => true
  | _ => false

/-- Reads the arguments that follow those that `s` stands for. -/
def readFrom (s : Settings) : List String → Except Stop Settings
  | [] => .ok s
  | "--" :: files => files.foldlM Settings.setFile s
  | arg :: args =>
    match Argument.ofString arg with
    | .file path => do readFrom (← s.setFile path) args
    | .letters cs => do readFrom (← cs.foldlM Settings.setLetter s) args
    | .long name value =>
      match ValueOption.ofName? name, Flag.ofName? name, value, args with
      | some o, _, some v, args => do readFrom (← s.setOption o v) args
      | some o, _, none, v :: args =>
        if canBeValue v then do readFrom (← s.setOption o v) args else .error .usage
      | none, some f, none, args => do readFrom (← s.setFlag f) args
      | _, _, _, _ => .error .usage

/-- Reads all arguments. A document and a file that holds one exclude each other. -/
def Settings.ofArguments (args : List String) : Except Stop Settings := do
  let s ← readFrom {} args
  if s.html.isSome ∧ s.file.isSome then throw .usage
  return s

end TemplateMarkup.CommandLine
