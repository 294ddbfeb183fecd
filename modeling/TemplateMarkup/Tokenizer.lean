import TemplateMarkup.Assembler
import TemplateMarkup.Lexer.Basic
import TemplateMarkup.Options
import TemplateMarkup.Reference.Named

/-!
# The tokenizer

A lexer whose events go to an assembler. A document is tokenized whole, or fed chunk by chunk and
then finished; either way every token is handed out once, by the call in which it is completed. A
rejected chunk ends the document: the tokenizer is reset, and the next chunk begins a new one.
-/

namespace TemplateMarkup

/-- Why a call yields no tokens. -/
inductive Failure where
  | rejected (error : SyntaxError)
  /-- The events did not fit the token under construction. -/
  | misuse (m : Misuse)
deriving DecidableEq, Repr

def Failure.message : Failure → String
  | rejected error => error.message
  | misuse m => m.message

structure Tokenizer where
  lexer : Lexer
  assembler : Assembler
deriving DecidableEq, Repr

/-- What a call to the tokenizer yields. -/
structure Reply (α : Type) where
  outcome : Except Failure α
  /-- The tokenizer after the call. A misuse leaves it as it was. -/
  tokenizer : Tokenizer
  log : List LogEntry

namespace Tokenizer

/-- A tokenizer at the beginning of a document. -/
def ofOptions (options : Options) : Tokenizer :=
  ⟨{}, { trackLocations := options.trackLocations }⟩

/-- Forgets the document, and with it all tokens that have not been handed out. -/
def reset (t : Tokenizer) : Tokenizer :=
  ⟨Lexer.reset.lexer, t.assembler.reset⟩

/-- Feeds the next chunk and yields the tokens completed by it. -/
def feed (resolve : Resolver) (t : Tokenizer) (text : String) : Reply (List Token) :=
  let scan := t.lexer.feed resolve text
  match t.assembler.receiveAll scan.events with
  | .error m => ⟨.error (.misuse m), t, scan.log⟩
  | .ok assembler =>
    match scan.error? with
    | some e =>
      ⟨.error (.rejected e), reset ⟨scan.lexer, assembler⟩, scan.log ++ [.rejected e]⟩
    | none =>
      let (tokens, assembler) := assembler.takeTokens
      ⟨.ok tokens, ⟨scan.lexer, assembler⟩, scan.log⟩

/-- Ends the document and yields the text run that was still open, if there was one. -/
def finish (t : Tokenizer) : Reply (Option Token) :=
  let scan := t.lexer.flush
  match t.assembler.receiveAll scan.events with
  | .error m => ⟨.error (.misuse m), t, scan.log⟩
  | .ok assembler =>
    let (tokens, assembler) := assembler.takeTokens
    ⟨.ok tokens.head?, ⟨scan.lexer, assembler⟩, scan.log⟩

/-- Tokenizes a whole document, whatever was fed before. -/
def tokenize (resolve : Resolver) (t : Tokenizer) (text : String) : Reply (List Token) :=
  let fed := t.reset.feed resolve text
  match fed.outcome with
  | .error _ => fed
  | .ok tokens =>
    let ended := fed.tokenizer.finish
    ⟨ended.outcome.map (tokens ++ ·.toList), ended.tokenizer, fed.log ++ ended.log⟩

/-- Feeds the chunks of a document one after another and finishes it. -/
def tokenizeChunks (resolve : Resolver) (t : Tokenizer) : List String → Reply (List Token)
  | [] =>
    let ended := t.finish
    ⟨ended.outcome.map (·.toList), ended.tokenizer, ended.log⟩
  | chunk :: chunks =>
    let fed := t.feed resolve chunk
    match fed.outcome with
    | .error _ => fed
    | .ok tokens =>
      let later := fed.tokenizer.tokenizeChunks resolve chunks
      ⟨later.outcome.map (tokens ++ ·), later.tokenizer, fed.log ++ later.log⟩

end Tokenizer

/-- The tokens of a document, with the standard references. -/
def tokenize (text : String) (options : Options) : Except Failure (List Token) :=
  ((Tokenizer.ofOptions options).tokenize Reference.standard text).outcome

end TemplateMarkup
