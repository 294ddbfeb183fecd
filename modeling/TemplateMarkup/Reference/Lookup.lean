/-!
# Character references

After an `&` the text up to the next `;` is looked up. The lookup never fails: where there is no
`;`, or no such name, the `&` stands for itself.
-/

namespace TemplateMarkup

/-- Gives each known name, the text between `&` and `;`, what it stands for. -/
abbrev Resolver := String → Option String

namespace Reference

/-- The text before the first `;`. -/
def nameAhead? (ahead : List Char) : Option (List Char) :=
  if ';' ∈ ahead then some (ahead.takeWhile (· != ';')) else none

/-- What stands after an `&`. -/
inductive Lookup where
  /-- No `;` follows in the text at hand. -/
  | unterminated
  | unknown (name : String)
  /-- A name of `length` characters and its `;` follow, and stand for `text`. -/
  | resolved (length : Nat) (text : String)
deriving DecidableEq, Repr

/-- Looks up the name that `ahead`, the text after an `&`, begins with. -/
def lookup (resolve : Resolver) (ahead : List Char) : Lookup :=
  match nameAhead? ahead with
  | none => .unterminated
  | some name =>
    match resolve (String.ofList name) with
    | none => .unknown (String.ofList name)
    | some text => .resolved name.length text

end Reference

end TemplateMarkup
