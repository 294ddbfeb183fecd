/-!
# JSON values and their printed form

Objects keep their members in the order given. The printed form puts every element and every
member on a line of its own, two spaces deeper than the bracket around it, and an empty list or
object on one line. In strings only the quote, the backslash and the characters below the space
are escaped.
-/

namespace TemplateMarkup

inductive Json where
  | null
  | bool (b : Bool)
  | number (n : Nat)
  | string (s : String)
  | array (elements : List Json)
  | object (members : List (String × Json))
deriving Repr

namespace Json

/-- A character as it stands in a printed string. -/
def escape (c : Char) : String :=
  if c = '"' then "\\\""
  else if c = '\\' then "\\\\"
  else if c = '\x08' then "\\b"
  else if c = '\x0c' then "\\f"
  else if c = '\n' then "\\n"
  else if c = '\r' then "\\r"
  else if c = '\t' then "\\t"
  else if c.toNat < 0x20 then
    let digits := Nat.toDigits 16 c.toNat
    "\\u" ++ String.ofList (List.replicate (4 - digits.length) '0' ++ digits)
  else String.singleton c

def quote (s : String) : String :=
  "\"" ++ String.join (s.toList.map escape) ++ "\""

/-- The line break before something that stands `depth` brackets deep. -/
def lineBreak (depth : Nat) : String :=
  String.ofList ('\n' :: List.replicate (2 * depth) ' ')

/-- Items between brackets that stand `depth` brackets deep themselves. -/
def bracket (opening closing : String) (depth : Nat) (items : List String) : String :=
  if items.isEmpty then opening ++ closing
  else
    opening ++ lineBreak (depth + 1) ++ ("," ++ lineBreak (depth + 1)).intercalate items
      ++ lineBreak depth ++ closing

mutual

/-- The printed form of a value that stands `depth` brackets deep. -/
def renderAt (depth : Nat) : Json → String
  | null => "null"
  | bool b => if b then "true" else "false"
  | number n => toString n
  | string s => quote s
  | array elements => bracket "[" "]" depth (renderElements (depth + 1) elements)
  | object members => bracket "\x7b" "\x7d" depth (renderMembers (depth + 1) members)

def renderElements (depth : Nat) : List Json → List String
  | [] => []
  | j :: js => renderAt depth j :: renderElements depth js

def renderMembers (depth : Nat) : List (String × Json) → List String
  | [] => []
  | (key, j) :: js => (quote key ++ ": " ++ renderAt depth j) :: renderMembers depth js

end

def render (j : Json) : String :=
  renderAt 0 j

end Json

end TemplateMarkup
