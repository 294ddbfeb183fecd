import TemplateMarkup.Proofs.Token.Source
import TemplateMarkup.SyntaxError

/-!
# Layouts of an expression

An expression can be written in many ways: with white space of any kind and length, with the keys and
the values of its attributes bare or in quotes of either kind. A layout is one of these ways. It tells
the characters (`ExpressionLayout.source`), the token that they stand for (`ExpressionLayout.kind`), the
rules that keep its parts apart (`ExpressionLayout.WellFormed`), and what must not stand in place of the
closing braces (`ExpressionBorder.Refuses`).
-/

namespace TemplateMarkup

/-! ## Words -/

/-- How a key or a value is written. -/
inductive WordLayout where
  | bare (text : String)
  | quoted (quote : Quote) (text : String)
deriving DecidableEq, Repr

namespace WordLayout

def source : WordLayout → List Char
  | bare text => text.toList
  | quoted quote text => quote.char :: text.toList ++ [quote.char]

def text : WordLayout → String
  | bare text => text
  | quoted _ text => text

def isQuoted : WordLayout → Bool
  | bare _ => false
  | quoted .. => true

/-- Bare words have their classes of characters, and in quotes everything may stand but the quote. -/
def WellFormed (first later : Char → Bool) : WordLayout → Prop
  | bare text => isWord first later text = true
  | quoted quote text => quote.char ∉ text.toList

instance (first later : Char → Bool) : DecidablePred (WellFormed first later)
  | bare text => inferInstanceAs (Decidable (isWord first later text = true))
  | quoted quote text => inferInstanceAs (Decidable (quote.char ∉ text.toList))

end WordLayout

/-! ## Attributes -/

/-- How the value of an attribute is written, with the white space behind the `=`. -/
structure ExpressionValueLayout where
  spaces : List Char
  word : WordLayout
deriving DecidableEq, Repr

namespace ExpressionValueLayout

def source (v : ExpressionValueLayout) : List Char :=
  '=' :: v.spaces ++ v.word.source

structure WellFormed (v : ExpressionValueLayout) : Prop where
  spaces : v.spaces.all isSpace = true
  word : v.word.WellFormed isExpressionValueStart isExpressionNameChar

instance (v : ExpressionValueLayout) : Decidable v.WellFormed :=
  decidable_of_iff
    (v.spaces.all isSpace = true ∧ v.word.WellFormed isExpressionValueStart isExpressionNameChar)
    ⟨fun ⟨hspaces, hword⟩ => ⟨hspaces, hword⟩, fun ⟨hspaces, hword⟩ => ⟨hspaces, hword⟩⟩

end ExpressionValueLayout

/-- What the next character stands behind. -/
inductive ExpressionBorder where
  /-- White space or a bare word. -/
  | free
  | quotedKey
  | quotedValue
deriving DecidableEq, Repr

structure ExpressionAttributeLayout where
  separator : List Char
  key : WordLayout
  value? : Option ExpressionValueLayout
deriving DecidableEq, Repr

/-- The attribute that is written so. Without a value it has an empty one. -/
def ExpressionAttributeLayout.attribute (a : ExpressionAttributeLayout) : ExpressionAttribute :=
  ⟨a.key.text, (a.value?.map (·.word.text)).getD "", a.key.isQuoted, a.value?.map (·.word.isQuoted)⟩

namespace ExpressionAttributeLayout

def source (a : ExpressionAttributeLayout) : List Char :=
  a.separator ++ a.key.source ++ (a.value?.map ExpressionValueLayout.source).getD []

def border (a : ExpressionAttributeLayout) : ExpressionBorder :=
  match a.value? with
  | none => if a.key.isQuoted then .quotedKey else .free
  | some v => if v.word.isQuoted then .quotedValue else .free

structure WellFormed (a : ExpressionAttributeLayout) : Prop where
  separator : a.separator ≠ [] ∧ a.separator.all isSpace = true
  key : a.key.WellFormed isExpressionAttributeStart isExpressionAttributeChar
  value : ∀ v ∈ a.value?, v.WellFormed

instance (a : ExpressionAttributeLayout) : Decidable a.WellFormed :=
  decidable_of_iff
    ((a.separator ≠ [] ∧ a.separator.all isSpace = true) ∧
      a.key.WellFormed isExpressionAttributeStart isExpressionAttributeChar ∧
      ∀ v ∈ a.value?, v.WellFormed)
    ⟨fun ⟨hseparator, hkey, hvalue⟩ => ⟨hseparator, hkey, hvalue⟩,
      fun ⟨hseparator, hkey, hvalue⟩ => ⟨hseparator, hkey, hvalue⟩⟩

end ExpressionAttributeLayout

/-! ## Expressions -/

structure ExpressionLayout where
  isBlock : Bool
  name : String
  attributes : List ExpressionAttributeLayout
  /-- The white space in front of the closing braces. -/
  trailer : List Char
deriving DecidableEq, Repr

namespace ExpressionLayout

/-- What stands between the braces. -/
def body (e : ExpressionLayout) : List Char :=
  (if e.isBlock then ['#'] else []) ++ e.name.toList ++
    e.attributes.flatMap ExpressionAttributeLayout.source ++ e.trailer

/-- All that stands in front of the closing braces. -/
def opened (e : ExpressionLayout) : List Char :=
  '{' :: '{' :: e.body

def source (e : ExpressionLayout) : List Char :=
  e.opened ++ ['}', '}']

/-- The token that the expression stands for. Of its name only the first letter is made small. -/
def kind (e : ExpressionLayout) : TokenKind :=
  .startExpression (String.ofList (e.name.toList.modifyHead Char.toLower))
    (e.attributes.map ExpressionAttributeLayout.attribute) e.isBlock

/-- What the closing braces stand behind. -/
def border (e : ExpressionLayout) : ExpressionBorder :=
  if e.trailer = [] then (e.attributes.getLast?.map (·.border)).getD .free else .free

structure WellFormed (e : ExpressionLayout) : Prop where
  name : isWord Char.isAlpha isExpressionNameChar e.name = true
  attributes : ∀ a ∈ e.attributes, a.WellFormed
  trailer : e.trailer.all isSpace = true

instance (e : ExpressionLayout) : Decidable e.WellFormed :=
  decidable_of_iff
    (isWord Char.isAlpha isExpressionNameChar e.name = true ∧
      (∀ a ∈ e.attributes, a.WellFormed) ∧ e.trailer.all isSpace = true)
    ⟨fun ⟨hname, hattributes, htrailer⟩ => ⟨hname, hattributes, htrailer⟩,
      fun ⟨hname, hattributes, htrailer⟩ => ⟨hname, hattributes, htrailer⟩⟩

end ExpressionLayout

/-- What is wrong behind the border, and why. Everywhere it is a closing brace without the other, and
directly behind a closing quote whatever would go on with the word. -/
inductive ExpressionBorder.Refuses : ExpressionBorder → List Char → SyntaxError.Cause → Prop
  | brace (b : ExpressionBorder) {c : Char} (hc : c ≠ '}') : Refuses b ['}', c] (.unpairedBrace c)
  | key {c : Char} (hspace : isSpace c = false) (hequals : c ≠ '=') (hbrace : c ≠ '}') :
      Refuses .quotedKey [c] (.afterQuotedName c)
  | value {c : Char} (hspace : isSpace c = false) (hbrace : c ≠ '}') :
      Refuses .quotedValue [c] (.afterQuotedValue c)

/-! ## Expressions on a line -/

/-- A word on a line is bare or in double quotes. -/
def WordLayout.printed (quoted : Bool) (text : String) : WordLayout :=
  if quoted then .quoted .double text else .bare text

/-- An attribute as a line shows it, with a space in front of it. -/
def ExpressionAttribute.layout (a : ExpressionAttribute) : ExpressionAttributeLayout where
  separator := [' ']
  key := .printed a.nameIsLiteral a.name
  value? := a.valueIsLiteral.map fun quoted => ⟨[], .printed quoted a.value⟩

section Printed

variable {a : ExpressionAttribute} {attributes : List ExpressionAttribute} {name : String}
  {isBlock : Bool}

theorem ExpressionAttribute.source_layout (a : ExpressionAttribute) :
    a.layout.source = ' ' :: a.display.toList := by
  obtain ⟨name, value, nameIsLiteral, valueIsLiteral⟩ := a
  cases nameIsLiteral <;> rcases valueIsLiteral with _ | _ | _ <;>
    simp [layout, display, ExpressionAttributeLayout.source, ExpressionValueLayout.source,
      WordLayout.printed, WordLayout.source, Quote.char]

theorem ExpressionAttribute.attribute_layout (ha : a.Printable) : a.layout.attribute = a := by
  obtain ⟨name, value, nameIsLiteral, valueIsLiteral⟩ := a
  have hvalue := ha.value
  cases nameIsLiteral <;> rcases valueIsLiteral with _ | _ | _ <;>
    simp_all [layout, ExpressionAttributeLayout.attribute, WordLayout.printed, WordLayout.text,
      WordLayout.isQuoted, ValuePrintable]

theorem ExpressionAttribute.wellFormed_layout (ha : a.Printable) : a.layout.WellFormed := by
  obtain ⟨name, value, nameIsLiteral, valueIsLiteral⟩ := a
  obtain ⟨hname, hvalue⟩ := ha
  refine ⟨⟨by simp [layout], by simp [layout, isSpace]⟩, ?_, ?_⟩
  · cases nameIsLiteral <;> exact hname
  · rintro v hv
    rcases valueIsLiteral with _ | _ | _ <;> cases hv <;> exact ⟨rfl, hvalue⟩

namespace ExpressionLayout

def printed (name : String) (attributes : List ExpressionAttribute) (isBlock : Bool) :
    ExpressionLayout where
  isBlock
  name
  attributes := attributes.map ExpressionAttribute.layout
  trailer := []

theorem body_printed (name : String) (attributes : List ExpressionAttribute) (isBlock : Bool) :
    (printed name attributes isBlock).body =
      (if isBlock then ['#'] else []) ++ name.toList ++
        attributes.flatMap fun a => ' ' :: a.display.toList := by
  cases isBlock <;> simp [body, printed, List.flatMap_map, ExpressionAttribute.source_layout]

theorem kind_printed (h : ∀ a ∈ attributes, a.Printable) :
    (printed name attributes isBlock).kind =
      .startExpression (String.ofList (name.toList.modifyHead Char.toLower)) attributes isBlock := by
  have hattributes :
      attributes.map (ExpressionAttributeLayout.attribute ∘ ExpressionAttribute.layout) = attributes :=
    (List.map_congr_left fun a ha => ExpressionAttribute.attribute_layout (h a ha)).trans
      (List.map_id _)
  simp [kind, printed, hattributes]

theorem wellFormed_printed (isBlock : Bool)
    (hname : isWord Char.isAlpha isExpressionNameChar name = true)
    (h : ∀ a ∈ attributes, a.Printable) : (printed name attributes isBlock).WellFormed := by
  refine ⟨hname, ?_, rfl⟩
  intro a ha
  obtain ⟨b, hb, rfl⟩ := List.mem_map.mp ha
  exact ExpressionAttribute.wellFormed_layout (h b hb)

end ExpressionLayout

end Printed

end TemplateMarkup
