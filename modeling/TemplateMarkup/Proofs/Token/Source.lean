import Mathlib
import TemplateMarkup.Proofs.Token.WellFormed
import TemplateMarkup.Token.Display

/-!
# Tokens that can be written out

A token on a line is markup again, but not every token can be read back from it: a value in quotes must
not have the quote in it, a text must not look like markup, and no value may be a reference. What can
be read back is `Printable`.
-/

namespace TemplateMarkup

/-- A text stands for itself, everything else for its one-line form. -/
def TokenKind.source : TokenKind → String
  | .chars text => text
  | k => k.display

def Token.source (t : Token) : String :=
  match t.kind with
  | .chars text => text
  | _ => t.display

theorem Token.source_eq {t : Token} (h : t.span = none) : t.source = t.kind.source := by
  obtain ⟨kind, span⟩ := t
  obtain rfl : span = none := h
  cases kind <;> rfl

/-! ## What can be written out -/

/-- A character of a bare value of a tag attribute. An `&` would begin a reference. -/
def isBareValueChar (c : Char) : Bool :=
  !isSpace c && c != '>' && c != '&'

def isBareValueStart (c : Char) : Bool :=
  isBareValueChar c && !isQuote c

/-- The value has one fragment and no reference in it. A bare one may be empty. -/
structure Attribute.Printable (a : Attribute) : Prop where
  name : isWord isAttributeNameChar isAttributeNameChar a.name = true
  values : a.values.length = 1
  value : if a.quoted then '"' ∉ a.value.toList ∧ '&' ∉ a.value.toList
    else a.value = "" ∨ isWord isBareValueStart isBareValueChar a.value = true
  embeddedExpressions : a.embeddedExpressions = []

instance (a : Attribute) : Decidable a.Printable :=
  decidable_of_iff
    (isWord isAttributeNameChar isAttributeNameChar a.name = true ∧ a.values.length = 1 ∧
      (if a.quoted then '"' ∉ a.value.toList ∧ '&' ∉ a.value.toList
        else a.value = "" ∨ isWord isBareValueStart isBareValueChar a.value = true) ∧
      a.embeddedExpressions = [])
    ⟨fun ⟨hname, hvalues, hvalue, hembedded⟩ => ⟨hname, hvalues, hvalue, hembedded⟩,
      fun ⟨hname, hvalues, hvalue, hembedded⟩ => ⟨hname, hvalues, hvalue, hembedded⟩⟩

namespace ExpressionAttribute

def NamePrintable (a : ExpressionAttribute) : Prop :=
  if a.nameIsLiteral then '"' ∉ a.name.toList
  else isWord isExpressionAttributeStart isExpressionAttributeChar a.name = true

def ValuePrintable (a : ExpressionAttribute) : Prop :=
  match a.valueIsLiteral with
  | none => a.value = ""
  | some true => '"' ∉ a.value.toList
  | some false => isWord isExpressionValueStart isExpressionNameChar a.value = true

structure Printable (a : ExpressionAttribute) : Prop where
  name : a.NamePrintable
  value : a.ValuePrintable

instance (a : ExpressionAttribute) : Decidable a.NamePrintable :=
  inferInstanceAs (Decidable (if a.nameIsLiteral then '"' ∉ a.name.toList
    else isWord isExpressionAttributeStart isExpressionAttributeChar a.name = true))

instance : DecidablePred ValuePrintable
  | ⟨_, value, _, none⟩ => inferInstanceAs (Decidable (value = ""))
  | ⟨_, value, _, some true⟩ => inferInstanceAs (Decidable ('"' ∉ value.toList))
  | ⟨_, value, _, some false⟩ =>
      inferInstanceAs (Decidable (isWord isExpressionValueStart isExpressionNameChar value = true))

instance (a : ExpressionAttribute) : Decidable a.Printable :=
  decidable_of_iff (a.NamePrintable ∧ a.ValuePrintable)
    ⟨fun ⟨hname, hvalue⟩ => ⟨hname, hvalue⟩, fun ⟨hname, hvalue⟩ => ⟨hname, hvalue⟩⟩

end ExpressionAttribute

/-- A text that neither ends a comment nor makes its end unclear. -/
structure IsCommentText (s : List Char) : Prop where
  start : ¬['>'] <+: s
  startDash : ¬['-', '>'] <+: s
  inside : ¬['-', '-', '>'] <:+: s
  last : ¬['-'] <:+ s

instance (s : List Char) : Decidable (IsCommentText s) :=
  decidable_of_iff
    (¬['>'] <+: s ∧ ¬['-', '>'] <+: s ∧ ¬['-', '-', '>'] <:+: s ∧ ¬['-'] <:+ s)
    ⟨fun ⟨hstart, hdash, hinside, hlast⟩ => ⟨hstart, hdash, hinside, hlast⟩,
      fun ⟨hstart, hdash, hinside, hlast⟩ => ⟨hstart, hdash, hinside, hlast⟩⟩

def isTextChar (c : Char) : Bool :=
  c != '<' && c != '\x7b' && c != '&'

def TokenKind.Printable : TokenKind → Prop
  | .chars text => isWord isTextChar isTextChar text = true
  | .comment text => IsCommentText text.toList
  | .startTag name attributes _ => isTagName name = true ∧ ∀ a ∈ attributes, a.Printable
  | .endTag name => isTagName name = true
  | .startExpression name attributes _ =>
      isExpressionName name = true ∧ ∀ a ∈ attributes, a.Printable
  | .endExpression name => isExpressionName name = true

instance : DecidablePred TokenKind.Printable
  | .chars text => inferInstanceAs (Decidable (isWord isTextChar isTextChar text = true))
  | .comment text => inferInstanceAs (Decidable (IsCommentText text.toList))
  | .startTag name attributes _ =>
      inferInstanceAs (Decidable (isTagName name = true ∧ ∀ a ∈ attributes, a.Printable))
  | .endTag name => inferInstanceAs (Decidable (isTagName name = true))
  | .startExpression name attributes _ =>
      inferInstanceAs (Decidable (isExpressionName name = true ∧ ∀ a ∈ attributes, a.Printable))
  | .endExpression name => inferInstanceAs (Decidable (isExpressionName name = true))

/-! ## The texts of a token -/

def ExpressionAttribute.fields (a : ExpressionAttribute) : List String :=
  [a.name, a.value]

def Attribute.fields (a : Attribute) : List String :=
  a.name :: a.values ++
    a.embeddedExpressions.flatMap fun e => e.name :: e.attributes.flatMap ExpressionAttribute.fields

/-- All the texts that a token holds. -/
def TokenKind.fields : TokenKind → List String
  | .chars text => [text]
  | .comment text => [text]
  | .startTag name attributes _ => name :: attributes.flatMap Attribute.fields
  | .endTag name => [name]
  | .startExpression name attributes _ => name :: attributes.flatMap ExpressionAttribute.fields
  | .endExpression name => [name]

theorem Attribute.return_notMem_display {a : Attribute}
    (h : ∀ s ∈ a.fields, '\r' ∉ s.toList) : '\r' ∉ a.display.toList := by
  have hname : '\r' ∉ a.name.toList := h _ (by simp [fields])
  have hvalue : '\r' ∉ a.value.toList := by
    rw [value, String.toList_join, List.mem_flatMap]
    rintro ⟨v, hv, hmem⟩
    exact h v (by simp [fields, hv]) hmem
  unfold display
  split
  · simp [hname, hvalue]
  · split <;> simp [hname, hvalue]

theorem ExpressionAttribute.return_notMem_display {a : ExpressionAttribute}
    (h : ∀ s ∈ a.fields, '\r' ∉ s.toList) : '\r' ∉ a.display.toList := by
  have hname : '\r' ∉ a.name.toList := h _ (by simp [fields])
  have hvalue : '\r' ∉ a.value.toList := h _ (by simp [fields])
  unfold display
  split <;> split <;> simp [hname, hvalue]

theorem return_notMem_displays {α : Type} {fields : α → List String} {display : α → String}
    (hdisplay : ∀ {x}, (∀ s ∈ fields x, '\r' ∉ s.toList) → '\r' ∉ (display x).toList) {xs : List α}
    (h : ∀ s ∈ xs.flatMap fields, '\r' ∉ s.toList) : ∀ x ∈ xs, '\r' ∉ (display x).toList := by
  intro x hx
  exact hdisplay fun s hs => h s (List.mem_flatMap.mpr ⟨x, hx, hs⟩)

/-- The markup of a token has no carriage return of its own. -/
theorem TokenKind.return_notMem_source {k : TokenKind}
    (h : ∀ s ∈ k.fields, '\r' ∉ s.toList) : '\r' ∉ k.source.toList := by
  cases k with
  | chars text => exact h text (by simp [fields])
  | comment text =>
      have htext := h text (by simp [fields])
      simp [source, display, htext]
  | startTag name attributes selfClosing =>
      have hname := h name (by simp [fields])
      have hattributes := return_notMem_displays Attribute.return_notMem_display fun s hs =>
        h s (List.mem_cons_of_mem _ hs)
      cases selfClosing <;> simpa [source, display, hname] using hattributes
  | endTag name =>
      have hname := h name (by simp [fields])
      simp [source, display, hname]
  | startExpression name attributes isBlock =>
      have hname := h name (by simp [fields])
      have hattributes := return_notMem_displays ExpressionAttribute.return_notMem_display fun s hs =>
        h s (List.mem_cons_of_mem _ hs)
      cases isBlock <;> simpa [source, display, hname] using hattributes
  | endExpression name =>
      have hname := h name (by simp [fields])
      simp [source, display, hname]

/-- A token that can be written out and read back: it tells no place, and a carriage return would be
read as a line feed. -/
structure Token.Printable (t : Token) : Prop where
  span : t.span = none
  kind : t.kind.Printable
  noReturn : ∀ s ∈ t.kind.fields, '\r' ∉ s.toList

instance (t : Token) : Decidable t.Printable :=
  decidable_of_iff
    (t.span = none ∧ t.kind.Printable ∧ ∀ s ∈ t.kind.fields, '\r' ∉ s.toList)
    ⟨fun ⟨hspan, hkind, hreturn⟩ => ⟨hspan, hkind, hreturn⟩,
      fun ⟨hspan, hkind, hreturn⟩ => ⟨hspan, hkind, hreturn⟩⟩

end TemplateMarkup
