import TemplateMarkup.Proofs.Token.Source

/-!
# Layouts of a start tag

A start tag can be written in many ways: with white space of any kind and length, with a `/` where white
space may stand, with values bare or in quotes of either kind. A layout is one of these ways. It tells
the characters (`TagLayout.source`), the token that they stand for (`TagLayout.kind`) and the rules that
keep its parts apart (`TagLayout.WellFormed`).
-/

namespace TemplateMarkup

/-! ## Separators -/

/-- White space or a `/`. Both part attributes. -/
def isSeparator (c : Char) : Bool :=
  isSpace c || c == '/'

/-- What a separator stands behind. -/
inductive Border where
  /-- The name of the tag, or an attribute without a value. -/
  | name
  | bareValue
  /-- A closing quote, or another separator. -/
  | free
deriving DecidableEq, Repr

/-- The separator keeps an attribute apart from what is in front of it. A name and a bare value would go
on with the attribute, and a bare value with a `/` as well. -/
def Border.Parts (b : Border) (separator : List Char) : Prop :=
  separator.all isSeparator = true ∧
    match b with
    | name => separator ≠ []
    | bareValue => separator.head?.any isSpace = true
    | free => True

/-- The separator may stand in front of the `>` of a tag. -/
def Border.Trails (b : Border) (trailer : List Char) : Prop :=
  trailer.all isSeparator = true ∧
    (b = bareValue → trailer = [] ∨ trailer.head?.any isSpace = true)

instance : (b : Border) → (separator : List Char) → Decidable (b.Parts separator)
  | .name, separator =>
      inferInstanceAs (Decidable (separator.all isSeparator = true ∧ separator ≠ []))
  | .bareValue, separator =>
      inferInstanceAs (Decidable (separator.all isSeparator = true ∧
        separator.head?.any isSpace = true))
  | .free, separator =>
      inferInstanceAs (Decidable (separator.all isSeparator = true ∧ True))

instance (b : Border) (trailer : List Char) : Decidable (b.Trails trailer) :=
  inferInstanceAs (Decidable (_ ∧ (b = .bareValue → _)))

/-! ## Attributes -/

/-- How the value of an attribute is written, with the white space before and after the `=`. -/
inductive ValueLayout where
  | absent
  | bare (before after : List Char) (value : String)
  | quoted (before after : List Char) (quote : Quote) (value : String)
deriving DecidableEq, Repr

namespace ValueLayout

def source : ValueLayout → List Char
  | absent => []
  | bare before after value => before ++ '=' :: after ++ value.toList
  | quoted before after quote value =>
      before ++ '=' :: after ++ quote.char :: value.toList ++ [quote.char]

/-- An attribute without a value has an empty one. -/
def value : ValueLayout → String
  | absent => ""
  | bare _ _ value => value
  | quoted _ _ _ value => value

def isQuoted : ValueLayout → Bool
  | quoted .. => true
  | _ => false

def border : ValueLayout → Border
  | absent => .name
  | bare .. => .bareValue
  | quoted .. => .free

/-- No value has a reference in it. -/
def WellFormed : ValueLayout → Prop
  | absent => True
  | bare before after value =>
      (before ++ after).all isSpace = true ∧
        isWord isBareValueStart isBareValueChar value = true
  | quoted before after quote value =>
      (before ++ after).all isSpace = true ∧ quote.char ∉ value.toList ∧ '&' ∉ value.toList

instance : DecidablePred WellFormed
  | absent => inferInstanceAs (Decidable True)
  | bare before after value =>
      inferInstanceAs (Decidable ((before ++ after).all isSpace = true ∧
        isWord isBareValueStart isBareValueChar value = true))
  | quoted before after quote value =>
      inferInstanceAs (Decidable ((before ++ after).all isSpace = true ∧
        quote.char ∉ value.toList ∧ '&' ∉ value.toList))

end ValueLayout

structure AttributeLayout where
  separator : List Char
  name : String
  value : ValueLayout
deriving DecidableEq, Repr

def AttributeLayout.source (a : AttributeLayout) : List Char :=
  a.separator ++ a.name.toList ++ a.value.source

def AttributeLayout.attribute (a : AttributeLayout) : Attribute :=
  ⟨a.name, [a.value.value], [], a.value.isQuoted⟩

/-- An attribute behind a border. -/
structure AttributeLayout.WellFormed (b : Border) (a : AttributeLayout) : Prop where
  separator : b.Parts a.separator
  name : isWord isAttributeNameChar isAttributeNameChar a.name = true
  value : a.value.WellFormed

instance (b : Border) (a : AttributeLayout) : Decidable (a.WellFormed b) :=
  decidable_of_iff
    (b.Parts a.separator ∧ isWord isAttributeNameChar isAttributeNameChar a.name = true ∧
      a.value.WellFormed)
    ⟨fun ⟨hseparator, hname, hvalue⟩ => ⟨hseparator, hname, hvalue⟩,
      fun ⟨hseparator, hname, hvalue⟩ => ⟨hseparator, hname, hvalue⟩⟩

/-- All that stands between a border and the `>` of the tag. -/
def Border.Precedes (b : Border) : List AttributeLayout → List Char → Prop
  | [], trailer => b.Trails trailer
  | a :: attributes, trailer => a.WellFormed b ∧ a.value.border.Precedes attributes trailer

instance Border.decidablePrecedes : (b : Border) → (attributes : List AttributeLayout) →
    (trailer : List Char) → Decidable (b.Precedes attributes trailer)
  | b, [], trailer => inferInstanceAs (Decidable (b.Trails trailer))
  | b, a :: attributes, trailer =>
      haveI := Border.decidablePrecedes a.value.border attributes trailer
      inferInstanceAs (Decidable (a.WellFormed b ∧ a.value.border.Precedes attributes trailer))

/-! ## Tags -/

structure TagLayout where
  name : String
  attributes : List AttributeLayout
  /-- What stands in front of the `>`. -/
  trailer : List Char
deriving DecidableEq, Repr

namespace TagLayout

/-- What stands behind the `<`. -/
def body (t : TagLayout) : List Char :=
  t.name.toList ++ t.attributes.flatMap AttributeLayout.source ++ t.trailer ++ ['>']

def source (t : TagLayout) : List Char :=
  '<' :: t.body

/-- The trailer marks the tag as self-closing if its last character is a `/`. -/
def selfClosing (t : TagLayout) : Bool :=
  t.trailer.getLast? == some '/'

/-- The token that the tag stands for. Of its name only the first letter is made small. -/
def kind (t : TagLayout) : TokenKind :=
  .startTag (String.ofList (t.name.toList.modifyHead Char.toLower))
    (t.attributes.map AttributeLayout.attribute) t.selfClosing

structure WellFormed (t : TagLayout) : Prop where
  name : isWord Char.isAlpha isTagNameChar t.name = true
  attributes : Border.name.Precedes t.attributes t.trailer

instance (t : TagLayout) : Decidable t.WellFormed :=
  decidable_of_iff
    (isWord Char.isAlpha isTagNameChar t.name = true ∧
      Border.name.Precedes t.attributes t.trailer)
    ⟨fun ⟨hname, hattributes⟩ => ⟨hname, hattributes⟩,
      fun ⟨hname, hattributes⟩ => ⟨hname, hattributes⟩⟩

end TagLayout

/-! ## Tags on a line -/

theorem Border.parts_space (b : Border) : b.Parts [' '] := by
  cases b <;> simp [Parts, isSeparator, isSpace]

/-- An attribute as a line shows it: a space parts it from what is in front of it, and its value is bare
or in double quotes. -/
def Attribute.layout (a : Attribute) : AttributeLayout where
  separator := [' ']
  name := a.name
  value :=
    if a.quoted then .quoted [] [] .double a.value
    else if a.value = "" then .absent
    else .bare [] [] a.value

section Printed

variable {a : Attribute} {attributes : List Attribute} {name : String}

theorem Attribute.source_layout (a : Attribute) : a.layout.source = ' ' :: a.display.toList := by
  cases hquoted : a.quoted with
  | true => simp [layout, AttributeLayout.source, ValueLayout.source, display, hquoted, Quote.char]
  | false =>
      by_cases hvalue : a.value = "" <;>
        simp [layout, AttributeLayout.source, ValueLayout.source, display, hquoted, hvalue]

theorem Attribute.attribute_layout (ha : a.Printable) : a.layout.attribute = a := by
  obtain ⟨name, values, embedded, quoted⟩ := a
  obtain ⟨-, hvalues, -, rfl⟩ := ha
  obtain ⟨v, rfl⟩ := List.length_eq_one_iff.mp hvalues
  have hvalue : Attribute.value ⟨name, [v], [], quoted⟩ = v := by simp [Attribute.value]
  cases quoted with
  | true => simp [layout, AttributeLayout.attribute, ValueLayout.value, ValueLayout.isQuoted, hvalue]
  | false =>
      by_cases hempty : v = ""
      · subst hempty
        simp [layout, AttributeLayout.attribute, ValueLayout.value, ValueLayout.isQuoted, hvalue]
      · simp [layout, AttributeLayout.attribute, ValueLayout.value, ValueLayout.isQuoted, hvalue,
          hempty]

theorem Attribute.wellFormed_layout (ha : a.Printable) (b : Border) : a.layout.WellFormed b := by
  obtain ⟨hname, -, hvalue, -⟩ := ha
  refine ⟨b.parts_space, hname, ?_⟩
  cases hquoted : a.quoted with
  | true =>
      rw [hquoted] at hvalue
      simpa [layout, hquoted, ValueLayout.WellFormed, Quote.char] using hvalue
  | false =>
      rw [hquoted] at hvalue
      by_cases hempty : a.value = ""
      · simp [layout, hquoted, hempty, ValueLayout.WellFormed]
      · simpa [layout, hquoted, hempty, ValueLayout.WellFormed] using hvalue

namespace TagLayout

/-- The tag on a line. A space parts the mark from a bare value. -/
def printed (name : String) (attributes : List Attribute) (selfClosing : Bool) : TagLayout where
  name
  attributes := attributes.map Attribute.layout
  trailer := if selfClosing then [' ', '/'] else []

theorem body_printed (name : String) (attributes : List Attribute) (selfClosing : Bool) :
    (printed name attributes selfClosing).body =
      name.toList ++ (attributes.flatMap fun a => ' ' :: a.display.toList) ++
        if selfClosing then [' ', '/', '>'] else ['>'] := by
  cases selfClosing <;>
    simp [body, printed, List.flatMap_map, Attribute.source_layout]

theorem kind_printed (h : ∀ a ∈ attributes, a.Printable) (selfClosing : Bool) :
    (printed name attributes selfClosing).kind =
      .startTag (String.ofList (name.toList.modifyHead Char.toLower)) attributes selfClosing := by
  have hattributes : attributes.map (AttributeLayout.attribute ∘ Attribute.layout) = attributes :=
    (List.map_congr_left fun a ha => Attribute.attribute_layout (h a ha)).trans (List.map_id _)
  cases selfClosing <;> simp [kind, printed, selfClosing, hattributes]

theorem wellFormed_printed (selfClosing : Bool) (hname : isWord Char.isAlpha isTagNameChar name = true)
    (h : ∀ a ∈ attributes, a.Printable) : (printed name attributes selfClosing).WellFormed := by
  refine ⟨hname, ?_⟩
  have hprecedes : ∀ b : Border, b.Precedes (attributes.map Attribute.layout)
      (printed name attributes selfClosing).trailer := by
    induction attributes with
    | nil =>
        intro b
        cases selfClosing <;> simp [printed, Border.Precedes, Border.Trails, isSeparator, isSpace]
    | cons a attributes ih =>
        intro b
        exact ⟨Attribute.wellFormed_layout (h a (by simp)) b,
          ih (fun a ha => h a (by simp [ha])) _⟩
  exact hprecedes .name

end TagLayout

end Printed

end TemplateMarkup
