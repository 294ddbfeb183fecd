import TemplateMarkup.Lexer.State
import TemplateMarkup.Text.CharClass
import TemplateMarkup.Token.Basic

/-!
# Well-formed tokens

The names and values that a token can have. A name may begin otherwise than it goes on: the first
character of an attribute name may be a `=`, and the first of a bare value a `}`.
-/

namespace TemplateMarkup

/-! ## Words -/

/-- The text begins with a character of the class `first` and goes on with characters of the class
`later`. -/
def isWord (first later : Char → Bool) (s : String) : Bool :=
  match s.toList with
  | [] => false
  | c :: cs => first c && cs.all later

section Words

variable {first later : Char → Bool} {s : String} {c : Char}

theorem isWord_iff :
    isWord first later s = true ↔
      ∃ d ds, s.toList = d :: ds ∧ first d = true ∧ ∀ e ∈ ds, later e = true := by
  unfold isWord
  cases s.toList with
  | nil => simp
  | cons d ds =>
      simp only [Bool.and_eq_true, List.all_eq_true]
      constructor
      · rintro ⟨hd, hds⟩
        exact ⟨d, ds, rfl, hd, hds⟩
      · rintro ⟨d', ds', heq, hd, hds⟩
        obtain ⟨rfl, rfl⟩ := List.cons.inj heq
        exact ⟨hd, hds⟩

/-- Behind its beginning a word has no character that its class leaves out. -/
theorem notMem_tail_of_isWord (h : isWord first later s = true) (hlater : later c = false) :
    c ∉ s.toList.tail := by
  obtain ⟨d, ds, hs, -, hds⟩ := isWord_iff.mp h
  intro hc
  rw [hs, List.tail_cons] at hc
  rw [hds c hc] at hlater
  cases hlater

theorem notMem_of_isWord (h : isWord first later s = true) (hfirst : first c = false)
    (hlater : later c = false) : c ∉ s.toList := by
  obtain ⟨d, ds, hs, hd, -⟩ := isWord_iff.mp h
  intro hc
  have htail := notMem_tail_of_isWord h hlater
  rw [hs] at hc htail
  rcases List.mem_cons.mp hc with rfl | hc
  · rw [hd] at hfirst
    cases hfirst
  · exact htail hc

theorem isWord_empty_push (h : first c = true) : isWord first later ("".push c) = true := by
  simp [isWord, h]

theorem isWord_push (h : isWord first later s = true) (hc : later c = true) :
    isWord first later (s.push c) = true := by
  rw [isWord_iff] at h ⊢
  obtain ⟨d, ds, hs, hd, hds⟩ := h
  refine ⟨d, ds ++ [c], by simp [hs], hd, ?_⟩
  intro e he
  rcases List.mem_append.mp he with he | he
  · exact hds e he
  · rwa [List.mem_singleton.mp he]

end Words

/-! ## Character classes -/

def isQuote (c : Char) : Bool :=
  c == '"' || c == '\''

def isTagNameChar (c : Char) : Bool :=
  !isSpace c && c != '/' && c != '>'

def isAttributeNameChar (c : Char) : Bool :=
  isTagNameChar c && c != '='

def isExpressionNameChar (c : Char) : Bool :=
  !isSpace c && c != '}'

def isExpressionAttributeStart (c : Char) : Bool :=
  isExpressionNameChar c && !isQuote c

def isExpressionAttributeChar (c : Char) : Bool :=
  isExpressionNameChar c && c != '='

def isExpressionValueStart (c : Char) : Bool :=
  !isSpace c && !isQuote c

/-! ## Tokens -/

def isTagName (s : String) : Bool :=
  isWord Char.isLower isTagNameChar s

def isExpressionName (s : String) : Bool :=
  isWord Char.isLower isExpressionNameChar s

/-- The text can be put in quotes of one kind or the other. -/
def Quotable (s : String) : Prop :=
  ¬('"' ∈ s.toList ∧ '\'' ∈ s.toList)

theorem quotable_of_notMem {s : String} {q : Quote} (h : q.char ∉ s.toList) : Quotable s := by
  rintro ⟨hdouble, hsingle⟩
  cases q with
  | double => exact h hdouble
  | single => exact h hsingle

theorem notMem_push {s : String} {c d : Char} (h : d ∉ s.toList) (hc : c ≠ d) :
    d ∉ (s.push c).toList := by
  rw [String.toList_push, List.mem_append, List.mem_singleton]
  rintro (hs | rfl)
  · exact h hs
  · exact hc rfl

/-- One value fragment, and no expressions in it. -/
structure Attribute.WellFormed (a : Attribute) : Prop where
  name : isWord isTagNameChar isAttributeNameChar a.name = true
  values : a.values.length = 1
  embeddedExpressions : a.embeddedExpressions = []

namespace ExpressionAttribute

def NameWellFormed (a : ExpressionAttribute) : Prop :=
  if a.nameIsLiteral then Quotable a.name
  else isWord isExpressionAttributeStart isExpressionAttributeChar a.name = true

def ValueWellFormed (a : ExpressionAttribute) : Prop :=
  match a.valueIsLiteral with
  | none => a.value = ""
  | some true => Quotable a.value
  | some false => isWord isExpressionValueStart isExpressionNameChar a.value = true

structure WellFormed (a : ExpressionAttribute) : Prop where
  name : a.NameWellFormed
  value : a.ValueWellFormed

end ExpressionAttribute

def TokenKind.WellFormed : TokenKind → Prop
  | .chars _ => True
  | .comment _ => True
  | .startTag name attributes _ => isTagName name = true ∧ ∀ a ∈ attributes, a.WellFormed
  | .endTag name => isTagName name = true
  | .startExpression name attributes _ =>
      isExpressionName name = true ∧ ∀ a ∈ attributes, a.WellFormed
  | .endExpression name => isExpressionName name = true

end TemplateMarkup
