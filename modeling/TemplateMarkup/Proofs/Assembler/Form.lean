import TemplateMarkup.Proofs.Assembler.Targets
import TemplateMarkup.Proofs.Token.WellFormed

/-!
# Well-formed tokens under construction

The form of an assembler tells what is already known of the names and values that it holds. A form
takes an event only if the character or the text that the event brings is right where it comes. What
an assembler of that form makes of the event is then of the next form, and a token that is completed
is well formed (`Sound.receive`).
-/

namespace TemplateMarkup

/-- The token is well formed and, where references are `strict` and stand for at least one character,
no text without a character. -/
def TokenKind.Sound (strict : Bool) (k : TokenKind) : Prop :=
  k.WellFormed ∧ (strict = true → k ≠ .chars "")

/-! ## Attributes of expressions -/

/-- How far the last attribute of an expression has come. -/
inductive AttributeForm where
  /-- Before the first character of a bare name. -/
  | nameOpening
  | name
  /-- After the quote that opens a name. -/
  | literalOpening
  | literal (quote : Quote)
  /-- The name is complete, and there is no value so far. -/
  | named
  | valueOpening
  | value
  | valueLiteralOpening
  | valueLiteral (quote : Quote)
deriving DecidableEq, Repr

namespace AttributeForm

/-- The event is right where it comes, and leads to the second form. -/
inductive Takes : AttributeForm → Event → AttributeForm → Prop
  | nameStart {c : Char} (h : isExpressionAttributeStart c = true) :
      Takes .nameOpening (.appendExpressionAttributeName c) .name
  | nameChar {c : Char} (h : isExpressionAttributeChar c = true) :
      Takes .name (.appendExpressionAttributeName c) .name
  | literalChar {q : Quote} {c : Char} (h : c ≠ q.char) :
      Takes (.literal q) (.appendExpressionAttributeName c) (.literal q)
  | beginValue : Takes .named (.beginExpressionAttributeValue false) .valueOpening
  | beginValueLiteral : Takes .named (.beginExpressionAttributeValue true) .valueLiteralOpening
  | valueStart {c : Char} (h : isExpressionValueStart c = true) :
      Takes .valueOpening (.appendExpressionAttributeValue c) .value
  | valueChar {c : Char} (h : isExpressionNameChar c = true) :
      Takes .value (.appendExpressionAttributeValue c) .value
  | valueLiteralChar {q : Quote} {c : Char} (h : c ≠ q.char) :
      Takes (.valueLiteral q) (.appendExpressionAttributeValue c) (.valueLiteral q)

/-- The quote that opens a literal may be of either kind, and a name may be complete. -/
def refines : AttributeForm → AttributeForm → Bool
  | literalOpening, literal _ => true
  | valueLiteralOpening, valueLiteral _ => true
  | name, named => true
  | literal _, named => true
  | p, p' => p == p'

@[simp] theorem refines_self (p : AttributeForm) : p.refines p = true := by
  cases p <;> simp [refines]

/-- The attribute may stop here. -/
def complete : AttributeForm → Bool
  | name => true
  | literal _ => true
  | named => true
  | value => true
  | valueLiteral _ => true
  | _ => false

/-- An attribute of the form. -/
inductive Holds : AttributeForm → ExpressionAttribute → Prop
  | nameOpening : Holds .nameOpening ⟨"", "", false, none⟩
  | name {s : String} (h : isWord isExpressionAttributeStart isExpressionAttributeChar s = true) :
      Holds .name ⟨s, "", false, none⟩
  | literalOpening : Holds .literalOpening ⟨"", "", true, none⟩
  | literal {s : String} {q : Quote} (h : q.char ∉ s.toList) :
      Holds (.literal q) ⟨s, "", true, none⟩
  | named {b : ExpressionAttribute} (h : b.NameWellFormed) :
      Holds .named { b with value := "", valueIsLiteral := none }
  | valueOpening {b : ExpressionAttribute} (h : b.NameWellFormed) :
      Holds .valueOpening { b with value := "", valueIsLiteral := some false }
  | value {b : ExpressionAttribute} {s : String} (h : b.NameWellFormed)
      (hs : isWord isExpressionValueStart isExpressionNameChar s = true) :
      Holds .value { b with value := s, valueIsLiteral := some false }
  | valueLiteralOpening {b : ExpressionAttribute} (h : b.NameWellFormed) :
      Holds .valueLiteralOpening { b with value := "", valueIsLiteral := some true }
  | valueLiteral {b : ExpressionAttribute} {s : String} {q : Quote} (h : b.NameWellFormed)
      (hs : q.char ∉ s.toList) :
      Holds (.valueLiteral q) { b with value := s, valueIsLiteral := some true }

variable {p p' : AttributeForm} {b : ExpressionAttribute} {e : Event}

theorem bareName_wellFormed {s : String}
    (h : isWord isExpressionAttributeStart isExpressionAttributeChar s = true) :
    ExpressionAttribute.NameWellFormed ⟨s, "", false, none⟩ := h

theorem literalName_wellFormed {s : String} {q : Quote} (h : q.char ∉ s.toList) :
    ExpressionAttribute.NameWellFormed ⟨s, "", true, none⟩ := quotable_of_notMem h

theorem Holds.refine (h : p.Holds b) (hp : p.refines p' = true) : p'.Holds b := by
  by_cases hpp' : p = p'
  · exact hpp' ▸ h
  · cases h with
    | name h =>
        cases p' with
        | named => exact .named (bareName_wellFormed h)
        | _ => simp_all [refines]
    | literalOpening =>
        cases p' with
        | literal q => exact .literal (by simp)
        | _ => simp_all [refines]
    | literal h =>
        cases p' with
        | named => exact .named (literalName_wellFormed h)
        | _ => simp_all [refines]
    | valueLiteralOpening h =>
        cases p' with
        | valueLiteral q => exact .valueLiteral h (by simp)
        | _ => simp_all [refines]
    | _ => simp_all [refines]

/-- An attribute that may stop is well formed. -/
theorem Holds.wellFormed (h : p.Holds b) (hp : p.complete = true) : b.WellFormed := by
  cases h with
  | nameOpening => cases hp
  | name h => exact ⟨bareName_wellFormed h, rfl⟩
  | literalOpening => cases hp
  | literal h => exact ⟨literalName_wellFormed h, rfl⟩
  | named h => exact ⟨h, rfl⟩
  | valueOpening => cases hp
  | value h hs => exact ⟨h, hs⟩
  | valueLiteralOpening => cases hp
  | valueLiteral h hs => exact ⟨h, quotable_of_notMem hs⟩

end AttributeForm

theorem AttributeForm.Holds.edit {p p' : AttributeForm} {b : ExpressionAttribute} {e : Event}
    (h : p.Holds b) (hp : p.Takes e p') : ∃ f, e.attributeEdit? = some f ∧ p'.Holds (f b) := by
  cases hp with
  | nameStart hc =>
      cases h
      exact ⟨_, rfl, .name (isWord_empty_push hc)⟩
  | nameChar hc =>
      cases h with
      | name h => exact ⟨_, rfl, .name (isWord_push h hc)⟩
  | literalChar hc =>
      cases h with
      | literal h => exact ⟨_, rfl, .literal (notMem_push h hc)⟩
  | beginValue =>
      cases h with
      | named h => exact ⟨_, rfl, .valueOpening h⟩
  | beginValueLiteral =>
      cases h with
      | named h => exact ⟨_, rfl, .valueLiteralOpening h⟩
  | valueStart hc =>
      cases h with
      | valueOpening h => exact ⟨_, rfl, .value h (isWord_empty_push hc)⟩
  | valueChar hc =>
      cases h with
      | value h hs => exact ⟨_, rfl, .value h (isWord_push hs hc)⟩
  | valueLiteralChar hc =>
      cases h with
      | valueLiteral h hs => exact ⟨_, rfl, .valueLiteral h (notMem_push hs hc)⟩

/-! ## Tokens -/

/-- How far the token under construction has come. -/
inductive Form where
  /-- There is none. -/
  | idle
  /-- A text run, and whether it has text. -/
  | text (filled : Bool)
  | comment
  /-- A tag before the first letter of its name. -/
  | tagOpening
  | tag
  | attributeOpening
  | attributeName
  | attributeValue
  /-- An expression before the first letter of its name. -/
  | expressionOpening
  | expression
  | expressionAttribute (last : AttributeForm)
deriving DecidableEq, Repr

namespace Form

/-- The event is right where it comes, and leads to the second form. -/
inductive Takes (strict : Bool) : Form → Event → Form → Prop
  | beginChars : Takes strict .idle .beginChars (.text false)
  | appendChars {filled : Bool} {piece : String} (h : strict = true → piece ≠ "") :
      Takes strict (.text filled) (.appendChars piece) (.text true)
  | finishChars {stop : Position} : Takes strict (.text true) (.finishChars stop) .idle
  | beginComment : Takes strict .idle .beginComment .comment
  | appendComment {piece : String} : Takes strict .comment (.appendComment piece) .comment
  | finishComment {stop : Position} : Takes strict .comment (.finishComment stop) .idle
  | beginStartTag : Takes strict .idle .beginStartTag .tagOpening
  | beginEndTag : Takes strict .idle .beginEndTag .tagOpening
  | tagNameStart {c : Char} (h : c.isLower = true) :
      Takes strict .tagOpening (.appendTagName c) .tag
  | tagNameChar {c : Char} (h : isTagNameChar c = true) :
      Takes strict .tag (.appendTagName c) .tag
  | beginAttribute : Takes strict .tag .beginAttribute .attributeOpening
  | attributeNameStart {c : Char} (h : isTagNameChar c = true) :
      Takes strict .attributeOpening (.appendAttributeName c) .attributeName
  | attributeNameChar {c : Char} (h : isAttributeNameChar c = true) :
      Takes strict .attributeName (.appendAttributeName c) .attributeName
  | beginAttributeValue {quoted : Bool} :
      Takes strict .attributeName (.beginAttributeValue quoted) .attributeValue
  | appendAttributeValue {piece : String} :
      Takes strict .attributeValue (.appendAttributeValue piece) .attributeValue
  | finishAttributeValue : Takes strict .attributeValue .finishAttributeValue .tag
  | markSelfClosing : Takes strict .tag .markSelfClosing .tag
  | finishTag {stop : Position} : Takes strict .tag (.finishTag stop) .idle
  | beginStartExpression {isBlock : Bool} :
      Takes strict .idle (.beginStartExpression isBlock) .expressionOpening
  | beginEndExpression : Takes strict .idle .beginEndExpression .expressionOpening
  | expressionNameStart {c : Char} (h : c.isLower = true) :
      Takes strict .expressionOpening (.appendExpressionName c) .expression
  | expressionNameChar {c : Char} (h : isExpressionNameChar c = true) :
      Takes strict .expression (.appendExpressionName c) .expression
  | beginName :
      Takes strict .expression (.beginExpressionAttribute false) (.expressionAttribute .nameOpening)
  | beginNameLiteral :
      Takes strict .expression (.beginExpressionAttribute true)
        (.expressionAttribute .literalOpening)
  | lastAttribute {p p' : AttributeForm} {e : Event} (h : p.Takes e p') :
      Takes strict (.expressionAttribute p) e (.expressionAttribute p')
  | finishExpression {stop : Position} : Takes strict .expression (.finishExpression stop) .idle

/-- Whatever has the first form also has the second. -/
def refines : Form → Form → Bool
  | text true, text false => true
  | expressionAttribute p, expression => p.complete
  | expressionAttribute p, expressionAttribute p' => p.refines p'
  | φ, ψ => φ == ψ

@[simp] theorem refines_self (φ : Form) : φ.refines φ = true := by
  cases φ with
  | text filled => cases filled <;> rfl
  | expressionAttribute p => exact p.refines_self
  | _ => rfl

/-- The events are right where they come, and lead to the second form. -/
inductive Leads (strict : Bool) : Form → List Event → Form → Prop
  | nil {φ ψ : Form} (h : φ.refines ψ = true) : Leads strict φ [] ψ
  | cons {φ φ' ψ : Form} {e : Event} {es : List Event} (first : Takes strict φ e φ')
      (later : Leads strict φ' es ψ) : Leads strict φ (e :: es) ψ

end Form

theorem TokenKind.WellFormed.pushAttribute {name : String} {attributes : List Attribute}
    {a : Attribute} {selfClosing : Bool}
    (h : (TokenKind.startTag name attributes selfClosing).WellFormed) (ha : a.WellFormed) :
    (TokenKind.startTag name (attributes ++ [a]) selfClosing).WellFormed := by
  refine ⟨h.1, List.forall_mem_append.mpr ⟨h.2, ?_⟩⟩
  simpa using ha

theorem TokenKind.WellFormed.pushExpressionAttribute {name : String}
    {attributes : List ExpressionAttribute} {b : ExpressionAttribute} {isBlock : Bool}
    (h : (TokenKind.startExpression name attributes isBlock).WellFormed) (hb : b.WellFormed) :
    (TokenKind.startExpression name (attributes ++ [b]) isBlock).WellFormed := by
  refine ⟨h.1, List.forall_mem_append.mpr ⟨h.2, ?_⟩⟩
  simpa using hb

namespace Assembler

/-- The token and the attribute under construction are of the form. -/
inductive Formed (strict : Bool) : Form → Option TokenKind → Option OpenAttribute → Prop
  | idle : Formed strict .idle none none
  | text {filled : Bool} {s : String} (h : strict = true → filled = true → s ≠ "") :
      Formed strict (.text filled) (some (.chars s)) none
  | comment (s : String) : Formed strict .comment (some (.comment s)) none
  | startTagOpening : Formed strict .tagOpening (some (.startTag "" [] false)) none
  | endTagOpening : Formed strict .tagOpening (some (.endTag "")) none
  | tag {k : TokenKind} (hk : IsTag k) (h : k.WellFormed) : Formed strict .tag (some k) none
  | attributeOpening {k : TokenKind} (hk : IsTag k) (h : k.WellFormed) :
      Formed strict .attributeOpening (some k) (some {})
  | attributeName {k : TokenKind} (hk : IsTag k) (h : k.WellFormed) {name : String}
      (hname : isWord isTagNameChar isAttributeNameChar name = true) (quoted : Bool) :
      Formed strict .attributeName (some k) (some ⟨name, [], quoted⟩)
  | attributeValue {k : TokenKind} (hk : IsTag k) (h : k.WellFormed) {name : String}
      (hname : isWord isTagNameChar isAttributeNameChar name = true) (value : String)
      (quoted : Bool) : Formed strict .attributeValue (some k) (some ⟨name, [value], quoted⟩)
  | startExpressionOpening (isBlock : Bool) :
      Formed strict .expressionOpening (some (.startExpression "" [] isBlock)) none
  | endExpressionOpening : Formed strict .expressionOpening (some (.endExpression "")) none
  | expression {k : TokenKind} (hk : IsExpression k) (h : k.WellFormed) :
      Formed strict .expression (some k) none
  | startAttribute {p : AttributeForm} {name : String} {attributes : List ExpressionAttribute}
      {b : ExpressionAttribute} {isBlock : Bool}
      (h : (TokenKind.startExpression name attributes isBlock).WellFormed) (hb : p.Holds b) :
      Formed strict (.expressionAttribute p)
        (some (.startExpression name (attributes ++ [b]) isBlock)) none
  | endAttribute {p : AttributeForm} {name : String}
      (h : (TokenKind.endExpression name).WellFormed) :
      Formed strict (.expressionAttribute p) (some (.endExpression name)) none

/-- The assembler is of the form, and its complete tokens are well formed. -/
structure Sound (strict : Bool) (φ : Form) (a : Assembler) : Prop where
  formed : Formed strict φ a.current a.pending
  tokens : ∀ t ∈ a.tokens.toList, t.kind.Sound strict

variable {strict : Bool} {φ ψ : Form} {a a' : Assembler} {e : Event} {es : List Event}

theorem Formed.refine {k : Option TokenKind} {b : Option OpenAttribute} (h : Formed strict φ k b)
    (hφ : φ.refines ψ = true) : Formed strict ψ k b := by
  by_cases hφψ : φ = ψ
  · exact hφψ ▸ h
  · cases h with
    | @text filled s h =>
        cases ψ with
        | text filled' =>
            cases filled' with
            | false => exact .text (by simp)
            | true => cases filled <;> simp_all [Form.refines]
        | _ => simp_all [Form.refines]
    | startAttribute h hb =>
        cases ψ with
        | expression => exact .expression (.start _ _ _) (h.pushExpressionAttribute (hb.wellFormed hφ))
        | expressionAttribute p' => exact .startAttribute h (hb.refine hφ)
        | _ => simp_all [Form.refines]
    | endAttribute h =>
        cases ψ with
        | expression => exact .expression (.ending _) h
        | expressionAttribute p' => exact .endAttribute h
        | _ => simp_all [Form.refines]
    | _ => simp_all [Form.refines]

theorem Sound.refine (h : a.Sound strict φ) (hφ : φ.refines ψ = true) : a.Sound strict ψ :=
  ⟨h.formed.refine hφ, h.tokens⟩

/-- What completes nothing leaves the complete tokens alone. -/
theorem Sound.same (h : a.Sound strict φ) (hsame : SameTokens a a')
    (hformed : Formed strict ψ a'.current a'.pending) : a'.Sound strict ψ := by
  refine ⟨hformed, ?_⟩
  rw [hsame.tokens]
  exact h.tokens

/-- A token that is well formed may be completed. -/
theorem Sound.complete (h : a.Sound strict φ) {k : TokenKind} (hk : a.current = some k)
    (hpending : a.pending = none) (hsound : k.Sound strict) (stop : Position) :
    (a.complete stop).Sound strict .idle := by
  rw [complete_of_some hk]
  refine ⟨?_, ?_⟩
  · dsimp only
    rw [hpending]
    exact .idle
  · intro t ht
    rw [Array.toList_push, List.mem_append, List.mem_singleton] at ht
    rcases ht with ht | rfl
    · exact h.tokens t ht
    · exact hsound

theorem IsTag.ne_chars {k : TokenKind} (h : IsTag k) (s : String) : k ≠ .chars s := by
  cases h <;> simp

theorem IsExpression.ne_chars {k : TokenKind} (h : IsExpression k) (s : String) :
    k ≠ .chars s := by
  cases h <;> simp

/-- An event that stops a construct finds a token that is well formed. -/
theorem Formed.stop {current : Option TokenKind} {pending : Option OpenAttribute}
    (h : Formed strict φ current pending) (hφ : φ.Takes strict e ψ) {stop : Position}
    (hstop : e.stop? = some stop) :
    ψ = .idle ∧ pending = none ∧ ∃ k, current = some k ∧ k.Sound strict := by
  cases hφ with
  | finishChars =>
      cases h with
      | text h => exact ⟨rfl, rfl, _, rfl, trivial, fun hstrict => by simpa using h hstrict rfl⟩
  | finishComment =>
      cases h
      exact ⟨rfl, rfl, _, rfl, trivial, by simp⟩
  | finishTag =>
      cases h with
      | tag hk h => exact ⟨rfl, rfl, _, rfl, h, fun _ => hk.ne_chars ""⟩
  | finishExpression =>
      cases h with
      | expression hk h => exact ⟨rfl, rfl, _, rfl, h, fun _ => hk.ne_chars ""⟩
  | lastAttribute hp => cases hp <;> cases hstop
  | _ => cases hstop

/-- What is made of an event that stops no construct is of the next form. -/
theorem Formed.receive (h : Formed strict φ a.current a.pending) (hφ : φ.Takes strict e ψ)
    (hstop : e.stop? = none) :
    ∃ a', a.receive e = .ok a' ∧ Formed strict ψ a'.current a'.pending := by
  obtain ⟨track, tokens, current, pending, start⟩ := a
  dsimp only at h
  cases hφ with
  | beginChars =>
      cases h
      exact ⟨_, rfl, .text (by simp)⟩
  | appendChars hpiece =>
      cases h with
      | text h =>
          refine ⟨_, rfl, .text ?_⟩
          intro hstrict _ hs
          exact hpiece hstrict (String.append_eq_empty_iff.mp hs).2
  | finishChars => cases hstop
  | beginComment =>
      cases h
      exact ⟨_, rfl, .comment ""⟩
  | appendComment =>
      cases h
      exact ⟨_, rfl, .comment _⟩
  | finishComment => cases hstop
  | beginStartTag =>
      cases h
      exact ⟨_, rfl, .startTagOpening⟩
  | beginEndTag =>
      cases h
      exact ⟨_, rfl, .endTagOpening⟩
  | tagNameStart hc =>
      cases h with
      | startTagOpening => exact ⟨_, rfl, .tag (.startTag _ _ _) ⟨isWord_empty_push hc, by simp⟩⟩
      | endTagOpening => exact ⟨_, rfl, .tag (.endTag _) (isWord_empty_push hc)⟩
  | tagNameChar hc =>
      cases h with
      | tag hk h =>
          cases hk with
          | startTag => exact ⟨_, rfl, .tag (.startTag _ _ _) ⟨isWord_push h.1 hc, h.2⟩⟩
          | endTag => exact ⟨_, rfl, .tag (.endTag _) (isWord_push h hc)⟩
  | beginAttribute =>
      cases h with
      | tag hk h => exact ⟨_, rfl, .attributeOpening hk h⟩
  | attributeNameStart hc =>
      cases h with
      | attributeOpening hk h =>
          exact ⟨_, rfl, .attributeName hk h (isWord_empty_push hc) _⟩
  | attributeNameChar hc =>
      cases h with
      | attributeName hk h hname quoted =>
          exact ⟨_, rfl, .attributeName hk h (isWord_push hname hc) _⟩
  | beginAttributeValue =>
      cases h with
      | attributeName hk h hname quoted => exact ⟨_, rfl, .attributeValue hk h hname _ _⟩
  | appendAttributeValue =>
      cases h with
      | attributeValue hk h hname value quoted =>
          exact ⟨_, rfl, .attributeValue hk h hname _ _⟩
  | finishAttributeValue =>
      cases h with
      | attributeValue hk h hname value quoted =>
          cases hk with
          | startTag =>
              exact ⟨_, rfl, .tag (.startTag _ _ _) (h.pushAttribute ⟨hname, rfl, rfl⟩)⟩
          | endTag => exact ⟨_, rfl, .tag (.endTag _) h⟩
  | markSelfClosing =>
      cases h with
      | tag hk h =>
          cases hk with
          | startTag => exact ⟨_, rfl, .tag (.startTag _ _ _) h⟩
          | endTag => exact ⟨_, rfl, .tag (.endTag _) h⟩
  | finishTag => cases hstop
  | beginStartExpression =>
      cases h
      exact ⟨_, rfl, .startExpressionOpening _⟩
  | beginEndExpression =>
      cases h
      exact ⟨_, rfl, .endExpressionOpening⟩
  | expressionNameStart hc =>
      cases h with
      | startExpressionOpening =>
          exact ⟨_, rfl, .expression (.start _ _ _) ⟨isWord_empty_push hc, by simp⟩⟩
      | endExpressionOpening => exact ⟨_, rfl, .expression (.ending _) (isWord_empty_push hc)⟩
  | expressionNameChar hc =>
      cases h with
      | expression hk h =>
          cases hk with
          | start => exact ⟨_, rfl, .expression (.start _ _ _) ⟨isWord_push h.1 hc, h.2⟩⟩
          | ending => exact ⟨_, rfl, .expression (.ending _) (isWord_push h hc)⟩
  | beginName =>
      cases h with
      | expression hk h =>
          cases hk with
          | start => exact ⟨_, rfl, .startAttribute h .nameOpening⟩
          | ending => exact ⟨_, rfl, .endAttribute h⟩
  | beginNameLiteral =>
      cases h with
      | expression hk h =>
          cases hk with
          | start => exact ⟨_, rfl, .startAttribute h .literalOpening⟩
          | ending => exact ⟨_, rfl, .endAttribute h⟩
  | lastAttribute hp =>
      cases h with
      | startAttribute h hb =>
          obtain ⟨f, hf, hb'⟩ := hb.edit hp
          refine ⟨_, receive_of_attributeEdit hf, ?_⟩
          rw [modifyLast_concat]
          exact .startAttribute h hb'
      | endAttribute h => cases hp <;> exact ⟨_, rfl, .endAttribute h⟩
  | finishExpression => cases hstop

theorem Form.Takes.ne_reset (hφ : φ.Takes strict e ψ) : e ≠ .reset := by
  rintro rfl
  cases hφ with
  | lastAttribute hp => cases hp

/-- What is made of an event that is right where it comes is of the next form. -/
theorem Sound.receive (h : a.Sound strict φ) (hφ : φ.Takes strict e ψ) :
    ∃ a', a.receive e = .ok a' ∧ a'.Sound strict ψ := by
  cases hstop : e.stop? with
  | some stop =>
      obtain ⟨rfl, hpending, k, hk, hsound⟩ := h.formed.stop hφ hstop
      exact ⟨_, receive_of_stop hstop, h.complete hk hpending hsound stop⟩
  | none =>
      obtain ⟨a', ha, hformed⟩ := h.formed.receive hφ hstop
      exact ⟨a', ha, h.same (sameTokens_of_receive ha hstop (Form.Takes.ne_reset hφ)) hformed⟩

/-- What is made of events that are right where they come is of the form that they lead to. -/
theorem Sound.receiveAll (h : a.Sound strict φ) (hes : φ.Leads strict es ψ)
    (ha : a.receiveAll es = .ok a') : a'.Sound strict ψ := by
  induction hes generalizing a with
  | nil hφ =>
      cases ha
      exact h.refine hφ
  | cons first _ ih =>
      obtain ⟨a₁, ha₁, hsound⟩ := h.receive first
      rw [receiveAll_cons_of_ok ha₁] at ha
      exact ih hsound ha

end Assembler

end TemplateMarkup
