import TemplateMarkup.Proofs.Tokenizer.Variants

/-!
# Start forms and end forms

An end tag is read like the start tag without the `/`, and an end expression and a block like the plain
expression. What has no place in the end form is dropped, and nothing else differs: the same tokens
follow, or the document breaks off, or it is rejected for the same character (`end_forms`).
-/

namespace TemplateMarkup

namespace TokenKind

/-- The end tag keeps the name of the start tag. -/
inductive Ended : TokenKind → TokenKind → Prop
  | tag (name : String) (attributes : List Attribute) (selfClosing : Bool) :
      Ended (.startTag name attributes selfClosing) (.endTag name)

/-- The block has the name and the attributes of the plain expression. -/
inductive Blocked : TokenKind → TokenKind → Prop
  | expression (name : String) (attributes : List ExpressionAttribute) :
      Blocked (.startExpression name attributes false) (.startExpression name attributes true)

/-- The end expression keeps the name of the plain expression. -/
inductive EndedExpression : TokenKind → TokenKind → Prop
  | expression (name : String) (attributes : List ExpressionAttribute) :
      EndedExpression (.startExpression name attributes false) (.endExpression name)

theorem simulates_ended : Simulates Ended := by
  rintro _ _ l edit ⟨name, attributes, selfClosing⟩ h
  cases edit <;> cases h <;> exact ⟨_, rfl, .tag _ _ _⟩

theorem simulates_blocked : Simulates Blocked := by
  rintro _ _ l edit ⟨name, attributes⟩ h
  cases edit <;> cases h <;> exact ⟨_, rfl, .expression _ _⟩

theorem simulates_endedExpression : Simulates EndedExpression := by
  rintro _ _ l edit ⟨name, attributes⟩ h
  cases edit <;> cases h <;> exact ⟨_, rfl, .expression _ _⟩

end TokenKind

namespace Tokenizer

open Lexer
open Reference (standard)

variable {R : TokenKind → TokenKind → Prop} {s : String} {c : Char} {k' : TokenKind}

/-! ## Behind the first letter -/

/-- A start tag and its end form, behind the first letter of the name. -/
theorem variant_of_tagLetter (resolve : Resolver) (options : Options) (hc : c.isAlpha = true)
    (rest : String) :
    Verdict.Variant TokenKind.Ended
      (verdict resolve options (String.ofList ['<', c] ++ rest))
      (verdict resolve options (String.ofList ['<', '/', c] ++ rest)) := by
  have hopening : ∀ ending, Passes resolve .beforeData ('<' :: (tagMark ending ++ [c]))
      [Construct.openTag ending, .appendTagName c.toLower] .tagName :=
    fun ending => (passes_tagOpening resolve).trans (passes_tagLetter resolve ending hc)
  have hreturn : '\r' ≠ c := (ne_of_isAlpha hc (by decide)).symm
  exact verdict_variant_of_openings TokenKind.simulates_ended (.tag _ _ _) (hopening false)
    (hopening true) (by simp [tagMark, hreturn]) (by simp [tagMark, hreturn]) rfl rfl
    (.tag (.startTag _ _ _)) rest

/-- A plain expression and another form of it, behind the first letter of the name. -/
theorem variant_of_expressionLetter (resolve : Resolver) (options : Options) (hc : c.isAlpha = true)
    (isBlock? : Option Bool) (hR : TokenKind.Simulates R)
    (hk : R (.startExpression ("".push c.toLower) [] false) k')
    (hk' : (fresh options).receiveAll
      [Construct.openExpression isBlock?, .appendExpressionName c.toLower] =
        .ok ((fresh options).holding k' none)) (rest : String) :
    Verdict.Variant R (verdict resolve options (String.ofList ['{', '{', c] ++ rest))
      (verdict resolve options
        (String.ofList ('{' :: '{' :: (expressionMark isBlock? ++ [c])) ++ rest)) := by
  have hopening : ∀ isBlock?, Passes resolve .beforeData
      ('{' :: '{' :: (expressionMark isBlock? ++ [c]))
      [Construct.openExpression isBlock?, .appendExpressionName c.toLower] .expressionName :=
    fun isBlock? =>
      (passes_expressionOpening resolve).trans (passes_expressionLetter resolve isBlock? hc)
  have hreturn : ∀ isBlock?, '\r' ∉ '{' :: '{' :: (expressionMark isBlock? ++ [c]) := by
    have hne : '\r' ≠ c := (ne_of_isAlpha hc (by decide)).symm
    rintro (_ | _ | _) <;> simp [expressionMark, hne]
  exact verdict_variant_of_openings hR hk (hopening (some false)) (hopening isBlock?)
    (hreturn (some false)) (hreturn isBlock?) rfl hk' (.expression (.start _ _ _)) rest

/-! ## Documents -/

/-- **Start forms and end forms.** The tokens of the two documents are the same, but for the first ones;
and if there are none in the one, or the one is rejected, so it is with the other. -/
theorem end_forms (resolve : Resolver) (options : Options) (hs : s.toList.head? = some c)
    (hc : c.isAlpha = true) :
    Verdict.Variant TokenKind.Ended
        (verdict resolve options ("<" ++ s)) (verdict resolve options ("</" ++ s)) ∧
      Verdict.Variant TokenKind.Blocked
        (verdict resolve options ("\x7b\x7b" ++ s)) (verdict resolve options ("\x7b\x7b#" ++ s)) ∧
      Verdict.Variant TokenKind.EndedExpression
        (verdict resolve options ("\x7b\x7b" ++ s)) (verdict resolve options ("\x7b\x7b/" ++ s)) := by
  obtain ⟨cs, hcs⟩ := List.head?_eq_some_iff.mp hs
  have hdocument : ∀ (front : String) {w : List Char}, front.toList ++ [c] = w →
      front ++ s = String.ofList w ++ String.ofList cs := by
    rintro front _ rfl
    rw [← String.toList_inj]
    simp [hcs]
  rw [hdocument "<" rfl, hdocument "</" rfl, hdocument "\x7b\x7b" rfl,
    hdocument "\x7b\x7b#" rfl, hdocument "\x7b\x7b/" rfl]
  refine ⟨?_, ?_, ?_⟩
  · exact variant_of_tagLetter resolve options hc _
  · exact variant_of_expressionLetter resolve options hc (some true) TokenKind.simulates_blocked
      (.expression _ _) rfl _
  · exact variant_of_expressionLetter resolve options hc none TokenKind.simulates_endedExpression
      (.expression _ _) rfl _

/-- The same text behind all five openings: as a tag it has two attributes and is self-closing, as an
expression it ends earlier. -/
theorem end_forms_of_both :
    let s := "Ab c='d' \x7d\x7d/>e"
    s.toList.head? = some 'A' ∧ 'A'.isAlpha = true ∧
      verdict standard ⟨false⟩ ("<" ++ s) =
        .ok [.startTag "ab" [⟨"c", ["d"], [], true⟩, ⟨"\x7d\x7d", [""], [], false⟩] true, .chars "e"] ∧
      verdict standard ⟨false⟩ ("</" ++ s) = .ok [.endTag "ab", .chars "e"] ∧
      verdict standard ⟨false⟩ ("\x7b\x7b" ++ s) =
        .ok [.startExpression "ab" [⟨"c", "d", false, some true⟩] false, .chars "/>e"] ∧
      verdict standard ⟨false⟩ ("\x7b\x7b#" ++ s) =
        .ok [.startExpression "ab" [⟨"c", "d", false, some true⟩] true, .chars "/>e"] ∧
      verdict standard ⟨false⟩ ("\x7b\x7b/" ++ s) = .ok [.endExpression "ab", .chars "/>e"] := by
  intro s
  have hs : s.toList.head? = some 'A' := by decide
  have hc : 'A'.isAlpha = true := by decide
  obtain ⟨htag, hblock, hend⟩ := end_forms standard ⟨false⟩ hs hc
  have hstart : verdict standard ⟨false⟩ ("<" ++ s) =
      .ok [.startTag "ab" [⟨"c", ["d"], [], true⟩, ⟨"\x7d\x7d", [""], [], false⟩] true,
        .chars "e"] := by
    decide +kernel
  have hplain : verdict standard ⟨false⟩ ("\x7b\x7b" ++ s) =
      .ok [.startExpression "ab" [⟨"c", "d", false, some true⟩] false, .chars "/>e"] := by
    decide +kernel
  rw [hstart] at htag
  rw [hplain] at hblock hend
  refine ⟨hs, hc, hstart, ?_, hplain, ?_, ?_⟩
  · obtain ⟨_, ⟨⟩, hv⟩ := htag.of_first
    exact hv
  · obtain ⟨_, ⟨⟩, hv⟩ := hblock.of_first
    exact hv
  · obtain ⟨_, ⟨⟩, hv⟩ := hend.of_first
    exact hv

end Tokenizer

end TemplateMarkup
