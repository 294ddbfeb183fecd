import TemplateMarkup.Proofs.Lexer.BrokenExpressions
import TemplateMarkup.Proofs.Tokenizer.Values

/-!
# Expressions in a document

However an expression is laid out, it is read as the token that it stands for. Where it breaks off there
is no token, and where something else stands in place of its closing braces the document is rejected, for
the right reason and at the right place (`expression_of_layout`).
-/

namespace TemplateMarkup.Tokenizer

open Reference (standard)

/-- **An expression in any layout.** It is one token in front of any document. Behind its opening braces
it may break off anywhere without an error, but behind its last word nothing may stand that
`ExpressionBorder.Refuses`. -/
theorem expression_of_layout (resolve : Resolver) (options : Options) {e : ExpressionLayout}
    (h : e.WellFormed) (hreturn : '\r' ∉ e.source) :
    kinds resolve options (String.ofList e.source) = .ok [e.kind] ∧
      (∀ rest : String, verdict resolve options (String.ofList e.source ++ rest) =
        (verdict resolve options rest).map (e.kind :: ·)) ∧
      (∀ w, w <+: e.source → w ≠ e.source → 2 ≤ w.length →
        kinds resolve options (String.ofList w) = .ok []) ∧
      ∀ w cause, e.border.Refuses w cause → '\r' ∉ w → ∀ rest : String,
        ((ofOptions options).tokenize resolve (String.ofList (e.opened ++ w) ++ rest)).outcome =
          .error (.rejected ⟨cause, Position.start.after (e.opened ++ w), .start⟩) := by
  have hspells : Lexer.Spells resolve .beforeData e.source e.kind :=
    (Lexer.spells_expressionLayout resolve h).expression
  refine ⟨?_, verdict_append hspells hreturn options, ?_, ?_⟩
  · have hkinds := kinds_append hspells hreturn (kinds_empty resolve options)
    rwa [String.append_empty] at hkinds
  · intro w hw hne hlength
    have hreturn' : '\r' ∉ w := fun hmem => hreturn (hw.subset hmem)
    obtain ⟨es, hfinishes, hes⟩ := Lexer.finishes_brokenOff resolve h hw hne hlength rfl
      (Lexer.unread_receive_of_notMem hreturn')
    exact kinds_of_unstopped hfinishes hes options
  · intro w cause hw hreturn' rest
    have hclean : '\r' ∉ e.opened ++ w := by
      rw [List.mem_append, not_or]
      exact ⟨fun hmem => hreturn (List.mem_append_left _ hmem), hreturn'⟩
    have hunread := Lexer.unread_receive_append (s := String.ofList (e.opened ++ w))
      (by simpa using hclean) rest
    rw [String.toList_ofList] at hunread
    obtain ⟨es, l', hreads⟩ := Lexer.reads_refused resolve h hw rfl hunread
    exact tokenize_of_rejected hreads (ofOptions options)

/-- Keys and values of every form, with quotes and braces in them, and a character too much behind the
last closing quote. -/
theorem expression_of_layout_mixed :
    let e : ExpressionLayout := {
      isBlock := true
      name := "Fo\x7b="
      attributes := [
        { separator := [' ', '\t'], key := .bare "a\"'", value? := none },
        { separator := ['\n'], key := .quoted .single "=\x7d \""
          value? := some { spaces := ['\x0c'], word := .bare "x=\"\x7b" } },
        { separator := [' '], key := .bare "k"
          value? := some { spaces := [], word := .quoted .double "" } }]
      trailer := [] }
    e.WellFormed ∧ '\r' ∉ e.source ∧ e.border.Refuses ['x'] (.afterQuotedValue 'x') ∧
      kinds standard ⟨false⟩ "\x7b\x7b#Fo\x7b= \ta\"'\n'=\x7d \"'=\x0cx=\"\x7b k=\"\"\x7d\x7d" =
        .ok [.startExpression "fo\x7b=" [⟨"a\"'", "", false, none⟩,
          ⟨"=\x7d \"", "x=\"\x7b", true, some false⟩, ⟨"k", "", false, some true⟩] true] ∧
      ((ofOptions ⟨false⟩).tokenize standard (String.ofList (e.opened ++ ['x']) ++ "<b>")).outcome =
        .error (.rejected ⟨.afterQuotedValue 'x', ⟨2, 18⟩, ⟨1, 0⟩⟩) := by
  intro e
  have hwell : e.WellFormed := by decide
  have hreturn : '\r' ∉ e.source := by decide
  have hrefuses : e.border.Refuses ['x'] (.afterQuotedValue 'x') := .value (by decide) (by decide)
  have hkind : e.kind = .startExpression "fo\x7b=" [⟨"a\"'", "", false, none⟩,
      ⟨"=\x7d \"", "x=\"\x7b", true, some false⟩, ⟨"k", "", false, some true⟩] true := by
    decide
  have hsource : String.ofList e.source =
      "\x7b\x7b#Fo\x7b= \ta\"'\n'=\x7d \"'=\x0cx=\"\x7b k=\"\"\x7d\x7d" := by
    decide
  have hstop : Position.start.after (e.opened ++ ['x']) = ⟨2, 18⟩ := by decide
  obtain ⟨hkinds, -, -, hrejected⟩ := expression_of_layout standard ⟨false⟩ hwell hreturn
  rw [hsource, hkind] at hkinds
  have hwrong := hrejected _ _ hrefuses (by decide) "<b>"
  rw [hstop] at hwrong
  exact ⟨hwell, hreturn, hrefuses, hkinds, hwrong⟩

end TemplateMarkup.Tokenizer
