import TemplateMarkup.Proofs.Lexer.Dropped
import TemplateMarkup.Proofs.Tokenizer.Composition

/-!
# Documents with dropped characters

What the lexer drops behind an opening is not seen in the tokens. Whatever follows, the document comes
to what it comes to without the dropped characters, be it tokens, an unfinished construct or an error
(`verdict_dropped`).
-/

namespace TemplateMarkup.Tokenizer

open Lexer
open Reference (standard)

variable {resolve : Resolver} {s : State} {w w' : List Char}

/-- Two openings that lead to the same state and report nothing. -/
theorem verdict_eq_of_openings (h : Passes resolve .beforeData w [] s)
    (h' : Passes resolve .beforeData w' [] s) (hw : '\r' ∉ w) (hw' : '\r' ∉ w')
    (hs : s.shape = .idle) (options : Options) (rest : String) :
    verdict resolve options (String.ofList w ++ rest) =
      verdict resolve options (String.ofList w' ++ rest) := by
  obtain ⟨l, m, hsteps, hsteps', hl, hcut⟩ := cut_of_openings h h' hw hw' rest
  have hfits : l.Fits (fresh options) := by
    rw [Fits, hl, hs]
    exact .idle
  obtain ⟨later, hfirst, hsecond⟩ := hcut.verdict resolve hfits (b := fresh options) ⟨rfl, rfl⟩
  rw [verdict_of_steps hsteps rfl, verdict_of_steps hsteps' rfl, hfirst, hsecond]

/-- Characters that are dropped in the state behind an opening. -/
theorem verdict_dropped_of_passes (opening : String) {j : String}
    (hopening : Passes resolve .beforeData opening.toList [] s)
    (hdropped : Passes resolve s j.toList [] s) (hopeningReturn : '\r' ∉ opening.toList)
    (hreturn : '\r' ∉ j.toList) (hs : s.shape = .idle) (options : Options) (rest : String) :
    verdict resolve options (opening ++ j ++ rest) =
      verdict resolve options (opening ++ rest) := by
  have h := verdict_eq_of_openings (hopening.trans hdropped) hopening (by simp [*])
    hopeningReturn hs options rest
  rwa [String.ofList_append, String.ofList_toList, String.ofList_toList] at h

/-- **Dropped characters.** Behind `<`, `</` and the three openings of expressions whatever is neither a
letter nor a mark of the opening may be left out, and behind `<!` whatever neither contains two dashes
in a row nor ends in a dash. -/
theorem verdict_dropped (resolve : Resolver) (options : Options) {j : String}
    (hreturn : '\r' ∉ j.toList) (rest : String) :
    (∀ o : Opener, (∀ c ∈ j.toList, o.drops c = true) →
      verdict resolve options (o.text ++ j ++ rest) = verdict resolve options (o.text ++ rest)) ∧
    (¬['-', '-'] <:+: j.toList → ¬['-'] <:+ j.toList →
      verdict resolve options ("<!" ++ j ++ rest) = verdict resolve options ("<!" ++ rest)) := by
  refine ⟨?_, ?_⟩
  · intro o hj
    have hopeningReturn : '\r' ∉ o.text.toList := by cases o <;> decide
    have hidle : o.state.shape = .idle := by cases o <;> rfl
    exact verdict_dropped_of_passes o.text (passes_openerText resolve o)
      (passes_dropped resolve hj) hopeningReturn hreturn hidle options rest
  · intro hdashes hlast
    have hbang : Passes resolve .tagOpen ['!'] [] .markupDeclaration := .char fun _ _ => rfl
    exact verdict_dropped_of_passes "<!" ((passes_tagOpening resolve).trans hbang)
      (passes_declaration resolve hdashes hlast) (by decide) hreturn rfl options rest

/-- The same characters behind an end tag's opening, in a declaration, and behind an opening that never
becomes a token. -/
theorem verdict_dropped_of_both :
    let j := "1 -? "
    '\r' ∉ j.toList ∧ (∀ o : Opener, ∀ c ∈ j.toList, o.drops c = true) ∧
      ¬['-', '-'] <:+: j.toList ∧ ¬['-'] <:+ j.toList ∧
      verdict standard ⟨false⟩ ("</" ++ j ++ "b x>c") = .ok [.endTag "b", .chars "c"] ∧
      verdict standard ⟨false⟩ ("<!" ++ j ++ "--d-->") = .ok [.comment "d"] ∧
      verdict standard ⟨false⟩ ("\x7b\x7b#" ++ j ++ ">") = .ok [] := by
  intro j
  have hreturn : '\r' ∉ j.toList := by decide
  have hdrops : ∀ o : Opener, ∀ c ∈ j.toList, o.drops c = true := by
    intro o
    cases o <;> simp [j, Opener.drops, Opener.marks]
  have hdashes : ¬['-', '-'] <:+: j.toList := by decide
  have hlast : ¬['-'] <:+ j.toList := by decide
  refine ⟨hreturn, hdrops, hdashes, hlast, ?_, ?_, ?_⟩
  · have htag := (verdict_dropped standard ⟨false⟩ hreturn "b x>c").1 .endTag (hdrops .endTag)
    exact htag.trans (by decide +kernel)
  · have hcomment := (verdict_dropped standard ⟨false⟩ hreturn "--d-->").2 hdashes hlast
    exact hcomment.trans (by decide +kernel)
  · have hblock := (verdict_dropped standard ⟨false⟩ hreturn ">").1 .block (hdrops .block)
    exact hblock.trans (by decide +kernel)

end TemplateMarkup.Tokenizer
