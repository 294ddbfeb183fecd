import TemplateMarkup.Proofs.Tokenizer.Values

/-!
# Start tags in a document

However a start tag is laid out, it is read as the token that it stands for (`kinds_of_layout`).
-/

namespace TemplateMarkup.Tokenizer

open Reference (standard)

/-- **A start tag in any layout.** -/
theorem kinds_of_layout (resolve : Resolver) (options : Options) {t : TagLayout} (h : t.WellFormed)
    (hreturn : '\r' ∉ t.source) : kinds resolve options (String.ofList t.source) = .ok [t.kind] := by
  have hspells : Lexer.Spells resolve .beforeData t.source t.kind := (Lexer.spells_layout resolve h).tag
  have hkinds := kinds_append hspells hreturn (kinds_empty resolve options)
  rwa [String.append_empty] at hkinds

/-- Every kind of border and of value, with a `/` between attributes, in values and in front of the end,
and with quotes in names. -/
theorem kinds_of_layout_mixed :
    let t : TagLayout := {
      name := "DIv'"
      attributes := [
        { separator := ['/', ' '], name := "x\"", value := .bare ['\n'] ['\t', ' '] "=/'" },
        { separator := [' ', '/', '/'], name := "y", value := .absent },
        { separator := ['/'], name := "z", value := .quoted [] [] .single "> \"/=" },
        { separator := [], name := "'w", value := .quoted [' '] [] .double "" },
        { separator := ['\x0c'], name := "v", value := .bare [] [] "1/" }]
      trailer := [' ', '/', ' ', '/'] }
    t.WellFormed ∧ '\r' ∉ t.source ∧
      kinds standard ⟨false⟩ "<DIv'/ x\"\n=\t =/' //y/z='> \"/=''w =\"\"\x0cv=1/ / />" =
        .ok [.startTag "dIv'" [⟨"x\"", ["=/'"], [], false⟩, ⟨"y", [""], [], false⟩,
          ⟨"z", ["> \"/="], [], true⟩, ⟨"'w", [""], [], true⟩, ⟨"v", ["1/"], [], false⟩] true] := by
  intro t
  have hwell : t.WellFormed := by decide
  have hreturn : '\r' ∉ t.source := by decide
  have hkind : t.kind = .startTag "dIv'" [⟨"x\"", ["=/'"], [], false⟩, ⟨"y", [""], [], false⟩,
      ⟨"z", ["> \"/="], [], true⟩, ⟨"'w", [""], [], true⟩, ⟨"v", ["1/"], [], false⟩] true := by
    decide
  have hsource : String.ofList t.source =
      "<DIv'/ x\"\n=\t =/' //y/z='> \"/=''w =\"\"\x0cv=1/ / />" := by
    decide
  have hwhole := kinds_of_layout standard ⟨false⟩ hwell hreturn
  rw [hsource, hkind] at hwhole
  exact ⟨hwell, hreturn, hwhole⟩

end TemplateMarkup.Tokenizer
