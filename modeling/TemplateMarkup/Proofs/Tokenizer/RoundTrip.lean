import TemplateMarkup.Proofs.Assembler.Constructs
import TemplateMarkup.Proofs.Lexer.Sources
import TemplateMarkup.Proofs.Tokenizer.Locality

/-!
# Reading back what was written out

A list of printable tokens in which no two texts are side by side is the list of tokens of its own
source (`tokenize_source`). The lexer makes one construct of each source, wherever it stands in the
list, and the assembler makes one token of each construct.
-/

namespace TemplateMarkup

variable {ts : List Token}

/-- The source of a list is that of its kinds, and nothing in it is folded. -/
theorem unread_source (h : ∀ t ∈ ts, t.Printable) :
    (Lexer.receive {} (String.join (ts.map Token.source))).buffer.unread =
      (ts.map Token.kind).flatMap fun k => k.source.toList := by
  have hsource : (String.join (ts.map Token.source)).toList =
      (ts.map Token.kind).flatMap fun k => k.source.toList := by
    rw [String.toList_join, List.flatMap_map, List.flatMap_map]
    exact List.flatMap_congr fun t ht => by rw [Token.source_eq (h t ht).span]
  have hreturn : '\r' ∉ (String.join (ts.map Token.source)).toList := by
    rw [hsource, List.flatMap_map, List.mem_flatMap]
    rintro ⟨t, ht, hmem⟩
    exact TokenKind.return_notMem_source (h t ht).noReturn hmem
  rw [← hsource, ← LineEnding.fold_of_notMem hreturn]
  rfl

namespace Tokenizer

/-- **Written out and read back.** The tokens of the sources are the tokens themselves, apart from
the places that a tokenizer tracking locations adds. -/
theorem tokenize_source (resolve : Resolver) (options : Options)
    (hprintable : ∀ t ∈ ts, t.Printable) (hapart : ts.IsChain Token.Apart) :
    ∃ tokens, ((ofOptions options).tokenize resolve (String.join (ts.map Token.source))).outcome =
        .ok tokens ∧
      tokens.map Token.kind = ts.map Token.kind ∧
      (options.trackLocations = false → tokens = ts) := by
  have hkinds : ∀ k ∈ ts.map Token.kind, k.Printable := by
    intro k hk
    obtain ⟨t, ht, rfl⟩ := List.mem_map.mp hk
    exact (hprintable t ht).kind
  have hchain : (ts.map Token.kind).IsChain fun k k' => ¬(k.isChars = true ∧ k'.isChars = true) :=
    (List.isChain_map Token.kind).mpr hapart
  obtain ⟨cs, hcs, hfinishes⟩ :=
    Lexer.finishes_sources resolve hkinds hchain (.inl rfl) (unread_source hprintable)
  obtain ⟨a, hreceives, hout⟩ := tokenize_of_finishes hfinishes options
  obtain ⟨a', ha', hall, hbare⟩ := Assembler.receiveAll_constructs
    (a := { trackLocations := options.trackLocations }) rfl cs
  obtain rfl : a = a' := Except.ok.inj (hreceives.receiveAll.symm.trans ha')
  refine ⟨a.tokens.toList, hout, ?_, ?_⟩
  · simpa [hcs] using hall
  · intro htrack
    have htokens : a.tokens.toList = (cs.map Construct.kind).map (⟨·, none⟩) := by
      simp [hbare htrack]
    rw [htokens, hcs, List.map_map]
    calc ts.map (fun t => ⟨t.kind, none⟩) = ts.map id := by
          refine List.map_congr_left fun t ht => ?_
          rw [← (hprintable t ht).span]
          rfl
      _ = ts := List.map_id ts

/-- A bare value that ends in a slash, an attribute without a value in front of the mark of a
self-closing tag, an empty value in quotes, and a text that begins with a brace. -/
theorem tokenize_source_edges :
    let attributes : List Attribute :=
      [⟨"b", ["c/"], [], false⟩, ⟨"d", [""], [], true⟩, ⟨"e", [""], [], false⟩]
    let ts : List Token := [
      ⟨.startTag "a" attributes true, none⟩,
      ⟨.chars "\x7d\x7d", none⟩,
      ⟨.comment "f--g", none⟩,
      ⟨.startExpression "h" [⟨"i j", "", true, none⟩, ⟨"k", "\x7d", false, some true⟩] true, none⟩,
      ⟨.chars "l>", none⟩,
      ⟨.endExpression "h", none⟩,
      ⟨.startTag "m" [⟨"n", ["/"], [], false⟩] false, none⟩,
      ⟨.endTag "m", none⟩]
    let source := "<a b=c/ d=\"\" e />\x7d\x7d<!--f--g-->\x7b\x7b#h \"i j\" k=\"\x7d\"\x7d\x7dl>" ++
      "\x7b\x7b/h\x7d\x7d<m n=/></m>"
    String.join (ts.map Token.source) = source ∧ (∀ t ∈ ts, t.Printable) ∧
      ts.IsChain Token.Apart ∧
      ((ofOptions ⟨false⟩).tokenize Reference.standard source).outcome = .ok ts := by
  intro attributes ts source
  have hsource : String.join (ts.map Token.source) = source := by decide +kernel
  have hprintable : ∀ t ∈ ts, t.Printable := by decide +kernel
  have hapart : ts.IsChain Token.Apart := by
    simp [ts, Token.Apart, TokenKind.isChars]
  obtain ⟨tokens, hout, -, hbare⟩ :=
    tokenize_source Reference.standard ⟨false⟩ hprintable hapart
  obtain rfl := hbare rfl
  rw [hsource] at hout
  exact ⟨hsource, hprintable, hapart, hout⟩

end Tokenizer

end TemplateMarkup
