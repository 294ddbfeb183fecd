import TemplateMarkup.Proofs.Lexer.Values
import TemplateMarkup.Proofs.Tokenizer.Composition

/-!
# The text of tokens

One decoder says what the lexer makes of references. A document without markup is one text, decoded,
and a value in quotes is decoded as if it stood alone, whatever follows the tag (`references_decoded`).
A bare value differs in its first character, which is never the beginning of a reference
(`bare_value_eq_quoted_iff`).
-/

namespace TemplateMarkup.Tokenizer

open Reference (decode decodeBehindFirst opening? standard)

variable {resolve : Resolver} {options : Options} {ks : List TokenKind} {v : String}

theorem kinds_empty (resolve : Resolver) (options : Options) : kinds resolve options "" = .ok [] :=
  kinds_of_constructs [] (Lexer.Halts.finishes (.exhausted rfl)) options

/-- A document without markup. -/
theorem kinds_of_text {text : String} (hne : text ≠ "") (htag : '<' ∉ text.toList)
    (hbrace : '{' ∉ text.toList) :
    kinds resolve options text = .ok [.chars (decode resolve (LineEnding.fold false text.toList))] := by
  have hfold : LineEnding.fold false text.toList ≠ [] := LineEnding.fold_ne_nil (by simpa using hne)
  have hfinishes := Lexer.finishes_decoded resolve hfold
    (fun h => htag (LineEnding.mem_of_mem_fold h (by decide)))
    (fun h => hbrace (LineEnding.mem_of_mem_fold h (by decide)))
    (l := Lexer.receive {} text) rfl rfl
  obtain ⟨stop, hfinishes⟩ := hfinishes
  let run : Construct := .text _ (Reference.parts_ne_nil resolve hfold) stop
  have hall : Lexer.Finishes resolve (Lexer.receive {} text) ([run].flatMap Construct.events) := by
    simpa [run, Construct.events] using hfinishes
  exact kinds_of_constructs _ hall options

/-- A start tag of one attribute, from its value on, in front of a document. -/
theorem kinds_of_attribute {w : List Char} {quoted : Bool} {pieces : List String} {rest : String}
    (hvalue : Lexer.Closes resolve .attributeName w (.beginAttributeValue quoted ::
      pieces.map .appendAttributeValue ++ [.finishAttributeValue]) .finishTag)
    (hreturn : '\r' ∉ w) (hrest : kinds resolve options rest = .ok ks) :
    kinds resolve options ("<a x" ++ String.ofList w ++ rest) =
      .ok (.startTag "a" [⟨"x", [String.join pieces], [], quoted⟩] false :: ks) := by
  have hspells := Lexer.spells_attribute "a" "x" (by decide) (by decide) hvalue
  have htext : "<a x" ++ String.ofList w =
      String.ofList ('<' :: ("a".toList ++ ' ' :: "x".toList ++ w)) := by
    rw [← String.toList_inj]
    simp
  rw [htext]
  exact kinds_append hspells (by simpa using hreturn) hrest

/-- A value in quotes is decoded, whatever the document that follows the tag. -/
theorem kinds_of_quotedValue {q : Quote} (hnames : Reference.Avoids resolve q.char)
    (hquote : q.char ∉ v.toList) (hreturn : '\r' ∉ v.toList) {rest : String}
    (hrest : kinds resolve options rest = .ok ks) :
    kinds resolve options
        ("<a x=" ++ String.singleton q.char ++ v ++ String.singleton q.char ++ ">" ++ rest) =
      .ok (.startTag "a" [⟨"x", [decode resolve v.toList], [], true⟩] false :: ks) := by
  have hvalue := Lexer.closes_quotedValue hquote hnames
  have hclean : '\r' ∉ '=' :: q.char :: v.toList ++ [q.char, '>'] := by
    cases q <;> simpa [Quote.char] using hreturn
  have htext : "<a x=" ++ String.singleton q.char ++ v ++ String.singleton q.char ++ ">" =
      "<a x" ++ String.ofList ('=' :: q.char :: v.toList ++ [q.char, '>']) := by
    rw [← String.toList_inj]
    simp
  rw [htext]
  exact kinds_of_attribute hvalue hclean hrest

/-- **References are decoded by one decoder.** A text without markup is decoded, and so is a value in
quotes, if no known name holds the quote: then nothing that follows the closing quote has a say. -/
theorem references_decoded (resolve : Resolver) (options : Options) :
    (∀ text : String, text ≠ "" → '<' ∉ text.toList → '{' ∉ text.toList →
      kinds resolve options text =
        .ok [.chars (decode resolve (LineEnding.fold false text.toList))]) ∧
    ∀ q : Quote, Reference.Avoids resolve q.char →
      ∀ v rest : String, q.char ∉ v.toList → '\r' ∉ v.toList →
        ∀ ks, kinds resolve options rest = .ok ks →
          kinds resolve options
              ("<a x=" ++ String.singleton q.char ++ v ++ String.singleton q.char ++ ">" ++ rest) =
            .ok (.startTag "a" [⟨"x", [decode resolve v.toList], [], true⟩] false :: ks) :=
  ⟨fun _ hne htag hbrace => kinds_of_text hne htag hbrace,
    fun _ hnames _ _ hquote hreturn _ hrest => kinds_of_quotedValue hnames hquote hreturn hrest⟩

/-- Ampersands side by side, an unknown name around a known one, and a reference that is open at the
closing quote: the `;` behind the tag comes too late for it. -/
theorem references_decoded_overlapping :
    let v := "\"&x&gt;&&amp;lt; &lt"
    kinds standard ⟨false⟩ "&&amp;lt; &x&gt;\r" = .ok [.chars "&&lt; &x>\n"] ∧
      Reference.Avoids standard Quote.single.char ∧ decode standard v.toList = "\"&x>&&lt; &lt" ∧
      kinds standard ⟨false⟩ ";'>" = .ok [.chars ";'>"] ∧
      kinds standard ⟨false⟩ ("<a x=" ++ "'" ++ v ++ "'" ++ ">" ++ ";'>") =
        .ok [.startTag "a" [⟨"x", [decode standard v.toList], [], true⟩] false, .chars ";'>"] := by
  intro v
  obtain ⟨htexts, hvalues⟩ := references_decoded standard ⟨false⟩
  have hnames : Reference.Avoids standard Quote.single.char :=
    Reference.avoids_standard (by decide)
  have htext := htexts "&&amp;lt; &x&gt;\r" (by decide) (by decide) (by decide)
  have hrest := htexts ";'>" (by decide) (by decide) (by decide)
  have hplain : decode standard (LineEnding.fold false ";'>".toList) = ";'>" := by decide +kernel
  have hdecoded : decode standard (LineEnding.fold false "&&amp;lt; &x&gt;\r".toList) =
      "&&lt; &x>\n" := by
    decide +kernel
  rw [hplain] at hrest
  rw [hdecoded] at htext
  exact ⟨htext, hnames, by decide +kernel, hrest,
    hvalues .single hnames v ";'>" (by decide) (by decide) _ hrest⟩

/-! ## Bare values -/

/-- A start tag with a bare value, in front of a document. -/
theorem kinds_of_bareValue (hnames : Reference.Avoids resolve '>') (hne : v ≠ "")
    (hv : ∀ c ∈ v.toList, isSpace c = false ∧ isQuote c = false ∧ c ≠ '>' ∧ c ≠ '\r')
    {rest : String} (hrest : kinds resolve options rest = .ok ks) :
    kinds resolve options ("<a x=" ++ v ++ ">" ++ rest) =
      .ok (.startTag "a" [⟨"x", [decodeBehindFirst resolve v.toList], [], false⟩] false :: ks) := by
  have hcs : v.toList ≠ [] := by simpa using hne
  obtain ⟨c, cs, hcs⟩ := List.exists_cons_of_ne_nil hcs
  have hfirst := hv c (by simp [hcs])
  have hlater : ∀ d ∈ cs, isSpace d = false ∧ d ≠ '>' := by
    intro d hd
    obtain ⟨hspace, -, hend, -⟩ := hv d (by simp [hcs, hd])
    exact ⟨hspace, hend⟩
  have hvalue := Lexer.closes_bareValue ⟨hfirst.1, hfirst.2.1, hfirst.2.2.1⟩ hlater hnames
  have hclean : '\r' ∉ '=' :: c :: cs ++ ['>'] := by
    have hreturn : '\r' ∉ v.toList := fun h => (hv _ h).2.2.2 rfl
    simpa [hcs] using hreturn
  have htext : "<a x=" ++ v ++ ">" = "<a x" ++ String.ofList ('=' :: c :: cs ++ ['>']) := by
    rw [← String.toList_inj]
    simp [hcs]
  rw [htext, hcs, decodeBehindFirst]
  simpa [decode] using kinds_of_attribute hvalue hclean hrest

/-- **The first character of a bare value.** Between quotes a value is decoded, and without them it is
decoded behind its first character. So quoting changes a value exactly when the value begins with a
reference that is known. -/
theorem bare_value_eq_quoted_iff (options : Options) (hne : v ≠ "")
    (hv : ∀ c ∈ v.toList, isSpace c = false ∧ isQuote c = false ∧ c ≠ '>' ∧ c ≠ '\r') :
    kinds standard options ("<a x=" ++ v ++ ">") =
        .ok [.startTag "a" [⟨"x", [decodeBehindFirst standard v.toList], [], false⟩] false] ∧
      kinds standard options ("<a x=\"" ++ v ++ "\">") =
        .ok [.startTag "a" [⟨"x", [decode standard v.toList], [], true⟩] false] ∧
      (decodeBehindFirst standard v.toList = decode standard v.toList ↔
        opening? standard v.toList = none) := by
  have hempty := kinds_empty standard options
  refine ⟨?_, ?_, Reference.decodeBehindFirst_eq_iff v.toList⟩
  · have hnames : Reference.Avoids standard '>' := Reference.avoids_standard (by decide)
    simpa using kinds_of_bareValue hnames hne hv hempty
  · have hnames : Reference.Avoids standard Quote.double.char :=
      Reference.avoids_standard (by decide)
    have hquote : Quote.double.char ∉ v.toList := fun h => absurd (hv _ h).2.1 (by decide)
    have hreturn : '\r' ∉ v.toList := fun h => (hv _ h).2.2.2 rfl
    have hdocument : "<a x=\"" ++ v ++ "\">" = "<a x=" ++ String.singleton Quote.double.char ++ v ++
        String.singleton Quote.double.char ++ ">" ++ "" := by
      rw [← String.toList_inj]
      simp [Quote.char]
    rw [hdocument]
    exact kinds_of_quotedValue hnames hquote hreturn hempty

/-- A reference at the beginning of a value, and one behind it. -/
theorem bare_value_eq_quoted_iff_twice :
    let v := "&amp;b&lt;"
    v ≠ "" ∧ (∀ c ∈ v.toList, isSpace c = false ∧ isQuote c = false ∧ c ≠ '>' ∧ c ≠ '\r') ∧
      decodeBehindFirst standard v.toList = "&amp;b<" ∧ decode standard v.toList = "&b<" ∧
      opening? standard v.toList = some ("&", "b&lt;".toList) ∧
      kinds standard ⟨true⟩ ("<a x=" ++ v ++ ">") =
        .ok [.startTag "a" [⟨"x", [decodeBehindFirst standard v.toList], [], false⟩] false] ∧
      kinds standard ⟨true⟩ ("<a x=\"" ++ v ++ "\">") =
        .ok [.startTag "a" [⟨"x", [decode standard v.toList], [], true⟩] false] := by
  intro v
  have hne : v ≠ "" := by decide
  have hv : ∀ c ∈ v.toList, isSpace c = false ∧ isQuote c = false ∧ c ≠ '>' ∧ c ≠ '\r' := by
    simp [v, isSpace, isQuote]
  obtain ⟨hbare, hquoted, -⟩ := bare_value_eq_quoted_iff ⟨true⟩ hne hv
  exact ⟨hne, hv, by decide +kernel, by decide +kernel, by decide +kernel, hbare, hquoted⟩

/-- Quotes do make a difference: a bare `&amp;` keeps all its characters. -/
theorem bare_value_ne_quoted :
    ¬ ∀ v : String, v ≠ "" →
      (∀ c ∈ v.toList, isSpace c = false ∧ isQuote c = false ∧ c ≠ '>' ∧ c ≠ '\r') →
        ∃ value, kinds standard ⟨false⟩ ("<a x=" ++ v ++ ">") =
            .ok [.startTag "a" [⟨"x", [value], [], false⟩] false] ∧
          kinds standard ⟨false⟩ ("<a x=\"" ++ v ++ "\">") =
            .ok [.startTag "a" [⟨"x", [value], [], true⟩] false] := by
  intro h
  obtain ⟨value, hbare, hquoted⟩ := h "&amp;" (by decide) (by simp [isSpace, isQuote])
  have hbare' : kinds standard ⟨false⟩ ("<a x=" ++ "&amp;" ++ ">") =
      .ok [.startTag "a" [⟨"x", ["&amp;"], [], false⟩] false] := by
    decide +kernel
  have hquoted' : kinds standard ⟨false⟩ ("<a x=\"" ++ "&amp;" ++ "\">") =
      .ok [.startTag "a" [⟨"x", ["&"], [], true⟩] false] := by
    decide +kernel
  rw [hbare'] at hbare
  rw [hquoted'] at hquoted
  obtain rfl : "&amp;" = value := by simpa using hbare
  simp at hquoted

end TemplateMarkup.Tokenizer
