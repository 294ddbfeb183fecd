import TemplateMarkup.Proofs.Lexer.Braces
import TemplateMarkup.Proofs.Tokenizer.Variants

/-!
# Single braces in a text

A single brace is text, at the beginning of a text and inside it. At the beginning it is read alone, and
inside a text together with the character behind it. So it makes a difference where the brace stands if
that character means something of its own: a `<` or the beginning of a reference is then text as well
(`lone_brace_takes_next`). Any other text reads alike behind the two (`lone_brace_in_text_iff`).

What a document comes to is decided by the text that it begins with and by what is left behind it
(`BeginsAsText.variant`), so both statements compare two such beginnings.
-/

namespace TemplateMarkup

open Reference (opening? standard)

/-- Two texts that go on alike behind different beginnings. -/
inductive TokenKind.Exchanged (p q : String) : TokenKind → TokenKind → Prop
  | chars (text : String) : Exchanged p q (.chars (p ++ text)) (.chars (q ++ text))

theorem TokenKind.simulates_exchanged (p q : String) : Simulates (Exchanged p q) := by
  rintro _ _ l edit ⟨text⟩ h
  cases edit <;> cases h
  refine ⟨_, rfl, ?_⟩
  rw [String.append_assoc, String.append_assoc]
  exact .chars _

theorem Verdict.Variant.eq_chars_iff {p q : String} {v v' : Verdict}
    (h : Variant (TokenKind.Exchanged p q) v v') (w : String) (ks : List TokenKind) :
    v = .ok (.chars (p ++ w) :: ks) ↔ v' = .ok (.chars (q ++ w) :: ks) := by
  cases h with
  | rejected => simp
  | nothing => simp
  | first hk =>
      cases hk
      simp

namespace Tokenizer

variable {resolve : Resolver} {document document' p q s t text : String} {d : Char}
  {rest : List Char}

/-! ## Documents that begin as a text -/

/-- The document begins with this text, and its text run may go on with what is left. -/
def BeginsAsText (resolve : Resolver) (document text : String) (rest : List Char) : Prop :=
  ∃ pieces l, Lexer.Steps resolve (Lexer.receive {} document)
      (.beginChars :: pieces.map .appendChars) l ∧
    l.state = .data ∧ l.buffer.unread = rest ∧ String.join pieces = text

/-- What such a document comes to: the rest of it is read, and a text is held. -/
theorem BeginsAsText.verdict (h : BeginsAsText resolve document text rest) (options : Options) :
    ∃ l : Lexer, l.state = .data ∧ l.buffer.unread = rest ∧
      Tokenizer.verdict resolve options document =
        l.verdict resolve ((fresh options).holding (.chars text) none) := by
  obtain ⟨pieces, l, hsteps, hl, hunread, rfl⟩ := h
  refine ⟨l, hl, hunread, verdict_of_steps hsteps ?_⟩
  have hbegin : (fresh options).receive .beginChars =
      .ok ((fresh options).holding (.chars "") none) :=
    Assembler.receive_of_begins rfl rfl
  have hpieces := Assembler.receiveAll_pieces
    (fun s => (fresh options).holding (.chars s) none) .appendChars (fun _ _ => rfl) "" pieces
  rw [Assembler.receiveAll_cons_of_ok hbegin, hpieces, String.empty_append]

/-- **Another beginning of the text.** Where the same is left, nothing else becomes another. -/
theorem BeginsAsText.variant (h : BeginsAsText resolve document (p ++ s) rest)
    (h' : BeginsAsText resolve document' (q ++ s) rest) (options : Options) :
    Verdict.Variant (TokenKind.Exchanged p q) (Tokenizer.verdict resolve options document)
      (Tokenizer.verdict resolve options document') := by
  obtain ⟨l, hl, hunread, hverdict⟩ := h.verdict options
  obtain ⟨m, hm, hunread', hverdict'⟩ := h'.verdict options
  have hcut : Lexer.Cut [] l m := ⟨by rw [hl, hm], by rw [hunread, hunread', List.append_nil]⟩
  have hfits : l.Fits ((fresh options).holding (.chars (p ++ s)) none) := by
    rw [Lexer.Fits, hl]
    exact .text _
  rw [hverdict, hverdict']
  exact hcut.verdict_variant (TokenKind.simulates_exchanged p q) hfits
    ⟨⟨_, _, .chars s, rfl, rfl⟩, rfl⟩ rfl rfl

/-! ## Three beginnings -/

theorem beginsAsText_word (resolve : Resolver) (hp : isWord isTextChar isTextChar p = true)
    (hreturn : '\r' ∉ p.toList) (t : String) :
    BeginsAsText resolve (p ++ t) p (LineEnding.fold false t.toList) := by
  have hunread : (Lexer.receive {} (p ++ t)).buffer.unread =
      p.toList ++ LineEnding.fold false t.toList := by
    rw [Lexer.unread_receive_append hreturn, Lexer.unread_receive]
  obtain ⟨l, hsteps, hl, hrest⟩ := Lexer.passes_text resolve hp _ _ rfl hunread
  exact ⟨_, l, hsteps, hl, hrest, Lexer.join_pieces p⟩

/-- Behind a brace at the beginning the next character is read for what it is. -/
theorem beginsAsText_brace_first (ht : LineEnding.fold false t.toList = d :: rest)
    (hd : d ≠ '{' ∧ d ≠ '<') (hopen : opening? resolve (d :: rest) = none) :
    BeginsAsText resolve ("\x7b" ++ t) ("\x7b" ++ String.singleton d) rest := by
  have hunread : (Lexer.receive {} ("\x7b" ++ t)).buffer.unread = '{' :: d :: rest := by
    rw [Lexer.unread_receive_append (by decide), Lexer.unread_receive, ht]
    rfl
  obtain ⟨l, hsteps, hl, hrest⟩ := Lexer.steps_brace_first rfl hunread hd hopen
  exact ⟨["\x7b", String.singleton d], l, hsteps, hl, hrest, by simp [String.join]⟩

/-- Behind a brace inside the text the next character is text, whatever it is. -/
theorem beginsAsText_brace_inside (hp : isWord isTextChar isTextChar p = true)
    (hreturn : '\r' ∉ p.toList) (ht : LineEnding.fold false t.toList = d :: rest) (hd : d ≠ '{') :
    BeginsAsText resolve (p ++ "\x7b" ++ t) (p ++ ("\x7b" ++ String.singleton d)) rest := by
  have hfold : LineEnding.fold false ("\x7b" ++ t).toList = '{' :: d :: rest := by
    rw [← Lexer.unread_receive, Lexer.unread_receive_append (by decide), Lexer.unread_receive, ht]
    rfl
  obtain ⟨pieces, m, htext, hm, hunread, hpieces⟩ :=
    beginsAsText_word resolve hp hreturn ("\x7b" ++ t)
  rw [hfold] at hunread
  obtain ⟨l, hbrace, hl, hrest⟩ := Lexer.steps_brace_inside hm hunread hd
  have hsteps := htext.trans hbrace
  rw [← String.append_assoc] at hsteps
  refine ⟨pieces ++ ["\x7b", String.singleton d], l, by simpa using hsteps, hl, hrest, ?_⟩
  rw [String.join_append, hpieces]
  simp [String.join]

/-! ## The same brace in two places -/

/-- **A brace in a text.** Where the character behind it means nothing of its own it makes no difference
whether a brace stands at the beginning of a text or inside it. Inside, that character belongs to the
text whatever it is: without the two of them the document comes to the same, with a text that is shorter
by the two. -/
theorem lone_brace_in_text_iff (resolve : Resolver) (options : Options) (hne : t ≠ "")
    (hbrace : t.toList.head? ≠ some '{') :
    (t.toList.head? ≠ some '<' → opening? resolve (LineEnding.fold false t.toList) = none →
      ∀ (w : String) (ks : List TokenKind),
        kinds resolve options ("\x7b" ++ t) = .ok (.chars w :: ks) ↔
          kinds resolve options ("a\x7b" ++ t) = .ok (.chars ("a" ++ w) :: ks)) ∧
      ∃ d rest, LineEnding.fold false t.toList = d :: rest ∧
        ∀ (w : String) (ks : List TokenKind),
          kinds resolve options ("a\x7b" ++ t) =
              .ok (.chars ("a\x7b" ++ String.singleton d ++ w) :: ks) ↔
            kinds resolve options ("a" ++ String.ofList rest) = .ok (.chars ("a" ++ w) :: ks) := by
  have hcs : t.toList ≠ [] := by simpa using hne
  obtain ⟨d, rest, hfold, hfirst⟩ := LineEnding.exists_fold_of_ne_nil hcs
  have hdbrace : d ≠ '{' := hfirst '{' (by decide) hbrace
  have hinside : BeginsAsText resolve ("a\x7b" ++ t) ("a" ++ ("\x7b" ++ String.singleton d)) rest :=
    beginsAsText_brace_inside (p := "a") (by decide) (by decide) hfold hdbrace
  refine ⟨?_, d, rest, hfold, ?_⟩
  · intro htag hopen w ks
    have hdtag : d ≠ '<' := hfirst '<' (by decide) htag
    rw [hfold] at hopen
    have halone : BeginsAsText resolve ("\x7b" ++ t) ("" ++ ("\x7b" ++ String.singleton d)) rest := by
      rw [String.empty_append]
      exact beginsAsText_brace_first hfold ⟨hdbrace, hdtag⟩ hopen
    have hiff := (halone.variant hinside options).eq_chars_iff w ks
    rw [String.empty_append] at hiff
    rwa [verdict_eq_ok_iff, verdict_eq_ok_iff] at hiff
  · intro w ks
    -- what is left behind the character is a document without returns
    have hreturn : '\r' ∉ rest := by
      have hmem := LineEnding.return_notMem_fold false t.toList
      rw [hfold] at hmem
      exact fun h => hmem (List.mem_cons_of_mem d h)
    have hwithout : BeginsAsText resolve ("a" ++ String.ofList rest) ("a" ++ "") rest := by
      have hword := beginsAsText_word resolve (p := "a") (by decide) (by decide) (String.ofList rest)
      rwa [String.toList_ofList, LineEnding.fold_of_notMem hreturn] at hword
    have hinside : BeginsAsText resolve ("a\x7b" ++ t) ("a\x7b" ++ String.singleton d ++ "") rest := by
      rw [String.append_empty]
      exact hinside
    have hiff := (hinside.variant hwithout options).eq_chars_iff w ks
    rwa [verdict_eq_ok_iff, verdict_eq_ok_iff] at hiff

/-- A brace behind which a text goes on, with another single brace and with what would be a reference if
its name were known. -/
theorem lone_brace_in_text_iff_unknown :
    let t := "&x; \x7b<b>"
    t ≠ "" ∧ t.toList.head? ≠ some '{' ∧ t.toList.head? ≠ some '<' ∧
      opening? standard (LineEnding.fold false t.toList) = none ∧
      kinds standard ⟨false⟩ ("\x7b" ++ t) = .ok [.chars "\x7b&x; \x7b<b>"] ∧
      kinds standard ⟨false⟩ ("a\x7b" ++ t) = .ok [.chars "a\x7b&x; \x7b<b>"] ∧
      kinds standard ⟨false⟩ ("a" ++ "x; \x7b<b>") = .ok [.chars "ax; \x7b<b>"] := by
  intro t
  have hopen : opening? standard (LineEnding.fold false t.toList) = none := by decide +kernel
  have hfirst : kinds standard ⟨false⟩ ("\x7b" ++ t) = .ok [.chars "\x7b&x; \x7b<b>"] := by
    decide +kernel
  obtain ⟨halike, d, rest, hfold, hwithout⟩ :=
    lone_brace_in_text_iff standard ⟨false⟩ (t := t) (by decide) (by decide)
  have hinside := (halike (by decide) hopen _ _).mp hfirst
  have hcons : LineEnding.fold false t.toList = '&' :: "x; \x7b<b>".toList := by decide +kernel
  obtain ⟨rfl, rfl⟩ := List.cons.inj (hcons.symm.trans hfold)
  exact ⟨by decide, by decide, by decide, hopen, hfirst, hinside, (hwithout "x; \x7b<b>" []).mp hinside⟩

/-- Inside a text the brace takes the next character with it, a `<` and an `&` as well. -/
theorem lone_brace_takes_next :
    ¬ ∀ t : String, t ≠ "" → t.toList.head? ≠ some '{' → ∀ (w : String) (ks : List TokenKind),
      kinds standard ⟨false⟩ ("\x7b" ++ t) = .ok (.chars w :: ks) →
        kinds standard ⟨false⟩ ("a\x7b" ++ t) = .ok (.chars ("a" ++ w) :: ks) := by
  intro h
  have hfirst : kinds standard ⟨false⟩ ("\x7b" ++ "<b>") =
      .ok [.chars "\x7b", .startTag "b" [] false] := by
    decide +kernel
  have hinside : kinds standard ⟨false⟩ ("a\x7b" ++ "<b>") = .ok [.chars "a\x7b<b>"] := by
    decide +kernel
  have hwhole := h "<b>" (by decide) (by decide) _ _ hfirst
  rw [hinside] at hwhole
  simp at hwhole

end Tokenizer

end TemplateMarkup
