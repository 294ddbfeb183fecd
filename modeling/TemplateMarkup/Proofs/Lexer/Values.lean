import TemplateMarkup.Proofs.Lexer.Sources
import TemplateMarkup.Proofs.Reference.Decode

/-!
# Reading texts and values with references

In the three kinds of state in which a reference may stand the lexer reports a text piece by piece as
the decoder has it (`steps_decoded`), as long as no reference that begins in the text reaches into what
follows. A value is read so up to the character that ends it, if no known name holds that character.
-/

namespace TemplateMarkup

open Reference (opening? parts decode Bars)

variable {resolve : Resolver} {s : State} {c : Char} {rest tail : List Char}
  {append : String → Event} {text : String}

/-! ## Moves at an ampersand -/

theorem State.move_of_known (here : Position) (hs : s.textEvent? = some append)
    (h : opening? resolve ('&' :: rest) = some (text, tail)) :
    ∃ t, s.move resolve here '&' rest = .take t ∧ t.next = s ∧ t.events = [append text] ∧
      rest.drop t.extra = tail := by
  obtain ⟨name, hcons, hname, hresolve⟩ := Reference.opening?_eq_some h
  obtain ⟨-, rfl⟩ := List.cons.inj hcons
  refine ⟨{ next := s, events := [append text], extra := name.length + 1 }, ?_, rfl, rfl, ?_⟩
  · rw [State.move_ampersand here hs, Move.reference, Reference.lookup,
      Reference.nameAhead?_append_cons hname]
    simp only [hresolve]
  · simp

theorem State.move_of_unknown (here : Position) (hs : s.textEvent? = some append)
    (h : opening? resolve ('&' :: rest) = none) :
    ∃ note, s.move resolve here '&' rest = .take { next := s, events := [append "&"], note } := by
  have hknown : (Reference.lookup resolve rest).known? = none := by
    by_cases hmem : ';' ∈ rest
    · obtain ⟨name, tail, rfl, hname⟩ := Reference.exists_name hmem
      rw [Reference.opening?_append_cons hname, Option.map_eq_none_iff] at h
      rw [Reference.known?_lookup_append_cons hname, h, Option.map_none]
    · exact Reference.known?_lookup_of_notMem hmem
  have hmute : (Move.reference resolve s append rest).mute =
      (Move.take { next := s, events := [append "&"] }).mute := by
    rw [Move.mute_reference, hknown]
    rfl
  rw [State.move_ampersand here hs]
  exact Move.eq_of_mute_eq_take hmute

/-- Where no known reference begins, a character of a text is read as it is. -/
theorem State.move_of_char (here : Position) (hs : s.textEvent? = some append)
    (hopen : opening? resolve (c :: rest) = none)
    (hc : c ≠ '&' → s.move resolve here c rest = Move.advance s [append (String.singleton c)]) :
    ∃ note, s.move resolve here c rest =
      .take { next := s, events := [append (String.singleton c)], note } := by
  by_cases hamp : c = '&'
  · subst hamp
    exact State.move_of_unknown here hs hopen
  · exact ⟨none, hc hamp⟩

theorem Quote.char_ne_semicolon (q : Quote) : q.char ≠ ';' := by
  cases q <;> decide

namespace Lexer

variable {l : Lexer} {w : List Char}

/-! ## Texts -/

/-- The characters are read one by one in the state, as so much text, but for those that may begin a
reference. -/
def Admits (resolve : Resolver) (s : State) (append : String → Event) (w : List Char) : Prop :=
  ∀ c ∈ w, c ≠ '&' → ∀ here rest,
    s.move resolve here c rest = Move.advance s [append (String.singleton c)]

/-- A text is reported as it is decoded, up to a border that no reference reaches over. -/
theorem steps_decoded (hs : s.textEvent? = some append) (hw : Admits resolve s append w)
    (hbars : Bars resolve rest) (hl : l.state = s) (hunread : l.buffer.unread = w ++ rest) :
    ∃ l', Steps resolve l ((parts resolve w).map append) l' ∧ l'.state = s ∧
      l'.buffer.unread = rest := by
  -- the cases of the decoder: a known reference is one step, and so is every other character
  induction w using Reference.parts.induct resolve generalizing l with
  | case1 => exact ⟨l, by simpa using Steps.refl l, hl, hunread⟩
  | case2 c w text tail hopen _ ih =>
      obtain ⟨name, hcons, -⟩ := Reference.opening?_eq_some hopen
      obtain ⟨rfl, rfl⟩ := List.cons.inj hcons
      have hopen' := Reference.opening?_append hbars '&' (name ++ ';' :: tail)
      rw [hopen, Option.map_some] at hopen'
      obtain ⟨t, hmove, hnext, hevents, hdrop⟩ := State.move_of_known l.position hs hopen'
      rw [← hl] at hmove
      have hfirst := Step.take hunread hmove
      rw [hevents] at hfirst
      have hunread' : (l.take t).buffer.unread = tail ++ rest := by simpa [hunread] using hdrop
      obtain ⟨l', hlater, hl', hrest⟩ := ih (fun d hd => hw d (by simp [hd])) hnext hunread'
      rw [Reference.parts_of_known hopen]
      exact ⟨l', .head hfirst hlater, hl', hrest⟩
  | case3 c w hopen ih =>
      have hmove : ∃ note, l.state.move resolve l.position c (w ++ rest) =
          .take { next := s, events := [append (String.singleton c)], note } := by
        have hopen' := Reference.opening?_append hbars c w
        rw [hopen, Option.map_none] at hopen'
        rw [hl]
        exact State.move_of_char _ hs hopen' fun hc => hw c (by simp) hc _ _
      obtain ⟨note, hmove⟩ := hmove
      let t : Take := { next := s, events := [append (String.singleton c)], note }
      have hfirst : Step resolve l t.events (l.take t) := .take hunread hmove
      have hunread' : (l.take t).buffer.unread = w ++ rest := by simp [hunread, t]
      obtain ⟨l', hlater, hl', hrest⟩ := ih (fun d hd => hw d (by simp [hd])) rfl hunread'
      rw [Reference.parts_of_unknown hopen]
      exact ⟨l', .head hfirst hlater, hl', hrest⟩

theorem admits_data (htag : '<' ∉ w) (hbrace : '{' ∉ w) :
    Admits resolve .data .appendChars w := by
  intro c hc hamp _ _
  have htag' : c ≠ '<' := fun h => htag (h ▸ hc)
  have hbrace' : c ≠ '{' := fun h => hbrace (h ▸ hc)
  simp [State.move, htag', hbrace', hamp]

/-- Without markup a document is one text, which the end of the input completes. -/
theorem finishes_decoded (resolve : Resolver) (hne : w ≠ []) (htag : '<' ∉ w) (hbrace : '{' ∉ w)
    (hl : l.state = .beforeData) (hunread : l.buffer.unread = w) :
    ∃ stop, Finishes resolve l
      (.beginChars :: (parts resolve w).map .appendChars ++ [.finishChars stop]) := by
  obtain ⟨c, cs, rfl⟩ := List.exists_cons_of_ne_nil hne
  simp only [List.mem_cons, not_or] at htag hbrace
  have hbegin : l.state.move resolve l.position c cs = .reexamine .data [.beginChars] := by
    simp [hl, State.move, Ne.symm htag.1, Ne.symm hbrace.1]
  have hfirst := Step.reexamine hunread hbegin
  obtain ⟨l', hlater, hl', hunread'⟩ := steps_decoded (l := { l with state := .data })
    (w := c :: cs) rfl (admits_data (by simpa using htag) (by simpa using hbrace))
    (Reference.bars_nil resolve) rfl (by simpa using hunread)
  have hend : Finishes resolve l' l'.owed := finishes_owed (.inr hl') hunread'
  rw [owed_of_data hl'] at hend
  exact ⟨l'.position, by simpa using hfirst.finishes (hlater.finishes hend)⟩

/-! ## Values -/

/-- Up to a character that no known name holds a text is read as it is decoded. -/
theorem Closes.decoded {d : Char} {w' : List Char} {es : List Event} {finish : Position → Event}
    (hs : s.textEvent? = some append) (hw : Admits resolve s append w)
    (hd : Reference.Avoids resolve d) (hne : d ≠ ';')
    (hlast : Closes resolve s (d :: w') es finish) :
    Closes resolve s (w ++ d :: w') ((parts resolve w).map append ++ es) finish := by
  intro l rest hl hunread
  rw [List.append_assoc] at hunread
  obtain ⟨l₁, htext, hl₁, hunread₁⟩ := steps_decoded hs hw (hd.bars_cons hne _) hl hunread
  obtain ⟨l₂, stop, hend, hl₂, hunread₂⟩ := hlast l₁ rest hl₁ hunread₁
  refine ⟨l₂, stop, ?_, hl₂, hunread₂⟩
  rw [List.append_assoc]
  exact htext.trans hend

theorem admits_quoted {q : Quote} (hw : q.char ∉ w) :
    Admits resolve (.attributeValueQuoted q) .appendAttributeValue w := by
  intro c hc hamp _ _
  have hquote : c ≠ q.char := fun h => hw (h ▸ hc)
  simp [State.move, hquote, hamp]

theorem admits_bare (hw : ∀ c ∈ w, isSpace c = false ∧ c ≠ '>') :
    Admits resolve .attributeValueUnquoted .appendAttributeValue w := by
  intro c hc hamp _ _
  obtain ⟨hspace, hend⟩ := hw c hc
  simp [State.move, hspace, hamp, hend]

/-- A value in quotes is the decoded text between them. -/
theorem closes_quotedValue {q : Quote} (hw : q.char ∉ w)
    (hnames : Reference.Avoids resolve q.char) :
    Closes resolve .attributeName ('=' :: q.char :: w ++ [q.char, '>'])
      (.beginAttributeValue true :: (parts resolve w).map .appendAttributeValue ++
        [Event.finishAttributeValue]) .finishTag := by
  have heq : Passes resolve .attributeName ['='] [] .beforeAttributeValue := .char fun _ _ => rfl
  have hopen : Passes resolve .beforeAttributeValue [q.char] [.beginAttributeValue true]
      (.attributeValueQuoted q) := by
    cases q <;> exact .char fun _ _ => rfl
  have hquote : Passes resolve (.attributeValueQuoted q) [q.char] [.finishAttributeValue]
      .afterAttributeValueQuoted := .char fun _ _ => by simp [State.move]
  have hend : Closes resolve .afterAttributeValueQuoted ['>'] [] .finishTag := .char fun _ _ => rfl
  have hvalue :=
    Closes.decoded rfl (admits_quoted hw) hnames q.char_ne_semicolon (hquote.closes hend)
  simpa using heq.closes (hopen.closes hvalue)

/-- A bare value is its first character, which stands for itself, and the decoded text behind it. -/
theorem closes_bareValue (hc : isSpace c = false ∧ isQuote c = false ∧ c ≠ '>')
    (hw : ∀ c ∈ w, isSpace c = false ∧ c ≠ '>') (hnames : Reference.Avoids resolve '>') :
    Closes resolve .attributeName ('=' :: c :: w ++ ['>'])
      (.beginAttributeValue false ::
        (String.singleton c :: parts resolve w).map .appendAttributeValue ++
          [Event.finishAttributeValue]) .finishTag := by
  obtain ⟨hspace, hquote, hend⟩ := hc
  simp only [isQuote, Bool.or_eq_false_iff, beq_eq_false_iff_ne] at hquote
  have heq : Passes resolve .attributeName ['='] [] .beforeAttributeValue := .char fun _ _ => rfl
  have hfirst : Passes resolve .beforeAttributeValue [c]
      [.beginAttributeValue false, .appendAttributeValue (String.singleton c)]
      .attributeValueUnquoted := .char fun _ _ => by simp [State.move, hspace, hquote, hend]
  have hlast : Closes resolve .attributeValueUnquoted ['>'] [.finishAttributeValue] .finishTag :=
    .char fun _ _ => rfl
  have hvalue := Closes.decoded rfl (admits_bare hw) hnames (by decide) hlast
  simpa using heq.closes (hfirst.closes hvalue)

/-! ## Tags -/

/-- A tag with one attribute, from the value on. -/
theorem spells_attribute (name key : String) {quoted : Bool} {pieces : List String}
    (hname : isTagName name = true)
    (hkey : isWord isAttributeNameChar isAttributeNameChar key = true)
    (hvalue : Closes resolve .attributeName w (.beginAttributeValue quoted ::
      pieces.map .appendAttributeValue ++ [.finishAttributeValue]) .finishTag) :
    Spells resolve .beforeData ('<' :: (name.toList ++ ' ' :: key.toList ++ w))
      (.startTag name [⟨key, [String.join pieces], [], quoted⟩] false) := by
  have hopen := passes_tagName resolve false (isWord_isAlpha hname)
  rw [modifyHead_toLower hname] at hopen
  have hpasses :=
    hopen.trans (AttributeBorder.tagName.passes_attributeName (Border.parts_space .name) hkey)
  refine ((hpasses.closes hvalue).spells fun stop => ?_).tag
  let value : Construct.TagAttribute :=
    ⟨key.toList, ne_nil_of_isWord hkey, quoted, pieces⟩
  refine ⟨.tag false name.toList (ne_nil_of_isWord hname) [value] false stop, ?_, ?_⟩
  · simp [Construct.kind, Construct.TagAttribute.attribute, value]
  · simp [Construct.events, Construct.openTag, Construct.TagAttribute.events, value]

end Lexer

end TemplateMarkup
