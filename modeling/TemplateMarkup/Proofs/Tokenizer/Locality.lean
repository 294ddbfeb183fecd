import TemplateMarkup.Proofs.Lexer.Slice
import TemplateMarkup.Proofs.Tokenizer.Chunking

/-!
# Tokens are local

The part of a document that a token covers, tokenized as a document of its own, is that token
(`token_of_slice`). All that a token is made of has been read since the lexer was between two tokens
(`Begun`), and that stretch of reading is one of the slice alone.
-/

namespace TemplateMarkup

/-! ## Slices -/

/-- The part of the text between the two positions of a span. -/
def Span.Covers (s : Span) (text slice : List Char) : Prop :=
  ∃ before after, text = before ++ slice ++ after ∧ s.start = Position.start.after before ∧
    s.stop = Position.start.after (before ++ slice)

/-- A span covers one part of a text only. -/
theorem Span.Covers.unique {s : Span} {text slice slice' : List Char} (h : s.Covers text slice)
    (h' : s.Covers text slice') : slice = slice' := by
  obtain ⟨before, after, htext, hstart, hstop⟩ := h
  obtain ⟨before', after', htext', hstart', hstop'⟩ := h'
  have hbefore : before = before' := by
    apply Position.after_inj _ _ (hstart.symm.trans hstart')
    · exact text
    · exact ⟨slice ++ after, by rw [htext, List.append_assoc]⟩
    · exact ⟨slice' ++ after', by rw [htext', List.append_assoc]⟩
  have hboth : before ++ slice = before' ++ slice' := by
    apply Position.after_inj _ _ (hstop.symm.trans hstop')
    · exact text
    · exact ⟨after, htext.symm⟩
    · exact ⟨after', htext'.symm⟩
  subst hbefore
  exact List.append_cancel_left hboth

variable {resolve : Resolver} {text slice : List Char} {l l' b : Lexer} {a a' a₀ : Assembler}
  {e : Event} {es fs : List Event}

theorem Lexer.Over.covers (h : Lexer.Over b slice l') (hplaced : b.buffer.Placed) :
    Span.Covers ⟨b.position, l'.position⟩ b.buffer.toList slice := by
  refine ⟨b.buffer.consumed.reverse, l'.buffer.unread, ?_, hplaced, ?_⟩
  · rw [Buffer.toList, h.unread, List.append_assoc]
  · rw [Position.after_append, ← hplaced]
    exact h.position

/-! ## A slice as a document -/

/-- What a document is made of when its reading to the end reports `fs`. -/
theorem Tokenizer.tokenize_of_finishes {document : String}
    (h : Lexer.Finishes resolve (Lexer.receive {} document) fs) (options : Options) :
    ∃ a, Assembler.Receives { trackLocations := options.trackLocations } fs a ∧
      ((ofOptions options).tokenize resolve document).outcome = .ok a.tokens.toList := by
  obtain ⟨es, m, hreads, rfl⟩ := h
  obtain ⟨hes, hm, he⟩ := Lexer.feed_of_reads hreads
  obtain ⟨hsession, hevents⟩ := Lexer.session_document he
  obtain ⟨a, ha, hout, -⟩ := session_of_ok (ready_ofOptions options) hsession
  have hreceives : Assembler.Receives { trackLocations := options.trackLocations }
      (Lexer.session resolve {} [.part document, .eof]).events a := ha
  rw [hevents, hes, hm] at hreceives
  refine ⟨a, hreceives, ?_⟩
  rw [tokenize_outcome]
  exact hout

/-- What is read of a document that is not rejected, and the tokens that are made of it. -/
theorem Tokenizer.reads_of_tokenize {document : String} {options : Options} {tokens : List Token}
    (h : ((ofOptions options).tokenize resolve document).outcome = .ok tokens) :
    ∃ es l a, Lexer.Steps resolve (Lexer.receive {} document) es l ∧
      Lexer.Halts resolve l l none ∧
      Assembler.Receives { trackLocations := options.trackLocations } (es ++ l.flush.events) a ∧
      a.tokens.toList = tokens := by
  have hsession : ((ofOptions options).session resolve [.part document, .eof]).outcome =
      .ok tokens := by
    rw [tokenize_outcome] at h
    exact h
  have hready := ready_ofOptions options
  have he := error?_of_outcome hready hsession
  obtain ⟨hfeed, -⟩ := Lexer.session_cons_of_ok he
  obtain ⟨-, hevents⟩ := Lexer.session_document hfeed
  obtain ⟨a, ha, hout, -⟩ := session_of_ok hready he
  have hreceives : Assembler.Receives { trackLocations := options.trackLocations }
      (Lexer.session resolve {} [.part document, .eof]).events a := ha
  rw [hevents] at hreceives
  obtain ⟨hsteps, hhalts⟩ := Lexer.steps_feed hfeed
  exact ⟨_, _, a, hsteps, hhalts, hreceives, Except.ok.inj (hout.symm.trans hsession)⟩

/-- A slice whose reading to the end reports what makes one token elsewhere is a document of that
token. -/
theorem Tokenizer.tokenize_of_alike {kind : TokenKind} (hreturn : '\r' ∉ slice)
    (hcurrent : a₀.current = none) (hpending : a₀.pending = none) (ha : a₀.Receives es a')
    (hkind : a'.kinds = a₀.kinds ++ [kind])
    (hfinishes : ∀ m : Lexer, m.state = .beforeData → m.buffer.unread = slice →
      ∃ fs, Lexer.Finishes resolve m fs ∧ Alike fs es) (options : Options) :
    ∃ span, ((ofOptions options).tokenize resolve (String.ofList slice)).outcome =
      .ok [⟨kind, span⟩] := by
  have hunread : (Lexer.receive {} (String.ofList slice)).buffer.unread = slice := by
    rw [Lexer.receive, Lexer.unread_extend, String.toList_ofList,
      LineEnding.fold_of_notMem hreturn]
    rfl
  obtain ⟨fs, hfs, halike⟩ := hfinishes _ rfl hunread
  obtain ⟨c, hc, hout⟩ := tokenize_of_finishes hfs options
  have hsame : a₀.SameContents { trackLocations := options.trackLocations } :=
    ⟨hcurrent.symm, hpending.symm⟩
  obtain ⟨c', new, hc', -, hkinds, hkinds'⟩ := ha.alike hsame halike
  obtain rfl : c = c' := Except.ok.inj (hc.receiveAll.symm.trans hc')
  obtain rfl : new = [kind] := List.append_cancel_left (hkinds.symm.trans hkind)
  obtain ⟨t, ht, hkind'⟩ := List.map_eq_singleton_iff.mp hkinds'
  refine ⟨t.span, ?_⟩
  rw [hout, ht, ← hkind']

/-! ## The token under construction -/

/-- The slice that the token covers is, as a document of its own, one token of the same kind. -/
def IsLocal (resolve : Resolver) (text : List Char) (t : Token) : Prop :=
  ∃ span slice, t.span = some span ∧ span.Covers text slice ∧ ∀ options, ∃ span',
    ((Tokenizer.ofOptions options).tokenize resolve (String.ofList slice)).outcome =
      .ok [⟨t.kind, span'⟩]

/-- The token under construction is what `l` has read, and reported in `fs`, since it was at `b`,
between two tokens. -/
structure Begun (resolve : Resolver) (b : Lexer) (fs : List Event) (l : Lexer) (a : Assembler) :
    Prop where
  between : b.state = .beforeData
  placed : b.buffer.Placed
  start : b.position = a.tokenStart
  steps : Lexer.Steps resolve b fs l
  unstopped : Unstopped fs
  made : ∃ a₀ : Assembler, a₀.current = none ∧ a₀.pending = none ∧ a₀.Receives fs a

theorem Begun.step (h : Begun resolve b fs l a) (hstep : Lexer.Step resolve l es l')
    (hes : Unstopped es) (ha : a.Receives es a') : Begun resolve b (fs ++ es) l' a' where
  between := h.between
  placed := h.placed
  start := h.start.trans (ha.sameTokens hes).tokenStart.symm
  steps := h.steps.trans (.single hstep)
  unstopped := h.unstopped.append hes
  made := by
    obtain ⟨a₀, hcurrent, hpending, ha₀⟩ := h.made
    exact ⟨a₀, hcurrent, hpending, ha₀.trans ha⟩

/-- Events that complete the token at `l'` make one token. It is local if the slice up to `l'`
reports as much where it stands alone. -/
theorem Begun.completes (h : Begun resolve b fs l a) (htrack : a.trackLocations = true)
    (hreturn : '\r' ∉ b.buffer.toList) (ha : a.Receives (es ++ [e]) a') (hes : Unstopped es)
    (hover : Lexer.Over b slice l') (he : e.stop? = some l'.position)
    (hfinishes : ∀ m : Lexer, m.state = .beforeData → m.buffer.unread = slice →
      ∃ gs, Lexer.Finishes resolve m gs ∧ Alike gs (fs ++ (es ++ [e]))) :
    ∃ t, a'.tokens = a.tokens.push t ∧ IsLocal resolve b.buffer.toList t := by
  obtain ⟨a₀, hcurrent, hpending, ha₀⟩ := h.made
  obtain ⟨kind, htokens, -, -⟩ := ha.completes hes he
  rw [htrack, if_pos rfl, ← h.start] at htokens
  refine ⟨_, htokens, _, slice, rfl, hover.covers h.placed, ?_⟩
  have hclean : '\r' ∉ slice := by
    intro hmem
    apply hreturn
    rw [Buffer.toList, hover.unread]
    simp [hmem]
  have hkind : a'.kinds = a₀.kinds ++ [kind] := by
    simp [Assembler.kinds, htokens, (ha₀.sameTokens h.unstopped).tokens]
  exact Tokenizer.tokenize_of_alike hclean hcurrent hpending (ha₀.trans ha) hkind hfinishes

/-! ## The invariant -/

/-- The lexer reads the text, and its complete tokens are local. -/
structure Reading (resolve : Resolver) (text : List Char) (l : Lexer) (a : Assembler) : Prop where
  whole : l.buffer.toList = text
  placed : l.buffer.Placed
  track : a.trackLocations = true
  fits : l.Fits a
  tokens : ∀ t ∈ a.tokens, IsLocal resolve text t
  begun : ∃ b fs, Begun resolve b fs l a

/-- Events that complete a token which is local where it stands alone. -/
theorem Reading.completed (h : Reading resolve text l a) (hreturn : '\r' ∉ text)
    (ha : a.Receives (es ++ [e]) a') (hes : Unstopped es)
    (hslice : ∀ b fs, b.state = .beforeData → Lexer.Steps resolve b fs l →
      ∃ slice l', Lexer.Over b slice l' ∧ e.stop? = some l'.position ∧
        ∀ m : Lexer, m.state = .beforeData → m.buffer.unread = slice →
          ∃ gs, Lexer.Finishes resolve m gs ∧ Alike gs (fs ++ (es ++ [e]))) :
    ∀ t ∈ a'.tokens, IsLocal resolve text t := by
  obtain ⟨b, fs, hbegun⟩ := h.begun
  obtain ⟨slice, l', hover, he, hfinishes⟩ := hslice b fs hbegun.between hbegun.steps
  have htext : b.buffer.toList = text := by rw [← hbegun.steps.toList, h.whole]
  rw [← htext] at hreturn
  obtain ⟨t, hpush, hlocal⟩ := hbegun.completes h.track hreturn ha hes hover he hfinishes
  rw [htext] at hlocal
  intro t' ht'
  rw [hpush, Array.mem_push] at ht'
  rcases ht' with ht' | rfl
  · exact h.tokens t' ht'
  · exact hlocal

/-- A token begins where nothing is under construction. -/
theorem Reading.of_idle (hwhole : l.buffer.toList = text) (hplaced : l.buffer.Placed)
    (htrack : a.trackLocations = true) (hfits : l.Fits a) (hidle : l.state.shape = .idle)
    (htokens : ∀ t ∈ a.tokens, IsLocal resolve text t) (hb : b.state = .beforeData)
    (hbplaced : b.buffer.Placed) (hstart : b.position = a.tokenStart)
    (hsteps : Lexer.Steps resolve b [] l) : Reading resolve text l a := by
  obtain ⟨hcurrent, hpending⟩ := hfits.idle hidle
  have hbegun : Begun resolve b [] l a :=
    ⟨hb, hbplaced, hstart, hsteps, .nil, a, hcurrent, hpending, .nil a⟩
  exact ⟨hwhole, hplaced, htrack, hfits, htokens, b, [], hbegun⟩

/-! ## Steps -/

/-- The last character of a token is taken. -/
theorem Reading.closes (h : Reading resolve text l a) (hreturn : '\r' ∉ text)
    (hstep : Lexer.Step resolve l (es ++ [e]) l') (hs : l'.state = .beforeData)
    (ha : a.Receives (es ++ [e]) a') (hes : Unstopped es) (he : e.stop? = some l'.position)
    (hplaced : l'.buffer.Placed) : Reading resolve text l' a' := by
  have hwhole : l'.buffer.toList = text := by
    rw [hstep.toList, h.whole]
  have htokens : ∀ t ∈ a'.tokens, IsLocal resolve text t := by
    apply h.completed hreturn ha hes
    intro b fs hb hsteps
    have hall := hsteps.trans (.single hstep)
    obtain ⟨slice, hover⟩ := hall.over
    refine ⟨slice, l', hover, he, ?_⟩
    intro m hm hunread
    have hcut : Lexer.Cut l'.buffer.unread b m := ⟨hm.trans hb.symm, by rw [hover.unread, hunread]⟩
    obtain ⟨gs, hfinishes, halike⟩ := hall.slice (Or.inl hs) hcut
    rw [hs, show State.ending .beforeData = [] from rfl, List.append_nil] at halike
    exact ⟨gs, hfinishes, halike⟩
  obtain ⟨kind, -, hstart, htrack⟩ := ha.completes hes he
  exact .of_idle hwhole hplaced (htrack.trans h.track) (h.fits.step hstep ha)
    (by rw [hs]; rfl) htokens hs hplaced hstart.symm (.refl l')

/-- A text run is complete before a character that opens a token. -/
theorem Reading.opens {c : Char} {rest : List Char} (h : Reading resolve text l a)
    (hreturn : '\r' ∉ text) (hunread : l.buffer.unread = c :: rest)
    (hstep : Lexer.Step resolve l [.finishChars l.position] l')
    (hs : l.state = .data ∧ c = '<' ∨ l.state = .possibleExpressionOpen)
    (hidle : l'.state.shape = .idle) (ha : a.Receives [.finishChars l.position] a')
    (hplaced : l'.buffer.Placed) : Reading resolve text l' a' := by
  have hwhole : l'.buffer.toList = text := by
    rw [hstep.toList, h.whole]
  have hreceives : a.Receives ([] ++ [.finishChars l.position]) a' := ha
  have htokens : ∀ t ∈ a'.tokens, IsLocal resolve text t := by
    apply h.completed hreturn hreceives .nil
    intro b fs hb hsteps
    obtain ⟨-, p, hpdata, hbuffer, hborder, hsteps'⟩ := hsteps.border_of_opens hb hs hunread
    obtain ⟨slice, hover⟩ := hsteps'.over
    have hposition : p.position = l.position := congrArg Buffer.position hbuffer
    refine ⟨slice, p, hover, ?_, ?_⟩
    · rw [hposition]
      rfl
    · intro m hm hslice
      have hcut : Lexer.Cut p.buffer.unread b m := ⟨hm.trans hb.symm, by rw [hover.unread, hslice]⟩
      obtain ⟨gs, hfinishes, halike⟩ := hsteps'.slice hborder hcut
      rw [hpdata] at halike
      refine ⟨gs, hfinishes, ?_⟩
      rw [Alike, halike, List.map_append, List.map_append]
      rfl
  obtain ⟨kind, -, hstart, htrack⟩ := hreceives.completes .nil rfl
  -- the same step begins the next token, from between the two
  obtain ⟨b, fs, hbegun⟩ := h.begun
  obtain ⟨hopens, -⟩ := hbegun.steps.border_of_opens hbegun.between hs hunread
  have hbegin := hstep.begins hopens hunread
  exact .of_idle hwhole hplaced (htrack.trans h.track) (h.fits.step hstep ha) hidle htokens
    (b := { l with state := .beforeData }) rfl h.placed hstart.symm (.single hbegin)

theorem Reading.step (h : Reading resolve text l a) (hreturn : '\r' ∉ text)
    (hstep : Lexer.Step resolve l es l') (ha : a.Receives es a') :
    Reading resolve text l' a' := by
  obtain ⟨c, rest, n, hunread, hn, hbuffer, heffect⟩ := hstep.effect
  have hplaced : l'.buffer.Placed := by
    rw [hbuffer]
    exact h.placed.advance n
  generalize hnext : l'.state = next at heffect
  cases heffect with
  | inside hes hbetween hdata hbrace =>
      obtain ⟨b, fs, hbegun⟩ := h.begun
      obtain ⟨htokens, -, htrack⟩ := ha.sameTokens hes
      have hwhole : l'.buffer.toList = text := by
        rw [hstep.toList, h.whole]
      have htokens' : ∀ t ∈ a'.tokens, IsLocal resolve text t := by
        rw [htokens]
        exact h.tokens
      exact ⟨hwhole, hplaced, htrack.trans h.track, h.fits.step hstep ha, htokens',
        b, fs ++ es, hbegun.step hstep hes ha⟩
  | closes hes he =>
      have hposition : l'.position = l.position.next c := by
        rw [Lexer.position, hbuffer]
        exact Buffer.position_advance_one hunread
      exact h.closes hreturn hstep hnext ha hes (hposition ▸ he) hplaced
  | opens hs hnext' =>
      have hidle : l'.state.shape = .idle := by
        rw [hnext]
        rcases hnext' with rfl | rfl <;> rfl
      exact h.opens hreturn hunread hstep hs hidle ha hplaced

theorem Reading.steps (h : Reading resolve text l a) (hreturn : '\r' ∉ text)
    (hsteps : Lexer.Steps resolve l es l') (ha : a.Receives es a') :
    Reading resolve text l' a' :=
  hsteps.keeps (fun h hstep ha => h.step hreturn hstep ha) ha h

/-- The end of the input completes a text run, with all the text that is left. -/
theorem Reading.flush (h : Reading resolve text l a) (hreturn : '\r' ∉ text)
    (hrest : Lexer.Halts resolve l l none) (ha : a.Receives l.flush.events a') :
    ∀ t ∈ a'.tokens, IsLocal resolve text t := by
  have hflush := Lexer.flushes_of_rest hrest
  generalize hevents : l.flush.events = es at hflush ha
  generalize l.flush.lexer = m at hflush
  cases hflush with
  | unfinished =>
      cases ha
      exact h.tokens
  | @completes n es hn hes htext =>
      apply h.completed hreturn ha hes
      intro b fs hb hsteps
      obtain ⟨slice, hover⟩ := hsteps.over
      have hall := hover.trans (Lexer.over_advance l n)
      refine ⟨_, _, hall, rfl, ?_⟩
      intro m hm hslice
      have hcut : Lexer.Cut [] b m := by
        refine ⟨hm.trans hb.symm, ?_⟩
        rw [hslice, hn, List.take_length, List.append_nil]
        exact hover.unread
      obtain ⟨gs, hfinishes, halike⟩ := hsteps.slice_rest hrest hcut
      rw [hevents] at halike
      exact ⟨gs, hfinishes, halike⟩

/-! ## Documents -/

/-- A document before its first character is read. -/
theorem reading_start (resolve : Resolver) (document : String) :
    Reading resolve (LineEnding.fold false document.toList) (Lexer.receive {} document)
      { trackLocations := true } := by
  have htext : (Lexer.receive {} document).buffer.toList =
      LineEnding.fold false document.toList := by
    rw [Lexer.receive, Lexer.toList_extend]
    rfl
  have hplaced : (Lexer.receive {} document).buffer.Placed := Buffer.placed_empty
  exact .of_idle htext hplaced rfl (Lexer.fits_start true) rfl (by simp)
    (b := Lexer.receive {} document) rfl hplaced rfl (.refl _)

namespace Tokenizer

/-- Every token of a document is local. -/
theorem isLocal_of_mem {document : String} {tokens : List Token}
    (h : ((ofOptions ⟨true⟩).tokenize resolve document).outcome = .ok tokens) :
    ∀ t ∈ tokens, IsLocal resolve (LineEnding.fold false document.toList) t := by
  obtain ⟨es, l, a, hsteps, hhalts, ha, rfl⟩ := reads_of_tokenize h
  obtain ⟨a₁, hfed, hflushed⟩ := ha.of_append
  have hreturn := LineEnding.return_notMem_fold false document.toList
  have hreading := (reading_start resolve document).steps hreturn hsteps hfed
  intro t ht
  exact hreading.flush hreturn hhalts hflushed t (Array.mem_toList_iff.mp ht)

/-- The slice that a token of a document covers is a document of that token alone. -/
theorem token_of_slice {document : String} {tokens : List Token} {t : Token}
    (h : ((ofOptions ⟨true⟩).tokenize resolve document).outcome = .ok tokens) (ht : t ∈ tokens) :
    ∃ span, t.span = some span ∧
      (∃ slice, span.Covers (LineEnding.fold false document.toList) slice) ∧
      ∀ slice, span.Covers (LineEnding.fold false document.toList) slice → ∀ options, ∃ span',
        ((ofOptions options).tokenize resolve (String.ofList slice)).outcome =
          .ok [⟨t.kind, span'⟩] := by
  obtain ⟨span, slice, hspan, hcovers, halone⟩ := isLocal_of_mem h t ht
  refine ⟨span, hspan, ⟨slice, hcovers⟩, ?_⟩
  intro slice' hcovers' options
  obtain rfl := hcovers.unique hcovers'
  exact halone options

/-- A brace before a tag, whose slice waits for one more character, and a tag with a reference. -/
theorem token_of_slice_brace :
    let tokens : List Token := [
      ⟨.chars "\x7b", some ⟨⟨1, 0⟩, ⟨1, 1⟩⟩⟩,
      ⟨.startTag "b" [⟨"c", ["<"], [], true⟩] false, some ⟨⟨1, 1⟩, ⟨1, 13⟩⟩⟩]
    ((ofOptions ⟨true⟩).tokenize Reference.standard "\x7b<b c='&lt;'>").outcome = .ok tokens ∧
      ∀ t ∈ tokens, ∃ slice span', ((ofOptions ⟨true⟩).tokenize Reference.standard slice).outcome =
        .ok [⟨t.kind, span'⟩] := by
  intro tokens
  have h : ((ofOptions ⟨true⟩).tokenize Reference.standard "\x7b<b c='&lt;'>").outcome =
      .ok tokens := by
    decide +kernel
  refine ⟨h, ?_⟩
  intro t ht
  obtain ⟨span, -, ⟨slice, hcovers⟩, halone⟩ := token_of_slice h ht
  exact ⟨_, halone slice hcovers ⟨true⟩⟩

end Tokenizer

end TemplateMarkup
