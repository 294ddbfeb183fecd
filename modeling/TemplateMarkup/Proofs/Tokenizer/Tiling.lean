import TemplateMarkup.Proofs.Lexer.Stops
import TemplateMarkup.Proofs.Tokenizer.Session

/-!
# Spans tile the document

The first token starts where the document does, each further one where the one before it stops, and
none is empty (`spans_tile`). The invariant (`Tiled`) says up to which offset the complete tokens
reach: no farther than the cursor, exactly to the cursor between two tokens, and short of the cursor
in a text run that is about to be complete.
-/

namespace TemplateMarkup

open Position (atOffset)

/-! ## Tilings -/

/-- The spans of the tokens follow on each other from the offset `lo` to the offset `hi`. -/
def Tiles (text : List Char) : Nat → List Token → Nat → Prop
  | lo, [], hi => lo = hi
  | lo, t :: ts, hi =>
      ∃ k, lo < k ∧ k ≤ text.length ∧ t.span = some ⟨atOffset text lo, atOffset text k⟩ ∧
        Tiles text k ts hi

section Tiles

variable {text : List Char} {lo hi k : Nat} {ts : List Token}

theorem Tiles.snoc (h : Tiles text lo ts hi) (hk : hi < k) (hlength : k ≤ text.length)
    (kind : TokenKind) :
    Tiles text lo (ts ++ [⟨kind, some ⟨atOffset text hi, atOffset text k⟩⟩]) k := by
  induction ts generalizing lo with
  | nil =>
      obtain rfl : lo = hi := h
      exact ⟨k, hk, hlength, rfl, rfl⟩
  | cons t ts ih =>
      obtain ⟨j, hj, hjlength, hspan, hrest⟩ := h
      exact ⟨j, hj, hjlength, hspan, ih hrest⟩

/-- More text moves no offset. -/
theorem Tiles.append (h : Tiles text lo ts hi) (hlo : lo ≤ text.length) (more : List Char) :
    Tiles (text ++ more) lo ts hi := by
  induction ts generalizing lo with
  | nil => exact h
  | cons t ts ih =>
      obtain ⟨k, hk, hlength, hspan, hrest⟩ := h
      refine ⟨k, hk, ?_, ?_, ih hrest hlength⟩
      · rw [List.length_append]
        omega
      · rw [Position.atOffset_append hlo, Position.atOffset_append hlength, hspan]

/-- The offsets at which the tokens stop. -/
theorem Tiles.offsets (h : Tiles text lo ts hi) :
    ∃ stops : List Nat, (lo :: stops).Pairwise (· < ·) ∧ (∀ k ∈ stops, k ≤ text.length) ∧
      ts.map Token.span =
        List.zipWith (fun i j => some ⟨atOffset text i, atOffset text j⟩) (lo :: stops) stops ∧
      (lo :: stops).getLast? = some hi ∧ stops.length = ts.length := by
  induction ts generalizing lo with
  | nil =>
      obtain rfl : lo = hi := h
      exact ⟨[], by simp, by simp, rfl, rfl, rfl⟩
  | cons t ts ih =>
      obtain ⟨k, hk, hlength, hspan, hrest⟩ := h
      obtain ⟨stops, hsorted, hbound, hspans, hlast, hcount⟩ := ih hrest
      refine ⟨k :: stops, ?_, ?_, ?_, ?_, ?_⟩
      · rw [List.pairwise_cons]
        refine ⟨?_, hsorted⟩
        intro j hj
        rcases List.mem_cons.mp hj with rfl | hj
        · exact hk
        · exact hk.trans (List.rel_of_pairwise_cons hsorted hj)
      · intro j hj
        rcases List.mem_cons.mp hj with rfl | hj
        · exact hlength
        · exact hbound j hj
      · rw [List.map_cons, hspan, hspans]
        rfl
      · rw [List.getLast?_cons_cons]
        exact hlast
      · rw [List.length_cons, List.length_cons, hcount]

/-- No token of a tiling is empty. -/
theorem Tiles.span_ne (h : Tiles text lo ts hi) :
    ∀ t ∈ ts, ∃ s, t.span = some s ∧ s.start ≠ s.stop := by
  induction ts generalizing lo with
  | nil => simp
  | cons t ts ih =>
      obtain ⟨k, hk, hlength, hspan, hrest⟩ := h
      intro t' ht'
      rcases List.mem_cons.mp ht' with rfl | ht'
      · exact ⟨_, hspan, (Position.atOffset_before hk hlength).ne⟩
      · exact ih hrest t' ht'

end Tiles

/-! ## The invariant -/

/-- The complete tokens of `a` tile the text that `l` has read, up to the offset `k`. -/
structure Tiled (l : Lexer) (a : Assembler) (k : Nat) : Prop where
  track : a.trackLocations = true
  placed : l.buffer.Placed
  tiles : Tiles l.buffer.toList 0 a.tokens.toList k
  start : a.tokenStart = atOffset l.buffer.toList k
  reach : k ≤ l.buffer.index
  between : l.state = .beforeData → k = l.buffer.index
  /-- A text run begins with a character that neither ends it nor may end it. -/
  data : l.state = .data →
    k < l.buffer.index ∨ ∃ c rest, l.buffer.unread = c :: rest ∧ c ≠ '<' ∧ c ≠ '\x7b'
  brace : l.state = .possibleExpressionOpen → k < l.buffer.index

theorem tiled_start : Tiled {} { trackLocations := true } 0 where
  track := rfl
  placed := Buffer.placed_empty
  tiles := rfl
  start := rfl
  reach := Nat.le_refl 0
  between _ := rfl
  data h := by cases h
  brace h := by cases h

variable {resolve : Resolver} {l l' : Lexer} {a a' : Assembler} {k n : Nat} {es : List Event}

/-- The cursor moves over `n` characters, and no token is completed. -/
theorem Tiled.moved (h : Tiled l a k) (hsame : a.SameTokens a')
    (hn : n ≤ l.buffer.unread.length) (hbuffer : l'.buffer = l.buffer.advance n)
    (hbetween : l'.state = .beforeData → k = l.buffer.index + n)
    (hdata : l'.state = .data → k < l.buffer.index + n ∨
      n = 0 ∧ ∃ c rest, l.buffer.unread = c :: rest ∧ c ≠ '<' ∧ c ≠ '\x7b')
    (hbrace : l'.state = .possibleExpressionOpen → k < l.buffer.index + n) : Tiled l' a' k where
  track := hsame.trackLocations.trans h.track
  placed := by
    rw [hbuffer]
    exact h.placed.advance n
  tiles := by
    rw [hbuffer, Buffer.toList_advance, hsame.tokens]
    exact h.tiles
  start := by
    rw [hbuffer, Buffer.toList_advance, hsame.tokenStart]
    exact h.start
  reach := by
    rw [hbuffer, Buffer.index_advance _ hn]
    exact h.reach.trans (Nat.le_add_right _ _)
  between := by
    rw [hbuffer, Buffer.index_advance _ hn]
    exact hbetween
  data := by
    intro hs
    rw [hbuffer, Buffer.index_advance _ hn]
    rcases hdata hs with hk | ⟨rfl, hhead⟩
    · exact Or.inl hk
    · exact Or.inr hhead
  brace := by
    rw [hbuffer, Buffer.index_advance _ hn]
    exact hbrace

/-- The cursor moves over `n` characters, and a token is completed that reaches to the offset
`stop`. -/
theorem Tiled.completed {e : Event} {stop : Nat} (h : Tiled l a k)
    (ha : a.Receives (es ++ [e]) a') (hes : Unstopped es)
    (he : e.stop? = some (atOffset l.buffer.toList stop)) (hk : k < stop)
    (hstop : stop ≤ l.buffer.index + n) (hn : n ≤ l.buffer.unread.length)
    (hbuffer : l'.buffer = l.buffer.advance n)
    (hbetween : l'.state = .beforeData → stop = l.buffer.index + n)
    (hdata : l'.state ≠ .data) (hbrace : l'.state ≠ .possibleExpressionOpen) :
    Tiled l' a' stop := by
  obtain ⟨kind, htokens, hstart, htrack⟩ := ha.completes hes he
  have hlength : stop ≤ l.buffer.toList.length := by
    rw [Buffer.length_toList]
    omega
  constructor
  case track => exact htrack.trans h.track
  case placed =>
    rw [hbuffer]
    exact h.placed.advance n
  case tiles =>
    rw [hbuffer, Buffer.toList_advance, htokens, Array.toList_push, h.track, h.start]
    exact h.tiles.snoc hk hlength kind
  case start => rw [hbuffer, Buffer.toList_advance, hstart]
  case reach =>
    rw [hbuffer, Buffer.index_advance _ hn]
    exact hstop
  case between =>
    rw [hbuffer, Buffer.index_advance _ hn]
    exact hbetween
  case data =>
    intro hs
    exact absurd hs hdata
  case brace =>
    intro hs
    exact absurd hs hbrace

/-- More text behind what is unread changes nothing. -/
theorem Tiled.receive (h : Tiled l a k) (text : String) : Tiled (l.receive text) a k := by
  have hlength : k ≤ l.buffer.toList.length := by
    rw [Buffer.length_toList]
    exact h.reach.trans (Nat.le_add_right _ _)
  refine ⟨h.track, h.placed.push _, ?_, ?_, h.reach, h.between, ?_, h.brace⟩
  · rw [Lexer.receive, Lexer.toList_extend]
    exact h.tiles.append (Nat.zero_le _) _
  · rw [Lexer.receive, Lexer.toList_extend, Position.atOffset_append hlength, h.start]
  · intro hs
    rcases h.data hs with hk | ⟨c, rest, hunread, hc⟩
    · exact Or.inl hk
    · right
      refine ⟨c, rest ++ LineEnding.fold l.afterReturn text.toList, ?_, hc⟩
      rw [Lexer.receive, Lexer.unread_extend, hunread, List.cons_append]

/-! ## Steps and sessions -/

theorem Tiled.step (h : Tiled l a k) (hstep : Lexer.Step resolve l es l')
    (ha : a.Receives es a') : ∃ k', Tiled l' a' k' := by
  obtain ⟨c, rest, n, hunread, hn, hbuffer, heffect⟩ := hstep.effect
  generalize hnext : l'.state = next at heffect
  cases heffect with
  | inside hes hbetween hdata hbrace =>
      refine ⟨k, h.moved (ha.sameTokens hes) hn hbuffer ?_ ?_ ?_⟩
      · intro hs
        exact absurd (hnext.symm.trans hs) hbetween
      · intro hs
        rcases hdata (hnext.symm.trans hs) with hpos | ⟨hs', hc⟩
        · exact Or.inl (h.reach.trans_lt (Nat.lt_add_of_pos_right hpos))
        · rcases Nat.eq_zero_or_pos n with rfl | hpos
          · exact Or.inr ⟨rfl, c, rest, hunread, hc⟩
          · exact Or.inl (h.reach.trans_lt (Nat.lt_add_of_pos_right hpos))
      · intro hs
        obtain ⟨hs', rfl, -⟩ := hbrace (hnext.symm.trans hs)
        rcases h.data hs' with hk | ⟨d, ds, hunread', -, hd⟩
        · exact Nat.lt_add_right n hk
        · rw [hunread] at hunread'
          exact absurd (List.cons.inj hunread').1.symm hd
  | closes hes he =>
      have hstop : l.position.next c = atOffset l.buffer.toList (l.buffer.index + 1) := by
        rw [h.placed.atOffset_advance hn, Buffer.position_advance_one hunread]
        rfl
      rw [hstop] at he
      refine ⟨l.buffer.index + 1, h.completed ha hes he ?_ (Nat.le_refl _) hn hbuffer ?_ ?_ ?_⟩
      · exact Nat.lt_succ_of_le h.reach
      · intro _
        rfl
      · simp [hnext]
      · simp [hnext]
  | @opens m next hs hnext' =>
      have hstop : l.position = atOffset l.buffer.toList l.buffer.index := h.placed.atOffset.symm
      have hk : k < l.buffer.index := by
        rcases hs with ⟨hs, rfl⟩ | hs
        · rcases h.data hs with hk | ⟨d, ds, hunread', hd, -⟩
          · exact hk
          · rw [hunread] at hunread'
            exact absurd (List.cons.inj hunread').1.symm hd
        · exact h.brace hs
      have hreceives : a.Receives ([] ++ [.finishChars l.position]) a' := ha
      have hs' : l'.state = .tagOpen ∨ l'.state = .expressionOpen := hnext ▸ hnext'
      refine ⟨l.buffer.index, h.completed hreceives .nil (congrArg some hstop) hk
        (Nat.le_add_right _ _) hn hbuffer ?_ ?_ ?_⟩
      all_goals rcases hs' with hs' | hs' <;> simp [hs']

/-- The end of the input completes the text run that the lexer is in. -/
theorem Tiled.flush (h : Tiled l a k) (hrest : Lexer.Halts resolve l l none)
    (ha : a.Receives l.flush.events a') : ∃ k', Tiled l.flush.lexer a' k' := by
  have hflush := Lexer.flushes_of_rest hrest
  generalize l.flush.events = es, l.flush.lexer = m at hflush ha ⊢
  cases hflush with
  | @unfinished n hn hs hbetween =>
      cases ha
      refine ⟨k, h.moved (.refl a) (Nat.le_of_eq hn) rfl ?_ ?_ ?_⟩
      · intro hs'
        rw [hbetween hs', h.between hs']
        rfl
      · intro hs'
        exact absurd hs' hs
      · intro hs'
        exact Nat.lt_add_right n (h.brace hs')
  | @completes n es hn hes htext =>
      have hlast := h.placed.atOffset_advance (Nat.le_of_eq hn)
      have hk : k < l.buffer.index + n := by
        rcases htext with hs | hpos
        · rcases h.data hs with hk | ⟨c, rest, hunread, -⟩
          · exact Nat.lt_add_right n hk
          · have hpos : 0 < n := by simp [hn, hunread]
            exact h.reach.trans_lt (Nat.lt_add_of_pos_right hpos)
        · exact h.reach.trans_lt (Nat.lt_add_of_pos_right hpos)
      rw [← hlast] at ha
      exact ⟨_, h.completed ha hes rfl hk (Nat.le_refl _) (Nat.le_of_eq hn) rfl (fun _ => rfl)
        (by simp) (by simp)⟩

theorem Tiled.session {earlier : List String} {calls : List Call} (h : Tiled l a k)
    (hread : Lexer.HasRead resolve earlier l) (he : (l.session resolve calls).error? = none)
    (ha : a.Receives (l.session resolve calls).events a') :
    ∃ k', Tiled (l.session resolve calls).lexer a' k' := by
  apply hread.keeps (P := fun l a => ∃ k, Tiled l a k) ?_ ?_ ?_ he ha ⟨k, h⟩
  · rintro l a text ⟨k, h⟩
    exact ⟨k, h.receive text⟩
  · rintro l l' a a' es ⟨k, h⟩ hstep ha
    exact h.step hstep ha
  · rintro l a a' ⟨k, h⟩ hrest ha
    exact h.flush hrest ha

/-! ## The spans of a session -/

/-- The tokens of a session that ends with the input tile its text: `stops` are the offsets at which
they stop. They reach the end of the text if the lexer is between two tokens then. -/
theorem Tokenizer.spans_tile {calls : List Call} {tokens : List Token}
    (h : ((ofOptions ⟨true⟩).session resolve (calls ++ [.eof])).outcome = .ok tokens) :
    let text := LineEnding.fold false (String.join (calls.map Call.text)).toList
    let last := ((ofOptions ⟨true⟩).session resolve (calls ++ [.eof])).tokenizer.lexer
    ∃ stops : List Nat,
      (0 :: stops).Pairwise (· < ·) ∧ (∀ k ∈ stops, k ≤ text.length) ∧
        stops.length = tokens.length ∧
        tokens.map Token.span =
          List.zipWith (fun i j => some ⟨atOffset text i, atOffset text j⟩) (0 :: stops) stops ∧
        (∀ t ∈ tokens, ∃ s, t.span = some s ∧ s.start ≠ s.stop) ∧
        (last.state = .beforeData →
          (0 :: stops).getLast? = some text.length ∧ (tokens = [] → text = [])) := by
  intro text last
  have hready := ready_ofOptions ⟨true⟩
  have he := error?_of_outcome hready h
  obtain ⟨a, ha, hout, htokenizer⟩ := session_of_ok hready he
  obtain rfl : a.tokens.toList = tokens := Except.ok.inj (hout.symm.trans h)
  have hread := Lexer.hasRead_nil.session he
  have htext : (Lexer.session resolve {} (calls ++ [.eof])).lexer.buffer.toList = text := by
    simp [text, hread.text, Call.text]
  have hlast : last = (Lexer.session resolve {} (calls ++ [.eof])).lexer := by
    simp only [last, htokenizer]
    rfl
  obtain ⟨k, htiled⟩ := tiled_start.session Lexer.hasRead_nil he ha
  have htiles := htiled.tiles
  rw [htext] at htiles
  obtain ⟨stops, hsorted, hbound, hspans, hk, hcount⟩ := htiles.offsets
  refine ⟨stops, hsorted, hbound, hcount, hspans, htiles.span_ne, ?_⟩
  intro hs
  have hend : k = text.length := by
    have hunread := Lexer.hasRead_nil.unread_session he
    rw [htiled.between (hlast ▸ hs), ← htext, Buffer.length_toList, hunread]
    rfl
  refine ⟨hend ▸ hk, ?_⟩
  intro hnil
  rw [hnil] at htiles
  have hzero : 0 = k := htiles
  exact List.length_eq_zero_iff.mp (by omega)

/-- Three tokens, of which the first and the last are completed by an end of the input. -/
theorem Tokenizer.spans_tile_flushed :
    let calls : List Call := [.part "a\r", .eof, .part "\n<b c='&am", .part "p;'>\x7b"]
    let tokens : List Token := [
      ⟨.chars "a\n", some ⟨⟨1, 0⟩, ⟨2, 0⟩⟩⟩,
      ⟨.startTag "b" [⟨"c", ["&amp;"], [], true⟩] false, some ⟨⟨2, 0⟩, ⟨2, 13⟩⟩⟩,
      ⟨.chars "\x7b", some ⟨⟨2, 13⟩, ⟨2, 14⟩⟩⟩]
    let text := LineEnding.fold false (String.join (calls.map Call.text)).toList
    ((ofOptions ⟨true⟩).session Reference.standard (calls ++ [.eof])).outcome = .ok tokens ∧
      ∃ stops : List Nat, (0 :: stops).Pairwise (· < ·) ∧ stops.length = 3 ∧
        tokens.map Token.span =
          List.zipWith (fun i j => some ⟨atOffset text i, atOffset text j⟩) (0 :: stops) stops := by
  intro calls tokens text
  have h : ((ofOptions ⟨true⟩).session Reference.standard (calls ++ [.eof])).outcome =
      .ok tokens := by
    decide +kernel
  obtain ⟨stops, hsorted, -, hcount, hspans, -⟩ := spans_tile h
  exact ⟨h, stops, hsorted, hcount, hspans⟩

end TemplateMarkup
