import TemplateMarkup.Proofs.Lexer.Values
import TemplateMarkup.Proofs.Tokenizer.Composition

/-!
# Comments in a document

A comment reaches to the first place that ends it (`comment_extent`). That need not be the first `-->`:
three dashes in a row are read as text and forgotten, so that the dashes that a text ends in count
against the end behind it (`comment_ends_at_first_iff`).
-/

namespace TemplateMarkup.Tokenizer

open Reference (standard)

variable {resolve : Resolver} {options : Options} {ks : List TokenKind} {w body : List Char}
  {e : Nat} {t text rest : String}

/-! ## The extent of a comment -/

/-- A comment in front of a document. -/
theorem verdict_of_comment (resolve : Resolver) (options : Options) (hends : CommentMayEnd w)
    (hgoes : ∀ e, ¬EndsComment w e) (hreturn : '\r' ∉ w) (rest : List Char) :
    verdict resolve options ("<!--" ++ String.ofList (w ++ '>' :: rest)) =
      (verdict resolve options (String.ofList rest)).map (.comment (commentText w) :: ·) := by
  have hspells := (Lexer.spells_comment_of_ends resolve hends hgoes).tag
  have hsource : "<!--" ++ String.ofList (w ++ '>' :: rest) =
      String.ofList ('<' :: (['!', '-', '-'] ++ w ++ ['>'])) ++ String.ofList rest := by
    rw [← String.toList_inj]
    simp
  rw [hsource]
  exact verdict_append hspells (by simpa using hreturn) options _

/-- The first place that ends a comment, and what follows it. -/
theorem verdict_of_endsComment (resolve : Resolver) (options : Options) (hends : EndsComment body e)
    (hfirst : ∀ i < e, ¬EndsComment body i) (hreturn : '\r' ∉ body) :
    CommentMayEnd (body.take e) ∧
      verdict resolve options ("<!--" ++ String.ofList body) =
        (verdict resolve options (String.ofList (body.drop (e + 1)))).map
          (.comment (commentText (body.take e)) :: ·) := by
  obtain ⟨w, rest, rfl, rfl, hmay⟩ := hends.split
  have hgoes := not_endsComment_of_append hfirst
  have hclean : '\r' ∉ w := fun h => hreturn (List.mem_append_left _ h)
  have hbefore : (w ++ '>' :: rest).take w.length = w := by simp
  have hbehind : (w ++ '>' :: rest).drop (w.length + 1) = rest := by simp
  rw [hbefore, hbehind]
  exact ⟨hmay, verdict_of_comment resolve options hmay hgoes hclean rest⟩

/-- A comment that nothing ends takes the document with it. -/
theorem verdict_of_openComment (options : Options) (hgoes : ∀ e, ¬EndsComment body e)
    (hreturn : '\r' ∉ body) :
    verdict resolve options ("<!--" ++ String.ofList body) = .ok [] := by
  have hsource : "<!--" ++ String.ofList body =
      String.ofList ('<' :: (['!', '-', '-'] ++ body)) := by
    rw [← String.toList_inj]
    simp
  have hunread := Lexer.unread_receive_of_notMem (w := '<' :: (['!', '-', '-'] ++ body))
    (by simpa using hreturn)
  rw [hsource, verdict_eq_ok_iff]
  obtain ⟨l', hopen, hl', hunread'⟩ := Lexer.opens_tag resolve (.inl rfl) hunread
  obtain ⟨pieces, hfinishes⟩ := Lexer.finishes_comment resolve hgoes hl' hunread'
  rw [Lexer.owed_of_beforeData rfl] at hopen
  refine kinds_of_unstopped (hopen.finishes hfinishes) ?_ options
  simp [Unstopped, Event.stop?]

/-- **The extent of a comment.** It reaches to the first place that ends it, and what follows there is
read as if it stood alone. Without such a place nothing comes of the document. -/
theorem comment_extent (resolve : Resolver) (options : Options) (hreturn : '\r' ∉ body) :
    (∀ e, EndsComment body e → (∀ i < e, ¬EndsComment body i) →
      verdict resolve options ("<!--" ++ String.ofList body) =
        (verdict resolve options (String.ofList (body.drop (e + 1)))).map
          (.comment (commentText (body.take e)) :: ·)) ∧
    ((∀ e, ¬EndsComment body e) →
      verdict resolve options ("<!--" ++ String.ofList body) = .ok []) := by
  constructor
  · intro e hends hfirst
    exact (verdict_of_endsComment resolve options hends hfirst hreturn).2
  · intro hgoes
    exact verdict_of_openComment options hgoes hreturn

/-- Three dashes in front of a `>` do not end a comment, so that it reaches to the next `-->`, and the
error behind it is found there. With no other `-->` there is nothing. -/
theorem comment_extent_threeDashes :
    let body := "- ---> -->\x7b\x7ba\x7db".toList
    '\r' ∉ body ∧ EndsComment body 9 ∧ (∀ i < 9, ¬EndsComment body i) ∧
      verdict standard ⟨true⟩ ("<!--" ++ String.ofList body) =
        .error (some (.unpairedBrace 'b')) ∧
      '\r' ∉ "--->".toList ∧ (∀ e, ¬EndsComment "--->".toList e) ∧
      verdict standard ⟨true⟩ ("<!--" ++ String.ofList "--->".toList) = .ok [] := by
  intro body
  have hreturn : '\r' ∉ body := by decide
  have hends : EndsComment body 9 := by decide
  have hfirst : ∀ i < 9, ¬EndsComment body i := by decide
  have hrest : verdict standard ⟨true⟩ (String.ofList (body.drop 10)) =
      .error (some (.unpairedBrace 'b')) := by
    decide +kernel
  have hwhole := (comment_extent standard ⟨true⟩ hreturn).1 9 hends hfirst
  rw [hrest] at hwhole
  have hnone : ∀ e, ¬EndsComment "--->".toList e := by
    intro e h
    have hlt := h.lt_length
    revert h
    revert e
    decide
  exact ⟨hreturn, hends, hfirst, hwhole, by decide, hnone,
    (comment_extent standard ⟨true⟩ (by decide)).2 hnone⟩

/-! ## The first end -/

/-- The text of a comment at the beginning of a document ends in a multiple of three dashes, or in
none. -/
theorem mod_trailingDashes_of_kinds {document : String}
    (h : kinds resolve options ("<!--" ++ document) = .ok (.comment text :: ks)) :
    trailingDashes text.toList % 3 = 0 := by
  have hclean : '\r' ∉ LineEnding.fold false document.toList := LineEnding.return_notMem_fold _ _
  rw [← verdict_eq_ok_iff, ← verdict_normalize, LineEnding.normalize_append (by decide),
    LineEnding.normalize] at h
  generalize LineEnding.fold false document.toList = body at h hclean
  by_cases hend : ∃ e, EndsComment body e
  · obtain ⟨hmay, hwhole⟩ := verdict_of_endsComment resolve options (Nat.find_spec hend)
      (fun i hi => Nat.find_min hend hi) hclean
    rw [h] at hwhole
    cases hrest : verdict resolve options (String.ofList (body.drop (Nat.find hend + 1))) with
    | error cause =>
        rw [hrest] at hwhole
        cases hwhole
    | ok later =>
        rw [hrest] at hwhole
        obtain ⟨rfl, -⟩ : text = commentText (body.take (Nat.find hend)) ∧ ks = later := by
          simpa [Except.map] using hwhole
        exact mod_trailingDashes_commentText hmay
  · rw [verdict_of_openComment options (not_exists.mp hend) hclean] at h
    cases h

/-- **The first `-->`.** A text up to there is the text of the comment exactly if the number of dashes
that it ends in is a multiple of three. -/
theorem comment_ends_at_first_iff (resolve : Resolver) (options : Options) (hreturn : '\r' ∉ t.toList)
    (hstart : ¬['>'] <+: t.toList) (hdash : ¬['-', '>'] <+: t.toList)
    (hfirst : ∀ i < t.toList.length, ¬['-', '-', '>'] <+: (t ++ "-->").toList.drop i)
    (hrest : kinds resolve options rest = .ok ks) :
    kinds resolve options ("<!--" ++ t ++ "-->" ++ rest) = .ok (.comment t :: ks) ↔
      trailingDashes t.toList % 3 = 0 := by
  constructor
  · intro h
    rw [String.append_assoc, String.append_assoc] at h
    exact mod_trailingDashes_of_kinds h
  · intro hmod
    have hends : CommentMayEnd (t.toList ++ ['-', '-']) := by
      refine .inl ?_
      rw [trailingDashes_append_dashes]
      omega
    have hinside : ¬['-', '-', '>'] <:+: t.toList := by
      refine not_infix_of_first fun i hi => ?_
      simpa using hfirst i hi
    have hwhole := verdict_of_comment resolve options hends
      (not_endsComment_of_inside hstart hdash hinside) (by simpa using hreturn) rest.toList
    have hsource : "<!--" ++ t ++ "-->" ++ rest =
        "<!--" ++ String.ofList (t.toList ++ ['-', '-'] ++ '>' :: rest.toList) := by
      rw [← String.toList_inj]
      simp
    rw [← verdict_eq_ok_iff] at hrest ⊢
    rw [hsource, hwhole, String.ofList_toList, hrest, commentText_append_dashes hmod,
      String.ofList_toList]
    rfl

/-- Dashes inside the text, and three of them in front of the end. -/
theorem comment_ends_at_first_iff_threeDashes :
    let t := "- ->a--b ---"
    '\r' ∉ t.toList ∧ ¬['>'] <+: t.toList ∧ ¬['-', '>'] <+: t.toList ∧
      (∀ i < t.toList.length, ¬['-', '-', '>'] <+: (t ++ "-->").toList.drop i) ∧
      kinds standard ⟨false⟩ "\x7b\x7bc\x7d\x7d" = .ok [.startExpression "c" [] false] ∧
      kinds standard ⟨false⟩ ("<!--" ++ t ++ "-->" ++ "\x7b\x7bc\x7d\x7d") =
        .ok [.comment t, .startExpression "c" [] false] := by
  intro t
  have hrest : kinds standard ⟨false⟩ "\x7b\x7bc\x7d\x7d" =
      .ok [.startExpression "c" [] false] := by
    decide +kernel
  have hreturn : '\r' ∉ t.toList := by decide
  have hstart : ¬['>'] <+: t.toList := by decide
  have hdash : ¬['-', '>'] <+: t.toList := by decide
  have hfirst : ∀ i < t.toList.length, ¬['-', '-', '>'] <+: (t ++ "-->").toList.drop i := by decide
  exact ⟨hreturn, hstart, hdash, hfirst, hrest,
    (comment_ends_at_first_iff standard ⟨false⟩ hreturn hstart hdash hfirst hrest).mpr (by decide)⟩

/-- A dash in front of the first `-->` hides it. -/
theorem comment_passes_first :
    ¬ ∀ (t rest : String) (ks : List TokenKind), '\r' ∉ t.toList → ¬['>'] <+: t.toList →
      ¬['-', '>'] <+: t.toList →
        (∀ i < t.toList.length, ¬['-', '-', '>'] <+: (t ++ "-->").toList.drop i) →
          kinds standard ⟨false⟩ rest = .ok ks →
            kinds standard ⟨false⟩ ("<!--" ++ t ++ "-->" ++ rest) = .ok (.comment t :: ks) := by
  intro h
  have hrest : kinds standard ⟨false⟩ "b" = .ok [.chars "b"] := by decide +kernel
  have hwhole := h " a -" "b" _ (by decide) (by decide) (by decide) (by decide) hrest
  have hnone : kinds standard ⟨false⟩ ("<!--" ++ " a -" ++ "-->" ++ "b") = .ok [] := by
    decide +kernel
  rw [hnone] at hwhole
  cases hwhole

end TemplateMarkup.Tokenizer
