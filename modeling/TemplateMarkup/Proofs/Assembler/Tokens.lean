import TemplateMarkup.Proofs.Assembler.Shape

/-!
# What an event does to the tokens

Only an event that stops a construct completes a token, and it completes one. The tokens that are
complete have no influence on anything: they may be taken away at any time (`Receives.behind`).
-/

namespace TemplateMarkup

/-- The position that a closing event carries. -/
def Event.stop? : Event → Option Position
  | .finishChars stop => some stop
  | .finishComment stop => some stop
  | .finishTag stop => some stop
  | .finishExpression stop => some stop
  | _ => none

/-- No event of the list completes a token. -/
def Unstopped (es : List Event) : Prop :=
  ∀ e ∈ es, e.stop? = none

theorem Unstopped.nil : Unstopped [] := by
  intro e he
  cases he

theorem Unstopped.append {es es' : List Event} (h : Unstopped es) (h' : Unstopped es') :
    Unstopped (es ++ es') := by
  intro e he
  rcases List.mem_append.mp he with he | he
  · exact h e he
  · exact h' e he

namespace Assembler

variable {σ τ : Shape} {a a' : Assembler} {e : Event} {es es' : List Event}

theorem receiveAll_cons :
    a.receiveAll (e :: es) = (a.receive e).bind fun a' => a'.receiveAll es := rfl

theorem receiveAll_cons_of_ok (h : a.receive e = .ok a') :
    a.receiveAll (e :: es) = a'.receiveAll es := by
  rw [receiveAll_cons, h]
  rfl

theorem receiveAll_append :
    a.receiveAll (es ++ es') = (a.receiveAll es).bind fun a' => a'.receiveAll es' :=
  List.foldlM_append

theorem receiveAll_append_of_ok (h : a.receiveAll es = .ok a') :
    a.receiveAll (es ++ es') = a'.receiveAll es' := by
  rw [receiveAll_append, h]
  rfl

/-! ## Completing a token -/

theorem receive_of_stop {stop : Position} (he : e.stop? = some stop) :
    a.receive e = .ok (a.complete stop) := by
  cases e <;> cases he <;> rfl

theorem complete_of_some {kind : TokenKind} (h : a.current = some kind) (stop : Position) :
    a.complete stop =
      { a with
        tokens := a.tokens.push
          ⟨kind, if a.trackLocations then some ⟨a.tokenStart, stop⟩ else none⟩
        current := none
        tokenStart := stop } := by
  simp [complete, h]

/-- What every event that completes nothing leaves as it is. -/
structure SameTokens (a a' : Assembler) : Prop where
  tokens : a'.tokens = a.tokens
  tokenStart : a'.tokenStart = a.tokenStart
  trackLocations : a'.trackLocations = a.trackLocations

theorem SameTokens.refl (a : Assembler) : SameTokens a a := ⟨rfl, rfl, rfl⟩

theorem SameTokens.trans {a₁ a₂ a₃ : Assembler} (h : SameTokens a₁ a₂) (h' : SameTokens a₂ a₃) :
    SameTokens a₁ a₃ :=
  ⟨h'.tokens.trans h.tokens, h'.tokenStart.trans h.tokenStart,
    h'.trackLocations.trans h.trackLocations⟩

theorem sameTokens_of_edit {f : TokenKind → Except Misuse TokenKind} (h : a.edit f = .ok a') :
    SameTokens a a' := by
  unfold edit at h
  split at h
  · cases h
    exact .refl a
  · rename_i kind hcurrent
    cases hf : f kind with
    | error m => simp [hf, Except.map] at h
    | ok kind' =>
        simp only [hf, Except.map, Except.ok.injEq] at h
        subst h
        exact ⟨rfl, rfl, rfl⟩

theorem sameTokens_of_receive (h : a.receive e = .ok a') (he : e.stop? = none)
    (hreset : e ≠ .reset) : SameTokens a a' := by
  cases e with
  | reset => exact absurd rfl hreset
  | finishChars => cases he
  | finishComment => cases he
  | finishTag => cases he
  | finishExpression => cases he
  | appendChars => exact sameTokens_of_edit h
  | appendComment => exact sameTokens_of_edit h
  | appendTagName => exact sameTokens_of_edit h
  | markSelfClosing => exact sameTokens_of_edit h
  | appendExpressionName => exact sameTokens_of_edit h
  | beginExpressionAttribute => exact sameTokens_of_edit h
  | appendExpressionAttributeName => exact sameTokens_of_edit h
  | beginExpressionAttributeValue => exact sameTokens_of_edit h
  | appendExpressionAttributeValue => exact sameTokens_of_edit h
  | finishAttributeValue =>
      simp only [receive, closeAttribute] at h
      split at h
      · cases h
        exact .refl a
      · obtain ⟨htokens, hstart, htrack⟩ := sameTokens_of_edit h
        exact ⟨htokens, hstart, htrack⟩
  | _ =>
      cases h
      exact ⟨rfl, rfl, rfl⟩

theorem sameTokens_of_receiveAll (h : a.receiveAll es = .ok a') (hes : Unstopped es)
    (hreset : .reset ∉ es) : SameTokens a a' := by
  induction es generalizing a with
  | nil =>
      cases h
      exact .refl _
  | cons e es ih =>
      cases ha : a.receive e with
      | error m =>
          rw [receiveAll_cons, ha] at h
          cases h
      | ok a₁ =>
          rw [receiveAll_cons_of_ok ha] at h
          have hfirst := sameTokens_of_receive ha (hes e (by simp)) (by rintro rfl; simp at hreset)
          exact hfirst.trans
            (ih h (fun e he => hes e (by simp [he])) (fun he => hreset (by simp [he])))

theorem Receives.sameTokens (h : a.Receives es a') (hes : Unstopped es) : SameTokens a a' :=
  sameTokens_of_receiveAll h.receiveAll hes h.reset_notMem

theorem Receives.of_append (h : a.Receives (es ++ es') a') :
    ∃ a₁, a.Receives es a₁ ∧ a₁.Receives es' a' := by
  induction es generalizing a with
  | nil => exact ⟨a, .nil a, h⟩
  | cons e es ih =>
      cases h with
      | cons hholds hσ ha later =>
          obtain ⟨a₁, hes, hes'⟩ := ih later
          exact ⟨a₁, .cons hholds hσ ha hes, hes'⟩

/-- An event that completes a token finds one. -/
theorem Receives.complete {stop : Position} (h : a.Receives [e] a') (he : e.stop? = some stop) :
    ∃ kind, a.current = some kind ∧ a' = a.complete stop := by
  cases h with
  | cons hholds hσ ha later =>
      cases later
      rw [receive_of_stop he] at ha
      obtain rfl := Except.ok.inj ha
      generalize a.current = current, a.pending = pending at hholds ⊢
      cases hholds with
      | idle => cases e <;> cases hσ <;> cases he
      | _ => exact ⟨_, rfl, rfl⟩

/-- What the events of a token leave when the last of them completes it. -/
theorem Receives.completes {stop : Position} (h : a.Receives (es ++ [e]) a') (hes : Unstopped es)
    (he : e.stop? = some stop) :
    ∃ kind, a'.tokens =
        a.tokens.push ⟨kind, if a.trackLocations then some ⟨a.tokenStart, stop⟩ else none⟩ ∧
      a'.tokenStart = stop ∧ a'.trackLocations = a.trackLocations := by
  obtain ⟨a₁, hfirst, hlast⟩ := h.of_append
  obtain ⟨htokens, hstart, htrack⟩ := hfirst.sameTokens hes
  obtain ⟨kind, hkind, rfl⟩ := hlast.complete he
  refine ⟨kind, ?_, ?_, ?_⟩ <;> simp [complete_of_some hkind, htokens, hstart, htrack]

/-! ## Contents and place -/

/-- What `a` has under construction, with the tokens and the place of `b`. -/
def elsewhere (a b : Assembler) : Assembler :=
  { b with current := a.current, pending := a.pending }

theorem edit_elsewhere (b : Assembler) (f : TokenKind → Except Misuse TokenKind) :
    (a.elsewhere b).edit f = (a.edit f).map (·.elsewhere b) := by
  cases hcurrent : a.current with
  | none => simp [edit, elsewhere, hcurrent, Except.map]
  | some kind => cases hf : f kind <;> simp [edit, elsewhere, hcurrent, hf, Except.map]

/-- What an event does to the contents does not depend on the tokens that are complete. -/
theorem receive_elsewhere (b : Assembler) (he : e.stop? = none) (hreset : e ≠ .reset) :
    (a.elsewhere b).receive e = (a.receive e).map (·.elsewhere b) := by
  cases e with
  | reset => exact absurd rfl hreset
  | finishChars => cases he
  | finishComment => cases he
  | finishTag => cases he
  | finishExpression => cases he
  | appendChars => exact edit_elsewhere b _
  | appendComment => exact edit_elsewhere b _
  | appendTagName => exact edit_elsewhere b _
  | markSelfClosing => exact edit_elsewhere b _
  | appendExpressionName => exact edit_elsewhere b _
  | beginExpressionAttribute => exact edit_elsewhere b _
  | appendExpressionAttributeName => exact edit_elsewhere b _
  | beginExpressionAttributeValue => exact edit_elsewhere b _
  | appendExpressionAttributeValue => exact edit_elsewhere b _
  | finishAttributeValue =>
      cases hpending : a.pending with
      | none => simp [receive, closeAttribute, elsewhere, hpending, Except.map]
      | some p =>
          simp only [receive, closeAttribute, elsewhere, hpending]
          exact edit_elsewhere (a := { a with pending := none }) b _
  | _ => rfl

/-- The assembler with tokens before its own. -/
def behind (tokens : Array Token) (a : Assembler) : Assembler :=
  { a with tokens := tokens ++ a.tokens }

theorem behind_of_sameTokens (h : SameTokens a a') (tokens : Array Token) :
    a'.elsewhere (a.behind tokens) = a'.behind tokens := by
  obtain ⟨htokens, hstart, htrack⟩ := h
  simp [elsewhere, behind, htokens, hstart, htrack]

theorem receive_behind (tokens : Array Token) (hreset : e ≠ .reset) (h : a.receive e = .ok a') :
    (a.behind tokens).receive e = .ok (a'.behind tokens) := by
  cases hstop : e.stop? with
  | some stop =>
      rw [receive_of_stop hstop] at h ⊢
      obtain rfl := Except.ok.inj h
      cases hcurrent : a.current <;> simp [complete, behind, hcurrent]
  | none =>
      have helsewhere := receive_elsewhere (a := a) (a.behind tokens) hstop hreset
      rw [h] at helsewhere
      rw [← behind_of_sameTokens (sameTokens_of_receive h hstop hreset) tokens]
      exact helsewhere

theorem Receives.behind (h : a.Receives es a') (tokens : Array Token) :
    (a.behind tokens).Receives es (a'.behind tokens) := by
  induction h with
  | nil => exact .nil _
  | cons hholds hσ ha _ ih =>
      have he := Shape.ne_reset_of_receive hσ
      exact .cons hholds hσ (receive_behind tokens he ha) ih

end Assembler

end TemplateMarkup
