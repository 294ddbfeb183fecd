import TemplateMarkup.Proofs.Assembler.Tokens

/-!
# Contents do not depend on positions

The same events at other positions, sent to an assembler that has other tokens and another place in
the document, make tokens of the same kinds (`Receives.alike`).
-/

namespace TemplateMarkup

/-- The event at the start of the document. -/
def Event.unplaced : Event → Event
  | .finishChars _ => .finishChars .start
  | .finishComment _ => .finishComment .start
  | .finishTag _ => .finishTag .start
  | .finishExpression _ => .finishExpression .start
  | e => e

/-- The same events, at whatever positions. -/
def Alike (es es' : List Event) : Prop :=
  es.map Event.unplaced = es'.map Event.unplaced

theorem Alike.append {es₁ es₂ es₁' es₂' : List Event} (h₁ : Alike es₁ es₁')
    (h₂ : Alike es₂ es₂') : Alike (es₁ ++ es₂) (es₁' ++ es₂') := by
  rw [Alike, List.map_append, List.map_append, h₁, h₂]

theorem Event.eq_of_unplaced {e e' : Event} (h : e'.unplaced = e.unplaced)
    (he : e.stop? = none) : e' = e := by
  cases e <;> cases he <;> cases e' <;> simp_all [Event.unplaced]

theorem Event.stop_of_unplaced {e e' : Event} (h : e'.unplaced = e.unplaced)
    (he : e.stop?.isSome) : ∃ stop, e'.stop? = some stop := by
  cases e <;> cases he <;> cases e' <;> simp_all [Event.unplaced, Event.stop?]

theorem unstopped_map_unplaced {es : List Event} :
    Unstopped (es.map Event.unplaced) ↔ Unstopped es := by
  have hstop : ∀ e : Event, e.unplaced.stop? = none ↔ e.stop? = none := by
    rintro (_ | _) <;> simp [Event.unplaced, Event.stop?]
  simp [Unstopped, hstop]

/-- Whether an event completes something does not depend on the place. -/
theorem Alike.unstopped {es es' : List Event} (h : Alike es' es) (hes : Unstopped es) :
    Unstopped es' := by
  rw [← unstopped_map_unplaced, h]
  exact unstopped_map_unplaced.mpr hes

namespace Assembler

variable {a a' b : Assembler} {e e' : Event} {es es' : List Event}

/-- The two have the same under construction. -/
structure SameContents (a b : Assembler) : Prop where
  current : b.current = a.current
  pending : b.pending = a.pending

theorem SameContents.eq_elsewhere (h : SameContents a b) : b = a.elsewhere b := by
  rw [elsewhere, ← h.current, ← h.pending]

/-- The kinds of the complete tokens. -/
def kinds (a : Assembler) : List TokenKind :=
  a.tokens.toList.map Token.kind

theorem kinds_complete (a : Assembler) (stop : Position) :
    (a.complete stop).kinds = a.kinds ++ a.current.toList := by
  cases hcurrent : a.current <;> simp [kinds, complete, hcurrent]

theorem SameContents.complete (h : SameContents a b) (stop stop' : Position) :
    SameContents (a.complete stop) (b.complete stop') := by
  obtain ⟨hcurrent, hpending⟩ := h
  cases ha : a.current with
  | none =>
      rw [ha] at hcurrent
      simp only [Assembler.complete, ha, hcurrent]
      exact ⟨hcurrent.trans ha.symm, hpending⟩
  | some kind =>
      rw [ha] at hcurrent
      simp only [Assembler.complete, ha, hcurrent]
      exact ⟨rfl, hpending⟩

theorem receive_alike (h : SameContents a b) (ha : a.receive e = .ok a')
    (he : e'.unplaced = e.unplaced) (hreset : e ≠ .reset) :
    ∃ b' new, b.receive e' = .ok b' ∧ SameContents a' b' ∧
      a'.kinds = a.kinds ++ new ∧ b'.kinds = b.kinds ++ new := by
  cases hstop : e.stop? with
  | none =>
      obtain rfl := Event.eq_of_unplaced he hstop
      have hb := receive_elsewhere (a := a) b hstop hreset
      rw [← h.eq_elsewhere, ha] at hb
      have hkinds : a'.kinds = a.kinds := by
        rw [kinds, (sameTokens_of_receive ha hstop hreset).tokens, kinds]
      exact ⟨a'.elsewhere b, [], hb, ⟨rfl, rfl⟩, by simp [hkinds], (List.append_nil _).symm⟩
  | some stop =>
      obtain ⟨stop', hstop'⟩ := Event.stop_of_unplaced he (by simp [hstop])
      rw [receive_of_stop hstop] at ha
      obtain rfl := Except.ok.inj ha
      refine ⟨b.complete stop', a.current.toList, receive_of_stop hstop', h.complete stop stop',
        kinds_complete a stop, ?_⟩
      rw [kinds_complete, h.current]

/-- Events that differ in their positions only make tokens of the same kinds. -/
theorem Receives.alike (h : a.Receives es a') (hb : SameContents a b) (hes : Alike es' es) :
    ∃ b' new, b.receiveAll es' = .ok b' ∧ SameContents a' b' ∧
      a'.kinds = a.kinds ++ new ∧ b'.kinds = b.kinds ++ new := by
  induction h generalizing b es' with
  | nil a =>
      obtain rfl : es' = [] := List.map_eq_nil_iff.mp hes
      exact ⟨b, [], rfl, hb, (List.append_nil _).symm, (List.append_nil _).symm⟩
  | @cons _ _ a a₁ a' e es hholds hσ ha later ih =>
      obtain ⟨e', es', rfl, he, hes⟩ := List.map_eq_cons_iff.mp hes
      have hreset := Shape.ne_reset_of_receive hσ
      obtain ⟨b₁, new₁, hb₁, hsame₁, ha_kinds, hb_kinds⟩ := receive_alike hb ha he hreset
      obtain ⟨b', new, hb', hsame, ha_kinds', hb_kinds'⟩ := ih hsame₁ hes
      refine ⟨b', new₁ ++ new, ?_, hsame, ?_, ?_⟩
      · rw [receiveAll_cons_of_ok hb₁, hb']
      · rw [ha_kinds', ha_kinds, List.append_assoc]
      · rw [hb_kinds', hb_kinds, List.append_assoc]

end Assembler

end TemplateMarkup
