import TemplateMarkup.Proofs.Assembler.Contents

/-!
# Tokens that were begun otherwise

Two assemblers that hold different tokens receive the same events. If the two tokens are related in a
way that every edit keeps up, as a start tag and an end tag are, then the tokens that are complete in the
end are related, and all the others are of the same kinds (`Receives.variant`).
-/

namespace TemplateMarkup

/-- What an event may do to the token under construction. -/
inductive TokenEdit where
  | text (s : String)
  | tagName (c : Char)
  | selfClosing
  | pushAttribute (a : Attribute)
  | expressionName (c : Char)
  | newExpressionAttribute (nameIsLiteral : Bool)
  | expressionAttribute (f : ExpressionAttribute → ExpressionAttribute)

def TokenEdit.apply : TokenEdit → TokenKind → Except Misuse TokenKind
  | text s, k => k.appendText s
  | tagName c, k => k.appendTagName c
  | selfClosing, k => k.markSelfClosing
  | pushAttribute a, k => k.pushAttribute a
  | expressionName c, k => k.appendExpressionName c
  | newExpressionAttribute nameIsLiteral, k => k.newExpressionAttribute nameIsLiteral
  | expressionAttribute f, k => k.modifyExpressionAttribute f

/-- The edit that the event comes to, if it comes to no more than that. -/
def Event.tokenEdit? : Event → Option TokenEdit
  | .appendChars text => some (.text text)
  | .appendComment text => some (.text text)
  | .appendTagName c => some (.tagName c)
  | .markSelfClosing => some .selfClosing
  | .appendExpressionName c => some (.expressionName c)
  | .beginExpressionAttribute nameIsLiteral => some (.newExpressionAttribute nameIsLiteral)
  | .appendExpressionAttributeName c =>
      some (.expressionAttribute fun b => { b with name := b.name.push c })
  | .beginExpressionAttributeValue valueIsLiteral =>
      some (.expressionAttribute fun b => { b with valueIsLiteral := some valueIsLiteral })
  | .appendExpressionAttributeValue c =>
      some (.expressionAttribute fun b => { b with value := b.value.push c })
  | _ => none

/-- Whatever edit the one token takes, the other one takes too, and they stay related. -/
def TokenKind.Simulates (R : TokenKind → TokenKind → Prop) : Prop :=
  ∀ {k k' l : TokenKind} (edit : TokenEdit), R k k' → edit.apply k = .ok l →
    ∃ l', edit.apply k' = .ok l' ∧ R l l'

namespace Assembler

variable {R : TokenKind → TokenKind → Prop} {σ τ : Shape} {a a' b : Assembler} {e e' : Event}
  {es es' : List Event}

theorem receive_of_tokenEdit {edit : TokenEdit} (h : e.tokenEdit? = some edit) :
    a.receive e = a.edit edit.apply := by
  cases e <;> cases h <;> rfl

/-- The tokens that the two hold are related, and nothing else under construction differs. -/
structure Variant (R : TokenKind → TokenKind → Prop) (a b : Assembler) : Prop where
  current : ∃ k k', R k k' ∧ a.current = some k ∧ b.current = some k'
  pending : b.pending = a.pending

theorem Variant.edit (hR : TokenKind.Simulates R) (h : Variant R a b) (edit : TokenEdit)
    (ha : a.edit edit.apply = .ok a') :
    ∃ b', b.edit edit.apply = .ok b' ∧ Variant R a' b' ∧ a'.kinds = a.kinds ∧ b'.kinds = b.kinds := by
  obtain ⟨⟨k, k', hk, hcurrent, hcurrent'⟩, hpending⟩ := h
  rw [Assembler.edit, hcurrent] at ha
  cases hedit : edit.apply k with
  | error m => simp [hedit, Except.map] at ha
  | ok l =>
      obtain ⟨l', hedit', hl⟩ := hR edit hk hedit
      simp only [hedit, Except.map, Except.ok.injEq] at ha
      subst ha
      refine ⟨{ b with current := some l' }, ?_, ⟨⟨l, l', hl, rfl, rfl⟩, hpending⟩, rfl, rfl⟩
      rw [Assembler.edit, hcurrent']
      simp [hedit', Except.map]

theorem Variant.closeAttribute (hR : TokenKind.Simulates R) (h : Variant R a b)
    (ha : a.closeAttribute = .ok a') :
    ∃ b', b.closeAttribute = .ok b' ∧ Variant R a' b' ∧ a'.kinds = a.kinds ∧ b'.kinds = b.kinds := by
  rw [Assembler.closeAttribute] at ha ⊢
  rw [h.pending]
  cases hpending : a.pending with
  | none =>
      rw [hpending] at ha
      cases ha
      exact ⟨b, rfl, h, rfl, rfl⟩
  | some c =>
      rw [hpending] at ha
      have hclosed : Variant R { a with pending := none } { b with pending := none } :=
        ⟨h.current, rfl⟩
      exact hclosed.edit hR (.pushAttribute c.close) ha

/-- Where a token is held no other one is begun. -/
theorem Holds.tokenEdit_or {k : TokenKind} {b? : Option OpenAttribute} (h : Holds σ (some k) b?)
    (hσ : σ.receive e = some τ) :
    e.tokenEdit?.isSome ∨ e.stop?.isSome ∨ e = .finishAttributeValue ∨
      e.stop? = none ∧ ∃ f : Option OpenAttribute → Option OpenAttribute, ∀ a : Assembler,
        a.receive e = .ok { a with pending := f a.pending } := by
  cases e with
  | beginAttribute => exact .inr (.inr (.inr ⟨rfl, fun _ => some {}, fun _ => rfl⟩))
  | appendAttributeName c => exact .inr (.inr (.inr ⟨rfl, Option.map _, fun _ => rfl⟩))
  | beginAttributeValue quoted => exact .inr (.inr (.inr ⟨rfl, Option.map _, fun _ => rfl⟩))
  | appendAttributeValue text => exact .inr (.inr (.inr ⟨rfl, Option.map _, fun _ => rfl⟩))
  | finishAttributeValue => exact .inr (.inr (.inl rfl))
  | _ => first
      | exact .inl rfl
      | exact .inr (.inl rfl)
      | cases h <;> cases hσ

/-- Either both tokens stay under construction, or both are complete. -/
theorem Variant.receive (hR : TokenKind.Simulates R) (h : Variant R a b)
    (hholds : Holds σ a.current a.pending) (hσ : σ.receive e = some τ) (ha : a.receive e = .ok a')
    (he : e'.unplaced = e.unplaced) :
    ∃ b', b.receive e' = .ok b' ∧
      ((Variant R a' b' ∧ a'.kinds = a.kinds ∧ b'.kinds = b.kinds) ∨
        ∃ k k', R k k' ∧ SameContents a' b' ∧ a'.kinds = a.kinds ++ [k] ∧
          b'.kinds = b.kinds ++ [k']) := by
  obtain ⟨⟨k, k', hk, hcurrent, hcurrent'⟩, hpending⟩ := id h
  rw [hcurrent] at hholds
  rcases hholds.tokenEdit_or hσ with hedit | hstop | rfl | ⟨hstop, f, hf⟩
  · obtain ⟨edit, hedit⟩ := Option.isSome_iff_exists.mp hedit
    obtain rfl : e' = e := Event.eq_of_unplaced he (by cases e <;> cases hedit <;> rfl)
    rw [receive_of_tokenEdit hedit] at ha ⊢
    obtain ⟨b', hb', hvariant⟩ := h.edit hR edit ha
    exact ⟨b', hb', .inl hvariant⟩
  · obtain ⟨stop', hstop'⟩ := Event.stop_of_unplaced he hstop
    obtain ⟨stop, hstop⟩ := Option.isSome_iff_exists.mp hstop
    rw [receive_of_stop hstop] at ha
    obtain rfl := Except.ok.inj ha
    refine ⟨b.complete stop', receive_of_stop hstop', .inr ⟨k, k', hk, ?_, ?_, ?_⟩⟩
    · rw [complete_of_some hcurrent, complete_of_some hcurrent']
      exact ⟨rfl, hpending⟩
    · rw [kinds_complete, hcurrent]
      rfl
    · rw [kinds_complete, hcurrent']
      rfl
  · obtain rfl : e' = .finishAttributeValue := Event.eq_of_unplaced he rfl
    obtain ⟨b', hb', hvariant⟩ := h.closeAttribute hR ha
    exact ⟨b', hb', .inl hvariant⟩
  · obtain rfl : e' = e := Event.eq_of_unplaced he hstop
    rw [hf] at ha ⊢
    obtain rfl := Except.ok.inj ha
    refine ⟨_, rfl, .inl ⟨⟨⟨k, k', hk, hcurrent, hcurrent'⟩, ?_⟩, rfl, rfl⟩⟩
    rw [hpending]

/-- What every edit keeps up is kept up until the token is complete. -/
theorem Receives.keeps {P : TokenKind → Prop} {k : TokenKind}
    (hP : ∀ {k l : TokenKind} (edit : TokenEdit), P k → edit.apply k = .ok l → P l)
    (h : a.Receives es a') (hes : Unstopped es) (hcurrent : a.current = some k) (hk : P k) :
    ∃ l, a'.current = some l ∧ P l := by
  have hsimulates : TokenKind.Simulates fun k k' => k = k' ∧ P k := by
    rintro k _ l edit ⟨rfl, hk⟩ hl
    exact ⟨l, hl, rfl, hP edit hk hl⟩
  induction h generalizing k with
  | nil => exact ⟨k, hcurrent, hk⟩
  | @cons σ τ a a₁ a' e es hholds hσ ha later ih =>
      have hself : Variant (fun k k' => k = k' ∧ P k) a a :=
        ⟨⟨k, k, ⟨rfl, hk⟩, hcurrent, hcurrent⟩, rfl⟩
      obtain ⟨b, hb, hreceived⟩ := hself.receive hsimulates hholds hσ ha rfl
      obtain rfl : a₁ = b := Except.ok.inj (ha.symm.trans hb)
      rcases hreceived with ⟨hvariant, -⟩ | ⟨k', -, -, -, hkinds, -⟩
      · obtain ⟨⟨l, _, ⟨rfl, hl⟩, hcurrent', -⟩, -⟩ := hvariant
        exact ih (fun e' he' => hes e' (by simp [he'])) hcurrent' hl
      · have hsame := sameTokens_of_receive ha (hes e (by simp)) (Shape.ne_reset_of_receive hσ)
        simp [kinds, hsame.tokens] at hkinds

/-- **The same events for another token.** Only that token becomes another one. -/
theorem Receives.variant (hR : TokenKind.Simulates R) (h : a.Receives es a') (hb : Variant R a b)
    (hes : Alike es' es) :
    ∃ b', b.receiveAll es' = .ok b' ∧
      ((a'.kinds = a.kinds ∧ b'.kinds = b.kinds) ∨
        ∃ k k' new, R k k' ∧ a'.kinds = a.kinds ++ k :: new ∧ b'.kinds = b.kinds ++ k' :: new) := by
  induction h generalizing b es' with
  | nil a =>
      obtain rfl : es' = [] := List.map_eq_nil_iff.mp hes
      exact ⟨b, rfl, .inl ⟨rfl, rfl⟩⟩
  | @cons σ τ a a₁ a' e es hholds hσ ha later ih =>
      obtain ⟨e', es', rfl, he, hes⟩ := List.map_eq_cons_iff.mp hes
      obtain ⟨b₁, hb₁, ⟨hvariant, hkinds, hkinds'⟩ | ⟨k, k', hk, hsame, hkinds, hkinds'⟩⟩ :=
        hb.receive hR hholds hσ ha he
      · obtain ⟨b', hb', hlater⟩ := ih hvariant hes
        rw [hkinds, hkinds'] at hlater
        exact ⟨b', by rw [receiveAll_cons_of_ok hb₁, hb'], hlater⟩
      · -- behind that token the two are alike
        obtain ⟨b', new, hb', -, hnew, hnew'⟩ := later.alike hsame hes
        refine ⟨b', by rw [receiveAll_cons_of_ok hb₁, hb'], .inr ⟨k, k', new, hk, ?_, ?_⟩⟩
        · rw [hnew, hkinds]
          simp
        · rw [hnew', hkinds']
          simp

end Assembler

end TemplateMarkup
