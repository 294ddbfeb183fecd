import TemplateMarkup.Proofs.Event.Construct

/-!
# Stages of a construct

A stage tells how far the events of a construct have come, and so which events may be next. Events
that a stage allows one after the other can always be completed to whole constructs, and after each
event it does not matter which: what completes the stage that was reached completes all of it
(`Stage.Leads`).
-/

namespace TemplateMarkup

/-- How far the events of a construct have come. Where a text has just begun, `enough` tells whether
it may already stop. -/
inductive Stage where
  /-- Between two constructs. -/
  | idle
  | text (enough : Bool)
  | comment
  | tagName (enough : Bool)
  /-- In a tag, between its attributes. -/
  | tag
  /-- In a tag that is marked as self-closing. -/
  | tagClosing
  | attributeName (enough : Bool)
  | attributeValue
  | expressionName (enough : Bool)
  /-- In an expression, between its attributes. -/
  | expression
  | expressionAttributeName (enough : Bool)
  | expressionAttributeValue (enough : Bool)
deriving DecidableEq, Repr

namespace Stage

/-- The events that may open a construct. -/
def receiveIdle : Event → Option Stage
  | .beginChars => some (text false)
  | .beginComment => some comment
  | .beginStartTag => some (tagName false)
  | .beginEndTag => some (tagName false)
  | .beginStartExpression _ => some (expressionName false)
  | .beginEndExpression => some (expressionName false)
  | _ => none

/-- The events that may follow the name or an attribute of a tag. -/
def receiveTag : Event → Option Stage
  | .beginAttribute => some (attributeName false)
  | .markSelfClosing => some tagClosing
  | .finishTag _ => some idle
  | _ => none

/-- The events that may follow the name or an attribute of an expression. -/
def receiveExpression : Event → Option Stage
  | .beginExpressionAttribute quoted => some (expressionAttributeName quoted)
  | .finishExpression _ => some idle
  | _ => none

/-- The stage after an event, if the event is one that may be next. -/
def receive : Stage → Event → Option Stage
  | idle, e => receiveIdle e
  | text _, .appendChars _ => some (text true)
  | text true, .finishChars _ => some idle
  | comment, .appendComment _ => some comment
  | comment, .finishComment _ => some idle
  | tagName _, .appendTagName _ => some (tagName true)
  | tagName true, e => receiveTag e
  | tag, e => receiveTag e
  | tagClosing, .finishTag _ => some idle
  | attributeName _, .appendAttributeName _ => some (attributeName true)
  | attributeName true, .beginAttributeValue _ => some attributeValue
  | attributeValue, .appendAttributeValue _ => some attributeValue
  | attributeValue, .finishAttributeValue => some tag
  | expressionName _, .appendExpressionName _ => some (expressionName true)
  | expressionName true, e => receiveExpression e
  | expression, e => receiveExpression e
  | expressionAttributeName _, .appendExpressionAttributeName _ =>
      some (expressionAttributeName true)
  | expressionAttributeName true, .beginExpressionAttributeValue quoted =>
      some (expressionAttributeValue quoted)
  | expressionAttributeName true, e => receiveExpression e
  | expressionAttributeValue _, .appendExpressionAttributeValue _ =>
      some (expressionAttributeValue true)
  | expressionAttributeValue true, e => receiveExpression e
  | _, _ => none

/-- Whatever may follow the second stage may also follow the first. -/
def refines : Stage → Stage → Bool
  | text true, text false => true
  | tagName true, tag => true
  | expressionName true, expression => true
  | expressionAttributeName true, expression => true
  | expressionAttributeValue true, expression => true
  | σ, τ => σ == τ

/-- The events may follow the stage, and lead to the stage `τ`. -/
def reaches (σ : Stage) (es : List Event) (τ : Stage) : Bool :=
  (es.foldlM receive σ).any (·.refines τ)

/-! ## Completing a stage -/

/-- The events that are wanting to complete the construct, with whole constructs behind them. -/
inductive Ends : Stage → List Event → Prop
  | idle (cs : List Construct) : Ends .idle (cs.flatMap Construct.events)
  | text {enough : Bool} (pieces : List String) (h : enough = false → pieces ≠ [])
      (stop : Position) (cs : List Construct) :
      Ends (.text enough)
        (pieces.map .appendChars ++ .finishChars stop :: cs.flatMap Construct.events)
  | comment (pieces : List String) (stop : Position) (cs : List Construct) :
      Ends .comment
        (pieces.map .appendComment ++ .finishComment stop :: cs.flatMap Construct.events)
  | tagName {enough : Bool} (name : List Char) (h : enough = false → name ≠ []) {w : List Event}
      (hw : Ends .tag w) : Ends (.tagName enough) (name.map .appendTagName ++ w)
  | tag (attributes : List Construct.TagAttribute) (selfClosing : Bool) (stop : Position)
      (cs : List Construct) :
      Ends .tag (attributes.flatMap Construct.TagAttribute.events ++
        (if selfClosing then [.markSelfClosing] else []) ++
          .finishTag stop :: cs.flatMap Construct.events)
  | tagClosing (stop : Position) (cs : List Construct) :
      Ends .tagClosing (.finishTag stop :: cs.flatMap Construct.events)
  | attributeName {enough : Bool} (name : List Char) (h : enough = false → name ≠ [])
      (quoted : Bool) {w : List Event} (hw : Ends .attributeValue w) :
      Ends (.attributeName enough)
        (name.map .appendAttributeName ++ .beginAttributeValue quoted :: w)
  | attributeValue (pieces : List String) {w : List Event} (hw : Ends .tag w) :
      Ends .attributeValue (pieces.map .appendAttributeValue ++ .finishAttributeValue :: w)
  | expressionName {enough : Bool} (name : List Char) (h : enough = false → name ≠ [])
      {w : List Event} (hw : Ends .expression w) :
      Ends (.expressionName enough) (name.map .appendExpressionName ++ w)
  | expression (attributes : List Construct.ExpressionAttribute) (stop : Position)
      (cs : List Construct) :
      Ends .expression (attributes.flatMap Construct.ExpressionAttribute.events ++
        .finishExpression stop :: cs.flatMap Construct.events)
  | expressionAttributeName {enough : Bool} (name : List Char) (h : enough = false → name ≠ [])
      (value? : Option Construct.Word) {w : List Event} (hw : Ends .expression w) :
      Ends (.expressionAttributeName enough) (name.map .appendExpressionAttributeName ++
        (value?.map Construct.Word.valueEvents).getD [] ++ w)
  | expressionAttributeValue {enough : Bool} (value : List Char)
      (h : enough = false → value ≠ []) {w : List Event} (hw : Ends .expression w) :
      Ends (.expressionAttributeValue enough) (value.map .appendExpressionAttributeValue ++ w)

variable {σ τ υ : Stage} {e : Event} {es es' w : List Event}

theorem exists_ends (σ : Stage) : ∃ w, Ends σ w := by
  have hidle : Ends .idle _ := .idle []
  have htag : Ends .tag _ := .tag [] false .start []
  have hvalue : Ends .attributeValue _ := .attributeValue [] htag
  have hexpression : Ends .expression _ := .expression [] .start []
  cases σ with
  | idle => exact ⟨_, hidle⟩
  | text => exact ⟨_, .text [""] (by simp) .start []⟩
  | comment => exact ⟨_, .comment [] .start []⟩
  | tagName => exact ⟨_, .tagName ['a'] (by simp) htag⟩
  | tag => exact ⟨_, htag⟩
  | tagClosing => exact ⟨_, .tagClosing .start []⟩
  | attributeName => exact ⟨_, .attributeName ['a'] (by simp) false hvalue⟩
  | attributeValue => exact ⟨_, hvalue⟩
  | expressionName => exact ⟨_, .expressionName ['a'] (by simp) hexpression⟩
  | expression => exact ⟨_, hexpression⟩
  | expressionAttributeName =>
      exact ⟨_, .expressionAttributeName ['a'] (by simp) none hexpression⟩
  | expressionAttributeValue => exact ⟨_, .expressionAttributeValue ['a'] (by simp) hexpression⟩

/-- Between two constructs only whole constructs may follow. -/
theorem Ends.constructs (h : Ends .idle w) :
    ∃ cs : List Construct, w = cs.flatMap Construct.events := by
  cases h with
  | idle cs => exact ⟨cs, rfl⟩

theorem ends_of_refines (h : σ.refines τ = true) (hw : Ends τ w) : Ends σ w := by
  by_cases hστ : σ = τ
  · exact hστ ▸ hw
  · unfold refines at h
    split at h
    · cases hw with
      | text pieces _ stop cs => exact .text pieces (by simp) stop cs
    · exact .tagName [] (by simp) hw
    · exact .expressionName [] (by simp) hw
    · exact .expressionAttributeName [] (by simp) none hw
    · exact .expressionAttributeValue [] (by simp) hw
    · exact absurd (by simpa using h) hστ

theorem ends_openTag (ending : Bool) (hw : Ends (.tagName false) w) :
    Ends .idle (Construct.openTag ending :: w) := by
  cases hw with
  | tagName name hne hw =>
      cases hw with
      | tag attributes selfClosing stop cs =>
          have h := Ends.idle (.tag ending name (hne rfl) attributes selfClosing stop :: cs)
          simpa [Construct.events] using h

theorem ends_openExpression (isBlock? : Option Bool) (hw : Ends (.expressionName false) w) :
    Ends .idle (Construct.openExpression isBlock? :: w) := by
  cases hw with
  | expressionName name hne hw =>
      cases hw with
      | expression attributes stop cs =>
          have h := Ends.idle (.expression isBlock? name (hne rfl) attributes stop :: cs)
          simpa [Construct.events] using h

theorem ends_cons_of_receiveIdle (h : receiveIdle e = some τ) (hw : Ends τ w) :
    Ends .idle (e :: w) := by
  cases e <;> cases h
  case beginChars =>
    cases hw with
    | text pieces hne stop cs =>
        have h := Ends.idle (.text pieces (hne rfl) stop :: cs)
        simpa [Construct.events] using h
  case beginComment =>
    cases hw with
    | comment pieces stop cs =>
        have h := Ends.idle (.comment pieces stop :: cs)
        simpa [Construct.events] using h
  case beginStartTag => exact ends_openTag false hw
  case beginEndTag => exact ends_openTag true hw
  case beginStartExpression isBlock => exact ends_openExpression (some isBlock) hw
  case beginEndExpression => exact ends_openExpression none hw

theorem ends_cons_of_receiveTag (h : receiveTag e = some τ) (hw : Ends τ w) :
    Ends .tag (e :: w) := by
  cases e <;> cases h
  case beginAttribute =>
    cases hw with
    | attributeName name hne quoted hw =>
        cases hw with
        | attributeValue pieces hw =>
            cases hw with
            | tag attributes selfClosing stop cs =>
                have h := Ends.tag (⟨name, hne rfl, quoted, pieces⟩ :: attributes) selfClosing stop cs
                simpa [Construct.TagAttribute.events] using h
  case markSelfClosing =>
    cases hw with
    | tagClosing stop cs => exact .tag [] true stop cs
  case finishTag stop =>
    obtain ⟨cs, rfl⟩ := hw.constructs
    exact .tag [] false stop cs

theorem ends_cons_of_receiveExpression (h : receiveExpression e = some τ) (hw : Ends τ w) :
    Ends .expression (e :: w) := by
  cases e <;> cases h
  case beginExpressionAttribute quoted =>
    cases hw with
    | expressionAttributeName name hne value? hw =>
        cases hw with
        | expression attributes stop cs =>
            have h := Ends.expression (⟨⟨quoted, name, hne⟩, value?⟩ :: attributes) stop cs
            simpa [Construct.ExpressionAttribute.events] using h
  case finishExpression stop =>
    obtain ⟨cs, rfl⟩ := hw.constructs
    exact .expression [] stop cs

/-- What completes the stage after an event completes, behind the event, the stage before it. -/
theorem ends_cons (h : σ.receive e = some τ) (hw : Ends τ w) : Ends σ (e :: w) := by
  cases σ with
  | idle => exact ends_cons_of_receiveIdle h hw
  | text enough =>
      cases e with
      | appendChars piece =>
          cases h
          cases hw with
          | text pieces _ stop cs => exact .text (piece :: pieces) (by simp) stop cs
      | finishChars stop =>
          cases enough <;> cases h
          obtain ⟨cs, rfl⟩ := hw.constructs
          exact .text [] (by simp) stop cs
      | _ => cases enough <;> cases h
  | comment =>
      cases e with
      | appendComment piece =>
          cases h
          cases hw with
          | comment pieces stop cs => exact .comment (piece :: pieces) stop cs
      | finishComment stop =>
          cases h
          obtain ⟨cs, rfl⟩ := hw.constructs
          exact .comment [] stop cs
      | _ => cases h
  | tagName enough =>
      cases e with
      | appendTagName c =>
          cases h
          cases hw with
          | tagName name _ hw => exact .tagName (c :: name) (by simp) hw
      | _ =>
          cases enough with
          | false => cases h
          | true => exact .tagName [] (by simp) (ends_cons_of_receiveTag h hw)
  | tag => exact ends_cons_of_receiveTag h hw
  | tagClosing =>
      cases e with
      | finishTag stop =>
          cases h
          obtain ⟨cs, rfl⟩ := hw.constructs
          exact .tagClosing stop cs
      | _ => cases h
  | attributeName enough =>
      cases e with
      | appendAttributeName c =>
          cases h
          cases hw with
          | attributeName name _ quoted hw => exact .attributeName (c :: name) (by simp) quoted hw
      | beginAttributeValue quoted =>
          cases enough <;> cases h
          exact .attributeName [] (by simp) quoted hw
      | _ => cases enough <;> cases h
  | attributeValue =>
      cases e with
      | appendAttributeValue piece =>
          cases h
          cases hw with
          | attributeValue pieces hw => exact .attributeValue (piece :: pieces) hw
      | finishAttributeValue =>
          cases h
          exact .attributeValue [] hw
      | _ => cases h
  | expressionName enough =>
      cases e with
      | appendExpressionName c =>
          cases h
          cases hw with
          | expressionName name _ hw => exact .expressionName (c :: name) (by simp) hw
      | _ =>
          cases enough with
          | false => cases h
          | true => exact .expressionName [] (by simp) (ends_cons_of_receiveExpression h hw)
  | expression => exact ends_cons_of_receiveExpression h hw
  | expressionAttributeName enough =>
      cases e with
      | appendExpressionAttributeName c =>
          cases h
          cases hw with
          | expressionAttributeName name _ value? hw =>
              exact .expressionAttributeName (c :: name) (by simp) value? hw
      | beginExpressionAttributeValue quoted =>
          cases enough <;> cases h
          cases hw with
          | expressionAttributeValue value hne hw =>
              exact .expressionAttributeName [] (by simp) (some ⟨quoted, value, hne⟩) hw
      | _ =>
          cases enough with
          | false => cases h
          | true =>
              exact .expressionAttributeName [] (by simp) none (ends_cons_of_receiveExpression h hw)
  | expressionAttributeValue enough =>
      cases e with
      | appendExpressionAttributeValue c =>
          cases h
          cases hw with
          | expressionAttributeValue value _ hw =>
              exact .expressionAttributeValue (c :: value) (by simp) hw
      | _ =>
          cases enough with
          | false => cases h
          | true =>
              exact .expressionAttributeValue [] (by simp) (ends_cons_of_receiveExpression h hw)

/-! ## Leading from stage to stage -/

/-- Whatever completes the stage `τ` completes, behind the events, the stage `σ`. -/
structure Leads (σ : Stage) (es : List Event) (τ : Stage) : Prop where
  reset_notMem : .reset ∉ es
  ends : ∀ w, Ends τ w → Ends σ (es ++ w)

theorem ne_reset_of_receive (h : σ.receive e = some τ) : e ≠ .reset := by
  rintro rfl
  cases σ with
  | idle => cases h
  | comment => cases h
  | tag => cases h
  | tagClosing => cases h
  | attributeValue => cases h
  | expression => cases h
  | _ enough => cases enough <;> cases h

theorem leads_of_refines (h : σ.refines τ = true) : σ.Leads [] τ :=
  ⟨List.not_mem_nil, fun _ => ends_of_refines h⟩

theorem Leads.refl (σ : Stage) : σ.Leads [] σ :=
  ⟨List.not_mem_nil, fun _ hw => hw⟩

theorem Leads.trans (h : σ.Leads es τ) (h' : τ.Leads es' υ) : σ.Leads (es ++ es') υ := by
  constructor
  · simp [h.reset_notMem, h'.reset_notMem]
  · intro w hw
    rw [List.append_assoc]
    exact h.ends _ (h'.ends w hw)

theorem leads_of_reaches (h : σ.reaches es τ = true) : σ.Leads es τ := by
  induction es generalizing σ with
  | nil => exact leads_of_refines (by simpa [reaches] using h)
  | cons e es ih =>
      cases hσ : σ.receive e with
      | none => simp [reaches, hσ] at h
      | some σ' =>
          have hlater : σ'.Leads es τ := ih (by simpa [reaches, hσ] using h)
          constructor
          · have he := ne_reset_of_receive hσ
            simp [he.symm, hlater.reset_notMem]
          · intro w hw
            exact ends_cons hσ (hlater.ends w hw)

/-- Events that lead away from between two constructs are the beginning of whole constructs. -/
theorem Leads.constructs (h : idle.Leads es τ) :
    ∃ cs : List Construct, es <+: cs.flatMap Construct.events := by
  obtain ⟨w, hw⟩ := exists_ends τ
  obtain ⟨cs, hcs⟩ := (h.ends w hw).constructs
  exact ⟨cs, w, hcs⟩

end Stage

end TemplateMarkup
