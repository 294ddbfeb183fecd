import TemplateMarkup.CommandLine.Report
import TemplateMarkup.Proofs.Json.Render

/-!
# Nothing is lost in JSON

Different tokens have different JSON values (`Token.toJson_injective`): the `type` of a token comes
first, the members that follow are those of its kind, in their order, and a place comes behind all of
them and is left out only if there is none. As no two values are printed alike either, the printed list
of tokens determines the tokens (`CommandLine.Settings.render_json_injective`).
-/

namespace TemplateMarkup

theorem Position.toJson_injective : Function.Injective Position.toJson := by
  rintro ⟨line, column⟩ ⟨line', column'⟩ h
  simpa [toJson] using h

theorem Span.toJson_injective : Function.Injective Span.toJson := by
  rintro ⟨start, stop⟩ ⟨start', stop'⟩ h
  simp only [toJson, Json.object.injEq, List.cons.injEq, Prod.mk.injEq, true_and, and_true] at h
  rw [Position.toJson_injective h.1, Position.toJson_injective h.2]

/-- No value, a bare one and a quoted one are three different things. -/
theorem flag_toJson_injective :
    Function.Injective fun flag : Option Bool => (flag.map Json.bool).getD .null := by
  rintro (_ | b) (_ | b') h
  · rfl
  · cases h
  · cases h
  · cases h
    rfl

theorem ExpressionAttribute.toJson_injective : Function.Injective ExpressionAttribute.toJson := by
  rintro ⟨name, value, nameIsLiteral, valueIsLiteral⟩
    ⟨name', value', nameIsLiteral', valueIsLiteral'⟩ h
  simp only [toJson, Json.object.injEq, List.cons.injEq, Prod.mk.injEq, Json.string.injEq,
    Json.bool.injEq, true_and, and_true] at h
  obtain ⟨rfl, rfl, rfl, hflag⟩ := h
  rw [flag_toJson_injective hflag]

theorem EmbeddedExpression.toJson_injective : Function.Injective EmbeddedExpression.toJson := by
  rintro ⟨name, attributes⟩ ⟨name', attributes'⟩ h
  simp only [toJson, Json.object.injEq, List.cons.injEq, Prod.mk.injEq, Json.string.injEq,
    Json.array.injEq, true_and, and_true] at h
  obtain ⟨rfl, hattributes⟩ := h
  rw [List.map_injective_iff.mpr ExpressionAttribute.toJson_injective hattributes]

theorem Attribute.toJson_injective : Function.Injective Attribute.toJson := by
  rintro ⟨name, values, embedded, quoted⟩ ⟨name', values', embedded', quoted'⟩ h
  simp only [toJson, Json.object.injEq, List.cons.injEq, Prod.mk.injEq, Json.string.injEq,
    Json.array.injEq, Json.bool.injEq, true_and, and_true] at h
  obtain ⟨rfl, hvalues, hembedded, rfl⟩ := h
  have hstring : Function.Injective Json.string := fun s t => Json.string.inj
  rw [List.map_injective_iff.mpr hstring hvalues,
    List.map_injective_iff.mpr EmbeddedExpression.toJson_injective hembedded]

/-- The members of a kind tell which kind it is, what it holds, and where they end. -/
theorem TokenKind.members_append_inj {k l : TokenKind} {behind behind' : List (String × Json)}
    (h : k.members ++ behind = l.members ++ behind') : k = l ∧ behind = behind' := by
  have htag (as bs : List Attribute) : as.map (·.toJson) = bs.map (·.toJson) ↔ as = bs :=
    (List.map_injective_iff.mpr Attribute.toJson_injective).eq_iff
  have hexpression (as bs : List ExpressionAttribute) :
      as.map (·.toJson) = bs.map (·.toJson) ↔ as = bs :=
    (List.map_injective_iff.mpr ExpressionAttribute.toJson_injective).eq_iff
  cases k with
  | chars text =>
      cases l with
      | chars text' => simpa [members] using h
      | _ => simp [members] at h
  | comment text =>
      cases l with
      | comment text' => simpa [members] using h
      | _ => simp [members] at h
  | startTag name attributes selfClosing =>
      cases l with
      | startTag name' attributes' selfClosing' => simpa [members, htag, and_assoc] using h
      | _ => simp [members] at h
  | endTag name =>
      cases l with
      | endTag name' => simpa [members] using h
      | _ => simp [members] at h
  | startExpression name attributes isBlock =>
      cases l with
      | startExpression name' attributes' isBlock' =>
          simpa [members, hexpression, and_assoc] using h
      | _ => simp [members] at h
  | endExpression name =>
      cases l with
      | endExpression name' => simpa [members] using h
      | _ => simp [members] at h

theorem Token.toJson_injective : Function.Injective Token.toJson := by
  rintro ⟨kind, span⟩ ⟨kind', span'⟩ h
  obtain ⟨rfl, hplace⟩ := TokenKind.members_append_inj (Json.object.inj h)
  cases span with
  | none =>
      cases span' with
      | none => rfl
      | some place' => cases hplace
  | some place =>
      cases span' with
      | none => cases hplace
      | some place' =>
          simp only [Option.map_some, Option.toList_some, List.cons.injEq, Prod.mk.injEq, true_and,
            and_true] at hplace
          rw [Span.toJson_injective hplace]

theorem Token.renderList_injective : Function.Injective Token.renderList := by
  intro ts us h
  have hjson := Json.array.inj (Json.render_injective h)
  exact List.map_injective_iff.mpr Token.toJson_injective hjson

namespace CommandLine.Settings

/-- **What is printed as JSON determines the tokens**, whatever their texts, attributes and places. -/
theorem render_json_injective (s : Settings) : Function.Injective { s with json := true }.render := by
  intro ts us h
  have hprint : Token.renderList ts ++ "\n" = Token.renderList us ++ "\n" := h
  have hlists := congrArg String.toList hprint
  rw [String.toList_append, String.toList_append] at hlists
  exact Token.renderList_injective (String.toList_inj.mp (List.append_cancel_right hlists))

/-- One text that imitates the border between two tokens is not printed as the two. -/
theorem render_json_of_border :
    { json := true : Settings }.render
        [⟨.chars "a\"\n  \x7d,\n  \x7b\n    \"type\": \"Chars\",\n    \"text\": \"b", none⟩] ≠
      { json := true : Settings }.render [⟨.chars "a", none⟩, ⟨.chars "b", none⟩] := by
  intro h
  exact absurd (render_json_injective { json := true } h) (by decide)

end CommandLine.Settings

end TemplateMarkup
