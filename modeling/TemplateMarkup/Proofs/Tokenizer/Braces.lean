import TemplateMarkup.Proofs.Tokenizer.WellFormed

/-!
# Braces outside quotes

A closing brace that is part of an expression stands in quotes, with one exception: what follows a `=`
is a value whatever it is, so a bare value may begin with a brace (`unquoted_brace_begins_value`). It
never goes on with one. That is about what an expression holds: in front of its name, also behind a `#`
or a `/`, a lone brace is dropped like everything else that cannot stand there, so `{{}a}}` is not
rejected either, and is the expression `a`.
-/

namespace TemplateMarkup

/-- Outside quotes the attribute holds no closing brace but the first character of its value. -/
structure ExpressionAttribute.BracesQuoted (a : ExpressionAttribute) : Prop where
  name : a.nameIsLiteral = false → '}' ∉ a.name.toList
  value : a.valueIsLiteral = some false → '}' ∉ a.value.toList.tail

theorem ExpressionAttribute.WellFormed.bracesQuoted {a : ExpressionAttribute} (h : a.WellFormed) :
    a.BracesQuoted := by
  constructor
  · intro hbare
    have hname := h.name
    rw [NameWellFormed, hbare] at hname
    exact notMem_of_isWord hname (by decide) (by decide)
  · intro hbare
    have hvalue := h.value
    rw [ValueWellFormed, hbare] at hvalue
    exact notMem_tail_of_isWord hvalue (by decide)

namespace Tokenizer

variable {resolve : Resolver} {t : Tokenizer} {document : String} {tokens : List Token}
  {token : Token} {name : String} {attributes : List ExpressionAttribute} {isBlock : Bool}

/-- **Where a lone brace is let in.** In the expressions of a document that is not rejected no name
holds a closing brace, unless it is in quotes, and a bare value holds none but its first character. -/
theorem unquoted_brace_begins_value
    (hout : (t.tokenize resolve document).outcome = .ok tokens) (htoken : token ∈ tokens)
    (hkind : token.kind = .startExpression name attributes isBlock) :
    '}' ∉ name.toList ∧ ∀ a ∈ attributes, a.BracesQuoted := by
  have hlax : Strict false resolve := by
    intro h
    cases h
  rw [tokenize_eq_session] at hout
  have hsound := (((sound_reset false t).session hlax _).tokens tokens hout token htoken).1
  rw [hkind] at hsound
  obtain ⟨hname, hattributes⟩ := hsound
  constructor
  · exact notMem_of_isWord hname (by decide) (by decide)
  · intro a ha
    exact (hattributes a ha).bracesQuoted

/-- Braces in quotes, and a bare value that begins with one. -/
theorem unquoted_brace_begins_value_quoted :
    let attributes : List ExpressionAttribute :=
      [⟨"\x7d\x7d", "", true, none⟩, ⟨"b", "\x7d", false, some true⟩,
        ⟨"c", "\x7dd", false, some false⟩]
    let token : Token := ⟨.startExpression "a" attributes true, none⟩
    let reply := (ofOptions ⟨false⟩).tokenize Reference.standard
      "\x7b\x7b#a '\x7d\x7d' b=\"\x7d\" c=\x7dd\x7d\x7d"
    reply.outcome = .ok [token] ∧ token ∈ [token] ∧
      token.kind = .startExpression "a" attributes true ∧
      '}' ∉ "a".toList ∧ ∀ a ∈ attributes, a.BracesQuoted := by
  intro attributes token reply
  have hout : reply.outcome = .ok [token] := by decide +kernel
  have htoken : token ∈ [token] := List.mem_singleton_self token
  exact ⟨hout, htoken, rfl, unquoted_brace_begins_value hout htoken rfl⟩

/-- Not every lone brace is rejected: the first of three is taken for a value, and the two behind it
close the expression. -/
theorem unquoted_brace_accepted :
    ¬ ∀ (document : String) (tokens : List Token),
      TemplateMarkup.tokenize document ⟨false⟩ = .ok tokens →
        ∀ token ∈ tokens, ∀ name attributes isBlock,
          token.kind = .startExpression name attributes isBlock →
            '}' ∉ name.toList ∧ ∀ a ∈ attributes,
              (a.nameIsLiteral = false → '}' ∉ a.name.toList) ∧
                (a.valueIsLiteral = some false → '}' ∉ a.value.toList) := by
  intro h
  have hout : TemplateMarkup.tokenize "\x7b\x7ba b=\x7dc\x7d\x7d" ⟨false⟩ =
      .ok [⟨.startExpression "a" [⟨"b", "\x7dc", false, some false⟩] false, none⟩] := by
    decide +kernel
  obtain ⟨-, hattributes⟩ := h _ _ hout _ (List.mem_singleton_self _) _ _ _ rfl
  obtain ⟨-, hvalue⟩ := hattributes _ (List.mem_singleton_self _)
  exact hvalue rfl (by decide)

end Tokenizer

end TemplateMarkup
