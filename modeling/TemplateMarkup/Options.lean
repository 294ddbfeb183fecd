import TemplateMarkup.Json.Skip

/-!
# Options

The options of a tokenizer and the JSON document that sets them: an object with the member
`track_locations`, which may be called `loc`, or a list of the values of the members. Members of any
other name are skipped.
-/

namespace TemplateMarkup

structure Options where
  /-- Whether tokens carry the part of the document they cover. -/
  trackLocations : Bool := false
deriving DecidableEq, Repr

namespace Options

open Json

/-- Reads one member: its value if it sets an option, and what is left after it. -/
def member? (xs : List Lexeme) : Option (Option Bool × List Lexeme) :=
  match xs with
  | .string (some name) :: .colon :: rest =>
    if name = "track_locations" ∨ name = "loc" then
      match rest with
      | .bool b :: rest => some (some b, rest)
      | _ => none
    else (skip? rest).map (none, ·)
  | _ => none

theorem length_of_member? {xs rest : List Lexeme} {b : Option Bool}
    (h : member? xs = some (b, rest)) : rest.length < xs.length := by
  unfold member? at h
  split at h
  · split at h
    · split at h
      · cases h
        simp only [List.length_cons]
        omega
      · contradiction
    · simp only [Option.map_eq_some_iff, Prod.mk.injEq] at h
      obtain ⟨ys, hskip, -, rfl⟩ := h
      have := length_skipFrom_lt hskip
      simp only [List.length_cons]
      omega
  · contradiction

/-- The values of the members that set an option, in an object that is open and not empty and with
which the document ends. -/
def memberValues? (xs : List Lexeme) : Option (List Bool) :=
  match h : member? xs with
  | some (b, [.endObject]) => some b.toList
  | some (b, .comma :: more) =>
    have : more.length < xs.length := Nat.lt_of_succ_lt (length_of_member? h)
    (memberValues? more).map (b.toList ++ ·)
  | _ => none
termination_by xs.length

/-- Reads options from JSON text. An option may be set once at the most. -/
def ofJson? (text : String) : Option Options := do
  match ← lexemes? text with
  | [.beginArray, .endArray] => some {}
  | [.beginArray, .bool b, .endArray] => some ⟨b⟩
  | [.beginObject, .endObject] => some {}
  | .beginObject :: members =>
    match ← memberValues? members with
    | [] => some {}
    | [b] => some ⟨b⟩
    | _ => none
  | _ => none

end Options

end TemplateMarkup
