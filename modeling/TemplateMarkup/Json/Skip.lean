import TemplateMarkup.Json.Lexeme

/-!
# Skipping a JSON value

Whether lexemes begin with a whole value, and what is left after it. Lists and objects may be
nested to any depth: the brackets still open are held in a list.
-/

namespace TemplateMarkup.Json

inductive Container where
  | object
  | array
deriving DecidableEq, Repr

/-- What may come next. -/
inductive Expect where
  | value
  | valueOrEnd
  | key
  | keyOrEnd
  | colon
  | commaOrEnd
  /-- The value is complete. -/
  | nothing
deriving DecidableEq, Repr

/-- What may come after a value inside the open brackets. -/
def Expect.afterValue (opened : List Container) : Expect :=
  if opened.isEmpty then .nothing else .commaOrEnd

/-- What may come after one more lexeme, and the brackets then open. -/
def Expect.next? (e : Expect) (opened : List Container) (x : Lexeme) :
    Option (Expect × List Container) :=
  match e, x, opened with
  | .valueOrEnd, .endArray, .array :: outer => some (afterValue outer, outer)
  | .commaOrEnd, .endArray, .array :: outer => some (afterValue outer, outer)
  | .keyOrEnd, .endObject, .object :: outer => some (afterValue outer, outer)
  | .commaOrEnd, .endObject, .object :: outer => some (afterValue outer, outer)
  | .commaOrEnd, .comma, .array :: _ => some (.value, opened)
  | .commaOrEnd, .comma, .object :: _ => some (.key, opened)
  | .key, .string _, _ => some (.colon, opened)
  | .keyOrEnd, .string _, _ => some (.colon, opened)
  | .colon, .colon, _ => some (.value, opened)
  | .value, x, _ => value? x
  | .valueOrEnd, x, _ => value? x
  | _, _, _ => none
where
  /-- A value that is complete with its first lexeme, or the bracket that opens one. -/
  value? (x : Lexeme) : Option (Expect × List Container) :=
    match x with
    | .null | .bool _ | .number | .string _ => some (afterValue opened, opened)
    | .beginArray => some (.valueOrEnd, .array :: opened)
    | .beginObject => some (.keyOrEnd, .object :: opened)
    | _ => none

/-- What is left after the value of which the brackets `opened` have been read. -/
def skipFrom (e : Expect) (opened : List Container) : List Lexeme → Option (List Lexeme)
  | [] => none
  | x :: xs =>
    match e.next? opened x with
    | none => none
    | some (.nothing, _) => some xs
    | some (e, opened) => skipFrom e opened xs

/-- What is left after the value that the lexemes begin with. -/
def skip? (xs : List Lexeme) : Option (List Lexeme) :=
  skipFrom .value [] xs

theorem length_skipFrom_lt {e : Expect} {opened : List Container} {xs ys : List Lexeme}
    (h : skipFrom e opened xs = some ys) : ys.length < xs.length := by
  induction xs generalizing e opened with
  | nil => simp [skipFrom] at h
  | cons x xs ih =>
    simp only [skipFrom] at h
    split at h
    · contradiction
    · cases h
      simp
    · have := ih h
      simp only [List.length_cons]
      omega

end TemplateMarkup.Json
