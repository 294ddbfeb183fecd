import TemplateMarkup.Proofs.Json.Scalar

/-!
# Printed JSON is unambiguous

No two values are printed alike (`render_injective`), whatever characters their strings hold and
however deeply they are nested. The first character of a printed value gives its kind away
(`renderAt_eq_cons`). In a list or an object every item ends itself, and the character behind it, a
comma or a line break, tells whether another one follows (`lines_append_inj`).
-/

namespace TemplateMarkup.Json

variable {α : Type} {print : α → String} {xs : List α} {depth : Nat}

/-- Induction on the nesting: what holds of the parts of a list or an object holds of the whole. -/
theorem nested_induction {P : Json → Prop} (null : P .null) (bool : ∀ b, P (.bool b))
    (number : ∀ n, P (.number n)) (string : ∀ s, P (.string s))
    (array : ∀ js, (∀ j ∈ js, P j) → P (.array js))
    (object : ∀ ms : List (String × Json), (∀ m ∈ ms, P m.2) → P (.object ms)) : ∀ j, P j
  | .null => null
  | .bool b => bool b
  | .number n => number n
  | .string s => string s
  | .array js => array js fun j _ => nested_induction null bool number string array object j
  | .object ms => object ms fun m hm =>
      have : sizeOf m.2 < sizeOf ms := by
        have hlt := List.sizeOf_lt_of_mem hm
        obtain ⟨key, j⟩ := m
        simp at hlt ⊢
        omega
      nested_induction null bool number string array object m.2

/-! ## The first character -/

inductive Kind where
  | null
  | bool (b : Bool)
  | number
  | string
  | array
  | object
deriving DecidableEq, Repr

def kind : Json → Kind
  | null => .null
  | bool b => .bool b
  | number _ => .number
  | string _ => .string
  | array _ => .array
  | object _ => .object

/-- The kind of the values whose printed form begins with the character. -/
def Kind.ofFirst (c : Char) : Kind :=
  match c with
  | 'n' => .null
  | 't' => .bool true
  | 'f' => .bool false
  | '"' => .string
  | '[' => .array
  | '{' => .object
  | _ => .number

theorem Kind.ofFirst_digit {c : Char} (h : c.isDigit = true) : ofFirst c = .number := by
  unfold ofFirst
  split <;> first | rfl | exact absurd h (by decide)

theorem bracket_eq_cons (c : Char) (opening closing : String) (hopening : opening.toList = [c])
    (depth : Nat) (items : List String) :
    ∃ tail, (bracket opening closing depth items).toList = c :: tail := by
  unfold bracket
  split <;> simp [hopening]

/-- A printed value is not empty, and its first character gives its kind away. -/
theorem renderAt_eq_cons (depth : Nat) (j : Json) :
    ∃ c tail, (renderAt depth j).toList = c :: tail ∧ Kind.ofFirst c = j.kind := by
  cases j with
  | null => exact ⟨'n', ['u', 'l', 'l'], by simp [renderAt], rfl⟩
  | bool b =>
      cases b with
      | true => exact ⟨'t', ['r', 'u', 'e'], by simp [renderAt], rfl⟩
      | false => exact ⟨'f', ['a', 'l', 's', 'e'], by simp [renderAt], rfl⟩
  | number n =>
      obtain ⟨c, tail, hdigits⟩ := List.exists_cons_of_ne_nil (@Nat.toDigits_ne_nil n 10)
      have hc : c ∈ Nat.toDigits 10 n := by simp [hdigits]
      refine ⟨c, tail, ?_, Kind.ofFirst_digit (Nat.isDigit_of_mem_toDigits (by decide) (by decide) hc)⟩
      rw [renderAt, toList_toString, hdigits]
  | string s => exact ⟨'"', _, toList_quote s, rfl⟩
  | array js =>
      obtain ⟨tail, htail⟩ := bracket_eq_cons '[' "[" "]" rfl depth (renderElements (depth + 1) js)
      exact ⟨'[', tail, by rw [renderAt, htail], rfl⟩
  | object ms =>
      obtain ⟨tail, htail⟩ :=
        bracket_eq_cons '{' "\x7b" "\x7d" rfl depth (renderMembers (depth + 1) ms)
      exact ⟨'{', tail, by rw [renderAt, htail], rfl⟩

theorem kind_eq_of_renderAt {j k : Json} {rest rest' : List Char}
    (h : (renderAt depth j).toList ++ rest = (renderAt depth k).toList ++ rest') :
    j.kind = k.kind := by
  obtain ⟨c, tail, hj, hc⟩ := renderAt_eq_cons depth j
  obtain ⟨d, tail', hk, hd⟩ := renderAt_eq_cons depth k
  rw [hj, hk] at h
  rw [← hc, ← hd, (List.cons.inj h).1]

/-! ## Items between brackets -/

/-- The items behind the first one, each with the comma and the line break in front of it. -/
def lines (print : α → String) (depth : Nat) (xs : List α) : List Char :=
  xs.flatMap fun x => ',' :: ((lineBreak depth).toList ++ (print x).toList)

theorem lines_cons (print : α → String) (depth : Nat) (x : α) (xs : List α) (rest : List Char) :
    lines print depth (x :: xs) ++ rest =
      ',' :: ((lineBreak depth).toList ++ ((print x).toList ++ (lines print depth xs ++ rest))) := by
  simp [lines]

/-- Behind an item comes a comma or a line break. -/
theorem follows_lines (print : α → String) (depth : Nat) (xs : List α) (rest : List Char) :
    Follows (lines print depth xs ++ '\n' :: rest) := by
  cases xs with
  | nil => exact follows_cons rfl _
  | cons x xs =>
      rw [lines_cons]
      exact follows_cons rfl _

theorem lines_append_inj (h : ∀ x ∈ xs, Readable print x) (ys : List α) (rest rest' : List Char)
    (heq : lines print depth xs ++ '\n' :: rest = lines print depth ys ++ '\n' :: rest') :
    xs = ys ∧ rest = rest' := by
  induction xs generalizing ys with
  | nil =>
      cases ys with
      | nil => exact ⟨rfl, (List.cons.inj heq).2⟩
      | cons y ys =>
          rw [lines_cons] at heq
          exact absurd (List.cons.inj heq).1 (by decide)
  | cons x xs ih =>
      cases ys with
      | nil =>
          rw [lines_cons] at heq
          exact absurd (List.cons.inj heq).1 (by decide)
      | cons y ys =>
          rw [lines_cons, lines_cons] at heq
          have hitems := List.append_cancel_left (List.cons.inj heq).2
          obtain ⟨rfl, hlines⟩ := h x (by simp) y _ _ (follows_lines _ _ _ _) (follows_lines _ _ _ _) hitems
          obtain ⟨rfl, hrest⟩ := ih (fun z hz => h z (by simp [hz])) ys hlines
          exact ⟨rfl, hrest⟩

theorem intercalate_cons (separator first : List Char) (items : List (List Char)) :
    separator.intercalate (first :: items) = first ++ items.flatMap (separator ++ ·) := by
  induction items generalizing first with
  | nil => simp
  | cons second items ih =>
      rw [List.intercalate_cons_cons, ih, List.flatMap_cons, List.append_assoc, List.append_assoc]

theorem toList_bracket_nil (opening closing : String) (depth : Nat) (print : α → String) :
    (bracket opening closing depth (List.map print [])).toList = opening.toList ++ closing.toList := by
  simp [bracket]

theorem toList_bracket_cons (opening closing : String) (depth : Nat) (print : α → String) (x : α)
    (xs : List α) :
    (bracket opening closing depth (List.map print (x :: xs))).toList =
      opening.toList ++ ((lineBreak (depth + 1)).toList ++ ((print x).toList ++
        (lines print (depth + 1) xs ++
          '\n' :: (List.replicate (2 * depth) ' ' ++ closing.toList)))) := by
  simp [bracket, lineBreak, String.toList_intercalate, intercalate_cons, lines, List.flatMap_map]

/-- Where the items end themselves, so does the whole in its brackets. -/
theorem bracket_append_inj {opening closing : String} {c : Char} (hclosing : closing.toList = [c])
    (hc : c ≠ '\n') (h : ∀ x ∈ xs, Readable print x) (ys : List α) (rest rest' : List Char)
    (heq : (bracket opening closing depth (xs.map print)).toList ++ rest =
      (bracket opening closing depth (ys.map print)).toList ++ rest') : xs = ys ∧ rest = rest' := by
  -- behind the opening bracket comes the closing one, or a line break
  cases xs with
  | nil =>
      cases ys with
      | nil => exact ⟨rfl, List.append_cancel_left heq⟩
      | cons y ys =>
          rw [toList_bracket_nil, toList_bracket_cons] at heq
          simp [hclosing, lineBreak, hc] at heq
  | cons x xs =>
      cases ys with
      | nil =>
          rw [toList_bracket_nil, toList_bracket_cons] at heq
          simp [hclosing, lineBreak, hc.symm] at heq
      | cons y ys =>
          rw [toList_bracket_cons, toList_bracket_cons] at heq
          simp only [List.append_assoc, List.cons_append] at heq
          have hitems := List.append_cancel_left (List.append_cancel_left heq)
          obtain ⟨rfl, hlines⟩ :=
            h x (by simp) y _ _ (follows_lines _ _ _ _) (follows_lines _ _ _ _) hitems
          obtain ⟨rfl, hend⟩ := lines_append_inj (fun z hz => h z (by simp [hz])) ys _ _ hlines
          exact ⟨rfl, List.append_cancel_left (List.append_cancel_left hend)⟩

/-! ## Values -/

/-- A member as it is printed. -/
def renderMember (depth : Nat) (m : String × Json) : String :=
  quote m.1 ++ ": " ++ renderAt depth m.2

theorem renderElements_eq_map (depth : Nat) (js : List Json) :
    renderElements depth js = js.map (renderAt depth) := by
  induction js with
  | nil => simp [renderElements]
  | cons j js ih => rw [renderElements, ih, List.map_cons]

theorem renderMembers_eq_map (depth : Nat) (ms : List (String × Json)) :
    renderMembers depth ms = ms.map (renderMember depth) := by
  induction ms with
  | nil => simp [renderMembers]
  | cons m ms ih =>
      obtain ⟨key, j⟩ := m
      rw [renderMembers, ih, List.map_cons, renderMember]

/-- A key ends itself, and so does the value behind it. -/
theorem readable_member {m : String × Json} (h : Readable (renderAt depth) m.2) :
    Readable (renderMember depth) m := by
  intro n rest rest' hrest hrest' heq
  obtain ⟨key, j⟩ := m
  obtain ⟨key', k⟩ := n
  simp only [renderMember, String.toList_append, List.append_assoc] at heq
  have hfollows : ∀ tail, Follows ((": ").toList ++ tail) := fun tail => follows_cons rfl _
  obtain ⟨rfl, hvalue⟩ := readable_quote key key' _ _ (hfollows _) (hfollows _) heq
  obtain ⟨rfl, hends⟩ := h k rest rest' hrest hrest' (List.append_cancel_left hvalue)
  exact ⟨rfl, hends⟩

/-- **A printed value says what it is and where it ends.** -/
theorem readable_renderAt (depth : Nat) (j : Json) : Readable (renderAt depth) j := by
  induction j using nested_induction generalizing depth with
  | null =>
      intro k rest rest' _ _ heq
      have hkind := kind_eq_of_renderAt heq
      cases k with
      | null => exact ⟨rfl, List.append_cancel_left heq⟩
      | _ => cases hkind
  | bool b =>
      intro k rest rest' _ _ heq
      have hkind := kind_eq_of_renderAt heq
      cases k with
      | bool b' =>
          cases hkind
          exact ⟨rfl, List.append_cancel_left heq⟩
      | _ => cases hkind
  | number n =>
      intro k rest rest' hrest hrest' heq
      have hkind := kind_eq_of_renderAt heq
      cases k with
      | number m =>
          rw [renderAt, renderAt] at heq
          obtain ⟨rfl, hends⟩ := readable_number n m rest rest' hrest hrest' heq
          exact ⟨rfl, hends⟩
      | _ => cases hkind
  | string s =>
      intro k rest rest' hrest hrest' heq
      have hkind := kind_eq_of_renderAt heq
      cases k with
      | string t =>
          rw [renderAt, renderAt] at heq
          obtain ⟨rfl, hends⟩ := readable_quote s t rest rest' hrest hrest' heq
          exact ⟨rfl, hends⟩
      | _ => cases hkind
  | array js ih =>
      intro k rest rest' _ _ heq
      have hkind := kind_eq_of_renderAt heq
      cases k with
      | array ks =>
          rw [renderAt, renderAt, renderElements_eq_map, renderElements_eq_map] at heq
          obtain ⟨rfl, hends⟩ :=
            bracket_append_inj rfl (by decide) (fun j hj => ih j hj (depth + 1)) ks rest rest' heq
          exact ⟨rfl, hends⟩
      | _ => cases hkind
  | object ms ih =>
      intro k rest rest' _ _ heq
      have hkind := kind_eq_of_renderAt heq
      cases k with
      | object ns =>
          rw [renderAt, renderAt, renderMembers_eq_map, renderMembers_eq_map] at heq
          obtain ⟨rfl, hends⟩ := bracket_append_inj rfl (by decide)
            (fun m hm => readable_member (ih m hm (depth + 1))) ns rest rest' heq
          exact ⟨rfl, hends⟩
      | _ => cases hkind

theorem render_injective : Function.Injective render := by
  intro j k h
  exact (readable_renderAt 0 j).eq h

end TemplateMarkup.Json
