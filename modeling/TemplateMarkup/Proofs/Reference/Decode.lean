import TemplateMarkup.Proofs.Reference.Lookup

/-!
# Decoded text

The text that is left when every known reference of a text is replaced by what it stands for. The
decoder knows nothing of tokens: it goes through the text from left to right, and what a reference
stands for is not looked at again.

How the lexer may read a part of a text as that part alone is a matter of the references that begin
in it: none of them may reach into what follows (`Bars`).
-/

namespace TemplateMarkup.Reference

variable {resolve : Resolver} {cs ahead tail name rest : List Char} {c : Char} {text : String}

/-! ## The decoder -/

/-- The known reference that a text begins with: what it stands for, and the text behind its `;`. -/
def opening? (resolve : Resolver) (cs : List Char) : Option (String × List Char) :=
  match cs with
  | [] => none
  | c :: ahead =>
    if c = '&' ∧ ';' ∈ ahead then
      (resolve (String.ofList (ahead.takeWhile (· != ';')))).map
        (·, (ahead.dropWhile (· != ';')).tail)
    else none

theorem opening?_of_ne (hc : c ≠ '&') : opening? resolve (c :: ahead) = none :=
  if_neg fun h => hc h.1

theorem opening?_of_notMem (h : ';' ∉ ahead) : opening? resolve (c :: ahead) = none :=
  if_neg fun hboth => h hboth.2

theorem opening?_append_cons (h : ';' ∉ name) :
    opening? resolve ('&' :: (name ++ ';' :: tail)) =
      (resolve (String.ofList name)).map (·, tail) := by
  have hname : ∀ c ∈ name, (c != ';') = true := by
    intro c hc
    simpa using fun heq : c = ';' => h (heq ▸ hc)
  have hmem : ';' ∈ name ++ ';' :: tail := by simp
  rw [opening?, if_pos ⟨rfl, hmem⟩, List.takeWhile_append_of_pos hname,
    List.dropWhile_append_of_pos hname]
  simp

/-- A known reference is an `&`, a known name and a `;`. -/
theorem opening?_eq_some (h : opening? resolve cs = some (text, tail)) :
    ∃ name, cs = '&' :: (name ++ ';' :: tail) ∧ ';' ∉ name ∧
      resolve (String.ofList name) = some text := by
  cases cs with
  | nil => cases h
  | cons c ahead =>
      by_cases hboth : c = '&' ∧ ';' ∈ ahead
      · obtain ⟨rfl, hmem⟩ := hboth
        obtain ⟨name, tail', rfl, hname⟩ := exists_name hmem
        rw [opening?_append_cons hname, Option.map_eq_some_iff] at h
        obtain ⟨text', hresolve, heq⟩ := h
        obtain ⟨rfl, rfl⟩ := Prod.mk.inj heq
        exact ⟨name, rfl, hname, hresolve⟩
      · rw [opening?, if_neg hboth] at h
        cases h

theorem length_lt_of_opening? (h : opening? resolve cs = some (text, tail)) :
    tail.length < cs.length := by
  obtain ⟨name, rfl, -⟩ := opening?_eq_some h
  simp only [List.length_cons, List.length_append]
  omega

/-- The pieces of the decoded text: one for each known reference, and one for every character that
stands for itself. -/
def parts (resolve : Resolver) : List Char → List String
  | [] => []
  | c :: rest =>
    match h : opening? resolve (c :: rest) with
    | some (text, tail) =>
      have := length_lt_of_opening? h
      text :: parts resolve tail
    | none => String.singleton c :: parts resolve rest
termination_by cs => cs.length
decreasing_by
  · exact this
  · exact Nat.lt_succ_self rest.length

/-- The text in which every known reference is what it stands for. -/
def decode (resolve : Resolver) (cs : List Char) : String :=
  String.join (parts resolve cs)

@[simp] theorem parts_nil (resolve : Resolver) : parts resolve [] = [] := by
  rw [parts]

theorem parts_of_known (h : opening? resolve cs = some (text, tail)) :
    parts resolve cs = text :: parts resolve tail := by
  cases cs with
  | nil => cases h
  | cons c rest =>
      rw [parts]
      split <;> simp_all

theorem parts_of_unknown (h : opening? resolve (c :: rest) = none) :
    parts resolve (c :: rest) = String.singleton c :: parts resolve rest := by
  rw [parts]
  split <;> simp_all

theorem parts_ne_nil (resolve : Resolver) (h : cs ≠ []) : parts resolve cs ≠ [] := by
  cases cs with
  | nil => exact absurd rfl h
  | cons c rest =>
      rw [parts]
      split <;> simp

theorem decode_of_known (h : opening? resolve cs = some (text, tail)) :
    decode resolve cs = text ++ decode resolve tail := by
  rw [decode, parts_of_known h, String.join_cons, decode]

theorem decode_of_unknown (h : opening? resolve (c :: rest) = none) :
    decode resolve (c :: rest) = String.singleton c ++ decode resolve rest := by
  rw [decode, parts_of_unknown h, String.join_cons, decode]

/-- Without an `&` there is nothing to decode. -/
theorem decode_append_of_notMem (h : '&' ∉ cs) (rest : List Char) :
    decode resolve (cs ++ rest) = String.ofList cs ++ decode resolve rest := by
  induction cs with
  | nil => simp
  | cons c cs ih =>
      have hc : c ≠ '&' := by
        rintro rfl
        simp at h
      have hcs : '&' ∉ cs := fun hmem => h (by simp [hmem])
      rw [List.cons_append, decode_of_unknown (opening?_of_ne hc), ih hcs, String.ofList_cons,
        String.append_assoc]

/-- The text in which the first character stands for itself, whatever it begins. -/
def decodeBehindFirst (resolve : Resolver) : List Char → String
  | [] => ""
  | c :: rest => String.singleton c ++ decode resolve rest

/-! ## References and what follows them -/

/-- No known name holds the character. -/
def Avoids (resolve : Resolver) (c : Char) : Prop :=
  ∀ name text, resolve name = some text → c ∉ name.toList

/-- No known reference that begins in front of `rest` reaches into it. -/
def Bars (resolve : Resolver) (rest : List Char) : Prop :=
  ∀ before, ';' ∉ before → opening? resolve ('&' :: (before ++ rest)) = none

theorem bars_nil (resolve : Resolver) : Bars resolve [] :=
  fun before hbefore => opening?_of_notMem (by simpa using hbefore)

/-- A character that no known name holds ends every name. -/
theorem Avoids.bars_cons (h : Avoids resolve c) (hc : c ≠ ';') (rest : List Char) :
    Bars resolve (c :: rest) := by
  intro before hbefore
  by_cases hmem : ';' ∈ rest
  · obtain ⟨name, tail, rfl, hname⟩ := exists_name hmem
    have hsplit : before ++ c :: (name ++ ';' :: tail) = (before ++ c :: name) ++ ';' :: tail := by
      simp
    have hjoined : ';' ∉ before ++ c :: name := by simp [hbefore, hc.symm, hname]
    have hunknown : resolve (String.ofList (before ++ c :: name)) = none := by
      by_contra hne
      obtain ⟨text, htext⟩ := Option.ne_none_iff_exists'.mp hne
      exact h _ text htext (by simp)
    rw [hsplit, opening?_append_cons hjoined, hunknown, Option.map_none]
  · exact opening?_of_notMem (by simp [hbefore, hc.symm, hmem])

/-- In front of such a text a reference is what it is alone. -/
theorem opening?_append (h : Bars resolve rest) (c : Char) (ahead : List Char) :
    opening? resolve (c :: ahead ++ rest) =
      (opening? resolve (c :: ahead)).map fun found => (found.1, found.2 ++ rest) := by
  by_cases hc : c = '&'
  · subst hc
    by_cases hmem : ';' ∈ ahead
    · obtain ⟨name, tail, rfl, hname⟩ := exists_name hmem
      rw [List.cons_append, List.append_assoc, List.cons_append, opening?_append_cons hname,
        opening?_append_cons hname, Option.map_map]
      rfl
    · rw [List.cons_append, h ahead hmem, opening?_of_notMem hmem, Option.map_none]
  · rw [List.cons_append, opening?_of_ne hc, opening?_of_ne hc, Option.map_none]

/-! ## The standard references -/

theorem avoids_standard (hc : ¬ IsNameChar c) : Avoids standard c :=
  fun _ _ h hmem => hc (isNameChar_of_standard h c hmem)

/-- A standard name has a character, and stands for two at the most. -/
theorem length_of_standard {name : String} (h : standard name = some text) :
    0 < name.length ∧ text.length ≤ 2 := by
  rw [standard] at h
  split at h
  · rename_i number hname
    obtain ⟨d, -, rfl⟩ := Option.map_eq_some_iff.mp h
    rw [← String.length_toList, hname]
    simp
  · have hall : (names.all fun p => 0 < p.1.length && p.2.length ≤ 2) = true := by decide
    obtain ⟨before, after, heq, -⟩ := List.lookup_eq_some_iff.mp h
    have hmem : (name, text) ∈ names := by simp [heq]
    simpa using List.all_eq_true.mp hall _ hmem

/-- No standard reference stands for itself, so the first character matters exactly where it begins
one. -/
theorem decodeBehindFirst_eq_iff (cs : List Char) :
    decodeBehindFirst standard cs = decode standard cs ↔ opening? standard cs = none := by
  constructor
  · intro heq
    by_contra hne
    obtain ⟨⟨text, tail⟩, hopen⟩ := Option.ne_none_iff_exists'.mp hne
    rw [decode_of_known hopen] at heq
    obtain ⟨name, rfl, -, hname⟩ := opening?_eq_some hopen
    obtain ⟨hpos, htext⟩ := length_of_standard hname
    have hamp : '&' ∉ name ++ [';'] := by
      intro hmem
      rcases List.mem_append.mp hmem with hmem | hmem
      · have hchar := isNameChar_of_standard hname '&' (by simpa using hmem)
        exact absurd hchar (by decide)
      · simp at hmem
    have hsplit : name ++ ';' :: tail = (name ++ [';']) ++ tail := by simp
    rw [decodeBehindFirst, hsplit, decode_append_of_notMem hamp] at heq
    have hlength := congrArg (fun s => s.toList.length) heq
    simp only [String.toList_append, String.toList_singleton, String.toList_ofList,
      List.length_append, List.length_singleton, String.length_toList] at hlength
    rw [String.length_ofList] at hpos
    omega
  · intro hopen
    cases cs with
    | nil => simp [decodeBehindFirst, decode]
    | cons c rest => rw [decode_of_unknown hopen, decodeBehindFirst]

end TemplateMarkup.Reference
