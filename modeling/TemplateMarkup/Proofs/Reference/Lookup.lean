import Mathlib.Data.List.Infix
import TemplateMarkup.Reference.Named

/-!
# What a lookup finds

A lookup runs to the first `;` of the text at hand. More text can change its answer in one way
only: it brings the first `;`, and the name that this completes is known. Such a text was cut
inside a reference (`CutsReference`); every other cut is harmless (`known?_append`).

The standard resolver knows names of letters and digits only, after a `#` if they are numeric.
-/

namespace TemplateMarkup.Reference

variable {resolve : Resolver} {ahead more name : List Char}

/-! ## The name ahead -/

theorem nameAhead?_append_cons {tail : List Char} (h : ';' ∉ name) :
    nameAhead? (name ++ ';' :: tail) = some name := by
  have hname : ∀ c ∈ name, (c != ';') = true := by
    intro c hc
    simpa using fun heq : c = ';' => h (heq ▸ hc)
  have hmem : ';' ∈ name ++ ';' :: tail := by simp
  rw [nameAhead?, if_pos hmem, List.takeWhile_append_of_pos hname]
  simp

theorem nameAhead?_eq_none (h : ';' ∉ ahead) : nameAhead? ahead = none :=
  if_neg h

/-- A text with a `;` in it is a name, the `;` and the rest. -/
theorem exists_name (h : ';' ∈ ahead) :
    ∃ name tail, ahead = name ++ ';' :: tail ∧ ';' ∉ name := by
  obtain ⟨name, tail, heq, hname⟩ := List.eq_append_cons_of_mem h
  exact ⟨name, tail, heq, hname⟩

/-! ## The reference ahead -/

/-- The length and the text of a reference that is known. -/
def Lookup.known? : Lookup → Option (Nat × String)
  | .resolved length text => some (length, text)
  | _ => none

theorem known?_lookup_of_notMem (h : ';' ∉ ahead) : (lookup resolve ahead).known? = none := by
  rw [lookup, nameAhead?_eq_none h]
  rfl

theorem known?_lookup_append_cons {tail : List Char} (h : ';' ∉ name) :
    (lookup resolve (name ++ ';' :: tail)).known? =
      (resolve (String.ofList name)).map (name.length, ·) := by
  rw [lookup, nameAhead?_append_cons h]
  cases hresolve : resolve (String.ofList name) <;> simp [hresolve, Lookup.known?]

theorem known?_lookup_eq_some {length : Nat} {text : String}
    (h : (lookup resolve ahead).known? = some (length, text)) :
    ∃ name tail, ahead = name ++ ';' :: tail ∧ ';' ∉ name ∧ length = name.length ∧
      resolve (String.ofList name) = some text := by
  by_cases hmem : ';' ∈ ahead
  · obtain ⟨name, tail, rfl, hname⟩ := exists_name hmem
    rw [known?_lookup_append_cons hname, Option.map_eq_some_iff] at h
    obtain ⟨text', hresolve, heq⟩ := h
    obtain ⟨rfl, rfl⟩ := Prod.mk.inj heq
    exact ⟨name, tail, rfl, hname, rfl, hresolve⟩
  · rw [known?_lookup_of_notMem hmem] at h
    cases h

/-! ## Cutting a text -/

/-- The cut between two parts of a text lies inside a reference that is known: after its `&`, and
not after its `;`. -/
def CutsReference (resolve : Resolver) (before after : List Char) : Prop :=
  ∃ opened ∈ before.tails, opened.head? = some '&' ∧ ';' ∉ opened ∧ ';' ∈ after ∧
    (resolve (String.ofList (opened.tail ++ after.takeWhile (· != ';')))).isSome

instance (resolve : Resolver) (before after : List Char) :
    Decidable (CutsReference resolve before after) := by
  unfold CutsReference
  infer_instance

/-- The resolver that knows no name. -/
def blind : Resolver :=
  fun _ => none

/-- Where no name is known there is no reference to cut. -/
theorem not_cutsReference_blind (before after : List Char) :
    ¬ CutsReference blind before after := by
  rintro ⟨_, _, _, _, _, h⟩
  cases h

/-- Where no reference is cut, more text does not change what an `&` stands for. -/
theorem known?_append {before : List Char}
    (h : ¬ CutsReference resolve (before ++ '&' :: ahead) more) :
    (lookup resolve (ahead ++ more)).known? = (lookup resolve ahead).known? := by
  by_cases hmem : ';' ∈ ahead
  · obtain ⟨name, tail, rfl, hname⟩ := exists_name hmem
    rw [List.append_assoc, List.cons_append, known?_lookup_append_cons hname,
      known?_lookup_append_cons hname]
  · rw [known?_lookup_of_notMem hmem]
    by_cases hmore : ';' ∈ more
    · obtain ⟨name, tail, rfl, hname⟩ := exists_name hmore
      have hjoined : ';' ∉ ahead ++ name := by simp [hmem, hname]
      have hunknown : resolve (String.ofList (ahead ++ name)) = none := by
        by_contra hne
        apply h
        refine ⟨'&' :: ahead, ?_, rfl, ?_, hmore, ?_⟩
        · exact (List.mem_tails _ _).mpr (List.suffix_append _ _)
        · simp [hmem]
        · have htake : (name ++ ';' :: tail).takeWhile (· != ';') = name :=
            Option.some.inj ((if_pos hmore).symm.trans (nameAhead?_append_cons hname))
          rw [htake]
          exact Option.isSome_iff_ne_none.mpr hne
      rw [← List.append_assoc, known?_lookup_append_cons hjoined, hunknown]
      rfl
    · exact known?_lookup_of_notMem (by simp [hmem, hmore])

/-- A reference that a text holds to its `;` needs nothing that follows the text. -/
theorem known?_of_append
    (h : ∀ length text, (lookup resolve (ahead ++ more)).known? = some (length, text) →
      length < ahead.length) :
    (lookup resolve ahead).known? = (lookup resolve (ahead ++ more)).known? := by
  by_cases hmem : ';' ∈ ahead
  · obtain ⟨name, tail, rfl, hname⟩ := exists_name hmem
    rw [List.append_assoc, List.cons_append, known?_lookup_append_cons hname,
      known?_lookup_append_cons hname]
  · rw [known?_lookup_of_notMem hmem]
    cases hknown : (lookup resolve (ahead ++ more)).known? with
    | none => rfl
    | some found =>
        obtain ⟨length, text⟩ := found
        have hlength := h length text hknown
        obtain ⟨name, tail, heq, -, rfl, -⟩ := known?_lookup_eq_some hknown
        -- the `;` would stand among the characters of `ahead`
        have htake := congrArg (List.take ahead.length) heq
        obtain ⟨d, hd⟩ := Nat.exists_eq_add_of_lt hlength
        rw [List.take_left, List.take_append, hd, Nat.add_assoc, Nat.add_sub_cancel_left,
          List.take_succ_cons] at htake
        refine absurd ?_ hmem
        rw [htake]
        simp

/-! ## The standard names -/

/-- A character that a standard name may hold. -/
def IsNameChar (c : Char) : Prop :=
  c = '#' ∨ c.isAlphanum = true

instance : DecidablePred IsNameChar := fun c =>
  inferInstanceAs (Decidable (c = '#' ∨ c.isAlphanum = true))

theorem isAlphanum_of_mem_names {p : String × String} (hp : p ∈ names) {c : Char}
    (hc : c ∈ p.1.toList) : c.isAlphanum = true := by
  have hall : (names.all fun p => p.1.toList.all Char.isAlphanum) = true := by decide
  exact List.all_eq_true.mp (List.all_eq_true.mp hall p hp) c hc

theorem isAlphanum_of_digit? {base d : Nat} {c : Char} (h : digit? base c = some d) :
    c.isAlphanum = true := by
  rw [digit?, Option.filter_eq_some_iff] at h
  obtain ⟨h, -⟩ := h
  split at h
  · rename_i hdigit
    have hc : c.isDigit = true :=
      Bool.and_eq_true_iff.mpr ⟨decide_eq_true hdigit.1, decide_eq_true hdigit.2⟩
    exact Bool.or_eq_true_iff.mpr (Or.inr hc)
  · split at h
    · rename_i hlower
      have hz : c.val ≤ 'z'.val := UInt32.le_trans hlower.2 (by decide)
      have hc : c.isLower = true :=
        Bool.and_eq_true_iff.mpr ⟨decide_eq_true hlower.1, decide_eq_true hz⟩
      have halpha : c.isAlpha = true := Bool.or_eq_true_iff.mpr (Or.inr hc)
      exact Bool.or_eq_true_iff.mpr (Or.inl halpha)
    · split at h
      · rename_i hupper
        have hz : c.val ≤ 'Z'.val := UInt32.le_trans hupper.2 (by decide)
        have hc : c.isUpper = true := decide_eq_true ⟨hupper.1, hz⟩
        have halpha : c.isAlpha = true := Bool.or_eq_true_iff.mpr (Or.inl hc)
        exact Bool.or_eq_true_iff.mpr (Or.inl halpha)
      · cases h

theorem isAlphanum_of_codePoint? {base : Nat} {digits : List Char} {n : UInt32}
    (h : codePoint? base digits = some n) : ∀ c ∈ digits, c.isAlphanum = true := by
  rw [codePoint?] at h
  split at h
  · cases h
  · rename_i hdigits
    intro c hc
    have hany := Bool.not_eq_true _ ▸ (not_or.mp hdigits).2
    have hsome : digit? base c ≠ none := by simpa using List.any_eq_false.mp hany c hc
    obtain ⟨d, hd⟩ := Option.ne_none_iff_exists'.mp hsome
    exact isAlphanum_of_digit? hd

/-- The standard names are written in letters and digits, but for the `#` of the numeric ones. -/
theorem isNameChar_of_standard {name text : String} (h : standard name = some text) :
    ∀ c ∈ name.toList, IsNameChar c := by
  rw [standard] at h
  split at h
  · rename_i number hname
    obtain ⟨d, hd, -⟩ := Option.map_eq_some_iff.mp h
    rw [hname]
    rintro c (_ | ⟨_, hc⟩)
    · exact Or.inl rfl
    · right
      cases number with
      | nil => cases hc
      | cons x digits =>
          rw [numeric?] at hd
          split at hd
          · rename_i hx
            obtain ⟨n, hn, -⟩ := Option.map_eq_some_iff.mp hd
            rcases List.mem_cons.mp hc with rfl | hc
            · rcases hx with rfl | rfl <;> rfl
            · exact isAlphanum_of_codePoint? hn c hc
          · obtain ⟨n, hn, -⟩ := Option.map_eq_some_iff.mp hd
            exact isAlphanum_of_codePoint? hn c hc
  · intro c hc
    obtain ⟨before, after, heq, -⟩ := List.lookup_eq_some_iff.mp h
    exact Or.inr (isAlphanum_of_mem_names (p := (name, text)) (by simp [heq]) hc)

end TemplateMarkup.Reference
