import Mathlib.Data.List.Induction
import Mathlib.Data.Nat.Digits.Defs
import TemplateMarkup.Reference.Named

/-!
# Numerals

A numeric reference is read in 32 bits, but there is no bound on the number that it writes. The two
agree (`word?_eq_fit?`): the digits on the way never write more than all of them, so what does not fit
on the way does not fit in the end, and leading zeros take no room. A number that does not fit is too
great to be a code point, and so is the one that stands for it (`standsFor_characterOf`).
-/

namespace TemplateMarkup.Reference

variable {base n : Nat} {digits : List Char} {c : Char}

/-! ## The number that digits write -/

/-- The value of an ASCII digit, a letter in either case. For any other character it is sixteen. -/
def digitValue (c : Char) : Nat :=
  "0123456789abcdef".toList.idxOf c.toLower

/-- One digit or more, and nothing else. -/
def IsNumeral (base : Nat) (digits : List Char) : Prop :=
  digits ≠ [] ∧ ∀ c ∈ digits, digitValue c < base

instance (base : Nat) (digits : List Char) : Decidable (IsNumeral base digits) :=
  decidable_of_iff (digits ≠ [] ∧ (digits.all fun c => digitValue c < base) = true)
    (by simp [IsNumeral])

/-- The number that digits write, the first one being the most significant. -/
def value (base : Nat) (digits : List Char) : Nat :=
  Nat.ofDigits base (digits.reverse.map digitValue)

/-- The text behind a `#`, and the number that it writes. -/
inductive Writes : List Char → Nat → Prop
  | decimal {digits : List Char} (h : IsNumeral 10 digits) : Writes digits (value 10 digits)
  | hexadecimal {x : Char} {digits : List Char} (hx : x = 'x' ∨ x = 'X')
      (h : IsNumeral 16 digits) : Writes (x :: digits) (value 16 digits)

/-- The character that a number stands for: the one with this code point, and the replacement
character for zero, a surrogate, and what is beyond the last code point. -/
def StandsFor (n : Nat) (c : Char) : Prop :=
  if n = 0 ∨ (0xd800 ≤ n ∧ n ≤ 0xdfff) ∨ 0x10ffff < n then c = '\ufffd' else c.toNat = n

theorem value_concat (base : Nat) (digits : List Char) (c : Char) :
    value base (digits ++ [c]) = value base digits * base + digitValue c := by
  simp only [value, List.reverse_append, List.reverse_singleton, List.singleton_append,
    List.map_cons, Nat.ofDigits_cons]
  rw [Nat.add_comm, Nat.mul_comm]

/-! ## Digits -/

theorem digitValue_of_not_ascii (h : 128 ≤ c.toNat) : digitValue c = 16 := by
  have hlower : c.toLower = c := by
    unfold Char.toLower
    apply dif_neg
    rintro ⟨-, hz⟩
    have hle := UInt32.le_iff_toNat_le.mp hz
    have hz : ('Z').val.toNat = 90 := rfl
    rw [Char.toNat_val] at hle
    omega
  have hnot : c ∉ "0123456789abcdef".toList := by
    have hall : ("0123456789abcdef".toList.all fun d => d.toNat < 128) = true := by decide
    intro hmem
    have hlt : c.toNat < 128 := of_decide_eq_true (List.all_eq_true.mp hall c hmem)
    omega
  unfold digitValue
  rw [hlower, List.idxOf_eq_length hnot]
  rfl

theorem digit?_eq (hbase : base ≤ 16) (c : Char) :
    digit? base c = if digitValue c < base then some (digitValue c) else none := by
  by_cases h : c.toNat < 128
  · have hall : ∀ base ≤ 16, ∀ n < 128, digit? base (Char.ofNat n) =
        if digitValue (Char.ofNat n) < base then some (digitValue (Char.ofNat n)) else none := by
      decide +kernel
    simpa using hall base hbase c.toNat h
  · have hgreat : ∀ d : Char, d.toNat < 128 → ¬ c ≤ d := by
      intro d hd hle
      have hle := UInt32.le_iff_toNat_le.mp hle
      rw [Char.toNat_val, Char.toNat_val] at hle
      omega
    rw [digitValue_of_not_ascii (by omega), if_neg (by omega)]
    simp [digit?, hgreat '9' (by decide), hgreat 'f' (by decide), hgreat 'F' (by decide)]

/-! ## Arithmetic in 32 bits -/

/-- A number in 32 bits, if it fits. -/
def fit? (n : Nat) : Option UInt32 :=
  if n < UInt32.size then some (.ofNat n) else none

theorem fit?_of_lt (h : n < UInt32.size) : fit? n = some (.ofNat n) :=
  if_pos h

theorem fit?_of_le (h : UInt32.size ≤ n) : fit? n = none :=
  if_neg (Nat.not_lt.mpr h)

theorem product?_eq_fit? (m n : UInt32) : product? m n = fit? (m.toNat * n.toNat) := by
  unfold product? fit?
  rw [UInt32.ofNat_mul, UInt32.ofNat_toNat, UInt32.ofNat_toNat]

theorem sum?_eq_fit? (m n : UInt32) : sum? m n = fit? (m.toNat + n.toNat) := by
  unfold sum? fit?
  rw [UInt32.ofNat_add, UInt32.ofNat_toNat, UInt32.ofNat_toNat]

/-- One more digit. A product that does not fit leaves the sum too great as well. -/
theorem append_digit (hbase : base ≤ 16) {d : Nat} (hd : d < 16) (n : UInt32) :
    (product? n base.toUInt32).bind (fun m => sum? m d.toUInt32) = fit? (n.toNat * base + d) := by
  have hb : base.toUInt32.toNat = base := UInt32.toNat_ofNat_of_lt' (by simp [UInt32.size]; omega)
  have hd : d.toUInt32.toNat = d := UInt32.toNat_ofNat_of_lt' (by simp [UInt32.size]; omega)
  rw [product?_eq_fit?, hb]
  by_cases hfits : n.toNat * base < UInt32.size
  · rw [fit?_of_lt hfits, Option.bind_some, sum?_eq_fit?, UInt32.toNat_ofNat_of_lt' hfits, hd]
  · rw [fit?_of_le (by omega), fit?_of_le (by omega), Option.bind_none]

/-- **32 bits hold what fits in the end.** The number of a numeral is read in 32 bits exactly if it is
less than the numbers they hold, however many digits it has. -/
theorem word?_eq_fit? (hbase : 0 < base) (hle : base ≤ 16)
    (h : ∀ c ∈ digits, digitValue c < base) : word? base digits = fit? (value base digits) := by
  induction digits using List.reverseRecOn with
  | nil => rfl
  | append_singleton digits c ih =>
      have hc : digitValue c < base := h c (by simp)
      have ih := ih fun d hd => h d (by simp [hd])
      have hstep : word? base (digits ++ [c]) = (word? base digits).bind fun n =>
          (product? n base.toUInt32).bind fun m => sum? m (digitValue c).toUInt32 := by
        unfold word?
        rw [List.foldlM_append]
        simp [digit?_eq hle, hc]
      rw [hstep, ih, value_concat]
      by_cases hfits : value base digits < UInt32.size
      · rw [fit?_of_lt hfits, Option.bind_some, append_digit hle (by omega),
          UInt32.toNat_ofNat_of_lt' hfits]
      · -- what did not fit without the digit does not fit with it
        have hgrows := Nat.le_mul_of_pos_right (value base digits) hbase
        rw [fit?_of_le (by omega), fit?_of_le (by omega), Option.bind_none]

/-! ## What a numeral names -/

theorem codePoint?_of_isNumeral (hbase : 0 < base) (hle : base ≤ 16) (h : IsNumeral base digits) :
    codePoint? base digits = some ((fit? (value base digits)).getD 0xffffffff) := by
  obtain ⟨hne, hdigits⟩ := h
  have hall : ¬ (digits.isEmpty ∨ digits.any (fun c => (digit? base c).isNone)) := by
    rw [not_or]
    refine ⟨by simpa using hne, ?_⟩
    rw [List.any_eq_true]
    rintro ⟨c, hc, hnone⟩
    simp [digit?_eq hle, hdigits c hc] at hnone
  rw [codePoint?, if_neg hall, word?_eq_fit? hbase hle hdigits]

theorem isNumeral_of_codePoint? (hle : base ≤ 16) {w : UInt32} (h : codePoint? base digits = some w) :
    IsNumeral base digits := by
  unfold codePoint? at h
  split at h
  · cases h
  · rename_i hall
    obtain ⟨hne, hany⟩ := not_or.mp hall
    refine ⟨by simpa using hne, ?_⟩
    intro c hc
    by_contra hnot
    apply hany
    rw [List.any_eq_true]
    exact ⟨c, hc, by simp [digit?_eq hle, hnot]⟩

/-- A number that does not fit into 32 bits is beyond the last code point, and so is the one that
stands for it. -/
theorem standsFor_characterOf (n : Nat) : StandsFor n (characterOf ((fit? n).getD 0xffffffff)) := by
  by_cases hfits : n < UInt32.size
  · have hn : (UInt32.ofNat n).toNat = n := UInt32.toNat_ofNat_of_lt' hfits
    have hzero : UInt32.ofNat n = 0 ↔ n = 0 := by
      rw [← UInt32.toNat_inj, hn]
      rfl
    have hvalid : (UInt32.ofNat n).isValidChar ↔ n.isValidChar := by
      unfold UInt32.isValidChar
      rw [hn]
    rw [fit?_of_lt hfits, Option.getD_some]
    unfold StandsFor characterOf
    by_cases hcode : n ≠ 0 ∧ n.isValidChar
    · have hword : UInt32.ofNat n ≠ 0 ∧ (UInt32.ofNat n).isValidChar :=
        ⟨hzero.not.mpr hcode.1, hvalid.mpr hcode.2⟩
      rw [dif_pos hword, if_neg (by omega)]
      exact hn
    · have hword : ¬ (UInt32.ofNat n ≠ 0 ∧ (UInt32.ofNat n).isValidChar) := by
        rwa [Ne, hzero, hvalid]
      rw [dif_neg hword, if_pos (by omega)]
  · have hsize : UInt32.size = 4294967296 := rfl
    unfold StandsFor
    rw [fit?_of_le (by omega), Option.getD_none, if_pos (by omega)]
    decide

theorem standard_hash (number : String) :
    standard ("#" ++ number) = (numeric? number.toList).map String.singleton := by
  simp [standard]

theorem numeric?_of_writes {number : List Char} (h : Writes number n) :
    ∃ c, numeric? number = some c ∧ StandsFor n c := by
  refine ⟨_, ?_, standsFor_characterOf n⟩
  cases h with
  | decimal h =>
      cases number with
      | nil => exact absurd rfl h.1
      | cons c digits =>
          have hc : ¬ (c = 'x' ∨ c = 'X') := by
            have hlt := h.2 c (by simp)
            rintro (rfl | rfl) <;> exact absurd hlt (by decide)
          rw [numeric?, if_neg hc, codePoint?_of_isNumeral (by decide) (by decide) h, Option.map_some]
  | hexadecimal hx h =>
      rw [numeric?, if_pos hx, codePoint?_of_isNumeral (by decide) (by decide) h, Option.map_some]

theorem exists_writes {number : List Char} (h : (numeric? number).isSome) : ∃ n, Writes number n := by
  cases number with
  | nil => cases h
  | cons c digits =>
      by_cases hx : c = 'x' ∨ c = 'X'
      · rw [numeric?, if_pos hx, Option.isSome_map] at h
        obtain ⟨w, hw⟩ := Option.isSome_iff_exists.mp h
        exact ⟨_, .hexadecimal hx (isNumeral_of_codePoint? (by decide) hw)⟩
      · rw [numeric?, if_neg hx, Option.isSome_map] at h
        obtain ⟨w, hw⟩ := Option.isSome_iff_exists.mp h
        exact ⟨_, .decimal (isNumeral_of_codePoint? (by decide) hw)⟩

/-- **A numeric reference stands for its number.** The name with a `#` in front is known exactly if a
number is written behind the `#`: in decimal digits, or behind an `x` in hexadecimal ones. Of whatever
length that number is, the name stands for its character. -/
theorem numeric_reference (number : String) :
    ((standard ("#" ++ number)).isSome ↔ ∃ n, Writes number.toList n) ∧
      ∀ n, Writes number.toList n →
        ∃ c, standard ("#" ++ number) = some (String.singleton c) ∧ StandsFor n c := by
  have hknown : ∀ n, Writes number.toList n →
      ∃ c, standard ("#" ++ number) = some (String.singleton c) ∧ StandsFor n c := by
    intro n hn
    obtain ⟨c, hc, hstands⟩ := numeric?_of_writes hn
    exact ⟨c, by rw [standard_hash, hc, Option.map_some], hstands⟩
  refine ⟨⟨?_, ?_⟩, hknown⟩
  · intro h
    rw [standard_hash, Option.isSome_map] at h
    exact exists_writes h
  · rintro ⟨n, hn⟩
    obtain ⟨c, hc, -⟩ := hknown n hn
    rw [hc]
    rfl

/-- Of two numbers with many digits one is a code point behind its zeros. The other does not fit into
32 bits, and its remainder there would be a letter. -/
theorem numeric_reference_of_many_digits :
    (Writes "x000000000000000001f600".toList 0x1f600 ∧
      ∃ c, standard "#x000000000000000001f600" = some (String.singleton c) ∧ c.toNat = 0x1f600) ∧
    Writes "4294967361".toList (2 ^ 32 + 65) ∧
      standard "#4294967361" = some (String.singleton '\ufffd') := by
  have hdigits : IsNumeral 16 "000000000000000001f600".toList := by decide
  have hzeros : Writes "x000000000000000001f600".toList 0x1f600 := .hexadecimal (.inl rfl) hdigits
  have hgreat : Writes "4294967361".toList (2 ^ 32 + 65) := .decimal (by decide)
  obtain ⟨c, hc, hstands⟩ := (numeric_reference "x000000000000000001f600").2 _ hzeros
  obtain ⟨d, hd, hnone⟩ := (numeric_reference "4294967361").2 _ hgreat
  have hd' : d = '\ufffd' := hnone
  exact ⟨⟨hzeros, c, hc, hstands⟩, hgreat, hd' ▸ hd⟩

end TemplateMarkup.Reference
