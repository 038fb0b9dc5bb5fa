import RocketWatcher.Iso8601

/-!
# Written timestamps

What `formatIso8601Utc` writes, field by field (`stampOf`), and that `parseIso8601` reads it back
for the years that fit into four characters, and for no others
(`parseIso8601_formatIso8601Utc_eq`).
-/

open Scan

namespace RocketWatcher

/-- The UTC year of the time point fits into the four characters of a written year. -/
def WritableTime (time : Int) : Prop :=
  -999 ≤ (splitLocal time).year ∧ (splitLocal time).year ≤ 9999

instance (time : Int) : Decidable (WritableTime time) :=
  inferInstanceAs (Decidable (_ ∧ _))

/-- The field `%0<width>d` writes. -/
def paddedField (width : Nat) (n : Int) : Field where
  blanks := []
  sign := if n < 0 then .minus else .absent
  digits :=
    List.replicate (width - (if n < 0 then 1 else 0) - (Nat.toDigits 10 n.natAbs).length) '0' ++
      Nat.toDigits 10 n.natAbs

theorem toList_zeroPadded (width : Nat) (n : Int) :
    (zeroPadded width n).toList = (paddedField width n).text := by
  have hlength : n.natAbs.repr.length = (Nat.toDigits 10 n.natAbs).length := by
    rw [← String.length_toList, Nat.toList_repr]
  by_cases h : n < 0
  · have hsign : "-".length = 1 := rfl
    simp [zeroPadded, paddedField, Field.text, Sign.text, h, hlength, hsign]
  · simp [zeroPadded, paddedField, Field.text, Sign.text, h, hlength]

theorem paddedField_value (width : Nat) (n : Int) : (paddedField width n).value = n := by
  have hdigits : Nat.ofDigitChars 10 (paddedField width n).digits 0 = n.natAbs := by
    rw [paddedField, Nat.ofDigitChars_append, Nat.ofDigitChars_replicate_zero, Nat.mul_zero,
      Nat.ofDigitChars_ten_toDigits]
  rw [Field.value, hdigits, paddedField]
  dsimp only
  split
  · simp only [Sign.apply]
    omega
  · simp only [Sign.apply]
    omega

theorem paddedField_digits (width : Nat) (n : Int) :
    ∀ c ∈ (paddedField width n).digits, c.isDigit = true := by
  intro c hc
  rcases List.mem_append.mp hc with hc | hc
  · rw [List.eq_of_mem_replicate hc]
    rfl
  · exact Nat.isDigit_of_mem_toDigits (by decide) (by decide) hc

/-- A number takes up the width, or more if its digits and its sign do. -/
theorem width_paddedField (width : Nat) (n : Int) :
    (paddedField width n).width =
      max width ((if n < 0 then 1 else 0) + (Nat.toDigits 10 n.natAbs).length) := by
  by_cases h : n < 0
  · simp only [Field.width, paddedField, h, ↓reduceIte, Sign.text, List.length_append,
      List.length_replicate, List.length_singleton]
    omega
  · simp only [Field.width, paddedField, h, ↓reduceIte, Sign.text, List.length_append,
      List.length_replicate, List.length_nil]
    omega

/-- A number with room for its sign takes up just the width. -/
theorem paddedField_width {width : Nat} {n : Int} (hwidth : 1 < width)
    (hlow : -(10 ^ (width - 1) : Nat) < n) (hhigh : n < (10 ^ width : Nat)) :
    (paddedField width n).width = width := by
  have hlength (k : Nat) (hk : 0 < k) (hn : n.natAbs < 10 ^ k) :
      (Nat.toDigits 10 n.natAbs).length ≤ k := (Nat.length_toDigits_le_iff (by decide) hk).mpr hn
  rw [width_paddedField]
  split_ifs with h
  · have hle := hlength (width - 1) (by omega) (by omega)
    omega
  · have hle := hlength width (by omega) (by omega)
    omega

theorem paddedField_fits {width : Nat} {n : Int} (hwidth : 1 < width)
    (hlow : -(10 ^ (width - 1) : Nat) < n) (hhigh : n < (10 ^ width : Nat)) :
    (paddedField width n).Fits isSpace width where
  blanks := by simp [paddedField]
  digits := paddedField_digits width n
  digits_ne_nil := by simp [paddedField, Nat.toDigits_ne_nil]
  width_le := (paddedField_width hwidth hlow hhigh).le

/-- The timestamp `formatIso8601Utc` writes. -/
def stampOf (time : Int) : Timestamp :=
  let c := splitLocal time
  { year := paddedField 4 c.year
    month := paddedField 2 c.month
    day := paddedField 2 c.day
    hour := paddedField 2 c.hour
    minute := paddedField 2 c.minute
    second := paddedField 2 c.second
    fraction := []
    suffix := .offset false true (paddedField 2 0) (paddedField 2 0) }

theorem toList_formatIso8601Utc (time : Int) :
    (formatIso8601Utc time).toList = (stampOf time).text := by
  simp [formatIso8601Utc, CivilTime.date, toList_zeroPadded, stampOf, Timestamp.text,
    Timestamp.tail, Timestamp.fractionText, Suffix.text]
  rfl

theorem splitLocal_bounds (time : Int) :
    0 ≤ (splitLocal time).hour ∧ (splitLocal time).hour ≤ 23 ∧ 0 ≤ (splitLocal time).minute ∧
      (splitLocal time).minute ≤ 59 ∧ 0 ≤ (splitLocal time).second ∧
      (splitLocal time).second ≤ 59 := by
  simp only [splitLocal]
  omega

/-- What is written for a time point is accepted while its year fits. -/
theorem stampOf_accepted {time : Int} (h : WritableTime time) : (stampOf time).Accepted := by
  obtain ⟨hlow, hhigh⟩ := h
  obtain ⟨hhour₀, hhour₁, hminute₀, hminute₁, hsecond₀, hsecond₁⟩ := splitLocal_bounds time
  have hdate : ValidDate (splitLocal time).year (splitLocal time).month (splitLocal time).day :=
    civilFromDays_valid (time / 86400)
  have hmonth := hdate.one_le_month
  have hmonth' := hdate.month_le
  have hday := hdate.one_le_day
  have hday' := Int.le_trans hdate.day_le (daysInMonth_le _ _)
  exact
    { year := paddedField_fits (by decide) (by omega) (by omega)
      month := paddedField_fits (by decide) (by omega) (by omega)
      day := paddedField_fits (by decide) (by omega) (by omega)
      hour := paddedField_fits (by decide) (by omega) (by omega)
      minute := paddedField_fits (by decide) (by omega) (by omega)
      second := paddedField_fits (by decide) (by omega) (by omega)
      fraction := by simp [stampOf]
      suffix := ⟨by decide, by decide, by decide, .inl rfl⟩
      date := by simpa [stampOf, paddedField_value] using hdate
      hour_le := by simpa [stampOf, paddedField_value] using hhour₁
      minute_le := by simpa [stampOf, paddedField_value] using hminute₁
      second_le := by
        simp only [stampOf, paddedField_value]
        omega }

/-- What is written for a time point denotes it. -/
theorem stampOf_instant (time : Int) : (stampOf time).instant = time := by
  have hdays : daysFromCivil (splitLocal time).year (splitLocal time).month (splitLocal time).day =
    time / 86400 := daysFromCivil_civilFromDays (time / 86400)
  simp only [Timestamp.instant, stampOf, paddedField_value, hdays, Suffix.seconds]
  simp only [splitLocal]
  omega

theorem isDigit_ne_nul {c : Char} (h : c.isDigit = true) : c.toNat ≠ 0 := by
  simp only [Char.isDigit, Bool.and_eq_true, decide_eq_true_eq] at h
  have hge : 48 ≤ c.toNat := h.1
  omega

theorem paddedField_ne_nul (width : Nat) (n : Int) :
    ∀ c ∈ (paddedField width n).text, c.toNat ≠ 0 := by
  intro c hc
  rw [Field.text, List.mem_append] at hc
  rcases hc with hc | hc
  · have hsign : c = '-' := by
      by_cases h : n < 0
      · simpa [paddedField, h, Sign.text] using hc
      · simp [paddedField, h, Sign.text] at hc
    rw [hsign]
    decide
  · exact isDigit_ne_nul (paddedField_digits width n c hc)

/-- A timestamp has no NUL when its fields have none. -/
theorem Timestamp.text_ne_nul {s : Timestamp} (hfields : ∀ f ∈ s.fields, ∀ c ∈ f.text, c.toNat ≠ 0)
    (htail : ∀ c ∈ s.tail, c.toNat ≠ 0) : ∀ c ∈ s.text, c.toNat ≠ 0 := by
  simp only [Timestamp.fields, List.forall_mem_cons] at hfields
  obtain ⟨hyear, hmonth, hday, hhour, hminute, hsecond, -⟩ := hfields
  simp only [Timestamp.text, List.forall_mem_append, List.forall_mem_cons]
  exact ⟨hyear, by decide, hmonth, by decide, hday, by decide, hhour, by decide, hminute,
    by decide, hsecond, htail⟩

/-- A written timestamp has no NUL. -/
theorem cString_formatIso8601Utc (time : Int) :
    cString (formatIso8601Utc time) = (stampOf time).text := by
  rw [← toList_formatIso8601Utc]
  refine cString_of_nul_free ?_
  rw [toList_formatIso8601Utc]
  refine Timestamp.text_ne_nul ?_ (by decide : ∀ c ∈ "+00:00".toList, c.toNat ≠ 0)
  simp only [stampOf, Timestamp.fields, List.forall_mem_cons]
  exact ⟨paddedField_ne_nul _ _, paddedField_ne_nul _ _, paddedField_ne_nul _ _,
    paddedField_ne_nul _ _, paddedField_ne_nul _ _, paddedField_ne_nul _ _, by simp⟩

/-- A timestamp that is written is read back, while its year fits. -/
theorem parseIso8601_formatIso8601Utc {time : Int} (h : WritableTime time) :
    parseIso8601 (formatIso8601Utc time) = some time :=
  parseIso8601_eq_some_iff.mpr
    ⟨stampOf time, stampOf_accepted h, (cString_formatIso8601Utc time).symm, stampOf_instant time⟩

/-- A number that does not fit takes up more than the width. -/
theorem width_lt_paddedField {width : Nat} {n : Int} (hwidth : 1 < width)
    (h : n ≤ -(10 ^ (width - 1) : Nat) ∨ (10 ^ width : Nat) ≤ n) :
    width < (paddedField width n).width := by
  have hlength (k : Nat) (hk : 0 < k) (hn : 10 ^ k ≤ n.natAbs) :
      k < (Nat.toDigits 10 n.natAbs).length := by
    refine Nat.lt_of_not_le fun hle => ?_
    have hlt := (Nat.length_toDigits_le_iff (by decide) hk).mp hle
    omega
  have hpos : 0 < 10 ^ (width - 1) := Nat.pow_pos (by decide)
  have hpos' : 0 < 10 ^ width := Nat.pow_pos (by decide)
  rw [width_paddedField]
  rcases h with h | h
  · have hneg : n < 0 := by omega
    have hlt := hlength (width - 1) (by omega) (by omega)
    rw [if_pos hneg]
    omega
  · have hlt := hlength width (by omega) (by omega)
    omega

/-- A year that does not fit is followed by another digit where the dash should be. -/
theorem parseIso8601_eq_none_of_not_writable {time : Int} (h : ¬WritableTime time) :
    parseIso8601 (formatIso8601Utc time) = none := by
  rw [Option.eq_none_iff_forall_ne_some]
  intro time' hparse
  obtain ⟨s, haccepted, htext, -⟩ := parseIso8601_eq_some_iff.mp hparse
  rw [cString_formatIso8601Utc] at htext
  have hyear : (splitLocal time).year ≤ -(10 ^ 3 : Nat) ∨
      (10 ^ 4 : Nat) ≤ (splitLocal time).year := by
    rw [WritableTime] at h
    omega
  have hsign : (paddedField 4 (splitLocal time).year).sign.text.length < 4 := by
    simp only [paddedField]
    split
    · decide
    · decide
  exact text_append_ne isSpace_spec haccepted.year (stops_cons.mpr (by decide))
    (by simp [paddedField]) (paddedField_digits 4 _) hsign
    (width_lt_paddedField (by decide) hyear) htext

/-- What is written for a time point is read back as that time point or not at all, and it is
read back just for the years from -999 to 9999. -/
theorem parseIso8601_formatIso8601Utc_eq (time : Int) :
    parseIso8601 (formatIso8601Utc time) = if WritableTime time then some time else none := by
  split_ifs with h
  · exact parseIso8601_formatIso8601Utc h
  · exact parseIso8601_eq_none_of_not_writable h

example : parseIso8601 (formatIso8601Utc (-62198755200)) = some (-62198755200) := by decide

end RocketWatcher
