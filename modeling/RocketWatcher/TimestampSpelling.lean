import RocketWatcher.TimestampRoundTrip

/-!
# Spellings of an instant

The well-formed timestamps by what they say : a date, a time of day, a fraction and an offset,
each in its own notation. `parseIso8601` reads the instant, so the spellings of one instant are
all read alike (`parseIso8601_spelling`).
-/

open Scan

namespace RocketWatcher

/-- What may follow the time of day. The fields of an offset are any two digits. -/
inductive OffsetSpelling where
  | absent
  | zulu (lower : Bool)
  | offset (negative colon : Bool) (hour minute : Nat) (hour_le : hour ≤ 99)
      (minute_le : minute ≤ 99)

namespace OffsetSpelling

def text : OffsetSpelling → String
  | absent => ""
  | zulu lower => if lower then "z" else "Z"
  | offset negative colon hour minute _ _ =>
    (if negative then "-" else "+") ++ zeroPadded 2 hour ++ (if colon then ":" else "") ++
      zeroPadded 2 minute

def seconds : OffsetSpelling → Int
  | absent => 0
  | zulu _ => 0
  | offset negative _ hour minute _ _ =>
    (if negative then -1 else 1) * (hour * 3600 + minute * 60)

def suffix : OffsetSpelling → Suffix
  | absent => .absent
  | zulu lower => .zulu lower
  | offset negative colon hour minute _ _ =>
    .offset negative colon (paddedField 2 hour) (paddedField 2 minute)

theorem toList_text (o : OffsetSpelling) : o.text.toList = o.suffix.text := by
  cases o with
  | absent => rfl
  | zulu lower => cases lower <;> rfl
  | offset negative colon hour minute hour_le minute_le =>
    cases negative <;> cases colon <;> simp [text, suffix, Suffix.text, toList_zeroPadded]

theorem suffix_seconds (o : OffsetSpelling) : o.suffix.seconds = o.seconds := by
  cases o with
  | absent => rfl
  | zulu lower => rfl
  | offset => simp [suffix, seconds, Suffix.seconds, paddedField_value]

end OffsetSpelling

/-- A number of two digits is written with two digits. -/
theorem paddedField_two {n : Nat} (h : n ≤ 99) :
    (paddedField 2 n).Fits isSpace 2 ∧ (paddedField 2 n).text.length = 2 := by
  have hlow : -(10 ^ (2 - 1) : Nat) < (n : Int) := by omega
  have hhigh : (n : Int) < (10 ^ 2 : Nat) := by omega
  have hwidth := paddedField_width (by decide) hlow hhigh
  refine ⟨paddedField_fits (by decide) hlow hhigh, ?_⟩
  have hneg : ¬(n : Int) < 0 := by omega
  simpa [Field.width, Field.text, paddedField, hneg, Sign.text] using hwidth

theorem OffsetSpelling.suffix_accepted (o : OffsetSpelling) : o.suffix.Accepted := by
  cases o with
  | absent => trivial
  | zulu lower => trivial
  | offset negative colon hour minute hour_le minute_le =>
    obtain ⟨hhour, hhour'⟩ := paddedField_two hour_le
    obtain ⟨hminute, hminute'⟩ := paddedField_two minute_le
    have hwidth : (paddedField 2 (hour : Int)).width = 2 :=
      paddedField_width (by decide) (by omega) (by omega)
    exact ⟨hhour, hminute, by rw [hhour', hminute'], .inr (.inl hwidth)⟩

/-- A well-formed timestamp : four digits of a year, two of everything else, a date that exists,
at most a leap second. No fraction is the empty one. -/
structure Spelling where
  year : Nat
  month : Nat
  day : Nat
  hour : Nat
  minute : Nat
  second : Nat
  fraction : String
  offset : OffsetSpelling
  year_le : year ≤ 9999
  date : ValidDate year month day
  hour_le : hour ≤ 23
  minute_le : minute ≤ 59
  second_le : second ≤ 60
  fraction_digits : ∀ c ∈ fraction.toList, c.isDigit = true

namespace Spelling

def text (s : Spelling) : String :=
  zeroPadded 4 s.year ++ "-" ++ zeroPadded 2 s.month ++ "-" ++ zeroPadded 2 s.day ++ "T" ++
    zeroPadded 2 s.hour ++ ":" ++ zeroPadded 2 s.minute ++ ":" ++ zeroPadded 2 s.second ++
    (if s.fraction = "" then "" else "." ++ s.fraction) ++ s.offset.text

def instant (s : Spelling) : Int :=
  daysFromCivil s.year s.month s.day * 86400 + s.hour * 3600 + s.minute * 60 + s.second -
    s.offset.seconds

/-- The timestamp, as the parser takes it apart. -/
def stamp (s : Spelling) : Timestamp where
  year := paddedField 4 s.year
  month := paddedField 2 s.month
  day := paddedField 2 s.day
  hour := paddedField 2 s.hour
  minute := paddedField 2 s.minute
  second := paddedField 2 s.second
  fraction := s.fraction.toList
  suffix := s.offset.suffix

theorem toList_fraction (fraction : String) :
    (if fraction = "" then "" else "." ++ fraction).toList =
      Timestamp.fractionText fraction.toList := by
  split_ifs with h
  · rw [h]
    rfl
  · obtain ⟨c, digits, hcons⟩ := List.exists_cons_of_ne_nil (mt String.toList_eq_nil_iff.mp h)
    simp [hcons, Timestamp.fractionText]

theorem toList_text (s : Spelling) : s.text.toList = s.stamp.text := by
  simp [text, toList_zeroPadded, toList_fraction, OffsetSpelling.toList_text, stamp,
    Timestamp.text, Timestamp.tail]

theorem stamp_accepted (s : Spelling) : s.stamp.Accepted := by
  have hyear := s.year_le
  have hmonth := s.date.month_le
  have hday := Int.le_trans s.date.day_le (daysInMonth_le _ _)
  have hhour := s.hour_le
  have hminute := s.minute_le
  have hsecond := s.second_le
  exact
    { year := paddedField_fits (by decide) (by omega) (by omega)
      month := (paddedField_two (by omega)).1
      day := (paddedField_two (by omega)).1
      hour := (paddedField_two (by omega)).1
      minute := (paddedField_two (by omega)).1
      second := (paddedField_two (by omega)).1
      fraction := s.fraction_digits
      suffix := s.offset.suffix_accepted
      date := by simpa [stamp, paddedField_value] using s.date
      hour_le := (paddedField_value 2 s.hour).trans_le (by omega)
      minute_le := (paddedField_value 2 s.minute).trans_le (by omega)
      second_le := (paddedField_value 2 s.second).trans_le (by omega) }

theorem stamp_instant (s : Spelling) : s.stamp.instant = s.instant := by
  simp [Timestamp.instant, instant, stamp, paddedField_value, OffsetSpelling.suffix_seconds]

theorem fractionText_ne_nul {fraction : List Char} (h : ∀ c ∈ fraction, c.isDigit = true) :
    ∀ c ∈ Timestamp.fractionText fraction, c.toNat ≠ 0 := by
  cases fraction with
  | nil => simp [Timestamp.fractionText]
  | cons d digits =>
    exact List.forall_mem_cons.mpr ⟨by decide, fun c hc => isDigit_ne_nul (h c hc)⟩

theorem suffix_ne_nul (o : OffsetSpelling) : ∀ c ∈ o.suffix.text, c.toNat ≠ 0 := by
  cases o with
  | absent => simp [OffsetSpelling.suffix, Suffix.text]
  | zulu lower =>
    cases lower
    · decide
    · decide
  | offset negative colon hour minute =>
    simp only [OffsetSpelling.suffix, Suffix.text, List.forall_mem_cons, List.forall_mem_append]
    refine ⟨?_, paddedField_ne_nul 2 hour, ?_, paddedField_ne_nul 2 minute⟩
    · cases negative
      · decide
      · decide
    · cases colon
      · decide
      · decide

theorem text_ne_nul (s : Spelling) : ∀ c ∈ s.text.toList, c.toNat ≠ 0 := by
  rw [toList_text]
  refine Timestamp.text_ne_nul ?_ ?_
  · simp only [stamp, Timestamp.fields, List.forall_mem_cons]
    exact ⟨paddedField_ne_nul _ _, paddedField_ne_nul _ _, paddedField_ne_nul _ _,
      paddedField_ne_nul _ _, paddedField_ne_nul _ _, paddedField_ne_nul _ _, by simp⟩
  · exact List.forall_mem_append.mpr ⟨fractionText_ne_nul s.fraction_digits, suffix_ne_nul s.offset⟩

/-- A well-formed timestamp is accepted, with its instant. -/
theorem parseIso8601_text (s : Spelling) : parseIso8601 s.text = some s.instant :=
  parseIso8601_eq_some_iff.mpr
    ⟨s.stamp, s.stamp_accepted, by rw [cString_of_nul_free s.text_ne_nul, toList_text],
      s.stamp_instant⟩

/-- The same timestamp with another fraction. -/
def withFraction (s : Spelling) (fraction : String)
    (h : ∀ c ∈ fraction.toList, c.isDigit = true) : Spelling :=
  { s with fraction := fraction, fraction_digits := h }

end Spelling

/-- Every well-formed timestamp is accepted with its instant, whatever its fraction, and two
spellings of one instant are read alike. -/
theorem parseIso8601_spelling :
    (∀ s : Spelling, parseIso8601 s.text = some s.instant) ∧
      (∀ (s : Spelling) (fraction : String) (h : ∀ c ∈ fraction.toList, c.isDigit = true),
        parseIso8601 (s.withFraction fraction h).text = parseIso8601 s.text) ∧
      ∀ s s' : Spelling, s.instant = s'.instant → parseIso8601 s.text = parseIso8601 s'.text := by
  refine ⟨Spelling.parseIso8601_text, fun s fraction h => ?_, fun s s' hinstant => ?_⟩
  · rw [Spelling.parseIso8601_text, Spelling.parseIso8601_text]
    rfl
  · rw [Spelling.parseIso8601_text, Spelling.parseIso8601_text, hinstant]

/-- A leap day, seven hours behind UTC. -/
def leapDayEvening : Spelling where
  year := 2024
  month := 2
  day := 29
  hour := 18
  minute := 30
  second := 60
  fraction := "125"
  offset := .offset true false 7 0 (by decide) (by decide)
  year_le := by decide
  date := by decide
  hour_le := by decide
  minute_le := by decide
  second_le := by decide
  fraction_digits := by decide

/-- The same instant, in UTC. -/
def leapDayNight : Spelling where
  year := 2024
  month := 3
  day := 1
  hour := 1
  minute := 31
  second := 0
  fraction := ""
  offset := .zulu true
  year_le := by decide
  date := by decide
  hour_le := by decide
  minute_le := by decide
  second_le := by decide
  fraction_digits := by decide

example : leapDayEvening.text = "2024-02-29T18:30:60.125-0700" := by decide

theorem parseIso8601_spelling_leapDay :
    parseIso8601 leapDayEvening.text = parseIso8601 leapDayNight.text ∧
      parseIso8601 (leapDayEvening.withFraction "5" (by decide)).text =
        parseIso8601 leapDayEvening.text := by
  obtain ⟨-, hfraction, hinstant⟩ := parseIso8601_spelling
  exact ⟨hinstant leapDayEvening leapDayNight (by decide),
    hfraction leapDayEvening "5" (by decide)⟩

end RocketWatcher
