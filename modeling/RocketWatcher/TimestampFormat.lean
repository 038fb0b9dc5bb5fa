import RocketWatcher.Iso8601

/-!
# The documented timestamp format

`parseIso8601` reads the documented timestamps, and also texts whose fields have white space or
a sign in front, or too few digits, or whose offset is out of range. On all other texts what it
accepts is a documented timestamp with its instant (`parseIso8601_strict_iff`).
-/

open Scan

namespace RocketWatcher

/-- Just the digits. -/
structure Plain (width : Nat) (f : Field) : Prop where
  blanks : f.blanks = []
  sign : f.sign = .absent
  digits : ∀ c ∈ f.digits, c.isDigit = true
  length : f.digits.length = width

/-- The field has white space in front, a sign, or less digits than places. -/
def Sloppy (width : Nat) (f : Field) : Prop :=
  f.blanks ≠ [] ∨ f.sign ≠ .absent ∨ f.digits.length < width

theorem Plain.fits {width : Nat} {f : Field} (h : Plain width f) (hwidth : 0 < width) :
    f.Fits isSpace width where
  blanks := by simp [h.blanks]
  digits := h.digits
  digits_ne_nil := List.length_pos_iff.mp (h.length ▸ hwidth)
  width_le := by simp [Field.width, h.sign, Sign.text, h.length]

theorem Plain.length_text {width : Nat} {f : Field} (h : Plain width f) :
    f.text.length = width := by
  simp [Field.text, h.blanks, h.sign, Sign.text, h.length]

/-- A field that fits is plain or sloppy. -/
theorem plain_iff_not_sloppy {width : Nat} {f : Field} (h : f.Fits isSpace width) :
    Plain width f ↔ ¬Sloppy width f := by
  have hwidth := h.width_le
  simp only [Sloppy, not_or, not_not, Nat.not_lt]
  constructor
  · intro hplain
    exact ⟨hplain.blanks, hplain.sign, hplain.length.ge⟩
  · rintro ⟨hblanks, hsign, hlength⟩
    refine ⟨hblanks, hsign, h.digits, ?_⟩
    simp only [Field.width, hsign, Sign.text, List.length_nil] at hwidth
    omega

/-- The offsets of the format. -/
def Suffix.Documented : Suffix → Prop
  | absent => True
  | zulu _ => True
  | offset _ _ hour minute =>
    Plain 2 hour ∧ Plain 2 minute ∧ hour.value ≤ 23 ∧ minute.value ≤ 59

/-- The format : four digits, `-`, two, `-`, two, `T`, two, `:`, two, `:`, two, a fraction, an
offset, for a date and a time of day that exist. -/
structure Timestamp.Documented (s : Timestamp) : Prop where
  year : Plain 4 s.year
  month : Plain 2 s.month
  day : Plain 2 s.day
  hour : Plain 2 s.hour
  minute : Plain 2 s.minute
  second : Plain 2 s.second
  fraction : ∀ c ∈ s.fraction, c.isDigit = true
  suffix : s.suffix.Documented
  date : ValidDate s.year.value s.month.value s.day.value
  hour_le : s.hour.value ≤ 23
  minute_le : s.minute.value ≤ 59
  second_le : s.second.value ≤ 60

/-- An offset with a sloppy field, or out of range. -/
def Suffix.Sloppy : Suffix → Prop
  | absent => False
  | zulu _ => False
  | offset _ _ hour minute =>
    RocketWatcher.Sloppy 2 hour ∨ RocketWatcher.Sloppy 2 minute ∨ 23 < hour.value ∨
      59 < minute.value

/-- Some field is sloppy, or the offset is out of range. -/
def Timestamp.Sloppy (s : Timestamp) : Prop :=
  RocketWatcher.Sloppy 4 s.year ∨ RocketWatcher.Sloppy 2 s.month ∨ RocketWatcher.Sloppy 2 s.day ∨
    RocketWatcher.Sloppy 2 s.hour ∨ RocketWatcher.Sloppy 2 s.minute ∨
    RocketWatcher.Sloppy 2 s.second ∨ s.suffix.Sloppy

theorem Suffix.documented_iff {suffix : Suffix} (h : suffix.Accepted) :
    suffix.Documented ↔ ¬suffix.Sloppy := by
  cases suffix with
  | absent => simp [Suffix.Documented, Suffix.Sloppy]
  | zulu lower => simp [Suffix.Documented, Suffix.Sloppy]
  | offset negative colon hour minute =>
    obtain ⟨hhour, hminute, -, -⟩ := h
    simp only [Suffix.Documented, Suffix.Sloppy, not_or, Int.not_lt,
      plain_iff_not_sloppy hhour, plain_iff_not_sloppy hminute]

/-- An accepted timestamp is documented unless it is sloppy. -/
theorem Timestamp.documented_iff {s : Timestamp} (h : s.Accepted) :
    s.Documented ↔ ¬s.Sloppy := by
  simp only [Timestamp.Sloppy, not_or, ← plain_iff_not_sloppy h.year,
    ← plain_iff_not_sloppy h.month, ← plain_iff_not_sloppy h.day,
    ← plain_iff_not_sloppy h.hour, ← plain_iff_not_sloppy h.minute,
    ← plain_iff_not_sloppy h.second, ← Suffix.documented_iff h.suffix]
  constructor
  · intro hdoc
    exact ⟨hdoc.year, hdoc.month, hdoc.day, hdoc.hour, hdoc.minute, hdoc.second, hdoc.suffix⟩
  · rintro ⟨hyear, hmonth, hday, hhour, hminute, hsecond, hsuffix⟩
    exact ⟨hyear, hmonth, hday, hhour, hminute, hsecond, h.fraction, hsuffix, h.date, h.hour_le,
      h.minute_le, h.second_le⟩

theorem Suffix.Documented.accepted {suffix : Suffix} (h : suffix.Documented) :
    suffix.Accepted := by
  cases suffix with
  | absent => trivial
  | zulu lower => trivial
  | offset negative colon hour minute =>
    obtain ⟨hhour, hminute, -, -⟩ := h
    refine ⟨hhour.fits (by decide), hminute.fits (by decide), ?_, .inr (.inl ?_)⟩
    · rw [hhour.length_text, hminute.length_text]
    · simp [Field.width, hhour.sign, Sign.text, hhour.length]

theorem Timestamp.Documented.accepted {s : Timestamp} (h : s.Documented) : s.Accepted where
  year := h.year.fits (by decide)
  month := h.month.fits (by decide)
  day := h.day.fits (by decide)
  hour := h.hour.fits (by decide)
  minute := h.minute.fits (by decide)
  second := h.second.fits (by decide)
  fraction := h.fraction
  suffix := h.suffix.accepted
  date := h.date
  hour_le := h.hour_le
  minute_le := h.minute_le
  second_le := h.second_le

/-! ## One text, one timestamp -/

theorem fractionText_unique {fraction fraction' : List Char} {suffix suffix' : Suffix}
    (h : ∀ c ∈ fraction, c.isDigit = true) (h' : ∀ c ∈ fraction', c.isDigit = true)
    (htext : Timestamp.fractionText fraction ++ suffix.text =
      Timestamp.fractionText fraction' ++ suffix'.text) :
    fraction = fraction' ∧ suffix.text = suffix'.text := by
  have hskip := skipFraction_append h suffix
  rw [htext, skipFraction_append h' suffix', Option.some.injEq] at hskip
  rw [hskip, List.append_cancel_right_eq] at htext
  refine ⟨?_, hskip.symm⟩
  cases fraction with
  | nil =>
    cases fraction' with
    | nil => rfl
    | cons c' fraction' => simp [Timestamp.fractionText] at htext
  | cons c fraction =>
    cases fraction' with
    | nil => simp [Timestamp.fractionText] at htext
    | cons c' fraction' => simpa [Timestamp.fractionText] using htext

theorem Field.text_unique {width : Nat} {f f' : Field} (h : f.Fits isSpace width)
    (h' : f'.Fits isSpace width) (htext : f.text = f'.text) : f = f' :=
  (fits_unique isSpace_spec h (endsBefore_nil width f) h' (endsBefore_nil width f')
    (by simp [htext])).1

/-- The hours of an offset are read to their end. -/
theorem Suffix.Accepted.endsBefore {negative colon : Bool} {hour minute : Field}
    (h : (Suffix.offset negative colon hour minute).Accepted) :
    hour.EndsBefore 2 ((if colon then [':'] else []) ++ minute.text) := by
  obtain ⟨-, -, -, hends⟩ := h
  cases colon with
  | true => exact endsBefore_cons rfl 2 hour minute.text
  | false => simpa using hends

theorem offsetText_unique {negative negative' colon colon' : Bool}
    {hour minute hour' minute' : Field}
    (h : (Suffix.offset negative colon hour minute).Accepted)
    (h' : (Suffix.offset negative' colon' hour' minute').Accepted)
    (htext : offsetText colon hour minute = offsetText colon' hour' minute') :
    colon = colon' ∧ hour = hour' ∧ minute = minute' := by
  obtain ⟨rfl, hrest⟩ := fits_unique isSpace_spec h.1 h.endsBefore h'.1 h'.endsBefore htext
  refine (fun ⟨hcolon, hminute⟩ => ⟨hcolon, rfl, hminute⟩) (?_ : colon = colon' ∧ minute = minute')
  cases colon with
  | true =>
    cases colon' with
    | true => exact ⟨rfl, Field.text_unique h.2.1 h'.2.1 (by simpa using hrest)⟩
    | false => exact absurd hrest.symm (by simpa using fits_ne_colon h'.2.1 [] minute.text)
  | false =>
    cases colon' with
    | true => exact absurd hrest (by simpa using fits_ne_colon h.2.1 [] minute'.text)
    | false => exact ⟨rfl, Field.text_unique h.2.1 h'.2.1 (by simpa using hrest)⟩

theorem Suffix.text_unique {suffix suffix' : Suffix} (h : suffix.Accepted) (h' : suffix'.Accepted)
    (htext : suffix.text = suffix'.text) : suffix = suffix' := by
  cases suffix with
  | absent =>
    cases suffix' with
    | absent => rfl
    | zulu lower' => cases htext
    | offset => cases htext
  | zulu lower =>
    cases suffix' with
    | absent => cases htext
    | zulu lower' => cases lower <;> cases lower' <;> simp_all [Suffix.text]
    | offset negative' => cases lower <;> cases negative' <;> simp [Suffix.text] at htext
  | offset negative colon hour minute =>
    cases suffix' with
    | absent => cases htext
    | zulu lower' => cases lower' <;> cases negative <;> simp [Suffix.text] at htext
    | offset negative' colon' hour' minute' =>
      obtain ⟨hsign, hrest⟩ := List.cons.inj htext
      obtain ⟨rfl, rfl, rfl⟩ := offsetText_unique h h' hrest
      cases negative <;> cases negative' <;> simp_all

/-- An accepted timestamp is determined by its text. -/
theorem Timestamp.text_unique {s s' : Timestamp} (h : s.Accepted) (h' : s'.Accepted)
    (htext : s.text = s'.text) : s = s' := by
  have hscan := h.scanf_text
  rw [htext, h'.scanf_text] at hscan
  obtain ⟨hfields, htail⟩ := Prod.mk.inj (Option.some.inj hscan)
  obtain ⟨hfraction, hsuffix⟩ := fractionText_unique h'.fraction h.fraction htail
  have hsuffix' := Suffix.text_unique h'.suffix h.suffix hsuffix
  cases s
  cases s'
  simp_all [Timestamp.fields]

/-! ## What the parser accepts -/

/-- What is accepted is a documented timestamp, with its instant. -/
def Strict (text : String) : Prop :=
  ∀ time, parseIso8601 text = some time →
    ∃ s : Timestamp, s.Documented ∧ s.text = text.toList ∧ s.instant = time

/-- A sloppy text is accepted, and is no documented timestamp. -/
theorem not_strict_of_sloppy {text : String} (hnul : ∀ c ∈ text.toList, c.toNat ≠ 0)
    {s : Timestamp} (h : s.Accepted) (hsloppy : s.Sloppy) (htext : s.text = text.toList) :
    ¬Strict text := by
  intro hstrict
  have hparse : parseIso8601 text = some s.instant :=
    parseIso8601_eq_some_iff.mpr ⟨s, h, htext.trans (cString_of_nul_free hnul).symm, rfl⟩
  obtain ⟨s', hdoc, htext', -⟩ := hstrict s.instant hparse
  obtain rfl := Timestamp.text_unique hdoc.accepted h (htext'.trans htext.symm)
  exact (Timestamp.documented_iff h).mp hdoc hsloppy

/-- The parser keeps to the format on a text, unless the text is that of a sloppy timestamp. -/
theorem parseIso8601_strict_iff {text : String} (hnul : ∀ c ∈ text.toList, c.toNat ≠ 0) :
    Strict text ↔ ¬∃ s : Timestamp, s.Accepted ∧ s.Sloppy ∧ s.text = text.toList := by
  constructor
  · rintro hstrict ⟨s, haccepted, hsloppy, htext⟩
    exact not_strict_of_sloppy hnul haccepted hsloppy htext hstrict
  · intro hclean time hparse
    obtain ⟨s, haccepted, htext, hinstant⟩ := parseIso8601_eq_some_iff.mp hparse
    rw [cString_of_nul_free hnul] at htext
    have hdoc := (Timestamp.documented_iff haccepted).mpr fun hsloppy =>
      hclean ⟨s, haccepted, hsloppy, htext⟩
    exact ⟨s, hdoc, htext, hinstant⟩

/-- A field of just these digits. -/
def digitField (digits : List Char) : Field :=
  ⟨[], .absent, digits⟩

/-- One hour before midnight, as `-1` o'clock. -/
def minusOneOClock : Timestamp where
  year := digitField ['2', '0', '2', '6']
  month := digitField ['0', '6']
  day := digitField ['0', '9']
  hour := ⟨[], .minus, ['1']⟩
  minute := digitField ['4', '5']
  second := digitField ['0', '0']
  fraction := []
  suffix := .zulu false

theorem minusOneOClock_accepted : minusOneOClock.Accepted where
  year := by decide
  month := by decide
  day := by decide
  hour := by decide
  minute := by decide
  second := by decide
  fraction := by decide
  suffix := trivial
  date := by decide
  hour_le := by decide
  minute_le := by decide
  second_le := by decide

theorem minusOneOClock_sloppy : minusOneOClock.Sloppy :=
  .inr (.inr (.inr (.inl (.inr (.inl (by decide))))))

theorem minusOneOClock_nul_free : ∀ c ∈ "2026-06-09T-1:45:00Z".toList, c.toNat ≠ 0 := by
  decide

/-- The parser does not keep to the format on every text. -/
theorem parseIso8601_not_strict :
    ¬∀ text : String, (∀ c ∈ text.toList, c.toNat ≠ 0) → Strict text := by
  intro hall
  have hstrict := hall "2026-06-09T-1:45:00Z" minusOneOClock_nul_free
  exact not_strict_of_sloppy minusOneOClock_nul_free minusOneOClock_accepted minusOneOClock_sloppy
    (by decide) hstrict

theorem parseIso8601_strict_iff_minusOneOClock :
    parseIso8601 "2026-06-09T-1:45:00Z" = some 1780962300 ∧ ¬Strict "2026-06-09T-1:45:00Z" := by
  refine ⟨by decide, fun hstrict => ?_⟩
  exact (parseIso8601_strict_iff minusOneOClock_nul_free).mp hstrict
    ⟨minusOneOClock, minusOneOClock_accepted, minusOneOClock_sloppy, by decide⟩

end RocketWatcher
