import Mathlib.Algebra.Group.Nat.Defs
import Mathlib.Data.List.TakeWhile

/-!
# Scanning integers

The `%<width>d` and literal directives of C's `sscanf`, on lists of characters. A `%d` skips
white space, then takes a sign and as many digits as the width leaves room for.
`scanf_eq_some_iff` says what a format accepts : the fields one after the other, with the
literals between them, where a field only ends at a non-digit or at its full width.
-/

namespace Scan

/-- Decided along the text, not over all characters. -/
instance decidableForallMem (p : Char → Prop) [DecidablePred p] (text : List Char) :
    Decidable (∀ c ∈ text, p c) :=
  List.decidableBAll p text

/-- The sign in front of the digits. -/
inductive Sign where
  | absent
  | plus
  | minus
  deriving DecidableEq, Repr

def Sign.text : Sign → List Char
  | absent => []
  | plus => ['+']
  | minus => ['-']

def Sign.apply : Sign → Nat → Int
  | absent, n => n
  | plus, n => n
  | minus, n => -n

/-- What one `%d` has read. -/
structure Field where
  blanks : List Char
  sign : Sign
  digits : List Char
  deriving DecidableEq, Repr

namespace Field

def text (f : Field) : List Char :=
  f.blanks ++ f.sign.text ++ f.digits

def value (f : Field) : Int :=
  f.sign.apply (Nat.ofDigitChars 10 f.digits 0)

/-- The characters that count towards the width. -/
def width (f : Field) : Nat :=
  f.sign.text.length + f.digits.length

end Field

inductive Directive where
  | int (width : Nat)
  | char (c : Char)
  deriving DecidableEq, Repr

variable (isSpace : Char → Bool)

def readSign : List Char → Sign × List Char
  | '+' :: rest => (.plus, rest)
  | '-' :: rest => (.minus, rest)
  | text => (.absent, text)

/-- `%<width>d`. -/
def readField (width : Nat) (text : List Char) : Option (Field × List Char) :=
  let (sign, unsigned) := readSign (text.dropWhile isSpace)
  let digits := (unsigned.take (width - sign.text.length)).takeWhile Char.isDigit
  if digits = [] then none
  else some (⟨text.takeWhile isSpace, sign, digits⟩, unsigned.drop digits.length)

/-- The fields of a format that is matched to its end, and the text after it. -/
def scanf : List Directive → List Char → Option (List Field × List Char)
  | [], text => some ([], text)
  | .char _ :: _, [] => none
  | .char c :: format, c' :: text => if c = c' then scanf format text else none
  | .int width :: format, text => do
    let (field, rest) ← readField isSpace width text
    let (fields, rest) ← scanf format rest
    return (field :: fields, rest)

/-! ## Texts that stop -/

/-- The text does not go on with a `p`. -/
def Stops (p : Char → Bool) (text : List Char) : Prop :=
  ∀ c ∈ text.head?, p c = false

theorem Stops.nil (p : Char → Bool) : Stops p [] := by
  simp [Stops]

theorem stops_cons {p : Char → Bool} {c : Char} {text : List Char} :
    Stops p (c :: text) ↔ p c = false := by
  simp [Stops]

theorem takeWhile_of_stops {p : Char → Bool} {text : List Char} (h : Stops p text) :
    text.takeWhile p = [] := by
  cases text with
  | nil => rfl
  | cons c text => rw [List.takeWhile_cons_of_neg (by simp [stops_cons.mp h])]

theorem dropWhile_of_stops {p : Char → Bool} {text : List Char} (h : Stops p text) :
    text.dropWhile p = text := by
  cases text with
  | nil => rfl
  | cons c text => rw [List.dropWhile_cons_of_neg (by simp [stops_cons.mp h])]

theorem stops_dropWhile (p : Char → Bool) (text : List Char) : Stops p (text.dropWhile p) := by
  intro c hc
  have h := List.head?_dropWhile_not p text
  rw [Option.mem_def.mp hc] at h
  simpa using h

theorem Stops.take {p : Char → Bool} {text : List Char} (h : Stops p text) (n : Nat) :
    Stops p (text.take n) := by
  cases n with
  | zero => exact Stops.nil p
  | succ n =>
    cases text with
    | nil => exact h
    | cons c text => exact stops_cons.mpr (stops_cons.mp h)

theorem takeWhile_append_of_stops {p : Char → Bool} {start text : List Char}
    (hstart : ∀ c ∈ start, p c = true) (h : Stops p text) :
    (start ++ text).takeWhile p = start := by
  rw [List.takeWhile_append_of_pos hstart, takeWhile_of_stops h, List.append_nil]

theorem dropWhile_append_of_stops {p : Char → Bool} {start text : List Char}
    (hstart : ∀ c ∈ start, p c = true) (h : Stops p text) :
    (start ++ text).dropWhile p = text := by
  rw [List.dropWhile_append_of_pos hstart, dropWhile_of_stops h]

/-! ## Fields -/

/-- What `%<width>d` can read. -/
structure Field.Fits (width : Nat) (f : Field) : Prop where
  blanks : ∀ c ∈ f.blanks, isSpace c = true
  digits : ∀ c ∈ f.digits, c.isDigit = true
  digits_ne_nil : f.digits ≠ []
  width_le : f.width ≤ width

instance (width : Nat) (f : Field) : Decidable (f.Fits isSpace width) :=
  decidable_of_iff ((∀ c ∈ f.blanks, isSpace c = true) ∧ (∀ c ∈ f.digits, c.isDigit = true) ∧
      f.digits ≠ [] ∧ f.width ≤ width)
    ⟨fun ⟨h₁, h₂, h₃, h₄⟩ => ⟨h₁, h₂, h₃, h₄⟩, fun ⟨h₁, h₂, h₃, h₄⟩ => ⟨h₁, h₂, h₃, h₄⟩⟩

/-- The field is read to its end when `rest` follows it. -/
def Field.EndsBefore (width : Nat) (f : Field) (rest : List Char) : Prop :=
  f.width = width ∨ Stops Char.isDigit rest

theorem endsBefore_cons {c : Char} (h : c.isDigit = false) (width : Nat) (f : Field)
    (text : List Char) : f.EndsBefore width (c :: text) :=
  .inr (stops_cons.mpr h)

theorem endsBefore_nil (width : Nat) (f : Field) : f.EndsBefore width [] :=
  .inr (Stops.nil _)

variable {isSpace}

theorem readSign_text (text : List Char) : (readSign text).1.text ++ (readSign text).2 = text := by
  unfold readSign
  split <;> rfl

/-- A sign, then digits. -/
theorem readSign_append (sign : Sign) {digits rest : List Char} (hne : digits ≠ [])
    (hdigits : ∀ c ∈ digits, c.isDigit = true) :
    readSign (sign.text ++ digits ++ rest) = (sign, digits ++ rest) := by
  cases sign with
  | plus | minus => rfl
  | absent =>
    obtain ⟨c, digits, rfl⟩ := List.exists_cons_of_ne_nil hne
    have hc : c.isDigit = true := hdigits c List.mem_cons_self
    simp only [Sign.text, List.nil_append, List.cons_append]
    unfold readSign
    split
    · next heq =>
      obtain rfl := (List.cons.inj heq).1
      cases hc
    · next heq =>
      obtain rfl := (List.cons.inj heq).1
      cases hc
    · rfl

/-- `%d` reads any field that fits and is read to its end. -/
theorem readField_of_fits (hspace : ∀ c, isSpace c = true → c.isDigit = false ∧ c ≠ '+' ∧ c ≠ '-')
    {width : Nat} {f : Field} {rest : List Char} (h : f.Fits isSpace width)
    (hend : f.EndsBefore width rest) :
    readField isSpace width (f.text ++ rest) = some (f, rest) := by
  have htext : f.text ++ rest = f.blanks ++ (f.sign.text ++ f.digits ++ rest) := by
    simp [Field.text]
  have hunspaced : Stops isSpace (f.sign.text ++ f.digits ++ rest) := by
    obtain ⟨c, digits, hdigits⟩ := List.exists_cons_of_ne_nil h.digits_ne_nil
    have hc : c.isDigit = true := h.digits c (by simp [hdigits])
    cases hsign : f.sign with
    | plus => exact stops_cons.mpr (Bool.eq_false_iff.mpr fun hc => (hspace _ hc).2.1 rfl)
    | minus => exact stops_cons.mpr (Bool.eq_false_iff.mpr fun hc => (hspace _ hc).2.2 rfl)
    | absent =>
      rw [hdigits]
      exact stops_cons.mpr (Bool.eq_false_iff.mpr fun hsp => by simp [(hspace _ hsp).1] at hc)
  have hdigits : ((f.digits ++ rest).take (width - f.sign.text.length)).takeWhile Char.isDigit =
      f.digits := by
    have hwidth := h.width_le
    rcases hend with hfull | hstops
    · have hroom : width - f.sign.text.length = f.digits.length := by
        rw [← hfull, Field.width]
        omega
      rw [hroom, List.take_left]
      simpa using takeWhile_append_of_stops h.digits (Stops.nil _)
    · have hroom : f.digits.length ≤ width - f.sign.text.length := by
        rw [Field.width] at hwidth
        omega
      rw [List.take_append, List.take_of_length_le hroom]
      exact takeWhile_append_of_stops h.digits (hstops.take _)
  have hblanks := takeWhile_append_of_stops h.blanks hunspaced
  rw [readField, htext, dropWhile_append_of_stops h.blanks hunspaced,
    readSign_append _ h.digits_ne_nil h.digits, hblanks]
  simp [hdigits, h.digits_ne_nil]

/-- The digits among the first `room` characters, and what is after them. -/
theorem digits_of_take (room : Nat) (text : List Char) :
    let digits := (text.take room).takeWhile Char.isDigit
    digits ++ text.drop digits.length = text ∧ (∀ c ∈ digits, c.isDigit = true) ∧
      digits.length ≤ room ∧
      (digits.length = room ∨ Stops Char.isDigit (text.drop digits.length)) := by
  intro digits
  have hdrop : text.drop digits.length =
      (text.take room).dropWhile Char.isDigit ++ text.drop room := by
    have hsplit : text = digits ++ ((text.take room).dropWhile Char.isDigit ++ text.drop room) := by
      rw [← List.append_assoc, List.takeWhile_append_dropWhile, List.take_append_drop]
    exact (congrArg (List.drop digits.length) hsplit).trans List.drop_left
  refine ⟨?_, fun c hc => ?_, ?_, ?_⟩
  · rw [hdrop, ← List.append_assoc, List.takeWhile_append_dropWhile, List.take_append_drop]
  · exact List.mem_takeWhile_imp hc
  · exact Nat.le_trans (List.takeWhile_prefix _).length_le (List.length_take_le _ _)
  · cases hrest : (text.take room).dropWhile Char.isDigit with
    | nil =>
      have hall : digits ++ [] = text.take room :=
        hrest ▸ List.takeWhile_append_dropWhile
      rw [List.append_nil] at hall
      rcases Nat.le_total room text.length with hroom | hroom
      · exact .inl (by rw [hall, List.length_take_of_le hroom])
      · refine .inr ?_
        rw [hdrop, hrest, List.drop_of_length_le hroom]
        exact Stops.nil _
    | cons c rest =>
      refine .inr ?_
      rw [hdrop, hrest]
      exact stops_cons.mpr (stops_cons.mp (hrest ▸ stops_dropWhile Char.isDigit (text.take room)))

/-- What `%d` reads is a field that fits, read to its end. -/
theorem readField_eq_some {width : Nat} {f : Field} {text rest : List Char}
    (h : readField isSpace width text = some (f, rest)) :
    text = f.text ++ rest ∧ f.Fits isSpace width ∧ f.EndsBefore width rest := by
  obtain ⟨sign, unsigned, hread⟩ : ∃ sign unsigned, readSign (text.dropWhile isSpace) =
    (sign, unsigned) := ⟨_, _, rfl⟩
  have hunspaced : sign.text ++ unsigned = text.dropWhile isSpace := by
    simpa [hread] using readSign_text (text.dropWhile isSpace)
  obtain ⟨happend, hdigits, hroom, hend⟩ := digits_of_take (width - sign.text.length) unsigned
  simp only [readField, hread] at h
  split at h
  · cases h
  · next hne =>
    obtain ⟨rfl, rfl⟩ := Prod.mk.inj (Option.some.inj h)
    have hpos := List.length_pos_iff.mpr hne
    refine ⟨?_, ⟨fun c hc => List.mem_takeWhile_imp hc, hdigits, hne, ?_⟩, ?_⟩
    · rw [Field.text, List.append_assoc, happend, List.append_assoc, hunspaced,
        List.takeWhile_append_dropWhile]
    · simp only [Field.width]
      omega
    · refine hend.imp (fun hfull => ?_) id
      simp only [Field.width]
      omega

/-- A text is read in one way only. -/
theorem fits_unique (hspace : ∀ c, isSpace c = true → c.isDigit = false ∧ c ≠ '+' ∧ c ≠ '-')
    {width : Nat} {f f' : Field} {rest rest' : List Char} (h : f.Fits isSpace width)
    (hend : f.EndsBefore width rest) (h' : f'.Fits isSpace width)
    (hend' : f'.EndsBefore width rest') (htext : f.text ++ rest = f'.text ++ rest') :
    f = f' ∧ rest = rest' := by
  have hread := readField_of_fits hspace h hend
  rw [htext, readField_of_fits hspace h' hend'] at hread
  obtain ⟨rfl, rfl⟩ := Prod.mk.inj (Option.some.inj hread)
  exact ⟨rfl, rfl⟩

/-- A field with more characters than the width is not read to its end. -/
theorem text_append_ne (hspace : ∀ c, isSpace c = true → c.isDigit = false ∧ c ≠ '+' ∧ c ≠ '-')
    {width : Nat} {f wide : Field} {rest rest' : List Char} (h : f.Fits isSpace width)
    (hrest : Stops Char.isDigit rest) (hblanks : ∀ c ∈ wide.blanks, isSpace c = true)
    (hdigits : ∀ c ∈ wide.digits, c.isDigit = true) (hsign : wide.sign.text.length < width)
    (hwide : width < wide.width) : f.text ++ rest ≠ wide.text ++ rest' := by
  intro htext
  rw [Field.width] at hwide
  -- The scan stops inside the digits : it reads the first of them, and leaves a digit.
  obtain ⟨start, c, digits, hsplit, hlength⟩ : ∃ start c digits,
      wide.digits = start ++ c :: digits ∧ start.length = width - wide.sign.text.length := by
    have hne : wide.digits.drop (width - wide.sign.text.length) ≠ [] := by
      rw [Ne, List.drop_eq_nil_iff]
      omega
    obtain ⟨c, digits, hdrop⟩ := List.exists_cons_of_ne_nil hne
    refine ⟨wide.digits.take (width - wide.sign.text.length), c, digits, ?_, ?_⟩
    · rw [← hdrop, List.take_append_drop]
    · exact List.length_take_of_le (by omega)
  have hstart : Field.Fits isSpace width ⟨wide.blanks, wide.sign, start⟩ :=
    { blanks := hblanks
      digits := fun d hd => hdigits d (by simp [hsplit, hd])
      digits_ne_nil := by
        rintro rfl
        simp only [List.length_nil] at hlength
        omega
      width_le := by
        simp only [Field.width]
        omega }
  have hfull : Field.EndsBefore width ⟨wide.blanks, wide.sign, start⟩ (c :: digits ++ rest') := by
    refine .inl ?_
    simp only [Field.width]
    omega
  obtain ⟨-, rfl⟩ := fits_unique hspace h (.inr hrest) hstart hfull (by
    simpa [Field.text, hsplit] using htext)
  have hc : c.isDigit = true := hdigits c (by simp [hsplit])
  simp [stops_cons.mp hrest] at hc

/-! ## Formats -/

variable (isSpace) in
/-- The format reads the text as these fields, and leaves `rest`. -/
inductive Reads : List Directive → List Char → List Field → List Char → Prop
  | nil {rest} : Reads [] rest [] rest
  | char {c format text fields rest} (reads : Reads format text fields rest) :
      Reads (.char c :: format) (c :: text) fields rest
  | int {width f format text fields rest} (fits : f.Fits isSpace width)
      (ends : f.EndsBefore width text) (reads : Reads format text fields rest) :
      Reads (.int width :: format) (f.text ++ text) (f :: fields) rest

theorem scanf_eq_some {format : List Directive} {text rest : List Char} {fields : List Field}
    (h : scanf isSpace format text = some (fields, rest)) :
    Reads isSpace format text fields rest := by
  induction format generalizing text fields with
  | nil =>
    obtain ⟨rfl, rfl⟩ := Prod.mk.inj (Option.some.inj h)
    exact .nil
  | cons directive format ih =>
    cases directive with
    | char c =>
      cases text with
      | nil => cases h
      | cons c' text =>
        rw [scanf] at h
        split at h
        · next heq => exact heq ▸ .char (ih h)
        · cases h
    | int width =>
      obtain ⟨⟨f, text'⟩, hfield, h⟩ := Option.bind_eq_some_iff.mp h
      obtain ⟨⟨fields', rest'⟩, hfields, h⟩ := Option.bind_eq_some_iff.mp h
      obtain ⟨rfl, rfl⟩ := Prod.mk.inj (Option.some.inj h)
      obtain ⟨rfl, hfits, hends⟩ := readField_eq_some hfield
      exact .int hfits hends (ih hfields)

/-- A format accepts what it reads, and no more. -/
theorem scanf_eq_some_iff
    (hspace : ∀ c, isSpace c = true → c.isDigit = false ∧ c ≠ '+' ∧ c ≠ '-')
    {format : List Directive} {text rest : List Char} {fields : List Field} :
    scanf isSpace format text = some (fields, rest) ↔ Reads isSpace format text fields rest := by
  refine ⟨scanf_eq_some, fun h => ?_⟩
  induction h with
  | nil => rfl
  | char _ ih => simpa [scanf] using ih
  | int fits ends _ ih => simp [scanf, readField_of_fits hspace fits ends, ih]

/-! ## Values -/

theorem ofDigitChars_lt {digits : List Char} (h : ∀ c ∈ digits, c.isDigit = true) :
    Nat.ofDigitChars 10 digits 0 < 10 ^ digits.length := by
  induction digits with
  | nil => decide
  | cons c digits ih =>
    have hc : c.toNat - '0'.toNat ≤ 9 := by
      have hdigit := h c List.mem_cons_self
      simp only [Char.isDigit, Bool.and_eq_true, decide_eq_true_eq] at hdigit
      have hle : c.toNat ≤ 57 := hdigit.2
      simp only [Char.reduceToNat]
      omega
    have hrest := ih fun c' hc' => h c' (List.mem_cons_of_mem _ hc')
    rw [Nat.ofDigitChars_cons, Nat.ofDigitChars_eq_ofDigitChars_zero, List.length_cons,
      Nat.pow_succ]
    have hle : 10 ^ digits.length * (10 * 0 + (c.toNat - '0'.toNat)) ≤ 10 ^ digits.length * 9 :=
      Nat.mul_le_mul_left _ (by omega)
    omega

/-- The value of a field that fits has no more digits than the width. -/
theorem Field.Fits.value_lt {width : Nat} {f : Field} (h : f.Fits isSpace width) :
    -(10 ^ (width - 1) : Nat) < f.value ∧ f.value < (10 ^ width : Nat) := by
  have hlt := ofDigitChars_lt h.digits
  have hwidth := h.width_le
  have hpos : 0 < 10 ^ (width - 1) := Nat.pow_pos (by decide)
  simp only [Field.width] at hwidth
  cases hsign : f.sign with
  | absent | plus =>
    have hroom : 10 ^ f.digits.length ≤ 10 ^ width :=
      Nat.pow_le_pow_right (by decide) (by omega)
    simp only [Field.value, hsign, Sign.apply]
    omega
  | minus =>
    simp only [hsign, Sign.text, List.length_singleton] at hwidth
    have hroom : 10 ^ f.digits.length ≤ 10 ^ (width - 1) :=
      Nat.pow_le_pow_right (by decide) (by omega)
    have hfull : 0 < 10 ^ width := Nat.pow_pos (by decide)
    simp only [Field.value, hsign, Sign.apply]
    omega

end Scan
