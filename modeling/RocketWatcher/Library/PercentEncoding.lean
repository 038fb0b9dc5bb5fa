import Mathlib.Data.List.Basic
import Mathlib.Data.UInt

/-!
# Percent encoding, and form bodies

A text of bytes is written with the unreserved characters for themselves and `%` and two digits
for any other byte. A form body joins its fields with `&`, and the two texts of a field with `=`.
None of these separators occurs in what is encoded, so a reader that splits at them and decodes
the parts finds the fields that were written (`decodeForm_encodeForm`).

The reader takes a `+` for a space, as readers of forms do. No encoder here writes one.
-/

namespace PercentEncoding

/-- Letters, digits and `-._~`. -/
def unreserved (c : Char) : Bool :=
  c.isAlphanum || c ∈ ['-', '.', '_', '~']

def hexDigit (n : ℕ) : Char :=
  if n < 10 then Char.ofNat (48 + n) else Char.ofNat (55 + n)

def hexValue (c : Char) : Option ℕ :=
  if '0' ≤ c ∧ c ≤ '9' then some (c.toNat - 48)
  else if 'A' ≤ c ∧ c ≤ 'F' then some (c.toNat - 55)
  else if 'a' ≤ c ∧ c ≤ 'f' then some (c.toNat - 87)
  else none

def encodeByte (byte : UInt8) : List Char :=
  if unreserved (Char.ofNat byte.toNat) then [Char.ofNat byte.toNat]
  else ['%', hexDigit (byte.toNat / 16), hexDigit (byte.toNat % 16)]

def encode (bytes : List UInt8) : List Char :=
  bytes.flatMap encodeByte

/-- A `%` that two digits do not follow stands for itself. -/
def decode : List Char → List UInt8
  | [] => []
  | '+' :: rest => 32 :: decode rest
  | '%' :: high :: low :: rest =>
    match hexValue high, hexValue low with
    | some h, some l => UInt8.ofNat (16 * h + l) :: decode rest
    | _, _ => 37 :: decode (high :: low :: rest)
  | c :: rest => UInt8.ofNat c.toNat :: decode rest

/-- The separators of a form, and the characters that are read as other bytes. -/
def special : List Char :=
  ['%', '+', '&', '=']

/-! ## One byte -/

theorem hexValue_hexDigit : ∀ n < 16, hexValue (hexDigit n) = some n := by
  decide

theorem hexDigit_notMem_special : ∀ n < 16, hexDigit n ∉ special := by
  decide

theorem notMem_special_of_unreserved {c : Char} (h : unreserved c = true) : c ∉ special := by
  intro hmem
  simp only [special, List.mem_cons, List.not_mem_nil, or_false] at hmem
  rcases hmem with rfl | rfl | rfl | rfl <;> exact absurd h (by decide)

theorem toNat_ofNat_byte (byte : UInt8) : (Char.ofNat byte.toNat).toNat = byte.toNat := by
  have hlt : byte.toNat < 256 := byte.toNat_lt
  have hvalid : byte.toNat.isValidChar := .inl (by omega)
  rw [Char.ofNat, dif_pos hvalid]
  rfl

theorem decode_cons {c : Char} (h : c ∉ special) (rest : List Char) :
    decode (c :: rest) = UInt8.ofNat c.toNat :: decode rest := by
  have hplus : c ≠ '+' := fun heq => h (by simp [heq, special])
  have hpercent : c ≠ '%' := fun heq => h (by simp [heq, special])
  rw [decode]
  · exact fun heq => hplus heq
  · rintro _ _ _ heq
    exact absurd heq hpercent

theorem decode_encodeByte (byte : UInt8) (rest : List Char) :
    decode (encodeByte byte ++ rest) = byte :: decode rest := by
  have hlt : byte.toNat < 256 := byte.toNat_lt
  unfold encodeByte
  split
  · next h =>
    rw [List.singleton_append, decode_cons (notMem_special_of_unreserved h), toNat_ofNat_byte,
      UInt8.ofNat_toNat]
  · have hhigh : byte.toNat / 16 < 16 := by omega
    have hlow : byte.toNat % 16 < 16 := by omega
    have hjoined : 16 * (byte.toNat / 16) + byte.toNat % 16 = byte.toNat := by omega
    rw [List.cons_append, List.cons_append, List.singleton_append, decode,
      hexValue_hexDigit _ hhigh, hexValue_hexDigit _ hlow]
    simp only [hjoined, UInt8.ofNat_toNat]

theorem notMem_encodeByte {c : Char} (hc : c = '&' ∨ c = '=') (byte : UInt8) :
    c ∉ encodeByte byte := by
  have hlt : byte.toNat < 256 := byte.toNat_lt
  have hspecial : c ∈ special ∧ c ≠ '%' := by
    rcases hc with rfl | rfl <;> decide
  unfold encodeByte
  split
  · next h =>
    rw [List.mem_singleton]
    rintro rfl
    exact notMem_special_of_unreserved h hspecial.1
  · simp only [List.mem_cons, List.not_mem_nil, or_false, not_or]
    refine ⟨hspecial.2, ?_, ?_⟩
    · rintro rfl
      exact hexDigit_notMem_special _ (by omega) hspecial.1
    · rintro rfl
      exact hexDigit_notMem_special _ (by omega) hspecial.1

/-! ## Texts -/

@[simp] theorem decode_encode (bytes : List UInt8) : decode (encode bytes) = bytes := by
  induction bytes with
  | nil => rfl
  | cons byte bytes ih =>
    rw [encode, List.flatMap_cons, decode_encodeByte]
    exact congrArg _ ih

theorem notMem_encode {c : Char} (hc : c = '&' ∨ c = '=') (bytes : List UInt8) :
    c ∉ encode bytes := by
  rw [encode, List.mem_flatMap]
  rintro ⟨byte, -, hmem⟩
  exact notMem_encodeByte hc byte hmem

/-! ## Forms -/

abbrev Field := List UInt8 × List UInt8

def encodeField (field : Field) : List Char :=
  encode field.1 ++ '=' :: encode field.2

def encodeForm (fields : List Field) : List Char :=
  ['&'].intercalate (fields.map encodeField)

/-- A field is split at its first `=`. -/
def decodeField (text : List Char) : Field :=
  (decode (text.takeWhile (· ≠ '=')), decode ((text.dropWhile (· ≠ '=')).drop 1))

/-- Nothing between two `&` is no field. -/
def decodeForm (body : List Char) : List Field :=
  ((body.splitOn '&').filter fun text => !text.isEmpty).map decodeField

theorem decodeField_encodeField (field : Field) : decodeField (encodeField field) = field := by
  have hkey : ∀ c ∈ encode field.1, decide (c ≠ '=') = true := by
    intro c hc
    exact decide_eq_true fun heq => notMem_encode (.inr heq) field.1 hc
  rw [decodeField, encodeField, List.takeWhile_append_of_pos hkey,
    List.dropWhile_append_of_pos hkey]
  simp

theorem notMem_encodeField (field : Field) : '&' ∉ encodeField field := by
  simp [encodeField, notMem_encode]

/-- What is read of a form is what was written. -/
theorem decodeForm_encodeForm (fields : List Field) : decodeForm (encodeForm fields) = fields := by
  cases fields with
  | nil => rfl
  | cons field fields =>
    have hne : ∀ text ∈ (field :: fields).map encodeField, (!text.isEmpty) = true := by
      rw [List.forall_mem_map]
      intro f _
      simp [encodeField]
    rw [decodeForm, encodeForm, List.splitOn_intercalate, List.filter_eq_self.mpr hne, List.map_map]
    · exact List.map_id'' (fun f => decodeField_encodeField f) _
    · rw [List.forall_mem_map]
      exact fun f _ => notMem_encodeField f
    · simp

theorem encodeForm_eq_nil {fields : List Field} : encodeForm fields = [] ↔ fields = [] := by
  constructor
  · intro h
    rw [← decodeForm_encodeForm fields, h]
    rfl
  · rintro rfl
    rfl

/-- One more field. -/
theorem encodeForm_snoc (fields : List Field) (field : Field) :
    encodeForm (fields ++ [field]) =
      (if fields = [] then [] else encodeForm fields ++ ['&']) ++ encodeField field := by
  unfold encodeForm
  induction fields with
  | nil => simp
  | cons f fields ih =>
    cases fields with
    | nil => simp
    | cons f' fields =>
      simp only [List.cons_append, List.map_cons, List.intercalate_cons_cons] at ih ⊢
      rw [ih]
      simp

end PercentEncoding
