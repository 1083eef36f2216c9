import SpectonCr.Base.Text

namespace SpectonCr

def hexDigit (value : Nat) : Char :=
  if value < 10 then Char.ofNat ('0'.toNat + value) else Char.ofNat ('a'.toNat + (value - 10))

def hexByte (byte : UInt8) : List Char := [hexDigit (byte.toNat / 16), hexDigit (byte.toNat % 16)]

/-- The characters `hex::encode` writes. -/
def hexChars (bytes : List UInt8) : List Char := bytes.flatMap hexByte

def hexEncode (bytes : List UInt8) : String := String.ofList (hexChars bytes)

/-- The alphabet of the encoding. -/
def isHexChar (c : Char) : Bool := c ∈ "0123456789abcdef".toList

private theorem hexDigit_injective : ∀ first < 16, ∀ second < 16,
    hexDigit first = hexDigit second → first = second := by
  decide

private theorem hexDigit_isHexChar : ∀ value < 16, isHexChar (hexDigit value) = true := by
  decide

theorem hexByte_injective (same : hexByte first = hexByte second) : first = second := by
  have bounds := And.intro first.toNat_lt second.toNat_lt
  simp only [hexByte, List.cons.injEq, and_true] at same
  have high := hexDigit_injective _ (by omega) _ (by omega) same.1
  have low := hexDigit_injective _ (by omega) _ (by omega) same.2
  apply UInt8.toNat_inj.mp
  omega

@[simp] theorem hexChars_length (bytes : List UInt8) : (hexChars bytes).length = 2 * bytes.length := by
  induction bytes with
  | nil => rfl
  | cons byte rest ih =>
    simp only [hexChars, List.flatMap_cons, List.length_append, List.length_cons] at ih ⊢
    simp only [hexByte, List.length_cons, List.length_nil, ih]
    omega

theorem hexChars_injective (same : hexChars first = hexChars second) : first = second := by
  induction first generalizing second with
  | nil =>
    have empty := congrArg List.length same
    simp only [hexChars_length, List.length_nil] at empty
    exact (List.length_eq_zero_iff.mp (by omega)).symm
  | cons byte rest ih =>
    cases second with
    | nil => simp [hexChars, hexByte] at same
    | cons other tail =>
      obtain ⟨head, remaining⟩ := List.append_inj
        (show hexByte byte ++ hexChars rest = hexByte other ++ hexChars tail from same)
        (by simp [hexByte])
      rw [hexByte_injective head, ih remaining]

theorem isHexChar_of_mem_hexChars (member : c ∈ hexChars bytes) : isHexChar c = true := by
  obtain ⟨byte, _, inside⟩ := List.mem_flatMap.mp member
  have bound := byte.toNat_lt
  simp only [hexByte, List.mem_cons, List.not_mem_nil, or_false] at inside
  rcases inside with high | low
  · exact high ▸ hexDigit_isHexChar _ (by omega)
  · exact low ▸ hexDigit_isHexChar _ (by omega)

private theorem hexChar_plain : ∀ c ∈ "0123456789abcdef".toList,
    Text.isWhitespace c = false ∧ c ≠ '/' ∧ c ≠ ':' ∧ c ≠ '.' := by
  -- Checked along the list: deciding the quantifier itself may enumerate `Char`.
  have checked : ("0123456789abcdef".toList.all fun c =>
      decide (Text.isWhitespace c = false ∧ c ≠ '/' ∧ c ≠ ':' ∧ c ≠ '.')) = true := by
    decide
  intro c member
  exact of_decide_eq_true (List.all_eq_true.mp checked c member)

/-- Encoded text never needs trimming and never splits. -/
theorem hexEncode_plain (member : c ∈ (hexEncode bytes).toList) :
    Text.isWhitespace c = false ∧ c ≠ '/' ∧ c ≠ ':' ∧ c ≠ '.' := by
  have alphabet := isHexChar_of_mem_hexChars (by simpa [hexEncode] using member)
  exact hexChar_plain c (by simpa [isHexChar] using alphabet)

/-- A `Uuid`: sixteen bytes. -/
structure Uuid where
  bytes : List UInt8
  size : bytes.length = 16
  deriving DecidableEq

/-- `Uuid::nil`. -/
def Uuid.nil : Uuid := ⟨List.replicate 16 0, rfl⟩

/-- The hyphenated text `Display` writes: groups of 8, 4, 4, 4 and 12 digits. -/
def Uuid.hyphenated (id : Uuid) : String :=
  let digits := hexChars id.bytes
  String.ofList (digits.take 8 ++ '-' :: (digits.drop 8).take 4 ++
    '-' :: (digits.drop 12).take 4 ++ '-' :: (digits.drop 16).take 4 ++ '-' :: digits.drop 20)

theorem Uuid.hyphenated_length (id : Uuid) : id.hyphenated.toList.length = 36 := by
  simp [hyphenated, id.size]

private theorem regroup {α : Type} (digits : List α) :
    digits.take 8 ++ (digits.drop 8).take 4 ++ (digits.drop 12).take 4 ++
      (digits.drop 16).take 4 ++ digits.drop 20 = digits := by
  have fourth : (digits.drop 16).take 4 ++ digits.drop 20 = digits.drop 16 := by
    simpa [List.drop_drop] using List.take_append_drop 4 (digits.drop 16)
  have third : (digits.drop 12).take 4 ++ digits.drop 16 = digits.drop 12 := by
    simpa [List.drop_drop] using List.take_append_drop 4 (digits.drop 12)
  have second : (digits.drop 8).take 4 ++ digits.drop 12 = digits.drop 8 := by
    simpa [List.drop_drop] using List.take_append_drop 4 (digits.drop 8)
  rw [List.append_assoc, fourth, List.append_assoc, third, List.append_assoc, second, List.take_append_drop]

theorem Uuid.hyphenated_injective {first second : Uuid}
    (same : first.hyphenated = second.hyphenated) : first = second := by
  have chars := congrArg String.toList same
  simp only [hyphenated, String.toList_ofList, List.append_assoc, List.cons_append] at chars
  obtain ⟨group₁, chars⟩ := List.append_inj chars (by simp [first.size, second.size])
  simp only [List.cons.injEq, true_and] at chars
  obtain ⟨group₂, chars⟩ := List.append_inj chars (by simp [first.size, second.size])
  simp only [List.cons.injEq, true_and] at chars
  obtain ⟨group₃, chars⟩ := List.append_inj chars (by simp [first.size, second.size])
  simp only [List.cons.injEq, true_and] at chars
  obtain ⟨group₄, chars⟩ := List.append_inj chars (by simp [first.size, second.size])
  simp only [List.cons.injEq, true_and] at chars
  have digits : hexChars first.bytes = hexChars second.bytes := by
    rw [← regroup (hexChars first.bytes), ← regroup (hexChars second.bytes),
      group₁, group₂, group₃, group₄, chars]
  cases first
  cases second
  simpa using hexChars_injective digits

end SpectonCr
