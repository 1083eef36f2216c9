import Mathlib

namespace SpectonCr.Numerals

/-- The value of digits, the first being the most significant. -/
def value : List Nat → Nat
  | [] => 0
  | digit :: rest => digit * 10 ^ rest.length + value rest

theorem value_lt (small : ∀ digit ∈ digits, digit < 10) : value digits < 10 ^ digits.length := by
  induction digits with
  | nil => exact Nat.one_pos
  | cons digit rest ih =>
    have tail := ih fun other member => small other (List.mem_cons_of_mem digit member)
    have head : digit + 1 ≤ 10 := small digit List.mem_cons_self
    calc digit * 10 ^ rest.length + value rest < (digit + 1) * 10 ^ rest.length := by rw [Nat.succ_mul]; omega
      _ ≤ 10 * 10 ^ rest.length := Nat.mul_le_mul_right _ head
      _ = 10 ^ (rest.length + 1) := by rw [Nat.pow_succ, Nat.mul_comm]

/-- Digits of one length are ordered as their values. -/
theorem compare_value_of_length_eq (same : xs.length = ys.length) (left : ∀ digit ∈ xs, digit < 10)
    (right : ∀ digit ∈ ys, digit < 10) : compare xs ys = compare (value xs) (value ys) := by
  induction xs generalizing ys with
  | nil =>
    cases ys with
    | nil => rfl
    | cons y ys => cases same
  | cons x xs ih =>
    cases ys with
    | nil => cases same
    | cons y ys =>
      have lengths : xs.length = ys.length := Nat.succ.inj same
      have xsSmall : ∀ digit ∈ xs, digit < 10 := fun digit member =>
        left digit (List.mem_cons_of_mem x member)
      have ysSmall : ∀ digit ∈ ys, digit < 10 := fun digit member =>
        right digit (List.mem_cons_of_mem y member)
      have step : ∀ {one two : Nat} {tail other : List Nat}, tail.length = other.length →
          (∀ digit ∈ tail, digit < 10) → one < two → value (one :: tail) < value (two :: other) := by
        intro one two tail other equal tailSmall less
        have bound := value_lt tailSmall
        calc one * 10 ^ tail.length + value tail < (one + 1) * 10 ^ tail.length := by rw [Nat.succ_mul]; omega
          _ ≤ two * 10 ^ other.length := by rw [equal]; exact Nat.mul_le_mul_right _ less
          _ ≤ two * 10 ^ other.length + value other := Nat.le_add_right _ _
      rw [List.compare_cons_cons]
      rcases Nat.lt_trichotomy x y with less | rfl | more
      · rw [Nat.compare_eq_lt.mpr less, Nat.compare_eq_lt.mpr (step lengths xsSmall less)]
        rfl
      · rw [Nat.compare_eq_eq.mpr rfl, Ordering.eq_then, ih lengths xsSmall ysSmall, value, value, lengths]
        rcases Nat.lt_trichotomy (value xs) (value ys) with less | equal | more
        · rw [Nat.compare_eq_lt.mpr less, Nat.compare_eq_lt.mpr (by omega)]
        · rw [equal]
          rw [Nat.compare_eq_eq.mpr rfl, Nat.compare_eq_eq.mpr rfl]
        · rw [Nat.compare_eq_gt.mpr more, Nat.compare_eq_gt.mpr (by omega)]
      · rw [Nat.compare_eq_gt.mpr more, Nat.compare_eq_gt.mpr (step lengths.symm ysSmall more)]
        rfl

/-- Digits are ordered by length first, unless a longer run begins with a zero. -/
theorem compare_value (left : ∀ digit ∈ xs, digit < 10) (right : ∀ digit ∈ ys, digit < 10)
    (leftFirst : xs.head? = some 0 → xs.length ≤ ys.length)
    (rightFirst : ys.head? = some 0 → ys.length ≤ xs.length) :
    (compare xs.length ys.length).then (compare xs ys) = compare (value xs) (value ys) := by
  have grows : ∀ {short long : List Nat}, (∀ digit ∈ short, digit < 10) →
      (long.head? = some 0 → long.length ≤ short.length) →
      short.length < long.length → value short < value long := by
    intro short long small first less
    cases long with
    | nil => cases less
    | cons digit rest =>
      have filled : 1 ≤ digit := Nat.one_le_iff_ne_zero.mpr fun zero =>
        Nat.not_lt_of_le (first (congrArg some zero)) less
      calc value short < 10 ^ short.length := value_lt small
        _ ≤ 10 ^ rest.length := Nat.pow_le_pow_right (by decide) (Nat.le_of_lt_succ less)
        _ ≤ digit * 10 ^ rest.length := Nat.le_mul_of_pos_left _ filled
        _ ≤ digit * 10 ^ rest.length + value rest := Nat.le_add_right _ _
  rcases Nat.lt_trichotomy xs.length ys.length with less | equal | more
  · rw [Nat.compare_eq_lt.mpr less, Nat.compare_eq_lt.mpr (grows left rightFirst less)]
    rfl
  · rw [Nat.compare_eq_eq.mpr equal, Ordering.eq_then]
    exact compare_value_of_length_eq equal left right
  · rw [Nat.compare_eq_gt.mpr more, Nat.compare_eq_gt.mpr (grows right leftFirst more)]
    rfl

/-- `u8::is_ascii_digit`. -/
def isDigit (byte : UInt8) : Bool := 48 ≤ byte && byte ≤ 57

/-- `u8::is_ascii_alphabetic`. -/
def isAlphabetic (byte : UInt8) : Bool := (65 ≤ byte && byte ≤ 90) || (97 ≤ byte && byte ≤ 122)

def digitOf (byte : UInt8) : Nat := byte.toNat - 48

/-- The number that a run of digits writes. -/
def number (bytes : List UInt8) : Nat := value (bytes.map digitOf)

/-- A run without its leading zeros. -/
def stripZeros (bytes : List UInt8) : List UInt8 := bytes.dropWhile (· = 48)

theorem isDigit_iff : isDigit byte = true ↔ 48 ≤ byte.toNat ∧ byte.toNat ≤ 57 := by
  simp [isDigit, UInt8.le_iff_toNat_le]

theorem digitOf_lt (digit : isDigit byte = true) : digitOf byte < 10 := by
  have bounds := isDigit_iff.mp digit
  unfold digitOf
  omega

theorem compare_toNat (one two : UInt8) : compare one two = compare one.toNat two.toNat := by
  show compareOfLessAndEq one two = compareOfLessAndEq one.toNat two.toNat
  simp only [compareOfLessAndEq, UInt8.lt_iff_toNat_lt, ← UInt8.toNat_inj]

theorem compare_digitOf (first : isDigit one = true) (second : isDigit two = true) :
    compare one two = compare (digitOf one) (digitOf two) := by
  have oneBounds := isDigit_iff.mp first
  have twoBounds := isDigit_iff.mp second
  rw [compare_toNat]
  unfold digitOf
  rcases Nat.lt_trichotomy one.toNat two.toNat with less | equal | more
  · rw [Nat.compare_eq_lt.mpr less, Nat.compare_eq_lt.mpr (by omega)]
  · rw [Nat.compare_eq_eq.mpr equal, Nat.compare_eq_eq.mpr (by omega)]
  · rw [Nat.compare_eq_gt.mpr more, Nat.compare_eq_gt.mpr (by omega)]

theorem compare_map_digitOf {xs ys : List UInt8} (left : ∀ byte ∈ xs, isDigit byte = true)
    (right : ∀ byte ∈ ys, isDigit byte = true) :
    compare xs ys = compare (xs.map digitOf) (ys.map digitOf) := by
  induction xs generalizing ys with
  | nil =>
    cases ys with
    | nil | cons y ys => rfl
  | cons x xs ih =>
    cases ys with
    | nil => rfl
    | cons y ys =>
      rw [List.map_cons, List.map_cons, List.compare_cons_cons, List.compare_cons_cons,
        compare_digitOf (left x List.mem_cons_self) (right y List.mem_cons_self),
        ih (fun byte member => left byte (List.mem_cons_of_mem x member))
          (fun byte member => right byte (List.mem_cons_of_mem y member))]

theorem digitOf_eq_zero_iff (digit : isDigit byte = true) : digitOf byte = 0 ↔ byte = 48 := by
  have bounds := isDigit_iff.mp digit
  refine ⟨fun zero => ?_, fun same => ?_⟩
  · apply UInt8.toNat_inj.mp
    unfold digitOf at zero
    exact (by omega : byte.toNat = 48)
  · rw [same]
    rfl

/-- Runs of digits are ordered as their numbers by length and then byte by byte, unless a longer
one begins with a zero. -/
theorem compare_number {xs ys : List UInt8} (left : ∀ byte ∈ xs, isDigit byte = true)
    (right : ∀ byte ∈ ys, isDigit byte = true) (leftFirst : xs.head? = some 48 → xs.length ≤ ys.length)
    (rightFirst : ys.head? = some 48 → ys.length ≤ xs.length) :
    (compare xs.length ys.length).then (compare xs ys) = compare (number xs) (number ys) := by
  have small : ∀ {bytes : List UInt8}, (∀ byte ∈ bytes, isDigit byte = true) →
      ∀ digit ∈ bytes.map digitOf, digit < 10 := by
    intro bytes digits digit member
    obtain ⟨byte, listed, rfl⟩ := List.mem_map.mp member
    exact digitOf_lt (digits byte listed)
  have first : ∀ {bytes : List UInt8}, (∀ byte ∈ bytes, isDigit byte = true) →
      (bytes.map digitOf).head? = some 0 → bytes.head? = some 48 := by
    intro bytes digits zero
    cases bytes with
    | nil => cases zero
    | cons byte rest =>
      have same := (digitOf_eq_zero_iff (digits byte List.mem_cons_self)).mp (Option.some.inj zero)
      rw [same]
      rfl
  rw [compare_map_digitOf left right, ← List.length_map digitOf, ← List.length_map digitOf]
  refine compare_value (small left) (small right) (fun zero => ?_) (fun zero => ?_)
  · rw [List.length_map, List.length_map]
    exact leftFirst (first left zero)
  · rw [List.length_map, List.length_map]
    exact rightFirst (first right zero)

theorem number_cons_zero (rest : List UInt8) : number (48 :: rest) = number rest := by
  rw [number, List.map_cons, value, show digitOf 48 = 0 from rfl, Nat.zero_mul, Nat.zero_add]
  rfl

theorem mem_of_mem_stripZeros (member : byte ∈ stripZeros bytes) : byte ∈ bytes :=
  (List.dropWhile_sublist _).subset member

theorem number_stripZeros (bytes : List UInt8) : number (stripZeros bytes) = number bytes := by
  induction bytes with
  | nil => rfl
  | cons byte rest ih =>
    unfold stripZeros at ih ⊢
    rw [List.dropWhile_cons]
    split
    · rename_i zero
      rw [ih, of_decide_eq_true zero, number_cons_zero]
    · rfl

theorem head?_stripZeros (bytes : List UInt8) : (stripZeros bytes).head? ≠ some 48 := by
  intro first
  have failed := List.head?_dropWhile_not (fun byte : UInt8 => decide (byte = 48)) bytes
  rw [← stripZeros, first] at failed
  simp at failed

/-- Runs of digits without their leading zeros are ordered as their numbers, by length and then
byte by byte. -/
theorem compare_stripZeros (left : ∀ byte ∈ xs, isDigit byte = true)
    (right : ∀ byte ∈ ys, isDigit byte = true) :
    (compare (stripZeros xs).length (stripZeros ys).length).then
      (compare (stripZeros xs) (stripZeros ys)) = compare (number xs) (number ys) := by
  have leftDigits : ∀ byte ∈ stripZeros xs, isDigit byte = true := fun byte member =>
    left byte (mem_of_mem_stripZeros member)
  have rightDigits : ∀ byte ∈ stripZeros ys, isDigit byte = true := fun byte member =>
    right byte (mem_of_mem_stripZeros member)
  rw [compare_number leftDigits rightDigits (fun zero => absurd zero (head?_stripZeros xs))
    (fun zero => absurd zero (head?_stripZeros ys)), number_stripZeros, number_stripZeros]

end SpectonCr.Numerals
