import SpectonCr.Scanner.Sbom

namespace SpectonCr.Scanner

open Storage

def isSeparator (c : Char) : Bool := c = '_' || c = '.' || c = '-'

/-- The loop of `normalize_pypi`; `lastDash` is whether a dash was pushed last. -/
def normalizeLoop : Bool → List Char → List Char
  | _, [] => []
  | lastDash, c :: rest =>
    if isSeparator c.toLower then
      if lastDash then normalizeLoop true rest else '-' :: normalizeLoop true rest
    else c.toLower :: normalizeLoop false rest

/-- `trim_matches('-')`. -/
def trimDashes (chars : List Char) : List Char :=
  ((chars.dropWhile (· = '-')).reverse.dropWhile (· = '-')).reverse

def normalizePypi (name : String) : String := String.ofList (trimDashes (normalizeLoop false name.toList))

/-- Every run of separators becomes one dash. -/
def squeeze : Bool → List Char → List Char
  | _, [] => []
  | inRun, c :: rest =>
    if isSeparator c then if inRun then squeeze true rest else '-' :: squeeze true rest
    else c :: squeeze false rest

theorem isSeparator_letter (letter : 65 ≤ c.toNat ∧ c.toNat ≤ 90 ∨ 97 ≤ c.toNat ∧ c.toNat ≤ 122) :
    isSeparator c = false := by
  have other : ∀ separator ∈ ['_', '.', '-'], c ≠ separator := by
    intro separator member same
    subst same
    revert letter
    simp only [List.mem_cons, List.not_mem_nil, or_false] at member
    rcases member with rfl | rfl | rfl <;> decide
  simp [isSeparator, other]

/-- A character is lowered to itself, or from one letter to another. -/
theorem toLower_cases (c : Char) : c.toLower = c ∨
    (65 ≤ c.toNat ∧ c.toNat ≤ 90) ∧ 97 ≤ c.toLower.toNat ∧ c.toLower.toNat ≤ 122 := by
  unfold Char.toLower
  split
  · rename_i upper
    obtain ⟨low, high⟩ := upper
    have lowest : 65 ≤ c.toNat := low
    have highest : c.toNat ≤ 90 := high
    have lowered : (c.val + ('a'.val - 'A'.val)).toNat = c.toNat + 32 := by
      have small : c.toNat + 32 < 2 ^ 32 := by omega
      rw [UInt32.toNat_add]
      exact Nat.mod_eq_of_lt small
    refine .inr ⟨⟨lowest, highest⟩, ?_, ?_⟩
    · exact le_of_le_of_eq (by omega) lowered.symm
    · exact le_of_eq_of_le lowered (by omega)
  · exact .inl rfl

/-- Lowering a letter makes no separator and takes none away. -/
theorem isSeparator_toLower (c : Char) : isSeparator c.toLower = isSeparator c := by
  rcases toLower_cases c with same | ⟨upper, lower⟩
  · rw [same]
  · rw [isSeparator_letter (.inl upper), isSeparator_letter (.inr lower)]

theorem normalizeLoop_eq (inRun : Bool) (chars : List Char) :
    normalizeLoop inRun chars = (squeeze inRun chars).map Char.toLower := by
  induction chars generalizing inRun with
  | nil => rfl
  | cons c rest ih =>
    rw [normalizeLoop, squeeze, isSeparator_toLower, ih, ih]
    cases isSeparator c with
    | true => cases inRun <;> rfl
    | false => rfl

end SpectonCr.Scanner
