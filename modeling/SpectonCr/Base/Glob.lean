import Mathlib

namespace SpectonCr

/-- The words of a pattern: its wildcard stands for any word. -/
inductive Glob {Symbol : Type} (wildcard : Symbol) : List Symbol → List Symbol → Prop
  | nil : Glob wildcard [] []
  | wild {pattern rest : List Symbol} (skipped : List Symbol) (matched : Glob wildcard pattern rest) :
      Glob wildcard (wildcard :: pattern) (skipped ++ rest)
  | symbol {pattern rest : List Symbol} (symbol : Symbol) (matched : Glob wildcard pattern rest) :
      Glob wildcard (symbol :: pattern) (symbol :: rest)

namespace Glob

variable {Symbol : Type} {wildcard : Symbol}

theorem literal (text : List Symbol) : Glob wildcard text text := by
  induction text with
  | nil => exact .nil
  | cons symbol rest ih => exact .symbol symbol ih

theorem append {first second one two : List Symbol} (left : Glob wildcard first one)
    (right : Glob wildcard second two) : Glob wildcard (first ++ second) (one ++ two) := by
  induction left with
  | nil => exact right
  | wild skipped _ ih =>
    rw [List.append_assoc]
    exact .wild skipped ih
  | symbol symbol _ ih => exact .symbol symbol ih

/-- A pattern that ends in the wildcard goes on matching. -/
theorem extend (matched : Glob wildcard (pattern ++ [wildcard]) text) (extra : List Symbol) :
    Glob wildcard (pattern ++ [wildcard]) (text ++ extra) := by
  induction pattern generalizing text with
  | nil =>
    have whole : Glob wildcard [wildcard] (text ++ extra ++ []) := .wild (text ++ extra) .nil
    rwa [List.append_nil] at whole
  | cons symbol rest ih =>
    cases matched with
    | wild skipped later =>
      rw [List.append_assoc]
      exact .wild skipped (ih later)
    | symbol _ later => exact .symbol symbol (ih later)

theorem of_wildcard (matched : Glob wildcard (wildcard :: pattern) text) :
    ∃ skipped rest, text = skipped ++ rest ∧ Glob wildcard pattern rest := by
  cases matched with
  | wild skipped later => exact ⟨skipped, _, rfl, later⟩
  | symbol _ later => exact ⟨[wildcard], _, rfl, later⟩

theorem prepend (before : List Symbol) (matched : Glob wildcard (wildcard :: pattern) text) :
    Glob wildcard (wildcard :: pattern) (before ++ text) := by
  obtain ⟨skipped, rest, rfl, later⟩ := matched.of_wildcard
  rw [← List.append_assoc]
  exact .wild (before ++ skipped) later

/-- A piece without the wildcard stands for itself. -/
theorem of_piece (plain : wildcard ∉ piece) (matched : Glob wildcard (piece ++ pattern) text) :
    ∃ rest, text = piece ++ rest ∧ Glob wildcard pattern rest := by
  induction piece generalizing text with
  | nil => exact ⟨text, rfl, matched⟩
  | cons symbol others ih =>
    cases matched with
    | wild skipped later => exact absurd List.mem_cons_self plain
    | symbol _ later =>
      obtain ⟨rest, whole, found⟩ := ih (fun inside => plain (.tail _ inside)) later
      exact ⟨rest, by rw [whole, List.cons_append], found⟩

theorem iff_eq_of_notMem (plain : wildcard ∉ pattern) : Glob wildcard pattern text ↔ text = pattern := by
  constructor
  · intro matched
    rw [← List.append_nil pattern] at matched
    obtain ⟨rest, whole, ended⟩ := of_piece plain matched
    cases ended
    rw [whole, List.append_nil]
  · rintro rfl
    exact literal text

end Glob

end SpectonCr
