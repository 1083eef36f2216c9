import SpectonCr.Base.Numerals
import SpectonCr.Base.Result
import SpectonCr.Base.Text

namespace SpectonCr.Matcher

/-- A part of a message: a literal text, or a text in its `Debug` form. -/
inductive Piece where
  | text (literal : String)
  | debug (shown : String)
  deriving DecidableEq

/-- `VersionError::Invalid`, with the pieces its message is formatted from. -/
inductive VersionError where
  | invalid (message : List Piece)
  deriving DecidableEq

/-- `VersionCompare::compare` for a parser and the comparison of what it reads. -/
def compareParsed {Version : Type} (parse : String → Except VersionError Version)
    (cmp : Version → Version → Ordering) (a b : String) : Except VersionError Ordering :=
  (parse a).bind fun one => (parse b).bind fun two => .ok (cmp one two)

theorem compareParsed_ok {Version : Type} {parse : String → Except VersionError Version}
    {cmp : Version → Version → Ordering} {a b : String} {one two : Version} (first : parse a = .ok one)
    (second : parse b = .ok two) : compareParsed parse cmp a b = .ok (cmp one two) := by
  rw [compareParsed, first, second]
  rfl

section Laws

open Std (TransCmp OrientedCmp ReflCmp)

variable {Version : Type} {parse : String → Except VersionError Version}
  {cmp : Version → Version → Ordering} [TransCmp cmp] {a b c : String} {one two three : Version}

theorem compareParsed_self (first : parse a = .ok one) : compareParsed parse cmp a a = .ok .eq := by
  rw [compareParsed_ok first first]
  exact congrArg Except.ok ReflCmp.compare_self

theorem compareParsed_swap (first : parse a = .ok one) (second : parse b = .ok two) :
    ∃ ordering, compareParsed parse cmp a b = .ok ordering ∧
      compareParsed parse cmp b a = .ok ordering.swap := by
  refine ⟨cmp one two, compareParsed_ok first second, ?_⟩
  rw [compareParsed_ok second first]
  exact congrArg Except.ok OrientedCmp.eq_swap

theorem compareParsed_trans (first : parse a = .ok one) (second : parse b = .ok two)
    (third : parse c = .ok three) (below : compareParsed parse cmp a b ≠ .ok .gt)
    (next : compareParsed parse cmp b c ≠ .ok .gt) : compareParsed parse cmp a c ≠ .ok .gt := by
  have isLE : ∀ {x y : String} {left right : Version}, parse x = .ok left → parse y = .ok right →
      (compareParsed parse cmp x y ≠ .ok .gt ↔ (cmp left right).isLE = true) := by
    intro x y left right parsed other
    rw [compareParsed_ok parsed other]
    cases cmp left right <;> simp
  rw [isLE first third]
  exact TransCmp.isLE_trans ((isLE first second).mp below) ((isLE second third).mp next)

end Laws

/-- A comparison that is over unless it is equal so far. -/
def decided {Rest : Type} : Ordering → Rest → Except Ordering Rest
  | .eq, rest => .ok rest
  | ordering, _ => .error ordering

theorem decided_eq_ok {Rest : Type} {ordering : Ordering} {rest after : Rest}
    (goes : decided ordering rest = .ok after) : ordering = .eq ∧ rest = after := by
  cases ordering with
  | lt | gt => cases goes
  | eq => exact ⟨rfl, Except.ok.inj goes⟩

/-- `str::as_bytes`. -/
def bytes (text : String) : List UInt8 := text.toList.flatMap String.utf8EncodeChar

/-- The value of a character among the digits. -/
def charDigit (c : Char) : Nat := c.toNat - '0'.toNat

/-- The number that a run of decimal characters writes. -/
def charNumber (chars : List Char) : Nat := Numerals.value (chars.map charDigit)

/-- The plus sign that a number may begin with is dropped. -/
def unsigned : List Char → List Char
  | '+' :: rest => rest
  | chars => chars

/-- `str::parse::<u64>`: an optional plus sign, decimal digits, and no overflow. -/
def parseU64 (chars : List Char) : Option Nat :=
  if unsigned chars ≠ [] ∧ (unsigned chars).all Char.isDigit = true ∧
      charNumber (unsigned chars) < 2 ^ 64 then
    some (charNumber (unsigned chars))
  else none

end SpectonCr.Matcher
