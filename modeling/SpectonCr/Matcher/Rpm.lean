import SpectonCr.Base.Comparator
import SpectonCr.Matcher.Common

namespace SpectonCr.Matcher.Rpm

open Numerals

def isAlphanumeric (byte : UInt8) : Bool := isDigit byte || isAlphabetic byte

/-- The bytes that are skipped between runs: all but letters, digits, `~` and `^`. -/
def isSeparator (byte : UInt8) : Bool := !isAlphanumeric byte && byte != 126 && byte != 94

def startsWith (byte : UInt8) (s : List UInt8) : Bool := s.head? == some byte

def skipSeparators (s : List UInt8) : List UInt8 := s.dropWhile isSeparator

/-- Leading zeros are dropped, but not the last digit. -/
def stripLeadingZeros : List UInt8 → List UInt8
  | first :: second :: rest =>
    if first = 48 then stripLeadingZeros (second :: rest) else first :: second :: rest
  | run => run

def isNum (s : List UInt8) : Bool := s.head?.any isDigit

/-- The run at the start: of digits after a digit, else of letters. -/
def segment (s : List UInt8) : List UInt8 := s.takeWhile (if isNum s then isDigit else isAlphabetic)

def afterSegment (s : List UInt8) : List UInt8 := s.dropWhile (if isNum s then isDigit else isAlphabetic)

def compareSegments (a b : List UInt8) : Ordering :=
  if isNum a then
    (compare (stripLeadingZeros (segment a)).length (stripLeadingZeros (segment b)).length).then
      (compare (stripLeadingZeros (segment a)) (stripLeadingZeros (segment b)))
  else compare (segment a) (segment b)

/-- Which side wins once one has ended. -/
def leftovers (a b : List UInt8) : Ordering :=
  match a.head?, b.head? with
  | none, none => .eq
  | some 126, _ => .lt
  | _, some 126 => .gt
  | none, some _ => .lt
  | some _, none => .gt
  | some _, some _ => .eq

/-- The body of the loop of `rpmvercmp` on what is left of both sides: a result, or what is left
for the next turn. -/
def round (a b : List UInt8) : Except Ordering (List UInt8 × List UInt8) :=
  let aT := startsWith 126 a
  let bT := startsWith 126 b
  let aC := startsWith 94 a
  let bC := startsWith 94 b
  if aT || bT then
    if aT && !bT then .error .lt
    else if !aT && bT then .error .gt
    else .ok (a.tail, b.tail)
  else if aC || bC then
    if aC && b.isEmpty then .error .gt
    else if bC && a.isEmpty then .error .lt
    else if aC && !bC then .error .lt
    else if !aC && bC then .error .gt
    else .ok (a.tail, b.tail)
  else
    let a := skipSeparators a
    let b := skipSeparators b
    if a.isEmpty || b.isEmpty then .error (leftovers a b)
    else if startsWith 126 a || startsWith 126 b || startsWith 94 a || startsWith 94 b then
      .ok (a, b)
    else if isNum a != isNum b then .error (if isNum a then .gt else .lt)
    else decided (compareSegments a b) (afterSegment a, afterSegment b)

theorem startsWith_iff : startsWith byte s = true ↔ ∃ rest, s = byte :: rest := by
  cases s with
  | nil | cons first rest => simp [startsWith]

theorem skipSeparators_length_le (s : List UInt8) : (skipSeparators s).length ≤ s.length :=
  (List.dropWhile_sublist _).length_le

theorem skipSeparators_length_lt (before : startsWith byte s = false)
    (after : startsWith byte (skipSeparators s) = true) : (skipSeparators s).length < s.length := by
  rcases (skipSeparators_length_le s).lt_or_eq with shorter | same
  · exact shorter
  · have kept : skipSeparators s = s := (List.dropWhile_sublist _).eq_of_length same
    rw [kept, before] at after
    cases after

theorem segment_first (first : skipSeparators s = byte :: rest) (notTilde : byte ≠ 126) (notCaret : byte ≠ 94) :
    (if isNum (byte :: rest) then isDigit else isAlphabetic) byte = true := by
  have kept := List.head?_dropWhile_not isSeparator s
  rw [← skipSeparators, first, List.head?_cons] at kept
  have alphanumeric : isAlphanumeric byte = true := by
    simpa [isSeparator, notTilde, notCaret] using kept
  have number : isNum (byte :: rest) = isDigit byte := rfl
  rw [number]
  cases digit : isDigit byte with
  | true => exact digit
  | false => simpa [isAlphanumeric, digit] using alphanumeric

theorem afterSegment_length_lt (first : skipSeparators s = byte :: rest) (notTilde : byte ≠ 126)
    (notCaret : byte ≠ 94) : (afterSegment (byte :: rest)).length < s.length := by
  have run := segment_first first notTilde notCaret
  have whole := skipSeparators_length_le s
  rw [first, List.length_cons] at whole
  rw [afterSegment, List.dropWhile_cons_of_pos run]
  exact Nat.lt_of_le_of_lt (List.dropWhile_sublist _).length_le whole

theorem round_shorter (goes : round a b = .ok (a', b')) : a'.length + b'.length < a.length + b.length := by
  have tails : ∀ {x y : List UInt8} {byte : UInt8}, startsWith byte x = true →
      x.tail.length + y.tail.length < x.length + y.length := by
    intro x y byte first
    obtain ⟨rest, rfl⟩ := startsWith_iff.mp first
    rw [List.tail_cons, List.length_cons, List.length_tail]
    omega
  have left := skipSeparators_length_le a
  have right := skipSeparators_length_le b
  simp only [round] at goes
  split at goes
  · rename_i tilde
    split at goes
    · cases goes
    split at goes
    · cases goes
    cases goes
    rcases Bool.or_eq_true_iff.mp tilde with first | second
    · exact tails first
    · rw [Nat.add_comm, Nat.add_comm a.length]
      exact tails second
  · rename_i noTilde
    obtain ⟨aTilde, bTilde⟩ := Bool.or_eq_false_iff.mp (Bool.not_eq_true _ ▸ noTilde)
    split at goes
    · rename_i caret
      split at goes
      · cases goes
      split at goes
      · cases goes
      split at goes
      · cases goes
      split at goes
      · cases goes
      cases goes
      rcases Bool.or_eq_true_iff.mp caret with first | second
      · exact tails first
      · rw [Nat.add_comm, Nat.add_comm a.length]
        exact tails second
    · rename_i noCaret
      obtain ⟨aCaret, bCaret⟩ := Bool.or_eq_false_iff.mp (Bool.not_eq_true _ ▸ noCaret)
      split at goes
      · cases goes
      rename_i filled
      obtain ⟨aFilled, bFilled⟩ := Bool.or_eq_false_iff.mp (Bool.not_eq_true _ ▸ filled)
      split at goes
      · rename_i marked
        cases goes
        simp only [Bool.or_eq_true] at marked
        rcases marked with ((first | second) | third) | fourth
        · have shorter := skipSeparators_length_lt aTilde first
          omega
        · have shorter := skipSeparators_length_lt bTilde second
          omega
        · have shorter := skipSeparators_length_lt aCaret third
          omega
        · have shorter := skipSeparators_length_lt bCaret fourth
          omega
      · rename_i plain
        split at goes
        · cases goes
        obtain ⟨rfl, rfl⟩ := Prod.mk.inj (decided_eq_ok goes).2
        simp only [Bool.or_eq_true, not_or, Bool.not_eq_true] at plain
        have shorter : ∀ {s : List UInt8}, (skipSeparators s).isEmpty = false →
            startsWith 126 (skipSeparators s) = false →
            startsWith 94 (skipSeparators s) = false →
            (afterSegment (skipSeparators s)).length < s.length := by
          intro s filled noTilde noCaret
          cases first : skipSeparators s with
          | nil => simp [first] at filled
          | cons byte rest =>
            rw [first] at noTilde noCaret
            exact afterSegment_length_lt first (by simpa [startsWith] using noTilde)
              (by simpa [startsWith] using noCaret)
        have one := shorter aFilled plain.1.1.1 plain.1.2
        have two := shorter bFilled plain.1.1.2 plain.2
        omega

/-- The loop of `rpmvercmp`. -/
def loop (a b : List UInt8) : Ordering :=
  match _ : round a b with
  | .error ordering => ordering
  | .ok (a', b') => loop a' b'
termination_by a.length + b.length
decreasing_by
  rename_i goes
  exact round_shorter goes

def rpmvercmp (a b : List UInt8) : Ordering :=
  if a = b then .eq else loop a b

theorem loop_of_error (ends : round a b = .error ordering) : loop a b = ordering := by
  rw [loop]
  split
  · rename_i found
    exact Except.error.inj (found.symm.trans ends)
  · rename_i found
    cases found.symm.trans ends

theorem loop_of_ok (goes : round a b = .ok (a', b')) : loop a b = loop a' b' := by
  rw [loop]
  split
  · rename_i found
    cases found.symm.trans goes
  · rename_i found
    cases found.symm.trans goes
    rfl

end SpectonCr.Matcher.Rpm
