import SpectonCr.Matcher.Rpm

namespace SpectonCr.Matcher.Rpm

open Numerals Comparator
open Std (TransCmp OrientedCmp ReflCmp)

/-- What stands at a position of a version. A marker or the end is spaced if there are separators
before it. -/
inductive Token where
  | tilde (spaced : Bool)
  | caret (spaced : Bool)
  | stop (spaced : Bool)
  | word (letters : List UInt8)
  | number (value : Nat)
  deriving DecidableEq

namespace Token

def isStop : Token → Bool
  | stop _ => true
  | _ => false

/-- The token when the separators before it were skipped. -/
def unspaced : Token → Token
  | tilde _ => tilde false
  | caret _ => caret false
  | stop _ => stop false
  | token => token

def rank : Token → Nat
  | tilde false => 0
  | caret false => 1
  | tilde true => 2
  | stop _ => 3
  | caret true => 4
  | word _ => 5
  | number _ => 6

def letters : Token → List UInt8
  | word letters => letters
  | _ => []

def value : Token → Nat
  | number value => value
  | _ => 0

def byRank : Token → Token → Ordering :=
  compareLex (on compare rank) (compareLex (on compare letters) (on compare value))

/-- Tokens are ordered by rank, but a caret is above the end of a text. -/
def cmp : Token → Token → Ordering
  | caret false, stop false => .gt
  | stop false, caret false => .lt
  | x, y => byRank x y

instance : TransCmp byRank := inferInstanceAs (TransCmp (compareLex _ (compareLex _ _)))

theorem cmp_eq_byRank (one : ¬(x = caret false ∧ y = stop false))
    (other : ¬(x = stop false ∧ y = caret false)) : cmp x y = byRank x y := by
  unfold cmp
  split
  · exact absurd ⟨rfl, rfl⟩ one
  · exact absurd ⟨rfl, rfl⟩ other
  · rfl

theorem cmp_swap (x y : Token) : cmp x y = (cmp y x).swap := by
  by_cases one : x = caret false ∧ y = stop false
  · rw [one.1, one.2]
    rfl
  by_cases other : x = stop false ∧ y = caret false
  · rw [other.1, other.2]
    rfl
  · rw [cmp_eq_byRank one other, cmp_eq_byRank (other ∘ And.symm) (one ∘ And.symm)]
    exact OrientedCmp.eq_swap

theorem byRank_of_rank_ne (ranks : x.rank ≠ y.rank) : byRank x y = compare x.rank y.rank := by
  unfold byRank compareLex on
  rcases Nat.lt_or_gt_of_ne ranks with less | more
  · rw [Nat.compare_eq_lt.mpr less]
    rfl
  · rw [Nat.compare_eq_gt.mpr more]
    rfl

theorem cmp_of_rank_lt (less : x.rank < y.rank) (pair : ¬(x = caret false ∧ y = stop false)) :
    cmp x y = .lt := by
  by_cases other : x = stop false ∧ y = caret false
  · rw [other.1, other.2]
    rfl
  · rw [cmp_eq_byRank pair other, byRank_of_rank_ne less.ne, Nat.compare_eq_lt.mpr less]

theorem cmp_self (x : Token) : cmp x x = .eq := by
  rw [cmp_eq_byRank (by rintro ⟨rfl, other⟩; cases other) (by rintro ⟨rfl, other⟩; cases other)]
  exact ReflCmp.compare_self

theorem rank_eq_three_iff {x : Token} : x.rank = 3 ↔ x.isStop = true := by
  cases x with
  | stop spaced => exact iff_of_true rfl rfl
  | tilde spaced | caret spaced =>
    cases spaced <;> exact iff_of_false (by decide) Bool.false_ne_true
  | word letters | number value => exact iff_of_false nofun Bool.false_ne_true

/-- The token of a rank with its letters and its value. -/
def ofFields : Nat → List UInt8 → Nat → Token
  | 0, _, _ => tilde false
  | 1, _, _ => caret false
  | 2, _, _ => tilde true
  | 3, _, _ => stop false
  | 4, _, _ => caret true
  | 5, letters, _ => word letters
  | _, _, value => number value

theorem ofFields_fields (goes : x.isStop = false) : ofFields x.rank x.letters x.value = x := by
  cases x with
  | stop spaced => cases goes
  | tilde spaced | caret spaced => cases spaced <;> rfl
  | word letters | number value => rfl

theorem cmp_word (one two : List UInt8) : cmp (word one) (word two) = compare one two := by
  show (compare one two).then .eq = compare one two
  exact Ordering.then_eq

/-- Away from the start, separators before a token do not matter. -/
theorem spaced_or_run (above : 2 ≤ x.rank) (goes : x.isStop = false) :
    x = tilde true ∨ x = caret true ∨ (x.unspaced = x ∧ 5 ≤ x.rank) := by
  cases x with
  | stop spaced => cases goes
  | tilde spaced =>
    cases spaced with
    | false => exact absurd above (by decide)
    | true => exact .inl rfl
  | caret spaced =>
    cases spaced with
    | false => exact absurd above (by decide)
    | true => exact .inr (.inl rfl)
  | word letters => exact .inr (.inr ⟨rfl, Nat.le_refl 5⟩)
  | number value => exact .inr (.inr ⟨rfl, Nat.le_succ 5⟩)

theorem cmp_unspaced (aboveX : 2 ≤ x.rank) (goesX : x.isStop = false) (aboveY : 2 ≤ y.rank)
    (goesY : y.isStop = false) : cmp x.unspaced y.unspaced = cmp x y := by
  have marker : ∀ {z w : Token}, z.rank < 5 → 5 ≤ w.rank → cmp z w = .lt := by
    intro z w below above
    refine cmp_of_rank_lt (Nat.lt_of_lt_of_le below above) ?_
    rintro ⟨_, rfl⟩
    exact absurd above (by decide)
  rcases spaced_or_run aboveX goesX with rfl | rfl | ⟨sameX, runX⟩
  case inl | inr.inl =>
    rcases spaced_or_run aboveY goesY with rfl | rfl | ⟨sameY, runY⟩
    · rfl
    · rfl
    · rw [sameY, marker (by decide) runY, marker (by decide) runY]
  · rcases spaced_or_run aboveY goesY with rfl | rfl | ⟨sameY, runY⟩
    case inl | inr.inl =>
      rw [sameX, cmp_swap, marker (by decide) runX, cmp_swap x, marker (by decide) runX]
    · rw [sameX, sameY]

/-- Tokens that compare as equal are the same, but for the ends. -/
theorem eq_of_cmp (same : cmp x y = .eq) : x.isStop = y.isStop ∧ (x.isStop = false → x = y) := by
  have ordered : byRank x y = .eq := by
    rw [← same]
    refine (cmp_eq_byRank ?_ ?_).symm
    · rintro ⟨rfl, rfl⟩
      cases same
    · rintro ⟨rfl, rfl⟩
      cases same
  simp only [byRank, compareLex_eq_eq, on, compare_eq_iff_eq] at ordered
  obtain ⟨ranks, words, values⟩ := ordered
  have stops : x.isStop = y.isStop := by
    rw [Bool.eq_iff_iff, ← rank_eq_three_iff, ← rank_eq_three_iff, ranks]
  refine ⟨stops, fun goes => ?_⟩
  rw [← ofFields_fields goes, ← ofFields_fields (stops.symm.trans goes), ranks, values,
    Std.LawfulEqCmp.eq_of_compare words]

end Token

/-! ### Reading tokens -/

/-- The first token and what follows it. -/
def readToken (s : List UInt8) : Token × List UInt8 :=
  match skipSeparators s with
  | [] => (.stop (s.head?.any isSeparator), [])
  | byte :: rest =>
    if byte = 126 then (.tilde (s.head?.any isSeparator), rest)
    else if byte = 94 then (.caret (s.head?.any isSeparator), rest)
    else if isDigit byte then
      (.number (number (segment (byte :: rest))), afterSegment (byte :: rest))
    else (.word (segment (byte :: rest)), afterSegment (byte :: rest))

theorem readToken_shorter (goes : (readToken s).1.isStop = false) : (readToken s).2.length < s.length := by
  have whole := skipSeparators_length_le s
  revert goes
  unfold readToken
  split
  · exact nofun
  rename_i byte tail first
  intro _
  rw [first, List.length_cons] at whole
  split
  · exact whole
  rename_i notTilde
  split
  · exact whole
  rename_i notCaret
  have shorter := afterSegment_length_lt first notTilde notCaret
  split <;> exact shorter

/-- The tokens of a version, up to its end. -/
def tokens (s : List UInt8) : List Token :=
  if (readToken s).1.isStop = true then [(readToken s).1]
  else (readToken s).1 :: tokens (readToken s).2
termination_by s.length
decreasing_by
  rename_i goes
  exact readToken_shorter (Bool.not_eq_true _ ▸ goes)

/-- No marker stands first. -/
def Plain (s : List UInt8) : Prop := startsWith 126 s = false ∧ startsWith 94 s = false

/-- What a version begins with, and the token that is read from it. -/
inductive Reads (s : List UInt8) : Token → List UInt8 → Prop where
  | tilde {rest : List UInt8} (first : s = 126 :: rest) : Reads s (.tilde false) rest
  | caret {rest : List UInt8} (first : s = 94 :: rest) : Reads s (.caret false) rest
  | spacedTilde {rest : List UInt8} (plain : Plain s) (next : skipSeparators s = 126 :: rest) :
      Reads s (.tilde true) rest
  | spacedCaret {rest : List UInt8} (plain : Plain s) (next : skipSeparators s = 94 :: rest) :
      Reads s (.caret true) rest
  | stop (plain : Plain s) (ended : skipSeparators s = []) : Reads s (.stop (!s.isEmpty)) []
  | number {byte : UInt8} {rest : List UInt8} (plain : Plain s)
      (next : skipSeparators s = byte :: rest) (digit : isDigit byte = true) :
      Reads s (.number (number (segment (byte :: rest)))) (afterSegment (byte :: rest))
  | word {byte : UInt8} {rest : List UInt8} (plain : Plain s)
      (next : skipSeparators s = byte :: rest) (notTilde : byte ≠ 126) (notCaret : byte ≠ 94)
      (letter : isDigit byte = false) :
      Reads s (.word (segment (byte :: rest))) (afterSegment (byte :: rest))

theorem skipSeparators_of_not (first : s.head?.any isSeparator = false) : skipSeparators s = s := by
  cases s with
  | nil => rfl
  | cons byte rest =>
    exact List.dropWhile_cons_of_neg fun separator => Bool.false_ne_true (first.symm.trans separator)

theorem skipSeparators_not (s : List UInt8) : (skipSeparators s).head?.any isSeparator = false := by
  have failed := List.head?_dropWhile_not isSeparator s
  unfold skipSeparators
  cases first : (s.dropWhile isSeparator).head? with
  | none => rfl
  | some byte =>
    rw [first] at failed
    simpa using failed

/-- After a marker was read, it stood first, or there were separators before it. -/
theorem plain_of_spaced (spaced : s.head?.any isSeparator = true) : Plain s := by
  cases s with
  | nil => cases spaced
  | cons byte rest =>
    have separator : isSeparator byte = true := spaced
    constructor
    · refine Bool.eq_false_iff.mpr fun first => ?_
      rw [show byte = 126 by simpa [startsWith] using first] at separator
      exact absurd separator (by decide)
    · refine Bool.eq_false_iff.mpr fun first => ?_
      rw [show byte = 94 by simpa [startsWith] using first] at separator
      exact absurd separator (by decide)

theorem plain_of_run (next : skipSeparators s = byte :: rest) (notTilde : byte ≠ 126) (notCaret : byte ≠ 94) :
    Plain s := by
  cases spaced : s.head?.any isSeparator with
  | true => exact plain_of_spaced spaced
  | false =>
    rw [← skipSeparators_of_not spaced, next]
    exact ⟨by simpa [startsWith] using notTilde, by simpa [startsWith] using notCaret⟩

theorem reads (s : List UInt8) : Reads s (readToken s).1 (readToken s).2 := by
  unfold readToken
  split
  · rename_i ended
    cases spaced : s.head?.any isSeparator with
    | true =>
      cases s with
      | nil => cases spaced
      | cons byte rest => exact .stop (plain_of_spaced spaced) ended
    | false =>
      have empty : s = [] := (skipSeparators_of_not spaced).symm.trans ended
      subst empty
      exact .stop ⟨rfl, rfl⟩ rfl
  · rename_i byte rest next
    split
    · rename_i tilde
      subst tilde
      cases spaced : s.head?.any isSeparator with
      | true => exact .spacedTilde (plain_of_spaced spaced) next
      | false => exact .tilde ((skipSeparators_of_not spaced).symm.trans next)
    · rename_i notTilde
      split
      · rename_i caret
        subst caret
        cases spaced : s.head?.any isSeparator with
        | true => exact .spacedCaret (plain_of_spaced spaced) next
        | false => exact .caret ((skipSeparators_of_not spaced).symm.trans next)
      · rename_i notCaret
        have plain := plain_of_run next notTilde notCaret
        split
        · rename_i digit
          exact .number plain next digit
        · rename_i letter
          exact .word plain next notTilde notCaret (Bool.not_eq_true _ ▸ letter)

/-! ### The loop goes through the tokens -/

theorem loop_tilde_left (other : startsWith 126 b = false) (a : List UInt8) : loop (126 :: a) b = .lt := by
  have first : startsWith 126 (126 :: a) = true := startsWith_iff.mpr ⟨a, rfl⟩
  exact loop_of_error (by simp [round, first, other])

theorem loop_tilde_right (other : startsWith 126 a = false) (b : List UInt8) : loop a (126 :: b) = .gt := by
  have first : startsWith 126 (126 :: b) = true := startsWith_iff.mpr ⟨b, rfl⟩
  exact loop_of_error (by simp [round, first, other])

theorem loop_caret (plain : Plain b) (a : List UInt8) :
    loop (94 :: a) b = (if b = [] then .gt else .lt) ∧ loop b (94 :: a) = if b = [] then .lt else .gt := by
  cases b with
  | nil =>
    constructor <;> exact loop_of_error (by simp [round, startsWith])
  | cons byte rest =>
    have notTilde : byte ≠ 126 := by simpa [startsWith] using plain.1
    have notCaret : byte ≠ 94 := by simpa [startsWith] using plain.2
    constructor <;> exact loop_of_error (by simp [round, startsWith, notTilde, notCaret])

/-- A marker stands first, or the token ranks above the leading markers. -/
theorem Reads.leading_or_plain (reads : Reads s x rest) :
    (x = .tilde false ∧ s = 126 :: rest) ∨ (x = .caret false ∧ s = 94 :: rest) ∨
      (Plain s ∧ 2 ≤ x.rank ∧ (x = .stop false ↔ s = [])) := by
  cases reads with
  | tilde first => exact .inl ⟨rfl, first⟩
  | caret first => exact .inr (.inl ⟨rfl, first⟩)
  | spacedTilde plain next | spacedCaret plain next =>
    refine .inr (.inr ⟨plain, by decide, iff_of_false nofun ?_⟩)
    rintro rfl
    cases next
  | stop plain ended =>
    refine .inr (.inr ⟨plain, by simp [Token.rank], ?_⟩)
    cases s with
    | nil => exact iff_of_true rfl rfl
    | cons byte rest => exact iff_of_false nofun nofun
  | number plain next digit | word plain next notTilde notCaret letter =>
    refine .inr (.inr ⟨plain, by simp [Token.rank], iff_of_false nofun ?_⟩)
    rintro rfl
    cases next

theorem Reads.two_le_rank (reads : Reads s x rest) (plain : Plain s) : 2 ≤ x.rank := by
  rcases reads.leading_or_plain with ⟨_, rfl⟩ | ⟨_, rfl⟩ | ⟨_, above, _⟩
  · cases plain.1
  · cases plain.2
  · exact above

theorem Reads.plain_of_stop (reads : Reads s x rest) (ends : x.isStop = true) : Plain s := by
  rcases reads.leading_or_plain with ⟨rfl, _⟩ | ⟨rfl, _⟩ | ⟨plain, _⟩
  · cases ends
  · cases ends
  · exact plain

theorem loop_leading (readsA : Reads a x ra) (readsB : Reads b y rb) (leading : ¬(Plain a ∧ Plain b)) :
    loop a b = (x.cmp y).then (loop ra rb) := by
  rcases readsA.leading_or_plain with ⟨rfl, rfl⟩ | ⟨rfl, rfl⟩ | ⟨plainA, rankA, emptyA⟩
  · rcases readsB.leading_or_plain with ⟨rfl, rfl⟩ | ⟨rfl, rfl⟩ | ⟨plainB, rankB, emptyB⟩
    · exact loop_of_ok (by simp [round, startsWith])
    · rw [loop_tilde_left rfl]
      rfl
    · have less : (Token.tilde false).rank < y.rank := Nat.lt_of_lt_of_le (by decide) rankB
      rw [loop_tilde_left plainB.1, Token.cmp_of_rank_lt less fun pair => by cases pair.1]
      rfl
  · rcases readsB.leading_or_plain with ⟨rfl, rfl⟩ | ⟨rfl, rfl⟩ | ⟨plainB, rankB, emptyB⟩
    · rw [loop_tilde_right rfl]
      rfl
    · exact loop_of_ok (by simp [round, startsWith])
    rw [(loop_caret plainB _).1]
    by_cases empty : b = []
    · rw [if_pos empty, emptyB.mpr empty]
      rfl
    · have less : (Token.caret false).rank < y.rank := Nat.lt_of_lt_of_le (by decide) rankB
      rw [if_neg empty, Token.cmp_of_rank_lt less fun pair => empty (emptyB.mp pair.2)]
      rfl
  · rcases readsB.leading_or_plain with ⟨rfl, rfl⟩ | ⟨rfl, rfl⟩ | ⟨plainB, rankB, emptyB⟩
    · have less : (Token.tilde false).rank < x.rank := Nat.lt_of_lt_of_le (by decide) rankA
      rw [loop_tilde_right plainA.1, Token.cmp_swap, Token.cmp_of_rank_lt less fun pair => by cases pair.1]
      rfl
    · rw [(loop_caret plainA _).2, Token.cmp_swap]
      by_cases empty : a = []
      · rw [if_pos empty, emptyA.mpr empty]
        rfl
      · have less : (Token.caret false).rank < x.rank := Nat.lt_of_lt_of_le (by decide) rankA
        rw [if_neg empty, Token.cmp_of_rank_lt less fun pair => empty (emptyA.mp pair.2)]
        rfl
    · exact absurd ⟨plainA, plainB⟩ leading

theorem round_plain (plainA : Plain a) (plainB : Plain b) :
    round a b = if (skipSeparators a).isEmpty || (skipSeparators b).isEmpty then
        .error (leftovers (skipSeparators a) (skipSeparators b))
      else if startsWith 126 (skipSeparators a) || startsWith 126 (skipSeparators b) ||
          startsWith 94 (skipSeparators a) || startsWith 94 (skipSeparators b) then
        .ok (skipSeparators a, skipSeparators b)
      else if isNum (skipSeparators a) != isNum (skipSeparators b) then
        .error (if isNum (skipSeparators a) then .gt else .lt)
      else decided (compareSegments (skipSeparators a) (skipSeparators b))
        (afterSegment (skipSeparators a), afterSegment (skipSeparators b)) := by
  simp only [round, plainA.1, plainA.2, plainB.1, plainB.2, Bool.or_self, Bool.false_eq_true, if_false]

/-- What is left of a plain text: nothing, or a token that is read without its separators. -/
theorem Reads.skipped (reads : Reads s x rest) (plain : Plain s) :
    (∃ spaced, x = .stop spaced ∧ skipSeparators s = []) ∨
      (x.isStop = false ∧ skipSeparators s ≠ [] ∧ Reads (skipSeparators s) x.unspaced rest) := by
  have settled : skipSeparators (skipSeparators s) = skipSeparators s :=
    skipSeparators_of_not (skipSeparators_not s)
  cases reads with
  | tilde first =>
    rw [first] at plain
    cases plain.1
  | caret first =>
    rw [first] at plain
    cases plain.2
  | spacedTilde plain next => exact .inr ⟨rfl, by simp [next], .tilde next⟩
  | spacedCaret plain next => exact .inr ⟨rfl, by simp [next], .caret next⟩
  | stop plain ended => exact .inl ⟨_, rfl, ended⟩
  | number plain next digit =>
    have first := settled.trans next
    refine .inr ⟨rfl, by simp [next], .number (plain_of_run first ?_ ?_) first digit⟩
    · rintro rfl
      cases digit
    · rintro rfl
      cases digit
  | word plain next notTilde notCaret letter =>
    have first := settled.trans next
    exact .inr ⟨rfl, by simp [next],
      .word (plain_of_run first notTilde notCaret) first notTilde notCaret letter⟩

/-- Against a side that has ended, what is left decides by its first token. -/
theorem Reads.leftovers_eq (reads : Reads s x rest) (plain : Plain s) (spaced : Bool) :
    leftovers [] (skipSeparators s) = (Token.stop spaced).cmp x ∧
      leftovers (skipSeparators s) [] = x.cmp (Token.stop spaced) := by
  have above : ∀ {byte : UInt8} {tail : List UInt8} {y : Token}, byte ≠ 126 → 4 ≤ y.rank →
      leftovers [] (byte :: tail) = (Token.stop spaced).cmp y ∧
        leftovers (byte :: tail) [] = y.cmp (Token.stop spaced) := by
    intro byte tail y notTilde rank
    have less : (Token.stop spaced).cmp y = .lt := Token.cmp_of_rank_lt rank fun pair => by cases pair.1
    rw [Token.cmp_swap y, less]
    exact ⟨by simp [leftovers], by simp [leftovers]⟩
  cases reads with
  | tilde first =>
    rw [first] at plain
    cases plain.1
  | caret first =>
    rw [first] at plain
    cases plain.2
  | spacedTilde plain next =>
    rw [next]
    cases spaced <;> exact ⟨rfl, rfl⟩
  | spacedCaret plain next =>
    rw [next]
    exact above (by decide) (by decide)
  | stop plain ended =>
    rw [ended]
    cases spaced <;> cases s.isEmpty <;> exact ⟨rfl, rfl⟩
  | number plain next digit =>
    rw [next]
    refine above ?_ (by simp [Token.rank])
    rintro rfl
    cases digit
  | word plain next notTilde notCaret letter =>
    rw [next]
    exact above notTilde (by simp [Token.rank])

theorem stripLeadingZeros_spec (filled : run ≠ []) :
    number (stripLeadingZeros run) = number run ∧ stripLeadingZeros run ≠ [] ∧
      (∀ byte ∈ stripLeadingZeros run, byte ∈ run) ∧
      ((stripLeadingZeros run).head? = some 48 → (stripLeadingZeros run).length = 1) := by
  fun_induction stripLeadingZeros run with
  | case1 second rest ih =>
    obtain ⟨value, more, members, first⟩ := ih nofun
    exact ⟨value.trans (number_cons_zero _).symm, more,
      fun byte member => List.mem_cons_of_mem _ (members byte member), first⟩
  | case2 first second rest nonzero =>
    exact ⟨rfl, nofun, fun _ member => member, fun zero => absurd (Option.some.inj zero) nonzero⟩
  | case3 run short =>
    refine ⟨rfl, filled, fun _ member => member, fun _ => ?_⟩
    cases run with
    | nil => exact absurd rfl filled
    | cons first rest =>
      cases rest with
      | nil => rfl
      | cons second rest => exact absurd rfl (short first second rest)

theorem compare_stripLeadingZeros (leftFilled : xs ≠ []) (rightFilled : ys ≠ [])
    (left : ∀ byte ∈ xs, isDigit byte = true) (right : ∀ byte ∈ ys, isDigit byte = true) :
    (compare (stripLeadingZeros xs).length (stripLeadingZeros ys).length).then
      (compare (stripLeadingZeros xs) (stripLeadingZeros ys)) = compare (number xs) (number ys) := by
  obtain ⟨leftValue, leftMore, leftMembers, leftFirst⟩ := stripLeadingZeros_spec leftFilled
  obtain ⟨rightValue, rightMore, rightMembers, rightFirst⟩ := stripLeadingZeros_spec rightFilled
  rw [← leftValue, ← rightValue]
  refine compare_number (fun byte member => left byte (leftMembers byte member))
    (fun byte member => right byte (rightMembers byte member)) (fun zero => ?_) (fun zero => ?_)
  · rw [leftFirst zero]
    exact List.length_pos_of_ne_nil rightMore
  · rw [rightFirst zero]
    exact List.length_pos_of_ne_nil leftMore

theorem Reads.run (reads : Reads s x rest) (plain : Plain s) (settled : Plain (skipSeparators s))
    (filled : skipSeparators s ≠ []) :
    rest = afterSegment (skipSeparators s) ∧
      (isNum (skipSeparators s) = true ∧ x = .number (Numerals.number (segment (skipSeparators s))) ∧
          segment (skipSeparators s) ≠ [] ∧
          (∀ byte ∈ segment (skipSeparators s), isDigit byte = true) ∨
        isNum (skipSeparators s) = false ∧ x = .word (segment (skipSeparators s))) := by
  cases reads with
  | tilde first =>
    rw [first] at plain
    cases plain.1
  | caret first =>
    rw [first] at plain
    cases plain.2
  | spacedTilde plain next =>
    rw [next] at settled
    cases settled.1
  | spacedCaret plain next =>
    rw [next] at settled
    cases settled.2
  | stop plain ended => exact absurd ended filled
  | @number byte tail plain next digit =>
    have run : segment (byte :: tail) = (byte :: tail).takeWhile isDigit :=
      congrArg (List.takeWhile · _) (if_pos digit)
    rw [next]
    refine ⟨rfl, .inl ⟨digit, rfl, ?_, ?_⟩⟩
    · rw [run, List.takeWhile_cons_of_pos digit]
      nofun
    · intro other member
      rw [run] at member
      exact List.mem_takeWhile_imp member
  | word plain next notTilde notCaret letter =>
    rw [next]
    exact ⟨rfl, .inr ⟨letter, rfl⟩⟩

theorem loop_of_decided (turn : round a b = decided ordering (a', b')) :
    loop a b = ordering.then (loop a' b') := by
  cases ordering with
  | lt | gt => exact loop_of_error turn
  | eq => exact loop_of_ok turn

theorem loop_runs (readsA : Reads a x ra) (readsB : Reads b y rb) (plainA : Plain a)
    (plainB : Plain b) (settledA : Plain (skipSeparators a)) (settledB : Plain (skipSeparators b))
    (filledA : skipSeparators a ≠ []) (filledB : skipSeparators b ≠ []) :
    loop a b = (x.cmp y).then (loop ra rb) := by
  have turn := round_plain plainA plainB
  rw [if_neg (by simp [filledA, filledB]),
    if_neg (by simp [settledA.1, settledA.2, settledB.1, settledB.2])] at turn
  obtain ⟨rfl, kindA⟩ := readsA.run plainA settledA filledA
  obtain ⟨rfl, kindB⟩ := readsB.run plainB settledB filledB
  rcases kindA with ⟨numA, rfl, someA, digitsA⟩ | ⟨wordA, rfl⟩
  · rcases kindB with ⟨numB, rfl, someB, digitsB⟩ | ⟨wordB, rfl⟩
    · have values := compare_stripLeadingZeros someA someB digitsA digitsB
      rw [numA, numB, if_neg (by decide), compareSegments, if_pos numA, values] at turn
      exact loop_of_decided turn
    · rw [numA, wordB] at turn
      exact loop_of_error turn
  · rcases kindB with ⟨numB, rfl, someB, digitsB⟩ | ⟨wordB, rfl⟩
    · rw [wordA, numB] at turn
      exact loop_of_error turn
    rw [wordA, wordB, if_neg (by decide), compareSegments, if_neg (Bool.not_eq_true _ ▸ wordA)] at turn
    rw [Token.cmp_word]
    exact loop_of_decided turn

theorem loop_spaced (readsA : Reads a x ra) (readsB : Reads b y rb) (plainA : Plain a) (plainB : Plain b)
    (goesA : x.isStop = false) (goesB : y.isStop = false) (nextA : Reads (skipSeparators a) x.unspaced ra)
    (nextB : Reads (skipSeparators b) y.unspaced rb) (filledA : skipSeparators a ≠ [])
    (filledB : skipSeparators b ≠ []) (marked : ¬(Plain (skipSeparators a) ∧ Plain (skipSeparators b))) :
    loop a b = (x.cmp y).then (loop ra rb) := by
  have first : (startsWith 126 (skipSeparators a) || startsWith 126 (skipSeparators b) ||
      startsWith 94 (skipSeparators a) || startsWith 94 (skipSeparators b)) = true := by
    by_contra none
    simp only [Bool.or_eq_true, not_or, Bool.not_eq_true] at none
    exact marked ⟨⟨none.1.1.1, none.1.2⟩, none.1.1.2, none.2⟩
  have turn := round_plain plainA plainB
  rw [if_neg (by simp [filledA, filledB]), if_pos first] at turn
  rw [loop_of_ok turn, loop_leading nextA nextB marked,
    Token.cmp_unspaced (readsA.two_le_rank plainA) goesA (readsB.two_le_rank plainB) goesB]

/-- One token of each side is compared, then what follows them. -/
theorem loop_step (readsA : Reads a x ra) (readsB : Reads b y rb) :
    loop a b = (x.cmp y).then (if x.isStop = true then .eq else loop ra rb) := by
  by_cases plain : Plain a ∧ Plain b
  · obtain ⟨plainA, plainB⟩ := plain
    have stopped : skipSeparators a = [] ∨ skipSeparators b = [] →
        loop a b = leftovers (skipSeparators a) (skipSeparators b) := by
      intro ended
      refine loop_of_error ((round_plain plainA plainB).trans (if_pos ?_))
      rcases ended with left | right
      · rw [left]
        rfl
      · rw [right, Bool.or_comm]
        rfl
    rcases readsA.skipped plainA with ⟨spaced, rfl, endedA⟩ | ⟨goesA, filledA, nextA⟩
    · rw [stopped (.inl endedA), endedA, (readsB.leftovers_eq plainB spaced).1]
      cases (Token.stop spaced).cmp y <;> rfl
    rw [if_neg (Bool.not_eq_true _ ▸ goesA)]
    rcases readsB.skipped plainB with ⟨spaced, rfl, endedB⟩ | ⟨goesB, filledB, nextB⟩
    · rw [stopped (.inr endedB), endedB, (readsA.leftovers_eq plainA spaced).2]
      cases ordering : x.cmp (.stop spaced) with
      | lt | gt => rfl
      | eq =>
        rw [(Token.eq_of_cmp ordering).1] at goesA
        cases goesA
    · by_cases settled : Plain (skipSeparators a) ∧ Plain (skipSeparators b)
      · exact loop_runs readsA readsB plainA plainB settled.1 settled.2 filledA filledB
      · exact loop_spaced readsA readsB plainA plainB goesA goesB nextA nextB filledA filledB settled
  · rw [loop_leading readsA readsB plain]
    cases ends : x.isStop with
    | false => rfl
    | true =>
      cases ordering : x.cmp y with
      | lt | gt => rfl
      | eq =>
        have both := (Token.eq_of_cmp ordering).1
        exact absurd ⟨readsA.plain_of_stop ends, readsB.plain_of_stop (both ▸ ends)⟩ plain

theorem tokens_eq (s : List UInt8) :
    tokens s = (readToken s).1 :: if (readToken s).1.isStop = true then [] else tokens (readToken s).2 := by
  rw [tokens]
  split <;> rfl

theorem loop_eq_compareLex (a b : List UInt8) :
    loop a b = List.compareLex Token.cmp (tokens a) (tokens b) := by
  induction size : a.length using Nat.strong_induction_on generalizing a b with
  | _ count ih =>
    subst size
    rw [loop_step (reads a) (reads b), tokens_eq a, tokens_eq b, List.compareLex_cons_cons]
    cases ordering : Token.cmp (readToken a).1 (readToken b).1 with
    | lt | gt => rfl
    | eq =>
      rw [Ordering.eq_then, Ordering.eq_then, ← (Token.eq_of_cmp ordering).1]
      cases ends : (readToken a).1.isStop with
      | true => rfl
      | false => exact ih _ (readToken_shorter ends) _ _ rfl

theorem compareLex_self (xs : List Token) : List.compareLex Token.cmp xs xs = .eq := by
  induction xs with
  | nil => rfl
  | cons x xs ih => rw [List.compareLex_cons_cons, Token.cmp_self, Ordering.eq_then, ih]

/-- The comparator compares the tokens in turn. -/
theorem rpmvercmp_eq (a b : List UInt8) :
    rpmvercmp a b = List.compareLex Token.cmp (tokens a) (tokens b) := by
  unfold rpmvercmp
  split
  · rename_i same
    rw [same, compareLex_self]
  · exact loop_eq_compareLex a b

end SpectonCr.Matcher.Rpm
