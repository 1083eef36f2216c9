import SpectonCr.Base.Comparator
import SpectonCr.Matcher.Common

namespace SpectonCr.Matcher

open Numerals Comparator
open Std (TransCmp OrientedCmp ReflCmp)

structure DebVersion where
  epoch : Nat
  (upstream revision : String)
  deriving DecidableEq

/-- The epoch before the first colon, if there are only digits before it, and the rest. -/
def debEpoch (s : String) : Except VersionError (Nat × String) :=
  match Text.splitOnce s ':' with
  | some (head, rest) =>
    if head ≠ "" ∧ head.toList.all Char.isDigit = true then
      match parseU64 head.toList with
      | some epoch => .ok (epoch, rest)
      | none => .error (.invalid [.text "deb epoch overflow in ", .debug s])
    else .ok (0, s)
  | none => .ok (0, s)

def DebVersion.parse (text : String) : Except VersionError DebVersion :=
  let s := Text.trim text
  if s = "" then .error (.invalid [.text "empty deb version"])
  else
    (debEpoch s).bind fun (epoch, rest) =>
      let (upstream, revision) := (Text.rsplitOnce rest '-').getD (rest, "")
      if upstream = "" then .error (.invalid [.text "deb upstream empty in ", .debug s])
      else .ok ⟨epoch, upstream, revision⟩

/-- The rank of a byte in a run of non-digits, or of the end of the run. -/
def nondigitRank : Option UInt8 → Int
  | none => 0
  | some byte =>
    if byte = 126 then -1
    else if isAlphabetic byte then 256 + byte.toNat
    else 512 + byte.toNat

def compareNonDigit (a b : List UInt8) : Ordering :=
  padded (on compare nondigitRank) none (a.map some) (b.map some)

def compareDigit (a b : List UInt8) : Ordering :=
  (compare (stripZeros a).length (stripZeros b).length).then (compare (stripZeros a) (stripZeros b))

def nondigits (s : List UInt8) : List UInt8 := s.takeWhile (!isDigit ·)

def afterNondigits (s : List UInt8) : List UInt8 := s.dropWhile (!isDigit ·)

def digits (s : List UInt8) : List UInt8 := (afterNondigits s).takeWhile isDigit

def afterRuns (s : List UInt8) : List UInt8 := (afterNondigits s).dropWhile isDigit

theorem length_afterRuns_le (s : List UInt8) : (afterRuns s).length ≤ s.length :=
  ((List.dropWhile_sublist _).trans (List.dropWhile_sublist _)).length_le

theorem length_afterRuns_lt (filled : afterRuns s ≠ []) : (afterRuns s).length < s.length := by
  cases s with
  | nil => exact absurd rfl filled
  | cons byte rest =>
    have shorter : ∀ {keep : UInt8 → Bool}, keep byte = true →
        ((byte :: rest).dropWhile keep).length < (byte :: rest).length := by
      intro keep kept
      rw [List.dropWhile_cons_of_pos kept]
      exact Nat.lt_succ_of_le (List.dropWhile_sublist _).length_le
    cases digit : isDigit byte with
    | false =>
      exact Nat.lt_of_le_of_lt (List.dropWhile_sublist _).length_le (shorter (by simp [digit]))
    | true =>
      have same : afterNondigits (byte :: rest) = byte :: rest := List.dropWhile_cons_of_neg (by simp [digit])
      rw [afterRuns, same]
      exact shorter digit

/-- The loop of `compare_component`. -/
def compareComponent (a b : List UInt8) : Ordering :=
  match compareNonDigit (nondigits a) (nondigits b) with
  | .eq =>
    match compareDigit (digits a) (digits b) with
    | .eq =>
      if afterRuns a = [] ∧ afterRuns b = [] then .eq
      else compareComponent (afterRuns a) (afterRuns b)
    | ordering => ordering
  | ordering => ordering
termination_by a.length + b.length
decreasing_by
  rename_i more
  have left := length_afterRuns_le a
  have right := length_afterRuns_le b
  by_cases empty : afterRuns a = []
  · have longer := length_afterRuns_lt fun none => more ⟨empty, none⟩
    omega
  · have longer := length_afterRuns_lt empty
    omega

def DebVersion.cmp (one two : DebVersion) : Ordering :=
  (compare one.epoch two.epoch).then ((compareComponent (bytes one.upstream) (bytes two.upstream)).then
      (compareComponent (bytes one.revision) (bytes two.revision)))

/-- `DebCompare::compare`. -/
def debCompare : String → String → Except VersionError Ordering :=
  compareParsed DebVersion.parse DebVersion.cmp

/-! ### The order of a component -/

theorem all_digits (s : List UInt8) : ∀ byte ∈ digits s, isDigit byte = true := fun _ member =>
  List.mem_takeWhile_imp member

theorem compareDigit_eq (a b : List UInt8) :
    compareDigit (digits a) (digits b) = compare (number (digits a)) (number (digits b)) :=
  compare_stripZeros (all_digits a) (all_digits b)

/-- What one round of the loop compares. -/
def compareRuns : List UInt8 → List UInt8 → Ordering :=
  compareLex (on compareNonDigit nondigits) (on compare fun s => number (digits s))

instance : TransCmp compareNonDigit :=
  inferInstanceAs (TransCmp (on (padded (on compare nondigitRank) none) (List.map some)))

instance : TransCmp compareRuns := inferInstanceAs (TransCmp (compareLex _ _))

theorem compareComponent_eq (a b : List UInt8) :
    compareComponent a b = (compareRuns a b).then (if afterRuns a = [] ∧ afterRuns b = [] then .eq
        else compareComponent (afterRuns a) (afterRuns b)) := by
  rw [compareComponent, compareDigit_eq]
  unfold compareRuns compareLex on
  cases compareNonDigit (nondigits a) (nondigits b) with
  | lt | gt => rfl
  | eq => cases compare (number (digits a)) (number (digits b)) <;> rfl

/-- The loop ends within as many rounds as there are bytes. -/
theorem compareComponent_eq_rounds (left : a.length ≤ count) (right : b.length ≤ count) :
    compareComponent a b = rounds compareRuns afterRuns count a b := by
  induction count generalizing a b with
  | zero =>
    rw [List.length_eq_zero_iff.mp (Nat.le_zero.mp left),
      List.length_eq_zero_iff.mp (Nat.le_zero.mp right), compareComponent_eq,
      show compareRuns [] [] = .eq from ReflCmp.compare_self]
    rfl
  | succ count ih =>
    rw [compareComponent_eq, rounds]
    congr 1
    have shorter : ∀ {s : List UInt8}, s.length ≤ count + 1 → (afterRuns s).length ≤ count := by
      intro s bound
      by_cases ended : afterRuns s = []
      · rw [ended]
        exact Nat.zero_le count
      · exact Nat.le_of_lt_succ ((length_afterRuns_lt ended).trans_le bound)
    split
    · rename_i ended
      rw [ended.1, ended.2, rounds_self]
    · exact ih (shorter left) (shorter right)

instance : TransCmp compareComponent where
  eq_swap {a b} := by
    have left : a.length ≤ a.length + b.length := by omega
    have right : b.length ≤ a.length + b.length := by omega
    rw [compareComponent_eq_rounds left right, compareComponent_eq_rounds right left]
    exact OrientedCmp.eq_swap
  isLE_trans {a b c} := by
    have first : a.length ≤ a.length + b.length + c.length := by omega
    have second : b.length ≤ a.length + b.length + c.length := by omega
    have third : c.length ≤ a.length + b.length + c.length := by omega
    rw [compareComponent_eq_rounds first second, compareComponent_eq_rounds second third,
      compareComponent_eq_rounds first third]
    exact TransCmp.isLE_trans

instance : TransCmp DebVersion.cmp :=
  inferInstanceAs (TransCmp (compareLex (on compare DebVersion.epoch)
    (compareLex (on compareComponent fun version => bytes version.upstream)
      (on compareComponent fun version => bytes version.revision))))

/-! ### The order of `dpkg` -/

/-- `order`: the weight of the byte at the start of what is left, if there is one. -/
def order : Option UInt8 → Int
  | none => 0
  | some byte =>
    if isDigit byte then 0
    else if isAlphabetic byte then byte.toNat
    else if byte = 126 then -1
    else byte.toNat + 256

def digitAt (s : List UInt8) : Bool := s.head?.any isDigit

def nondigitAt (s : List UInt8) : Bool := s.head?.any (!isDigit ·)

/-- The loop over bytes while one of the two is no digit. -/
def pastNondigits (a b : List UInt8) : Except Ordering (List UInt8 × List UInt8) :=
  if nondigitAt a || nondigitAt b then
    match compare (order a.head?) (order b.head?) with
    | .eq => pastNondigits a.tail b.tail
    | ordering => .error ordering
  else .ok (a, b)
termination_by a.length + b.length
decreasing_by
  rename_i more
  have filled : a ≠ [] ∨ b ≠ [] := by
    rcases Bool.or_eq_true_iff.mp more with left | right
    · exact .inl fun none => by simp [none, nondigitAt] at left
    · exact .inr fun none => by simp [none, nondigitAt] at right
  rw [List.length_tail, List.length_tail]
  rcases filled with left | right
  · have positive := List.length_pos_of_ne_nil left
    omega
  · have positive := List.length_pos_of_ne_nil right
    omega

/-- After the common digits: a longer run wins, and then the first difference. -/
def closeDigits (firstDiff : Ordering) (a b : List UInt8) : Except Ordering (List UInt8 × List UInt8) :=
  if digitAt a then .error .gt
  else if digitAt b then .error .lt
  else decided firstDiff (a, b)

/-- The loop over bytes while both are digits. -/
def pastDigits (firstDiff : Ordering) : List UInt8 → List UInt8 → Except Ordering (List UInt8 × List UInt8)
  | x :: a, y :: b =>
    if isDigit x && isDigit y then pastDigits (firstDiff.then (compare x y)) a b
    else closeDigits firstDiff (x :: a) (y :: b)
  | a, b => closeDigits firstDiff a b

/-- The body of the loop of `verrevcmp`. -/
def verrevcmpRound (a b : List UInt8) : Except Ordering (List UInt8 × List UInt8) :=
  (pastNondigits a b).bind fun (a, b) => pastDigits .eq (stripZeros a) (stripZeros b)

theorem order_eq_zero_iff {s : List UInt8} : order s.head? = 0 ↔ nondigitAt s = false := by
  cases s with
  | nil => exact iff_of_true rfl rfl
  | cons byte rest =>
    have letters : isAlphabetic byte = true → byte.toNat ≠ 0 := by
      simp only [isAlphabetic, UInt8.le_iff_toNat_le, Bool.or_eq_true, Bool.and_eq_true, decide_eq_true_eq]
      intro bounds zero
      rw [zero] at bounds
      revert bounds
      decide
    simp only [List.head?_cons, order, nondigitAt, Option.any_some, Bool.not_eq_false']
    cases digit : isDigit byte with
    | true => simp
    | false =>
      refine iff_of_false ?_ (by decide)
      simp only [Bool.false_eq_true, if_false]
      split
      · rename_i letter
        have filled := letters letter
        omega
      · split
        · decide
        · omega

/-- The code's ranks are the weights of `dpkg`, moved apart. -/
theorem nondigitRank_nondigits (s : List UInt8) :
    nondigitRank (nondigits s).head? = if order s.head? ≤ 0 then order s.head? else order s.head? + 256 := by
  cases s with
  | nil => rfl
  | cons byte rest =>
    cases digit : isDigit byte with
    | true => simp [nondigits, digit, order, nondigitRank]
    | false =>
      have filled := @order_eq_zero_iff (byte :: rest)
      simp only [List.head?_cons, nondigitAt, Option.any_some, digit, Bool.not_false,
        Bool.true_eq_false, iff_false] at filled
      simp only [nondigits, List.takeWhile_cons, digit, Bool.not_false, if_true, List.head?_cons]
      simp only [nondigitRank, order, digit, Bool.false_eq_true, if_false] at filled ⊢
      by_cases tilde : byte = 126
      · subst tilde
        decide
      rw [if_neg tilde, if_neg tilde]
      rw [if_neg tilde] at filled
      split <;> rename_i letter
      · rw [if_pos letter] at filled
        rw [if_neg (by omega)]
        omega
      · rw [if_neg (by omega)]
        omega

theorem compare_nondigitRank (a b : List UInt8) :
    compare (nondigitRank (nondigits a).head?) (nondigitRank (nondigits b).head?) =
      compare (order a.head?) (order b.head?) := by
  rw [nondigitRank_nondigits, nondigitRank_nondigits]
  rcases Int.lt_trichotomy (order a.head?) (order b.head?) with less | same | more
  · rw [compare_lt_iff_lt.mpr less]
    exact compare_lt_iff_lt.mpr (by split <;> split <;> omega)
  · rw [same, compare_eq_iff_eq.mpr rfl, compare_eq_iff_eq.mpr rfl]
  · rw [compare_gt_iff_gt.mpr more]
    exact compare_gt_iff_gt.mpr (by split <;> split <;> omega)

theorem compareNonDigit_step (a b : List UInt8) :
    compareNonDigit (nondigits a) (nondigits b) = (compare (order a.head?) (order b.head?)).then
      (compareNonDigit (nondigits a).tail (nondigits b).tail) := by
  have first : ∀ run : List UInt8, (run.map some).headD none = run.head? := by
    intro run
    cases run with
    | nil | cons byte rest => rfl
  rw [compareNonDigit, padded_step, first, first, ← List.map_tail, ← List.map_tail]
  exact congrArg (Ordering.then · _) (compare_nondigitRank a b)

theorem runs_of_nondigitAt (first : nondigitAt s = true) :
    (nondigits s).tail = nondigits s.tail ∧ afterNondigits s = afterNondigits s.tail := by
  cases s with
  | nil => cases first
  | cons byte rest =>
    have other : (!isDigit byte) = true := first
    have run : nondigits (byte :: rest) = byte :: nondigits rest := List.takeWhile_cons_of_pos other
    refine ⟨?_, List.dropWhile_cons_of_pos other⟩
    rw [run]
    rfl

theorem runs_of_not_nondigitAt (first : nondigitAt s = false) : nondigits s = [] ∧ afterNondigits s = s := by
  cases s with
  | nil => exact ⟨rfl, rfl⟩
  | cons byte rest =>
    have digit : ¬(!isDigit byte) = true := fun other => Bool.false_ne_true (first.symm.trans other)
    exact ⟨List.takeWhile_cons_of_neg digit, List.dropWhile_cons_of_neg digit⟩

theorem pastNondigits_eq (a b : List UInt8) : pastNondigits a b =
      decided (compareNonDigit (nondigits a) (nondigits b)) (afterNondigits a, afterNondigits b) := by
  induction a, b using pastNondigits.induct with
  | case1 a b more same ih =>
    have equal := compare_eq_iff_eq.mp same
    have both : nondigitAt a = true ∧ nondigitAt b = true := by
      have zeros : order a.head? = 0 ↔ order b.head? = 0 := by rw [equal]
      rw [order_eq_zero_iff, order_eq_zero_iff] at zeros
      rcases Bool.or_eq_true_iff.mp more with left | right
      · exact ⟨left, Bool.not_eq_false _ ▸ fun none => by simp [zeros.mpr none] at left⟩
      · exact ⟨Bool.not_eq_false _ ▸ fun none => by simp [zeros.mp none] at right, right⟩
    obtain ⟨leftRun, leftRest⟩ := runs_of_nondigitAt both.1
    obtain ⟨rightRun, rightRest⟩ := runs_of_nondigitAt both.2
    rw [pastNondigits, if_pos more, same, compareNonDigit_step, same, Ordering.eq_then, leftRun,
      rightRun, leftRest, rightRest]
    exact ih
  | case2 a b more differs =>
    rw [pastNondigits, if_pos more, compareNonDigit_step]
    cases ordering : compare (order a.head?) (order b.head?) with
    | lt => rfl
    | eq => exact absurd ordering differs
    | gt => rfl
  | case3 a b none =>
    obtain ⟨left, right⟩ := Bool.or_eq_false_iff.mp (Bool.not_eq_true _ ▸ none)
    obtain ⟨leftRun, leftRest⟩ := runs_of_not_nondigitAt left
    obtain ⟨rightRun, rightRest⟩ := runs_of_not_nondigitAt right
    rw [pastNondigits, if_neg none, leftRun, rightRun, leftRest, rightRest]
    rfl

/-- The scan over two runs of digits: their lengths decide, then the first difference. -/
theorem pastDigits_runs (left : ∀ byte ∈ xs, isDigit byte = true) (right : ∀ byte ∈ ys, isDigit byte = true)
    (leftEnd : digitAt a = false) (rightEnd : digitAt b = false) (firstDiff : Ordering) :
    pastDigits firstDiff (xs ++ a) (ys ++ b) =
      decided ((compare xs.length ys.length).then (firstDiff.then (compare xs ys))) (a, b) := by
  induction xs generalizing ys firstDiff with
  | nil =>
    cases ys with
    | nil =>
      have closed : pastDigits firstDiff a b = closeDigits firstDiff a b := by
        unfold pastDigits
        split
        · rename_i x _ y _
          have digit : isDigit x = false := leftEnd
          rw [digit, Bool.false_and, if_neg Bool.false_ne_true]
        · rfl
      rw [List.nil_append, List.nil_append, closed, closeDigits, leftEnd, rightEnd]
      cases firstDiff <;> rfl
    | cons y ys =>
      have digit := right y List.mem_cons_self
      have closed : pastDigits firstDiff a (y :: (ys ++ b)) = closeDigits firstDiff a (y :: (ys ++ b)) := by
        unfold pastDigits
        split
        · rename_i x _ _ _ same
          have none : isDigit x = false := leftEnd
          rw [none, Bool.false_and, if_neg Bool.false_ne_true, same]
        · rfl
      have last : digitAt (y :: (ys ++ b)) = true := digit
      rw [List.nil_append, List.cons_append, closed, closeDigits, leftEnd, last]
      rfl
  | cons x xs ih =>
    have digit := left x List.mem_cons_self
    cases ys with
    | nil =>
      have first : digitAt (x :: (xs ++ a)) = true := digit
      have closed : pastDigits firstDiff (x :: (xs ++ a)) b = closeDigits firstDiff (x :: (xs ++ a)) b := by
        unfold pastDigits
        split
        · rename_i y _ same
          have none : isDigit y = false := rightEnd
          obtain ⟨rfl, rfl⟩ := List.cons.inj same
          rw [none, Bool.and_false, if_neg Bool.false_ne_true]
        · rfl
      rw [List.nil_append, List.cons_append, closed, closeDigits, first]
      rfl
    | cons y ys =>
      have other := right y List.mem_cons_self
      rw [List.cons_append, List.cons_append, pastDigits, digit, other, Bool.and_self, if_pos rfl,
        ih (fun byte member => left byte (List.mem_cons_of_mem x member))
          (fun byte member => right byte (List.mem_cons_of_mem y member)),
        List.compare_cons_cons, Ordering.then_assoc, List.length_cons, List.length_cons]
      congr 2
      rcases Nat.lt_trichotomy xs.length ys.length with less | same | more
      · rw [Nat.compare_eq_lt.mpr less, Nat.compare_eq_lt.mpr (Nat.succ_lt_succ less)]
      · rw [same, Nat.compare_eq_eq.mpr rfl, Nat.compare_eq_eq.mpr rfl]
      · rw [Nat.compare_eq_gt.mpr more, Nat.compare_eq_gt.mpr (Nat.succ_lt_succ more)]

theorem digitAt_afterRuns (s : List UInt8) : digitAt (afterRuns s) = false := by
  have failed := List.head?_dropWhile_not isDigit (afterNondigits s)
  unfold digitAt afterRuns
  cases first : ((afterNondigits s).dropWhile isDigit).head? with
  | none => rfl
  | some byte =>
    rw [first] at failed
    simpa using failed

theorem stripZeros_append (last : digitAt rest = false) :
    stripZeros (run ++ rest) = stripZeros run ++ rest := by
  induction run with
  | nil =>
    cases rest with
    | nil => rfl
    | cons byte rest =>
      refine List.dropWhile_cons_of_neg fun zero => ?_
      have digit : isDigit byte = false := last
      rw [of_decide_eq_true zero] at digit
      exact absurd digit (by decide)
  | cons byte run ih =>
    unfold stripZeros at ih ⊢
    rw [List.cons_append, List.dropWhile_cons, List.dropWhile_cons]
    split
    · exact ih
    · rfl

theorem verrevcmpRound_eq (a b : List UInt8) :
    verrevcmpRound a b = decided (compareRuns a b) (afterRuns a, afterRuns b) := by
  have stripped : ∀ s, stripZeros (afterNondigits s) = stripZeros (digits s) ++ afterRuns s := by
    intro s
    rw [← stripZeros_append (digitAt_afterRuns s)]
    exact congrArg stripZeros List.takeWhile_append_dropWhile.symm
  have run : ∀ s, ∀ byte ∈ stripZeros (digits s), isDigit byte = true := fun s byte member =>
    all_digits s byte (mem_of_mem_stripZeros member)
  have numbers : pastDigits .eq (stripZeros (afterNondigits a)) (stripZeros (afterNondigits b)) =
      decided (compareDigit (digits a) (digits b)) (afterRuns a, afterRuns b) := by
    rw [stripped, stripped, pastDigits_runs (run a) (run b) (digitAt_afterRuns a)
      (digitAt_afterRuns b), Ordering.eq_then]
    rfl
  rw [compareDigit_eq] at numbers
  rw [verrevcmpRound, pastNondigits_eq]
  unfold compareRuns compareLex on
  cases compareNonDigit (nondigits a) (nondigits b) with
  | lt | gt => rfl
  | eq => exact numbers

theorem length_afterRuns_add_lt (more : ¬(a = [] ∧ b = [])) :
    (afterRuns a).length + (afterRuns b).length < a.length + b.length := by
  have shorter : ∀ {s : List UInt8}, s ≠ [] → (afterRuns s).length < s.length := by
    intro s filled
    by_cases ended : afterRuns s = []
    · rw [ended]
      exact List.length_pos_of_ne_nil filled
    · exact length_afterRuns_lt ended
  have left := length_afterRuns_le a
  have right := length_afterRuns_le b
  by_cases empty : a = []
  · have longer := shorter fun none => more ⟨empty, none⟩
    omega
  · have longer := shorter empty
    omega

/-- `verrevcmp` of `dpkg`, on bytes of which none ends the text. -/
def verrevcmp (a b : List UInt8) : Ordering :=
  if a = [] ∧ b = [] then .eq
  else match _ : verrevcmpRound a b with
    | .error ordering => ordering
    | .ok (a', b') => verrevcmp a' b'
termination_by a.length + b.length
decreasing_by
  rename_i more round
  rw [verrevcmpRound_eq] at round
  obtain ⟨rfl, rfl⟩ := Prod.mk.inj (decided_eq_ok round).2
  exact length_afterRuns_add_lt more

theorem compareComponent_eq_verrevcmp (a b : List UInt8) : compareComponent a b = verrevcmp a b := by
  induction a, b using verrevcmp.induct with
  | case1 a b ended =>
    rw [verrevcmp, if_pos ended, ended.1, ended.2]
    exact ReflCmp.compare_self
  | case2 a b more ordering round =>
    have value : verrevcmp a b = ordering := by
      rw [verrevcmp, if_neg more]
      split
      · rename_i found
        exact Except.error.inj (found.symm.trans round)
      · rename_i found
        cases found.symm.trans round
    rw [verrevcmpRound_eq] at round
    rw [value, compareComponent_eq]
    cases runs : compareRuns a b with
    | lt | gt =>
      rw [runs] at round
      exact Except.error.inj round
    | eq =>
      rw [runs] at round
      cases round
  | case3 a b more a' b' round ih =>
    have value : verrevcmp a b = verrevcmp a' b' := by
      rw [verrevcmp, if_neg more]
      split
      · rename_i found
        cases found.symm.trans round
      · rename_i found
        cases found.symm.trans round
        rfl
    rw [verrevcmpRound_eq] at round
    obtain ⟨runs, rests⟩ := decided_eq_ok round
    obtain ⟨rfl, rfl⟩ := Prod.mk.inj rests
    rw [value, compareComponent_eq, runs, Ordering.eq_then, ← ih]
    split
    · rename_i ended
      rw [ended.1, ended.2]
      exact ReflCmp.compare_self.symm
    · rfl

/-! ### The comparator -/

/-- Versions are ordered by their epochs, and then as `dpkg` orders their parts. -/
theorem debCompare_ok (first : DebVersion.parse a = .ok one) (second : DebVersion.parse b = .ok two) :
    debCompare a b = .ok ((compare one.epoch two.epoch).then
      ((verrevcmp (bytes one.upstream) (bytes two.upstream)).then
        (verrevcmp (bytes one.revision) (bytes two.revision)))) := by
  rw [debCompare, compareParsed_ok first second, DebVersion.cmp, compareComponent_eq_verrevcmp,
    compareComponent_eq_verrevcmp]

/-- On versions that are accepted the comparator is a total preorder, and it compares components
as `dpkg` does. -/
theorem deb_order_is_dpkg {a b c : String} {one two three : DebVersion} (first : DebVersion.parse a = .ok one)
    (second : DebVersion.parse b = .ok two) (third : DebVersion.parse c = .ok three) :
    debCompare a a = .ok .eq ∧
      (∃ ordering, debCompare a b = .ok ordering ∧ debCompare b a = .ok ordering.swap) ∧
      (debCompare a b ≠ .ok .gt → debCompare b c ≠ .ok .gt → debCompare a c ≠ .ok .gt) ∧
      ∀ x y : List UInt8, compareComponent x y = verrevcmp x y :=
  ⟨compareParsed_self first, compareParsed_swap first second,
    compareParsed_trans first second third, compareComponent_eq_verrevcmp⟩

theorem deb_order_of_prerelease :
    debCompare "1.0~rc1" "1.0~rc1" = .ok .eq ∧ (∃ ordering, debCompare "1.0~rc1" "1.0" = .ok ordering ∧
        debCompare "1.0" "1.0~rc1" = .ok ordering.swap) ∧
      (debCompare "1.0~rc1" "1.0" ≠ .ok .gt → debCompare "1.0" "1:0.9-2" ≠ .ok .gt →
        debCompare "1.0~rc1" "1:0.9-2" ≠ .ok .gt) ∧
      ∀ x y : List UInt8, compareComponent x y = verrevcmp x y := by
  have parsed : DebVersion.parse "1.0~rc1" = .ok ⟨0, "1.0~rc1", ""⟩ ∧
      DebVersion.parse "1.0" = .ok ⟨0, "1.0", ""⟩ ∧
      DebVersion.parse "1:0.9-2" = .ok ⟨1, "0.9", "2"⟩ := by
    decide +kernel
  exact deb_order_is_dpkg parsed.1 parsed.2.1 parsed.2.2

end SpectonCr.Matcher
