import SpectonCr.Matcher.RpmTokens

namespace SpectonCr.Matcher.Rpm

open Std (TransCmp)

namespace Token

/-- The tokens of which each is no greater than the next, but the first is greater than the last: an
unspaced caret is above the end of a text, but below what may stand at or before it after
separators. -/
def crossed : Token → Token → Token → Bool
  | caret false, tilde true, stop false => true
  | tilde true, stop false, caret false => true
  | stop false, caret false, tilde true => true
  | caret false, stop true, stop false => true
  | stop true, stop false, caret false => true
  | _, _, _ => false

theorem cmp_trans_of_first (second : (cmp (caret false) z).isLE = true)
    (straight : crossed (stop false) (caret false) z = false) : (cmp (stop false) z).isLE = true := by
  cases z with
  | tilde spaced =>
    cases spaced with
    | false => cases second
    | true => cases straight
  | caret spaced => cases spaced <;> rfl
  | stop spaced =>
    cases spaced with
    | false => cases second
    | true => rfl
  | word letters | number value => rfl

theorem cmp_trans_of_second (first : (cmp x (stop false)).isLE = true)
    (straight : crossed x (stop false) (caret false) = false) : (cmp x (caret false)).isLE = true := by
  cases x with
  | tilde spaced | stop spaced =>
    cases spaced with
    | false => rfl
    | true => cases straight
  | caret spaced => cases spaced <;> cases first
  | word letters | number value => cases first

theorem cmp_trans_of_both (first : (cmp (caret false) y).isLE = true)
    (second : (cmp y (stop false)).isLE = true) : crossed (caret false) y (stop false) = true := by
  cases y with
  | tilde spaced | stop spaced =>
    cases spaced with
    | false => cases first
    | true => rfl
  | caret spaced => cases spaced <;> cases second
  | word letters | number value => cases second

/-- The order of tokens is transitive but at crossed ones. -/
theorem cmp_trans (first : (cmp x y).isLE = true) (second : (cmp y z).isLE = true)
    (straight : crossed x y z = false) : (cmp x z).isLE = true := by
  by_cases xy : x = stop false ∧ y = caret false
  · obtain ⟨rfl, rfl⟩ := xy
    exact cmp_trans_of_first second straight
  by_cases yz : y = stop false ∧ z = caret false
  · obtain ⟨rfl, rfl⟩ := yz
    exact cmp_trans_of_second first straight
  by_cases xz : x = stop false ∧ z = caret false
  · rw [xz.1, xz.2]
    rfl
  by_cases zx : x = caret false ∧ z = stop false
  · obtain ⟨rfl, rfl⟩ := zx
    rw [cmp_trans_of_both first second] at straight
    cases straight
  have yx : ¬(x = caret false ∧ y = stop false) := by
    rintro ⟨rfl, rfl⟩
    cases first
  have zy : ¬(y = caret false ∧ z = stop false) := by
    rintro ⟨rfl, rfl⟩
    cases second
  rw [cmp_eq_byRank yx xy] at first
  rw [cmp_eq_byRank zy yz] at second
  rw [cmp_eq_byRank zx xz]
  exact TransCmp.isLE_trans first second

theorem cmp_of_crossed (twist : crossed x y z = true) :
    (cmp x y).isLE = true ∧ (cmp y z).isLE = true ∧ cmp x z = .gt ∧ x ≠ y ∧ y ≠ z := by
  unfold crossed at twist
  split at twist
  case h_6 => cases twist
  all_goals exact ⟨rfl, rfl, rfl, nofun, nofun⟩

end Token

/-- After the tokens that all three share come crossed ones. -/
def twisted : List Token → List Token → List Token → Bool
  | x :: xs, y :: ys, z :: zs =>
    if x = y ∧ y = z then twisted xs ys zs else x.crossed y z
  | _, _, _ => false

open Token

theorem compareLex_swap (xs ys : List Token) :
    List.compareLex cmp xs ys = (List.compareLex cmp ys xs).swap := by
  induction xs generalizing ys with
  | nil =>
    cases ys with
    | nil | cons y ys => rfl
  | cons x xs ih =>
    cases ys with
    | nil => rfl
    | cons y ys =>
      rw [List.compareLex_cons_cons, List.compareLex_cons_cons, cmp_swap x y, ih ys, Ordering.swap_then]

theorem rpmvercmp_swap (a b : List UInt8) : rpmvercmp a b = (rpmvercmp b a).swap := by
  rw [rpmvercmp_eq, rpmvercmp_eq, compareLex_swap]

/-- Two versions compared by their first tokens. -/
theorem isLE_tokens_iff (a b : List UInt8) : (List.compareLex cmp (tokens a) (tokens b)).isLE = true ↔
      (cmp (readToken a).1 (readToken b).1).isLE = true ∧
        ((readToken a).1 = (readToken b).1 → (readToken a).1.isStop = false →
          (List.compareLex cmp (tokens (readToken a).2) (tokens (readToken b).2)).isLE = true) := by
  rw [tokens_eq a, tokens_eq b, List.compareLex_cons_cons]
  cases ordering : cmp (readToken a).1 (readToken b).1 with
  | lt =>
    refine iff_of_true rfl ⟨rfl, fun same => ?_⟩
    rw [same, cmp_self] at ordering
    cases ordering
  | gt => exact iff_of_false Bool.false_ne_true fun both => Bool.false_ne_true both.1
  | eq =>
    obtain ⟨stops, same⟩ := eq_of_cmp ordering
    rw [Ordering.eq_then, ← stops]
    cases ends : (readToken a).1.isStop with
    | true => exact iff_of_true rfl ⟨rfl, nofun⟩
    | false =>
      simp only [Bool.false_eq_true, if_false, Ordering.isLE_eq, true_and, forall_const]
      exact (imp_iff_right (same ends)).symm

theorem twisted_tokens (a b c : List UInt8) : twisted (tokens a) (tokens b) (tokens c) =
      if (readToken a).1 = (readToken b).1 ∧ (readToken b).1 = (readToken c).1 then !(readToken a).1.isStop &&
          twisted (tokens (readToken a).2) (tokens (readToken b).2) (tokens (readToken c).2)
      else (readToken a).1.crossed (readToken b).1 (readToken c).1 := by
  rw [tokens_eq a, tokens_eq b, tokens_eq c, twisted]
  split
  · rename_i same
    rw [← same.2, ← same.1]
    cases (readToken a).1.isStop with
    | true | false => rfl
  · rfl

/-- Crossed tokens are apart, so that the rest of a version does not matter. -/
theorem isLE_of_crossed (twist : (readToken a).1.crossed (readToken b).1 (readToken c).1 = true) :
    (List.compareLex cmp (tokens a) (tokens b)).isLE = true ∧
      (List.compareLex cmp (tokens b) (tokens c)).isLE = true ∧
      (List.compareLex cmp (tokens a) (tokens c)).isLE = false := by
  obtain ⟨first, second, third, apart, other⟩ := cmp_of_crossed twist
  refine ⟨(isLE_tokens_iff a b).mpr ⟨first, fun same => absurd same apart⟩,
    (isLE_tokens_iff b c).mpr ⟨second, fun same => absurd same other⟩, ?_⟩
  rw [tokens_eq a, tokens_eq c, List.compareLex_cons_cons, third]
  rfl

theorem isLE_trans_iff (a b c : List UInt8) : ((List.compareLex cmp (tokens a) (tokens b)).isLE = true →
      (List.compareLex cmp (tokens b) (tokens c)).isLE = true →
      (List.compareLex cmp (tokens a) (tokens c)).isLE = true) ↔
      twisted (tokens a) (tokens b) (tokens c) = false := by
  induction size : a.length using Nat.strong_induction_on generalizing a b c with
  | _ count ih =>
    subst size
    rw [twisted_tokens]
    by_cases same : (readToken a).1 = (readToken b).1 ∧ (readToken b).1 = (readToken c).1
    · rw [if_pos same]
      cases ends : (readToken a).1.isStop with
      | true =>
        refine iff_of_true (fun _ _ => ?_) rfl
        refine (isLE_tokens_iff a c).mpr ⟨?_, fun _ goes => nomatch ends.symm.trans goes⟩
        rw [same.1, same.2, cmp_self]
        rfl
      | false =>
        have tails : ∀ {x y : List UInt8}, (readToken x).1 = (readToken y).1 →
            (readToken x).1.isStop = false →
            ((List.compareLex cmp (tokens x) (tokens y)).isLE = true ↔
              (List.compareLex cmp (tokens (readToken x).2) (tokens (readToken y).2)).isLE = true) := by
          intro x y equal goes
          rw [isLE_tokens_iff, equal, cmp_self]
          exact ⟨fun both => both.2 rfl (equal ▸ goes), fun tail => ⟨rfl, fun _ _ => tail⟩⟩
        rw [tails same.1 ends, tails same.2 (same.1 ▸ ends), tails (same.1.trans same.2) ends,
          Bool.not_false, Bool.true_and]
        exact ih _ (readToken_shorter ends) _ _ _ rfl
    · rw [if_neg same]
      cases twist : (readToken a).1.crossed (readToken b).1 (readToken c).1 with
      | true =>
        obtain ⟨first, second, third⟩ := isLE_of_crossed twist
        refine iff_of_false (fun holds => ?_) Bool.true_eq_false.mp
        exact Bool.false_ne_true (third.symm.trans (holds first second))
      | false =>
        refine iff_of_true (fun first second => ?_) rfl
        have firstHead := ((isLE_tokens_iff a b).mp first).1
        have secondHead := ((isLE_tokens_iff b c).mp second).1
        refine (isLE_tokens_iff a c).mpr ⟨cmp_trans firstHead secondHead twist, fun equal goes => ?_⟩
        -- the first token is no greater and no less than the one in the middle
        have middle : cmp (readToken a).1 (readToken b).1 = .eq := by
          rw [← equal, cmp_swap] at secondHead
          revert firstHead secondHead
          cases cmp (readToken a).1 (readToken b).1 with
          | lt => exact nofun
          | eq => exact fun _ _ => rfl
          | gt => exact nofun
        have one := (eq_of_cmp middle).2 goes
        exact absurd ⟨one, one.symm.trans equal⟩ same

/-- Reversing the arguments reverses the result, and the order is transitive at three versions unless
crossed tokens follow the ones they share. -/
theorem rpm_total_preorder_iff (a b c : List UInt8) : (rpmvercmp a b = (rpmvercmp b a).swap ∧
      (rpmvercmp a b ≠ .gt → rpmvercmp b c ≠ .gt → rpmvercmp a c ≠ .gt)) ↔
      twisted (tokens a) (tokens b) (tokens c) = false := by
  have isLE : ∀ {ordering : Ordering}, ordering ≠ .gt ↔ ordering.isLE = true := by
    intro ordering
    cases ordering <;> decide
  rw [← isLE_trans_iff, isLE, isLE, isLE, and_iff_right (rpmvercmp_swap a b), rpmvercmp_eq,
    rpmvercmp_eq, rpmvercmp_eq]

/-- `1`, `1^` and `1.~` are in a circle. -/
theorem caret_circle : rpmvercmp (bytes "1") (bytes "1^") = .lt ∧ rpmvercmp (bytes "1^") (bytes "1.~") = .lt ∧
      rpmvercmp (bytes "1.~") (bytes "1") = .lt := by
  decide +kernel

end SpectonCr.Matcher.Rpm
