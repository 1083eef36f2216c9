import SpectonCr.Auth.Groups
import SpectonCr.VulnDb.Normalise

namespace SpectonCr.Rebuild

open Auth (afterFirst rejoin)
open VulnDb (Panicked sliceTo utf8Length)

/-- `&s[bytes..]`. -/
def sliceFrom (bytes : Nat) (chars : List Char) : Except Panicked (List Char) :=
  (sliceTo bytes chars).map fun front => chars.drop front.length

/-- `str::find`, as a byte index. -/
def find (part text : List Char) : Option Nat :=
  (afterFirst part text).map fun found => utf8Length text - utf8Length part - utf8Length found.2

/-- The loop over the parts behind the first one. -/
def matchParts (value : List Char) (endsOpen : Bool) : List (List Char) → Nat → Except Panicked Bool
  | [], pos => .ok (pos = utf8Length value || endsOpen)
  | part :: rest, pos =>
    if part.isEmpty then if rest.isEmpty then .ok true else matchParts value endsOpen rest pos
    else do
      let left ← sliceFrom pos value
      if rest.isEmpty then return part.isSuffixOf left
      match find part left with
      | none => return false
      | some index => matchParts value endsOpen rest (pos + (index + utf8Length part))

def globMatchInner (pattern value : String) : Except Panicked Bool :=
  if pattern = "*" then .ok true
  else if '*' ∉ pattern.toList then .ok (pattern = value)
  else match pattern.toList.splitOn '*' with
    | [] => .ok false
    | part :: rest =>
      if part.isPrefixOf value.toList then
        matchParts value.toList (Text.endsWith pattern "*") rest (utf8Length part)
      else .ok false

def globMatch (pattern value : String) : Except Panicked Bool := do
  if ← globMatchInner pattern value then return true
  if Text.endsWith pattern "/*" then
    let stem := String.ofList pattern.toList.dropLast.dropLast
    if ← globMatchInner (stem ++ ":*") value then return true
    globMatchInner (stem ++ "*") value
  else return false

/-- The answer comes without a panic and says whether the property holds. -/
def Decides (answer : Except Panicked Bool) (property : Prop) : Prop :=
  ∃ holds, answer = .ok holds ∧ (holds = true ↔ property)

theorem sliceFrom_boundary (front left : List Char) :
    sliceFrom (utf8Length front) (front ++ left) = .ok left := by
  have cut : sliceTo (utf8Length front) (front ++ left) = .ok front :=
    (VulnDb.sliceTo_ok _ _ _).mpr ⟨List.prefix_append front left, rfl⟩
  simp [sliceFrom, cut, Except.map]

theorem matchParts_cons (front left : List Char) :
    matchParts (front ++ left) endsOpen (part :: next :: rest) (utf8Length front) =
      (afterFirst part left).elim (.ok false) fun found =>
        matchParts (front ++ left) endsOpen (next :: rest)
          (utf8Length front + (utf8Length left - utf8Length found.2)) := by
  rw [matchParts]
  cases part with
  | nil =>
    have atOnce : afterFirst [] left = some (true, left) := by cases left <;> rfl
    simp [atOnce]
  | cons c others =>
    simp only [List.isEmpty_cons, Bool.false_eq_true, if_false, sliceFrom_boundary, bind, Except.bind, find]
    cases found : afterFirst (c :: others) left with
    | none => rfl
    | some occurrence =>
      obtain ⟨skipped, rfl, _⟩ := Auth.afterFirst_sound found
      show matchParts _ endsOpen _ _ = matchParts _ endsOpen _ _
      congr 2
      simp only [VulnDb.utf8Length_append]
      omega

theorem matchParts_decides (plain : ∀ part ∈ parts, '*' ∉ part) (filled : parts ≠ []) (front left : List Char) :
    Decides (matchParts (front ++ left) endsOpen parts (utf8Length front))
      (Glob '*' (rejoin false parts) left) := by
  induction parts generalizing front left with
  | nil => exact absurd rfl filled
  | cons part rest ih =>
    obtain ⟨bare, later⟩ := List.forall_mem_cons.mp plain
    cases rest with
    | nil =>
      have ends : matchParts (front ++ left) endsOpen [part] (utf8Length front) =
          .ok (part.isSuffixOf left) := by
        cases part with
        | nil => simp [matchParts]
        | cons c others =>
          simp only [matchParts, sliceFrom_boundary]
          rfl
      refine ⟨_, ends, ?_⟩
      rw [List.isSuffixOf_iff_suffix, show rejoin false [part] = '*' :: (part ++ []) from rfl]
      constructor
      · rintro ⟨skipped, rfl⟩
        rw [List.append_nil]
        exact .wild skipped (.literal part)
      · intro matched
        obtain ⟨skipped, _, rfl, follows⟩ := matched.of_wildcard
        obtain ⟨_, rfl, ⟨⟩⟩ := Glob.of_piece bare follows
        exact ⟨skipped, by rw [List.append_nil]⟩
    | cons next others =>
      rw [matchParts_cons]
      cases found : afterFirst part left with
      | none =>
        refine ⟨false, rfl, iff_of_false (by simp) fun matched => ?_⟩
        obtain ⟨skipped, _, rfl, follows⟩ := Glob.of_wildcard matched
        obtain ⟨_, rfl, _⟩ := Glob.of_piece bare follows
        obtain ⟨_, _, occurs, _⟩ := Auth.afterFirst_complete rfl
        cases found.symm.trans occurs
      | some occurrence =>
        obtain ⟨starts, remaining⟩ := occurrence
        obtain ⟨skipped, rfl, _⟩ := Auth.afterFirst_sound found
        obtain ⟨holds, answer, exactly⟩ := ih later (by simp) (front ++ (skipped ++ part)) remaining
        have position : utf8Length front + (utf8Length (skipped ++ (part ++ remaining)) - utf8Length remaining) =
            utf8Length (front ++ (skipped ++ part)) := by
          simp only [VulnDb.utf8Length_append]
          omega
        refine ⟨holds, ?_, exactly.trans ⟨?_, ?_⟩⟩
        · rw [Option.elim_some, position, ← answer]
          simp only [List.append_assoc]
        · intro matched
          exact .wild skipped ((Glob.literal part).append matched)
        · intro matched
          obtain ⟨before, _, same, follows⟩ := Glob.of_wildcard matched
          obtain ⟨extra, rfl, words⟩ := Glob.of_piece bare follows
          obtain ⟨_, _, first, ⟨between, rfl⟩, _⟩ := Auth.afterFirst_complete same
          cases found.symm.trans first
          exact words.prepend between

theorem globMatchInner_decides (pattern value : String) :
    Decides (globMatchInner pattern value) (Glob '*' pattern.toList value.toList) := by
  obtain ⟨whole, plain⟩ := Auth.cut_pieces pattern
  unfold globMatchInner
  split
  · rename_i everything
    have all : Glob '*' ['*'] (value.toList ++ []) := .wild value.toList .nil
    rw [List.append_nil] at all
    exact ⟨true, rfl, iff_of_true rfl (everything ▸ all)⟩
  split
  · rename_i literal
    refine ⟨_, rfl, ?_⟩
    rw [Glob.iff_eq_of_notMem literal, String.toList_inj, decide_eq_true_iff, eq_comm]
  · rename_i wild
    cases cut : pattern.toList.splitOn '*' with
    | nil => exact absurd cut (List.splitOn_ne_nil _ _)
    | cons part rest =>
      rw [cut] at whole plain
      obtain ⟨bare, later⟩ := List.forall_mem_cons.mp plain
      have filled : rest ≠ [] := by
        rintro rfl
        exact wild (by simpa [← whole, rejoin] using bare)
      rw [show pattern.toList = part ++ rejoin false rest from whole.symm]
      simp only
      split
      · rename_i starts
        obtain ⟨left, same⟩ := List.isPrefixOf_iff_prefix.mp starts
        obtain ⟨holds, answer, exactly⟩ := matchParts_decides later filled part left
        refine ⟨holds, same ▸ answer, exactly.trans ⟨?_, ?_⟩⟩
        · intro matched
          exact same ▸ (Glob.literal part).append matched
        · intro matched
          obtain ⟨_, again, words⟩ := Glob.of_piece bare matched
          rwa [List.append_cancel_left (same.trans again)]
      · rename_i apart
        refine ⟨false, rfl, iff_of_false (by simp) fun matched => apart ?_⟩
        obtain ⟨left, same, _⟩ := Glob.of_piece bare matched
        exact List.isPrefixOf_iff_prefix.mpr ⟨left, same.symm⟩

/-- The matcher cuts the value between characters only, and decides the words of the pattern. -/
theorem globMatchInner_exact (pattern value : String) :
    globMatchInner pattern value ≠ .error .notCharBoundary ∧
      (globMatchInner pattern value = .ok true ↔ Glob '*' pattern.toList value.toList) := by
  obtain ⟨holds, answer, exactly⟩ := globMatchInner_decides pattern value
  rw [answer, ← exactly]
  simp

/-- A word of the pattern, or a tag of what comes before a slash and a wildcard at its end. -/
def Subscribed (pattern value : String) : Prop :=
  Glob '*' pattern.toList value.toList ∨
    ∃ stem, pattern = stem ++ "/*" ∧ Glob '*' (stem ++ ":*").toList value.toList

/-- Subscriptions are exact if whatever extends the stem of a pattern is subscribed to. -/
theorem globMatch_subscribed_iff (pattern value : String) :
    (globMatch pattern value = .ok true ↔ Subscribed pattern value) ↔
      ∀ stem, pattern = stem ++ "/*" → Glob '*' (stem ++ "*").toList value.toList →
        Subscribed pattern value := by
  obtain ⟨inner, answer, exactly⟩ := globMatchInner_decides pattern value
  by_cases ends : ∃ stem, pattern = stem ++ "/*"
  · obtain ⟨stem, rfl⟩ := ends
    have last : Text.endsWith (stem ++ "/*") "/*" = true := by simp [Text.endsWith]
    have cut : String.ofList ((stem ++ "/*").toList.dropLast.dropLast) = stem := by simp
    obtain ⟨tagged, tagAnswer, tagExactly⟩ := globMatchInner_decides (stem ++ ":*") value
    obtain ⟨longer, longAnswer, longExactly⟩ := globMatchInner_decides (stem ++ "*") value
    have whole : globMatch (stem ++ "/*") value = .ok (inner || tagged || longer) := by
      simp only [globMatch, answer, last, cut, tagAnswer, longAnswer]
      cases inner <;> cases tagged <;> rfl
    simp only [whole, Except.ok.injEq, Bool.or_eq_true, exactly, tagExactly, longExactly, Subscribed,
      String.append_left_inj, exists_eq_left', forall_eq']
    exact or_iff_left_iff_imp
  · have closed : Text.endsWith pattern "/*" = false := by
      refine Bool.eq_false_iff.mpr fun found => ends ?_
      obtain ⟨stem, same⟩ := List.isSuffixOf_iff_suffix.mp found
      exact ⟨String.ofList stem, String.toList_inj.mp (by simp [← same])⟩
    have whole : globMatch pattern value = .ok inner := by
      simp only [globMatch, answer, closed]
      cases inner <;> rfl
    refine iff_of_true ?_ fun stem same => absurd ⟨stem, same⟩ ends
    rw [whole, Except.ok.injEq, exactly]
    exact ⟨.inl, fun subscribed => subscribed.resolve_right fun ⟨stem, same, _⟩ => ends ⟨stem, same⟩⟩

/-- A pattern for one repository accepts a sibling whose name extends it. -/
theorem sibling_subscribed :
    globMatch "acme/api/*" "acme/api-evil:latest" = .ok true ∧
      ¬ Subscribed "acme/api/*" "acme/api-evil:latest" := by
  have refused (pattern : String) (answer : globMatchInner pattern "acme/api-evil:latest" = .ok false) :
      ¬ Glob '*' pattern.toList "acme/api-evil:latest".toList := by
    obtain ⟨holds, again, exactly⟩ := globMatchInner_decides pattern "acme/api-evil:latest"
    rw [← exactly, ← Except.ok.inj (answer.symm.trans again)]
    exact Bool.false_ne_true
  refine ⟨by decide +kernel, ?_⟩
  rintro (word | ⟨stem, same, word⟩)
  · exact refused "acme/api/*" (by decide +kernel) word
  · obtain rfl := (String.append_left_inj "/*").mp (show "acme/api" ++ "/*" = stem ++ "/*" from same)
    exact refused ("acme/api" ++ ":*") (by decide +kernel) word

end SpectonCr.Rebuild
