import SpectonCr.Ephemeral.Expired

namespace SpectonCr.Ephemeral

def sinceSeconds (unit : String) : Option Nat :=
  if unit = "s" then some 1
  else if unit = "m" then some 60
  else if unit = "h" then some 3600
  else if unit = "d" then some 86400
  else none

/-- `parse_since`; the outer `none` where the product is no `i64`. -/
def parseSince (raw : String) : Option (Option Int) :=
  let raw := Text.trim raw
  let unit := String.ofList (raw.toList.dropWhile Char.isDigit)
  if unit = "" then some none
  else match Text.parseI64 (String.ofList (raw.toList.takeWhile Char.isDigit)) with
    | none => some none
    | some n =>
      if n < 0 then some none
      else match sinceSeconds unit with
        | none => some none
        | some factor => if n * factor < 2 ^ 63 then some (some (n * factor)) else none

/-- The amount that a text states: its number, unless that is negative, in its unit. -/
def stated (isNumber : Char → Bool) (unit : String → Option Nat) (text : String) : Option Nat :=
  match Text.parseI64 (String.ofList (text.toList.takeWhile isNumber)) with
  | some (.ofNat n) => (unit (String.ofList (text.toList.dropWhile isNumber))).map (n * ·)
  | _ => none

/-- A time that is added to is later by the seconds, unless `chrono` panics. -/
def TtlLib.Exact (env : TtlLib) : Prop :=
  ∀ now seconds time, env.addSeconds now seconds = some time → time = now + seconds * 1000000000

/-- A duration is read exactly or refused unless its amount is out of range. -/
theorem durations_exact_iff (env : TtlLib) (exact : env.Exact) (now : Time) (header since : String) :
    ((∃ answer, parseTtlHeader env now header = some answer ∧ ∀ spec, answer = .ok spec →
        env.parseRfc3339 (Text.trim header) = some spec.expiresAt ∨
          ∃ seconds ∈ stated isNumberChar unitSeconds (Text.trim header),
            spec.expiresAt = now + seconds * 1000000000) ↔
      (env.parseRfc3339 (Text.trim header)).isSome ∨
        ∀ seconds ∈ stated isNumberChar unitSeconds (Text.trim header), (env.addSeconds now seconds).isSome) ∧
    ((∃ answer, parseSince since = some answer ∧ ∀ seconds ∈ answer,
        ∃ amount ∈ stated Char.isDigit sinceSeconds (Text.trim since), seconds = amount) ↔
      ∀ amount ∈ stated Char.isDigit sinceSeconds (Text.trim since), amount < 2 ^ 63) := by
  have blank : Text.parseI64 "" = none := by decide
  constructor
  · simp only [parseTtlHeader, stated]
    by_cases empty : Text.trim header = ""
    · simp [empty, blank]
    rw [if_neg empty]
    cases env.parseRfc3339 (Text.trim header) with
    | some time => simp
    | none =>
      generalize String.ofList ((Text.trim header).toList.dropWhile isNumberChar) = unit
      cases Text.parseI64 (String.ofList ((Text.trim header).toList.takeWhile isNumberChar)) with
      | none => simp
      | some n =>
        by_cases bare : unit = ""
        · cases n <;> simp [bare, unitSeconds]
        cases n with
        | negSucc m => simp [bare]
        | ofNat n =>
          have natural : ¬ (n : Int) < 0 := by omega
          cases unitSeconds unit with
          | none => simp [bare, natural]
          | some factor =>
            cases added : env.addSeconds now (n * factor) with
            | none => simp [bare, natural, added]
            | some time => simp [bare, natural, added, exact _ _ _ added]
  · simp only [parseSince, stated]
    generalize String.ofList ((Text.trim since).toList.dropWhile Char.isDigit) = unit
    cases Text.parseI64 (String.ofList ((Text.trim since).toList.takeWhile Char.isDigit)) with
    | none => simp
    | some n =>
      by_cases bare : unit = ""
      · cases n <;> simp [bare, sinceSeconds]
      cases n with
      | negSucc m => simp [bare]
      | ofNat n =>
        have natural : ¬ (n : Int) < 0 := by omega
        cases sinceSeconds unit with
        | none => simp [bare, natural]
        | some factor =>
          have limit : (n : Int) * factor < 9223372036854775808 ↔ n * factor < 9223372036854775808 := by
            norm_cast
          simp [bare, natural, limit]

theorem month_stated : durationsOnly.Exact ∧ ∃ answer, parseSince "30d" = some answer ∧ ∀ seconds ∈ answer,
        ∃ amount ∈ stated Char.isDigit sinceSeconds (Text.trim "30d"), seconds = amount := by
  have exact : durationsOnly.Exact := fun _ _ _ added => (Option.some.inj added).symm
  exact ⟨exact, (durations_exact_iff durationsOnly exact 0 "" "30d").2.mpr (by decide +kernel)⟩

/-- `chrono` counts durations in milliseconds of an `i64`. -/
theorem long_durations_fail :
    let addSeconds := fun (time : Time) (seconds : Nat) =>
      if seconds * 1000 < 2 ^ 63 then some (time + seconds * 1000000000) else none
    (parseTtlHeader { durationsOnly with addSeconds } 0 "9223372036854775807w").isNone ∧
      parseSince "9223372036854775807d" = none := by
  decide +kernel

end SpectonCr.Ephemeral
