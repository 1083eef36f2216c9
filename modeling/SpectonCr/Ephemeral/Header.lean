import SpectonCr.Base.Text
import SpectonCr.Common.Model

namespace SpectonCr.Ephemeral

/-- The functions of `chrono` that the reader of a TTL calls. -/
structure TtlLib where
  /-- `DateTime::parse_from_rfc3339`. -/
  parseRfc3339 : String → Option Time
  /-- A time with a `Duration` of whole seconds added; `none` where `chrono` panics. -/
  addSeconds : Time → Nat → Option Time

structure TtlSpec where
  expiresAt : Time

inductive TtlError where
  | empty
  | invalid (reason : String)

/-- The seconds of a duration suffix. -/
def unitSeconds (suffix : String) : Option Nat :=
  if suffix = "s" then some 1
  else if suffix = "m" then some 60
  else if suffix = "h" then some 3600
  else if suffix = "d" then some 86400
  else if suffix = "w" then some 604800
  else none

/-- A character of the number that a duration starts with. -/
def isNumberChar (c : Char) : Bool := ('0' ≤ c && c ≤ '9') || c == '-'

/-- `parse_ttl_header`; `none` where it panics. -/
def parseTtlHeader (lib : TtlLib) (now : Time) (header : String) : Option (Except TtlError TtlSpec) :=
  let raw := Text.trim header
  if raw = "" then some (.error .empty)
  else match lib.parseRfc3339 raw with
    | some time => some (.ok ⟨time⟩)
    | none =>
      let suffix := String.ofList (raw.toList.dropWhile isNumberChar)
      if suffix = "" then some (.error (.invalid raw))
      else match Text.parseI64 (String.ofList (raw.toList.takeWhile isNumberChar)) with
        | none => some (.error (.invalid raw))
        | some n =>
          if n < 0 then some (.error (.invalid ("negative TTL: " ++ raw)))
          else match unitSeconds suffix with
            | none => some (.error (.invalid ("unknown unit: " ++ suffix)))
            | some unit => (lib.addSeconds now (n.toNat * unit)).map fun time => .ok ⟨time⟩

/-- Durations only. -/
def durationsOnly : TtlLib where
  parseRfc3339 _ := none
  addSeconds time seconds := some (time + seconds * 1000000000)

end SpectonCr.Ephemeral
