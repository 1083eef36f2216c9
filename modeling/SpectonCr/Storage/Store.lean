import SpectonCr.Base.Table
import SpectonCr.Storage.Path

namespace SpectonCr.Storage

/-- The objects of a store under their keys. -/
abbrev ObjectStore := Table StorePath Bytes

/-- `ObjectStore::list`: every key strictly below the given one. -/
def list (store : ObjectStore) (under : StorePath) : List StorePath :=
  store.keysWhere fun path =>
    under.parts.isPrefixOf path.parts && decide (under.parts.length < path.parts.length)

/-- Whether a byte may follow the first byte of a multi-byte character. -/
def isContinuation (byte : UInt8) : Bool := 0x80 ≤ byte && byte ≤ 0xBF

/-- The second bytes allowed after the first byte of a longer character. -/
def isSecond (first second : UInt8) : Bool :=
  if first = 0xE0 then 0xA0 ≤ second && second ≤ 0xBF
  else if first = 0xED then 0x80 ≤ second && second ≤ 0x9F
  else if first = 0xF0 then 0x90 ≤ second && second ≤ 0xBF
  else if first = 0xF4 then 0x80 ≤ second && second ≤ 0x8F
  else isContinuation second

private def codePoint (lead : Nat) (tail : List UInt8) : Char :=
  Char.ofNat (tail.foldl (fun code byte => code * 64 + byte.toNat % 64) lead)

private def replacement : Char := Char.ofNat 0xFFFD

/-- The characters of a byte string, with one replacement character for each
maximal ill-formed piece. -/
def lossyChars : List UInt8 → List Char
  | [] => []
  | first :: rest =>
    if first < 0x80 then Char.ofNat first.toNat :: lossyChars rest
    else if first < 0xC2 || 0xF4 < first then replacement :: lossyChars rest
    else match rest with
      | [] => [replacement]
      | second :: rest₂ =>
        if !isSecond first second then replacement :: lossyChars (second :: rest₂)
        else if first < 0xE0 then
          codePoint (first.toNat % 32) [second] :: lossyChars rest₂
        else match rest₂ with
          | [] => [replacement]
          | third :: rest₃ =>
            if !isContinuation third then replacement :: lossyChars (third :: rest₃)
            else if first < 0xF0 then
              codePoint (first.toNat % 16) [second, third] :: lossyChars rest₃
            else match rest₃ with
              | [] => [replacement]
              | fourth :: rest₄ =>
                if !isContinuation fourth then replacement :: lossyChars (fourth :: rest₄)
                else codePoint (first.toNat % 8) [second, third, fourth] :: lossyChars rest₄

/-- `String::from_utf8_lossy`. -/
def fromUtf8Lossy (bytes : Bytes) : String :=
  (String.fromUTF8? bytes).getD (String.ofList (lossyChars bytes.data.toList))

example : String.ofList (lossyChars [0x61, 0xE2, 0x82, 0xAC, 0xE2, 0x82, 0x62]) = "a€�b" := by
  decide

@[simp] theorem fromUTF8?_toByteArray (text : String) : String.fromUTF8? text.toByteArray = some text := by
  unfold String.fromUTF8?
  rw [dif_pos text.isValidUTF8]
  rfl

end SpectonCr.Storage
