import Mathlib

namespace SpectonCr.Base64

def alphabet : List Char := "ABCDEFGHIJKLMNOPQRSTUVWXYZabcdefghijklmnopqrstuvwxyz0123456789+/".toList

def sextet (value : Nat) : Char := alphabet.getD value 'A'

def value? (c : Char) : Option Nat := alphabet.findIdx? (· = c)

def encodeChars : List UInt8 → List Char
  | [] => []
  | [a] => [sextet (a.toNat / 4), sextet (a.toNat % 4 * 16), '=', '=']
  | [a, b] =>
    [sextet (a.toNat / 4), sextet (a.toNat % 4 * 16 + b.toNat / 16), sextet (b.toNat % 16 * 4), '=']
  | a :: b :: c :: rest =>
    sextet (a.toNat / 4) :: sextet (a.toNat % 4 * 16 + b.toNat / 16) ::
      sextet (b.toNat % 16 * 4 + c.toNat / 64) :: sextet (c.toNat % 64) :: encodeChars rest

def encode (bytes : ByteArray) : String := String.ofList (encodeChars bytes.data.toList)

/-- Four characters; only the last group may be padded. -/
def decodeQuad (last : Bool) (w x y z : Char) : Option (List UInt8) :=
  (value? w).bind fun w => (value? x).bind fun x =>
    if last && y = '=' && z = '=' then
      if x % 16 = 0 then some [UInt8.ofNat (w * 4 + x / 16)] else none
    else (value? y).bind fun y =>
      if last && z = '=' then
        if y % 4 = 0 then some [UInt8.ofNat (w * 4 + x / 16), UInt8.ofNat (x % 16 * 16 + y / 4)]
        else none
      else (value? z).map fun z =>
        [UInt8.ofNat (w * 4 + x / 16), UInt8.ofNat (x % 16 * 16 + y / 4), UInt8.ofNat (y % 4 * 64 + z)]

def decodeChars : List Char → Option (List UInt8)
  | [] => some []
  | w :: x :: y :: z :: rest =>
    (decodeQuad rest.isEmpty w x y z).bind fun bytes => (decodeChars rest).map (bytes ++ ·)
  | _ => none

def decode (text : String) : Option ByteArray := (decodeChars text.toList).map fun bytes => ⟨bytes.toArray⟩

private theorem value?_sextet : ∀ value < 64, value? (sextet value) = some value := by
  decide +kernel

private theorem sextet_ne_pad : ∀ value < 64, sextet value ≠ '=' := by
  decide +kernel

private theorem ofNat_eq (same : value = byte.toNat) : UInt8.ofNat value = byte := by
  rw [same, UInt8.ofNat_toNat]

private theorem decodeQuad_three (bounds : w < 64 ∧ x < 64) (third : y < 64) (fourth : z < 64) :
    decodeQuad last (sextet w) (sextet x) (sextet y) (sextet z) =
      some [UInt8.ofNat (w * 4 + x / 16), UInt8.ofNat (x % 16 * 16 + y / 4),
        UInt8.ofNat (y % 4 * 64 + z)] := by
  simp [decodeQuad, value?_sextet w bounds.1, value?_sextet x bounds.2, value?_sextet y third,
    value?_sextet z fourth, sextet_ne_pad y third, sextet_ne_pad z fourth]

private theorem decodeQuad_two (bounds : w < 64 ∧ x < 64) (third : y < 64) (exact : y % 4 = 0) :
    decodeQuad true (sextet w) (sextet x) (sextet y) '=' =
      some [UInt8.ofNat (w * 4 + x / 16), UInt8.ofNat (x % 16 * 16 + y / 4)] := by
  simp [decodeQuad, value?_sextet w bounds.1, value?_sextet x bounds.2, value?_sextet y third,
    sextet_ne_pad y third, exact]

private theorem decodeQuad_one (bounds : w < 64 ∧ x < 64) (exact : x % 16 = 0) :
    decodeQuad true (sextet w) (sextet x) '=' '=' = some [UInt8.ofNat (w * 4 + x / 16)] := by
  simp [decodeQuad, value?_sextet w bounds.1, value?_sextet x bounds.2, exact]

theorem decodeChars_encodeChars (bytes : List UInt8) : decodeChars (encodeChars bytes) = some bytes := by
  induction bytes using encodeChars.induct with
  | case1 => rfl
  | case2 a =>
    have bound := a.toNat_lt
    have first : UInt8.ofNat (a.toNat / 4 * 4 + a.toNat % 4 * 16 / 16) = a := ofNat_eq (by omega)
    rw [encodeChars, decodeChars, List.isEmpty_nil, decodeQuad_one (by omega) (by omega), first]
    rfl
  | case3 a b =>
    have bounds := And.intro a.toNat_lt b.toNat_lt
    have first : UInt8.ofNat (a.toNat / 4 * 4 + (a.toNat % 4 * 16 + b.toNat / 16) / 16) = a :=
      ofNat_eq (by omega)
    have second : UInt8.ofNat ((a.toNat % 4 * 16 + b.toNat / 16) % 16 * 16 +
        b.toNat % 16 * 4 / 4) = b := ofNat_eq (by omega)
    rw [encodeChars, decodeChars, List.isEmpty_nil,
      decodeQuad_two (by omega) (by omega) (by omega), first, second]
    rfl
  | case4 a b c rest ih =>
    have bounds := And.intro a.toNat_lt (And.intro b.toNat_lt c.toNat_lt)
    have first : UInt8.ofNat (a.toNat / 4 * 4 + (a.toNat % 4 * 16 + b.toNat / 16) / 16) = a :=
      ofNat_eq (by omega)
    have second : UInt8.ofNat ((a.toNat % 4 * 16 + b.toNat / 16) % 16 * 16 +
        (b.toNat % 16 * 4 + c.toNat / 64) / 4) = b := ofNat_eq (by omega)
    have third : UInt8.ofNat ((b.toNat % 16 * 4 + c.toNat / 64) % 4 * 64 + c.toNat % 64) = c :=
      ofNat_eq (by omega)
    rw [encodeChars, decodeChars, decodeQuad_three (by omega) (by omega) (by omega), first, second, third, ih]
    rfl

@[simp] theorem decode_encode (bytes : ByteArray) : decode (encode bytes) = some bytes := by
  simp [decode, encode, decodeChars_encodeChars]

end SpectonCr.Base64
