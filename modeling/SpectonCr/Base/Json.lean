import SpectonCr.Base.Hex
import Mathlib

/-! JSON values, derived struct decoding, and the string writer. -/

namespace SpectonCr

/-- A parsed document. Objects keep their fields in text order, duplicates included. -/
inductive Json where
  | null
  | bool (value : Bool)
  | int (value : Int)
  | float (text : String)
  | str (value : String)
  | arr (items : List Json)
  | obj (fields : List (String × Json))

namespace Json

/-- `Value::get` by name: in a parsed map the last duplicate wins. -/
def get (value : Json) (name : String) : Option Json :=
  match value with
  | .obj fields => (fields.reverse.find? fun field => field.1 = name).map Prod.snd
  | _ => none

def asStr : Json → Option String
  | .str value => some value
  | _ => none

def asArray : Json → Option (List Json)
  | .arr items => some items
  | _ => none

def asI64 : Json → Option Int
  | .int value => if -2 ^ 63 ≤ value ∧ value < 2 ^ 63 then some value else none
  | _ => none

def asU64 : Json → Option Nat
  | .int value => if 0 ≤ value ∧ value < 2 ^ 64 then some value.toNat else none
  | _ => none

/-- One field of a derived struct: absent, present once, or a duplicate error. -/
def field? (fields : List (String × Json)) (name : String) : Option (Option Json) :=
  match fields.filter fun field => field.1 = name with
  | [] => some none
  | [field] => some (some field.2)
  | _ => none

/-- The fields a derived struct reads, in declaration order: by name from an
object, by position from an array without surplus elements. -/
def structFields (names : List String) : Json → Option (List (Option Json))
  | .obj fields => names.mapM (field? fields)
  | .arr items =>
    if items.length ≤ names.length then some (names.mapIdx fun index _ => items[index]?) else none
  | _ => none

/-- A `String` field with a default: the empty text when it is absent. -/
def strOrDefault : Option Json → Option String
  | none => some ""
  | some value => value.asStr

/-- An `Option<i64>` field: absent and `null` are the same. -/
def optionalI64 : Option Json → Option (Option Int)
  | none => some none
  | some .null => some none
  | some value => value.asI64.map some

/-- An `Option<String>` field. -/
def optionalStr : Option Json → Option (Option String)
  | none => some none
  | some .null => some none
  | some value => value.asStr.map some

theorem getD_of_strOrDefault (read : strOrDefault field = some text) : (field.bind asStr).getD "" = text := by
  cases field with
  | none => exact Option.some.inj read
  | some value =>
    rw [strOrDefault] at read
    rw [Option.bind_some, read, Option.getD_some]

/-- A field that occurs at most once is what `Value::get` finds. -/
theorem get_of_field? (unique : field? fields name = some found) : (Json.obj fields).get name = found := by
  have lookup : (Json.obj fields).get name =
      ((fields.filter fun field => field.1 = name).reverse.head?).map Prod.snd := by
    rw [get, ← List.filter_reverse, List.head?_filter]
  rw [lookup]
  unfold field? at unique
  split at unique
  · rename_i none
    rw [none]
    exact Option.some.inj unique
  · rename_i field once
    rw [once]
    exact Option.some.inj unique
  · cases unique

/-- A struct read from an object sees, field by field, what `Value::get` finds. -/
theorem structFields_cons (read : (Json.obj fields).structFields (name :: names) = some (first :: rest)) :
    (Json.obj fields).get name = first ∧ (Json.obj fields).structFields names = some rest := by
  simp only [structFields, List.mapM_cons, Option.bind_eq_bind, Option.bind_eq_some_iff,
    Option.pure_def, Option.some.injEq, List.cons.injEq] at read
  obtain ⟨head, unique, tail, remaining, same, again⟩ := read
  exact ⟨same ▸ get_of_field? unique, again ▸ remaining⟩

/-- The escape sequence of one character in a written string. -/
def escapeChar (c : Char) : List Char :=
  if c = '"' then ['\\', '"']
  else if c = '\\' then ['\\', '\\']
  else if c.toNat < 0x20 then
    if c.toNat = 0x08 then ['\\', 'b']
    else if c.toNat = 0x09 then ['\\', 't']
    else if c.toNat = 0x0A then ['\\', 'n']
    else if c.toNat = 0x0C then ['\\', 'f']
    else if c.toNat = 0x0D then ['\\', 'r']
    else '\\' :: 'u' :: '0' :: '0' :: hexByte (UInt8.ofNat c.toNat)
  else [c]

/-- A string literal as `serde_json` writes it. -/
def quote (text : String) : String := "\"" ++ String.ofList (text.toList.flatMap escapeChar) ++ "\""

/-- Reads one character back from a written string. -/
private def unescape : List Char → Option (Char × List Char)
  | '\\' :: 'u' :: '0' :: '0' :: high :: low :: rest =>
    ((List.range 32).find? fun code => hexByte (UInt8.ofNat code) = [high, low]).map
      fun code => (Char.ofNat code, rest)
  | '\\' :: 'b' :: rest => some (Char.ofNat 0x08, rest)
  | '\\' :: 't' :: rest => some (Char.ofNat 0x09, rest)
  | '\\' :: 'n' :: rest => some (Char.ofNat 0x0A, rest)
  | '\\' :: 'f' :: rest => some (Char.ofNat 0x0C, rest)
  | '\\' :: 'r' :: rest => some (Char.ofNat 0x0D, rest)
  | '\\' :: c :: rest => some (c, rest)
  | c :: rest => some (c, rest)
  | [] => none

private theorem unescape_control (code : Nat) (small : code < 0x20) (rest : List Char) :
    unescape (escapeChar (Char.ofNat code) ++ rest) = some (Char.ofNat code, rest) := by
  interval_cases code <;> rfl

private theorem unescape_escapeChar (c : Char) (rest : List Char) :
    unescape (escapeChar c ++ rest) = some (c, rest) := by
  by_cases control : c.toNat < 0x20
  · have same := unescape_control c.toNat control rest
    rwa [Char.ofNat_toNat] at same
  by_cases quoted : c = '"'
  · subst quoted
    rfl
  by_cases slash : c = '\\'
  · subst slash
    rfl
  simp only [escapeChar, quoted, slash, control, ↓reduceIte, List.singleton_append]
  unfold unescape
  split
  all_goals simp_all

private theorem flatMap_escapeChar_injective {first second : List Char}
    (same : first.flatMap escapeChar = second.flatMap escapeChar) : first = second := by
  have filled : ∀ c : Char, escapeChar c ≠ [] := by
    intro c empty
    have read := unescape_escapeChar c []
    simp [empty, unescape] at read
  induction first generalizing second with
  | nil =>
    cases second with
    | nil => rfl
    | cons c rest =>
      have empty := congrArg (List.take (escapeChar c).length) same.symm
      simp only [List.flatMap_cons, List.take_left, List.flatMap_nil, List.take_nil] at empty
      exact False.elim (filled c empty)
  | cons c rest ih =>
    cases second with
    | nil =>
      have empty := congrArg (List.take (escapeChar c).length) same
      simp only [List.flatMap_cons, List.take_left, List.flatMap_nil, List.take_nil] at empty
      exact False.elim (filled c empty)
    | cons d tail =>
      simp only [List.flatMap_cons] at same
      have read := congrArg unescape same
      rw [unescape_escapeChar, unescape_escapeChar] at read
      simp only [Option.some.injEq, Prod.mk.injEq] at read
      rw [read.1, ih read.2]

theorem quote_injective {first second : String} (same : quote first = quote second) : first = second := by
  have chars := congrArg String.toList same
  simp only [quote, String.toList_append, String.toList_ofList, List.append_assoc,
    List.append_cancel_left_eq] at chars
  exact String.toList_inj.mp (flatMap_escapeChar_injective (List.append_cancel_right chars))

end Json

end SpectonCr
