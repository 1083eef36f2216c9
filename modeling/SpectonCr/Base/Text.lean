import Mathlib

namespace SpectonCr.Text

/-- `str::starts_with`. -/
def startsWith (text pattern : String) : Bool := pattern.toList.isPrefixOf text.toList

/-- `str::ends_with`. -/
def endsWith (text pattern : String) : Bool := pattern.toList.isSuffixOf text.toList

/-- `str::strip_prefix`. -/
def stripPrefix (text pattern : String) : Option String :=
  if startsWith text pattern then some (String.ofList (text.toList.drop pattern.toList.length))
  else none

/-- `str::strip_suffix` for one character. -/
def stripSuffix (text : String) (last : Char) : Option String :=
  if text.toList.getLast? = some last then some (String.ofList text.toList.dropLast) else none

/-- `str::split` on one separator character; empty pieces are kept. -/
def split (text : String) (sep : Char) : List String := (text.toList.splitOn sep).map String.ofList

/-- `str::split_once` on one separator character. -/
def splitOnce (text : String) (sep : Char) : Option (String × String) :=
  if sep ∈ text.toList then
    some (String.ofList (text.toList.takeWhile (· != sep)),
      String.ofList ((text.toList.dropWhile (· != sep)).drop 1))
  else none

/-- `str::rsplit_once` on one separator character. -/
def rsplitOnce (text : String) (sep : Char) : Option (String × String) :=
  if sep ∈ text.toList then
    let backwards := text.toList.reverse
    some (String.ofList ((backwards.dropWhile (· != sep)).drop 1).reverse,
      String.ofList (backwards.takeWhile (· != sep)).reverse)
  else none

/-- `str::splitn`: at most `count` pieces, the last one unsplit. -/
def splitn : Nat → String → Char → List String
  | 0, _, _ => []
  | 1, text, _ => [text]
  | count + 2, text, sep =>
    match splitOnce text sep with
    | none => [text]
    | some (head, rest) => head :: splitn (count + 1) rest sep

/-- The Unicode `White_Space` property, which `char::is_whitespace` tests. -/
def isWhitespace (c : Char) : Bool :=
  let code := c.toNat
  (9 ≤ code && code ≤ 13) || code == 32 || code == 0x85 || code == 0xA0 || code == 0x1680 ||
    (0x2000 ≤ code && code ≤ 0x200A) || code == 0x2028 || code == 0x2029 || code == 0x202F ||
    code == 0x205F || code == 0x3000

/-- `str::trim`. -/
def trim (text : String) : String :=
  String.ofList ((text.toList.dropWhile isWhitespace).reverse.dropWhile isWhitespace).reverse

/-- `str::contains` for a string pattern. -/
def contains (text pattern : String) : Bool := text.toList.tails.any pattern.toList.isPrefixOf

private def digit? (c : Char) : Option Nat :=
  if '0' ≤ c ∧ c ≤ '9' then some (c.toNat - '0'.toNat) else none

private def digits? (chars : List Char) (value : Nat) : Option Nat :=
  match chars with
  | [] => some value
  | c :: rest => (digit? c).bind fun d => digits? rest (value * 10 + d)

/-- `str::parse::<u32>`: an optional plus sign, decimal digits, and no overflow. -/
def parseU32 (text : String) : Option Nat :=
  let chars := match text.toList with
    | '+' :: rest => rest
    | chars => chars
  if chars.isEmpty then none
  else (digits? chars 0).filter (· < 2 ^ 32)

/-- `str::parse::<i64>`: an optional sign, decimal digits, and no overflow. -/
def parseI64 (text : String) : Option Int :=
  match text.toList with
  | '-' :: rest =>
    if rest.isEmpty then none
    else ((digits? rest 0).filter (· ≤ 2 ^ 63)).map fun value => -(value : Int)
  | chars =>
    let digits := match chars with
      | '+' :: rest => rest
      | chars => chars
    if digits.isEmpty then none
    else ((digits? digits 0).filter (· < 2 ^ 63)).map Int.ofNat

theorem startsWith_iff : startsWith text pattern = true ↔ ∃ rest, text = pattern ++ rest := by
  simp only [startsWith, List.isPrefixOf_iff_prefix]
  constructor
  · rintro ⟨rest, same⟩
    refine ⟨String.ofList rest, String.toList_inj.mp ?_⟩
    simp [← same]
  · rintro ⟨rest, same⟩
    exact ⟨rest.toList, by simp [same]⟩

@[simp] theorem startsWith_append (pattern rest : String) : startsWith (pattern ++ rest) pattern = true :=
  startsWith_iff.mpr ⟨rest, rfl⟩

@[simp] theorem stripPrefix_append (pattern rest : String) :
    stripPrefix (pattern ++ rest) pattern = some rest := by
  simp [stripPrefix]

theorem stripPrefix_eq_some : stripPrefix text pattern = some rest ↔ text = pattern ++ rest := by
  constructor
  · intro found
    cases starts : startsWith text pattern with
    | false => simp [stripPrefix, starts] at found
    | true =>
      obtain ⟨tail, same⟩ := startsWith_iff.mp starts
      subst same
      rw [stripPrefix_append] at found
      rw [Option.some.inj found]
  · rintro rfl
    exact stripPrefix_append pattern rest

theorem split_join (parts : text.toList = left.toList ++ sep :: right.toList) :
    split text sep = split left sep ++ split right sep := by
  rw [split, parts, List.splitOn_append_cons_self, List.map_append]
  rfl

theorem split_of_not_mem (absent : sep ∉ text.toList) : split text sep = [text] := by
  simp [split, List.splitOn_eq_singleton absent]

private theorem not_mem_of_mem_splitOn (chars : List Char) : ∀ piece ∈ chars.splitOn sep, sep ∉ piece := by
  induction chars with
  | nil => simp
  | cons first rest ih =>
    rw [List.splitOn_cons_eq_if_modifyHead]
    split
    · intro piece member
      rcases List.mem_cons.mp member with rfl | later
      · exact List.not_mem_nil
      · exact ih piece later
    · rename_i other
      have kept : sep ≠ first := fun same => other (by simp [same])
      cases pieces : rest.splitOn sep with
      | nil => simp
      | cons head tail =>
        rw [pieces] at ih
        intro piece member
        rcases List.mem_cons.mp member with rfl | later
        · have clean := ih head List.mem_cons_self
          simp [kept, clean]
        · exact ih piece (List.mem_cons_of_mem head later)

theorem not_mem_of_mem_split (member : piece ∈ split text sep) : sep ∉ piece.toList := by
  obtain ⟨chars, listed, rfl⟩ := List.mem_map.mp member
  simpa using not_mem_of_mem_splitOn text.toList chars listed

theorem splitOnce_join (parts : text.toList = head.toList ++ sep :: rest.toList) (absent : sep ∉ head.toList) :
    splitOnce text sep = some (head, rest) := by
  have kept : ∀ c ∈ head.toList, (c != sep) = true := by
    intro c member
    simp only [bne_iff_ne, ne_eq]
    rintro rfl
    exact absent member
  simp [splitOnce, parts, List.takeWhile_append_of_pos kept, List.dropWhile_append_of_pos kept]

theorem splitn_join (parts : text.toList = head.toList ++ sep :: rest.toList) (absent : sep ∉ head.toList) :
    splitn (count + 2) text sep = head :: splitn (count + 1) rest sep := by
  simp [splitn, splitOnce_join parts absent]

/-- Splitting at most three ways leaves everything after the second separator whole. -/
theorem splitn_three (parts : text.toList = head.toList ++ sep :: (middle.toList ++ sep :: rest.toList))
    (first : sep ∉ head.toList) (second : sep ∉ middle.toList) :
    splitn 3 text sep = [head, middle, rest] := by
  have outer : text.toList =
      head.toList ++ sep :: (String.ofList (middle.toList ++ sep :: rest.toList)).toList := by
    rw [parts, String.toList_ofList]
  have inner : splitn 2 (String.ofList (middle.toList ++ sep :: rest.toList)) sep = [middle, rest] := by
    rw [splitn_join String.toList_ofList second]
    rfl
  rw [splitn_join outer first, inner]

theorem trim_of_no_whitespace (clean : ∀ c ∈ text.toList, isWhitespace c = false) : trim text = text := by
  have kept : ∀ chars : List Char, (∀ c ∈ chars, isWhitespace c = false) →
      chars.dropWhile isWhitespace = chars := by
    intro chars none
    cases chars with
    | nil => rfl
    | cons c rest => simp [none c (by simp)]
  rw [trim, kept _ clean, kept _ (by simpa using clean)]
  simp

end SpectonCr.Text
