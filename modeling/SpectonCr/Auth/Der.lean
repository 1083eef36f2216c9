import Mathlib

namespace SpectonCr.Auth

def usizeRange : Nat := 2 ^ 64

/-- How the process stops at an index. -/
inductive Trap where
  | outOfBounds
  | overflow
  deriving DecidableEq

/-- The tag, the length and the length of the header; `<<` drops the bits that leave the word. -/
def derReadTagLength : List UInt8 → Option (UInt8 × Nat × Nat)
  | tag :: first :: data =>
    if first &&& 0x80 = 0 then some (tag, first.toNat, 2)
    else
      let numBytes := (first &&& 0x7f).toNat
      if data.length < numBytes then none
      else
        let length := (data.take numBytes).foldl (fun length byte => (length * 256 + byte.toNat) % usizeRange) 0
        some (tag, length, 2 + numBytes)
  | _ => none

/-- Reads an element with the tag and slices `skipped` bytes behind its header: what is before the
cut and what is after it. -/
def withElement (tag : UInt8) (skipped : Nat → Nat) (data : List UInt8)
    (goOn : List UInt8 → List UInt8 → Except Trap (Option Key)) : Except Trap (Option Key) :=
  match derReadTagLength data with
  | none => .ok none
  | some (found, length, header) =>
    if found ≠ tag then .ok none
    else if usizeRange ≤ header + skipped length then .error .overflow
    else if data.length < header + skipped length then .error .outOfBounds
    else goOn ((data.take (header + skipped length)).drop header) (data.drop (header + skipped length))

def stripSign : List UInt8 → List UInt8
  | 0 :: bytes => bytes
  | bytes => bytes

section Keys

variable (b64UrlEncode : List UInt8 → String)

def parsePkcs1Rsa (der : List UInt8) : Except Trap (Option (String × String)) :=
  withElement 0x30 (fun _ => 0) der fun _ inner =>
    withElement 0x02 id inner fun n afterN =>
      withElement 0x02 id afterN fun e _ =>
        .ok (some (b64UrlEncode (stripSign n), b64UrlEncode (stripSign e)))

def parseSpkiRsa (der : List UInt8) : Except Trap (Option (String × String)) :=
  withElement 0x30 (fun _ => 0) der fun _ inner =>
    withElement 0x30 id inner fun _ afterAlgo =>
      withElement 0x03 (fun _ => 1) afterAlgo fun _ rsaDer => parsePkcs1Rsa b64UrlEncode rsaDer

/-- The number that octets spell, the most significant first. -/
def spelled (octets : List UInt8) : Nat := Nat.ofDigits 256 (octets.reverse.map UInt8.toNat)

/-- The bytes begin with a tag and a length, spelled by one octet below 128 or by as many as the
first octet announces, of which a word keeps the last eight. -/
inductive Begins (tag : UInt8) : Nat → List UInt8 → List UInt8 → Prop
  | short (length : UInt8) (rest : List UInt8) (below : length &&& 0x80 = 0) :
      Begins tag length.toNat (tag :: length :: rest) rest
  | long (first : UInt8) (octets rest : List UInt8) (above : first &&& 0x80 ≠ 0)
      (counted : octets.length = (first &&& 0x7f).toNat) :
      Begins tag (spelled octets % usizeRange) (tag :: first :: (octets ++ rest)) rest

/-- Wherever the bytes go on with the next tag of the shape, those to be skipped behind the length
are there. -/
def Framed : List (UInt8 × (Nat → Nat)) → List UInt8 → Prop
  | [], _ => True
  | (tag, skipped) :: shape, data => ∀ length rest, Begins tag length data rest →
      skipped length ≤ rest.length ∧ Framed shape (rest.drop (skipped length))

theorem foldl_octets (octets : List UInt8) :
    octets.foldl (fun length byte => (length * 256 + byte.toNat) % usizeRange) 0 =
      spelled octets % usizeRange := by
  induction octets using List.reverseRecOn with
  | nil => rfl
  | append_singleton octets last ih =>
    rw [List.foldl_append, List.foldl_cons, List.foldl_nil, ih]
    simp only [spelled, List.reverse_append, List.reverse_singleton, List.singleton_append, List.map_cons,
      Nat.ofDigits_cons, usizeRange]
    omega

theorem header_le (read : derReadTagLength data = some (tag, length, header)) : header ≤ data.length := by
  unfold derReadTagLength at read
  split at read
  · split at read
    · cases read
      simp
    · simp only at read
      split at read
      · cases read
      · cases read
        simp only [List.length_cons]
        omega
  · cases read

theorem begins_iff : Begins tag length data rest ↔ ∃ header,
    derReadTagLength data = some (tag, length, header) ∧ rest = data.drop header := by
  constructor
  · rintro (⟨length, rest, below⟩ | ⟨first, octets, rest, above, counted⟩)
    · exact ⟨2, by simp [derReadTagLength, below], rfl⟩
    · refine ⟨2 + octets.length, ?_, ?_⟩
      · simp [derReadTagLength, above, ← counted, foldl_octets]
      · rw [Nat.add_comm, List.drop_succ_cons, List.drop_succ_cons, List.drop_left]
  · rintro ⟨header, read, rfl⟩
    unfold derReadTagLength at read
    split at read
    · split at read
      · cases read
        exact .short _ _ (by assumption)
      rename_i tag first data above
      simp only at read
      split at read
      · cases read
      · rename_i enough
        obtain ⟨rfl, rfl, rfl⟩ : _ ∧ _ ∧ _ := by simpa using read
        rw [foldl_octets, Nat.add_comm, List.drop_succ_cons, List.drop_succ_cons]
        have long : Begins tag _ _ _ := .long first (data.take (first &&& 0x7f).toNat)
          (data.drop (first &&& 0x7f).toNat) above (List.length_take_of_le (not_lt.mp enough))
        rwa [List.take_append_drop] at long
    · cases read

theorem withElement_framed {goOn : List UInt8 → List UInt8 → Except Trap (Option Key)}
    (small : data.length < usizeRange)
    (later : ∀ content rest, rest.length < usizeRange → ((∃ key, goOn content rest = .ok key) ↔ Framed shape rest)) :
    (∃ key, withElement tag skipped data goOn = .ok key) ↔ Framed ((tag, skipped) :: shape) data := by
  simp only [withElement, Framed, begins_iff]
  cases read : derReadTagLength data with
  | none => simp
  | some found =>
    obtain ⟨found, length, header⟩ := found
    have inside := header_le read
    by_cases same : found = tag
    · subst same
      have framed : (∀ length' rest, (∃ header', some (found, length, header) = some (found, length', header') ∧
          rest = data.drop header') → skipped length' ≤ rest.length ∧ Framed shape (rest.drop (skipped length'))) ↔
          header + skipped length ≤ data.length ∧ Framed shape (data.drop (header + skipped length)) := by
        simp [Nat.le_sub_iff_add_le' inside]
      rw [framed]
      by_cases ends : data.length < header + skipped length
      · by_cases spills : usizeRange ≤ header + skipped length <;> simp [spills, ends, not_le.mpr ends]
      · have fits : ¬ usizeRange ≤ header + skipped length := by omega
        simp only [ne_eq, not_true_eq_false, if_false, if_neg fits, if_neg ends]
        rw [later _ _ (by simp; omega)]
        simp [not_lt.mp ends]
    · simp [same]

/-- What PKCS#1 keys consist of, and what stands before one in a SubjectPublicKeyInfo. -/
def pkcs1Shape : List (UInt8 × (Nat → Nat)) := [(0x30, fun _ => 0), (0x02, id), (0x02, id)]

def spkiShape : List (UInt8 × (Nat → Nat)) := [(0x30, fun _ => 0), (0x30, id), (0x03, fun _ => 1)]

/-- The readers return exactly if every length they use fits the bytes that are left. -/
theorem parse_returns_iff (der : List UInt8) (small : der.length < usizeRange) :
    ((∃ key, parsePkcs1Rsa b64UrlEncode der = .ok key) ↔ Framed pkcs1Shape der) ∧
      ((∃ key, parseSpkiRsa b64UrlEncode der = .ok key) ↔ Framed (spkiShape ++ pkcs1Shape) der) := by
  have single : ∀ der, der.length < usizeRange →
      ((∃ key, parsePkcs1Rsa b64UrlEncode der = .ok key) ↔ Framed pkcs1Shape der) := fun der small =>
    withElement_framed small fun _ _ small => withElement_framed small fun _ _ small =>
      withElement_framed small fun _ _ _ => by simp [Framed]
  exact ⟨single der small, withElement_framed small fun _ _ small => withElement_framed small fun _ _ small =>
    withElement_framed small fun _ rsaDer small => single rsaDer small⟩

theorem short_key_framed : Framed pkcs1Shape [0x30, 6, 0x02, 1, 187, 0x02, 1, 3] ∧
    ¬ Framed (spkiShape ++ pkcs1Shape) [0x30, 0, 0x30, 0x7f] := by
  constructor
  · exact (parse_returns_iff (fun _ => "") _ (by decide)).1.mp ⟨_, rfl⟩
  · intro framed
    obtain ⟨key, read⟩ := (parse_returns_iff (fun _ => "") _ (by decide)).2.mpr framed
    cases read

theorem hostile_lengths_trap :
    parseSpkiRsa (fun _ => "") [0x30, 0, 0x30, 0x7f] = .error .outOfBounds ∧
      parsePkcs1Rsa (fun _ => "") ([0x30, 0, 0x02, 0x88] ++ List.replicate 8 0xff) = .error .overflow := by
  decide +kernel

/-- The last line of `parse_rsa_public_key_components`. -/
def parseDer (der : List UInt8) : Except Trap (Option (String × String)) := do
  match ← parseSpkiRsa b64UrlEncode der with
  | some key => return some key
  | none => parsePkcs1Rsa b64UrlEncode der

/-- The minimal big-endian bytes of a number. -/
def bigEndian (n : Nat) : List UInt8 := ((Nat.digits 256 n).map UInt8.ofNat).reverse

def lengthOctets (length : Nat) : List UInt8 :=
  if length < 128 then [UInt8.ofNat length]
  else UInt8.ofNat (128 + (bigEndian length).length) :: bigEndian length

def element (tag : UInt8) (content : List UInt8) : List UInt8 :=
  tag :: lengthOctets content.length ++ content

/-- A number, after a zero if its top bit is set. -/
def integer (n : Nat) : List UInt8 :=
  element 0x02 (if (bigEndian n).headI < 128 then bigEndian n else 0 :: bigEndian n)

def pkcs1 (n e : Nat) : List UInt8 := element 0x30 (integer n ++ integer e)

def spki (algorithm key : List UInt8) : List UInt8 :=
  element 0x30 (element 0x30 algorithm ++ element 0x03 (0 :: key))

theorem foldl_bigEndian (small : n < usizeRange) :
    (bigEndian n).foldl (fun length byte => (length * 256 + byte.toNat) % usizeRange) 0 = n := by
  have bytes : ((Nat.digits 256 n).map UInt8.ofNat).map UInt8.toNat = Nat.digits 256 n := by
    rw [List.map_map]
    refine (List.map_congr_left fun digit member => ?_).trans (List.map_id _)
    simpa using Nat.digits_lt_base (by decide) member
  rw [foldl_octets, spelled, bigEndian, List.reverse_reverse, bytes, Nat.ofDigits_digits,
    Nat.mod_eq_of_lt small]

theorem derReadTagLength_octets (small : length < usizeRange) (tag : UInt8) (rest : List UInt8) :
    derReadTagLength (tag :: lengthOctets length ++ rest) =
      some (tag, length, (tag :: lengthOctets length).length) := by
  have short : ∀ n < 128, UInt8.ofNat n &&& 0x80 = 0 ∧ (UInt8.ofNat n).toNat = n := by decide
  have long : ∀ n ≤ 8, UInt8.ofNat (128 + n) &&& 0x80 ≠ 0 ∧ (UInt8.ofNat (128 + n) &&& 0x7f).toNat = n := by
    decide
  unfold lengthOctets
  split
  · rename_i below
    obtain ⟨top, same⟩ := short length below
    simp [derReadTagLength, top, same]
  · have count : (bigEndian length).length ≤ 8 := by
      rw [bigEndian, List.length_reverse, List.length_map]
      exact (Nat.digits_length_le_iff (by decide) length).mpr small
    obtain ⟨top, same⟩ := long _ count
    generalize UInt8.ofNat (128 + (bigEndian length).length) = first at top same ⊢
    simp [derReadTagLength, top, same, foldl_bigEndian small]
    omega

theorem withElement_element {goOn : List UInt8 → List UInt8 → Except Trap (Option Key)}
    (small : (element tag content).length < usizeRange) (inside : skipped content.length ≤ content.length) :
    withElement tag skipped (element tag content ++ rest) goOn =
      goOn (content.take (skipped content.length)) ((content ++ rest).drop (skipped content.length)) := by
  simp only [element, List.length_append] at small
  rw [withElement, element, List.append_assoc, derReadTagLength_octets (by omega)]
  simp only [ne_eq, not_true_eq_false, if_false, List.length_append, List.take_length_add_append,
    List.drop_length_add_append, List.drop_left, List.take_append_of_le_length inside]
  rw [if_neg (by omega), if_neg (by omega)]

theorem bigEndian_minimal (positive : 1 ≤ n) (rest : List UInt8) : bigEndian n ≠ 0 :: rest := by
  intro same
  have digits : (Nat.digits 256 n).map UInt8.ofNat = rest.reverse ++ [0] := by
    rw [← List.reverse_cons, ← same, bigEndian, List.reverse_reverse]
  obtain ⟨low, top, parts, _, zero⟩ := List.map_eq_append_iff.mp digits
  obtain ⟨digit, rfl, value⟩ := List.map_eq_singleton_iff.mp zero
  have nonzero := Nat.getLast_digit_ne_zero 256 (Nat.one_le_iff_ne_zero.mp positive)
  have below : digit < 256 := Nat.digits_lt_base (by decide) (parts ▸ List.mem_append_right low List.mem_cons_self)
  simp only [parts, List.getLast_append_singleton] at nonzero
  have vanishes : digit % 256 = 0 := congrArg UInt8.toNat value
  omega

theorem stripSign_integer (positive : 1 ≤ n) :
    stripSign (if (bigEndian n).headI < 128 then bigEndian n else 0 :: bigEndian n) = bigEndian n := by
  split
  · unfold stripSign
    split
    · rename_i zero
      exact absurd zero (bigEndian_minimal positive _)
    · rfl
  · rfl

theorem parsePkcs1Rsa_pkcs1 (positive : 1 ≤ n ∧ 1 ≤ e) (small : (pkcs1 n e).length < usizeRange) :
    parsePkcs1Rsa b64UrlEncode (pkcs1 n e) =
      .ok (some (b64UrlEncode (bigEndian n), b64UrlEncode (bigEndian e))) := by
  have parts : (integer n).length + (integer e).length ≤ (pkcs1 n e).length := by
    simp [pkcs1, element]
    omega
  have first : (integer n).length < usizeRange := by omega
  have second : (integer e).length < usizeRange := by omega
  rw [parsePkcs1Rsa, ← List.append_nil (pkcs1 n e), pkcs1, withElement_element small (Nat.zero_le _)]
  rw [List.drop_zero, List.append_nil, integer, withElement_element first le_rfl]
  simp only [id, List.take_length, List.drop_left]
  rw [← List.append_nil (integer e), integer, withElement_element second le_rfl]
  simp only [id, List.take_length, stripSign_integer positive.1, stripSign_integer positive.2]

/-- Keys of either format are shown by their minimal bytes. -/
theorem parseDer_shows_key (n e : Nat) (positive : 1 ≤ n ∧ 1 ≤ e) (algorithm : List UInt8)
    (small : (spki algorithm (pkcs1 n e)).length < usizeRange) :
    parseDer b64UrlEncode (pkcs1 n e) = .ok (some (b64UrlEncode (bigEndian n), b64UrlEncode (bigEndian e))) ∧
      parseDer b64UrlEncode (spki algorithm (pkcs1 n e)) =
        .ok (some (b64UrlEncode (bigEndian n), b64UrlEncode (bigEndian e))) := by
  have whole : (element 0x30 algorithm).length + (element 0x03 (0 :: pkcs1 n e)).length < usizeRange := by
    simp only [spki, element, List.length_append] at small ⊢
    omega
  have last : (pkcs1 n e).length < usizeRange := by
    simp only [element, List.length_append, List.length_cons] at whole
    omega
  have key := parsePkcs1Rsa_pkcs1 b64UrlEncode positive last
  constructor
  · have refused : parseSpkiRsa b64UrlEncode (pkcs1 n e) = .ok none := by
      rw [parseSpkiRsa, ← List.append_nil (pkcs1 n e), pkcs1, withElement_element last (Nat.zero_le _),
        List.drop_zero, List.append_nil, integer, withElement, element, List.append_assoc,
        derReadTagLength_octets]
      · simp
      · simp only [pkcs1, integer, element, List.length_append] at last
        omega
    simp only [parseDer, refused, bind, Except.bind]
    exact key
  · have read : parseSpkiRsa b64UrlEncode (spki algorithm (pkcs1 n e)) =
        .ok (some (b64UrlEncode (bigEndian n), b64UrlEncode (bigEndian e))) := by
      rw [parseSpkiRsa, ← List.append_nil (spki algorithm _), spki, withElement_element small (Nat.zero_le _),
        List.drop_zero, List.append_nil, withElement_element (by omega) le_rfl]
      simp only [id, List.drop_left]
      rw [← List.append_nil (element 0x03 _), withElement_element (by omega) (by simp)]
      simpa using key
    simp only [parseDer, read, bind, Except.bind]
    rfl

theorem small_key_shown :
    let shown := fun bytes => String.ofList (bytes.map fun byte : UInt8 => Char.ofNat byte.toNat)
    parseDer shown (pkcs1 187 3) = .ok (some (shown [187], shown [3])) ∧
      parseDer shown (spki [5, 0] (pkcs1 187 3)) = .ok (some (shown [187], shown [3])) := by
  have modulus : bigEndian 187 = [187] := by simp [bigEndian]
  have exponent : bigEndian 3 = [3] := by simp [bigEndian]
  intro shown
  have both := parseDer_shows_key shown 187 3 (by decide) [5, 0] (by decide +kernel)
  rwa [modulus, exponent] at both

end Keys

end SpectonCr.Auth
