import SpectonCr.Audit.Export

namespace SpectonCr.Audit

/-- A Merkle computation before its hashes. -/
inductive MerkleTree where
  | leaf (hash : Bytes)
  | node (left right : MerkleTree)

namespace MerkleTree

def root (hashPair : Bytes → Bytes → Bytes) : MerkleTree → Bytes
  | leaf hash => hash
  | node left right => hashPair (left.root hashPair) (right.root hashPair)

def pairTrees : List MerkleTree → List MerkleTree
  | [] => []
  | [left] => [node left left]
  | left :: right :: rest => node left right :: pairTrees rest

def climbTrees : Nat → List MerkleTree → MerkleTree
  | _, [] => leaf genesisPrev
  | _, [root] => root
  | 0, first :: _ => first
  | fuel + 1, level => climbTrees fuel (pairTrees level)

/-- The tree over the leaves: the last node of an odd level stands on both sides. -/
def ofLeaves (leaves : List Bytes) : MerkleTree := climbTrees leaves.length (leaves.map leaf)

def leaves : MerkleTree → List Bytes
  | leaf hash => [hash]
  | node left right => left.leaves ++ right.leaves

/-- A level repeats some leaves behind those of the level below. -/
theorem leaves_pairTrees (level : List MerkleTree) : ∃ extra, extra ⊆ level.flatMap leaves ∧
    (pairTrees level).flatMap leaves = level.flatMap leaves ++ extra := by
  fun_induction pairTrees level with
  | case1 => exact ⟨[], by simp⟩
  | case2 left => exact ⟨left.leaves, by simp [leaves]⟩
  | case3 left right rest ih =>
    obtain ⟨extra, listed, same⟩ := ih
    refine ⟨extra, fun hash member => ?_, by simp [leaves, same]⟩
    simpa using .inr (.inr (by simpa using listed member))

theorem length_pairTrees (level : List MerkleTree) : (pairTrees level).length = (level.length + 1) / 2 := by
  fun_induction pairTrees level with
  | case1 => rfl
  | case2 left => simp
  | case3 left right rest ih =>
    simp only [List.length_cons, ih]
    omega

theorem leaves_climbTrees (enough : level.length ≤ fuel) (nonempty : level ≠ []) :
    ∃ extra, extra ⊆ level.flatMap leaves ∧
      (climbTrees fuel level).leaves = level.flatMap leaves ++ extra := by
  fun_induction climbTrees fuel level with
  | case1 => exact absurd rfl nonempty
  | case2 fuel root => exact ⟨[], by simp⟩
  | case3 => simp at enough
  | case4 fuel level _ single ih =>
    have sized := length_pairTrees level
    have two : level.length ≠ 0 ∧ level.length ≠ 1 := by
      constructor
      · simpa using nonempty
      · intro one
        obtain ⟨only, rfl⟩ := List.length_eq_one_iff.mp one
        exact single only rfl
    obtain ⟨more, listed, same⟩ := ih (by omega) (by intro none; simp [none] at sized; omega)
    obtain ⟨extra, repeated, above⟩ := leaves_pairTrees level
    refine ⟨extra ++ more, ?_, by rw [same, above, List.append_assoc]⟩
    rw [above] at listed
    intro hash member
    rcases List.mem_append.mp member with old | new
    · exact repeated old
    · exact (List.mem_append.mp (listed new)).elim id (repeated ·)

/-- Behind the leaves, the tree only has some of them again. -/
theorem leaves_ofLeaves (nonempty : hashes ≠ []) : ∃ extra, extra ⊆ hashes ∧
    (ofLeaves hashes).leaves = hashes ++ extra := by
  have same : (hashes.map leaf).flatMap leaves = hashes := by
    simp [List.flatMap_map, leaves]
  have enough : (hashes.map leaf).length ≤ hashes.length := by simp
  simpa [ofLeaves, same] using leaves_climbTrees enough (by simpa using nonempty)

/-- No leaf of the tree is the hash of a pair. -/
def Fresh (hashPair : Bytes → Bytes → Bytes) : MerkleTree → Prop
  | leaf hash => ∀ left right, hashPair left right ≠ hash
  | node left right => left.Fresh hashPair ∧ right.Fresh hashPair

variable {hashPair : Bytes → Bytes → Bytes}

theorem map_root_pairTrees (level : List MerkleTree) :
    (pairTrees level).map (root hashPair) = pairLevel hashPair (level.map (root hashPair)) := by
  fun_induction pairTrees level with
  | case1 => rfl
  | case2 left => rfl
  | case3 left right rest ih => simp [pairLevel, root, ih]

theorem root_climbTrees (fuel : Nat) (level : List MerkleTree) :
    (climbTrees fuel level).root hashPair = climb hashPair fuel (level.map (root hashPair)) := by
  induction fuel generalizing level with
  | zero => rcases level with _ | ⟨only, _ | ⟨second, rest⟩⟩ <;> rfl
  | succ fuel ih =>
    rcases level with _ | ⟨only, _ | ⟨second, rest⟩⟩
    · rfl
    · rfl
    rw [climbTrees, ih, map_root_pairTrees]
    · rfl
    · simp
    · simp

theorem root_ofLeaves (leaves : List Bytes) :
    (ofLeaves leaves).root hashPair = merkleRoot hashPair leaves := by
  rw [ofLeaves, root_climbTrees, List.map_map, merkleRoot]
  congr 1
  exact List.map_id leaves

theorem fresh_pairTrees (level : List MerkleTree) (fresh : ∀ tree ∈ level, tree.Fresh hashPair) :
    ∀ tree ∈ pairTrees level, tree.Fresh hashPair := by
  fun_induction pairTrees level with
  | case1 => exact fresh
  | case2 left => simp_all [Fresh]
  | case3 left right rest ih => simp_all [Fresh]

theorem fresh_climbTrees (fuel : Nat) (level : List MerkleTree) (genesis : (leaf genesisPrev).Fresh hashPair)
    (fresh : ∀ tree ∈ level, tree.Fresh hashPair) : (climbTrees fuel level).Fresh hashPair := by
  fun_induction climbTrees fuel level with
  | case1 => exact genesis
  | case2 => exact fresh _ List.mem_cons_self
  | case3 => exact fresh _ List.mem_cons_self
  | case4 fuel level _ _ ih => exact ih (fresh_pairTrees level fresh)

/-- Without collisions, the root determines the tree. -/
theorem eq_of_root_eq (injective : Function.Injective2 hashPair) {first second : MerkleTree}
    (fresh : first.Fresh hashPair) (other : second.Fresh hashPair)
    (same : first.root hashPair = second.root hashPair) : first = second := by
  induction first generalizing second with
  | leaf hash =>
    cases second with
    | leaf hash' => exact congrArg leaf same
    | node left right => exact absurd same.symm (fresh _ _)
  | node left right ihLeft ihRight =>
    cases second with
    | leaf hash => exact absurd same (other _ _)
    | node left' right' =>
      obtain ⟨sameLeft, sameRight⟩ := injective same
      rw [ihLeft fresh.1 other.1 sameLeft, ihRight fresh.2 other.2 sameRight]

end MerkleTree

/-- `hash_pair` is injective, and no value of it is a leaf or the genesis value. -/
structure HashPairSound (hashPair : Bytes → Bytes → Bytes) (xs ys : List Bytes) : Prop where
  injective : Function.Injective2 hashPair
  fresh : ∀ hash ∈ genesisPrev :: (xs ++ ys), ∀ left right, hashPair left right ≠ hash

theorem merkleRoot_eq_iff (sound : HashPairSound hashPair xs ys) :
    merkleRoot hashPair xs = merkleRoot hashPair ys ↔ MerkleTree.ofLeaves xs = MerkleTree.ofLeaves ys := by
  have fresh : ∀ leaves, (∀ hash ∈ leaves, hash ∈ xs ++ ys) →
      (MerkleTree.ofLeaves leaves).Fresh hashPair := by
    intro leaves listed
    refine MerkleTree.fresh_climbTrees _ _ (sound.fresh _ List.mem_cons_self) ?_
    intro tree member
    obtain ⟨hash, inside, rfl⟩ := List.mem_map.mp member
    exact sound.fresh hash (List.mem_cons_of_mem _ (listed hash inside))
  rw [← MerkleTree.root_ofLeaves, ← MerkleTree.root_ofLeaves]
  constructor
  · exact MerkleTree.eq_of_root_eq sound.injective
      (fresh xs fun _ => List.mem_append_left ys) (fresh ys fun _ => List.mem_append_right xs)
  · exact congrArg _

/-- No hash is listed twice, and the genesis value not at all. -/
def Unrepeated (hashes : List Bytes) : Prop := hashes.Nodup ∧ genesisPrev ∉ hashes

private theorem nil_of_listed (distinct : (xs ++ tail).Nodup) (listed : tail ++ extra ⊆ xs) : tail = [] := by
  cases tail with
  | nil => rfl
  | cons hash tail =>
    have again : hash ∈ xs := listed (by simp)
    exact absurd rfl ((List.nodup_append.mp distinct).2.2 hash again hash (by simp))

private theorem eq_of_padded (first : Unrepeated xs) (second : Unrepeated ys) (padding : extra ⊆ xs)
    (padding' : extra' ⊆ ys) (same : xs ++ extra = ys ++ extra') : xs = ys := by
  -- The longer list would go on with hashes of the shorter one.
  rcases List.append_eq_append_iff.mp same with ⟨tail, rfl, rfl⟩ | ⟨tail, rfl, rfl⟩
  · rw [nil_of_listed second.1 padding, List.append_nil]
  · rw [nil_of_listed first.1 padding', List.append_nil]

private theorem eq_of_ofLeaves (first : Unrepeated xs) (second : Unrepeated ys)
    (same : MerkleTree.ofLeaves xs = MerkleTree.ofLeaves ys) : xs = ys := by
  have genesis : ∀ hashes, Unrepeated hashes → MerkleTree.ofLeaves hashes = .leaf genesisPrev → hashes = [] := by
    intro hashes unrepeated single
    by_contra nonempty
    obtain ⟨extra, _, padded⟩ := MerkleTree.leaves_ofLeaves nonempty
    rw [single] at padded
    cases hashes with
    | nil => exact nonempty rfl
    | cons hash rest => exact unrepeated.2 (by simp [(List.cons.inj padded).1])
  by_cases empty : xs = []
  · subst empty
    exact (genesis ys second same.symm).symm
  by_cases empty' : ys = []
  · subst empty'
    exact genesis xs first same
  obtain ⟨extra, padding, padded⟩ := MerkleTree.leaves_ofLeaves empty
  obtain ⟨extra', padding', padded'⟩ := MerkleTree.leaves_ofLeaves empty'
  exact eq_of_padded first second padding padding' (padded.symm.trans ((congrArg _ same).trans padded'))

/-- A pairing that tells its arguments apart by the length of the first. -/
def taggedPair (left right : Bytes) : Bytes := 9 :: (List.replicate left.length 1 ++ 0 :: (left ++ right))

private theorem replicate_cut (same : List.replicate n (1 : UInt8) ++ 0 :: first =
    List.replicate m 1 ++ 0 :: second) : n = m ∧ first = second := by
  induction n generalizing m with
  | zero => cases m <;> simp_all [List.replicate_succ]
  | succ n ih =>
    cases m with
    | zero => simp [List.replicate_succ] at same
    | succ m => simpa using ih (by simpa [List.replicate_succ] using same)

theorem taggedPair_injective : Function.Injective2 taggedPair := by
  intro a b c d same
  obtain ⟨sized, joined⟩ := replicate_cut (List.cons.inj same).2
  exact List.append_inj joined sized

theorem taggedPair_sound (untagged : ∀ hash ∈ xs ++ ys, hash.head? ≠ some 9) :
    HashPairSound taggedPair xs ys := by
  refine ⟨taggedPair_injective, ?_⟩
  rintro hash member left right rfl
  rcases List.mem_cons.mp member with genesis | listed
  · cases genesis
  · exact untagged _ listed rfl

/-- Three leaves and the same with the last one repeated build one tree. -/
theorem merkleRoot_repeats_last : ∃ xs ys : List Bytes, HashPairSound taggedPair xs ys ∧
      merkleRoot taggedPair xs = merkleRoot taggedPair ys ∧ xs ≠ ys :=
  ⟨[1, 2, 3].map (List.replicate 32), [1, 2, 3, 3].map (List.replicate 32),
    taggedPair_sound (by decide), by decide +kernel, by decide⟩

section Lines

def hexValue (c : Char) : Option Nat := "0123456789abcdef".toList.idxOf? c.toLower

/-- `hex::decode`, without the text of its error. -/
def hexDecode : List Char → Option Bytes
  | [] => some []
  | [_] => none
  | high :: low :: rest =>
    (hexValue high).bind fun upper => (hexValue low).bind fun lower =>
      (hexDecode rest).map fun bytes => UInt8.ofNat (16 * upper + lower) :: bytes

private theorem hexValue_hexDigit : ∀ value < 16, hexValue (hexDigit value) = some value := by
  decide

theorem hexDecode_hexEncode (bytes : Bytes) : hexDecode (hexEncode bytes).toList = some bytes := by
  rw [hexEncode, String.toList_ofList]
  induction bytes with
  | nil => rfl
  | cons byte rest ih =>
    have bound := byte.toNat_lt
    have whole : 16 * (byte.toNat / 16) + byte.toNat % 16 = byte.toNat := by omega
    show hexDecode (hexDigit (byte.toNat / 16) :: hexDigit (byte.toNat % 16) :: hexChars rest) = _
    rw [hexDecode, hexValue_hexDigit _ (by omega), hexValue_hexDigit _ (by omega), Option.bind_some,
      Option.bind_some, whole, ih]
    simp

/-- The libraries that read an export: `serde_json::from_slice`, and the texts of its errors and of
`hex::decode`. -/
structure ExportReader where
  read : Bytes → Except String ExportLine
  hexError : String → String

variable (exporter : ExportLib) (reader : ExportReader)

def exportLines (jsonl : Bytes) : List Bytes := (jsonl.splitOn 0x0A).filter fun line => !line.isEmpty

def leafOfLine (line : Bytes) : Except ExportError Bytes :=
  ((reader.read line).mapError .serde).bind fun parsed =>
    match hexDecode parsed.rowHash.toList with
    | none => .error (.audit (.unavailable (reader.hexError parsed.rowHash)))
    | some bytes =>
      if bytes.length = 32 then .ok bytes
      else .error (.audit (.unavailable "bad row_hash length"))

def verifyExportBytes (jsonl : Bytes) : Except ExportError Bytes :=
  ((exportLines jsonl).mapM (leafOfLine reader)).bind fun leaves =>
    if leaves.isEmpty then .error .empty else .ok (merkleRoot exporter.hashPair leaves)

/-- What is written of a row is one line, and is read back. -/
def ReadsBack (row : AuditRow) (line : Bytes) : Prop :=
  exporter.write (.ofRow row) = .ok line ∧ line ≠ [] ∧ 0x0A ∉ line ∧ reader.read line = .ok (.ofRow row)

/-- The hash of a line is that of the row. -/
def SameHash (line : ExportLine) (row : AuditRow) : Prop := hexDecode line.rowHash.toList = some row.rowHash

variable {exporter reader}

theorem leafOfLine_ok_iff (reading : reader.read piece = .ok line) :
    leafOfLine reader piece = .ok leaf ↔ hexDecode line.rowHash.toList = some leaf ∧ leaf.length = 32 := by
  simp only [leafOfLine, reading, Except.mapError, Except.bind]
  cases hexDecode line.rowHash.toList with
  | none => simp
  | some bytes =>
    simp only [Option.some.injEq]
    split
    · rename_i sized
      simp only [Except.ok.injEq]
      exact ⟨fun same => ⟨same, same ▸ sized⟩, And.left⟩
    · rename_i missized
      simp only [reduceCtorEq, false_iff, not_and]
      exact fun same sized => missized (same ▸ sized)

theorem leafOf_ok_iff : leafOf row = .ok leaf ↔ row.rowHash.length = 32 ∧ row.rowHash = leaf := by
  unfold leafOf
  split <;> simp_all

theorem rootForRows_ok_iff : rootForRows exporter rows = .ok root ↔ (∀ row ∈ rows, row.rowHash.length = 32) ∧
      merkleRoot exporter.hashPair (rows.map AuditRow.rowHash) = root := by
  have leaves (found) : rows.mapM leafOf = .ok found ↔
      (∀ row ∈ rows, row.rowHash.length = 32) ∧ rows.map AuditRow.rowHash = found := by
    simp only [mapM_ok_iff, leafOf_ok_iff, List.forall₂_and_left]
    rw [← List.forall₂_map_left_iff, List.forall₂_eq_eq_eq]
  constructor
  · intro recorded
    cases found : rows.mapM leafOf with
    | error failure => simp [rootForRows, found, Except.map] at recorded
    | ok hashes =>
      obtain ⟨sized, rfl⟩ := (leaves hashes).mp found
      rw [rootForRows, found] at recorded
      exact ⟨sized, Except.ok.inj recorded⟩
  · rintro ⟨sized, rfl⟩
    rw [rootForRows, (leaves _).mpr ⟨sized, rfl⟩]
    rfl

theorem leaves_ok_iff (parsed : List.Forall₂ (fun piece line => reader.read piece = .ok line) pieces lines) :
    pieces.mapM (leafOfLine reader) = .ok leaves ↔ List.Forall₂ (fun line leaf =>
      hexDecode line.rowHash.toList = some leaf ∧ leaf.length = 32) lines leaves := by
  rw [mapM_ok_iff]
  induction parsed generalizing leaves with
  | nil => simp
  | cons reading _ ih =>
    cases leaves with
    | nil => simp
    | cons leaf leaves => rw [List.forall₂_cons, List.forall₂_cons, ih, leafOfLine_ok_iff reading]

theorem verifyExportBytes_of_same
    (parsed : List.Forall₂ (fun piece line => reader.read piece = .ok line) (exportLines jsonl) lines)
    (same : List.Forall₂ SameHash lines rows) (nonempty : rows ≠ [])
    (recorded : rootForRows exporter rows = .ok root) :
    verifyExportBytes exporter reader jsonl = .ok root := by
  obtain ⟨sized, rfl⟩ := rootForRows_ok_iff.mp recorded
  have leaves : (exportLines jsonl).mapM (leafOfLine reader) = .ok (rows.map AuditRow.rowHash) := by
    rw [leaves_ok_iff parsed, List.forall₂_map_right_iff]
    clear parsed nonempty recorded
    induction same with
    | nil => exact .nil
    | cons decoded _ ih =>
      rw [List.forall_mem_cons] at sized
      exact .cons ⟨decoded, sized.1⟩ (ih sized.2)
  simp [verifyExportBytes, leaves, Except.bind, nonempty]

theorem exportLines_cons (nonempty : line ≠ []) (whole : 0x0A ∉ line) (rest : Bytes) :
    exportLines (line ++ 0x0A :: rest) = line :: exportLines rest := by
  rw [exportLines, List.splitOn_append_cons_self, List.splitOn_eq_singleton whole]
  simp [exportLines, nonempty]

theorem exportLines_encodeJsonl (written : List.Forall₂ (ReadsBack exporter reader) rows lines) :
    ∃ jsonl, encodeJsonl exporter rows = .ok jsonl ∧ exportLines jsonl = lines := by
  refine ⟨(lines.map (· ++ [0x0A])).flatten, ?_, ?_⟩
  · have encoded : rows.mapM (encodeLine exporter) = .ok (lines.map (· ++ [0x0A])) := by
      rw [mapM_ok_iff, List.forall₂_map_right_iff]
      exact written.imp fun row line back => by
        simp [encodeLine, back.1, Except.mapError, Except.map]
    simp [encodeJsonl, encoded, Except.map]
  · induction written with
    | nil => rfl
    | cons back _ ih =>
      simp only [List.map_cons, List.flatten_cons, List.append_assoc, List.singleton_append]
      rw [exportLines_cons back.2.1 back.2.2.1, ih]

/-- An export that is read back as it was written verifies, with the root of its rows. -/
theorem verifyExportBytes_encodeJsonl (nonempty : rows ≠ []) (sized : ∀ row ∈ rows, row.rowHash.length = 32)
    (readsBack : ∀ row ∈ rows, ∃ line, ReadsBack exporter reader row line) :
    ∃ jsonl root, encodeJsonl exporter rows = .ok jsonl ∧
      verifyExportBytes exporter reader jsonl = .ok root ∧ rootForRows exporter rows = .ok root := by
  obtain ⟨lines, written⟩ : ∃ lines, List.Forall₂ (ReadsBack exporter reader) rows lines := by
    clear nonempty sized
    induction rows with
    | nil => exact ⟨[], .nil⟩
    | cons row rest ih =>
      obtain ⟨⟨line, back⟩, others⟩ := List.forall_mem_cons.mp readsBack
      obtain ⟨lines, written⟩ := ih others
      exact ⟨line :: lines, .cons back written⟩
  obtain ⟨jsonl, encoded, rfl⟩ := exportLines_encodeJsonl written
  have recorded : rootForRows exporter rows = .ok _ := rootForRows_ok_iff.mpr ⟨sized, rfl⟩
  have parsed : List.Forall₂ (fun piece line => reader.read piece = .ok line) (exportLines jsonl)
      (rows.map .ofRow) := by
    rw [List.forall₂_map_right_iff]
    exact (written.imp fun _ _ back => back.2.2.2).flip
  have same : List.Forall₂ SameHash (rows.map .ofRow) rows := by
    rw [List.forall₂_map_left_iff, List.forall₂_same]
    exact fun row _ => hexDecode_hexEncode row.rowHash
  exact ⟨jsonl, _, encoded, verifyExportBytes_of_same parsed same nonempty recorded, recorded⟩

/-- A row, and libraries that know no line but those like it: they write its action only. -/
def oddRow : AuditRow :=
  ⟨1, ⟨0, .push, "a", ⟨"", none, none, none⟩, none, .success, []⟩, none, none, genesisPrev, ""⟩

def actionExporter : ExportLib :=
  ⟨taggedPair, fun line => .ok (line.action.toList.map fun c => UInt8.ofNat c.toNat), .ok, fun _ => ""⟩

def actionReader : ExportReader :=
  ⟨fun line => .ok { ExportLine.ofRow oddRow with
    action := String.ofList (line.map fun byte => Char.ofNat byte.toNat) }, id⟩

private theorem oddRow_readsBack : ReadsBack actionExporter actionReader oddRow [0x61] :=
  ⟨rfl, by decide, by decide, rfl⟩

theorem oddRow_verifies : ∃ jsonl root, encodeJsonl actionExporter [oddRow] = .ok jsonl ∧
      verifyExportBytes actionExporter actionReader jsonl = .ok root ∧
      rootForRows actionExporter [oddRow] = .ok root :=
  verifyExportBytes_encodeJsonl (by simp) (by simp; rfl) (by simp; exact ⟨_, oddRow_readsBack⟩)

theorem length_pairLevel (level : List Bytes) :
    (pairLevel hashPair level).length = (level.length + 1) / 2 := by
  fun_induction pairLevel hashPair level with
  | case1 => rfl
  | case2 => simp
  | case3 left right rest ih =>
    simp only [List.length_cons, ih]
    omega

theorem pairLevel_injective (injective : Function.Injective2 hashPair) (sized : first.length = second.length)
    (same : pairLevel hashPair first = pairLevel hashPair second) : first = second := by
  fun_induction pairLevel hashPair first generalizing second with
  | case1 => exact (List.length_eq_zero_iff.mp sized.symm).symm
  | case2 left =>
    obtain ⟨other, rfl⟩ := List.length_eq_one_iff.mp sized.symm
    rw [(injective (List.cons.inj same).1).1]
  | case3 left right rest ih =>
    rcases second with _ | ⟨left', _ | ⟨right', rest'⟩⟩
    · cases sized
    · simp at sized
    · obtain ⟨pair, others⟩ := List.cons.inj same
      obtain ⟨rfl, rfl⟩ := injective pair
      rw [ih (by simpa using sized) others]

/-- Among lists of one length the root binds the leaves. -/
theorem climb_injective (injective : Function.Injective2 hashPair)
    (sized : first.length = second.length) (enough : first.length ≤ fuel + 1)
    (same : climb hashPair fuel first = climb hashPair fuel second) : first = second := by
  induction fuel generalizing first second with
  | zero =>
    rcases first with _ | ⟨left, _ | ⟨right, rest⟩⟩
    · exact (List.length_eq_zero_iff.mp sized.symm).symm
    · obtain ⟨other, rfl⟩ := List.length_eq_one_iff.mp sized.symm
      exact congrArg (fun hash => [hash]) same
    · simp at enough
  | succ fuel ih =>
    rcases first with _ | ⟨left, _ | ⟨right, rest⟩⟩
    · exact (List.length_eq_zero_iff.mp sized.symm).symm
    · obtain ⟨other, rfl⟩ := List.length_eq_one_iff.mp sized.symm
      exact congrArg (fun hash => [hash]) same
    rcases second with _ | ⟨left', _ | ⟨right', rest'⟩⟩
    · cases sized
    · simp at sized
    refine pairLevel_injective injective sized (ih ?_ ?_ same)
    · rw [length_pairLevel, length_pairLevel, sized]
    · simp only [length_pairLevel, List.length_cons] at enough ⊢
      omega

/-- Among lists of one length, and among those that repeat no hash, the root binds the leaves. -/
theorem merkleRoot_binds (sound : HashPairSound hashPair xs ys)
    (condition : xs.length = ys.length ∨ Unrepeated xs ∧ Unrepeated ys)
    (same : merkleRoot hashPair xs = merkleRoot hashPair ys) : xs = ys := by
  rcases condition with sized | ⟨first, second⟩
  · rw [merkleRoot, merkleRoot, ← sized] at same
    exact climb_injective sound.injective sized (by omega) same
  · exact eq_of_ofLeaves first second ((merkleRoot_eq_iff sound).mp same)

/-- Three hashes have another root than the first two of them, and than three others. -/
theorem three_hashes_bound :
    merkleRoot taggedPair [[1], [2], [3]] ≠ merkleRoot taggedPair [[1], [2]] ∧
      merkleRoot taggedPair [[1], [2], [3]] ≠ merkleRoot taggedPair [[1], [3], [3]] := by
  constructor
  · intro same
    exact absurd (merkleRoot_binds (taggedPair_sound (by decide))
      (.inr ⟨⟨by decide, by decide⟩, by decide, by decide⟩) same) (by decide)
  · intro same
    exact absurd (merkleRoot_binds (taggedPair_sound (by decide)) (.inl (by decide)) same) (by decide)

/-- An alteration of an export is found exactly if it alters a hash. -/
theorem alteration_detected_iff (injective : Function.Injective2 exporter.hashPair)
    (recorded : rootForRows exporter rows = .ok root)
    (parsed : (exportLines altered).mapM reader.read = .ok lines)
    (sized : lines.length = rows.length) (differs : lines ≠ rows.map ExportLine.ofRow) :
    verifyExportBytes exporter reader altered ≠ .ok root ↔ ¬List.Forall₂ SameHash lines rows := by
  rw [mapM_ok_iff] at parsed
  rw [not_iff_not]
  constructor
  · intro accepted
    obtain ⟨leaves, found, accepted⟩ := bind_ok accepted
    rw [leaves_ok_iff parsed] at found
    split at accepted
    · cases accepted
    obtain ⟨_, hashed⟩ := rootForRows_ok_iff.mp recorded
    have same := hashed.trans (Except.ok.inj accepted).symm
    have long : (rows.map AuditRow.rowHash).length = leaves.length := by
      rw [List.length_map, ← sized, found.length_eq]
    rw [merkleRoot, merkleRoot, long] at same
    obtain rfl := climb_injective injective long (by omega) same
    rw [List.forall₂_map_right_iff] at found
    exact found.imp fun _ _ => And.left
  · intro same
    refine verifyExportBytes_of_same parsed same ?_ recorded
    rintro rfl
    exact differs (List.length_eq_zero_iff.mp sized)

/-- The line of the row with another action. -/
def otherAction : ExportLine := { ExportLine.ofRow oddRow with action := "b" }

private theorem otherAction_differs : [otherAction] ≠ [oddRow].map ExportLine.ofRow := by
  intro same
  have action := congrArg (List.map ExportLine.action) same
  simp [otherAction, oddRow, ExportLine.ofRow] at action

/-- Another action under the same hash goes through. -/
theorem altered_action_accepted :
    ∃ altered lines root, (exportLines altered).mapM actionReader.read = .ok lines ∧
      lines.length = [oddRow].length ∧ lines ≠ [oddRow].map ExportLine.ofRow ∧
      Function.Injective2 actionExporter.hashPair ∧
      rootForRows actionExporter [oddRow] = .ok root ∧
      verifyExportBytes actionExporter actionReader altered = .ok root :=
  ⟨[0x62], [otherAction], genesisPrev, rfl, rfl, otherAction_differs, taggedPair_injective, rfl, rfl⟩

theorem otherAction_detected_iff : verifyExportBytes actionExporter actionReader [0x62] ≠ .ok genesisPrev ↔
      ¬List.Forall₂ SameHash [otherAction] [oddRow] :=
  alteration_detected_iff taggedPair_injective rfl rfl rfl otherAction_differs

end Lines

end SpectonCr.Audit
