import Mathlib

namespace SpectonCr.HashChain

variable {Digest Entry : Type}

/-- The digest after a list of entries. -/
def tip (link : Digest → Entry → Digest) (start : Digest) (entries : List Entry) : Digest :=
  entries.foldl link start

/-- The digest after each of the entries. -/
def digests (link : Digest → Entry → Digest) : Digest → List Entry → List Digest
  | _, [] => []
  | start, entry :: rest => link start entry :: digests link (link start entry) rest

/-- The inputs at which a chain evaluates its link function. -/
def inputs (link : Digest → Entry → Digest) : Digest → List Entry → List (Digest × Entry)
  | _, [] => []
  | start, entry :: rest => (start, entry) :: inputs link (link start entry) rest

/-- No two of these inputs collide, and none gives the genesis digest. -/
structure CollisionFree (link : Digest → Entry → Digest) (genesis : Digest)
    (asked : List (Digest × Entry)) : Prop where
  injective : ∀ one ∈ asked, ∀ two ∈ asked, link one.1 one.2 = link two.1 two.2 → one = two
  notGenesis : ∀ one ∈ asked, link one.1 one.2 ≠ genesis

variable {link : Digest → Entry → Digest} {start genesis : Digest}

variable (front back : List Entry)

theorem tip_append : tip link start (front ++ back) = tip link (tip link start front) back :=
  List.foldl_append

theorem inputs_append : inputs link start (front ++ back) =
      inputs link start front ++ inputs link (tip link start front) back := by
  induction front generalizing start with
  | nil => rfl
  | cons entry rest ih =>
    rw [List.cons_append, inputs, ih, inputs, List.cons_append]
    rfl

theorem digests_append : digests link start (front ++ back) =
      digests link start front ++ digests link (tip link start front) back := by
  induction front generalizing start with
  | nil => rfl
  | cons entry rest ih =>
    rw [List.cons_append, digests, ih, digests, List.cons_append]
    rfl

theorem length_digests (entries : List Entry) : (digests link start entries).length = entries.length := by
  induction entries generalizing start with
  | nil => rfl
  | cons entry rest ih => rw [digests, List.length_cons, List.length_cons, ih]

theorem exists_prefix_of_mem_digests (member : digest ∈ digests link start entries) :
    ∃ front, front <+: entries ∧ tip link start front = digest := by
  induction entries generalizing start with
  | nil => cases member
  | cons entry rest ih =>
    rcases List.mem_cons.mp member with rfl | later
    · exact ⟨[entry], by simp, rfl⟩
    · obtain ⟨front, early, reached⟩ := ih later
      exact ⟨entry :: front, (List.prefix_cons_inj entry).mpr early, reached⟩

theorem tip_mem_digests (nonempty : entries ≠ []) : tip link start entries ∈ digests link start entries := by
  obtain ⟨front, last, rfl⟩ := List.eq_nil_or_concat' entries |>.resolve_left nonempty
  rw [digests_append, tip_append]
  exact List.mem_append_right _ List.mem_cons_self

theorem getLast?_digests (entries : List Entry) :
    (digests link start entries).getLast?.getD start = tip link start entries := by
  cases entries using List.reverseRecOn with
  | nil => rfl
  | append_singleton front last =>
    rw [digests_append, tip_append]
    simp only [digests, List.getLast?_append, List.getLast?_singleton, Option.some_or, Option.getD_some]
    rfl

/-- Without collisions, the tip determines the whole chain. -/
theorem eq_of_tip_eq (free : CollisionFree link genesis asked)
    (first : inputs link genesis one ⊆ asked) (second : inputs link genesis two ⊆ asked)
    (same : tip link genesis one = tip link genesis two) : one = two := by
  induction one using List.reverseRecOn generalizing two with
  | nil =>
    cases two using List.reverseRecOn with
    | nil => rfl
    | append_singleton front last =>
      rw [inputs_append] at second
      rw [tip_append] at same
      have asks : (tip link genesis front, last) ∈ asked :=
        second (List.mem_append_right _ List.mem_cons_self)
      exact absurd same.symm (free.notGenesis _ asks)
  | append_singleton front last ih =>
    rw [inputs_append] at first
    rw [tip_append] at same
    have asks : (tip link genesis front, last) ∈ asked := first (List.mem_append_right _ List.mem_cons_self)
    cases two using List.reverseRecOn with
    | nil => exact absurd same (free.notGenesis _ asks)
    | append_singleton other final =>
      rw [inputs_append] at second
      rw [tip_append] at same
      have asksToo : (tip link genesis other, final) ∈ asked :=
        second (List.mem_append_right _ List.mem_cons_self)
      obtain ⟨tips, rfl⟩ := Prod.mk.inj (free.injective _ asks _ asksToo same)
      rw [ih (fun input member => first (List.mem_append_left _ member))
        (fun input member => second (List.mem_append_left _ member)) tips]

/-- A chain whose digests all occur in another chain is a prefix of it. -/
theorem prefix_of_digests_subset (free : CollisionFree link genesis asked)
    (first : inputs link genesis chain ⊆ asked) (second : inputs link genesis honest ⊆ asked)
    (occurs : digests link genesis chain ⊆ digests link genesis honest) : chain <+: honest := by
  by_cases empty : chain = []
  · rw [empty]
    exact List.nil_prefix
  obtain ⟨front, early, reached⟩ := exists_prefix_of_mem_digests (occurs (tip_mem_digests empty))
  obtain ⟨back, whole⟩ := early
  have part : inputs link genesis front ⊆ asked := by
    intro input member
    apply second
    rw [← whole, inputs_append]
    exact List.mem_append_left _ member
  rw [eq_of_tip_eq free first part reached.symm]
  exact ⟨back, whole⟩

end SpectonCr.HashChain
