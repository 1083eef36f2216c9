import SpectonCr.Base.Interleaving

namespace SpectonCr.Interleaving

variable {Request Shared Flight Answer : Type}

/-- The number of flights that are counted. -/
def occupied (flights : Table Nat Flight) (counted : Flight → Bool) : Nat :=
  flights.entries.countP fun entry => counted entry.2

/-- The number of counted flights a move leaves of one. -/
def leaves (counted : Flight → Bool) : Flight ⊕ Answer → Nat
  | .inl flight => (counted flight).toNat
  | .inr _ => 0

private theorem countP_kerase {number : Nat} {flight : Flight} (counted : Flight → Bool)
    {entries : List (Sigma fun _ : Nat => Flight)} (found : entries.dlookup number = some flight) :
    (entries.kerase number).countP (fun entry => counted entry.2) + (counted flight).toNat =
      entries.countP fun entry => counted entry.2 := by
  induction entries with
  | nil => cases found
  | cons entry rest ih =>
    obtain ⟨key, row⟩ := entry
    by_cases same : number = key
    · subst same
      rw [List.dlookup_cons_eq] at found
      obtain rfl := Option.some.inj found
      have erased : (⟨number, row⟩ :: rest : List (Sigma fun _ : Nat => Flight)).kerase number = rest :=
        List.kerase_cons_eq rfl
      rw [erased, List.countP_cons]
      cases counted row <;> rfl
    · rw [List.dlookup_cons_ne rest ⟨key, row⟩ same] at found
      rw [List.kerase_cons_ne same, List.countP_cons, List.countP_cons, ← ih found]
      omega

theorem occupied_settle {flights : Table Nat Flight} {number : Nat} {flight : Flight}
    (found : flights.lookup number = some flight) (counted : Flight → Bool) (result : Flight ⊕ Answer) :
    occupied (settle flights number result) counted + (counted flight).toNat =
      occupied flights counted + leaves counted result := by
  have erased := countP_kerase counted found
  cases result with
  | inl rest =>
    have inserted : occupied (settle flights number (.inl rest : Flight ⊕ Answer)) counted =
        (flights.entries.kerase number).countP (fun entry => counted entry.2) + (counted rest).toNat := by
      refine (List.countP_cons ..).trans ?_
      cases counted rest <;> rfl
    rw [inserted, occupied, leaves, ← erased]
    omega
  | inr answer => exact erased

theorem occupied_start (free : number ∉ flights) (counted : Flight → Bool) (result : Flight ⊕ Answer) :
    occupied (settle flights number result) counted = occupied flights counted + leaves counted result := by
  cases result with
  | inl flight =>
    rw [settle, occupied, AList.entries_insert_of_notMem free, List.countP_cons, occupied, leaves]
    cases counted flight <;> rfl
  | inr answer =>
    have same : flights.erase number = flights := AList.ext (List.kerase_of_notMem_keys free)
    rw [settle, same]
    rfl

end SpectonCr.Interleaving
