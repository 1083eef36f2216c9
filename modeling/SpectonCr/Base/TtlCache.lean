import SpectonCr.Base.Table

namespace SpectonCr

structure TtlEntry (Value : Type) where
  value : Value
  expires : Int

abbrev TtlCache (Key Value : Type) := Table Key (TtlEntry Value)

namespace TtlCache

variable {Key Value : Type} [DecidableEq Key]

/-- An entry is returned strictly before it expires. -/
def get (cache : TtlCache Key Value) (now : Int) (key : Key) : Option Value :=
  (cache.lookup key).bind fun entry => if now < entry.expires then some entry.value else none

def prune (cache : TtlCache Key Value) (now : Int) : TtlCache Key Value :=
  ⟨cache.entries.filter fun row => now < row.2.expires,
    List.NodupKeys.sublist List.filter_sublist cache.nodupKeys⟩

/-- Insertion, with a sweep of expired entries above a size. -/
def put (cache : TtlCache Key Value) (now ttl : Int) (limit : Nat) (key : Key) (value : Value) :
    TtlCache Key Value :=
  let inserted : TtlCache Key Value := cache.insert key ⟨value, now + ttl⟩
  if limit < inserted.keys.length then prune inserted now else inserted

/-- Read through the cache: a hit, or a computed value that is then stored, at an instant of its own. -/
def fetch (cache : TtlCache Key Value) (now later ttl : Int) (limit : Nat) (key : Key) (value : Value) :
    Value × TtlCache Key Value :=
  match cache.get now key with
  | some hit => (hit, cache)
  | none => (value, cache.put later ttl limit key value)

variable {cache : TtlCache Key Value} {now ttl : Int} {limit : Nat} {key : Key} {value : Value}

theorem get_eq_some : cache.get now key = some hit ↔
      ∃ entry, cache.lookup key = some entry ∧ now < entry.expires ∧ entry.value = hit := by
  simp only [get, Option.bind_eq_some_iff]
  constructor
  · rintro ⟨entry, found, live⟩
    split at live
    · rename_i fresh
      exact ⟨entry, found, fresh, Option.some.inj live⟩
    · cases live
  · rintro ⟨entry, found, fresh, rfl⟩
    exact ⟨entry, found, by simp [fresh]⟩

theorem lookup_prune :
    (cache.prune now).lookup key = some entry ↔ cache.lookup key = some entry ∧ now < entry.expires := by
  rw [← Option.mem_def, AList.mem_lookup_iff, ← Option.mem_def, AList.mem_lookup_iff]
  simp [prune]

private theorem put_cases (cache : TtlCache Key Value) (now ttl : Int) (limit : Nat) (key : Key)
    (value : Value) :
    cache.put now ttl limit key value = cache.insert key ⟨value, now + ttl⟩ ∨
      cache.put now ttl limit key value = prune (cache.insert key ⟨value, now + ttl⟩) now := by
  simp only [put]
  split
  · exact .inr rfl
  · exact .inl rfl

theorem lookup_put (found : (cache.put now ttl limit key value).lookup other = some entry) :
    (other = key ∧ entry = ⟨value, now + ttl⟩) ∨ cache.lookup other = some entry := by
  have inserted : (cache.insert key ⟨value, now + ttl⟩).lookup other = some entry := by
    rcases put_cases cache now ttl limit key value with kept | swept
    · rwa [kept] at found
    · rw [swept] at found
      exact (lookup_prune.mp found).1
  rcases Table.lookup_insert_cases inserted with ⟨same, row⟩ | ⟨_, inserted⟩
  · exact .inl ⟨same, row.symm⟩
  · exact .inr inserted

theorem get_put (positive : 0 < ttl) (other : Key) : (cache.put now ttl limit key value).get now other =
      if other = key then some value else cache.get now other := by
  have swept : ∀ inserted : TtlCache Key Value,
      (inserted.prune now).get now other = inserted.get now other := by
    intro inserted
    apply Option.ext
    intro hit
    simp only [get_eq_some, lookup_prune]
    constructor
    · rintro ⟨entry, ⟨found, _⟩, live, same⟩
      exact ⟨entry, found, live, same⟩
    · rintro ⟨entry, found, live, same⟩
      exact ⟨entry, ⟨found, live⟩, live, same⟩
  have written : get (cache.insert key ⟨value, now + ttl⟩) now other =
      if other = key then some value else cache.get now other := by
    by_cases same : other = key
    · subst same
      simp only [get, AList.lookup_insert, ↓reduceIte, Option.bind_some]
      rw [if_pos (by omega)]
    · simp [get, AList.lookup_insert_ne same, same]
  rcases put_cases cache now ttl limit key value with kept | sweep
  · rw [kept, written]
  · rw [sweep, swept, written]

/-- The rule for reading through a cache. -/
theorem fetch_spec {known : Key → TtlEntry Value → Prop}
    (stored : ∀ other entry, cache.lookup other = some entry → known other entry)
    (fresh : known key ⟨value, later + ttl⟩) :
    (∀ other entry, (cache.fetch now later ttl limit key value).2.lookup other = some entry →
      known other entry) ∧
    ((cache.fetch now later ttl limit key value).1 = value ∨ ∃ entry, known key entry ∧
      now < entry.expires ∧ (cache.fetch now later ttl limit key value).1 = entry.value) := by
  unfold fetch
  split
  · rename_i hit found
    obtain ⟨entry, present, live, same⟩ := get_eq_some.mp found
    exact ⟨stored, .inr ⟨entry, stored key entry present, live, same.symm⟩⟩
  refine ⟨fun other entry found => ?_, .inl rfl⟩
  rcases lookup_put found with ⟨rfl, rfl⟩ | old
  · exact fresh
  · exact stored other entry old

end TtlCache

end SpectonCr
