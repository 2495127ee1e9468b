import Mathlib

/-!
`std::unordered_map` and `std::unordered_set` as association lists without
duplicate keys. The order of the entries stands for the unspecified order in
which the container is iterated, so a result about every map is a result about
every iteration order.
-/

namespace RProxy

universe u v

abbrev UnorderedMap (Key : Type u) (Value : Type v) := AList fun _ : Key => Value

abbrev UnorderedSet (Key : Type u) := UnorderedMap Key Unit

namespace UnorderedMap

variable {Key : Type u} {Value : Type v} [DecidableEq Key]

/-- `emplace` keeps the value of a key that is already present. -/
def emplace (map : UnorderedMap Key Value) (key : Key) (value : Value) : UnorderedMap Key Value :=
  if key ∈ map then map else map.insert key value

/-- Assignment through a reference to the value of `key`, if there is one. -/
def modify (map : UnorderedMap Key Value) (key : Key) (change : Value → Value) :
    UnorderedMap Key Value where
  entries := map.entries.map fun entry =>
    ⟨entry.1, if entry.1 = key then change entry.2 else entry.2⟩
  nodupKeys := by
    have same := map.nodupKeys
    rw [List.NodupKeys, List.keys] at same ⊢
    rwa [List.map_map, Function.comp_def]

theorem lookup_modify (map : UnorderedMap Key Value) (key other : Key) (change : Value → Value) :
    (map.modify key change).lookup other =
      if other = key then (map.lookup key).map change else map.lookup other := by
  obtain ⟨entries, nodup⟩ := map
  simp only [AList.lookup, modify]
  clear nodup
  induction entries with
  | nil => simp
  | cons entry rest ih =>
      obtain ⟨first, value⟩ := entry
      rw [List.map_cons]
      by_cases hit : other = first
      · subst hit
        by_cases same : other = key
        · subst same
          simp
        · simp [same]
      · have skipped : (⟨first, value⟩ :: rest : List (Sigma fun _ : Key => Value)).dlookup other =
            rest.dlookup other := List.dlookup_cons_ne rest _ hit
        rw [List.dlookup_cons_ne _ _ hit, ih, skipped]
        by_cases same : other = key
        · subst same
          rw [skipped]
        · simp [same]

theorem mem_of_lookup {map : UnorderedMap Key Value} {key : Key} {value : Value}
    (found : map.lookup key = some value) : key ∈ map :=
  AList.lookup_isSome.mp (by simp [found])

theorem lookup_of_mem {map : UnorderedMap Key Value} {key : Key} (present : key ∈ map) :
    ∃ value, map.lookup key = some value :=
  Option.isSome_iff_exists.mp (AList.lookup_isSome.mpr present)

@[simp] theorem keys_modify (map : UnorderedMap Key Value) (key : Key) (change : Value → Value) :
    (map.modify key change).keys = map.keys := by
  simp [AList.keys, List.keys, modify, Function.comp_def]

@[simp] theorem mem_modify (map : UnorderedMap Key Value) (key other : Key)
    (change : Value → Value) : other ∈ map.modify key change ↔ other ∈ map := by
  rw [AList.mem_keys, keys_modify, ← AList.mem_keys]

omit [DecidableEq Key] in
theorem length_keys (map : UnorderedMap Key Value) : map.keys.length = map.entries.length := by
  simp [AList.keys, List.keys]

theorem lookup_erase_if (map : UnorderedMap Key Value) (key other : Key) :
    (AList.erase key map).lookup other = if other = key then none else map.lookup other := by
  by_cases same : other = key
  · subst same; simp
  · simp [same, AList.lookup_erase_ne same]

/-- What is found in a map that lost an entry was there before. -/
theorem lookup_of_erase {map : UnorderedMap Key Value} {key other : Key} {value : Value}
    (found : AList.lookup other (AList.erase key map) = some value) :
    map.lookup other = some value := by
  rw [lookup_erase_if] at found
  split at found
  · cases found
  · exact found

theorem lookup_insert_if (map : UnorderedMap Key Value) (key other : Key) (value : Value) :
    (AList.insert key value map).lookup other =
      if other = key then some value else map.lookup other := by
  by_cases same : other = key
  · subst same; simp
  · simp [same, AList.lookup_insert_ne same]

theorem lookup_emplace (map : UnorderedMap Key Value) (key other : Key) (value : Value) :
    (map.emplace key value).lookup other =
      if other = key then some ((map.lookup key).getD value) else map.lookup other := by
  unfold emplace
  by_cases present : key ∈ map
  · obtain ⟨stored, found⟩ := lookup_of_mem present
    by_cases same : other = key
    · subst same; simp [present, found]
    · simp [present, same]
  · have absent := AList.lookup_eq_none.mpr present
    simp only [present, ↓reduceIte, lookup_insert_if, absent, Option.getD_none]

theorem lookup_emplace_cases {map : UnorderedMap Key Value} {key other : Key}
    {value stored : Value} (found : (map.emplace key value).lookup other = some stored) :
    map.lookup other = some stored ∨ other = key ∧ stored = value := by
  rw [lookup_emplace] at found
  split at found
  · next same =>
      subst same
      cases before : map.lookup other with
      | none =>
          rw [before] at found
          exact Or.inr ⟨rfl, (Option.some.inj found).symm⟩
      | some earlier =>
          rw [before] at found
          exact Or.inl found
  · exact Or.inl found

theorem lookup_emplace_fresh {map : UnorderedMap Key Value} {key : Key}
    (fresh : map.lookup key = none) (other : Key) (value : Value) :
    (map.emplace key value).lookup other =
      if other = key then some value else map.lookup other := by
  rw [lookup_emplace, fresh, Option.getD_none]

theorem mem_emplace (map : UnorderedMap Key Value) (key other : Key) (value : Value) :
    other ∈ map.emplace key value ↔ other = key ∨ other ∈ map := by
  rw [← AList.lookup_isSome, lookup_emplace, ← AList.lookup_isSome]
  by_cases same : other = key <;> simp [same]

theorem keys_emplace {map : UnorderedMap Key Value} {key : Key} (absent : key ∉ map)
    (value : Value) : (map.emplace key value).keys = key :: map.keys := by
  rw [emplace, if_neg absent, AList.keys_insert, List.erase_of_not_mem absent]

section Inverse

variable [DecidableEq Value]

/-- Two maps that are each other's inverse. -/
def Inverse (map : UnorderedMap Key Value) (reversed : UnorderedMap Value Key) : Prop :=
  ∀ key value, map.lookup key = some value ↔ reversed.lookup value = some key

theorem inverse_empty : Inverse (∅ : UnorderedMap Key Value) ∅ := by
  intro key value
  simp

theorem Inverse.emplace {map : UnorderedMap Key Value} {reversed : UnorderedMap Value Key}
    (inverse : Inverse map reversed) {key : Key} {value : Value} (newKey : key ∉ map)
    (newValue : value ∉ reversed) :
    Inverse (map.emplace key value) (reversed.emplace value key) := by
  have noKey := AList.lookup_eq_none.mpr newKey
  have noValue := AList.lookup_eq_none.mpr newValue
  intro other found
  rw [lookup_emplace_fresh noKey, lookup_emplace_fresh noValue]
  by_cases sameKey : other = key
  · by_cases sameValue : found = value
    · simp [sameKey, sameValue]
    · have absent : reversed.lookup found ≠ some key := by
        intro wrong
        rw [(inverse key found).mpr wrong] at noKey
        cases noKey
      simp [sameKey, sameValue, absent, Ne.symm sameValue]
  · by_cases sameValue : found = value
    · have absent : map.lookup other ≠ some value := by
        intro wrong
        rw [(inverse other value).mp wrong] at noValue
        cases noValue
      simp [sameKey, sameValue, absent, Ne.symm sameKey]
    · simpa [sameKey, sameValue] using inverse other found

theorem Inverse.erase {map : UnorderedMap Key Value} {reversed : UnorderedMap Value Key}
    (inverse : Inverse map reversed) {key : Key} {value : Value}
    (present : map.lookup key = some value) :
    Inverse (AList.erase key map) (AList.erase value reversed) := by
  intro other found
  rw [lookup_erase_if, lookup_erase_if]
  by_cases sameKey : other = key
  · by_cases sameValue : found = value
    · simp [sameKey, sameValue]
    · have absent : reversed.lookup found ≠ some key := by
        intro wrong
        rw [(inverse key found).mpr wrong] at present
        exact sameValue (Option.some.inj present)
      simp [sameKey, sameValue, absent]
  · by_cases sameValue : found = value
    · have absent : map.lookup other ≠ some value := by
        intro wrong
        have back := (inverse other value).mp wrong
        rw [(inverse key value).mp present] at back
        exact sameKey (Option.some.inj back).symm
      simp [sameKey, sameValue, absent]
    · simpa [sameKey, sameValue] using inverse other found

end Inverse
end UnorderedMap
end RProxy
