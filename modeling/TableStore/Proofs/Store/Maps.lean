/-
Finite maps filled from pairs.

Of a key that is repeated the last pair counts (`find?_ofPairs`), so the entries of a map, which repeat none, fill the
same map again, in whatever order (`ofPairs_perm`). The keys of a map are those at which something is found (`mem_keys_iff`). A map
that is not there yet is read as an empty one (`find?_getD`).
-/
import Mathlib.Tactic
import TableStore.Keyed

namespace TableStore.Keyed

variable {β : Type}

theorem findIn_append (first second : List (String × β)) (key : String) :
    findIn (first ++ second) key = (findIn first key).or (findIn second key) := by
  rw [findIn, List.find?_append]
  cases h : first.find? (·.1 == key) <;> simp [findIn, h]

theorem find?_foldl_insert (pairs : List (String × β)) (m : Keyed β) (key : String) :
    (pairs.foldl (fun m (key, value) => m.insert key value) m).find? key
      = (findIn pairs.reverse key).or (m.find? key) := by
  induction pairs generalizing m with
  | nil => rfl
  | cons pair rest ih =>
    obtain ⟨k, value⟩ := pair
    rw [List.foldl_cons, ih, find?_insert, List.reverse_cons, findIn_append, findIn_cons, Option.or_assoc]
    by_cases h : k = key <;> simp [h, findIn]

/-- of a key that is repeated the last pair counts -/
theorem find?_ofPairs (pairs : List (String × β)) (key : String) :
    (ofPairs pairs).find? key = findIn pairs.reverse key := by
  rw [ofPairs, find?_foldl_insert, find?_empty, Option.or_none]

/-- of distinct keys each is found with the value that stands with it -/
theorem findIn_eq_some_iff {l : List (String × β)} (distinct : (l.map (·.1)).Nodup) {key : String} {value : β} :
    findIn l key = some value ↔ (key, value) ∈ l := by
  induction l with
  | nil => simp [findIn]
  | cons pair rest ih =>
    obtain ⟨k, v⟩ := pair
    obtain ⟨new, distinct⟩ := List.nodup_cons.1 distinct
    rw [findIn_cons, List.mem_cons, Prod.mk.injEq]
    by_cases here : k = key
    · subst here
      have absent : (k, value) ∉ rest := fun mem => new (List.mem_map.2 ⟨(k, value), mem, rfl⟩)
      simp [absent, eq_comm]
    · simp [here, Ne.symm here, ih distinct]

theorem nodup_keys (m : Keyed β) : (m.entries.map (·.1)).Nodup :=
  List.pairwise_map.2 (m.rising.imp fun lt => String.ne_of_lt lt)

/-- the entries of a map fill the same map again, in any order -/
theorem ofPairs_perm {pairs : List (String × β)} {m : Keyed β} (h : pairs.Perm m.entries) : ofPairs pairs = m := by
  have reversed : pairs.reverse.Perm m.entries := (List.reverse_perm pairs).trans h
  have distinct : (pairs.reverse.map (·.1)).Nodup := (reversed.map _).nodup_iff.2 m.nodup_keys
  refine ext_find? fun key => Option.ext fun value => ?_
  rw [find?_ofPairs, findIn_eq_some_iff distinct, reversed.mem_iff]
  exact (findIn_eq_some_iff m.nodup_keys).symm

/-! ## Keys -/

theorem isSome_findIn {l : List (String × β)} {key : String} : (findIn l key).isSome ↔ key ∈ l.map (·.1) := by
  simp [findIn]

theorem mem_keys_iff {m : Keyed β} {key : String} : key ∈ m.keys ↔ (m.find? key).isSome := isSome_findIn.symm

theorem mem_keys_ofPairs {pairs : List (String × β)} {key : String} :
    key ∈ (ofPairs pairs).keys ↔ key ∈ pairs.map (·.1) := by
  rw [mem_keys_iff, find?_ofPairs, isSome_findIn, List.map_reverse, List.mem_reverse]

theorem mem_keys_insert {m : Keyed β} {key k : String} {value : β} :
    k ∈ (m.insert key value).keys ↔ k = key ∨ k ∈ m.keys := by
  rw [mem_keys_iff, mem_keys_iff, find?_insert]
  by_cases same : key = k
  · simp [same]
  · simp [same, Ne.symm same]

/-! ## Maps that are there or not -/

theorem find?_getD (content : Option (Keyed β)) (key : String) :
    (content.getD ∅).find? key = content >>= (·.find? key) := by
  cases content <;> rfl

theorem find?_getD_insert (content : Option (Keyed β)) (key k : String) (value : β) :
    (some ((content.getD ∅).insert key value) >>= (·.find? k))
      = if key = k then some value else content >>= (·.find? k) := by
  rw [← find?_getD content]
  exact find?_insert ..

end TableStore.Keyed
