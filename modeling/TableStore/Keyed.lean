/-
Finite maps keyed by text.

A map is a list of entries in strictly rising order of keys, so two maps with the same values at every key are equal
(`ext_find?`), in whatever order they were filled.
-/
namespace TableStore

/-- a finite map from text to `β`, its entries in rising order of keys -/
structure Keyed (β : Type) where
  entries : List (String × β)
  rising : entries.Pairwise fun a b => a.1 < b.1
  deriving DecidableEq

namespace Keyed
variable {β : Type}

def empty : Keyed β := ⟨[], .nil⟩

instance : EmptyCollection (Keyed β) := ⟨empty⟩
instance : Inhabited (Keyed β) := ⟨empty⟩

def keys (m : Keyed β) : List String := m.entries.map (·.1)

/-- the value at a key in a list of entries -/
def findIn (l : List (String × β)) (key : String) : Option β := (l.find? (·.1 == key)).map (·.2)

/-- the value at a key -/
def find? (m : Keyed β) (key : String) : Option β := findIn m.entries key

def contains (m : Keyed β) (key : String) : Bool := (m.find? key).isSome

/-- the entries with a value put at a key, instead of the one that was there -/
def put (key : String) (value : β) : List (String × β) → List (String × β)
  | [] => [(key, value)]
  | (k, v) :: rest =>
    if key < k then (key, value) :: (k, v) :: rest
    else if key = k then (key, value) :: rest
    else (k, v) :: put key value rest

theorem mem_put {key : String} {value : β} {l : List (String × β)} {e : String × β} (h : e ∈ put key value l) :
    e = (key, value) ∨ e ∈ l := by
  induction l with
  | nil => exact .inl (by simpa [put] using h)
  | cons e' rest ih =>
    obtain ⟨k, v⟩ := e'
    simp only [put] at h
    split at h
    · simpa using h
    · split at h
      · rcases List.mem_cons.1 h with h | h
        · exact .inl h
        · exact .inr (List.mem_cons_of_mem _ h)
      · rcases List.mem_cons.1 h with h | h
        · exact .inr (h ▸ List.mem_cons_self)
        · exact (ih h).imp_right (List.mem_cons_of_mem _)

theorem rising_put {key : String} {value : β} {l : List (String × β)} (h : l.Pairwise fun a b => a.1 < b.1) :
    (put key value l).Pairwise fun a b => a.1 < b.1 := by
  induction l with
  | nil => exact List.pairwise_singleton _ _
  | cons e rest ih =>
    obtain ⟨k, v⟩ := e
    obtain ⟨above, rest_rising⟩ := List.pairwise_cons.1 h
    simp only [put]
    split
    · rename_i lt
      refine List.pairwise_cons.2 ⟨fun e he => ?_, h⟩
      rcases List.mem_cons.1 he with rfl | he
      · exact lt
      · exact String.lt_trans lt (above e he)
    · split
      · rename_i eq
        exact List.pairwise_cons.2 ⟨fun e he => eq ▸ above e he, rest_rising⟩
      · rename_i not_lt ne
        refine List.pairwise_cons.2 ⟨fun e he => ?_, ih rest_rising⟩
        rcases mem_put he with rfl | he
        · exact (Std.lt_trichotomy k key).resolve_right fun h => h.elim (fun h => ne h.symm) not_lt
        · exact above e he

/-- the map with a value put at a key, instead of the one that was there -/
def insert (m : Keyed β) (key : String) (value : β) : Keyed β :=
  ⟨put key value m.entries, rising_put m.rising⟩

/-- the map filled with pairs in turn: of a key that is repeated the last value counts -/
def ofPairs (pairs : List (String × β)) : Keyed β :=
  pairs.foldl (fun m (key, value) => m.insert key value) ∅

/-! ## What is found -/

theorem findIn_cons (k : String) (v : β) (rest : List (String × β)) (key : String) :
    findIn ((k, v) :: rest) key = if k = key then some v else findIn rest key := by
  by_cases h : k = key <;> simp [findIn, h]

theorem findIn_put (key k : String) (value : β) (l : List (String × β)) :
    findIn (put key value l) k = if key = k then some value else findIn l k := by
  induction l with
  | nil => exact findIn_cons ..
  | cons e rest ih =>
    obtain ⟨k', v⟩ := e
    simp only [put]
    split
    · exact findIn_cons ..
    · split
      · rename_i eq
        subst eq
        simp only [findIn_cons]
        split <;> rfl
      · rename_i ne
        simp only [findIn_cons, ih]
        split
        · rename_i eq
          rw [if_neg (fun h => ne (h.trans eq.symm))]
        · rfl

/-- below the first key of a map nothing is found -/
theorem findIn_eq_none {l : List (String × β)} {key : String} (h : ∀ e ∈ l, key < e.1) : findIn l key = none := by
  simp only [findIn, Option.map_eq_none_iff, List.find?_eq_none, beq_iff_eq]
  exact fun e he eq => String.lt_irrefl key (eq ▸ h e he)

theorem entries_ext {l m : List (String × β)} (hl : l.Pairwise fun a b => a.1 < b.1)
    (hm : m.Pairwise fun a b => a.1 < b.1) (h : ∀ key, findIn l key = findIn m key) : l = m := by
  induction l generalizing m with
  | nil =>
    cases m with
    | nil => rfl
    | cons e rest => simpa [findIn_cons, findIn] using h e.1
  | cons e rest ih =>
    obtain ⟨k, v⟩ := e
    obtain ⟨above, rest_rising⟩ := List.pairwise_cons.1 hl
    cases m with
    | nil => simpa [findIn_cons, findIn] using h k
    | cons e' rest' =>
      obtain ⟨k', v'⟩ := e'
      obtain ⟨above', rest_rising'⟩ := List.pairwise_cons.1 hm
      have not_lt : ¬ k < k' := fun lt => by
        have := h k
        rw [findIn_cons, if_pos rfl, findIn_eq_none] at this
        · cases this
        · intro e he
          rcases List.mem_cons.1 he with rfl | he
          · exact lt
          · exact String.lt_trans lt (above' e he)
      have not_gt : ¬ k' < k := fun lt => by
        have := h k'
        rw [findIn_cons (k := k'), if_pos rfl, findIn_eq_none] at this
        · cases this
        · intro e he
          rcases List.mem_cons.1 he with rfl | he
          · exact lt
          · exact String.lt_trans lt (above e he)
      have eq : k = k' := ((Std.lt_trichotomy k k').resolve_left not_lt).resolve_right not_gt
      subst eq
      have head := h k
      simp only [findIn_cons, if_pos] at head
      cases head
      refine congrArg _ (ih rest_rising rest_rising' fun key => ?_)
      have same := h key
      simp only [findIn_cons] at same
      split at same
      · rename_i eq
        subst eq
        rw [findIn_eq_none above, findIn_eq_none above']
      · exact same

/-- maps with the same value at every key are the same map -/
theorem ext_find? {m n : Keyed β} (h : ∀ key, m.find? key = n.find? key) : m = n := by
  obtain ⟨l, hl⟩ := m
  obtain ⟨l', hl'⟩ := n
  cases entries_ext hl hl' h
  rfl

theorem find?_empty (key : String) : (∅ : Keyed β).find? key = none := rfl

theorem find?_insert (m : Keyed β) (key k : String) (value : β) :
    (m.insert key value).find? k = if key = k then some value else m.find? k :=
  findIn_put key k value m.entries

end Keyed

/-- one stored row: the value of every column that was given one -/
abbrev Row := Keyed String

end TableStore
