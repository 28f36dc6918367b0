import Mathlib.Data.Finmap

/-! Finite maps without an order: what a program can observe of a hash map through
lookup, insertion and removal. Iteration order is not part of the value. -/

namespace LocalServer.Library

abbrev HashMap (α β : Type*) := Finmap fun _ : α => β

namespace HashMap

variable {α β : Type*} [DecidableEq α]

def empty : HashMap α β := ∅

def get (map : HashMap α β) (key : α) : Option β := map.lookup key

def insert (map : HashMap α β) (key : α) (value : β) : HashMap α β := Finmap.insert key value map

def remove (map : HashMap α β) (key : α) : HashMap α β := map.erase key

def retain (keep : α → β → Bool) (map : HashMap α β) : HashMap α β where
  entries := map.entries.filter fun entry => keep entry.1 entry.2
  nodupKeys := Multiset.nodup_keys.mp <|
    Multiset.nodup_of_le (Multiset.map_le_map (Multiset.filter_le _ _)) map.nodupKeys.nodup_keys

/-- Pairs inserted in order, so that the last one wins for a repeated key. -/
def ofPairs (pairs : List (α × β)) : HashMap α β :=
  pairs.foldl (fun map pair => map.insert pair.1 pair.2) empty

variable (map : HashMap α β) (key other : α) (value : β)

@[simp] theorem get_empty : (empty : HashMap α β).get key = none := Finmap.lookup_empty key

@[simp] theorem get_insert_self : (map.insert key value).get key = some value :=
  Finmap.lookup_insert map

theorem get_insert_of_ne (different : other ≠ key) :
    (map.insert key value).get other = map.get other :=
  Finmap.lookup_insert_of_ne map different

theorem get_insert : (map.insert key value).get other =
    if other = key then some value else map.get other := by
  split_ifs with same
  · rw [same, get_insert_self]
  · exact get_insert_of_ne map key other value same

@[simp] theorem get_remove_self : (map.remove key).get key = none := Finmap.lookup_erase key map

theorem get_remove_of_ne (different : other ≠ key) : (map.remove key).get other = map.get other :=
  Finmap.lookup_erase_ne different

theorem get_remove : (map.remove key).get other =
    if other = key then none else map.get other := by
  split_ifs with same
  · rw [same, get_remove_self]
  · exact get_remove_of_ne map key other same

theorem get_retain (keep : α → β → Bool) :
    (map.retain keep).get key = (map.get key).filter (keep key) := by
  ext found
  rw [Option.filter_eq_some_iff, get, get, Finmap.lookup_eq_some_iff, Finmap.lookup_eq_some_iff]
  exact Multiset.mem_filter

theorem ext_get {first second : HashMap α β} (same : ∀ key, first.get key = second.get key) :
    first = second := Finmap.ext_lookup same

theorem get_foldl_insert {pairs : List (α × β)} (absent : key ∉ pairs.map Prod.fst) :
    (pairs.foldl (fun map pair => map.insert pair.1 pair.2) map).get key = map.get key := by
  induction pairs generalizing map with
  | nil => rfl
  | cons pair pairs ih =>
    rw [List.map_cons, List.mem_cons, not_or] at absent
    rw [List.foldl_cons, ih _ absent.2, get_insert_of_ne _ _ _ _ absent.1]

/-- With distinct keys the pairs are all there, whatever their order. -/
theorem get_ofPairs {pairs : List (α × β)} (distinct : (pairs.map Prod.fst).Nodup) (key : α)
    (value : β) : (ofPairs pairs).get key = some value ↔ (key, value) ∈ pairs := by
  suffices general : ∀ map : HashMap α β, map.get key = none →
      ((pairs.foldl (fun map pair => map.insert pair.1 pair.2) map).get key = some value ↔
        (key, value) ∈ pairs) from general empty (get_empty key)
  induction pairs with
  | nil =>
    intro map absent
    simp [absent]
  | cons pair pairs ih =>
    rw [List.map_cons, List.nodup_cons] at distinct
    intro map absent
    rw [List.foldl_cons, List.mem_cons]
    by_cases same : key = pair.1
    · subst same
      rw [get_foldl_insert _ _ distinct.1, get_insert_self, Option.some.injEq]
      constructor
      · intro same
        subst same
        exact Or.inl rfl
      · intro member
        rcases member with found | later
        · rw [← found]
        · exact absurd (List.mem_map_of_mem later) distinct.1
    · rw [ih distinct.2 _ (by rw [get_insert_of_ne _ _ _ _ same, absent])]
      constructor
      · exact Or.inr
      · intro member
        rcases member with found | later
        · exact absurd (congrArg Prod.fst found) same
        · exact later

theorem mem_of_get_ofPairs {pairs : List (α × β)} {key : α} {value : β}
    (found : (ofPairs pairs).get key = some value) : (key, value) ∈ pairs := by
  suffices general : ∀ map : HashMap α β,
      (pairs.foldl (fun map pair => map.insert pair.1 pair.2) map).get key = some value →
        (key, value) ∈ pairs ∨ map.get key = some value by
    rcases general empty found with member | inEmpty
    · exact member
    · rw [get_empty] at inEmpty
      cases inEmpty
  clear found
  induction pairs with
  | nil => exact fun map found => Or.inr found
  | cons pair pairs ih =>
    intro map found
    rcases ih _ found with member | earlier
    · exact Or.inl (List.mem_cons_of_mem _ member)
    · rw [get_insert] at earlier
      split_ifs at earlier with same
      · cases earlier
        rw [same]
        exact Or.inl List.mem_cons_self
      · exact Or.inr earlier

theorem ofPairs_perm {first second : List (α × β)} (perm : first.Perm second)
    (distinct : (second.map Prod.fst).Nodup) : ofPairs first = ofPairs second := by
  have distinct' : (first.map Prod.fst).Nodup := (perm.map Prod.fst).nodup_iff.mpr distinct
  apply ext_get
  intro key
  apply Option.ext
  intro value
  rw [get_ofPairs distinct', get_ofPairs distinct, perm.mem_iff]

def push (key : β → α) (groups : HashMap α (List β)) (value : β) : HashMap α (List β) :=
  groups.insert (key value) ((groups.get (key value)).getD [] ++ [value])

/-- The values by their keys, each group in the order of the list. -/
def groupBy (key : β → α) (values : List β) : HashMap α (List β) :=
  values.foldl (push key) empty

theorem groupBy_concat (keyOf : β → α) (values : List β) (last : β) :
    groupBy keyOf (values ++ [last]) = push keyOf (groupBy keyOf values) last := by
  unfold groupBy
  rw [List.foldl_append, List.foldl_cons, List.foldl_nil]

/-- A group is what the list holds under its key, and no group is empty. -/
theorem get_groupBy (keyOf : β → α) (values : List β) (key : α) :
    (groupBy keyOf values).get key =
      if values.filter (keyOf · = key) = [] then none else some (values.filter (keyOf · = key)) := by
  induction values using List.reverseRecOn with
  | nil => simp [groupBy]
  | append_singleton values last ih =>
    rw [groupBy_concat, push, get_insert, List.filter_append]
    by_cases same : key = keyOf last
    · subst same
      rw [if_pos rfl, ih]
      by_cases fresh : values.filter (keyOf · = keyOf last) = []
      · simp [fresh]
      · simp [fresh]
    · have other : keyOf last ≠ key := fun equal => same equal.symm
      rw [if_neg same, ih]
      simp [other]

theorem get_groupBy_eq_some {keyOf : β → α} {values : List β} {key : α} {group : List β} :
    (groupBy keyOf values).get key = some group ↔
      group = values.filter (keyOf · = key) ∧ group ≠ [] := by
  rw [get_groupBy]
  by_cases none : values.filter (keyOf · = key) = []
  · rw [if_pos none, none]
    simp
  · rw [if_neg none, Option.some.injEq]
    constructor
    · intro same
      subst same
      exact ⟨rfl, none⟩
    · exact fun both => both.1.symm

end HashMap

end LocalServer.Library
