/-!
Maps from text to values, kept as lists of pairs in increasing order of the keys.

Order is the order of code points. `insert` replaces the value of a key that is there and
keeps the list sorted, so a map built by insertions lists every key once, in order.
-/

namespace ToolTree.Keyed

variable {α : Type u}

/-- The keys, in the order of the list. -/
def keys (entries : List (String × α)) : List String :=
  entries.map Prod.fst

/-- The value of the first entry with the key. -/
def find? (key : String) : List (String × α) → Option α
  | [] => none
  | (k, v) :: rest => if k = key then some v else find? key rest

/-- The map with `value` at `key`. -/
def insert (key : String) (value : α) : List (String × α) → List (String × α)
  | [] => [(key, value)]
  | (k, v) :: rest =>
    if key < k then (key, value) :: (k, v) :: rest
    else if key = k then (key, value) :: rest
    else (k, v) :: insert key value rest

/-- The map of a list of pairs; a later pair replaces an earlier one with the same key. -/
def ofList (pairs : List (String × α)) : List (String × α) :=
  pairs.foldl (fun m (k, v) => insert k v m) []

/-- Keys in strictly increasing order. -/
def Sorted (entries : List (String × α)) : Prop :=
  (keys entries).Pairwise (· < ·)

/-! ### Look-up after an insertion -/

theorem find?_insert_self (key : String) (value : α) (m : List (String × α)) :
    find? key (insert key value m) = some value := by
  induction m with
  | nil => simp [insert, find?]
  | cons e rest ih =>
    obtain ⟨k, v⟩ := e
    simp only [insert]
    split
    · simp [find?]
    · split
      · simp [find?]
      · next hne => simp [find?, ih, Ne.symm hne]

theorem find?_insert_of_ne {key other : String} (h : key ≠ other) (value : α)
    (m : List (String × α)) : find? other (insert key value m) = find? other m := by
  induction m with
  | nil => simp [insert, find?, h]
  | cons e rest ih =>
    obtain ⟨k, v⟩ := e
    simp only [insert]
    split
    · simp [find?, h]
    · split
      · next heq => subst heq; simp [find?, h]
      · simp [find?, ih]

/-! ### Order -/

theorem mem_keys_insert (key : String) (value : α) (m : List (String × α)) (k : String) :
    k ∈ keys (insert key value m) ↔ k = key ∨ k ∈ keys m := by
  induction m with
  | nil => simp [insert, keys]
  | cons e rest ih =>
    obtain ⟨k', v⟩ := e
    simp only [keys] at ih
    simp only [insert]
    split
    · simp [keys]
    · split
      · next h => subst h; simp [keys]
      · simp [keys, ih, or_left_comm]

theorem Sorted.insert {m : List (String × α)} (h : Sorted m) (key : String) (value : α) :
    Sorted (Keyed.insert key value m) := by
  induction m with
  | nil => simp [Keyed.insert, Sorted, keys]
  | cons e rest ih =>
    obtain ⟨k, v⟩ := e
    simp only [Sorted, keys, List.map_cons, List.pairwise_cons] at h ih
    simp only [Keyed.insert]
    split
    · next hlt =>
      simp only [Sorted, keys, List.map_cons, List.pairwise_cons, List.mem_cons]
      refine ⟨?_, h⟩
      rintro other (rfl | hmem)
      · exact hlt
      · exact String.lt_trans hlt (h.1 other hmem)
    · next hnot =>
      split
      · next heq =>
        subst heq
        simpa only [Sorted, keys, List.map_cons, List.pairwise_cons] using h
      · next hne =>
        simp only [Sorted, keys, List.map_cons, List.pairwise_cons]
        refine ⟨?_, ih h.2⟩
        intro other hmem
        rcases (mem_keys_insert key value rest other).mp hmem with rfl | hrest
        · exact Std.lt_of_le_of_ne (Std.not_lt.mp hnot) (Ne.symm hne)
        · exact h.1 other hrest

/-- A map that is built by insertions is in order. -/
theorem sorted_ofList (pairs : List (String × α)) : Sorted (ofList pairs) := by
  suffices h : ∀ m : List (String × α), Sorted m →
      Sorted (pairs.foldl (fun m (k, v) => Keyed.insert k v m) m) from h [] .nil
  induction pairs with
  | nil => intro m h; exact h
  | cons e rest ih => intro m h; exact ih _ (h.insert e.1 e.2)

/-! ### Entries -/

theorem Sorted.nodup {m : List (String × α)} (h : Sorted m) : (keys m).Nodup := by
  refine List.Pairwise.imp ?_ h
  rintro key _ less rfl
  exact String.lt_irrefl key less

/-- A new key adds its entry and drops none. -/
theorem perm_insert {key : String} {m : List (String × α)} (fresh : key ∉ keys m) (value : α) :
    (insert key value m).Perm ((key, value) :: m) := by
  induction m with
  | nil => exact .refl _
  | cons e rest ih =>
    obtain ⟨k, v⟩ := e
    simp only [keys, List.map_cons, List.mem_cons, not_or] at fresh
    simp only [insert]
    split
    · exact .refl _
    · rw [if_neg fresh.1]
      exact ((ih fresh.2).cons (k, v)).trans (.swap _ _ rest)

/-- Where no key occurs twice, what is found under a key is its entry. -/
theorem find?_eq_some_iff_mem {m : List (String × α)} (distinct : (keys m).Nodup) {key : String}
    {value : α} : find? key m = some value ↔ (key, value) ∈ m := by
  induction m with
  | nil => simp [find?]
  | cons e rest ih =>
    obtain ⟨k, v⟩ := e
    simp only [keys, List.map_cons, List.nodup_cons] at distinct
    rw [find?, List.mem_cons, Prod.mk.injEq]
    by_cases same : k = key
    · subst same
      have absent : (k, value) ∉ rest := fun mem => distinct.1 (List.mem_map_of_mem mem)
      simp [absent, eq_comm]
    · rw [if_neg same, ih distinct.2]
      simp [Ne.symm same]

/-- What is kept in the order of distinct keys does not depend on any other order. -/
theorem Sorted.eq_of_perm {m m' : List (String × α)} (sorted : Sorted m) (sorted' : Sorted m')
    (perm : m.Perm m') : m = m' := by
  refine perm.eq_of_pairwise ?_ (List.pairwise_map.mp sorted) (List.pairwise_map.mp sorted')
  intro entry entry' _ _ before after
  exact absurd (String.lt_trans before after) (String.lt_irrefl _)

/-- Maps that give the same values are the same. -/
theorem Sorted.eq_of_find? {m m' : List (String × α)} (sorted : Sorted m) (sorted' : Sorted m')
    (same : ∀ key, find? key m = find? key m') : m = m' := by
  have distinct {m : List (String × α)} (sorted : Sorted m) : m.Nodup := by
    refine List.Pairwise.imp ?_ (List.pairwise_map.mp sorted)
    rintro entry _ less rfl
    exact String.lt_irrefl _ less
  refine sorted.eq_of_perm sorted' ?_
  refine (List.perm_ext_iff_of_nodup (distinct sorted) (distinct sorted')).mpr ?_
  rintro ⟨key, value⟩
  rw [← find?_eq_some_iff_mem sorted.nodup, same, find?_eq_some_iff_mem sorted'.nodup]

/-- Insertions under different keys can be made in either order. -/
theorem Sorted.insert_comm {m : List (String × α)} (sorted : Sorted m) {key key' : String}
    (apart : key ≠ key') (value value' : α) :
    Keyed.insert key value (Keyed.insert key' value' m) =
      Keyed.insert key' value' (Keyed.insert key value m) := by
  refine ((sorted.insert _ _).insert _ _).eq_of_find? ((sorted.insert _ _).insert _ _) ?_
  intro other
  by_cases first : key = other
  · subst first
    rw [find?_insert_self, find?_insert_of_ne apart.symm, find?_insert_self]
  · by_cases second : key' = other
    · subst second
      rw [find?_insert_of_ne first, find?_insert_self, find?_insert_self]
    · rw [find?_insert_of_ne first, find?_insert_of_ne second, find?_insert_of_ne second,
        find?_insert_of_ne first]

theorem forall_insert {P : α → Prop} {key : String} {value : α} {m : List (String × α)}
    (head : P value) (all : ∀ entry ∈ m, P entry.2) : ∀ entry ∈ insert key value m, P entry.2 := by
  induction m with
  | nil => simpa [insert] using head
  | cons entry rest ih =>
    obtain ⟨k, v⟩ := entry
    obtain ⟨first, others⟩ := List.forall_mem_cons.mp all
    simp only [insert]
    split
    · exact List.forall_mem_cons.mpr ⟨head, all⟩
    · split
      · exact List.forall_mem_cons.mpr ⟨head, others⟩
      · exact List.forall_mem_cons.mpr ⟨first, ih others⟩

/-- What holds of all values that are put into a map holds of all values in it. -/
theorem forall_ofList {P : α → Prop} {pairs : List (String × α)} (all : ∀ pair ∈ pairs, P pair.2) :
    ∀ entry ∈ ofList pairs, P entry.2 := by
  suffices h : ∀ m : List (String × α), (∀ entry ∈ m, P entry.2) →
      ∀ entry ∈ pairs.foldl (fun m (k, v) => insert k v m) m, P entry.2 from h [] (by simp)
  induction pairs with
  | nil => exact fun m h => h
  | cons pair rest ih =>
    obtain ⟨first, others⟩ := List.forall_mem_cons.mp all
    exact fun m h => ih others _ (forall_insert first h)

end ToolTree.Keyed
