/-!
Ordered tables: pairs of a key and a value, in order of first insertion. Lookup is `List.lookup`. Each operation
keeps distinct keys distinct, so a table that is collected from pairs has every key once.
-/

namespace SchemaGuide

abbrev Entries (α : Type) := List (String × α)

namespace Entries

variable {α β : Type}

def keys (table : Entries α) : List String := table.map Prod.fst

def Distinct (table : Entries α) : Prop := table.keys.Nodup

instance (table : Entries α) : Decidable table.Distinct := inferInstanceAs (Decidable (List.Nodup _))

/-- A known key keeps its place and takes the new value; a new key goes to the end. -/
def put (key : String) (value : α) : Entries α → Entries α
  | [] => [(key, value)]
  | (k, v) :: rest => if k = key then (k, value) :: rest else (k, v) :: put key value rest

/-- The table of a list of pairs: first places, last values. -/
def collect (pairs : List (String × α)) : Entries α :=
  pairs.foldl (fun table (key, value) => put key value table) []

/-- The table without `key`; its last entry moves into the place that becomes free. -/
def swapErase (key : String) : Entries α → Entries α
  | [] => []
  | (k, v) :: rest =>
    if k = key then
      match rest.getLast? with
      | none => []
      | some last => last :: rest.dropLast
    else (k, v) :: swapErase key rest

def adjust (key : String) (change : α → α) : Entries α → Entries α
  | [] => []
  | (k, v) :: rest => if k = key then (k, change v) :: rest else (k, v) :: adjust key change rest

@[simp] theorem keys_adjust (key : String) (change : α → α) (table : Entries α) :
    keys (adjust key change table) = keys table := by
  induction table with
  | nil => rfl
  | cons entry rest ih =>
    unfold adjust
    split
    · rfl
    · simpa [keys] using ih

theorem lookup_isSome_iff {table : Entries α} {key : String} : (table.lookup key).isSome ↔ key ∈ keys table := by
  induction table with
  | nil => simp [keys]
  | cons entry rest ih =>
    obtain ⟨k, v⟩ := entry
    by_cases same : key = k
    · simp [same, keys]
    · rw [List.lookup_cons, beq_false_of_ne same, ih]
      simp [keys, same]

theorem lookup_map_value (change : α → β) (key : String) (table : Entries α) :
    (table.map fun entry => (entry.1, change entry.2)).lookup key = (table.lookup key).map change := by
  induction table with
  | nil => rfl
  | cons entry rest ih =>
    rw [List.map_cons, List.lookup_cons, List.lookup_cons]
    split
    · rfl
    · exact ih

theorem lookup_put (key other : String) (value : α) (table : Entries α) :
    (put key value table).lookup other = if other = key then some value else table.lookup other := by
  induction table with
  | nil => by_cases same : other = key <;> simp [put, List.lookup_cons, same, beq_false_of_ne]
  | cons entry rest ih =>
    obtain ⟨k, v⟩ := entry
    unfold put
    by_cases here : k = key
    · subst here
      by_cases same : other = k <;> simp [List.lookup_cons, same, beq_false_of_ne]
    · by_cases same : other = k
      · subst same
        simp [here]
      · simp [here, List.lookup_cons, same, beq_false_of_ne, ih]

theorem mem_keys_put {key other : String} {value : α} {table : Entries α} :
    other ∈ keys (put key value table) ↔ other = key ∨ other ∈ keys table := by
  induction table with
  | nil => simp [put, keys]
  | cons entry rest ih =>
    obtain ⟨k, v⟩ := entry
    unfold put
    by_cases here : k = key
    · subst here
      simp [keys]
    · simp only [keys, here, if_false, List.map_cons, List.mem_cons] at ih ⊢
      rw [ih]
      grind

theorem Distinct.put {table : Entries α} (distinct : table.Distinct) (key : String) (value : α) :
    Distinct (put key value table) := by
  induction table with
  | nil => simp [Entries.put, Distinct, keys]
  | cons entry rest ih =>
    obtain ⟨k, v⟩ := entry
    obtain ⟨fresh, others⟩ := List.nodup_cons.1 distinct
    unfold Entries.put
    by_cases here : k = key
    · simp only [here, if_true]
      exact List.nodup_cons.2 ⟨by simpa [here] using fresh, others⟩
    · simp only [here, if_false]
      refine List.nodup_cons.2 ⟨fun member => ?_, ih others⟩
      exact (mem_keys_put.1 member).elim here fresh

theorem mem_put {key : String} {value : α} {entry : String × α} {table : Entries α}
    (member : entry ∈ put key value table) : entry = (key, value) ∨ entry ∈ table := by
  induction table with
  | nil => exact .inl (by simpa [put] using member)
  | cons first rest ih =>
    obtain ⟨k, v⟩ := first
    unfold put at member
    split at member
    next here =>
      rcases List.mem_cons.1 member with rfl | member
      · exact .inl (by rw [here])
      · exact .inr (List.mem_cons_of_mem _ member)
    next =>
      rcases List.mem_cons.1 member with rfl | member
      · exact .inr List.mem_cons_self
      · exact (ih member).imp id (List.mem_cons_of_mem _)

theorem mem_collect {entry : String × α} {pairs : List (String × α)} (member : entry ∈ collect pairs) :
    entry ∈ pairs := by
  suffices ∀ table : Entries α,
      entry ∈ pairs.foldl (fun table (key, value) => put key value table) table → entry ∈ table ∨ entry ∈ pairs from
    (this [] member).resolve_left (by simp)
  clear member
  induction pairs with
  | nil => exact fun _ member => .inl member
  | cons pair rest ih =>
    intro table member
    rcases ih _ member with put | later
    · rcases mem_put put with rfl | before
      · exact .inr List.mem_cons_self
      · exact .inl before
    · exact .inr (List.mem_cons_of_mem _ later)

theorem distinct_collect (pairs : List (String × α)) : Distinct (collect pairs) := by
  suffices ∀ table : Entries α, table.Distinct →
      Distinct (pairs.foldl (fun table (key, value) => put key value table) table) from
    this [] List.nodup_nil
  induction pairs with
  | nil => exact fun _ distinct => distinct
  | cons pair rest ih => exact fun table distinct => ih _ (distinct.put pair.1 pair.2)

theorem lookup_adjust (key other : String) (change : α → α) (table : Entries α) :
    (adjust key change table).lookup other =
      if other = key then (table.lookup other).map change else table.lookup other := by
  induction table with
  | nil => simp [adjust]
  | cons entry rest ih =>
    obtain ⟨k, v⟩ := entry
    unfold adjust
    by_cases here : k = key
    · subst here
      by_cases same : other = k <;> simp [List.lookup_cons, same, beq_false_of_ne]
    · by_cases same : other = k
      · subst same
        simp [here]
      · simp [here, List.lookup_cons, same, beq_false_of_ne, ih]

theorem mem_of_lookup {table : Entries α} {key : String} {value : α} (found : table.lookup key = some value) :
    (key, value) ∈ table := by
  obtain ⟨before, after, entries, _⟩ := List.lookup_eq_some_iff.1 found
  simp [entries]

theorem mem_adjust {key : String} {change : α → α} {entry : String × α} {table : Entries α}
    (member : entry ∈ adjust key change table) :
    entry ∈ table ∨ ∃ old, table.lookup key = some old ∧ entry = (key, change old) := by
  induction table with
  | nil => simp [adjust] at member
  | cons first rest ih =>
    obtain ⟨k, v⟩ := first
    unfold adjust at member
    split at member
    next here =>
      subst here
      rcases List.mem_cons.1 member with rfl | member
      · exact .inr ⟨v, by simp, rfl⟩
      · exact .inl (List.mem_cons_of_mem _ member)
    next different =>
      rcases List.mem_cons.1 member with rfl | member
      · exact .inl List.mem_cons_self
      · rcases ih member with before | ⟨old, found, rfl⟩
        · exact .inl (List.mem_cons_of_mem _ before)
        · refine .inr ⟨old, ?_, rfl⟩
          rw [List.lookup_cons, beq_false_of_ne (Ne.symm different)]
          exact found

/-- A change to the value that already stands under the key, or to none, is no change. -/
theorem adjust_eq_self {key : String} {change : α → α} {table : Entries α}
    (fixed : ∀ value, table.lookup key = some value → change value = value) : adjust key change table = table := by
  induction table with
  | nil => rfl
  | cons entry rest ih =>
    obtain ⟨k, v⟩ := entry
    unfold adjust
    by_cases here : k = key
    · subst here
      rw [if_pos rfl, fixed v (by simp)]
    · have later : ∀ value, rest.lookup key = some value → change value = value := by
        intro value found
        apply fixed
        rw [List.lookup_cons, beq_false_of_ne (Ne.symm here)]
        exact found
      rw [if_neg here, ih later]

theorem adjust_adjust (key : String) (first second : α → α) (table : Entries α) :
    adjust key second (adjust key first table) = adjust key (second ∘ first) table := by
  induction table with
  | nil => rfl
  | cons entry rest ih =>
    obtain ⟨k, v⟩ := entry
    by_cases here : k = key
    · simp [adjust, here]
    · simp [adjust, here, ih]

theorem adjust_append_cons {key : String} {before : Entries α} (absent : key ∉ keys before) (value : α)
    (after : Entries α) (change : α → α) :
    adjust key change (before ++ (key, value) :: after) = before ++ (key, change value) :: after := by
  induction before with
  | nil => simp [adjust]
  | cons entry rest ih =>
    obtain ⟨different, others⟩ := List.ne_and_not_mem_of_not_mem_cons absent
    rw [List.cons_append, adjust, if_neg (Ne.symm different), ih others]
    rfl

/-- Where no key occurs twice, every entry is the one that is found under its key. -/
theorem Distinct.lookup_of_mem {table : Entries α} (distinct : table.Distinct) {key : String} {value : α}
    (member : (key, value) ∈ table) : table.lookup key = some value := by
  induction table with
  | nil => simp at member
  | cons entry rest ih =>
    obtain ⟨k, v⟩ := entry
    obtain ⟨fresh, others⟩ := List.nodup_cons.1 distinct
    rcases List.mem_cons.1 member with same | inside
    · cases same
      simp
    · have different : key ≠ k := by
        intro same
        subst same
        exact fresh (List.mem_map.2 ⟨(key, value), inside, rfl⟩)
      rw [List.lookup_cons, beq_false_of_ne different]
      exact ih others inside

/-- The entry of a key stands between others that do not have the key. -/
theorem Distinct.exists_split {table : Entries α} (distinct : table.Distinct) {key : String} {value : α}
    (found : table.lookup key = some value) :
    ∃ before after, table = before ++ (key, value) :: after ∧ key ∉ keys before ∧ key ∉ keys after := by
  induction table with
  | nil => simp at found
  | cons entry rest ih =>
    obtain ⟨k, v⟩ := entry
    obtain ⟨fresh, others⟩ := List.nodup_cons.1 distinct
    by_cases here : key = k
    · subst here
      have same : v = value := by simpa using found
      subst same
      exact ⟨[], rest, rfl, by simp [keys], fresh⟩
    · rw [List.lookup_cons, beq_false_of_ne here] at found
      obtain ⟨before, after, rfl, absent, last⟩ := ih others found
      refine ⟨(k, v) :: before, after, rfl, fun member => ?_, last⟩
      exact (List.mem_cons.1 member).elim here absent

theorem lookup_eq_none_iff {table : Entries α} {key : String} : table.lookup key = none ↔ key ∉ keys table := by
  rw [← lookup_isSome_iff, Bool.not_eq_true, Option.isSome_eq_false_iff, Option.isNone_iff_eq_none]

theorem put_of_notMem {key : String} (value : α) {table : Entries α} (absent : key ∉ keys table) :
    put key value table = table ++ [(key, value)] := by
  induction table with
  | nil => rfl
  | cons entry rest ih =>
    obtain ⟨different, others⟩ := List.ne_and_not_mem_of_not_mem_cons absent
    unfold put
    rw [if_neg (Ne.symm different), ih others]
    rfl

/-- Pairs without a repeated key are a table as they are. -/
theorem collect_eq_self {pairs : Entries α} (distinct : pairs.Distinct) : collect pairs = pairs := by
  suffices ∀ table : Entries α, Distinct (table ++ pairs) →
      pairs.foldl (fun table (key, value) => put key value table) table = table ++ pairs from this [] distinct
  clear distinct
  induction pairs with
  | nil => exact fun table _ => (List.append_nil table).symm
  | cons pair rest ih =>
    obtain ⟨key, value⟩ := pair
    intro table distinct
    have fresh : key ∉ keys table := by
      intro taken
      rw [Distinct, keys, List.map_append, List.nodup_append] at distinct
      exact distinct.2.2 key taken key List.mem_cons_self rfl
    have moved : table ++ (key, value) :: rest = table ++ [(key, value)] ++ rest := List.append_cons table (key, value) rest
    rw [List.foldl_cons]
    dsimp only
    rw [put_of_notMem value fresh, moved]
    exact ih _ (moved ▸ distinct)

/-- A known key keeps its place. -/
theorem put_of_mem {key : String} (value : α) {table : Entries α} (present : key ∈ keys table) :
    ∃ before old after, table = before ++ (key, old) :: after ∧ key ∉ keys before ∧
      put key value table = before ++ (key, value) :: after := by
  induction table with
  | nil => simp [keys] at present
  | cons entry rest ih =>
    obtain ⟨k, v⟩ := entry
    by_cases here : k = key
    · subst here
      exact ⟨[], v, rest, rfl, by simp [keys], by simp [put]⟩
    · have later : key ∈ keys rest := (List.mem_cons.1 present).resolve_left (Ne.symm here)
      obtain ⟨before, old, after, rfl, absent, changed⟩ := ih later
      refine ⟨(k, v) :: before, old, after, rfl, ?_, ?_⟩
      · simpa [keys, Ne.symm here] using absent
      · simp [put, here, changed]

/-- Erasing loses the entry of the key and keeps all others. -/
theorem swapErase_perm {key : String} {value : α} {table : Entries α} (found : table.lookup key = some value) :
    List.Perm table ((key, value) :: swapErase key table) := by
  induction table with
  | nil => simp at found
  | cons entry rest ih =>
    obtain ⟨k, v⟩ := entry
    unfold swapErase
    by_cases here : k = key
    · subst here
      have same : v = value := by simpa using found
      subst same
      rw [if_pos rfl]
      cases last : rest.getLast? with
      | none =>
        rw [List.getLast?_eq_none_iff] at last
        subst last
        exact List.Perm.refl _
      | some final =>
        obtain ⟨front, rfl⟩ := List.getLast?_eq_some_iff.1 last
        rw [List.dropLast_concat]
        exact (List.perm_append_comm : List.Perm (front ++ [final]) ([final] ++ front)).cons (k, v)
    · rw [List.lookup_cons, beq_false_of_ne (Ne.symm here)] at found
      rw [if_neg here]
      exact ((ih found).cons (k, v)).trans (List.Perm.swap _ _ _)

theorem swapErase_of_notMem {key : String} {table : Entries α} (absent : table.lookup key = none) :
    swapErase key table = table := by
  induction table with
  | nil => rfl
  | cons entry rest ih =>
    obtain ⟨k, v⟩ := entry
    unfold swapErase
    by_cases here : k = key
    · simp [here] at absent
    · rw [List.lookup_cons, beq_false_of_ne (Ne.symm here)] at absent
      rw [if_neg here, ih absent]

theorem swapErase_append {key : String} {before : Entries α} (absent : key ∉ keys before) (after : Entries α) :
    swapErase key (before ++ after) = before ++ swapErase key after := by
  induction before with
  | nil => rfl
  | cons entry rest ih =>
    obtain ⟨different, others⟩ := List.ne_and_not_mem_of_not_mem_cons absent
    rw [List.cons_append, swapErase, if_neg (Ne.symm different), ih others]
    rfl

/-- The entry that comes last takes no other place with it. -/
theorem swapErase_append_singleton {key : String} {table : Entries α} (absent : key ∉ keys table) (value : α) :
    swapErase key (table ++ [(key, value)]) = table := by
  rw [swapErase_append absent]
  simp [swapErase]

theorem mem_swapErase {key : String} {entry : String × α} {table : Entries α}
    (member : entry ∈ swapErase key table) : entry ∈ table := by
  cases found : table.lookup key with
  | none => rwa [swapErase_of_notMem found] at member
  | some value => exact (swapErase_perm found).mem_iff.2 (List.mem_cons_of_mem _ member)

theorem Distinct.of_perm {table other : Entries α} (distinct : table.Distinct) (same : List.Perm table other) :
    other.Distinct :=
  (same.map Prod.fst).nodup_iff.1 distinct

theorem Distinct.swapErase {table : Entries α} (distinct : table.Distinct) (key : String) :
    Distinct (swapErase key table) := by
  cases found : table.lookup key with
  | none => rwa [swapErase_of_notMem found]
  | some value => exact (List.nodup_cons.1 (distinct.of_perm (swapErase_perm found))).2

theorem Distinct.lookup_perm {table other : Entries α} (distinct : table.Distinct) (same : List.Perm table other)
    (key : String) : table.lookup key = other.lookup key := by
  cases found : other.lookup key with
  | some value => exact distinct.lookup_of_mem (same.mem_iff.2 (mem_of_lookup found))
  | none =>
    rw [lookup_eq_none_iff] at found ⊢
    exact fun member => found ((same.map Prod.fst).mem_iff.1 member)

theorem Distinct.lookup_swapErase {table : Entries α} (distinct : table.Distinct) (key other : String) :
    (Entries.swapErase key table).lookup other = if other = key then none else table.lookup other := by
  cases found : table.lookup key with
  | none =>
    rw [swapErase_of_notMem found]
    split
    next same => rw [same, found]
    · rfl
  | some value =>
    have rest := distinct.lookup_perm (swapErase_perm found) other
    split
    next same =>
      subst same
      exact lookup_eq_none_iff.2 (List.nodup_cons.1 (distinct.of_perm (swapErase_perm found))).1
    next different => rw [rest, List.lookup_cons, beq_false_of_ne different]

end Entries

end SchemaGuide
