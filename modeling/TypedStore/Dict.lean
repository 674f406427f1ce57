/-
Dictionaries keyed by text. The entries stand in rising key order, each key once, so two dictionaries
that answer alike are equal and a walk over the entries meets the keys in order. The laws of each
operation are stated through `get?`.
-/

set_option autoImplicit false

namespace TypedStore

/-! ## 1. Sorted entries -/

/-- The value of the first entry with the key. -/
def entryValue? {α : Type} (key : String) : List (String × α) → Option α
  | [] => none
  | (k, v) :: rest => if k = key then some v else entryValue? key rest

/-- Puts an entry at its place, over one of the same key. -/
def insertEntry {α : Type} (key : String) (value : α) : List (String × α) → List (String × α)
  | [] => [(key, value)]
  | (k, v) :: rest =>
    if key < k then (key, value) :: (k, v) :: rest
    else if key = k then (key, value) :: rest
    else (k, v) :: insertEntry key value rest

/-- Drops the entries of a key. -/
def eraseEntry {α : Type} (key : String) (entries : List (String × α)) : List (String × α) :=
  entries.filter fun entry => entry.1 != key

/-- Keys rise strictly along the entries. -/
def KeysRise {α : Type} (entries : List (String × α)) : Prop :=
  entries.Pairwise fun a b => a.1 < b.1

theorem mem_insertEntry {α : Type} {key : String} {value : α} {entries : List (String × α)}
    {e : String × α} (h : e ∈ insertEntry key value entries) : e = (key, value) ∨ e ∈ entries := by
  induction entries with
  | nil => simpa [insertEntry] using h
  | cons head rest ih =>
    obtain ⟨k, v⟩ := head
    simp only [insertEntry] at h
    split at h
    · simpa using h
    · split at h
      · rcases List.mem_cons.1 h with h | h
        · exact .inl h
        · exact .inr (List.mem_cons_of_mem _ h)
      · rcases List.mem_cons.1 h with h | h
        · exact .inr (h ▸ List.mem_cons_self)
        · exact (ih h).imp id (List.mem_cons_of_mem _)

theorem keysRise_insertEntry {α : Type} (key : String) (value : α) {entries : List (String × α)}
    (h : KeysRise entries) : KeysRise (insertEntry key value entries) := by
  induction entries with
  | nil => simp [insertEntry, KeysRise]
  | cons head rest ih =>
    obtain ⟨k, v⟩ := head
    obtain ⟨above, risen⟩ := List.pairwise_cons.1 h
    simp only [insertEntry]
    split
    · rename_i less
      refine List.pairwise_cons.2 ⟨fun e he => ?_, h⟩
      rcases List.mem_cons.1 he with he | he
      · exact he ▸ less
      · exact String.lt_trans less (above e he)
    · rename_i notLess
      split
      · rename_i same
        exact List.pairwise_cons.2 ⟨same ▸ above, risen⟩
      · rename_i other
        refine List.pairwise_cons.2 ⟨fun e he => ?_, ih risen⟩
        rcases mem_insertEntry he with he | he
        · subst he
          rcases Decidable.em (k < key) with less | notBelow
          · exact less
          · exact absurd (String.le_antisymm (String.not_lt.1 notBelow) (String.not_lt.1 notLess)) other
        · exact above e he

theorem keysRise_eraseEntry {α : Type} (key : String) {entries : List (String × α)}
    (h : KeysRise entries) : KeysRise (eraseEntry key entries) :=
  List.Pairwise.filter _ h

theorem entryValue?_eq_none {α : Type} {key : String} {entries : List (String × α)}
    (h : ∀ e ∈ entries, e.1 ≠ key) : entryValue? key entries = none := by
  induction entries with
  | nil => rfl
  | cons head rest ih =>
    have first : head.1 ≠ key := h head List.mem_cons_self
    simp only [entryValue?, if_neg first]
    exact ih fun e he => h e (List.mem_cons_of_mem _ he)

theorem entryValue?_append {α : Type} (key : String) (xs ys : List (String × α)) :
    entryValue? key (xs ++ ys) = (entryValue? key xs).or (entryValue? key ys) := by
  induction xs with
  | nil => rfl
  | cons x xs ih =>
    rw [List.cons_append, entryValue?, entryValue?]
    split
    · rfl
    · exact ih

theorem mem_of_entryValue? {α : Type} {key : String} {v : α} {entries : List (String × α)}
    (h : entryValue? key entries = some v) : (key, v) ∈ entries := by
  induction entries with
  | nil => cases h
  | cons entry rest ih =>
    rw [entryValue?] at h
    split at h
    · rename_i same
      cases h
      exact same ▸ List.mem_cons_self
    · exact List.mem_cons_of_mem _ (ih h)

/-- Where keys rise, the first entry of a key is its only one. -/
theorem entryValue?_of_mem {α : Type} {key : String} {v : α} {entries : List (String × α)}
    (rise : KeysRise entries) (h : (key, v) ∈ entries) : entryValue? key entries = some v := by
  induction entries with
  | nil => cases h
  | cons entry rest ih =>
    obtain ⟨above, risen⟩ := List.pairwise_cons.1 rise
    rcases List.mem_cons.1 h with rfl | h
    · exact if_pos rfl
    · have other : entry.1 ≠ key := by
        rintro rfl
        have less := above (entry.1, v) h
        exact String.lt_irrefl _ less
      rw [entryValue?, if_neg other]
      exact ih risen h

theorem exists_entryValue? {α : Type} {key : String} {entries : List (String × α)} :
    (∃ v, entryValue? key entries = some v) ↔ key ∈ entries.map (·.1) := by
  constructor
  · rintro ⟨v, found⟩
    exact List.mem_map_of_mem (mem_of_entryValue? found)
  · intro mem
    rcases found : entryValue? key entries with _ | v
    · induction entries with
      | nil => cases mem
      | cons entry rest ih =>
        rw [entryValue?] at found
        split at found
        · cases found
        · rename_i other
          exact ih ((List.mem_cons.1 mem).resolve_left fun same => other same.symm) found
    · exact ⟨v, rfl⟩

theorem entryValue?_insertEntry {α : Type} (key other : String) (value : α)
    {entries : List (String × α)} (h : KeysRise entries) :
    entryValue? other (insertEntry key value entries)
      = if key = other then some value else entryValue? other entries := by
  induction entries with
  | nil => simp [insertEntry, entryValue?]
  | cons head rest ih =>
    obtain ⟨k, v⟩ := head
    obtain ⟨above, risen⟩ := List.pairwise_cons.1 h
    simp only [insertEntry]
    split
    · simp [entryValue?]
    · split
      · rename_i same
        subst same
        by_cases hk : key = other <;> simp [entryValue?, hk]
      · rename_i differs
        simp only [entryValue?, ih risen]
        by_cases hk : k = other
        · have : key ≠ other := fun e => differs (e.trans hk.symm)
          simp [hk, this]
        · simp [hk]

theorem entryValue?_eraseEntry {α : Type} (key other : String) (entries : List (String × α)) :
    entryValue? other (eraseEntry key entries)
      = if key = other then none else entryValue? other entries := by
  induction entries with
  | nil => simp [eraseEntry, entryValue?]
  | cons head rest ih =>
    obtain ⟨k, v⟩ := head
    by_cases hk : k = key
    · subst hk
      have : eraseEntry k ((k, v) :: rest) = eraseEntry k rest := by simp [eraseEntry]
      rw [this, ih]
      by_cases ho : k = other <;> simp [entryValue?, ho]
    · have : eraseEntry key ((k, v) :: rest) = (k, v) :: eraseEntry key rest := by
        simp [eraseEntry, hk]
      rw [this]
      simp only [entryValue?, ih]
      by_cases ho : k = other
      · have : key ≠ other := fun e => hk (ho.trans e.symm)
        simp [ho, this]
      · simp [ho]

/-! ## 2. Dictionaries -/

/-- Entries in rising key order. -/
structure Dict (α : Type) where
  entries : List (String × α)
  rise : KeysRise entries

namespace Dict

variable {α : Type}

/-- The dictionary without entries. -/
def empty : Dict α := ⟨[], List.Pairwise.nil⟩

instance : Inhabited (Dict α) := ⟨empty⟩

/-- The value under a key. -/
def get? (d : Dict α) (key : String) : Option α := entryValue? key d.entries

/-- Whether a key has a value. -/
def contains (d : Dict α) (key : String) : Bool := (d.get? key).isSome

/-- Sets the value of a key. -/
def insert (d : Dict α) (key : String) (value : α) : Dict α :=
  ⟨insertEntry key value d.entries, keysRise_insertEntry key value d.rise⟩

/-- Sets the value of a key that has none. -/
def insertNew (d : Dict α) (key : String) (value : α) : Dict α :=
  if d.contains key then d else d.insert key value

/-- Takes a key out. -/
def erase (d : Dict α) (key : String) : Dict α :=
  ⟨eraseEntry key d.entries, keysRise_eraseEntry key d.rise⟩

/-- The keys in rising order. -/
def keys (d : Dict α) : List String := d.entries.map (·.1)

/-- Number of keys. -/
def size (d : Dict α) : Nat := d.entries.length

/-- Sets the entries of a list one after the other, so a later one of the same key counts. -/
def insertAll (d : Dict α) (entries : List (String × α)) : Dict α :=
  entries.foldl (fun acc entry => acc.insert entry.1 entry.2) d

/-- The dictionary of a list of entries. -/
def ofList (entries : List (String × α)) : Dict α := empty.insertAll entries

/-! ## 3. Laws -/

@[simp] theorem get?_empty (key : String) : (empty : Dict α).get? key = none := rfl

theorem get?_insert (d : Dict α) (key other : String) (value : α) :
    (d.insert key value).get? other = if key = other then some value else d.get? other :=
  entryValue?_insertEntry key other value d.rise

theorem get?_erase (d : Dict α) (key other : String) :
    (d.erase key).get? other = if key = other then none else d.get? other :=
  entryValue?_eraseEntry key other d.entries

theorem contains_insert (d : Dict α) (key other : String) (value : α) :
    (d.insert key value).contains other = (decide (key = other) || d.contains other) := by
  by_cases h : key = other <;> simp [contains, get?_insert, h]

/-- The entries of a list count before those that were there. -/
theorem get?_insertAll (d : Dict α) {entries : List (String × α)} (h : KeysRise entries)
    (key : String) :
    (d.insertAll entries).get? key = (entryValue? key entries).or (d.get? key) := by
  induction entries generalizing d with
  | nil => rfl
  | cons entry rest ih =>
    obtain ⟨above, risen⟩ := List.pairwise_cons.1 h
    have parts : d.insertAll (entry :: rest) = (d.insert entry.1 entry.2).insertAll rest := rfl
    rw [parts, ih (d.insert entry.1 entry.2) risen, get?_insert, entryValue?]
    by_cases same : entry.1 = key
    · have absent : entryValue? key rest = none :=
        entryValue?_eq_none fun e he hk => String.lt_irrefl e.1 ((same.trans hk.symm) ▸ above e he)
      rw [if_pos same, if_pos same, absent, Option.none_or, Option.some_or]
    · rw [if_neg same, if_neg same]

theorem mem_keys_of_get? {d : Dict α} {key : String} {v : α} (h : d.get? key = some v) :
    key ∈ d.keys :=
  exists_entryValue?.1 ⟨v, h⟩

theorem get?_insertNew (d : Dict α) (key other : String) (value : α) :
    (d.insertNew key value).get? other
      = if key = other then some ((d.get? key).getD value) else d.get? other := by
  unfold insertNew contains
  rcases found : d.get? key with _ | old
  · simp only [Option.isSome_none, Bool.false_eq_true, if_false, get?_insert, Option.getD_none]
  · simp only [Option.isSome_some, if_true, Option.getD_some]
    split
    · rename_i same
      rw [← same, found]
    · rfl

/-- Entries that take the place of none: what was there counts before them, and of them the first. -/
theorem get?_foldl_insertNew (d : Dict α) (entries : List (String × α)) (key : String) :
    (entries.foldl (fun acc entry => acc.insertNew entry.1 entry.2) d).get? key
      = (d.get? key).or (entryValue? key entries) := by
  induction entries generalizing d with
  | nil => exact Option.or_none.symm
  | cons entry rest ih =>
    rw [List.foldl_cons, ih, get?_insertNew, entryValue?]
    by_cases own : entry.1 = key
    · rw [if_pos own, if_pos own, own]
      cases d.get? key <;> rfl
    · rw [if_neg own, if_neg own]

end Dict

end TypedStore
