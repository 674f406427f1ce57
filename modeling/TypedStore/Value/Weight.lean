/-
The weight of a value, a measure for recursion through structured values: every part of a value
weighs less than the whole, and a record never grows when a field is taken out of it.
-/
import TypedStore.Value.Basic

set_option autoImplicit false

namespace TypedStore

namespace Value

mutual

/-- Number of nodes of a value, fields counted twice. -/
def weight : Value → Nat
  | .record _ fields => 1 + fieldsWeight fields
  | .array items => 1 + itemsWeight items
  | _ => 1

/-- Weight of the items of an array. -/
def itemsWeight : List Value → Nat
  | [] => 0
  | v :: rest => 1 + v.weight + itemsWeight rest

/-- Weight of the fields of a record. -/
def fieldsWeight : List (String × Value) → Nat
  | [] => 0
  | (_, v) :: rest => 1 + v.weight + fieldsWeight rest

end

theorem weight_pos (v : Value) : 0 < v.weight := by
  unfold weight
  split <;> omega

theorem weight_null : (Value.null).weight = 1 := by simp [weight]

end Value

open Value

theorem weight_lt_of_mem {items : List Value} {v : Value} (h : v ∈ items) :
    v.weight < itemsWeight items := by
  induction items with
  | nil => cases h
  | cons w rest ih =>
    rw [itemsWeight]
    rcases List.mem_cons.1 h with rfl | h
    · omega
    · have := ih h
      omega

theorem weight_lt_of_fieldValue? {name : String} {fields : List (String × Value)} {v : Value}
    (h : fieldValue? name fields = some v) : v.weight < fieldsWeight fields := by
  induction fields with
  | nil => simp [fieldValue?] at h
  | cons field rest ih =>
    obtain ⟨k, w⟩ := field
    simp only [fieldValue?] at h
    simp only [fieldsWeight]
    split at h
    · simp only [Option.some.injEq] at h
      subst h
      omega
    · have := ih h
      omega

theorem weight_blankField_le (name : String) (fields : List (String × Value)) :
    fieldsWeight (blankField name fields) ≤ fieldsWeight fields := by
  induction fields with
  | nil => simp [blankField]
  | cons field rest ih =>
    obtain ⟨k, w⟩ := field
    simp only [blankField]
    have := weight_pos w
    split <;> simp only [fieldsWeight, weight_null] <;> omega

theorem weight_blankAt_le (i : Nat) (fields : List (String × Value)) :
    fieldsWeight (blankAt i fields) ≤ fieldsWeight fields := by
  induction fields generalizing i with
  | nil => cases i <;> simp [blankAt]
  | cons field rest ih =>
    obtain ⟨k, w⟩ := field
    have := weight_pos w
    cases i with
    | zero => simp only [blankAt, fieldsWeight, weight_null]; omega
    | succ i =>
      have := ih i
      simp only [blankAt, fieldsWeight]; omega

theorem weight_lt_of_getElem? {i : Nat} {fields : List (String × Value)} {field : String × Value}
    (h : fields[i]? = some field) : field.2.weight < fieldsWeight fields := by
  induction fields generalizing i with
  | nil => simp at h
  | cons head rest ih =>
    obtain ⟨k, w⟩ := head
    simp only [fieldsWeight]
    cases i with
    | zero =>
      simp only [List.getElem?_cons_zero, Option.some.injEq] at h
      subst h
      simp only []
      omega
    | succ i =>
      have := ih (by simpa using h)
      omega

/-- What a field taken by name weighs, and what is left. -/
theorem weight_takeField? {name : String} {fields rest : List (String × Value)} {v : Value}
    (h : takeField? name fields = some (v, rest)) :
    v.weight < fieldsWeight fields ∧ fieldsWeight rest ≤ fieldsWeight fields := by
  simp only [takeField?, Option.map_eq_some_iff, Prod.mk.injEq] at h
  obtain ⟨w, hw, rfl, rfl⟩ := h
  exact ⟨weight_lt_of_fieldValue? hw, weight_blankField_le name fields⟩

/-- What a field taken by name or position weighs, and what is left. -/
theorem weight_takeFieldOrAt? {name : String} {i : Nat} {fields rest : List (String × Value)}
    {v : Value} (h : takeFieldOrAt? name i fields = some (v, rest)) :
    v.weight < fieldsWeight fields ∧ fieldsWeight rest ≤ fieldsWeight fields := by
  simp only [takeFieldOrAt?] at h
  split at h
  · rename_i taken htaken
    simp only [Option.some.injEq] at h
    exact weight_takeField? (h ▸ htaken)
  · simp only [Option.map_eq_some_iff, Prod.mk.injEq] at h
    obtain ⟨field, hfield, rfl, rfl⟩ := h
    exact ⟨weight_lt_of_getElem? hfield, weight_blankAt_le i fields⟩

end TypedStore
