/-
Minted names. The name found for a base is the base or the base with a number behind it, and it is
free: there are more candidates than names in use, and no two candidates are equal. A name made of word
characters stays one.
-/
import TypedStore.Expansion

set_option autoImplicit false

namespace TypedStore

open TypedStore.Text

/-! ## 1. Numbers in names -/

namespace Text

theorem toList_natText (n : Nat) : (natText n).toList = Nat.toDigits 10 n := by
  rw [natText, Nat.toString_eq_ofList_toDigits, String.toList_ofList]

theorem natText_inj {n m : Nat} (h : natText n = natText m) : n = m := by
  rw [← Nat.ofDigitChars_ten_toDigits (n := n), ← Nat.ofDigitChars_ten_toDigits (n := m),
    ← toList_natText, ← toList_natText, h]

/-- A text made of word characters, possibly empty. -/
def WordChars (s : String) : Prop := ∀ c ∈ s.toList, isWordChar c = true

instance (s : String) : Decidable (WordChars s) :=
  decidable_of_iff (s.toList.all isWordChar = true) List.all_eq_true

instance (s : String) : Decidable (IsWord s) :=
  inferInstanceAs (Decidable (s ≠ "" ∧ WordChars s))

theorem IsWord.wordChars {s : String} (h : IsWord s) : WordChars s := h.2

theorem WordChars.append {s t : String} (hs : WordChars s) (ht : WordChars t) :
    WordChars (s ++ t) := by
  intro c hc
  rw [String.toList_append] at hc
  exact (List.mem_append.1 hc).elim (hs c) (ht c)

theorem IsWord.append {s t : String} (hs : IsWord s) (ht : WordChars t) : IsWord (s ++ t) := by
  refine ⟨fun empty => hs.1 ?_, hs.wordChars.append ht⟩
  have chars : s.toList ++ t.toList = [] := by rw [← String.toList_append, empty]; rfl
  exact String.toList_inj.1 (List.append_eq_nil_iff.1 chars).1

theorem wordChars_natText (n : Nat) : WordChars (natText n) := by
  intro c hc
  rw [toList_natText] at hc
  have digit : c.isDigit = true := Nat.isDigit_of_mem_toDigits (by decide) (by decide) hc
  simp only [isWordChar, Char.isAlphanum, digit, Bool.or_true, Bool.true_or]

end Text

/-! ## 2. Candidates -/

namespace Leaves

/-- A candidate is its base and word characters. -/
theorem candidate_eq (base : String) (k : Nat) :
    ∃ tail, candidate base k = base ++ tail ∧ WordChars tail := by
  cases k with
  | zero => exact ⟨"", (String.append_empty).symm, by decide⟩
  | succ k =>
    refine ⟨"_" ++ natText (k + 2), by rw [candidate, String.append_assoc], ?_⟩
    exact WordChars.append (by decide) (wordChars_natText (k + 2))

theorem candidate_inj {base : String} {j k : Nat} (h : candidate base j = candidate base k) :
    j = k := by
  have chars := congrArg String.toList h
  cases j with
  | zero =>
    cases k with
    | zero => rfl
    | succ k =>
      simp only [candidate, String.toList_append, List.append_assoc] at chars
      -- the base alone is shorter than the base with a number
      cases List.self_eq_append_right.1 chars
  | succ j =>
    cases k with
    | zero =>
      simp only [candidate, String.toList_append, List.append_assoc] at chars
      cases List.append_right_eq_self.1 chars
    | succ k =>
      simp only [candidate, String.toList_append] at chars
      -- two numbers behind the same base
      have tails := List.append_cancel_left chars
      have numbers := natText_inj (String.toList_inj.1 tails)
      omega

/-! ## 3. Free names -/

theorem taken_of_get? {leaves : Leaves} {name : String} {v : Value}
    (h : leaves.params.get? name = some v) : leaves.taken name = true := by
  rw [taken, Dict.contains, h, Option.isSome_some, Bool.or_true]

theorem mem_of_taken {leaves : Leaves} {name : String} (h : leaves.taken name = true) :
    name ∈ leaves.reserved ++ leaves.params.keys := by
  rw [taken, Bool.or_eq_true] at h
  rcases h with reserved | bound
  · exact List.mem_append_left _ (List.contains_iff_mem.1 reserved)
  · obtain ⟨v, found⟩ := Option.isSome_iff_exists.1 bound
    exact List.mem_append_right _ (Dict.mem_keys_of_get? found)

/-- Among more candidates than names in use, one is free. -/
theorem exists_candidate (leaves : Leaves) (base : String) :
    ∃ k < leaves.reserved.length + leaves.params.size + 1,
      leaves.taken (candidate base k) = false := by
  apply Classical.byContradiction
  intro none
  let candidates := (List.range (leaves.reserved.length + leaves.params.size + 1)).map (candidate base)
  -- if all were in use, there would be more names in use than there are
  have distinct : candidates.Nodup :=
    List.Pairwise.map _ (fun _ _ differ same => differ (candidate_inj same)) List.nodup_range
  have all : candidates ⊆ leaves.reserved ++ leaves.params.keys := by
    intro name hname
    obtain ⟨k, hk, rfl⟩ := List.mem_map.1 hname
    refine mem_of_taken ?_
    cases free : leaves.taken (candidate base k) with
    | true => rfl
    | false => exact absurd ⟨k, List.mem_range.1 hk, free⟩ none
  have few := distinct.length_le_of_subset all
  have keys : leaves.params.keys.length = leaves.params.size := List.length_map _
  rw [List.length_map, List.length_range, List.length_append, keys] at few
  omega

/-- The name found for a base is the first candidate that is free, and at most as many are tried before it
as there are names in use. -/
theorem fresh_least (leaves : Leaves) (base : String) :
    ∃ k ≤ leaves.reserved.length + leaves.params.size,
      leaves.fresh base = candidate base k ∧ leaves.taken (candidate base k) = false
        ∧ ∀ j < k, leaves.taken (candidate base j) = true := by
  obtain ⟨k, hk, free⟩ := exists_candidate leaves base
  simp only [fresh, List.find?_map]
  cases found : (List.range (leaves.reserved.length + leaves.params.size + 1)).find?
      ((fun name => !leaves.taken name) ∘ candidate base) with
  | none =>
    -- the search does not fail, as one of the candidates is free
    have taken := List.find?_eq_none.1 found k (List.mem_range.2 hk)
    simp [free] at taken
  | some j =>
    obtain ⟨here, few, before⟩ := List.find?_range_eq_some.1 found
    refine ⟨j, Nat.le_of_lt_succ (List.mem_range.1 few), rfl, by simpa using here, fun i hi => ?_⟩
    simpa using before i hi

/-- The name found for a base is a candidate that is free. -/
theorem fresh_eq (leaves : Leaves) (base : String) :
    ∃ k, leaves.fresh base = candidate base k ∧ leaves.taken (leaves.fresh base) = false := by
  obtain ⟨k, -, same, free, -⟩ := fresh_least leaves base
  exact ⟨k, same, same ▸ free⟩

theorem fresh_not_taken (leaves : Leaves) (base : String) :
    leaves.taken (leaves.fresh base) = false := by
  obtain ⟨-, -, free⟩ := fresh_eq leaves base
  exact free

theorem isWord_fresh {base : String} (leaves : Leaves) (h : IsWord base) :
    IsWord (leaves.fresh base) := by
  obtain ⟨k, same, -⟩ := fresh_eq leaves base
  obtain ⟨tail, parts, word⟩ := candidate_eq base k
  rw [same, parts]
  exact h.append word

end Leaves

end TypedStore
