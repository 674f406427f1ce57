/-
The UTF-8 form of a list of characters. An ASCII character is the one byte of its number, and every
other character is made of bytes above ASCII. So a run of ASCII bytes in the UTF-8 form of a text is a
run of characters of the text: it cannot begin, end or lie inside another character. All statements
about syntax over bytes rest on this.
-/
import TypedStore.Text.Bytes
import TypedStore.Text.Word

set_option autoImplicit false

namespace TypedStore.Text

/-! ## 1. Bytes of characters -/

/-- The UTF-8 form of characters. -/
def charBytes (cs : List Char) : List UInt8 := cs.flatMap String.utf8EncodeChar

/-- The byte of an ASCII character. -/
def ascii (c : Char) : UInt8 := c.val.toUInt8

/-- Characters of a single byte. -/
def IsAscii (c : Char) : Prop := c.utf8Size = 1

instance (c : Char) : Decidable (IsAscii c) := inferInstanceAs (Decidable (c.utf8Size = 1))

@[simp] theorem charBytes_nil : charBytes [] = [] := rfl

theorem charBytes_cons (c : Char) (cs : List Char) :
    charBytes (c :: cs) = String.utf8EncodeChar c ++ charBytes cs := rfl

@[simp] theorem charBytes_append (xs ys : List Char) :
    charBytes (xs ++ ys) = charBytes xs ++ charBytes ys := by
  simp only [charBytes, List.flatMap_append]

/-- Offsets in bytes are lengths of UTF-8 forms. -/
theorem length_charBytes (cs : List Char) : (charBytes cs).length = byteLength cs := by
  induction cs with
  | nil => rfl
  | cons c rest ih =>
    rw [charBytes_cons, List.length_append, String.length_utf8EncodeChar, ih, byteLength]

private theorem toListLoop_eq (bytes : ByteArray) (i : Nat) (acc : List UInt8) :
    ByteArray.toList.loop bytes i acc = acc.reverse ++ bytes.data.toList.drop i := by
  fun_induction ByteArray.toList.loop bytes i acc with
  | case1 i acc below ih =>
    have inside : i < bytes.data.toList.length := below
    rw [ih, List.drop_eq_getElem_cons inside]
    -- the loop appends the byte at `i`, which is the first one that is left
    have found : bytes.get! i = bytes.data.toList[i] := by
      simp only [ByteArray.get!, Array.getElem_toList]
      exact getElem!_pos bytes.data i below
    rw [found, List.reverse_cons, List.append_assoc, List.singleton_append]
  | case2 i acc notBelow =>
    have beyond : bytes.data.toList.length ≤ i := Nat.le_of_not_lt notBelow
    rw [List.drop_eq_nil_of_le beyond, List.append_nil]

/-- The bytes of an array, one by one. -/
theorem toList_eq (bytes : ByteArray) : bytes.toList = bytes.data.toList := by
  rw [ByteArray.toList, toListLoop_eq]
  rfl

/-- The UTF-8 form of a text is that of its characters. -/
theorem utf8Encode_eq (s : String) : utf8Encode s = charBytes s.toList := by
  have whole : s.toByteArray = (charBytes s.toList).toByteArray := by
    rw [← String.utf8Encode_toList]
    rfl
  rw [utf8Encode, String.toUTF8_eq_toByteArray, whole, toList_eq, List.toList_data_toByteArray]

/-- A text is read back from its UTF-8 form. -/
theorem utf8Decode?_utf8Encode (s : String) : utf8Decode? (utf8Encode s) = some s := by
  rw [utf8Decode?, utf8Encode, toList_eq, String.toUTF8_eq_toByteArray]
  exact dif_pos s.isValidUTF8

/-! ## 2. ASCII and the rest -/

theorem utf8EncodeChar_of_isAscii {c : Char} (h : IsAscii c) :
    String.utf8EncodeChar c = [ascii c] :=
  String.utf8EncodeChar_eq_singleton h

theorem charBytes_cons_of_isAscii {c : Char} (h : IsAscii c) (cs : List Char) :
    charBytes (c :: cs) = ascii c :: charBytes cs := by
  rw [charBytes_cons, utf8EncodeChar_of_isAscii h, List.singleton_append]

theorem val_le_of_isAscii {c : Char} (h : IsAscii c) : c.val.toNat ≤ 127 := by
  -- one byte is what the first of the four sizes takes
  simp only [IsAscii, Char.utf8Size] at h
  split at h
  · rename_i small
    exact UInt32.le_iff_toNat_le.1 small
  · split at h <;> try split at h
    all_goals omega

theorem toNat_ascii {c : Char} (h : IsAscii c) : (ascii c).toNat = c.val.toNat := by
  have small := val_le_of_isAscii h
  simp only [ascii, UInt32.toNat_toUInt8]
  omega

theorem ascii_lt {c : Char} (h : IsAscii c) : ascii c < 128 := by
  have small := val_le_of_isAscii h
  rw [UInt8.lt_iff_toNat_lt, toNat_ascii h]
  exact Nat.lt_succ_of_le small

theorem ascii_inj {c d : Char} (hc : IsAscii c) (hd : IsAscii d) : ascii c = ascii d ↔ c = d := by
  constructor
  · intro h
    have same : c.val.toNat = d.val.toNat := by rw [← toNat_ascii hc, ← toNat_ascii hd, h]
    exact Char.ext (UInt32.toNat_inj.1 same)
  · rintro rfl
    rfl

/-- The bytes of a character above ASCII are all above ASCII. -/
theorem high_of_not_isAscii {c : Char} (h : ¬ IsAscii c) :
    ∀ b ∈ String.utf8EncodeChar c, ¬ b < 128 := by
  intro b hb
  -- above ASCII two, three or four bytes are written, each with its highest bit set
  have large : ¬ c.val.toNat ≤ 127 := by
    intro small
    have : c.val ≤ 127 := UInt32.le_iff_toNat_le.2 small
    exact h (by simp [IsAscii, Char.utf8Size, this])
  have limit : (128 : UInt8).toNat = 128 := rfl
  rw [UInt8.lt_iff_toNat_lt, limit]
  simp only [String.utf8EncodeChar, if_neg large] at hb
  split at hb
  · simp only [List.mem_cons, List.not_mem_nil, or_false] at hb
    rcases hb with rfl | rfl <;> simp only [UInt8.toNat_ofNat'] <;> omega
  · split at hb <;> simp only [List.mem_cons, List.not_mem_nil, or_false] at hb
    · rcases hb with rfl | rfl | rfl <;> simp only [UInt8.toNat_ofNat'] <;> omega
    · rcases hb with rfl | rfl | rfl | rfl <;> simp only [UInt8.toNat_ofNat'] <;> omega

/-- A character above ASCII begins with a byte above ASCII. -/
theorem exists_high_cons {c : Char} (h : ¬ IsAscii c) :
    ∃ b bs, String.utf8EncodeChar c = b :: bs ∧ ¬ b < 128 ∧ ∀ x ∈ bs, ¬ x < 128 := by
  cases hc : String.utf8EncodeChar c with
  | nil => exact absurd hc String.utf8EncodeChar_ne_nil
  | cons b bs =>
    have high := high_of_not_isAscii h
    rw [hc] at high
    exact ⟨b, bs, rfl, high b List.mem_cons_self, fun x hx => high x (List.mem_cons_of_mem _ hx)⟩

/-! ## 3. ASCII runs -/

/-- A UTF-8 form that begins with an ASCII byte is that of a text that begins with its character. -/
theorem exists_of_charBytes_eq_cons {cs : List Char} {b : UInt8} {s : List UInt8} (hb : b < 128)
    (h : charBytes cs = b :: s) :
    ∃ c rest, cs = c :: rest ∧ IsAscii c ∧ ascii c = b ∧ charBytes rest = s := by
  cases cs with
  | nil => simp at h
  | cons c rest =>
    by_cases hc : IsAscii c
    · rw [charBytes_cons_of_isAscii hc] at h
      obtain ⟨rfl, rfl⟩ := List.cons.inj h
      exact ⟨c, rest, rfl, hc, rfl, rfl⟩
    · -- any other character begins with a byte that is not `b`
      obtain ⟨x, xs, hx, high, -⟩ := exists_high_cons hc
      rw [charBytes_cons, hx] at h
      exact absurd hb ((List.cons.inj h).1 ▸ high)

/-- An ASCII character at the front of a text is its byte at the front of the UTF-8 form. -/
theorem head?_charBytes_eq_ascii {c : Char} (hc : IsAscii c) (cs : List Char) :
    (charBytes cs).head? = some (ascii c) ↔ cs.head? = some c := by
  constructor
  · intro h
    cases hcs : charBytes cs with
    | nil => simp [hcs] at h
    | cons b s =>
      rw [hcs, List.head?_cons, Option.some.injEq] at h
      subst h
      obtain ⟨d, rest, rfl, hd, same, -⟩ := exists_of_charBytes_eq_cons (ascii_lt hc) hcs
      rw [List.head?_cons, (ascii_inj hd hc).1 same]
  · intro h
    cases cs with
    | nil => simp at h
    | cons d rest =>
      rw [List.head?_cons, Option.some.injEq] at h
      subst h
      rw [charBytes_cons_of_isAscii hc, List.head?_cons]

/-- A run of ASCII bytes at the front of a UTF-8 form is the form of characters at the front. -/
theorem exists_of_charBytes_eq_append {cs : List Char} {run s : List UInt8}
    (hrun : ∀ b ∈ run, b < 128) (h : charBytes cs = run ++ s) :
    ∃ front rest, cs = front ++ rest ∧ (∀ c ∈ front, IsAscii c) ∧ front.map ascii = run
      ∧ charBytes rest = s := by
  induction run generalizing cs with
  | nil => exact ⟨[], cs, rfl, by simp, rfl, h⟩
  | cons b run ih =>
    obtain ⟨c, rest, rfl, hc, rfl, hrest⟩ :=
      exists_of_charBytes_eq_cons (hrun b List.mem_cons_self) h
    -- one character for the first byte, and the rest of the run by induction
    obtain ⟨front, left, rfl, hfront, rfl, hleft⟩ :=
      ih (fun x hx => hrun x (List.mem_cons_of_mem _ hx)) hrest
    refine ⟨c :: front, left, rfl, ?_, rfl, hleft⟩
    intro x hx
    rcases List.mem_cons.1 hx with rfl | hx
    · exact hc
    · exact hfront x hx

theorem charBytes_of_isAscii {cs : List Char} (h : ∀ c ∈ cs, IsAscii c) :
    charBytes cs = cs.map ascii := by
  induction cs with
  | nil => rfl
  | cons c rest ih =>
    rw [charBytes_cons_of_isAscii (h c List.mem_cons_self), List.map_cons,
      ih fun d hd => h d (List.mem_cons_of_mem _ hd)]

theorem map_ascii_inj {xs ys : List Char} (hx : ∀ c ∈ xs, IsAscii c) (hy : ∀ c ∈ ys, IsAscii c)
    (h : xs.map ascii = ys.map ascii) : xs = ys := by
  induction xs generalizing ys with
  | nil => exact (List.map_eq_nil_iff.1 h.symm).symm
  | cons c xs ih =>
    cases ys with
    | nil => simp at h
    | cons d ys =>
      simp only [List.map_cons, List.cons.injEq] at h
      rw [(ascii_inj (hx c List.mem_cons_self) (hy d List.mem_cons_self)).1 h.1,
        ih (fun e he => hx e (List.mem_cons_of_mem _ he))
          (fun e he => hy e (List.mem_cons_of_mem _ he)) h.2]

/-- An ASCII text begins another text when its bytes begin the other's bytes. -/
theorem charBytes_prefix_iff {needle cs : List Char} (h : ∀ c ∈ needle, IsAscii c) :
    charBytes needle <+: charBytes cs ↔ needle <+: cs := by
  constructor
  · rintro ⟨s, hs⟩
    have low : ∀ b ∈ charBytes needle, b < 128 := by
      rw [charBytes_of_isAscii h]
      intro b hb
      obtain ⟨c, hc, rfl⟩ := List.mem_map.1 hb
      exact ascii_lt (h c hc)
    -- the run of bytes is one of characters, which the needle is then equal to
    obtain ⟨front, rest, rfl, hfront, same, -⟩ := exists_of_charBytes_eq_append low hs.symm
    have equal : front = needle := by
      rw [charBytes_of_isAscii h] at same
      exact map_ascii_inj hfront h same
    exact ⟨rest, by rw [equal]⟩
  · rintro ⟨rest, rfl⟩
    exact ⟨charBytes rest, (charBytes_append needle rest).symm⟩

end TypedStore.Text
