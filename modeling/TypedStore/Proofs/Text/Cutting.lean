/-
Where texts are cut. A cut is found in the bytes: from the number of bytes that are allowed one goes
back until a position lies between two characters. The bytes of a character are one that begins it and
at most three that continue it, so positions between characters are the lengths of beginnings of the text
(`isBoundary_charBytes`), and one of them is at most three bytes in front of every position
(`le_byteLength_takeWithin`). Going back therefore ends where the text is cut character by character, and
that is the last position that is allowed (`cuts_at_last_boundary`).
-/
import TypedStore.Proofs.Text.Encoding
import TypedStore.Text.Cut

set_option autoImplicit false

namespace TypedStore.Text

/-! ## 1. Positions between characters -/

/-- A byte that continues a character: its two highest bits are 1 and 0. -/
def continues (b : UInt8) : Bool := 0x80 ≤ b && b < 0xc0

/-- Whether a position lies between two characters, or at either end: whether the byte behind it begins a
character. -/
def isBoundary (bytes : List UInt8) (i : Nat) : Bool :=
  i == 0 || i == bytes.length || bytes[i]?.any fun b => !continues b

theorem continues_iff (b : UInt8) : continues b = true ↔ 128 ≤ b.toNat ∧ b.toNat < 192 := by
  simp [continues, UInt8.le_iff_toNat_le, UInt8.lt_iff_toNat_lt]

/-- Bytes of six bits go on with a character. -/
theorem continues_of_mem (ns : List Nat) :
    ∀ x ∈ ns.map fun n => UInt8.ofNat (n % 64 + 128), continues x = true := by
  intro x hx
  obtain ⟨n, -, rfl⟩ := List.mem_map.1 hx
  rw [continues_iff, UInt8.toNat_ofNat']
  omega

theorem begins_ofNat {n : Nat} (byte : n < 256) (h : n < 128 ∨ 192 ≤ n) :
    continues (UInt8.ofNat n) = false := by
  rw [Bool.eq_false_iff, ne_eq, continues_iff, UInt8.toNat_ofNat']
  omega

/-- One byte begins a character and the others continue it. -/
theorem exists_begins (c : Char) :
    ∃ b more, String.utf8EncodeChar c = b :: more ∧ continues b = false
      ∧ ∀ x ∈ more, continues x = true := by
  rw [String.utf8EncodeChar]
  generalize c.val.toNat = n
  -- one to four bytes, each of six bits behind the first
  split
  · exact ⟨_, _, rfl, begins_ofNat (by omega) (by omega), continues_of_mem []⟩
  · split
    · exact ⟨_, _, rfl, begins_ofNat (by omega) (by omega), continues_of_mem [n]⟩
    · split
      · exact ⟨_, _, rfl, begins_ofNat (by omega) (by omega), continues_of_mem [n / 64, n]⟩
      · exact ⟨_, _, rfl, begins_ofNat (by omega) (by omega), continues_of_mem [n / 4096, n / 64, n]⟩

@[simp] theorem isBoundary_zero (bytes : List UInt8) : isBoundary bytes 0 = true := rfl

/-- No position inside a character is a boundary. -/
theorem isBoundary_inside {c : Char} {rest : List Char} {i : Nat} (pos : 0 < i) (inside : i < c.utf8Size) :
    isBoundary (charBytes (c :: rest)) i = false := by
  obtain ⟨b, more, bytes, -, continued⟩ := exists_begins c
  have size := String.length_utf8EncodeChar c
  rw [bytes, List.length_cons] at size
  obtain ⟨j, rfl⟩ : ∃ j, i = j + 1 := ⟨i - 1, by omega⟩
  have within : j < more.length := by omega
  have last : j + 1 ≠ (charBytes (c :: rest)).length := by
    rw [charBytes_cons, bytes, List.length_append, List.length_cons]
    omega
  have found : (charBytes (c :: rest))[j + 1]? = some more[j] := by
    rw [charBytes_cons, bytes, List.cons_append, List.getElem?_cons_succ,
      List.getElem?_append_left within, List.getElem?_eq_getElem within]
  simp [isBoundary, found, last, continued]

/-- Behind a character the boundaries are those of the rest. -/
theorem isBoundary_behind {c : Char} {rest : List Char} {i : Nat} (behind : c.utf8Size ≤ i) :
    isBoundary (charBytes (c :: rest)) i = isBoundary (charBytes rest) (i - c.utf8Size) := by
  have pos := c.utf8Size_pos
  have size := String.length_utf8EncodeChar c
  have found : (charBytes (c :: rest))[i]? = (charBytes rest)[i - c.utf8Size]? := by
    rw [charBytes_cons, List.getElem?_append_right (by omega), size]
  have length : (charBytes (c :: rest)).length = c.utf8Size + (charBytes rest).length := by
    rw [charBytes_cons, List.length_append, size]
  by_cases next : i = c.utf8Size
  · -- the rest is empty, or its first byte begins a character
    rw [next, Nat.sub_self, isBoundary_zero]
    cases rest with
    | nil => simp [isBoundary, length]
    | cons d rest =>
      obtain ⟨b, more, bytes, begun, -⟩ := exists_begins d
      rw [next, Nat.sub_self, charBytes_cons d, bytes] at found
      simp [isBoundary, found, begun]
  · have front : i ≠ 0 ∧ i - c.utf8Size ≠ 0 := by omega
    have ends : i = (charBytes (c :: rest)).length ↔ i - c.utf8Size = (charBytes rest).length := by omega
    rw [Bool.eq_iff_iff]
    simp only [isBoundary, Bool.or_eq_true, beq_iff_eq, front.1, front.2, ends, found]

/-- Boundaries are the lengths of beginnings. -/
theorem isBoundary_charBytes (cs : List Char) (i : Nat) :
    isBoundary (charBytes cs) i = true ↔ ∃ front, front <+: cs ∧ byteLength front = i := by
  induction cs generalizing i with
  | nil =>
    simp only [List.prefix_nil, exists_eq_left, byteLength]
    cases i <;> simp [isBoundary]
  | cons c rest ih =>
    have pos := c.utf8Size_pos
    by_cases start : i = 0
    · subst start
      exact ⟨fun _ => ⟨[], List.nil_prefix, rfl⟩, fun _ => isBoundary_zero _⟩
    by_cases inside : i < c.utf8Size
    · rw [isBoundary_inside (by omega) inside]
      constructor
      · intro h
        cases h
      · -- a beginning is empty or takes the whole character
        rintro ⟨_, before, rfl⟩
        rcases List.prefix_cons_iff.1 before with rfl | ⟨front, rfl, -⟩
        · exact absurd rfl start
        · rw [byteLength] at inside
          omega
    · rw [isBoundary_behind (by omega), ih]
      constructor
      · rintro ⟨front, before, length⟩
        refine ⟨c :: front, List.cons_prefix_cons.2 ⟨rfl, before⟩, ?_⟩
        rw [byteLength]
        omega
      · rintro ⟨_, before, rfl⟩
        rcases List.prefix_cons_iff.1 before with rfl | ⟨front, rfl, within⟩
        · exact absurd rfl start
        · refine ⟨front, within, ?_⟩
          rw [byteLength]
          omega

/-! ## 2. Beginnings of bounded size -/

theorem byteLength_mono {front cs : List Char} (h : front <+: cs) :
    byteLength front ≤ byteLength cs := by
  obtain ⟨rest, rfl⟩ := h
  rw [byteLength_append]
  omega

theorem takeWithin_isPrefix (size : Nat) (cs : List Char) : takeWithin size cs <+: cs := by
  induction cs generalizing size with
  | nil => simp [takeWithin]
  | cons c rest ih =>
    rw [takeWithin]
    split
    · exact List.cons_prefix_cons.2 ⟨rfl, ih _⟩
    · exact List.nil_prefix

theorem byteLength_takeWithin_le (size : Nat) (cs : List Char) :
    byteLength (takeWithin size cs) ≤ size := by
  induction cs generalizing size with
  | nil => simp [takeWithin, byteLength]
  | cons c rest ih =>
    rw [takeWithin]
    split
    · have tail := ih (size - c.utf8Size)
      rw [byteLength]
      omega
    · simp [byteLength]

/-- Every beginning that fits is a beginning of what is taken. -/
theorem prefix_takeWithin {size : Nat} {front cs : List Char} (h : front <+: cs)
    (fits : byteLength front ≤ size) : front <+: takeWithin size cs := by
  induction cs generalizing size front with
  | nil => simpa [takeWithin] using h
  | cons c rest ih =>
    rcases List.prefix_cons_iff.1 h with rfl | ⟨front, rfl, before⟩
    · exact List.nil_prefix
    · rw [byteLength] at fits
      rw [takeWithin, if_pos (by omega)]
      exact List.cons_prefix_cons.2 ⟨rfl, ih before (by omega)⟩

/-- Fewer than four bytes are left over, as a character that does not fit has at most four. -/
theorem le_byteLength_takeWithin (size : Nat) (cs : List Char) :
    min size (byteLength cs) ≤ byteLength (takeWithin size cs) + 3 := by
  induction cs generalizing size with
  | nil => simp [takeWithin, byteLength]
  | cons c rest ih =>
    have atMost := c.utf8Size_le_four
    rw [takeWithin]
    split
    · have tail := ih (size - c.utf8Size)
      rw [byteLength, byteLength]
      omega
    · rw [byteLength, byteLength]
      omega

/-! ## 3. Going back -/

/-- The boundary that is met when a position goes back byte by byte, none where it would have to go back
behind the front. -/
def boundaryFrom? (bytes : List UInt8) : Nat → Option Nat
  | 0 => if isBoundary bytes 0 then some 0 else none
  | i + 1 => if isBoundary bytes (i + 1) then some (i + 1) else boundaryFrom? bytes i

/-- The bytes of a text that is cut to a number of bytes: all of them if they fit, and else those up to
the boundary that is met. -/
def cutBytes? (bytes : List UInt8) (size : Nat) : Option (List UInt8) :=
  if bytes.length ≤ size then some bytes else (boundaryFrom? bytes size).map bytes.take

/-- The boundary that is met is the last one. -/
theorem boundaryFrom?_eq_some {bytes : List UInt8} {i stop : Nat} (le : stop ≤ i)
    (boundary : isBoundary bytes stop = true) (last : ∀ k ≤ i, isBoundary bytes k = true → k ≤ stop) :
    boundaryFrom? bytes i = some stop := by
  induction i with
  | zero =>
    obtain rfl : stop = 0 := by omega
    rw [boundaryFrom?, if_pos boundary]
  | succ i ih =>
    rw [boundaryFrom?]
    split
    · rename_i here
      have := last (i + 1) (Nat.le_refl _) here
      obtain rfl : stop = i + 1 := by omega
      rfl
    · rename_i inside
      have before : stop ≠ i + 1 := fun same => inside (same ▸ boundary)
      exact ih (by omega) fun k hk => last k (by omega)

/-- A position is where bytes are cut to a size: the last boundary that is allowed, at most three bytes
in front of it. -/
structure CutAt (bytes : List UInt8) (size stop : Nat) : Prop where
  boundary : isBoundary bytes stop = true
  within : stop ≤ size
  last : ∀ k ≤ size, isBoundary bytes k = true → k ≤ stop
  near : min size bytes.length ≤ stop + 3

/-- What is taken character by character ends at the last boundary. -/
theorem cutAt_takeWithin (size : Nat) (cs : List Char) :
    CutAt (charBytes cs) size (byteLength (takeWithin size cs)) where
  boundary := (isBoundary_charBytes cs _).2 ⟨_, takeWithin_isPrefix size cs, rfl⟩
  within := byteLength_takeWithin_le size cs
  last := by
    intro k hk boundary
    obtain ⟨front, before, rfl⟩ := (isBoundary_charBytes cs k).1 boundary
    exact byteLength_mono (prefix_takeWithin before hk)
  near := by
    rw [length_charBytes]
    exact le_byteLength_takeWithin size cs

theorem take_charBytes {front cs : List Char} (h : front <+: cs) :
    (charBytes cs).take (byteLength front) = charBytes front := by
  obtain ⟨rest, rfl⟩ := h
  rw [charBytes_append, ← length_charBytes, List.take_left]

/-- A cut ends at the last boundary. -/
theorem cutBytes?_eq_some {bytes : List UInt8} {size stop : Nat} (cut : CutAt bytes size stop) :
    cutBytes? bytes size = some (bytes.take stop) := by
  unfold cutBytes?
  split
  · rename_i fits
    -- the end is a boundary, and the last one
    have whole : bytes.length ≤ stop := cut.last _ fits (by simp [isBoundary])
    rw [List.take_of_length_le whole]
  · rw [boundaryFrom?_eq_some cut.within cut.boundary cut.last, Option.map_some]

/-- A character of four bytes does not fit in three. -/
example : cutBytes? (utf8Encode "a😀") 4 = some (utf8Encode "a") := by decide +kernel

/-! ## 4. Texts for messages -/

/-- What is dropped at the end is of the class. -/
theorem dropEnd_append (p : Char → Bool) (cs : List Char) :
    ∃ dropped, dropEnd p cs ++ dropped = cs ∧ ∀ c ∈ dropped, p c = true := by
  refine ⟨(cs.reverse.takeWhile p).reverse, ?_, ?_⟩
  · rw [dropEnd, ← List.reverse_append, List.takeWhile_append_dropWhile, List.reverse_reverse]
  · intro c hc
    exact List.all_eq_true.1 List.all_takeWhile c (List.mem_reverse.1 hc)

theorem toList_prefixWithin (s : String) (size : Nat) :
    (prefixWithin s size).toList = takeWithin size s.toList := String.toList_ofList

/-- A text for messages is what is left of the prefix without the blanks at its end, and dots for what
was cut. -/
theorem truncateLong_eq (s : String) :
    ∃ kept blanks : String, prefixWithin s longTextLimit = kept ++ blanks
      ∧ (∀ c ∈ blanks.toList, isBlank c = true)
      ∧ truncateLong s = kept ++ if longTextLimit < (utf8Encode s).length then "..." else "" := by
  obtain ⟨dropped, whole, blank⟩ := dropEnd_append isBlank (prefixWithin s longTextLimit).toList
  refine ⟨trimEnd (prefixWithin s longTextLimit), String.ofList dropped, ?_, ?_, ?_⟩
  · rw [trimEnd, ← String.ofList_append, whole, String.ofList_toList]
  · rwa [String.toList_ofList]
  · rw [truncateLong, utf8Encode_eq, length_charBytes]

/-- **Texts are cut between characters.** Cutting the bytes of a text to a size ends, at the last boundary
that the size allows and at most three bytes in front of it, and what is left is the UTF-8 form of the
prefix. So a text for messages has at most 500 bytes, and but for the dots of an over-long text it is a
prefix of the text, the longest one of 497 bytes without the blanks at its end. -/
theorem cuts_at_last_boundary (s : String) :
    (∀ size, ∃ stop, CutAt (utf8Encode s) size stop
        ∧ cutBytes? (utf8Encode s) size = some ((utf8Encode s).take stop)
        ∧ utf8Decode? ((utf8Encode s).take stop) = some (prefixWithin s size))
      ∧ (utf8Encode (truncateLong s)).length ≤ 500
      ∧ ∃ kept blanks : String, kept.toList <+: s.toList
        ∧ prefixWithin s longTextLimit = kept ++ blanks ∧ (∀ c ∈ blanks.toList, isBlank c = true)
        ∧ truncateLong s = kept ++ if longTextLimit < (utf8Encode s).length then "..." else "" := by
  refine ⟨fun size => ?_, ?_⟩
  · have cut := cutAt_takeWithin size s.toList
    have text := utf8Decode?_utf8Encode (prefixWithin s size)
    rw [utf8Encode_eq, toList_prefixWithin, ← take_charBytes (takeWithin_isPrefix size s.toList)] at text
    rw [← utf8Encode_eq] at cut text
    exact ⟨_, cut, cutBytes?_eq_some cut, text⟩
  · obtain ⟨kept, blanks, parts, blank, shown⟩ := truncateLong_eq s
    have front : kept.toList <+: takeWithin longTextLimit s.toList := by
      rw [← toList_prefixWithin, parts, String.toList_append]
      exact List.prefix_append _ _
    refine ⟨?_, kept, blanks, front.trans (takeWithin_isPrefix _ _), parts, blank, shown⟩
    have short := byteLength_mono front
    have within := byteLength_takeWithin_le longTextLimit s.toList
    have dots : byteLength (if longTextLimit < (utf8Encode s).length then "..." else "").toList ≤ 3 := by
      split <;> decide
    rw [longTextLimit] at within short
    rw [utf8Encode_eq, length_charBytes, shown, String.toList_append, byteLength_append]
    omega

end TypedStore.Text
