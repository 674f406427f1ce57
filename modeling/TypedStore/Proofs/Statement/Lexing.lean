/-
The tokens of a statement are those of its grammar. The cut goes over characters and decides by
functions that count; the grammar goes over bytes and says what each kind of token is. Both meet
kind by kind: what the functions count is a quotation, a line, a nested comment, a first occurrence or
a maximal run, and a character outside ASCII is as many plain bytes as its encoding has.
-/
import TypedStore.Proofs.Statement.Grammar

set_option autoImplicit false

namespace TypedStore.Statement

open TypedStore.Text

/-! ## 1. Classes of bytes -/

private theorem class_below : ∀ n < 128, isWordByte (UInt8.ofNat n) = isWordChar (Char.ofNat n)
    ∧ isDigitByte (UInt8.ofNat n) = (Char.ofNat n).isDigit := by
  decide +kernel

private theorem ofNat_of_isAscii {c : Char} (h : IsAscii c) :
    ∃ n < 128, c = Char.ofNat n ∧ ascii c = UInt8.ofNat n := by
  refine ⟨c.toNat, Nat.lt_succ_of_le (val_le_of_isAscii h), (Char.ofNat_toNat c).symm, ?_⟩
  -- a number below 128 is its own low byte
  have small := val_le_of_isAscii h
  have same : (ascii c).toNat = (UInt8.ofNat c.toNat).toNat := by
    rw [toNat_ascii h]
    simp only [UInt8.toNat_ofNat', Char.toNat]
    omega
  exact UInt8.toNat_inj.1 same

theorem isWordByte_ascii {c : Char} (h : IsAscii c) : isWordByte (ascii c) = isWordChar c := by
  obtain ⟨n, hn, rfl, hb⟩ := ofNat_of_isAscii h
  rw [hb, (class_below n hn).1]

theorem isDigitByte_ascii {c : Char} (h : IsAscii c) : isDigitByte (ascii c) = c.isDigit := by
  obtain ⟨n, hn, rfl, hb⟩ := ofNat_of_isAscii h
  rw [hb, (class_below n hn).2]

theorem isAscii_of_isWordChar {c : Char} (h : isWordChar c = true) : IsAscii c :=
  utf8Size_of_isWordChar h

theorem lt_of_isWordByte {b : UInt8} (h : isWordByte b = true) : b < 128 := by
  revert h
  have all : ∀ n < 256, isWordByte (UInt8.ofNat n) = true → UInt8.ofNat n < 128 := by decide +kernel
  have := all b.toNat b.toNat_lt
  rwa [UInt8.ofNat_toNat] at this

/-! ## 2. What precedes -/

/-- The bytes in front of a position, nearest first, of the characters in front of it. -/
def behind (before : List Char) : List UInt8 := (charBytes before.reverse).reverse

@[simp] theorem behind_nil : behind [] = [] := rfl

theorem behind_append (text before : List Char) :
    behind (text.reverse ++ before) = (charBytes text).reverse ++ behind before := by
  simp only [behind, List.reverse_append, List.reverse_reverse, charBytes_append]

theorem behind_cons_of_isAscii {c : Char} (h : IsAscii c) (before : List Char) :
    behind (c :: before) = ascii c :: behind before := by
  have := behind_append [c] before
  rwa [charBytes_of_isAscii (by simpa using h)] at this

/-- A character above ASCII leaves a byte above ASCII behind it. -/
theorem exists_behind_cons {c : Char} (h : ¬ IsAscii c) (before : List Char) :
    ∃ b bs, behind (c :: before) = b :: bs ∧ ¬ b < 128 := by
  have split := behind_append [c] before
  rw [List.reverse_singleton, List.singleton_append, charBytes_cons, charBytes_nil,
    List.append_nil] at split
  -- the last byte of the character is the nearest one
  cases hc : (String.utf8EncodeChar c).reverse with
  | nil => exact absurd (List.reverse_eq_nil_iff.1 hc) String.utf8EncodeChar_ne_nil
  | cons b bs =>
    rw [hc, List.cons_append] at split
    refine ⟨b, bs ++ behind before, split, high_of_not_isAscii h b ?_⟩
    rw [← List.mem_reverse, hc]
    exact List.mem_cons_self

theorem isWordByte_high {b : UInt8} (h : ¬ b < 128) : isWordByte b = false :=
  Bool.eq_false_iff.2 fun word => h (lt_of_isWordByte word)

theorem isWordChar_high {c : Char} (h : ¬ IsAscii c) : isWordChar c = false :=
  Bool.eq_false_iff.2 fun word => h (isAscii_of_isWordChar word)

theorem behindWord_behind (before : List Char) :
    behindWord (behind before) = (before.head?.map isWordChar).getD false := by
  cases before with
  | nil => rfl
  | cons c before =>
    by_cases h : IsAscii c
    · rw [behind_cons_of_isAscii h]
      exact isWordByte_ascii h
    · obtain ⟨b, bs, hb, high⟩ := exists_behind_cons h before
      rw [hb]
      exact (isWordByte_high high).trans (isWordChar_high h).symm

theorem opensEscapes_behind (before : List Char) :
    opensEscapes (behind before) = escapesBefore before := by
  cases before with
  | nil => rfl
  | cons e before =>
    by_cases h : IsAscii e
    · rw [behind_cons_of_isAscii h, opensEscapes, behindWord_behind, escapesBefore]
      -- a letter is compared as its byte
      have upper : (ascii e == ascii 'E') = (e == 'E') := by
        rw [Bool.eq_iff_iff, beq_iff_eq, beq_iff_eq, ascii_inj h (by decide)]
      have lower : (ascii e == ascii 'e') = (e == 'e') := by
        rw [Bool.eq_iff_iff, beq_iff_eq, beq_iff_eq, ascii_inj h (by decide)]
      rw [upper, lower]
    · obtain ⟨b, bs, hb, high⟩ := exists_behind_cons h before
      -- neither the character nor its last byte is a letter
      have upper : (e == 'E') = false := beq_false_of_ne fun same => h (same ▸ by decide)
      have lower : (e == 'e') = false := beq_false_of_ne fun same => h (same ▸ by decide)
      have upper' : (b == ascii 'E') = false := beq_false_of_ne fun same => high (same ▸ by decide)
      have lower' : (b == ascii 'e') = false := beq_false_of_ne fun same => high (same ▸ by decide)
      rw [hb, opensEscapes, escapesBefore, upper, lower, upper', lower']
      rfl

theorem head?_behind_eq_dollar (before : List Char) :
    (behind before).head? = some (ascii '$') ↔ before.head? = some '$' := by
  cases before with
  | nil => simp
  | cons c before =>
    by_cases h : IsAscii c
    · rw [behind_cons_of_isAscii h, List.head?_cons, List.head?_cons, Option.some.injEq,
        Option.some.injEq, ascii_inj h (by decide)]
    · obtain ⟨b, bs, hb, high⟩ := exists_behind_cons h before
      have notDollar : c ≠ '$' := fun same => h (same ▸ by decide)
      have notDollar' : b ≠ ascii '$' := fun same => high (same ▸ by decide)
      simp [hb, notDollar, notDollar']

theorem markerMayBegin_behind (before : List Char) :
    MarkerMayBegin (behind before)
      ↔ (before.head?.map fun c => isWordChar c || c == '$').getD false = false := by
  rw [MarkerMayBegin, behindWord_behind, Ne, head?_behind_eq_dollar]
  cases before <;> simp

/-! ## 3. Quotes and lines -/

theorem quoted_high {quote : UInt8} {escapes : Bool} (low : quote < 128) {bs : List UInt8}
    (high : ∀ b ∈ bs, ¬ b < 128) {s inside rest : List UInt8}
    (more : Quoted quote escapes s inside rest) :
    Quoted quote escapes (bs ++ s) (bs ++ inside) rest := by
  induction bs with
  | nil => exact more
  | cons b bs ih =>
    have hb : ¬ b < 128 := high b List.mem_cons_self
    refine .other (fun same => hb (same ▸ low)) (fun _ same => hb (same ▸ by decide)) ?_
    exact ih fun x hx => high x (List.mem_cons_of_mem _ hx)

/-- A character that neither closes nor protects is read as it stands. -/
theorem quoted_char {quote c : Char} {escapes : Bool} (isAscii : IsAscii quote) (notQuote : c ≠ quote)
    (notEscape : escapes = true → c ≠ '\\') {s inside rest : List UInt8}
    (more : Quoted (ascii quote) escapes s inside rest) :
    Quoted (ascii quote) escapes (String.utf8EncodeChar c ++ s) (String.utf8EncodeChar c ++ inside)
      rest := by
  by_cases h : IsAscii c
  · rw [utf8EncodeChar_of_isAscii h]
    refine .other ?_ ?_ more
    · rwa [Ne, ascii_inj h isAscii]
    · intro escaping
      rw [Ne, ascii_inj h (by decide)]
      exact notEscape escaping
  · exact quoted_high (ascii_lt isAscii) (high_of_not_isAscii h) more

/-- A backslash protects a whole character, since only its first byte could be taken for a quote. -/
theorem quoted_escaped {quote d : Char} {escapes : Bool} (isAscii : IsAscii quote)
    (escaping : escapes = true) {s inside rest : List UInt8}
    (more : Quoted (ascii quote) escapes s inside rest) :
    Quoted (ascii quote) escapes (ascii '\\' :: (String.utf8EncodeChar d ++ s))
      (ascii '\\' :: (String.utf8EncodeChar d ++ inside)) rest := by
  by_cases h : IsAscii d
  · rw [utf8EncodeChar_of_isAscii h]
    exact .escaped escaping more
  · obtain ⟨b, bs, hb, -, high⟩ := exists_high_cons h
    rw [hb]
    exact .escaped escaping (quoted_high (ascii_lt isAscii) high more)

/-- What a quote opens has the extent that the grammar gives it. -/
theorem quoted_quotedExtent {quote : Char} {escapes : Bool} (isAscii : IsAscii quote)
    (cs : List Char) :
    Quoted (ascii quote) escapes (charBytes cs)
      (charBytes (cs.take (quotedExtent quote escapes cs)))
      (charBytes (cs.drop (quotedExtent quote escapes cs))) := by
  -- the cases are those of the extent: at the end, at a lone character, at an escape, at a doubled or a
  -- closing quote, and inside
  fun_induction quotedExtent quote escapes cs with
  | case1 => exact .ended
  | case2 c =>
    by_cases close : c = quote
    · subst close
      simp only [List.take_succ_cons, List.take_zero, List.drop_succ_cons, List.drop_zero]
      rw [charBytes_of_isAscii (by simpa using isAscii)]
      exact .closed (by simp)
    · by_cases escape : escapes = true ∧ c = '\\'
      · obtain ⟨escaping, rfl⟩ := escape
        exact .endedEscape escaping
      · exact quoted_char isAscii close (fun escaping same => escape ⟨escaping, same⟩) .ended
  | case3 c d rest escape ih =>
    obtain ⟨escaping, rfl⟩ : escapes = true ∧ c = '\\' := by simpa using escape
    rw [Nat.add_comm 2]
    exact quoted_escaped isAscii escaping ih
  | case4 c d rest notEscape close double ih =>
    obtain rfl : c = quote := by simpa using close
    obtain rfl : d = c := by simpa using double
    rw [Nat.add_comm 2, List.take_succ_cons, List.take_succ_cons, List.drop_succ_cons,
      List.drop_succ_cons]
    simp only [charBytes_cons_of_isAscii isAscii]
    exact .doubled ih
  | case5 c d rest notEscape close single =>
    obtain rfl : c = quote := by simpa using close
    simp only [List.take_succ_cons, List.take_zero, List.drop_succ_cons, List.drop_zero,
      charBytes_cons_of_isAscii isAscii, charBytes_nil]
    refine .closed ?_
    rw [Ne, head?_charBytes_eq_ascii isAscii]
    simpa using single
  | case6 c d rest notEscape notClose ih =>
    rw [Nat.add_comm 1]
    refine quoted_char isAscii (by simpa using notClose) (fun escaping same => ?_) ih
    exact notEscape (by simp [escaping, same])

/-- A line comment has the extent that the grammar gives it. -/
theorem line_lineExtent (cs : List Char) :
    Line (charBytes cs) (charBytes (cs.take (lineExtent cs)))
      (charBytes (cs.drop (lineExtent cs))) := by
  fun_induction lineExtent cs with
  | case1 => exact .ended
  | case2 c rest newline =>
    obtain rfl : c = '\n' := by simpa using newline
    exact .newline
  | case3 c rest notNewline ih =>
    rw [Nat.add_comm 1, List.take_succ_cons, List.drop_succ_cons, charBytes_cons, charBytes_cons]
    -- none of the bytes of another character is a newline
    have differs : ∀ b ∈ String.utf8EncodeChar c, b ≠ ascii '\n' := by
      intro b hb same
      by_cases h : IsAscii c
      · rw [utf8EncodeChar_of_isAscii h, List.mem_singleton] at hb
        rw [hb, ascii_inj h (by decide)] at same
        exact notNewline (by simp [same])
      · exact high_of_not_isAscii h b hb (same ▸ by decide)
    generalize String.utf8EncodeChar c = bs at differs
    induction bs with
    | nil => exact ih
    | cons b bs ihBytes =>
      refine .other (differs b List.mem_cons_self) (ihBytes fun x hx => ?_)
      exact differs x (List.mem_cons_of_mem _ hx)

/-! ## 4. Comments -/

/-- What is behind `depth + 1` openings: as many comments, each up to its closing. -/
def Comments : Nat → List UInt8 → List UInt8 → List UInt8 → Prop
  | 0, s, inside, rest => Comment s inside rest
  | depth + 1, s, inside, rest =>
    ∃ inner between outer, Comment s inner between ∧ Comments depth between outer rest
      ∧ inside = inner ++ outer

/-- A byte that neither opens nor closes belongs to the innermost comment. -/
theorem comments_other {depth : Nat} {b : UInt8} {s inside rest : List UInt8}
    (noOpening : ¬ (b = ascii '/' ∧ s.head? = some (ascii '*')))
    (noClosing : ¬ (b = ascii '*' ∧ s.head? = some (ascii '/')))
    (more : Comments depth s inside rest) : Comments depth (b :: s) (b :: inside) rest := by
  cases depth with
  | zero => exact .other noOpening noClosing more
  | succ depth =>
    obtain ⟨inner, between, outer, comment, comments, rfl⟩ := more
    exact ⟨b :: inner, between, outer, .other noOpening noClosing comment, comments, rfl⟩

theorem comments_char {depth : Nat} {c : Char} {cs : List Char} {inside rest : List UInt8}
    (noOpening : ¬ (c = '/' ∧ cs.head? = some '*')) (noClosing : ¬ (c = '*' ∧ cs.head? = some '/'))
    (more : Comments depth (charBytes cs) inside rest) :
    Comments depth (charBytes (c :: cs)) (String.utf8EncodeChar c ++ inside) rest := by
  rw [charBytes_cons]
  by_cases h : IsAscii c
  · rw [utf8EncodeChar_of_isAscii h, List.singleton_append, List.singleton_append]
    refine comments_other ?_ ?_ more
    · rwa [ascii_inj h (by decide), head?_charBytes_eq_ascii (c := '*') (by decide)]
    · rwa [ascii_inj h (by decide), head?_charBytes_eq_ascii (c := '/') (by decide)]
  · have high := high_of_not_isAscii h
    -- bytes above ASCII open and close nothing, one by one
    generalize String.utf8EncodeChar c = bs at high
    induction bs with
    | nil => exact more
    | cons b bs ih =>
      have hb : ¬ b < 128 := high b List.mem_cons_self
      refine comments_other (fun same => hb (same.1 ▸ by decide)) (fun same => hb (same.1 ▸ by decide))
        (ih fun x hx => high x (List.mem_cons_of_mem _ hx))

/-- Where the text ends, so do all comments. -/
theorem comments_ended (depth : Nat) : Comments depth [] [] [] := by
  induction depth with
  | zero => exact .ended
  | succ depth ih => exact ⟨[], [], [], .ended, ih, rfl⟩

/-- **Counting openings is nesting.** Behind `depth + 1` openings a text goes on with as many comments,
and the count runs out where the outermost of them closes. -/
theorem comments_blockExtent (depth : Nat) (cs : List Char) :
    Comments depth (charBytes cs) (charBytes (cs.take (blockExtent depth cs)))
      (charBytes (cs.drop (blockExtent depth cs))) := by
  fun_induction blockExtent depth cs with
  | case1 depth => exact comments_ended depth
  | case2 depth c =>
    have ended : Comments depth (charBytes [c]) _ _ :=
      comments_char (by simp) (by simp) (comments_ended depth)
    simpa [charBytes_cons] using ended
  | case3 depth c d rest opening ih =>
    obtain ⟨rfl, rfl⟩ : c = '/' ∧ d = '*' := by simpa using opening
    -- one comment more is open: the first of them to close is the one that opens here
    obtain ⟨inner, between, outer, comment, comments, split⟩ := ih
    rw [Nat.add_comm 2, List.take_succ_cons, List.take_succ_cons, List.drop_succ_cons,
      List.drop_succ_cons]
    simp only [charBytes_cons_of_isAscii (by decide : IsAscii '/'),
      charBytes_cons_of_isAscii (by decide : IsAscii '*'), split]
    cases depth with
    | zero => exact .nested comment comments
    | succ depth =>
      obtain ⟨inner', between', outer', comment', comments', rfl⟩ := comments
      refine ⟨_, between', outer', .nested comment comment', comments', ?_⟩
      simp only [List.cons_append, List.append_assoc]
  | case4 c d rest notOpening closing =>
    obtain ⟨rfl, rfl⟩ : c = '*' ∧ d = '/' := by simpa using closing
    exact .closed
  | case5 c d rest notOpening closing depth ih =>
    obtain ⟨rfl, rfl⟩ : c = '*' ∧ d = '/' := by simpa using closing
    rw [Nat.add_comm 2]
    -- the innermost comment closes, and the others go on
    exact ⟨[ascii '*', ascii '/'], charBytes rest, _, .closed, ih, rfl⟩
  | case6 depth c d rest notOpening notClosing ih =>
    rw [Nat.add_comm 1]
    exact comments_char (by simpa using notOpening) (by simpa using notClosing) ih

/-! ## 5. Dollar markers -/

/-- A text that begins with an ASCII character begins nowhere inside the bytes of a character. -/
theorem not_prefix_drop_of_pos {n : Char} {needle : List Char} (isAscii : IsAscii n) {c : Char}
    {rest : List Char} {k : Nat} (pos : 0 < k) (inside : k < (String.utf8EncodeChar c).length) :
    ¬ charBytes (n :: needle) <+: (charBytes (c :: rest)).drop k := by
  rintro ⟨s, hs⟩
  have notAscii : ¬ IsAscii c := by
    intro h
    rw [utf8EncodeChar_of_isAscii h, List.length_singleton] at inside
    omega
  rw [charBytes_cons c, List.drop_append_of_le_length (Nat.le_of_lt inside),
    List.drop_eq_getElem_cons inside, charBytes_cons_of_isAscii isAscii, List.cons_append,
    List.cons_append, List.cons.injEq] at hs
  exact high_of_not_isAscii notAscii _ (List.getElem_mem inside) (hs.1 ▸ ascii_lt isAscii)

theorem drop_charBytes_cons {c : Char} {rest : List Char} {k : Nat}
    (beyond : (String.utf8EncodeChar c).length ≤ k) :
    (charBytes (c :: rest)).drop k = (charBytes rest).drop (k - (String.utf8EncodeChar c).length) := by
  rw [charBytes_cons, List.drop_append, List.drop_eq_nil_of_le beyond, List.nil_append]

/-- Looking for an ASCII text among characters is looking for it among their bytes. -/
theorem firstOccurrence_of_distanceTo? {n : Char} {needle : List Char}
    (isAscii : ∀ c ∈ n :: needle, IsAscii c) {cs : List Char} {gap : Nat}
    (found : distanceTo? (n :: needle) cs = some gap) :
    FirstOccurrence (charBytes (n :: needle)) (charBytes cs) (charBytes (cs.take gap))
      (charBytes (cs.drop (gap + (n :: needle).length))) := by
  induction cs generalizing gap with
  | nil => simp [distanceTo?] at found
  | cons c rest ih =>
    rw [distanceTo?] at found
    split at found
    · rename_i stands
      obtain rfl : 0 = gap := Option.some.inj found
      obtain ⟨left, hleft⟩ := List.isPrefixOf_iff_prefix.1 stands
      rw [← hleft]
      refine ⟨?_, by simp⟩
      rw [Nat.zero_add, List.take_zero, List.drop_left, charBytes_append]
      rfl
    · rename_i notHere
      obtain ⟨gap, found', rfl⟩ := Option.map_eq_some_iff.1 found
      obtain ⟨split, first⟩ := ih found'
      have length : (charBytes (c :: rest.take gap)).length
          = (String.utf8EncodeChar c).length + (charBytes (rest.take gap)).length := by
        rw [charBytes_cons, List.length_append]
      refine ⟨?_, ?_⟩
      · rw [Nat.add_right_comm, List.take_succ_cons, List.drop_succ_cons, charBytes_cons,
          charBytes_cons, List.append_assoc, ← split]
      · intro k hk
        rw [List.take_succ_cons, length] at hk
        -- an earlier occurrence would stand here, inside the first character, or in the rest
        rcases Nat.eq_zero_or_pos k with rfl | pos
        · rw [List.drop_zero, charBytes_prefix_iff isAscii]
          rwa [← List.isPrefixOf_iff_prefix]
        · by_cases inside : k < (String.utf8EncodeChar c).length
          · exact not_prefix_drop_of_pos (isAscii n List.mem_cons_self) pos inside
          · rw [drop_charBytes_cons (Nat.le_of_not_lt inside)]
            exact first _ (by omega)

theorem not_infix_of_distanceTo? {n : Char} {needle : List Char}
    (isAscii : ∀ c ∈ n :: needle, IsAscii c) {cs : List Char}
    (missing : distanceTo? (n :: needle) cs = none) :
    ¬ charBytes (n :: needle) <:+: charBytes cs := by
  induction cs with
  | nil =>
    rw [charBytes_nil, List.infix_nil, charBytes_cons_of_isAscii (isAscii n List.mem_cons_self)]
    exact List.cons_ne_nil _ _
  | cons c rest ih =>
    rw [distanceTo?] at missing
    split at missing
    · exact absurd missing (Option.some_ne_none 0)
    · rename_i notHere
      have notLater := ih (Option.map_eq_none_iff.1 missing)
      rintro ⟨front, back, whole⟩
      rw [List.append_assoc] at whole
      have stands : charBytes (n :: needle) <+: (charBytes (c :: rest)).drop front.length := by
        rw [← whole, List.drop_left]
        exact List.prefix_append _ _
      -- the same three places as for an earlier occurrence
      rcases Nat.eq_zero_or_pos front.length with zero | pos
      · rw [zero, List.drop_zero, charBytes_prefix_iff isAscii] at stands
        exact notHere (List.isPrefixOf_iff_prefix.2 stands)
      · by_cases inside : front.length < (String.utf8EncodeChar c).length
        · exact not_prefix_drop_of_pos (isAscii n List.mem_cons_self) pos inside stands
        · rw [drop_charBytes_cons (Nat.le_of_not_lt inside)] at stands
          exact notLater (stands.isInfix.trans (List.drop_suffix _ _).isInfix)

/-! ## 6. Words -/

/-- Every text begins with a word, possibly empty, that is as long as it can be. -/
theorem exists_word (cs : List Char) :
    ∃ word rest, cs = word ++ rest ∧ (∀ c ∈ word, isWordChar c = true)
      ∧ ∀ c, rest.head? = some c → isWordChar c = false := by
  induction cs with
  | nil => exact ⟨[], [], rfl, by simp, by simp⟩
  | cons c cs ih =>
    by_cases h : isWordChar c = true
    · obtain ⟨word, rest, rfl, isWord, maximal⟩ := ih
      refine ⟨c :: word, rest, rfl, ?_, maximal⟩
      intro d hd
      rcases List.mem_cons.1 hd with rfl | hd
      · exact h
      · exact isWord d hd
    · exact ⟨[], c :: cs, rfl, by simp, by simpa using h⟩

theorem takeWhile_isWordChar {word rest : List Char} (isWord : ∀ c ∈ word, isWordChar c = true)
    (maximal : ∀ c, rest.head? = some c → isWordChar c = false) :
    (word ++ rest).takeWhile isWordChar = word := by
  rw [List.takeWhile_append_of_pos isWord]
  cases rest with
  | nil => simp
  | cons c rest => simp [maximal c rfl]

theorem charBytes_eq_nil_iff {cs : List Char} : charBytes cs = [] ↔ cs = [] := by
  cases cs with
  | nil => simp
  | cons c cs => simp [charBytes_cons, String.utf8EncodeChar_ne_nil]

theorem isWordByte_of_mem_charBytes {cs : List Char} (h : ∀ c ∈ cs, isWordChar c = true) :
    ∀ b ∈ charBytes cs, isWordByte b = true := by
  rw [charBytes_of_isAscii fun c hc => isAscii_of_isWordChar (h c hc)]
  intro b hb
  obtain ⟨c, hc, rfl⟩ := List.mem_map.1 hb
  rw [isWordByte_ascii (isAscii_of_isWordChar (h c hc)), h c hc]

theorem isWordByte_head?_charBytes {cs : List Char}
    (h : ∀ c, cs.head? = some c → isWordChar c = false) :
    ∀ b, (charBytes cs).head? = some b → isWordByte b = false := by
  intro b hb
  cases cs with
  | nil => simp at hb
  | cons c cs =>
    by_cases isAscii : IsAscii c
    · rw [charBytes_cons_of_isAscii isAscii, List.head?_cons, Option.some.injEq] at hb
      rw [← hb, isWordByte_ascii isAscii, h c rfl]
    · obtain ⟨x, xs, hx, high, -⟩ := exists_high_cons isAscii
      rw [charBytes_cons, hx, List.cons_append, List.head?_cons, Option.some.injEq] at hb
      exact hb ▸ isWordByte_high high

/-- A run of word bytes at the front of a text is a word of the text. -/
theorem exists_word_of_charBytes {cs : List Char} {run s : List UInt8}
    (isWord : ∀ b ∈ run, isWordByte b = true) (h : charBytes cs = run ++ s) :
    ∃ word rest, cs = word ++ rest ∧ (∀ c ∈ word, isWordChar c = true) ∧ charBytes word = run
      ∧ charBytes rest = s := by
  obtain ⟨word, rest, split, isAscii, rfl, hrest⟩ :=
    exists_of_charBytes_eq_append (fun b hb => lt_of_isWordByte (isWord b hb)) h
  refine ⟨word, rest, split, ?_, charBytes_of_isAscii isAscii, hrest⟩
  intro c hc
  rw [← isWordByte_ascii (isAscii c hc)]
  exact isWord _ (List.mem_map_of_mem hc)

/-! ## 7. Markers -/

theorem isTag_charBytes {tag : List Char} (isWord : ∀ c ∈ tag, isWordChar c = true) :
    IsTag (charBytes tag) ↔ (tag.head?.map Char.isDigit).getD false = false := by
  constructor
  · rintro ⟨-, noDigit⟩
    cases tag with
    | nil => rfl
    | cons c tag =>
      have isAscii := isAscii_of_isWordChar (isWord c List.mem_cons_self)
      have := noDigit (ascii c) (by rw [charBytes_cons_of_isAscii isAscii]; rfl)
      rwa [isDigitByte_ascii isAscii] at this
  · intro noDigit
    refine ⟨isWordByte_of_mem_charBytes isWord, ?_⟩
    intro b hb
    cases tag with
    | nil => simp at hb
    | cons c tag =>
      have isAscii := isAscii_of_isWordChar (isWord c List.mem_cons_self)
      rw [charBytes_cons_of_isAscii isAscii, List.head?_cons, Option.some.injEq] at hb
      rw [← hb, isDigitByte_ascii isAscii]
      exact noDigit

/-- A marker is its tag between dollars, where one may begin. -/
theorem marker?_eq_some {before rest m : List Char} :
    marker? before rest = some m ↔ ∃ tag left, rest = tag ++ '$' :: left ∧ m = '$' :: (tag ++ ['$'])
      ∧ (∀ c ∈ tag, isWordChar c = true) ∧ IsTag (charBytes tag) ∧ MarkerMayBegin (behind before) := by
  have dollar : isWordChar '$' = false := by decide
  constructor
  · intro found
    -- what is tried as a tag is the longest word behind the dollar
    obtain ⟨tag, left, rfl, isWord, maximal⟩ := exists_word rest
    simp only [marker?, takeWhile_isWordChar isWord maximal, List.drop_left] at found
    split at found
    · cases found
    · rename_i mayBegin
      split at found
      · cases found
      · rename_i noDigit
        split at found
        · rename_i closed
          obtain ⟨left, rfl⟩ := List.head?_eq_some_iff.1 closed
          refine ⟨tag, left, rfl, (Option.some.inj found).symm, isWord, ?_, ?_⟩
          · rw [isTag_charBytes isWord]
            cases tag with
            | nil => rfl
            | cons c tag => simpa using noDigit
          · rw [markerMayBegin_behind]
            exact Bool.eq_false_iff.2 mayBegin
        · cases found
  · rintro ⟨tag, left, rfl, rfl, isWord, isTag, mayBegin⟩
    rw [markerMayBegin_behind] at mayBegin
    rw [isTag_charBytes isWord] at isTag
    -- a dollar is no word character, so the word ends with the tag
    have word : (tag ++ '$' :: left).takeWhile isWordChar = tag :=
      takeWhile_isWordChar isWord (by simpa using dollar)
    have noDigit : ((tag ++ '$' :: left).head?.map Char.isDigit).getD false = false := by
      cases tag with
      | nil => rfl
      | cons c tag => exact isTag
    simp only [marker?, mayBegin, noDigit, word, List.drop_left, List.head?_cons, if_true,
      Bool.false_eq_true, if_false]

theorem charBytes_marker {tag : List Char} :
    charBytes ('$' :: (tag ++ ['$'])) = marker (charBytes tag) := by
  rw [charBytes_cons_of_isAscii (by decide), charBytes_append,
    charBytes_cons_of_isAscii (by decide), charBytes_nil, marker]

/-- Where the bytes of a text show a marker, the text has one. -/
theorem exists_marker? {before rest : List Char} {tag s : List UInt8}
    (mayBegin : MarkerMayBegin (behind before)) (isTag : IsTag tag)
    (h : charBytes rest = tag ++ ascii '$' :: s) : ∃ m, marker? before rest = some m := by
  obtain ⟨word, left, rfl, isWord, rfl, hleft⟩ := exists_word_of_charBytes isTag.1 h
  obtain ⟨c, left, rfl, hc, same, -⟩ := exists_of_charBytes_eq_cons (by decide) hleft
  obtain rfl : c = '$' := (ascii_inj hc (by decide)).1 same
  exact ⟨_, marker?_eq_some.2 ⟨word, left, rfl, rfl, isWord, isTag, mayBegin⟩⟩

/-! ## 8. Tokens -/

/-! What is found at a dollar and at a colon, case by case. -/

theorem nextToken_of_no_marker {before rest : List Char} (none : marker? before rest = none) :
    nextToken before '$' rest = (.plain, 0) := by
  unfold nextToken
  rw [if_neg (by decide), if_neg (by decide), if_neg fun h => absurd h.1 (by decide),
    if_neg fun h => absurd h.1 (by decide), if_pos rfl, none]

section Marker

variable {before rest m : List Char} (opens : marker? before rest = some m)

include opens

theorem nextToken_of_second {gap : Nat}
    (second : distanceTo? m (rest.drop (m.length - 1)) = some gap) :
    nextToken before '$' rest = (.dollarBlock, m.length - 1 + gap + m.length) := by
  unfold nextToken
  rw [if_neg (by decide), if_neg (by decide), if_neg fun h => absurd h.1 (by decide),
    if_neg fun h => absurd h.1 (by decide), if_pos rfl, opens]
  dsimp only
  rw [second]

theorem nextToken_of_lone (lone : distanceTo? m (rest.drop (m.length - 1)) = none) :
    nextToken before '$' rest = (.loneMarker, m.length - 1) := by
  unfold nextToken
  rw [if_neg (by decide), if_neg (by decide), if_neg fun h => absurd h.1 (by decide),
    if_neg fun h => absurd h.1 (by decide), if_pos rfl, opens]
  dsimp only
  rw [lone]

end Marker

theorem nextToken_colon (before rest : List Char) :
    nextToken before ':' rest = if rest.head? = some ':' then (.cast, 1)
      else if (rest.takeWhile isWordChar).isEmpty then (.plain, 0)
      else (.placeholder, (rest.takeWhile isWordChar).length) := by
  unfold nextToken
  rw [if_neg (by decide), if_neg (by decide), if_neg fun h => absurd h.1 (by decide),
    if_neg fun h => absurd h.1 (by decide), if_neg (by decide), if_pos rfl]

theorem nextToken_of_word {word rest : List Char} (before : List Char) (nonempty : word ≠ [])
    (isWord : ∀ c ∈ word, isWordChar c = true)
    (maximal : ∀ c, rest.head? = some c → isWordChar c = false) :
    nextToken before ':' (word ++ rest) = (.placeholder, word.length) := by
  have notColon : (word ++ rest).head? ≠ some ':' := by
    obtain ⟨c, word, rfl⟩ := List.exists_cons_of_ne_nil nonempty
    intro colon
    have isWordColon := isWord c List.mem_cons_self
    rw [Option.some.inj colon] at isWordColon
    revert isWordColon
    decide
  rw [nextToken_colon, if_neg notColon, takeWhile_isWordChar isWord maximal,
    if_neg (by rw [List.isEmpty_iff]; exact nonempty)]

theorem nextToken_of_no_word {rest : List Char} (before : List Char) (notCast : rest.head? ≠ some ':')
    (noWord : ∀ c, rest.head? = some c → isWordChar c = false) :
    nextToken before ':' rest = (.plain, 0) := by
  have run : rest.takeWhile isWordChar = [] := by
    cases rest with
    | nil => rfl
    | cons c rest =>
      rw [List.takeWhile_cons, noWord c rfl, if_neg Bool.false_ne_true]
  rw [nextToken_colon, if_neg notCast, run, List.isEmpty_nil, if_pos rfl]

/-- What is found at a dollar marker: a block up to the first marker that is equal to it, or the marker
alone where the text has no such marker. -/
theorem special_of_marker? {before rest m : List Char} (isMarker : marker? before rest = some m)
    {kind : TokenKind} {size : Nat} (found : nextToken before '$' rest = (kind, size)) :
    Special (behind before) kind (charBytes ('$' :: rest)) (charBytes ('$' :: rest.take size))
      (charBytes (rest.drop size)) := by
  have second := @nextToken_of_second _ _ _ isMarker
  have lone := nextToken_of_lone isMarker
  obtain ⟨tag, left, rfl, rfl, isWord, isTag, mayBegin⟩ := marker?_eq_some.1 isMarker
  have behindMarker : ('$' :: (tag ++ ['$'])).length - 1 = (tag ++ ['$']).length := rfl
  have whole : tag ++ '$' :: left = (tag ++ ['$']) ++ left := by simp
  have isAscii : ∀ c ∈ '$' :: (tag ++ ['$']), IsAscii c := by
    intro c hc
    have : c = '$' ∨ c ∈ tag := by simpa [or_comm, or_left_comm] using hc
    rcases this with rfl | hc
    · decide
    · exact isAscii_of_isWordChar (isWord c hc)
  have bytes : charBytes ('$' :: (tag ++ '$' :: left)) = marker (charBytes tag) ++ charBytes left := by
    rw [whole, ← List.cons_append, charBytes_append, charBytes_marker]
  rw [behindMarker, whole, List.drop_left] at second lone
  rw [whole] at found
  cases closing : distanceTo? ('$' :: (tag ++ ['$'])) left with
  | some gap =>
    rw [second closing] at found
    obtain ⟨rfl, rfl⟩ := Prod.mk.inj found
    have closed := firstOccurrence_of_distanceTo? isAscii closing
    -- the text of the block ends with the marker that closes it
    have taken : charBytes (left.take (gap + ('$' :: (tag ++ ['$'])).length))
        = charBytes (left.take gap) ++ marker (charBytes tag) := by
      have parts := closed.1
      conv at parts =>
        lhs
        rw [← List.take_append_drop (gap + ('$' :: (tag ++ ['$'])).length) left,
          charBytes_append]
      rw [← List.append_assoc, List.append_cancel_right_eq, charBytes_marker] at parts
      exact parts
    rw [charBytes_marker] at closed
    rw [bytes, whole, Nat.add_assoc, List.take_length_add_append, List.drop_length_add_append,
      ← List.cons_append, charBytes_append, charBytes_marker, taken]
    exact .dollarBlock mayBegin isTag closed
  | none =>
    rw [lone closing] at found
    obtain ⟨rfl, rfl⟩ := Prod.mk.inj found
    rw [bytes, whole, List.take_left, List.drop_left, charBytes_marker]
    refine .loneMarker mayBegin isTag ?_
    rw [← charBytes_marker]
    exact not_infix_of_distanceTo? isAscii closing

/-- What is found at a colon that no second one follows: a placeholder with the longest word there is. -/
theorem special_of_word {before word left : List Char} (nonempty : word ≠ [])
    (isWord : ∀ c ∈ word, isWordChar c = true)
    (maximal : ∀ c, left.head? = some c → isWordChar c = false) :
    Special (behind before) .placeholder (charBytes (':' :: (word ++ left)))
      (charBytes (':' :: word)) (charBytes left) := by
  simp only [charBytes_cons_of_isAscii (by decide : IsAscii ':'), charBytes_append]
  refine .placeholder (fun empty => ?_) (isWordByte_of_mem_charBytes isWord)
    (isWordByte_head?_charBytes maximal)
  exact nonempty (charBytes_eq_nil_iff.1 empty)

/-- A special token that is found is one of the grammar. -/
theorem special_nextToken {before rest : List Char} {c : Char} {kind : TokenKind} {size : Nat}
    (found : nextToken before c rest = (kind, size)) (notPlain : kind ≠ .plain) :
    Special (behind before) kind (charBytes (c :: rest)) (charBytes (c :: rest.take size))
      (charBytes (rest.drop size)) := by
  have whole := found
  simp only [nextToken] at found
  -- one branch for each kind, in the order in which they are tried
  split at found
  · rename_i isQuote
    obtain ⟨rfl, rfl⟩ := Prod.mk.inj found
    subst isQuote
    simp only [charBytes_cons_of_isAscii (by decide : IsAscii '\'')]
    refine .literal ?_
    rw [opensEscapes_behind]
    exact quoted_quotedExtent (by decide) rest
  split at found
  · rename_i isQuote
    obtain ⟨rfl, rfl⟩ := Prod.mk.inj found
    subst isQuote
    simp only [charBytes_cons_of_isAscii (by decide : IsAscii '"')]
    exact .identifier (quoted_quotedExtent (by decide) rest)
  split at found
  · rename_i isComment
    obtain ⟨rfl, rfl⟩ := Prod.mk.inj found
    obtain ⟨rfl, next⟩ := isComment
    obtain ⟨rest, rfl⟩ := List.head?_eq_some_iff.1 next
    have size : lineExtent ('-' :: rest) = lineExtent rest + 1 := by
      rw [lineExtent, if_neg (by decide), Nat.add_comm]
    rw [size, List.take_succ_cons, List.drop_succ_cons]
    simp only [charBytes_cons_of_isAscii (by decide : IsAscii '-')]
    exact .lineComment (line_lineExtent rest)
  split at found
  · rename_i isComment
    obtain ⟨rfl, rfl⟩ := Prod.mk.inj found
    obtain ⟨rfl, next⟩ := isComment
    obtain ⟨rest, rfl⟩ := List.head?_eq_some_iff.1 next
    rw [List.drop_succ_cons, List.drop_zero, Nat.add_comm 1, List.take_succ_cons,
      List.drop_succ_cons]
    simp only [charBytes_cons_of_isAscii (by decide : IsAscii '/'),
      charBytes_cons_of_isAscii (by decide : IsAscii '*')]
    exact .blockComment (comments_blockExtent 0 rest)
  split at found
  · rename_i isDollar
    subst isDollar
    cases isMarker : marker? before rest with
    | none =>
      rw [nextToken_of_no_marker isMarker] at whole
      exact absurd (Prod.mk.inj whole).1.symm notPlain
    | some m => exact special_of_marker? isMarker whole
  split at found
  · rename_i isColon
    subst isColon
    split at found
    · rename_i isCast
      obtain ⟨rfl, rfl⟩ := Prod.mk.inj found
      obtain ⟨rest, rfl⟩ := List.head?_eq_some_iff.1 isCast
      simp only [List.take_succ_cons, List.take_zero, List.drop_succ_cons, List.drop_zero,
        charBytes_cons_of_isAscii (by decide : IsAscii ':'), charBytes_nil]
      exact .cast
    · obtain ⟨word, left, rfl, isWord, maximal⟩ := exists_word rest
      rw [takeWhile_isWordChar isWord maximal] at found
      split at found
      · exact absurd (Prod.mk.inj found).1.symm notPlain
      · rename_i nonempty
        obtain ⟨rfl, rfl⟩ := Prod.mk.inj found
        rw [List.take_left, List.drop_left]
        exact special_of_word (fun empty => nonempty (List.isEmpty_iff.2 empty)) isWord maximal
  · exact absurd (Prod.mk.inj found).1.symm notPlain

/-- An ASCII byte at the front of a text is its first character. -/
theorem eq_of_charBytes_cons {c d : Char} {rest : List Char} {s : List UInt8} (hd : IsAscii d)
    (h : charBytes (c :: rest) = ascii d :: s) : c = d ∧ charBytes rest = s := by
  obtain ⟨c', rest', split, hc', same, left⟩ := exists_of_charBytes_eq_cons (ascii_lt hd) h
  obtain ⟨rfl, rfl⟩ := List.cons.inj split
  exact ⟨(ascii_inj hc' hd).1 same, left⟩

/-- Where a plain character is found, no marker begins. -/
theorem not_marker_of_nextToken {before rest : List Char} {c : Char} {size : Nat}
    (found : nextToken before c rest = (.plain, size)) {tag s : List UInt8}
    (mayBegin : MarkerMayBegin (behind before)) (isTag : IsTag tag) :
    charBytes (c :: rest) ≠ marker tag ++ s := by
  intro h
  obtain ⟨rfl, next⟩ := eq_of_charBytes_cons (by decide) (h.trans List.cons_append)
  rw [List.append_assoc, List.singleton_append] at next
  obtain ⟨m, isMarker⟩ := exists_marker? mayBegin isTag next
  -- a marker opens a block or stands alone, and neither is plain
  cases closing : distanceTo? m (rest.drop (m.length - 1)) with
  | some gap =>
    rw [nextToken_of_second isMarker closing] at found
    cases found
  | none =>
    rw [nextToken_of_lone isMarker closing] at found
    cases found

/-- Where a plain character is found, no placeholder begins. -/
theorem not_word_of_nextToken {before rest : List Char} {c : Char} {size : Nat}
    (found : nextToken before c rest = (.plain, size)) {word s : List UInt8} (nonempty : word ≠ [])
    (isWord : ∀ b ∈ word, isWordByte b = true) :
    charBytes (c :: rest) ≠ ascii ':' :: (word ++ s) := by
  intro h
  obtain ⟨rfl, next⟩ := eq_of_charBytes_cons (by decide) h
  obtain ⟨word, left, rfl, isWordChars, rfl, -⟩ := exists_word_of_charBytes isWord next
  -- the word may go on, but it does not get shorter
  obtain ⟨more, left, rfl, isMore, maximal⟩ := exists_word left
  have all : ∀ c ∈ word ++ more, isWordChar c = true := by
    intro c hc
    rcases List.mem_append.1 hc with hc | hc
    · exact isWordChars c hc
    · exact isMore c hc
  have longer : word ++ more ≠ [] := by
    intro empty
    rw [(List.append_eq_nil_iff.1 empty).1] at nonempty
    exact nonempty rfl
  rw [← List.append_assoc, nextToken_of_word before longer all maximal] at found
  cases found

/-- A plain token is one character. -/
theorem size_of_nextToken {before rest : List Char} {c : Char} {size : Nat}
    (found : nextToken before c rest = (.plain, size)) : size = 0 := by
  simp only [nextToken] at found
  split at found
  · cases found
  split at found
  · cases found
  split at found
  · cases found
  split at found
  · cases found
  split at found
  · -- a dollar is plain where it begins no marker
    split at found
    · exact (Prod.mk.inj found).2.symm
    · split at found <;> cases found
  split at found
  · -- and a colon where no word follows
    split at found
    · cases found
    split at found
    · exact (Prod.mk.inj found).2.symm
    · cases found
  · exact (Prod.mk.inj found).2.symm

/-- Where no special token is found, the grammar has none. The kinds that one or two characters tell
are excluded by these. -/
theorem not_special_of_nextToken {before rest : List Char} {c : Char} {size : Nat}
    (found : nextToken before c rest = (.plain, size)) (kind : TokenKind) (text left : List UInt8) :
    ¬ Special (behind before) kind (charBytes (c :: rest)) text left := by
  intro special
  have noMarker := @not_marker_of_nextToken _ _ _ _ found
  have noWord := @not_word_of_nextToken _ _ _ _ found
  have second : ∀ {d : Char} {s : List UInt8}, IsAscii d → charBytes rest = ascii d :: s →
      rest.head? = some d := by
    intro d s hd next
    apply (head?_charBytes_eq_ascii hd rest).1
    rw [next, List.head?_cons]
  generalize hs : charBytes (c :: rest) = s at special noMarker noWord
  cases special with
  | literal =>
    obtain ⟨rfl, -⟩ := eq_of_charBytes_cons (by decide) hs
    unfold nextToken at found
    rw [if_pos rfl] at found
    cases found
  | identifier =>
    obtain ⟨rfl, -⟩ := eq_of_charBytes_cons (by decide) hs
    unfold nextToken at found
    rw [if_neg (by decide), if_pos rfl] at found
    cases found
  | lineComment =>
    obtain ⟨rfl, next⟩ := eq_of_charBytes_cons (by decide) hs
    unfold nextToken at found
    rw [if_neg (by decide), if_neg (by decide), if_pos ⟨rfl, second (by decide) next⟩] at found
    cases found
  | blockComment =>
    obtain ⟨rfl, next⟩ := eq_of_charBytes_cons (by decide) hs
    unfold nextToken at found
    rw [if_neg (by decide), if_neg (by decide), if_neg fun h => absurd h.1 (by decide),
      if_pos ⟨rfl, second (by decide) next⟩] at found
    cases found
  | dollarBlock mayBegin isTag => exact noMarker mayBegin isTag rfl
  | loneMarker mayBegin isTag => exact noMarker mayBegin isTag rfl
  | cast =>
    obtain ⟨rfl, next⟩ := eq_of_charBytes_cons (by decide) hs
    rw [nextToken_colon, if_pos (second (by decide) next)] at found
    cases found
  | placeholder nonempty isWord => exact noWord nonempty isWord rfl

theorem not_special_high {before s text rest : List UInt8} {kind : TokenKind} {b : UInt8}
    (high : ¬ b < 128) : ¬ Special before kind (b :: s) text rest := by
  intro special
  generalize hs : b :: s = t at special
  cases special <;> exact high ((List.cons.inj hs).1 ▸ by decide)

/-! ## 9. Cuts -/

/-- The tokens of the grammar that a token stands for: itself, except that a plain character is as many
plain tokens as it has bytes. -/
def Token.lexemes (t : Token) : List Lexeme :=
  if t.kind = .plain then (charBytes t.text).map fun b => ⟨.plain, [b]⟩
  else [⟨t.kind, charBytes t.text⟩]

theorem cut_high {before bs s : List UInt8} {ts : List Lexeme} (high : ∀ b ∈ bs, ¬ b < 128)
    (more : Cut (bs.reverse ++ before) s ts) :
    Cut before (bs ++ s) (bs.map (fun b => ⟨.plain, [b]⟩) ++ ts) := by
  induction bs generalizing before with
  | nil => exact more
  | cons b bs ih =>
    refine .plain (fun _ _ _ => not_special_high (high b List.mem_cons_self)) ?_
    refine ih (fun x hx => high x (List.mem_cons_of_mem _ hx)) ?_
    rwa [List.reverse_cons, List.append_assoc, List.singleton_append] at more

/-- The bytes of a plain character are plain, one by one. -/
theorem cut_plain_char {before : List UInt8} {c : Char} {s : List UInt8} {ts : List Lexeme}
    (none : ∀ kind text left, ¬ Special before kind (String.utf8EncodeChar c ++ s) text left)
    (more : Cut ((String.utf8EncodeChar c).reverse ++ before) s ts) :
    Cut before (String.utf8EncodeChar c ++ s)
      ((String.utf8EncodeChar c).map (fun b => ⟨.plain, [b]⟩) ++ ts) := by
  by_cases h : IsAscii c
  · rw [utf8EncodeChar_of_isAscii h] at none more ⊢
    exact .plain none more
  · exact cut_high (high_of_not_isAscii h) more

/-- The tokens of a text cut its bytes as the grammar does. -/
theorem cut_tokensAfter (before cs : List Char) :
    Cut (behind before) (charBytes cs) ((tokensAfter before cs).flatMap Token.lexemes) := by
  -- each token is one of the grammar, or a plain character, which is cut byte by byte
  fun_induction tokensAfter before cs with
  | case1 before => exact .done
  | case2 before c rest kind size found text ih =>
    rw [List.flatMap_cons]
    by_cases isPlain : kind = .plain
    · subst isPlain
      have none := not_special_of_nextToken found
      obtain rfl := size_of_nextToken found
      rw [behind_append] at ih
      have one : Token.lexemes ⟨.plain, text⟩
          = (String.utf8EncodeChar c).map fun b => ⟨.plain, [b]⟩ := by
        simp [Token.lexemes, text, charBytes_cons]
      rw [one, charBytes_cons]
      refine cut_plain_char none ?_
      simpa [text, charBytes_cons] using ih
    · rw [behind_append] at ih
      have one : Token.lexemes ⟨kind, text⟩ = [⟨kind, charBytes text⟩] := if_neg isPlain
      rw [one]
      exact .special (special_nextToken found isPlain) ih

/-! ## 10. Placeholders -/

/-- A placeholder begins with a colon. -/
theorem colon_of_nextToken {before rest : List Char} {c : Char} {size : Nat}
    (found : nextToken before c rest = (.placeholder, size)) : c = ':' := by
  have special := special_nextToken found (by decide)
  generalize hs : charBytes (c :: rest) = s at special
  generalize charBytes (c :: rest.take size) = text at special
  generalize charBytes (rest.drop size) = left at special
  cases special
  obtain ⟨d, left, split, hd, same, -⟩ := exists_of_charBytes_eq_cons (ascii_lt (by decide)) hs
  rw [(List.cons.inj split).1]
  exact (ascii_inj hd (by decide)).1 same

theorem located_plain (offset : Nat) (bs : List UInt8) (ts : List Lexeme) :
    located offset (bs.map (fun b => ⟨.plain, [b]⟩) ++ ts) = located (offset + bs.length) ts := by
  induction bs generalizing offset with
  | nil => rfl
  | cons b bs ih =>
    have notPlaceholder : TokenKind.plain ≠ .placeholder := by decide
    rw [List.map_cons, List.cons_append, located, if_neg notPlaceholder, ih, List.length_singleton,
      List.length_cons, Nat.add_right_comm, Nat.add_assoc]

/-- The placeholders of a text are those of the cut of its bytes. -/
theorem placeholdersFrom_tokensAfter (before cs : List Char) (offset : Nat) :
    (placeholdersFrom offset (tokensAfter before cs)).map
        (fun p => (utf8Encode p.name, p.start, p.stop))
      = located offset ((tokensAfter before cs).flatMap Token.lexemes) := by
  fun_induction tokensAfter before cs generalizing offset with
  | case1 before => rfl
  | case2 before c rest kind size found text ih =>
    rw [List.flatMap_cons, placeholdersFrom]
    -- placeholders are located at both, other tokens only move the offset
    by_cases isPlaceholder : kind = .placeholder
    · subst isPlaceholder
      obtain rfl := colon_of_nextToken found
      have name : utf8Encode (String.ofList (text.drop 1)) = (charBytes text).drop 1 := by
        rw [utf8Encode_eq, String.toList_ofList]
        simp only [text, charBytes_cons_of_isAscii (by decide : IsAscii ':'), List.drop_succ_cons,
          List.drop_zero]
      have one : Token.lexemes ⟨.placeholder, text⟩ = [⟨.placeholder, charBytes text⟩] := rfl
      rw [one, List.singleton_append, located, if_pos rfl, length_charBytes, ← name, ← ih]
      rfl
    · have nameless : Token.name? ⟨kind, text⟩ = none := if_neg isPlaceholder
      rw [nameless]
      by_cases isPlain : kind = .plain
      · have plain : Token.lexemes ⟨kind, text⟩ = (charBytes text).map fun b => ⟨.plain, [b]⟩ :=
          if_pos isPlain
        rw [plain, located_plain, length_charBytes]
        exact ih _
      · have one : Token.lexemes ⟨kind, text⟩ = [⟨kind, charBytes text⟩] := if_neg isPlain
        rw [one, List.singleton_append, located, if_neg isPlaceholder, length_charBytes]
        exact ih _

/-- **The placeholders of a statement are those of its grammar.** The bytes of every text can be cut
into tokens in exactly one way, and the placeholders among these tokens, with their words and offsets,
are what is found. -/
theorem placeholders_eq_located (sql : String) :
    ∃ ts, Cut [] (utf8Encode sql) ts ∧ (∀ ts', Cut [] (utf8Encode sql) ts' → ts' = ts)
      ∧ (placeholders sql).map (fun p => (utf8Encode p.name, p.start, p.stop)) = located 0 ts := by
  rw [utf8Encode_eq]
  have cut := cut_tokensAfter [] sql.toList
  exact ⟨_, cut, fun ts' cut' => cut_unique cut' cut, placeholdersFrom_tokensAfter [] sql.toList 0⟩

end TypedStore.Statement
