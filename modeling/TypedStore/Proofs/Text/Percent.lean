/-
Percent codes and forms read back. A text without codes for its percent signs is read back as it was
(`percentBytes_percentEncode_of_coded`); where percent signs are kept, writing changes nothing that reading
sees (`percentBytes_percentEncode_of_kept`), so the codes that a text holds by itself are read as well. Each
of them takes three bytes and gives one, so a text stands for itself just where it holds none
(`percentBytes_eq_iff`). The pairs of a form are read back whatever their names and values are
(`formPairs_formText`).
-/
import TypedStore.Proofs.Text.Encoding
import TypedStore.Text.Percent

set_option autoImplicit false

namespace TypedStore.Text

/-! ## 1. Mending -/

theorem continuation_cons {n : Nat} {low high b : UInt8} (within : low ≤ b ∧ b ≤ high) (rest : List UInt8) :
    continuation (n + 1) low high (b :: rest) = b :: continuation n 0x80 0xbf rest := by
  rw [continuation, if_pos within]

theorem continuation_zero (low high : UInt8) (rest : List UInt8) : continuation 0 low high rest = [] := by
  rw [continuation]

/-- A byte of six bits goes on with a character. -/
theorem following_within (n : Nat) :
    (0x80 : UInt8) ≤ UInt8.ofNat (n % 64 + 128) ∧ UInt8.ofNat (n % 64 + 128) ≤ (0xbf : UInt8) := by
  simp only [UInt8.le_iff_toNat_le, UInt8.toNat_ofNat', UInt8.reduceToNat]
  omega

/-- A character is read from the byte that announces it and all the bytes that are announced. -/
theorem firstChar_eq {b : UInt8} {lead : LeadByte} {more tail : List UInt8} {c : Char}
    (announced : leadByte? b = some lead)
    (whole : continuation lead.following lead.low lead.high (more ++ tail) = more)
    (count : more.length = lead.following)
    (value : more.foldl (fun n c => n * 64 + c.toNat % 64) lead.bits = c.toNat) :
    firstChar b (more ++ tail) = (c, more.length) := by
  rw [firstChar, announced]
  simp only [whole]
  rw [if_pos count, value, Char.ofNat_toNat]

theorem leadByte?_ofNat {n : Nat} (byte : n < 256) : leadByte? (UInt8.ofNat n) =
    if n < 0x80 then some ⟨0, 0, 0, n⟩
    else if n < 0xc2 then none
    else if n < 0xe0 then some ⟨1, 0x80, 0xbf, n - 0xc0⟩
    else if n < 0xf0 then
      some ⟨2, if n = 0xe0 then 0xa0 else 0x80, if n = 0xed then 0x9f else 0xbf, n - 0xe0⟩
    else if n < 0xf5 then
      some ⟨3, if n = 0xf0 then 0x90 else 0x80, if n = 0xf4 then 0x8f else 0xbf, n - 0xf0⟩
    else none := by
  rw [leadByte?, UInt8.toNat_ofNat', Nat.mod_eq_of_lt byte]

theorem firstChar_utf8EncodeChar (c : Char) (tail : List UInt8) :
    ∃ b more, String.utf8EncodeChar c = b :: more ∧ firstChar b (more ++ tail) = (c, more.length) := by
  have valid := c.valid
  have same : c.toNat = c.val.toNat := rfl
  simp only [UInt32.isValidChar, Nat.isValidChar] at valid
  rw [String.utf8EncodeChar]
  generalize c.val.toNat = n at *
  -- one to four bytes, of which the first announces how many follow
  split
  · have lead := leadByte?_ofNat (n := n) (by omega)
    rw [if_pos (by omega)] at lead
    exact ⟨_, [], rfl, firstChar_eq lead (continuation_zero _ _ _) rfl same.symm⟩
  · split
    · have lead := leadByte?_ofNat (n := n / 64 % 32 + 192) (by omega)
      rw [if_neg (by omega), if_neg (by omega), if_pos (by omega)] at lead
      refine ⟨_, _, rfl, firstChar_eq lead ?_ rfl ?_⟩
      · rw [List.cons_append, continuation_cons (following_within _), continuation_zero]
      · simp only [List.foldl_cons, List.foldl_nil, UInt8.toNat_ofNat']
        omega
    · split
      · have lead := leadByte?_ofNat (n := n / 4096 % 16 + 224) (by omega)
        rw [if_neg (by omega), if_neg (by omega), if_neg (by omega), if_pos (by omega)] at lead
        refine ⟨_, _, rfl, firstChar_eq lead ?_ rfl ?_⟩
        · rw [List.cons_append, continuation_cons, List.cons_append, continuation_cons (following_within _),
            continuation_zero]
          -- no shorter form and no surrogate, so the second byte is in its range
          split <;> split <;>
            simp only [UInt8.le_iff_toNat_le, UInt8.toNat_ofNat', UInt8.reduceToNat] <;> omega
        · simp only [List.foldl_cons, List.foldl_nil, UInt8.toNat_ofNat']
          omega
      · have lead := leadByte?_ofNat (n := n / 262144 % 8 + 240) (by omega)
        rw [if_neg (by omega), if_neg (by omega), if_neg (by omega), if_neg (by omega),
          if_pos (by omega)] at lead
        refine ⟨_, _, rfl, firstChar_eq lead ?_ rfl ?_⟩
        · rw [List.cons_append, continuation_cons, List.cons_append, continuation_cons (following_within _),
            List.cons_append, continuation_cons (following_within _), continuation_zero]
          split <;> split <;>
            simp only [UInt8.le_iff_toNat_le, UInt8.toNat_ofNat', UInt8.reduceToNat] <;> omega
        · simp only [List.foldl_cons, List.foldl_nil, UInt8.toNat_ofNat']
          omega

/-- A UTF-8 form needs no mending. -/
theorem utf8Mend_charBytes (cs : List Char) : utf8Mend (charBytes cs) = cs := by
  induction cs with
  | nil => rw [charBytes_nil, utf8Mend]
  | cons c rest ih =>
    obtain ⟨b, more, bytes, first⟩ := firstChar_utf8EncodeChar c (charBytes rest)
    rw [charBytes_cons, bytes, List.cons_append, utf8Mend, first]
    simp only [List.drop_left, ih]

/-! ## 2. Reading codes -/

theorem utf8Encode_singleton (c : Char) : utf8Encode (String.singleton c) = String.utf8EncodeChar c := by
  rw [utf8Encode_eq, String.toList_singleton, charBytes_cons, charBytes_nil, List.append_nil]

theorem percentBytes_cons {c : Char} (plain : c ≠ '%') (rest : List Char) :
    percentBytes (c :: rest) = String.utf8EncodeChar c ++ percentBytes rest := by
  rw [percentBytes, utf8Encode_singleton]
  rintro _ _ _ rfl _
  exact plain rfl

theorem percentBytes_append_of_not_mem {cs : List Char} (plain : '%' ∉ cs) (rest : List Char) :
    percentBytes (cs ++ rest) = charBytes cs ++ percentBytes rest := by
  induction cs with
  | nil => rfl
  | cons c others ih =>
    rw [List.cons_append, percentBytes_cons (Ne.symm (List.ne_of_not_mem_cons plain)),
      ih (List.not_mem_of_not_mem_cons plain), charBytes_cons, List.append_assoc]

/-- The byte whose two digits stand in front, as they do behind the percent sign of a code. -/
def digitsByte? : List Char → Option UInt8
  | high :: low :: _ =>
    match hexValue? high, hexValue? low with
    | some h, some l => some (UInt8.ofNat (h * 16 + l))
    | _, _ => none
  | _ => none

theorem digitsByte?_cons_of_first {high : Char} (other : hexValue? high = none) (rest : List Char) :
    digitsByte? (high :: rest) = none := by
  cases rest <;> simp [digitsByte?, other]

theorem digitsByte?_cons_of_second (high : Char) {low : Char} (other : hexValue? low = none)
    (rest : List Char) : digitsByte? (high :: low :: rest) = none := by
  cases hexValue? high <;> simp [digitsByte?, other]

theorem percentBytes_code {b : UInt8} {rest : List Char} (code : digitsByte? rest = some b) :
    percentBytes ('%' :: rest) = b :: percentBytes (rest.drop 2) := by
  match rest, code with
  | high :: low :: behind, code =>
    simp only [digitsByte?] at code
    split at code
    · rename_i h l hh hl
      cases code
      simp only [percentBytes, hh, hl, List.drop_succ_cons, List.drop_zero]
    · cases code

/-- A percent sign without two digits is itself. -/
theorem percentBytes_lone {rest : List Char} (code : digitsByte? rest = none) :
    percentBytes ('%' :: rest) = String.utf8EncodeChar '%' ++ percentBytes rest := by
  match rest, code with
  | high :: low :: behind, code =>
    simp only [digitsByte?] at code
    split at code
    · cases code
    · rename_i none
      rw [percentBytes]
      split
      · rename_i h l hh hl
        exact absurd hl (none h l hh)
      · exact congrArg (· ++ _) (utf8Encode_singleton '%')
  | [_], _ =>
    rw [percentBytes, utf8Encode_singleton]
    rintro _ _ _ _ same
    cases same
  | [], _ => exact congrArg (· ++ _) (utf8Encode_singleton '%')

/-- Whether a text holds a code: a percent sign and two digits. -/
def holdsCode : List Char → Bool
  | [] => false
  | c :: rest => c == '%' && (digitsByte? rest).isSome || holdsCode rest

/-- How a text is read, one character or one code after the other. The recursion of the statements
below. -/
theorem percent_induction {motive : List Char → Prop} (nil : motive [])
    (plain : ∀ c rest, c ≠ '%' → motive rest → motive (c :: rest))
    (lone : ∀ rest, digitsByte? rest = none → motive rest → motive ('%' :: rest))
    (code : ∀ high low rest b, digitsByte? (high :: low :: rest) = some b → motive rest →
      motive ('%' :: high :: low :: rest)) : ∀ cs, motive cs
  | [] => nil
  | c :: rest => by
    by_cases sign : c = '%'
    · subst sign
      cases digits : digitsByte? rest with
      | none => exact lone rest digits (percent_induction nil plain lone code rest)
      | some b =>
        match rest, digits with
        | high :: low :: rest, digits =>
          exact code high low rest b digits (percent_induction nil plain lone code rest)
    · exact plain c rest sign (percent_induction nil plain lone code rest)
termination_by cs => cs.length

theorem isSome_of_digitsByte? {high low : Char} {rest : List Char} {b : UInt8}
    (digits : digitsByte? (high :: low :: rest) = some b) :
    (hexValue? high).isSome = true ∧ (hexValue? low).isSome = true := by
  simp only [digitsByte?] at digits
  split at digits
  · rename_i h l hh hl
    simp [hh, hl]
  · cases digits

theorem length_charBytes_code (high low : Char) (rest : List Char) :
    (charBytes rest).length + 3 ≤ (charBytes ('%' :: high :: low :: rest)).length := by
  simp only [charBytes_cons, List.length_append, String.length_utf8EncodeChar]
  have := Char.utf8Size_pos '%'
  have := Char.utf8Size_pos high
  have := Char.utf8Size_pos low
  omega

/-- Reading makes no text longer. -/
theorem length_percentBytes_le (cs : List Char) :
    (percentBytes cs).length ≤ (charBytes cs).length := by
  induction cs using percent_induction with
  | nil => exact Nat.le_refl _
  | plain c rest sign ih =>
    rw [percentBytes_cons sign, charBytes_cons, List.length_append, List.length_append]
    exact Nat.add_le_add_left ih _
  | lone rest digits ih =>
    rw [percentBytes_lone digits, charBytes_cons, List.length_append, List.length_append]
    exact Nat.add_le_add_left ih _
  | code high low rest b digits ih =>
    have room := length_charBytes_code high low rest
    rw [percentBytes_code digits, List.drop_succ_cons, List.drop_succ_cons, List.drop_zero,
      List.length_cons]
    omega

/-- **A text stands for itself** just where it holds no code: a code takes three bytes for one. -/
theorem percentBytes_eq_iff (cs : List Char) : percentBytes cs = charBytes cs ↔ holdsCode cs = false := by
  induction cs using percent_induction with
  | nil => simp [percentBytes, holdsCode]
  | plain c rest sign ih =>
    rw [percentBytes_cons sign, charBytes_cons, List.append_cancel_left_eq, ih]
    simp [holdsCode, sign]
  | lone rest digits ih =>
    rw [percentBytes_lone digits, charBytes_cons, List.append_cancel_left_eq, ih]
    simp [holdsCode, digits]
  | code high low rest b digits ih =>
    have shorter := length_percentBytes_le rest
    have room := length_charBytes_code high low rest
    refine iff_of_false (fun same => ?_) (by simp [holdsCode, digits])
    have lengths := congrArg List.length same
    rw [percentBytes_code digits, List.drop_succ_cons, List.drop_succ_cons, List.drop_zero,
      List.length_cons] at lengths
    omega

/-! ## 3. Writing codes -/

/-- What is checked of each character of a list. There are too many characters to check all of them. -/
theorem forall_of_all {p : Char → Prop} [DecidablePred p] {cs : List Char}
    (all : (cs.all fun c => decide (p c)) = true) : ∀ c ∈ cs, p c :=
  fun c mem => of_decide_eq_true (List.all_eq_true.1 all c mem)

/-- What codes are made of. -/
def codeChars : List Char :=
  ['%', '0', '1', '2', '3', '4', '5', '6', '7', '8', '9', 'A', 'B', 'C', 'D', 'E', 'F']

theorem mem_codeChars {b : UInt8} {c : Char} (h : c ∈ percentCode b) : c ∈ codeChars := by
  have digits : ∀ n < 16, (hexDigit n).toUpper ∈ codeChars := by decide
  have byte := b.toNat_lt
  simp only [percentCode, List.mem_cons, List.not_mem_nil, or_false] at h
  rcases h with rfl | rfl | rfl
  · exact List.mem_cons_self
  · exact digits _ (by omega)
  · exact digits _ (by omega)

/-- A written character is kept or belongs to a code. -/
theorem mem_percentEncode {keep : Char → Bool} {cs : List Char} {c : Char}
    (h : c ∈ percentEncode keep cs) :
    (keep c = true ∧ c ∈ cs) ∨ c ∈ codeChars := by
  obtain ⟨d, mem, h⟩ := List.mem_flatMap.1 h
  rw [percentEncodeChar] at h
  split at h
  · rename_i kept
    rw [List.mem_singleton.1 h]
    exact .inl ⟨kept, mem⟩
  · obtain ⟨b, -, digit⟩ := List.mem_flatMap.1 h
    exact .inr (mem_codeChars digit)

/-- A text is read back where percent signs are written as codes. -/
theorem percentBytes_percentEncode_of_coded {keep : Char → Bool} (coded : keep '%' = false)
    (cs rest : List Char) :
    percentBytes (percentEncode keep cs ++ rest) = charBytes cs ++ percentBytes rest := by
  induction cs with
  | nil => rfl
  | cons c others ih =>
    rw [percentEncode, List.flatMap_cons, List.append_assoc, charBytes_cons, List.append_assoc, ← ih,
      percentEncodeChar]
    split
    · rename_i kept
      have plain : c ≠ '%' := by
        rintro rfl
        rw [coded] at kept
        cases kept
      exact percentBytes_cons plain _
    · rw [percentBytes_flatMap, utf8Encode_singleton]
      rfl

/-- Whether a class of characters keeps codes as they are. -/
def KeepsCodes (keep : Char → Bool) : Prop :=
  keep '%' = true ∧ ∀ c, (hexValue? c).isSome = true → keep c = true

/-- The digits of codes, in both cases. -/
def codeDigits : List Char :=
  ['0', '1', '2', '3', '4', '5', '6', '7', '8', '9', 'A', 'B', 'C', 'D', 'E', 'F',
    'a', 'b', 'c', 'd', 'e', 'f']

theorem mem_codeDigits {c : Char} (digit : (hexValue? c).isSome = true) : c ∈ codeDigits := by
  have small : c.toNat < 128 := by
    rw [hexValue?] at digit
    split at digit
    · rename_i within
      exact Nat.lt_of_le_of_lt (UInt32.le_iff_toNat_le.1 within.2) (by decide)
    · split at digit
      · rename_i within
        exact Nat.lt_of_le_of_lt (UInt32.le_iff_toNat_le.1 within.2) (by decide)
      · split at digit
        · rename_i within
          exact Nat.lt_of_le_of_lt (UInt32.le_iff_toNat_le.1 within.2) (by decide)
        · cases digit
  have all : ∀ n < 128, (hexValue? (Char.ofNat n)).isSome = true → Char.ofNat n ∈ codeDigits := by decide
  have own := all c.toNat small
  rw [Char.ofNat_toNat] at own
  exact own digit

theorem keepsCodes_of_codeDigits {keep : Char → Bool} (h : ∀ c ∈ '%' :: codeDigits, keep c = true) :
    KeepsCodes keep :=
  ⟨h _ List.mem_cons_self, fun c digit => h c (List.mem_cons_of_mem _ (mem_codeDigits digit))⟩

/-- A character that is no digit is written as something that begins with no digit. -/
theorem percentEncode_cons_of_other (keep : Char → Bool) {c : Char} (other : hexValue? c = none)
    (rest : List Char) : ∃ d behind, percentEncode keep (c :: rest) = d :: behind ∧ hexValue? d = none := by
  rw [percentEncode, List.flatMap_cons, percentEncodeChar]
  split
  · exact ⟨c, _, rfl, other⟩
  · rw [utf8Encode_singleton]
    cases bytes : String.utf8EncodeChar c with
    | nil => exact absurd bytes String.utf8EncodeChar_ne_nil
    | cons b more => exact ⟨'%', _, rfl, by decide⟩

/-- Where there are no two digits, none come in by writing. -/
theorem digitsByte?_percentEncode {keep : Char → Bool} (keeps : KeepsCodes keep) {cs : List Char}
    (digits : digitsByte? cs = none) : digitsByte? (percentEncode keep cs) = none := by
  cases cs with
  | nil => rfl
  | cons high rest =>
    cases first : hexValue? high with
    | none =>
      obtain ⟨d, behind, written, other⟩ := percentEncode_cons_of_other keep first rest
      rw [written, digitsByte?_cons_of_first other]
    | some h =>
      have kept : keep high = true := keeps.2 high (by rw [first]; rfl)
      have written : percentEncode keep (high :: rest) = high :: percentEncode keep rest := by
        simp [percentEncode, percentEncodeChar, kept]
      rw [written]
      cases rest with
      | nil => rfl
      | cons low rest =>
        have second : hexValue? low = none := by
          cases value : hexValue? low with
          | none => rfl
          | some l => simp [digitsByte?, first, value] at digits
        obtain ⟨d, behind, written, other⟩ := percentEncode_cons_of_other keep second rest
        rw [written, digitsByte?_cons_of_second high other]

/-- Where codes are kept, writing changes nothing that reading sees. -/
theorem percentBytes_percentEncode_of_kept {keep : Char → Bool} (keeps : KeepsCodes keep)
    (cs : List Char) : percentBytes (percentEncode keep cs) = percentBytes cs := by
  have cons : ∀ {c : Char}, keep c = true → ∀ rest,
      percentEncode keep (c :: rest) = c :: percentEncode keep rest := fun kept rest => by
    simp [percentEncode, percentEncodeChar, kept]
  induction cs using percent_induction with
  | nil => rfl
  | plain c rest sign ih =>
    rw [percentBytes_cons sign, ← ih]
    cases kept : keep c with
    | true => rw [cons kept, percentBytes_cons sign]
    | false =>
      rw [percentEncode, List.flatMap_cons, percentEncodeChar, if_neg (by simp [kept]),
        percentBytes_flatMap, utf8Encode_singleton]
      rfl
  | lone rest digits ih =>
    rw [cons keeps.1, percentBytes_lone (digitsByte?_percentEncode keeps digits), ih,
      percentBytes_lone digits]
  | code high low rest b digits ih =>
    obtain ⟨first, second⟩ := isSome_of_digitsByte? digits
    have same : digitsByte? (high :: low :: percentEncode keep rest) = some b := digits
    rw [cons keeps.1, cons (keeps.2 _ first), cons (keeps.2 _ second), percentBytes_code same,
      percentBytes_code digits]
    simp only [List.drop_succ_cons, List.drop_zero, ih]

/-! ## 4. Separators -/

theorem cutAt?_eq_none {separator : Char} {cs : List Char} (free : separator ∉ cs) :
    cutAt? separator cs = none := by
  induction cs with
  | nil => rfl
  | cons c rest ih =>
    have other := List.ne_of_not_mem_cons free
    have behind := List.not_mem_of_not_mem_cons free
    rw [cutAt?, if_neg (Ne.symm other), ih behind]
    rfl

theorem cutAt?_append {separator : Char} {before : List Char} (free : separator ∉ before)
    (behind : List Char) : cutAt? separator (before ++ separator :: behind) = some (before, behind) := by
  induction before with
  | nil => rw [List.nil_append, cutAt?, if_pos rfl]
  | cons c rest ih =>
    have other := List.ne_of_not_mem_cons free
    have more := List.not_mem_of_not_mem_cons free
    rw [List.cons_append, cutAt?, if_neg (Ne.symm other), ih more]
    rfl

theorem pieces_cons_of_ne {separator c : Char} (other : c ≠ separator) {rest first : List Char}
    {others : List (List Char)} (behind : pieces separator rest = first :: others) :
    pieces separator (c :: rest) = (c :: first) :: others := by
  rw [pieces, if_neg other, behind]

theorem pieces_of_not_mem {separator : Char} {cs : List Char} (free : separator ∉ cs) :
    pieces separator cs = [cs] := by
  induction cs with
  | nil => rfl
  | cons c rest ih =>
    have other := List.ne_of_not_mem_cons free
    have behind := List.not_mem_of_not_mem_cons free
    exact pieces_cons_of_ne (Ne.symm other) (ih behind)

theorem pieces_append {separator : Char} {first : List Char} (free : separator ∉ first)
    (rest : List Char) :
    pieces separator (first ++ separator :: rest) = first :: pieces separator rest := by
  induction first with
  | nil => rw [List.nil_append, pieces, if_pos rfl]
  | cons c others ih =>
    have other := List.ne_of_not_mem_cons free
    have behind := List.not_mem_of_not_mem_cons free
    exact pieces_cons_of_ne (Ne.symm other) (ih behind)

/-- Pieces are read back where none of them holds the separator. -/
theorem pieces_intercalate {separator : Char} (first : List Char) {others : List (List Char)}
    (free : ∀ piece ∈ first :: others, separator ∉ piece) :
    pieces separator ([separator].intercalate (first :: others)) = first :: others := by
  induction others generalizing first with
  | nil =>
    rw [List.intercalate_singleton]
    exact pieces_of_not_mem (free first List.mem_cons_self)
  | cons second others ih =>
    rw [List.intercalate_cons_cons, List.append_assoc, List.singleton_append,
      pieces_append (free first List.mem_cons_self),
      ih second fun piece mem => free piece (List.mem_cons_of_mem _ mem)]

/-- The characters of pieces are those of the text. -/
theorem mem_of_mem_pieces {separator : Char} {cs piece : List Char} (mem : piece ∈ pieces separator cs)
    {c : Char} (h : c ∈ piece) : c ∈ cs := by
  induction cs generalizing piece with
  | nil => exact List.mem_singleton.1 mem ▸ h
  | cons d rest ih =>
    rw [pieces] at mem
    split at mem
    · rcases List.mem_cons.1 mem with rfl | mem
      · cases h
      · exact List.mem_cons_of_mem _ (ih mem h)
    · split at mem
      · rw [List.mem_singleton.1 mem, List.mem_singleton] at h
        exact h ▸ List.mem_cons_self
      · rename_i first others behind
        rcases List.mem_cons.1 mem with rfl | mem
        · rcases List.mem_cons.1 h with rfl | h
          · exact List.mem_cons_self
          · exact List.mem_cons_of_mem _ (ih (behind ▸ List.mem_cons_self) h)
        · exact List.mem_cons_of_mem _ (ih (behind ▸ List.mem_cons_of_mem _ mem) h)

/-- Every character of a text is a separator or stands in a piece. -/
theorem exists_piece_of_mem (separator : Char) {cs : List Char} {c : Char} (h : c ∈ cs) :
    c = separator ∨ ∃ piece ∈ pieces separator cs, c ∈ piece := by
  induction cs with
  | nil => cases h
  | cons d rest ih =>
    rw [pieces]
    split
    · rename_i same
      rcases List.mem_cons.1 h with rfl | h
      · exact .inl same
      · exact (ih h).imp_right fun ⟨piece, mem, here⟩ => ⟨piece, List.mem_cons_of_mem _ mem, here⟩
    · split
      · rename_i none
        rcases List.mem_cons.1 h with rfl | h
        · exact .inr ⟨_, List.mem_cons_self, List.mem_cons_self⟩
        · obtain same | ⟨piece, mem, -⟩ := ih h
          · exact .inl same
          · rw [none] at mem
            cases mem
      · rename_i first others behind
        rcases List.mem_cons.1 h with rfl | h
        · exact .inr ⟨_, List.mem_cons_self, List.mem_cons_self⟩
        · obtain same | ⟨piece, mem, here⟩ := ih h
          · exact .inl same
          · rcases List.mem_cons.1 (behind ▸ mem) with rfl | mem
            · exact .inr ⟨_, List.mem_cons_self, List.mem_cons_of_mem _ here⟩
            · exact .inr ⟨piece, List.mem_cons_of_mem _ mem, here⟩

/-! ## 5. Forms -/

/-- What a form shows of a character: a space for a plus sign. -/
def spaced (c : Char) : Char := if c = '+' then ' ' else c

theorem spaced_of_mem_codeChars : ∀ c ∈ codeChars, spaced c = c := forall_of_all (by decide)

theorem formDecode_eq (cs : List Char) :
    formDecode cs = String.ofList (utf8Mend (percentBytes (cs.map spaced))) := rfl

/-- The class of characters that a form keeps, the space left to the plus sign. -/
theorem isFormKept_ne {c : Char} (kept : isFormKept c = true) : c ≠ '%' ∧ c ≠ '+' ∧ c ≠ '&' ∧ c ≠ '=' := by
  refine ⟨?_, ?_, ?_, ?_⟩ <;> (rintro rfl; revert kept; decide)

/-- A written character is read back in front of whatever follows. -/
theorem percentBytes_formChar (c : Char) (rest : List Char) :
    percentBytes (((if c = ' ' then ['+'] else percentEncodeChar isFormKept c) ++ rest).map spaced)
      = String.utf8EncodeChar c ++ percentBytes (rest.map spaced) := by
  rw [List.map_append]
  split
  · rename_i space
    subst space
    exact percentBytes_cons (by decide) _
  · rw [percentEncodeChar]
    split
    · rename_i kept
      obtain ⟨sign, plus, -⟩ := isFormKept_ne kept
      have same : spaced c = c := if_neg plus
      rw [List.map_singleton, same]
      exact percentBytes_cons sign _
    · -- codes hold no plus sign, so they are read as they were written
      have codes : ((utf8Encode (String.singleton c)).flatMap percentCode).map spaced
          = (utf8Encode (String.singleton c)).flatMap percentCode := by
        refine List.map_congr_left (fun d mem => ?_) |>.trans (List.map_id _)
        obtain ⟨b, -, digit⟩ := List.mem_flatMap.1 mem
        exact spaced_of_mem_codeChars d (mem_codeChars digit)
      rw [codes, percentBytes_flatMap, utf8Encode_singleton]

/-- A name or value of a form is read back. -/
theorem formDecode_formEncode (s : String) : formDecode (formEncode s) = s := by
  have bytes : ∀ cs : List Char, percentBytes
      ((cs.flatMap fun c => if c = ' ' then ['+'] else percentEncodeChar isFormKept c).map spaced)
        = charBytes cs := by
    intro cs
    induction cs with
    | nil => rfl
    | cons c rest ih => rw [List.flatMap_cons, percentBytes_formChar, ih, charBytes_cons]
  rw [formDecode_eq, formEncode, bytes, utf8Mend_charBytes, String.ofList_toList]

/-- What is written in a form holds no separators. -/
theorem not_mem_formEncode (s : String) : ∀ c ∈ formEncode s, c ≠ '&' ∧ c ≠ '=' ∧ c ≠ '#' := by
  intro c h
  obtain ⟨d, -, h⟩ := List.mem_flatMap.1 h
  split at h
  · rw [List.mem_singleton.1 h]
    decide
  · have written : c ∈ percentEncode isFormKept [d] := by simpa [percentEncode] using h
    rcases mem_percentEncode written with ⟨kept, -⟩ | digit
    · refine ⟨?_, ?_, ?_⟩ <;> (rintro rfl; revert kept; decide)
    · have apart : ∀ c ∈ codeChars, c ≠ '&' ∧ c ≠ '=' ∧ c ≠ '#' := forall_of_all (by decide)
      exact apart c digit

theorem readFormPair_formPair (pair : String × String) : readFormPair (formPair pair) = pair := by
  have free : '=' ∉ formEncode pair.1 := fun mem => (not_mem_formEncode pair.1 _ mem).2.1 rfl
  rw [readFormPair, formPair, cutAt?_append free]
  simp only [formDecode_formEncode]

theorem not_mem_formPair (pair : String × String) : '&' ∉ formPair pair ∧ '#' ∉ formPair pair := by
  have marks : '&' ≠ '=' ∧ '#' ≠ '=' := by decide
  simp only [formPair, List.mem_append, List.mem_cons, not_or]
  exact ⟨⟨fun mem => (not_mem_formEncode _ _ mem).1 rfl, marks.1,
      fun mem => (not_mem_formEncode _ _ mem).1 rfl⟩,
    ⟨fun mem => (not_mem_formEncode _ _ mem).2.2 rfl, marks.2,
      fun mem => (not_mem_formEncode _ _ mem).2.2 rfl⟩⟩

/-- A form holds no number sign, so a fragment can follow it. -/
theorem not_mem_formText (pairs : List (String × String)) : '#' ∉ (formText pairs).toList := by
  rw [formText, String.toList_ofList]
  cases pairs with
  | nil => simp
  | cons first others =>
    induction others generalizing first with
    | nil =>
      rw [List.map_singleton, List.intercalate_singleton]
      exact (not_mem_formPair first).2
    | cons second others ih =>
      rw [List.map_cons, List.map_cons, List.intercalate_cons_cons, ← List.map_cons, List.mem_append,
        List.mem_append, not_or, not_or]
      exact ⟨⟨(not_mem_formPair first).2, by decide⟩, ih second⟩

/-- **Pairs are read back** from the form that they are written in. -/
theorem formPairs_formText (pairs : List (String × String)) : formPairs (formText pairs) = pairs := by
  cases pairs with
  | nil => rfl
  | cons first others =>
    have free : ∀ piece ∈ (first :: others).map formPair, '&' ∉ piece := by
      intro piece mem
      obtain ⟨pair, -, rfl⟩ := List.mem_map.1 mem
      exact (not_mem_formPair pair).1
    -- a written pair has its equals sign, so no piece is empty
    have whole : ((first :: others).map formPair).filter (fun piece => !piece.isEmpty)
        = (first :: others).map formPair := by
      refine List.filter_eq_self.2 fun piece mem => ?_
      obtain ⟨pair, -, rfl⟩ := List.mem_map.1 mem
      simp [formPair]
    rw [formPairs, formText, String.toList_ofList, List.map_cons, pieces_intercalate _ free,
      ← List.map_cons, whole, List.map_map]
    exact (List.map_congr_left fun pair _ => readFormPair_formPair pair).trans (List.map_id _)

end TypedStore.Text
