/-
Where tokens end. A token is found from the characters in front of it and from its own text: in front,
one character matters and whether it turns escapes on (`SameContext`); behind, the end of a token does
not move when the text that follows is replaced by other text, unless a quote follows a quote
(`ClosedBy`). Tokens end in the text they are cut from (`nextToken_le`).
-/
import TypedStore.Proofs.Statement.Lexing

set_option autoImplicit false

namespace TypedStore.Statement

open TypedStore.Text

/-! ## 1. In front of a token -/

/-- What is in front of a position shows in two ways only: by its last character and by the escapes
that it turns on. -/
def SameContext (before before' : List Char) : Prop :=
  before.head? = before'.head? ∧ escapesBefore before = escapesBefore before'

theorem SameContext.refl (before : List Char) : SameContext before before := ⟨rfl, rfl⟩

theorem SameContext.append {before before' : List Char} (h : SameContext before before')
    (text : List Char) : SameContext (text ++ before) (text ++ before') := by
  induction text with
  | nil => exact h
  | cons c text ih =>
    refine ⟨rfl, ?_⟩
    rw [List.cons_append, List.cons_append, escapesBefore, escapesBefore, ih.1]

/-- Behind a character that is no part of a word it does not matter what precedes. -/
theorem sameContext_of_not_word {c : Char} (h : isWordChar c = false) (before before' : List Char) :
    SameContext (c :: before) (c :: before') := by
  refine ⟨rfl, ?_⟩
  have letter : (c == 'E' || c == 'e') = false := by
    rw [Bool.or_eq_false_iff, beq_eq_false_iff_ne, beq_eq_false_iff_ne]
    constructor <;> rintro rfl <;> revert h <;> decide
  rw [escapesBefore, escapesBefore, letter, Bool.false_and, Bool.false_and]

theorem marker?_congr {before before' : List Char} (h : before.head? = before'.head?)
    (rest : List Char) : marker? before rest = marker? before' rest := by
  unfold marker?
  rw [h]

theorem nextToken_congr {before before' : List Char} (h : SameContext before before') (c : Char)
    (rest : List Char) : nextToken before c rest = nextToken before' c rest := by
  unfold nextToken
  rw [h.2, marker?_congr h.1]

/-- The tokens of a text are the same in either context. -/
theorem tokensAfter_congr {before : List Char} (cs : List Char) :
    ∀ before', SameContext before before' → tokensAfter before cs = tokensAfter before' cs := by
  fun_induction tokensAfter before cs with
  | case1 =>
    intro before' h
    rw [tokensAfter]
  | case2 before c rest kind size found text ih =>
    intro before' h
    rw [nextToken_congr h] at found
    rw [tokensAfter, found]
    -- what is behind the token has equal contexts in front of it again
    exact congrArg (_ :: ·) (ih _ (h.append _))

/-- The token at the front, from its kind and its extent. -/
theorem tokensAfter_of_nextToken {before u rest : List Char} {c : Char} {kind : TokenKind}
    (found : nextToken before c (u ++ rest) = (kind, u.length)) :
    tokensAfter before (c :: (u ++ rest))
      = ⟨kind, c :: u⟩ :: tokensAfter ((c :: u).reverse ++ before) rest := by
  rw [tokensAfter, found]
  dsimp only
  rw [List.take_left, List.drop_left]

/-! ## 2. The end of a token -/

theorem quotedExtent_pos (quote : Char) (escapes : Bool) {cs : List Char} (h : cs ≠ []) :
    0 < quotedExtent quote escapes cs := by
  match cs with
  | [c] =>
    rw [quotedExtent]
    omega
  | c :: d :: rest =>
    rw [quotedExtent]
    split
    · omega
    · split
      · split <;> omega
      · omega

theorem quotedExtent_le (quote : Char) (escapes : Bool) (cs : List Char) :
    quotedExtent quote escapes cs ≤ cs.length := by
  fun_induction quotedExtent quote escapes cs with
  | case1 => exact Nat.le_refl 0
  | case2 c => exact Nat.le_refl 1
  | case3 c d rest escaped ih =>
    rw [List.length_cons, List.length_cons]
    omega
  | case4 c d rest notEscaped isQuote doubled ih =>
    rw [List.length_cons, List.length_cons]
    omega
  | case5 c d rest notEscaped isQuote single =>
    rw [List.length_cons]
    omega
  | case6 c d rest notEscaped notQuote ih =>
    rw [List.length_cons]
    omega

/-- A text closes a quote: behind it the quoted text is over, unless another quote makes it go on. -/
def ClosedBy (quote : Char) (escapes : Bool) (u : List Char) : Prop :=
  ∀ s, quotedExtent quote escapes (u ++ s)
    = u.length + if s.head? = some quote then 1 + quotedExtent quote escapes s.tail else 0

theorem closedBy_quote {quote : Char} (escapes : Bool) (differ : quote ≠ '\\') :
    ClosedBy quote escapes [quote] := by
  intro s
  have notEscape : (escapes && quote == '\\') = false := by
    rw [beq_eq_false_iff_ne.2 differ, Bool.and_false]
  cases s with
  | nil => rfl
  | cons d s =>
    rw [List.singleton_append, quotedExtent, notEscape, if_neg Bool.false_ne_true,
      if_pos (beq_self_eq_true quote), List.head?_cons, List.tail_cons, List.length_singleton]
    -- only a second quote makes the text go on
    by_cases again : d = quote
    · rw [if_pos (beq_iff_eq.2 again), if_pos (congrArg some again)]
      omega
    · rw [if_neg (fun h => again (beq_iff_eq.1 h)), if_neg (fun h => again (Option.some.inj h))]

/-- Quoted text that ends where more text follows is closed. The recursion is that of the extent,
which takes two characters at a time where one of them is not itself. -/
theorem closedBy_of_quotedExtent {quote : Char} {escapes : Bool} (differ : quote ≠ '\\') :
    ∀ {u rest : List Char}, quotedExtent quote escapes (u ++ rest) = u.length → rest ≠ [] →
      ClosedBy quote escapes u
  | [], rest, ends, more => by
    have := quotedExtent_pos quote escapes more
    rw [List.nil_append, List.length_nil] at ends
    omega
  | [c], rest, ends, more => by
    -- the text of one character is the closing quote: anything else would reach into the rest
    obtain ⟨d, rest, rfl⟩ := List.exists_cons_of_ne_nil more
    rw [List.singleton_append, quotedExtent, List.length_singleton] at ends
    have := quotedExtent_pos quote escapes (List.cons_ne_nil d rest)
    split at ends
    · omega
    · split at ends
      · rename_i isQuote
        rw [beq_iff_eq.1 isQuote]
        exact closedBy_quote escapes differ
      · omega
  | c :: d :: u, rest, ends, more => by
    intro s
    rw [List.cons_append, List.cons_append, quotedExtent] at ends ⊢
    rw [List.length_cons, List.length_cons] at ends ⊢
    -- the step that is taken here is taken with any text behind, as it lies in `u`
    by_cases escaped : (escapes && c == '\\') = true
    · rw [if_pos escaped] at ends ⊢
      have shorter : quotedExtent quote escapes (u ++ rest) = u.length := by omega
      have closed := closedBy_of_quotedExtent differ shorter more s
      omega
    · rw [if_neg escaped] at ends ⊢
      by_cases isQuote : (c == quote) = true
      · rw [if_pos isQuote] at ends ⊢
        by_cases doubled : (d == quote) = true
        · rw [if_pos doubled] at ends ⊢
          have shorter : quotedExtent quote escapes (u ++ rest) = u.length := by omega
          have closed := closedBy_of_quotedExtent differ shorter more s
          omega
        · rw [if_neg doubled] at ends
          omega
      · rw [if_neg isQuote] at ends ⊢
        have shorter : quotedExtent quote escapes (d :: u ++ rest) = (d :: u).length := by
          rw [List.cons_append, List.length_cons]
          omega
        have closed := closedBy_of_quotedExtent differ shorter more s
        rw [List.cons_append, List.length_cons] at closed
        omega

/-- Where there is no backslash, escapes make no difference. -/
theorem quotedExtent_of_no_backslash {quote : Char} {escapes : Bool} (escapes' : Bool)
    {cs : List Char} (none : '\\' ∉ cs.take (quotedExtent quote escapes cs)) :
    quotedExtent quote escapes' cs = quotedExtent quote escapes cs := by
  fun_induction quotedExtent quote escapes cs with
  | case1 => rfl
  | case2 c => rfl
  | case3 c d rest escaped ih =>
    -- an escape is a backslash in the text
    rw [Bool.and_eq_true, beq_iff_eq] at escaped
    rw [Nat.add_comm, List.take_succ_cons, escaped.2] at none
    exact absurd List.mem_cons_self none
  | case4 c d rest notEscaped isQuote doubled ih =>
    rw [Nat.add_comm, List.take_succ_cons, List.take_succ_cons, List.mem_cons, List.mem_cons,
      not_or, not_or] at none
    have notEscape : (escapes' && c == '\\') = false := by
      rw [beq_eq_false_iff_ne.2 (Ne.symm none.1), Bool.and_false]
    rw [quotedExtent, notEscape, if_neg Bool.false_ne_true, if_pos isQuote, if_pos doubled,
      ih none.2.2]
  | case5 c d rest notEscaped isQuote single =>
    rw [List.take_succ_cons, List.mem_cons, not_or] at none
    have notEscape : (escapes' && c == '\\') = false := by
      rw [beq_eq_false_iff_ne.2 (Ne.symm none.1), Bool.and_false]
    rw [quotedExtent, notEscape, if_neg Bool.false_ne_true, if_pos isQuote, if_neg single]
  | case6 c d rest notEscaped notQuote ih =>
    rw [Nat.add_comm, List.take_succ_cons, List.mem_cons, not_or] at none
    have notEscape : (escapes' && c == '\\') = false := by
      rw [beq_eq_false_iff_ne.2 (Ne.symm none.1), Bool.and_false]
    rw [quotedExtent, notEscape, if_neg Bool.false_ne_true, if_neg notQuote, ih none.2]

theorem lineExtent_le (cs : List Char) : lineExtent cs ≤ cs.length := by
  induction cs with
  | nil => exact Nat.le_refl 0
  | cons c cs ih =>
    rw [lineExtent, List.length_cons]
    split <;> omega

theorem lineExtent_replace (rest' : List Char) {rest : List Char} (more : rest ≠ []) :
    ∀ {u : List Char}, lineExtent (u ++ rest) = u.length → lineExtent (u ++ rest') = u.length
  | [], ends => by
    -- a line comment takes at least one character of what is left
    obtain ⟨c, rest, rfl⟩ := List.exists_cons_of_ne_nil more
    rw [List.nil_append, List.length_nil, lineExtent] at ends
    split at ends <;> omega
  | c :: u, ends => by
    rw [List.cons_append, lineExtent, List.length_cons] at ends ⊢
    by_cases newline : (c == '\n') = true
    · rw [if_pos newline] at ends ⊢
      exact ends
    · rw [if_neg newline] at ends ⊢
      have shorter : lineExtent (u ++ rest) = u.length := by omega
      rw [lineExtent_replace rest' more shorter]
      omega

theorem blockExtent_le (depth : Nat) (cs : List Char) : blockExtent depth cs ≤ cs.length := by
  fun_induction blockExtent depth cs with
  | case1 depth => exact Nat.le_refl 0
  | case2 depth c => exact Nat.le_refl 1
  | case3 depth c d rest opening ih =>
    rw [List.length_cons, List.length_cons]
    omega
  | case4 c d rest notOpening closing =>
    rw [List.length_cons, List.length_cons]
    omega
  | case5 c d rest notOpening closing depth ih =>
    rw [List.length_cons, List.length_cons]
    omega
  | case6 depth c d rest notOpening notClosing ih =>
    rw [List.length_cons]
    omega

theorem blockExtent_pos (depth : Nat) {cs : List Char} (h : cs ≠ []) : 0 < blockExtent depth cs := by
  match cs with
  | [c] =>
    rw [blockExtent]
    omega
  | c :: d :: rest =>
    rw [blockExtent.eq_def]
    dsimp only
    split
    · omega
    · split
      · split <;> omega
      · omega

theorem blockExtent_replace (rest' : List Char) {rest : List Char} (more : rest ≠ []) :
    ∀ {depth : Nat} {u : List Char}, blockExtent depth (u ++ rest) = u.length →
      blockExtent depth (u ++ rest') = u.length
  | depth, [], ends => by
    have := blockExtent_pos depth more
    rw [List.nil_append, List.length_nil] at ends
    omega
  | depth, [c], ends => by
    -- one character closes no comment
    obtain ⟨d, rest, rfl⟩ := List.exists_cons_of_ne_nil more
    have := blockExtent_pos depth (List.cons_ne_nil d rest)
    rw [List.singleton_append, blockExtent.eq_def, List.length_singleton] at ends
    dsimp only at ends
    split at ends
    · omega
    · split at ends
      · split at ends <;> omega
      · omega
  | depth, c :: d :: u, ends => by
    rw [List.cons_append, List.cons_append, blockExtent.eq_def] at ends ⊢
    rw [List.length_cons, List.length_cons] at ends ⊢
    dsimp only at ends ⊢
    by_cases opening : (c == '/' && d == '*') = true
    · rw [if_pos opening] at ends ⊢
      have shorter : blockExtent (depth + 1) (u ++ rest) = u.length := by omega
      rw [blockExtent_replace rest' more shorter]
      omega
    · rw [if_neg opening] at ends ⊢
      by_cases closing : (c == '*' && d == '/') = true
      · rw [if_pos closing] at ends ⊢
        cases depth with
        | zero => exact ends
        | succ depth =>
          dsimp only at ends ⊢
          have shorter : blockExtent depth (u ++ rest) = u.length := by omega
          rw [blockExtent_replace rest' more shorter]
          omega
      · rw [if_neg closing] at ends ⊢
        have shorter : blockExtent depth (d :: u ++ rest) = (d :: u).length := by
          rw [List.cons_append, List.length_cons]
          omega
        have same := blockExtent_replace rest' more shorter
        rw [List.cons_append, List.length_cons] at same
        omega

theorem distanceTo?_le {needle cs : List Char} {gap : Nat} (found : distanceTo? needle cs = some gap) :
    gap + needle.length ≤ cs.length := by
  induction cs generalizing gap with
  | nil =>
    rw [distanceTo?] at found
    split at found
    · rename_i empty
      rw [List.isEmpty_iff.1 empty, ← Option.some.inj found]
      exact Nat.le_refl 0
    · cases found
  | cons c cs ih =>
    rw [distanceTo?] at found
    split at found
    · rename_i here
      rw [← Option.some.inj found, Nat.zero_add]
      exact (List.isPrefixOf_iff_prefix.1 here).length_le
    · obtain ⟨gap, later, rfl⟩ := Option.map_eq_some_iff.1 found
      have := ih later
      rw [List.length_cons]
      omega

theorem isPrefixOf_append_of_length_le {needle u : List Char} (rest rest' : List Char)
    (fits : needle.length ≤ u.length) :
    needle.isPrefixOf (u ++ rest) = needle.isPrefixOf (u ++ rest') := by
  -- a needle that fits into `u` does not look behind it
  have only : ∀ s, needle <+: u ++ s ↔ needle <+: u := fun s =>
    ⟨fun h => List.prefix_of_prefix_length_le h (List.prefix_append u s) fits,
      fun h => h.trans (List.prefix_append u s)⟩
  rw [Bool.eq_iff_iff, List.isPrefixOf_iff_prefix, List.isPrefixOf_iff_prefix, only, only]

theorem distanceTo?_replace {needle : List Char} (nonempty : needle ≠ []) (rest rest' : List Char)
    {u : List Char} {gap : Nat} (found : distanceTo? needle (u ++ rest) = some gap)
    (fits : gap + needle.length ≤ u.length) : distanceTo? needle (u ++ rest') = some gap := by
  induction u generalizing gap with
  | nil =>
    have := List.length_pos_iff.2 nonempty
    rw [List.length_nil] at fits
    omega
  | cons c u ih =>
    have whole : needle.length ≤ (c :: u).length := by omega
    rw [List.cons_append, distanceTo?, ← List.cons_append] at found ⊢
    rw [isPrefixOf_append_of_length_le rest rest' whole] at found
    by_cases here : needle.isPrefixOf (c :: u ++ rest') = true
    · rw [if_pos here] at found ⊢
      exact found
    · rw [if_neg here] at found ⊢
      obtain ⟨gap, later, rfl⟩ := Option.map_eq_some_iff.1 found
      rw [List.length_cons] at fits
      rw [ih later (by omega)]
      rfl

theorem distanceTo?_eq_none {needle cs : List Char} :
    distanceTo? needle cs = none ↔ ¬ needle <:+: cs := by
  induction cs with
  | nil =>
    rw [distanceTo?, List.infix_nil]
    cases needle <;> simp
  | cons c cs ih =>
    rw [distanceTo?, List.infix_cons_iff, not_or, ← ih, ← List.isPrefixOf_iff_prefix]
    by_cases here : needle.isPrefixOf (c :: cs) = true
    · rw [if_pos here]
      simp [here]
    · rw [if_neg here, Option.map_eq_none_iff]
      simp [here]

/-- A token ends in its text. -/
theorem nextToken_le {before rest : List Char} {c : Char} {kind : TokenKind} {size : Nat}
    (found : nextToken before c rest = (kind, size)) : size ≤ rest.length := by
  simp only [nextToken] at found
  split at found
  · rw [← (Prod.mk.inj found).2]
    exact quotedExtent_le _ _ rest
  split at found
  · rw [← (Prod.mk.inj found).2]
    exact quotedExtent_le _ _ rest
  split at found
  · rw [← (Prod.mk.inj found).2]
    exact lineExtent_le rest
  split at found
  · rename_i isBlock
    obtain ⟨rest, rfl⟩ := List.head?_eq_some_iff.1 isBlock.2
    rw [← (Prod.mk.inj found).2, List.drop_succ_cons, List.drop_zero, List.length_cons, Nat.add_comm]
    exact Nat.succ_le_succ (blockExtent_le 0 rest)
  split at found
  · split at found
    · rw [← (Prod.mk.inj found).2]
      exact Nat.zero_le _
    · rename_i m opens
      -- the marker is there once, and perhaps a second time in what is left
      obtain ⟨tag, left, rfl, rfl, -⟩ := marker?_eq_some.1 opens
      have whole : (tag ++ '$' :: left).length = ('$' :: (tag ++ ['$'])).length - 1 + left.length := by
        simp only [List.length_append, List.length_cons, List.length_nil]
        omega
      split at found
      · rename_i gap second
        have fits := distanceTo?_le second
        rw [List.length_drop, whole] at fits
        have := (Prod.mk.inj found).2
        omega
      · have := (Prod.mk.inj found).2
        omega
  split at found
  · split at found
    · rename_i isCast
      obtain ⟨rest, rfl⟩ := List.head?_eq_some_iff.1 isCast
      rw [← (Prod.mk.inj found).2, List.length_cons]
      exact Nat.le_add_left 1 rest.length
    · split at found
      · rw [← (Prod.mk.inj found).2]
        exact Nat.zero_le _
      · rw [← (Prod.mk.inj found).2]
        exact (List.takeWhile_prefix isWordChar).length_le
  · rw [← (Prod.mk.inj found).2]
    exact Nat.zero_le _

/-- A token and what is left of the text behind its first character. -/
theorem exists_of_nextToken {before cs : List Char} {c : Char} {kind : TokenKind} {size : Nat}
    (found : nextToken before c cs = (kind, size)) :
    ∃ u rest, cs = u ++ rest ∧ cs.take size = u ∧ cs.drop size = rest
      ∧ nextToken before c (u ++ rest) = (kind, u.length) := by
  refine ⟨_, _, (List.take_append_drop size cs).symm, rfl, rfl, ?_⟩
  rw [List.take_append_drop, List.length_take, Nat.min_eq_left (nextToken_le found)]
  exact found

/-- A placeholder is a colon and the word behind it, as long as it is. -/
theorem placeholder_of_nextToken {before u rest : List Char} {c : Char}
    (found : nextToken before c (u ++ rest) = (.placeholder, u.length)) :
    c = ':' ∧ u ≠ [] ∧ (∀ d ∈ u, isWordChar d = true)
      ∧ ∀ d, rest.head? = some d → isWordChar d = false := by
  obtain rfl := colon_of_nextToken found
  refine ⟨rfl, ?_⟩
  by_cases isCast : (u ++ rest).head? = some ':'
  · rw [nextToken_colon, if_pos isCast] at found
    cases found
  obtain ⟨word, left, parts, isWord, maximal⟩ := exists_word (u ++ rest)
  by_cases empty : word = []
  · rw [empty, List.nil_append] at parts
    rw [nextToken_of_no_word before isCast (parts ▸ maximal)] at found
    cases found
  · rw [parts, nextToken_of_word before empty isWord maximal] at found
    -- both cut the same text after equally many characters
    obtain rfl : u = word := List.append_inj_left parts (Prod.mk.inj found).2.symm
    obtain rfl : rest = left := List.append_cancel_left parts
    exact ⟨empty, isWord, maximal⟩

/-- A literal begins with a quote. -/
theorem quote_of_nextToken {before cs : List Char} {c : Char} {size : Nat}
    (found : nextToken before c cs = (.literal, size)) : c = '\'' := by
  by_cases isQuote : c = '\''
  · exact isQuote
  · simp only [nextToken] at found
    rw [if_neg isQuote] at found
    repeat' split at found
    all_goals cases (Prod.mk.inj found).1

/-- Tokens have text, and that of a placeholder is a colon in front of its name, which is a word. -/
theorem text_of_mem_tokensAfter {before cs : List Char} {t : Token} (ht : t ∈ tokensAfter before cs) :
    t.text ≠ [] ∧ ∀ n, t.name? = some n → t.text = ':' :: n.toList ∧ IsWord n := by
  fun_induction tokensAfter before cs with
  | case1 => exact absurd ht List.not_mem_nil
  | case2 before c rest kind size found text ih =>
    rcases List.mem_cons.1 ht with rfl | ht
    · refine ⟨List.cons_ne_nil _ _, fun n named => ?_⟩
      unfold Token.name? at named
      split at named
      · rename_i isPlaceholder
        dsimp only at isPlaceholder
        subst isPlaceholder
        obtain ⟨u, left, rfl, taken, -, found⟩ := exists_of_nextToken found
        obtain ⟨rfl, nonempty, isWord, -⟩ := placeholder_of_nextToken found
        -- the name is the text without its colon
        have name : n = String.ofList u := by
          rw [← Option.some.inj named]
          dsimp only [text]
          rw [taken, List.drop_succ_cons, List.drop_zero]
        have chars : n.toList = u := by rw [name, String.toList_ofList]
        refine ⟨?_, fun empty => nonempty ?_, chars ▸ isWord⟩
        · rw [chars, ← taken]
        · rw [← chars, empty]
          rfl
      · cases named
    · exact ih ht

/-- Away from quotes and dollars a token is the same in every context, and a dollar that opens no marker
by what is behind it is itself everywhere. -/
theorem nextToken_context {before rest : List Char} {c : Char} (before' : List Char)
    (notQuote : c ≠ '\'') (dollar : c = '$' → marker? [] rest = none) :
    nextToken before c rest = nextToken before' c rest := by
  -- what is in front can only forbid a marker
  have closed : ∀ b, marker? [] rest = none → marker? b rest = none := by
    intro b none
    unfold marker? at none ⊢
    split
    · rfl
    · rwa [if_neg (by decide)] at none
  unfold nextToken
  rw [if_neg notQuote, if_neg notQuote]
  by_cases isDollar : c = '$'
  · rw [closed before (dollar isDollar), closed before' (dollar isDollar)]
  · rw [if_neg isDollar, if_neg isDollar]

end TypedStore.Statement
