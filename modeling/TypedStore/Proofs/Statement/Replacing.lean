/-
What a token owes to the text behind it. Tokens see of that text whether there is any, how it begins and
the dollar markers in it (`Seen`), so they stay what they are when placeholders behind them are replaced
by opaque text (`nextToken_replace`). Literals are the exception, as one may go on in a literal that is
put behind it; the placeholders found are the same all the same (`names_literal`).
-/
import TypedStore.Proofs.Statement.Extents

set_option autoImplicit false

namespace TypedStore.Statement

open TypedStore.Text

/-! ## 1. Behind a token -/

/-- What tokens can see of the text behind them when `rest'` stands in the place of `rest`: whether
there is any; its first character, unless a placeholder was replaced by what opens, closes or casts
nothing; and the dollar markers in it. -/
structure Seen (rest rest' : List Char) : Prop where
  ended : rest = [] → rest' = []
  head : rest'.head? = rest.head?
    ∨ rest.head? = some ':' ∧ ∀ c ∈ rest'.head?, c ∉ ['"', '-', '*', ':']
  /-- What completes a marker completed it before. -/
  tag : ∀ tag, (∀ c ∈ tag, isWordChar c = true) → tag ++ ['$'] <+: rest' → tag ++ ['$'] <+: rest
  marker : ∀ tag, (∀ c ∈ tag, isWordChar c = true) → '$' :: (tag ++ ['$']) <:+: rest' →
    '$' :: (tag ++ ['$']) <:+: rest

theorem Seen.nil : Seen [] [] := ⟨fun h => h, .inl rfl, fun _ _ h => h, fun _ _ h => h⟩

/-- Text that replaces a placeholder: its first character opens, closes and casts nothing, and it has no
part in a dollar marker, as it is neither a word nor contains a dollar. -/
structure Opaque (cs : List Char) : Prop where
  head : ∀ c ∈ cs.head?, c ∉ ['"', '-', '*', ':']
  dollarless : '$' ∉ cs
  notWord : ∃ c ∈ cs, isWordChar c = false

theorem tag_prefix_append {s s' : List Char}
    (h : ∀ tag, (∀ c ∈ tag, isWordChar c = true) → tag ++ ['$'] <+: s' → tag ++ ['$'] <+: s)
    (x : List Char) {tag : List Char} (isWord : ∀ c ∈ tag, isWordChar c = true)
    (stands : tag ++ ['$'] <+: x ++ s') : tag ++ ['$'] <+: x ++ s := by
  -- the induction is on what is kept in front, which uses up the tag character by character
  induction x generalizing tag with
  | nil => exact h tag isWord stands
  | cons d x ih =>
    cases tag with
    | nil =>
      rw [List.nil_append, List.cons_append, List.cons_prefix_cons] at stands ⊢
      exact ⟨stands.1, List.nil_prefix⟩
    | cons c tag =>
      rw [List.cons_append, List.cons_append, List.cons_prefix_cons] at stands ⊢
      exact ⟨stands.1, ih (fun e he => isWord e (List.mem_cons_of_mem _ he)) stands.2⟩

/-- What is kept in front of the text is seen as it was. -/
theorem Seen.append {rest rest' : List Char} (h : Seen rest rest') {x : List Char} (hx : x ≠ []) :
    Seen (x ++ rest) (x ++ rest') where
  ended none := absurd (List.append_eq_nil_iff.1 none).1 hx
  head := by
    obtain ⟨c, x, rfl⟩ := List.exists_cons_of_ne_nil hx
    exact .inl rfl
  tag tag isWord stands := tag_prefix_append h.tag x isWord stands
  marker tag isWord stands := by
    -- a marker begins in what is kept and is completed as before, or lies behind it
    clear hx
    induction x with
    | nil => exact h.marker tag isWord stands
    | cons d x ih =>
      rw [List.cons_append, List.infix_cons_iff] at stands ⊢
      rcases stands with here | later
      · rw [List.cons_prefix_cons] at here ⊢
        exact .inl ⟨here.1, tag_prefix_append h.tag x isWord here.2⟩
      · exact .inr (ih later)

theorem Opaque.not_tag_prefix {text : List Char} (h : Opaque text) (s : List Char) {tag : List Char}
    (isWord : ∀ c ∈ tag, isWordChar c = true) : ¬ tag ++ ['$'] <+: text ++ s := by
  obtain ⟨-, dollarless, notWord⟩ := h
  intro stands
  induction text generalizing tag with
  | nil =>
    obtain ⟨c, hc, -⟩ := notWord
    exact absurd hc List.not_mem_nil
  | cons d text ih =>
    rw [List.mem_cons, not_or] at dollarless
    cases tag with
    | nil =>
      rw [List.nil_append, List.cons_append, List.cons_prefix_cons] at stands
      exact dollarless.1 stands.1
    | cons c tag =>
      rw [List.cons_append, List.cons_append, List.cons_prefix_cons] at stands
      refine ih (fun e he => isWord e (List.mem_cons_of_mem _ he)) dollarless.2 ?_ stands.2
      -- the first character belongs to the tag, so another one is no part of a word
      obtain ⟨e, he, none⟩ := notWord
      refine ⟨e, (List.mem_cons.1 he).resolve_left fun same => ?_, none⟩
      have word := isWord c List.mem_cons_self
      rw [stands.1, ← same, none] at word
      cases word

theorem Opaque.infix_of_infix_append {text : List Char} (h : Opaque text) {s m : List Char}
    (stands : '$' :: m <:+: text ++ s) : '$' :: m <:+: s := by
  have dollarless := h.dollarless
  clear h
  induction text with
  | nil => exact stands
  | cons d text ih =>
    rw [List.mem_cons, not_or] at dollarless
    rw [List.cons_append, List.infix_cons_iff, List.cons_prefix_cons] at stands
    -- a marker begins with a dollar, so not in the opaque text
    exact ih (stands.resolve_left fun here => dollarless.1 here.1) dollarless.2

/-- A placeholder is replaced by opaque text. -/
theorem Seen.replace {rest rest' : List Char} (h : Seen rest rest') {text : List Char}
    (blank : Opaque text) (word : List Char) : Seen (':' :: word ++ rest) (text ++ rest') where
  ended none := by cases none
  head := by
    obtain ⟨c, hc, -⟩ := blank.notWord
    obtain ⟨d, text, rfl⟩ := List.exists_cons_of_ne_nil (List.ne_nil_of_mem hc)
    exact .inr ⟨rfl, blank.head⟩
  tag tag isWord stands := absurd stands (blank.not_tag_prefix rest' isWord)
  marker tag isWord stands := by
    -- a marker behind the opaque text was behind the placeholder
    obtain ⟨left, right, parts⟩ := h.marker tag isWord (blank.infix_of_infix_append stands)
    refine ⟨':' :: word ++ left, right, ?_⟩
    rw [← parts]
    simp only [List.append_assoc]

section Replacing

variable {before rest rest' u : List Char} {c : Char} {kind : TokenKind}

theorem Seen.head?_append (seen : Seen rest rest') (special : c ∈ ['"', '-', '*', ':'])
    (h : (u ++ rest').head? = some c) : (u ++ rest).head? = some c := by
  cases u with
  | cons d u => exact h
  | nil =>
    rw [List.nil_append] at h ⊢
    rcases seen.head with same | ⟨-, none⟩
    · rw [← same]
      exact h
    · exact absurd special (none c h)

theorem identifierExtent_replace (seen : Seen rest rest')
    (ends : quotedExtent '"' false (u ++ rest) = u.length) :
    quotedExtent '"' false (u ++ rest') = u.length := by
  by_cases last : rest = []
  · rw [seen.ended last, ← last]
    exact ends
  have closed := closedBy_of_quotedExtent (by decide) ends last
  -- a quote behind it would have made the identifier longer
  have notDoubled : rest.head? ≠ some '"' := by
    intro doubled
    have goesOn := closed rest
    rw [ends, if_pos doubled] at goesOn
    omega
  rw [closed rest', if_neg fun doubled => notDoubled ?_, Nat.add_zero]
  exact seen.head?_append (by decide : '"' ∈ _) (u := []) doubled

theorem marker?_eq_none_replace (seen : Seen rest rest') (closed : marker? before rest = none) :
    marker? before rest' = none := by
  cases found : marker? before rest' with
  | none => rfl
  | some m =>
    obtain ⟨tag, left, parts, -, isWord, isTag, mayBegin⟩ := marker?_eq_some.1 found
    -- a marker that opens now opened before
    have stands : tag ++ ['$'] <+: rest' := ⟨left, by rw [parts, List.append_assoc]; rfl⟩
    obtain ⟨left, parts⟩ := seen.tag tag isWord stands
    rw [List.append_assoc, List.singleton_append] at parts
    have old : marker? before rest = some ('$' :: (tag ++ ['$'])) :=
      marker?_eq_some.2 ⟨tag, left, parts.symm, rfl, isWord, isTag, mayBegin⟩
    rw [closed] at old
    cases old

/-- A dollar opens the same block, or stands alone with the same marker. The marker and its second
occurrence are in the token's own text, and where there is no second one, none is added. -/
theorem nextToken_dollar_replace (seen : Seen rest rest')
    (found : nextToken before '$' (u ++ rest) = (kind, u.length)) :
    nextToken before '$' (u ++ rest') = (kind, u.length) := by
  cases opens : marker? before (u ++ rest) with
  | none =>
    rw [nextToken_of_no_marker opens] at found
    obtain ⟨rfl, empty⟩ := Prod.mk.inj found
    obtain rfl := List.length_eq_zero_iff.1 empty.symm
    exact nextToken_of_no_marker (marker?_eq_none_replace seen opens)
  | some m =>
    obtain ⟨tag, left, parts, same, isWord, isTag, mayBegin⟩ := marker?_eq_some.1 opens
    have size : m.length - 1 = (tag ++ ['$']).length := by
      rw [same]
      rfl
    have long : (tag ++ ['$']).length ≤ u.length := by
      cases second : distanceTo? m ((u ++ rest).drop (m.length - 1)) with
      | some gap =>
        rw [nextToken_of_second opens second] at found
        have := (Prod.mk.inj found).2
        omega
      | none =>
        rw [nextToken_of_lone opens second] at found
        have := (Prod.mk.inj found).2
        omega
    -- the marker is part of the token
    obtain ⟨v, rfl⟩ : tag ++ ['$'] <+: u := by
      refine List.prefix_of_prefix_length_le ⟨left, ?_⟩ (List.prefix_append u rest) long
      rw [parts, List.append_assoc]
      rfl
    have opens' : marker? before (tag ++ ['$'] ++ v ++ rest') = some m := by
      refine marker?_eq_some.2 ⟨tag, v ++ rest', ?_, same, isWord, isTag, mayBegin⟩
      rw [List.append_assoc, List.append_assoc]
      rfl
    have behindMarker : ∀ s, (tag ++ ['$'] ++ v ++ s).drop (m.length - 1) = v ++ s := by
      intro s
      rw [size, List.append_assoc, List.drop_left]
    have whole : (tag ++ ['$'] ++ v).length = (tag ++ ['$']).length + v.length :=
      List.length_append
    cases second : distanceTo? m (v ++ rest) with
    | some gap =>
      rw [nextToken_of_second opens (by rw [behindMarker, second])] at found
      obtain ⟨rfl, extent⟩ := Prod.mk.inj found
      have nonempty : m ≠ [] := by
        rw [same]
        exact List.cons_ne_nil _ _
      have second' := distanceTo?_replace nonempty rest rest' second (by omega)
      rw [nextToken_of_second opens' (by rw [behindMarker, second']), extent]
    | none =>
      rw [nextToken_of_lone opens (by rw [behindMarker, second])] at found
      obtain ⟨rfl, extent⟩ := Prod.mk.inj found
      obtain rfl : v = [] := List.length_eq_zero_iff.1 (by omega)
      have lone : distanceTo? m rest' = none := by
        rw [List.nil_append, same, distanceTo?_eq_none] at second
        rw [same, distanceTo?_eq_none]
        exact fun h => second (seen.marker tag isWord h)
      rw [nextToken_of_lone opens' (by rw [behindMarker, List.nil_append, lone]), extent]

/-- A colon begins the same placeholder, provided that no word character follows now. -/
theorem nextToken_colon_replace (seen : Seen rest rest')
    (ends : kind = .placeholder → ∀ d, rest'.head? = some d → isWordChar d = false)
    (found : nextToken before ':' (u ++ rest) = (kind, u.length)) :
    nextToken before ':' (u ++ rest') = (kind, u.length) := by
  by_cases isCast : (u ++ rest).head? = some ':'
  · rw [nextToken_colon, if_pos isCast] at found
    -- the second colon is in the token
    have one := (Prod.mk.inj found).2
    obtain ⟨d, rfl⟩ := List.length_eq_one_iff.1 one.symm
    have isCast' : ([d] ++ rest').head? = some ':' := isCast
    rw [nextToken_colon, if_pos isCast']
    exact found
  have notCast : (u ++ rest').head? ≠ some ':' := fun h => isCast (seen.head?_append (by decide) h)
  obtain ⟨word, left, parts, isWord, maximal⟩ := exists_word (u ++ rest)
  by_cases empty : word = []
  · -- a colon on its own: what is behind it still begins with the same character
    rw [empty, List.nil_append] at parts
    rw [nextToken_of_no_word before isCast (parts ▸ maximal)] at found
    obtain ⟨rfl, none⟩ := Prod.mk.inj found
    obtain rfl := List.length_eq_zero_iff.1 none.symm
    have headed : rest'.head? = rest.head? := seen.head.resolve_right fun h => isCast h.1
    refine nextToken_of_no_word before notCast fun d hd => maximal d ?_
    rw [← parts, List.nil_append, ← headed]
    exact hd
  · rw [parts, nextToken_of_word before empty isWord maximal] at found
    obtain ⟨rfl, extent⟩ := Prod.mk.inj found
    obtain rfl : u = word := List.append_inj_left parts extent.symm
    exact nextToken_of_word before empty isWord (ends rfl)

/-- **A token does not depend on what is behind it.** Where the text behind a token is replaced by one
that looks the same to tokens, the token stays, literals apart. The cases are those of the cut: what
opens a token is in the token itself, so it is found again, and what follows is looked at only where a
character might open one and does not. -/
theorem nextToken_replace (notLiteral : c ≠ '\'') (seen : Seen rest rest')
    (ends : kind = .placeholder → ∀ d, rest'.head? = some d → isWordChar d = false)
    (found : nextToken before c (u ++ rest) = (kind, u.length)) :
    nextToken before c (u ++ rest') = (kind, u.length) := by
  by_cases isDollar : c = '$'
  · subst isDollar
    exact nextToken_dollar_replace seen found
  by_cases isColon : c = ':'
  · subst isColon
    exact nextToken_colon_replace seen ends found
  unfold nextToken at found ⊢
  rw [if_neg notLiteral] at found ⊢
  by_cases isDouble : c = '"'
  · rw [if_pos isDouble] at found ⊢
    obtain ⟨rfl, extent⟩ := Prod.mk.inj found
    rw [identifierExtent_replace seen extent]
  rw [if_neg isDouble] at found ⊢
  by_cases isLine : c = '-' ∧ (u ++ rest).head? = some '-'
  · rw [if_pos isLine] at found
    obtain ⟨rfl, extent⟩ := Prod.mk.inj found
    cases u with
    | nil =>
      -- the second hyphen is part of the comment
      obtain ⟨rest, rfl⟩ := List.head?_eq_some_iff.1 isLine.2
      rw [List.nil_append, List.length_nil, lineExtent, if_neg (by decide)] at extent
      omega
    | cons d v =>
      have opened : c = '-' ∧ (d :: v ++ rest').head? = some '-' := isLine
      rw [if_pos opened]
      by_cases last : rest = []
      · rw [seen.ended last, ← last, extent]
      · rw [lineExtent_replace rest' last extent]
  -- no hyphen is put behind a lone one
  have notLine : ¬ (c = '-' ∧ (u ++ rest').head? = some '-') := fun h =>
    isLine ⟨h.1, seen.head?_append (by decide) h.2⟩
  rw [if_neg isLine] at found
  rw [if_neg notLine]
  by_cases isBlock : c = '/' ∧ (u ++ rest).head? = some '*'
  · rw [if_pos isBlock] at found
    obtain ⟨rfl, extent⟩ := Prod.mk.inj found
    cases u with
    | nil =>
      rw [List.length_nil] at extent
      omega
    | cons d v =>
      have opened : c = '/' ∧ (d :: v ++ rest').head? = some '*' := isBlock
      rw [if_pos opened]
      by_cases last : rest = []
      · rw [seen.ended last, ← last, extent]
      · rw [List.cons_append, List.drop_succ_cons, List.drop_zero, List.length_cons] at extent ⊢
        have inside : blockExtent 0 (v ++ rest) = v.length := by omega
        rw [blockExtent_replace rest' last inside, Nat.add_comm]
  -- and no star behind a lone slash
  have notBlock : ¬ (c = '/' ∧ (u ++ rest').head? = some '*') := fun h =>
    isBlock ⟨h.1, seen.head?_append (by decide) h.2⟩
  rw [if_neg isBlock, if_neg isDollar, if_neg isColon] at found
  rw [if_neg notBlock, if_neg isDollar, if_neg isColon]
  exact found

end Replacing

/-! ## 2. Placeholders part by part -/

theorem names_cons (t : Token) (ts : List Token) : names (t :: ts) = t.name?.toList ++ names ts := by
  cases h : t.name? <;> simp [names, h]

/-- A token that is no placeholder has no name to give. -/
theorem names_of_nextToken {before u rest : List Char} {c : Char} {kind : TokenKind}
    (found : nextToken before c (u ++ rest) = (kind, u.length)) (other : kind ≠ .placeholder) :
    names (tokensAfter before (c :: (u ++ rest)))
      = names (tokensAfter ((c :: u).reverse ++ before) rest) := by
  have nameless : Token.name? ⟨kind, c :: u⟩ = none := if_neg other
  rw [tokensAfter_of_nextToken found, names_cons, nameless]
  rfl

theorem names_placeholder_append {word rest : List Char} (before : List Char) (nonempty : word ≠ [])
    (isWord : ∀ c ∈ word, isWordChar c = true)
    (maximal : ∀ c, rest.head? = some c → isWordChar c = false) :
    names (tokensAfter before (':' :: (word ++ rest)))
      = String.ofList word :: names (tokensAfter ((':' :: word).reverse ++ before) rest) := by
  rw [tokensAfter_of_nextToken (nextToken_of_word before nonempty isWord maximal), names_cons]
  rfl

theorem names_cast (before rest : List Char) :
    names (tokensAfter before (':' :: ':' :: rest))
      = names (tokensAfter (':' :: ':' :: before) rest) :=
  names_of_nextToken (u := [':']) (rfl : nextToken before ':' (':' :: rest) = (.cast, 1)) (by decide)

/-- A literal can be read on its own, even where a quote right behind it makes it go on: what goes on
is a literal itself, and so hides the same placeholders. It has to have the same escapes for that,
which is what the context in front of the first literal sees to. -/
theorem names_literal {before u : List Char} (closed : ClosedBy '\'' (escapesBefore before) u)
    (rest : List Char) :
    names (tokensAfter before ('\'' :: (u ++ rest)))
      = names (tokensAfter
          (if rest.head? = some '\'' then before else ('\'' :: u).reverse ++ before) rest) := by
  have quote : ∀ cs, nextToken before '\'' cs
      = (.literal, quotedExtent '\'' (escapesBefore before) cs) := fun _ => rfl
  by_cases again : rest.head? = some '\''
  · rw [if_pos again]
    -- the literal goes on with `x`, which is the literal that would be read there on its own
    obtain ⟨s, rfl⟩ := List.head?_eq_some_iff.1 again
    obtain ⟨x, y, rfl, extent⟩ : ∃ x y, s = x ++ y
        ∧ quotedExtent '\'' (escapesBefore before) (x ++ y) = x.length := by
      have fits := quotedExtent_le '\'' (escapesBefore before) s
      refine ⟨_, _, (List.take_append_drop (quotedExtent '\'' (escapesBefore before) s) s).symm, ?_⟩
      rw [List.take_append_drop, List.length_take, Nat.min_eq_left fits]
    have longer : nextToken before '\'' ((u ++ '\'' :: x) ++ y)
        = (.literal, (u ++ '\'' :: x).length) := by
      have goesOn := closed ('\'' :: (x ++ y))
      rw [if_pos again, List.tail_cons, extent] at goesOn
      rw [quote, List.append_assoc, List.cons_append, goesOn, List.length_append, List.length_cons,
        Nat.add_comm 1]
    have alone : nextToken before '\'' (x ++ y) = (.literal, x.length) := by rw [quote, extent]
    have whole : u ++ '\'' :: (x ++ y) = (u ++ '\'' :: x) ++ y := by
      rw [List.append_assoc, List.cons_append]
    -- both contexts end with the second literal, from its quote on
    have same := (sameContext_of_not_word (by decide : isWordChar '\'' = false)
      (u.reverse ++ '\'' :: before) before).append x.reverse
    have left : ('\'' :: (u ++ '\'' :: x)).reverse ++ before
        = x.reverse ++ '\'' :: (u.reverse ++ '\'' :: before) := by simp
    have right : ('\'' :: x).reverse ++ before = x.reverse ++ '\'' :: before := by simp
    rw [whole, names_of_nextToken longer (by decide), names_of_nextToken alone (by decide), left,
      right, tokensAfter_congr y _ same]
  · rw [if_neg again]
    refine names_of_nextToken ?_ (by decide : TokenKind.literal ≠ _)
    rw [quote, closed rest, if_neg again, Nat.add_zero]

section Replacing

variable {before before' rest rest' u : List Char} {c : Char} {kind : TokenKind}

/-- A literal hides the same placeholders in front of other text. In a new context it has to be one
without backslashes, and what goes on with it now began with a placeholder before, so the context in
front of that is of no account. -/
theorem names_literal_replace (found : nextToken before '\'' (u ++ rest) = (kind, u.length))
    (context : SameContext before before' ∨ '\\' ∉ u) (seen : Seen rest rest') :
    ∃ after, (SameContext (('\'' :: u).reverse ++ before) after ∨ rest.head? = some ':')
      ∧ names (tokensAfter before' ('\'' :: (u ++ rest'))) = names (tokensAfter after rest') := by
  -- the literal has the same end in the new context
  have extent : quotedExtent '\'' (escapesBefore before') (u ++ rest) = u.length := by
    have old : quotedExtent '\'' (escapesBefore before) (u ++ rest) = u.length :=
      (Prod.mk.inj found).2
    rcases context with same | none
    · rw [← same.2]
      exact old
    · have absent : '\\' ∉ (u ++ rest).take (quotedExtent '\'' (escapesBefore before) (u ++ rest)) := by
        rw [old, List.take_left]
        exact none
      rw [quotedExtent_of_no_backslash _ absent, old]
  by_cases ended : rest = []
  · have whole : nextToken before' '\'' (u ++ rest) = (.literal, u.length) := by
      rw [← extent]
      rfl
    rw [seen.ended ended, ← ended, names_of_nextToken whole (by decide), ended]
    refine ⟨_, .inl (SameContext.refl _), ?_⟩
    rw [tokensAfter, tokensAfter]
  have closed := closedBy_of_quotedExtent (by decide) extent ended
  -- no quote was behind it, or the literal would have gone on
  have single : rest.head? ≠ some '\'' := by
    intro doubled
    have goesOn := closed rest
    rw [extent, if_pos doubled] at goesOn
    omega
  refine ⟨_, ?_, names_literal closed rest'⟩
  -- a quote that is there now was put in the place of a placeholder
  by_cases again : rest'.head? = some '\''
  · rcases seen.head with same | ⟨colon, -⟩
    · exact absurd (same.symm.trans again) single
    · exact .inr colon
  · rw [if_neg again, List.reverse_cons, List.append_assoc, List.append_assoc]
    exact .inl ((sameContext_of_not_word (by decide) before before').append u.reverse)

/-- Any other token is found again in a new context, unless it begins with a word character or with a
dollar that opens a marker there. -/
theorem nextToken_of_context (notQuote : c ≠ '\'')
    (found : nextToken before c (u ++ rest) = (kind, u.length))
    (context : SameContext before before'
      ∨ isWordChar c = false ∧ (c = '$' → marker? [] (u ++ rest) = none)) :
    nextToken before' c (u ++ rest) = (kind, u.length)
      ∧ SameContext ((c :: u).reverse ++ before) ((c :: u).reverse ++ before') := by
  rcases context with same | ⟨notWord, dollar⟩
  · rw [← nextToken_congr same]
    exact ⟨found, same.append _⟩
  · rw [← nextToken_context before' notQuote dollar, List.reverse_cons, List.append_assoc,
      List.append_assoc]
    exact ⟨found, (sameContext_of_not_word notWord before before').append u.reverse⟩

end Replacing

/-! ## 3. Texts that can stand anywhere -/

/-- The characters that may open a token. -/
def openers : List Char := ['\'', '"', '-', '/', '$', ':']

theorem nextToken_of_not_mem_openers {c : Char} (quiet : c ∉ openers) (before rest : List Char) :
    nextToken before c rest = (.plain, 0) := by
  simp only [openers, List.mem_cons, List.not_mem_nil, or_false, not_or] at quiet
  obtain ⟨notQuote, notDouble, notHyphen, notSlash, notDollar, notColon⟩ := quiet
  unfold nextToken
  rw [if_neg notQuote, if_neg notDouble, if_neg fun h => notHyphen h.1, if_neg fun h => notSlash h.1,
    if_neg notDollar, if_neg notColon]

/-- A text is inert: wherever it stands, it has no placeholder and hides none, and it has no part in a
dollar marker. -/
structure Inert (cs : List Char) : Prop where
  names : ∀ before rest, names (tokensAfter before (cs ++ rest))
    = names (tokensAfter (cs.reverse ++ before) rest)
  dollarless : '$' ∉ cs

/-- Where no character opens a token, the text is inert. -/
theorem inert_of_openers {cs : List Char} (quiet : ∀ c ∈ cs, c ∉ openers) : Inert cs := by
  refine ⟨fun before rest => ?_, fun dollar => quiet '$' dollar (by decide)⟩
  induction cs generalizing before with
  | nil => rfl
  | cons c cs ih =>
    have plain := nextToken_of_not_mem_openers (quiet c List.mem_cons_self) before (cs ++ rest)
    have one : Statement.names (tokensAfter before (c :: (cs ++ rest)))
        = Statement.names (tokensAfter (c :: before) (cs ++ rest)) :=
      names_of_nextToken (u := []) plain (by decide)
    rw [List.cons_append, one, ih fun d hd => quiet d (List.mem_cons_of_mem _ hd),
      List.reverse_cons, List.append_assoc, List.singleton_append]

theorem not_mem_openers_of_isWordChar {c : Char} (h : isWordChar c = true) : c ∉ openers := by
  intro opens
  simp only [openers, List.mem_cons, List.not_mem_nil, or_false] at opens
  rcases opens with rfl | rfl | rfl | rfl | rfl | rfl <;> revert h <;> decide

end TypedStore.Statement
