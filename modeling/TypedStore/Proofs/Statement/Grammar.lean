/-
The grammar of statements over the bytes of their text, as far as placeholders are concerned. A text is
cut from left to right; at each position one of eight kinds of special tokens may stand, and where none
does the token is a single byte. Nothing here scans: literals and comments are described by rules that
say how what is behind their opening goes on, block comments by rules that nest, dollar blocks by the
first occurrence of their marker. The main statement is that a text can be cut in one way only
(`cut_unique`).
-/
import TypedStore.Proofs.Text.Encoding
import TypedStore.Statement.Token

set_option autoImplicit false

namespace TypedStore.Statement

open TypedStore.Text

/-! ## 1. Bytes -/

/-- ASCII digits. -/
def isDigitByte (b : UInt8) : Bool := ascii '0' ≤ b && b ≤ ascii '9'

/-- ASCII letters, digits and the underscore. -/
def isWordByte (b : UInt8) : Bool :=
  (ascii 'a' ≤ b && b ≤ ascii 'z') || (ascii 'A' ≤ b && b ≤ ascii 'Z') || isDigitByte b
    || b == ascii '_'

/-- The byte in front of a position, nearest first, belongs to a word. -/
def behindWord (before : List UInt8) : Bool := (before.head?.map isWordByte).getD false

/-- A quote opens a literal with escapes: it stands right behind an `E` that is no part of a longer
word. -/
def opensEscapes : List UInt8 → Bool
  | [] => false
  | e :: before => (e == ascii 'E' || e == ascii 'e') && !behindWord before

/-! ## 2. Behind an opening -/

/-- What is behind an opening quote: `inside` goes up to and including the closing quote and `rest` is
left. Two quotes in a row do not close, a backslash protects the next byte where there are escapes, and
what is never closed runs to the end. -/
inductive Quoted (quote : UInt8) (escapes : Bool) : List UInt8 → List UInt8 → List UInt8 → Prop where
  | closed {rest : List UInt8} (single : rest.head? ≠ some quote) :
      Quoted quote escapes (quote :: rest) [quote] rest
  | doubled {s inside rest : List UInt8} (more : Quoted quote escapes s inside rest) :
      Quoted quote escapes (quote :: quote :: s) (quote :: quote :: inside) rest
  | escaped {b : UInt8} {s inside rest : List UInt8} (escaping : escapes = true)
      (more : Quoted quote escapes s inside rest) :
      Quoted quote escapes (ascii '\\' :: b :: s) (ascii '\\' :: b :: inside) rest
  | other {b : UInt8} {s inside rest : List UInt8} (notQuote : b ≠ quote)
      (notEscape : escapes = true → b ≠ ascii '\\') (more : Quoted quote escapes s inside rest) :
      Quoted quote escapes (b :: s) (b :: inside) rest
  | ended : Quoted quote escapes [] [] []
  | endedEscape (escaping : escapes = true) :
      Quoted quote escapes [ascii '\\'] [ascii '\\'] []

/-- What is behind the two hyphens of a comment, its newline included. -/
inductive Line : List UInt8 → List UInt8 → List UInt8 → Prop where
  | newline {rest : List UInt8} : Line (ascii '\n' :: rest) [ascii '\n'] rest
  | other {b : UInt8} {s inside rest : List UInt8} (notNewline : b ≠ ascii '\n')
      (more : Line s inside rest) : Line (b :: s) (b :: inside) rest
  | ended : Line [] [] []

/-- What is behind the opening of a block comment, its closing included: other bytes and comments,
which nest. -/
inductive Comment : List UInt8 → List UInt8 → List UInt8 → Prop where
  | closed {rest : List UInt8} :
      Comment (ascii '*' :: ascii '/' :: rest) [ascii '*', ascii '/'] rest
  | nested {s inner between inside rest : List UInt8} (comment : Comment s inner between)
      (more : Comment between inside rest) :
      Comment (ascii '/' :: ascii '*' :: s) (ascii '/' :: ascii '*' :: (inner ++ inside)) rest
  | other {b : UInt8} {s inside rest : List UInt8}
      (noOpening : ¬ (b = ascii '/' ∧ s.head? = some (ascii '*')))
      (noClosing : ¬ (b = ascii '*' ∧ s.head? = some (ascii '/')))
      (more : Comment s inside rest) : Comment (b :: s) (b :: inside) rest
  | ended : Comment [] [] []

/-! ## 3. Dollar markers -/

/-- The tag of a marker: empty, or a word that does not begin with a digit. -/
def IsTag (tag : List UInt8) : Prop :=
  (∀ b ∈ tag, isWordByte b = true) ∧ ∀ b, tag.head? = some b → isDigitByte b = false

/-- The marker of a tag. -/
def marker (tag : List UInt8) : List UInt8 := ascii '$' :: (tag ++ [ascii '$'])

/-- No marker begins right behind a word or a dollar. -/
def MarkerMayBegin (before : List UInt8) : Prop :=
  behindWord before = false ∧ before.head? ≠ some (ascii '$')

/-- The first occurrence of a text stands behind `gap` and in front of `rest`. -/
def FirstOccurrence (needle s gap rest : List UInt8) : Prop :=
  s = gap ++ (needle ++ rest) ∧ ∀ k < gap.length, ¬ needle <+: s.drop k

/-! ## 4. Tokens -/

/-- A piece of the bytes of a statement. -/
structure Lexeme where
  kind : TokenKind
  bytes : List UInt8

/-- The special tokens at the front of `s`: their kinds, what belongs to them and what is left.
`before` is what precedes, nearest first. -/
inductive Special (before : List UInt8) :
    TokenKind → List UInt8 → List UInt8 → List UInt8 → Prop where
  | literal {s inside rest : List UInt8}
      (quoted : Quoted (ascii '\'') (opensEscapes before) s inside rest) :
      Special before .literal (ascii '\'' :: s) (ascii '\'' :: inside) rest
  | identifier {s inside rest : List UInt8} (quoted : Quoted (ascii '"') false s inside rest) :
      Special before .identifier (ascii '"' :: s) (ascii '"' :: inside) rest
  | lineComment {s inside rest : List UInt8} (line : Line s inside rest) :
      Special before .lineComment (ascii '-' :: ascii '-' :: s) (ascii '-' :: ascii '-' :: inside) rest
  | blockComment {s inside rest : List UInt8} (comment : Comment s inside rest) :
      Special before .blockComment (ascii '/' :: ascii '*' :: s) (ascii '/' :: ascii '*' :: inside) rest
  | dollarBlock {tag s gap rest : List UInt8} (mayBegin : MarkerMayBegin before) (isTag : IsTag tag)
      (closed : FirstOccurrence (marker tag) s gap rest) :
      Special before .dollarBlock (marker tag ++ s) (marker tag ++ (gap ++ marker tag)) rest
  | loneMarker {tag s : List UInt8} (mayBegin : MarkerMayBegin before) (isTag : IsTag tag)
      (unclosed : ¬ marker tag <:+: s) :
      Special before .loneMarker (marker tag ++ s) (marker tag) s
  | cast {s : List UInt8} : Special before .cast (ascii ':' :: ascii ':' :: s) [ascii ':', ascii ':'] s
  | placeholder {word rest : List UInt8} (nonempty : word ≠ [])
      (isWord : ∀ b ∈ word, isWordByte b = true)
      (maximal : ∀ b, rest.head? = some b → isWordByte b = false) :
      Special before .placeholder (ascii ':' :: (word ++ rest)) (ascii ':' :: word) rest

/-- The tokens of `s` behind `before`: special ones where one applies, and else one byte. -/
inductive Cut : List UInt8 → List UInt8 → List Lexeme → Prop where
  | done {before : List UInt8} : Cut before [] []
  | special {before s text rest : List UInt8} {kind : TokenKind} {ts : List Lexeme}
      (token : Special before kind s text rest) (more : Cut (text.reverse ++ before) rest ts) :
      Cut before s (⟨kind, text⟩ :: ts)
  | plain {before s : List UInt8} {b : UInt8} {ts : List Lexeme}
      (none : ∀ kind text rest, ¬ Special before kind (b :: s) text rest)
      (more : Cut (b :: before) s ts) :
      Cut before (b :: s) (⟨.plain, [b]⟩ :: ts)

/-- The placeholders among tokens that start at an offset: their words, and the bytes from the colon to
the end of the word. -/
def located (offset : Nat) : List Lexeme → List (List UInt8 × Nat × Nat)
  | [] => []
  | t :: rest =>
    let stop := offset + t.bytes.length
    if t.kind = .placeholder then (t.bytes.drop 1, offset, stop) :: located stop rest
    else located stop rest

/-! ## 5. One way to cut -/

theorem quoted_unique {quote : UInt8} {escapes : Bool} {s inside rest inside' rest' : List UInt8}
    (differ : escapes = true → quote ≠ ascii '\\')
    (h : Quoted quote escapes s inside rest) (h' : Quoted quote escapes s inside' rest') :
    inside = inside' ∧ rest = rest' := by
  -- the induction is on the first reading; the second has to take the same rule at each byte
  induction h generalizing inside' rest' with
  | @closed rest single =>
    generalize hs : quote :: rest = s at h'
    cases h' with
    | closed => simp_all
    -- a quote closes where no quote follows, and is doubled where one does
    | doubled => exact absurd (by rw [(List.cons.inj hs).2]; rfl) single
    | _ => simp_all
  | @doubled s inside rest more ih =>
    generalize hs : quote :: quote :: s = t at h'
    cases h' with
    | closed single => exact absurd (by rw [← (List.cons.inj hs).2]; rfl) single
    | doubled more' =>
      obtain rfl : s = _ := by simpa using hs
      obtain ⟨rfl, rfl⟩ := ih more'
      exact ⟨rfl, rfl⟩
    | _ => simp_all
  | @escaped b s inside rest escaping more ih =>
    generalize hs : ascii '\\' :: b :: s = t at h'
    cases h' with
    | escaped _ more' =>
      obtain ⟨rfl, rfl⟩ : b = _ ∧ s = _ := by simpa using hs
      obtain ⟨rfl, rfl⟩ := ih more'
      exact ⟨rfl, rfl⟩
    | _ => simp_all
  | @other b s inside rest notQuote notEscape more ih =>
    generalize hs : b :: s = t at h'
    cases h' with
    | other _ _ more' =>
      obtain ⟨rfl, rfl⟩ := List.cons.inj hs
      obtain ⟨rfl, rfl⟩ := ih more'
      exact ⟨rfl, rfl⟩
    | _ => simp_all
  | ended =>
    generalize hs : [] = t at h'
    cases h' <;> simp_all
  | endedEscape escaping =>
    generalize hs : [ascii '\\'] = t at h'
    cases h' <;> simp_all

theorem line_unique {s inside rest inside' rest' : List UInt8} (h : Line s inside rest)
    (h' : Line s inside' rest') : inside = inside' ∧ rest = rest' := by
  induction h generalizing inside' rest' with
  | @newline rest =>
    generalize hs : ascii '\n' :: rest = t at h'
    cases h' <;> simp_all
  | @other b s inside rest notNewline more ih =>
    generalize hs : b :: s = t at h'
    cases h' with
    | other _ more' =>
      obtain ⟨rfl, rfl⟩ := List.cons.inj hs
      obtain ⟨rfl, rfl⟩ := ih more'
      exact ⟨rfl, rfl⟩
    | _ => simp_all
  | ended =>
    generalize hs : [] = t at h'
    cases h' <;> simp_all

theorem comment_unique {s inside rest inside' rest' : List UInt8} (h : Comment s inside rest)
    (h' : Comment s inside' rest') : inside = inside' ∧ rest = rest' := by
  have differ : ascii '*' ≠ ascii '/' := by decide
  induction h generalizing inside' rest' with
  | @closed rest =>
    generalize hs : ascii '*' :: ascii '/' :: rest = t at h'
    cases h' with
    -- a byte is the body of a comment only where nothing opens or closes
    | other _ noClosing =>
      obtain ⟨rfl, rfl⟩ := List.cons.inj hs
      exact absurd ⟨rfl, rfl⟩ noClosing
    | _ => simp_all
  | @nested s inner between inside rest comment more ihComment ihMore =>
    generalize hs : ascii '/' :: ascii '*' :: s = t at h'
    cases h' with
    | nested comment' more' =>
      obtain rfl : s = _ := by simpa using hs
      -- the inner comments end at the same byte, so the outer ones go on from there
      obtain ⟨rfl, rfl⟩ := ihComment comment'
      obtain ⟨rfl, rfl⟩ := ihMore more'
      exact ⟨rfl, rfl⟩
    | other noOpening =>
      obtain ⟨rfl, rfl⟩ := List.cons.inj hs
      exact absurd ⟨rfl, rfl⟩ noOpening
    | _ => simp_all
  | @other b s inside rest noOpening noClosing more ih =>
    generalize hs : b :: s = t at h'
    cases h' with
    | other _ _ more' =>
      obtain ⟨rfl, rfl⟩ := List.cons.inj hs
      obtain ⟨rfl, rfl⟩ := ih more'
      exact ⟨rfl, rfl⟩
    | _ => simp_all
  | ended =>
    generalize hs : [] = t at h'
    cases h' <;> simp_all

theorem isWordByte_dollar : isWordByte (ascii '$') = false := by decide

/-- The tag of a marker can be read off any text that the marker begins. -/
theorem tag_unique {tag tag' s s' : List UInt8} (h : ∀ b ∈ tag, isWordByte b = true)
    (h' : ∀ b ∈ tag', isWordByte b = true)
    (same : tag ++ ascii '$' :: s = tag' ++ ascii '$' :: s') : tag = tag' ∧ s = s' := by
  induction tag generalizing tag' with
  | nil =>
    cases tag' with
    | nil => simpa using same
    | cons b tag' =>
      -- a tag cannot go on with the dollar that ends the other one
      have word := h' b List.mem_cons_self
      rw [List.nil_append, List.cons_append, List.cons.injEq] at same
      rw [← same.1, isWordByte_dollar] at word
      exact absurd word Bool.false_ne_true
  | cons b tag ih =>
    cases tag' with
    | nil =>
      have word := h b List.mem_cons_self
      rw [List.nil_append, List.cons_append, List.cons.injEq] at same
      rw [same.1, isWordByte_dollar] at word
      exact absurd word Bool.false_ne_true
    | cons b' tag' =>
      rw [List.cons_append, List.cons_append, List.cons.injEq] at same
      obtain ⟨rfl, rfl⟩ := ih (fun x hx => h x (List.mem_cons_of_mem _ hx))
        (fun x hx => h' x (List.mem_cons_of_mem _ hx)) same.2
      exact ⟨by rw [same.1], rfl⟩

/-- A run of word bytes that no word byte follows is as long as it can be. -/
theorem word_unique {word word' s s' : List UInt8} (h : ∀ b ∈ word, isWordByte b = true)
    (h' : ∀ b ∈ word', isWordByte b = true)
    (maximal : ∀ b, s.head? = some b → isWordByte b = false)
    (maximal' : ∀ b, s'.head? = some b → isWordByte b = false)
    (same : word ++ s = word' ++ s') : word = word' ∧ s = s' := by
  induction word generalizing word' with
  | nil =>
    cases word' with
    | nil => exact ⟨rfl, same⟩
    | cons b word' =>
      -- the longer run shows a word byte behind the shorter one
      have no := maximal b (by rw [← List.nil_append s, same]; rfl)
      rw [h' b List.mem_cons_self] at no
      exact absurd no.symm Bool.false_ne_true
  | cons b word ih =>
    cases word' with
    | nil =>
      have no := maximal' b (by rw [← List.nil_append s', ← same]; rfl)
      rw [h b List.mem_cons_self] at no
      exact absurd no.symm Bool.false_ne_true
    | cons b' word' =>
      rw [List.cons_append, List.cons_append, List.cons.injEq] at same
      obtain ⟨rfl, rfl⟩ := ih (fun x hx => h x (List.mem_cons_of_mem _ hx))
        (fun x hx => h' x (List.mem_cons_of_mem _ hx)) same.2
      exact ⟨by rw [same.1], rfl⟩

theorem firstOccurrence_unique {needle s gap rest gap' rest' : List UInt8}
    (h : FirstOccurrence needle s gap rest) (h' : FirstOccurrence needle s gap' rest') :
    gap = gap' ∧ rest = rest' := by
  obtain ⟨hs, first⟩ := h
  obtain ⟨hs', first'⟩ := h'
  -- each stands where the other says that nothing earlier does
  have stands : needle <+: s.drop gap.length := by rw [hs, List.drop_left]; exact ⟨rest, rfl⟩
  have stands' : needle <+: s.drop gap'.length := by rw [hs', List.drop_left]; exact ⟨rest', rfl⟩
  have sameLength : gap.length = gap'.length := by
    rcases Nat.lt_trichotomy gap.length gap'.length with less | same | more
    · exact absurd stands (first' _ less)
    · exact same
    · exact absurd stands' (first _ more)
  have sameGap : gap = gap' := List.append_inj_left (hs.symm.trans hs') sameLength
  subst sameGap
  rw [hs, List.append_cancel_left_eq, List.append_cancel_left_eq] at hs'
  exact ⟨rfl, hs'⟩

/-- A marker's text determines its tag, and what is behind it. -/
theorem marker_unique {tag tag' s s' : List UInt8} (h : IsTag tag) (h' : IsTag tag')
    (same : marker tag ++ s = marker tag' ++ s') : tag = tag' ∧ s = s' := by
  simp only [marker, List.cons_append, List.append_assoc, List.cons.injEq, true_and] at same
  exact tag_unique h.1 h'.1 same

/-- At most one special token stands at a position. -/
theorem special_unique {before s text rest text' rest' : List UInt8} {kind kind' : TokenKind}
    (h : Special before kind s text rest) (h' : Special before kind' s text' rest') :
    kind = kind' ∧ text = text' ∧ rest = rest' := by
  -- the first byte tells the kinds apart, but for markers and colons
  cases h with
  | @literal s inside rest quoted =>
    generalize hs : ascii '\'' :: s = t at h'
    cases h' with
    | literal quoted' =>
      obtain rfl : s = _ := (List.cons.inj hs).2
      have differ : ascii '\'' ≠ ascii '\\' := by decide
      obtain ⟨rfl, rfl⟩ := quoted_unique (fun _ => differ) quoted quoted'
      exact ⟨rfl, rfl, rfl⟩
    | _ => exact absurd (List.cons.inj hs).1 (by decide)
  | @identifier s inside rest quoted =>
    generalize hs : ascii '"' :: s = t at h'
    cases h' with
    | identifier quoted' =>
      obtain rfl : s = _ := (List.cons.inj hs).2
      obtain ⟨rfl, rfl⟩ := quoted_unique (by decide) quoted quoted'
      exact ⟨rfl, rfl, rfl⟩
    | _ => exact absurd (List.cons.inj hs).1 (by decide)
  | @lineComment s inside rest line =>
    generalize hs : ascii '-' :: ascii '-' :: s = t at h'
    cases h' with
    | lineComment line' =>
      obtain rfl : s = _ := (List.cons.inj (List.cons.inj hs).2).2
      obtain ⟨rfl, rfl⟩ := line_unique line line'
      exact ⟨rfl, rfl, rfl⟩
    | _ => exact absurd (List.cons.inj hs).1 (by decide)
  | @blockComment s inside rest comment =>
    generalize hs : ascii '/' :: ascii '*' :: s = t at h'
    cases h' with
    | blockComment comment' =>
      obtain rfl : s = _ := (List.cons.inj (List.cons.inj hs).2).2
      obtain ⟨rfl, rfl⟩ := comment_unique comment comment'
      exact ⟨rfl, rfl, rfl⟩
    | _ => exact absurd (List.cons.inj hs).1 (by decide)
  | @dollarBlock tag s gap rest mayBegin isTag closed =>
    generalize hs : marker tag ++ s = t at h'
    cases h' with
    | dollarBlock _ isTag' closed' =>
      obtain ⟨rfl, rfl⟩ := marker_unique isTag isTag' hs
      obtain ⟨rfl, rfl⟩ := firstOccurrence_unique closed closed'
      exact ⟨rfl, rfl, rfl⟩
    -- a marker has a second one behind it or not
    | loneMarker _ isTag' unclosed =>
      obtain ⟨rfl, rfl⟩ := marker_unique isTag isTag' hs
      exact absurd ⟨gap, rest, by rw [closed.1, List.append_assoc]⟩ unclosed
    | _ => exact absurd (List.cons.inj hs).1 (by decide)
  | @loneMarker tag _ mayBegin isTag unclosed =>
    generalize hs : marker tag ++ rest = t at h'
    cases h' with
    | @dollarBlock _ _ gap _ _ isTag' closed =>
      obtain ⟨rfl, rfl⟩ := marker_unique isTag isTag' hs
      exact absurd ⟨gap, _, by rw [closed.1, List.append_assoc]⟩ unclosed
    | loneMarker _ isTag' =>
      obtain ⟨rfl, rfl⟩ := marker_unique isTag isTag' hs
      exact ⟨rfl, rfl, rfl⟩
    | _ => exact absurd (List.cons.inj hs).1 (by decide)
  | cast =>
    generalize hs : ascii ':' :: ascii ':' :: rest = t at h'
    cases h' with
    | cast =>
      obtain rfl : rest = _ := (List.cons.inj (List.cons.inj hs).2).2
      exact ⟨rfl, rfl, rfl⟩
    -- a second colon is no word
    | @placeholder word _ nonempty isWord =>
      obtain ⟨b, word, rfl⟩ := List.exists_cons_of_ne_nil nonempty
      have colon : ascii ':' = b := (List.cons.inj (List.cons.inj hs).2).1
      exact absurd (isWord b List.mem_cons_self) (by rw [← colon]; decide)
    | _ => exact absurd (List.cons.inj hs).1 (by decide)
  | @placeholder word _ nonempty isWord maximal =>
    generalize hs : ascii ':' :: (word ++ rest) = t at h'
    cases h' with
    | cast =>
      obtain ⟨b, word, rfl⟩ := List.exists_cons_of_ne_nil nonempty
      have colon : b = ascii ':' := (List.cons.inj (List.cons.inj hs).2).1
      exact absurd (isWord b List.mem_cons_self) (by rw [colon]; decide)
    | @placeholder word' _ _ isWord' maximal' =>
      obtain ⟨rfl, rfl⟩ := word_unique isWord isWord' maximal maximal' (List.cons.inj hs).2
      exact ⟨rfl, rfl, rfl⟩
    | _ => exact absurd (List.cons.inj hs).1 (by decide)

/-- **The grammar is unambiguous.** A text can be cut into tokens in one way only. -/
theorem cut_unique {before s : List UInt8} {ts ts' : List Lexeme} (h : Cut before s ts)
    (h' : Cut before s ts') : ts = ts' := by
  induction h generalizing ts' with
  | done =>
    cases h' with
    | done => rfl
    | special token => cases token
  | @special before s text rest kind ts token more ih =>
    cases h' with
    | done => cases token
    | special token' more' =>
      -- the first tokens are equal, so both cuts go on with the same rest
      obtain ⟨rfl, rfl, rfl⟩ := special_unique token token'
      rw [ih more']
    | plain none => exact absurd token (none _ _ _)
  | @plain before s b ts none more ih =>
    cases h' with
    | special token => exact absurd token (none _ _ _)
    | plain _ more' => rw [ih more']

end TypedStore.Statement
