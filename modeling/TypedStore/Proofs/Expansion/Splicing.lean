/-
Fragments among tokens. What is put into a statement has neighbours on both sides: a placeholder is
lengthened by a constructor right behind it, and a literal or a dollar block may change behind one. Where
no seam goes wrong in these ways (`Apart`), the placeholders of the spliced text are those of the
statement, with the names of each fragment in the place of its placeholder (`names_replaced_iff`).
-/
import TypedStore.Proofs.Expansion.Reading
import TypedStore.Proofs.Statement.Replacing

set_option autoImplicit false

namespace TypedStore

open TypedStore.Text TypedStore.Statement

/-! ## 1. Placeholders of fragments -/

namespace Fragment

/-- What stands behind an item: it lengthens neither a name nor a literal. -/
def ItemEnds (rest : List Char) : Prop :=
  ∀ c, rest.head? = some c → isWordChar c = false ∧ c ≠ '\''

theorem closedBy_emptyArray (escapes : Bool) : ClosedBy '\'' escapes ['{', '}', '\''] := by
  have ends : quotedExtent '\'' escapes (['{', '}', '\''] ++ [' ']) = 3 := by
    cases escapes <;> decide
  exact closedBy_of_quotedExtent (by decide) ends (List.cons_ne_nil _ _)

theorem names_castText {cast? : Option String} (inert : ∀ t ∈ cast?, Inert t.toList)
    (before rest : List Char) :
    ∃ after, Statement.names (tokensAfter before ((castText cast?).toList ++ rest))
      = Statement.names (tokensAfter after rest) := by
  cases cast? with
  | none => exact ⟨before, rfl⟩
  | some t =>
    rw [Reading.toList_castText_some, names_cast, (inert t rfl).names]
    exact ⟨_, rfl⟩

/-- Constructors close what they open, so anything may stand behind them. -/
def isConstructor : Fragment → Bool
  | .array _ | .row _ _ => true
  | .parameter _ _ | .emptyArray _ => false

/-- Constructors begin with a word character. -/
theorem text_of_isConstructor {f : Fragment} (h : f.isConstructor = true) :
    ∃ d x, f.text.toList = d :: x ∧ isWordChar d = true := by
  have whole : f.text.toList = f.text.toList ++ [] := (List.append_nil _).symm
  cases f with
  | parameter | emptyArray => cases h
  | array items =>
    rw [Reading.text_array] at whole
    exact ⟨'A', _, whole, by decide⟩
  | row items typeName =>
    rw [Reading.text_row] at whole
    exact ⟨'R', _, whole, by decide⟩

variable {Q : String → Prop}

mutual

/-- The placeholders of the text of a fragment are its names, in any context and with anything behind
it that does not go on with it. -/
theorem names_text (inert : ∀ {t}, Q t → Inert t.toList) (f : Fragment) (words : f.All IsWord Q)
    (before : List Char) {rest : List Char} (ends : f.isConstructor = false → ItemEnds rest) :
    ∃ after, Statement.names (tokensAfter before (f.text.toList ++ rest))
      = f.names ++ Statement.names (tokensAfter after rest) := by
  match f with
  | .parameter name cast? =>
    obtain ⟨word, casts⟩ := words
    have nonempty : name.toList ≠ [] := fun empty => word.1 (String.toList_inj.1 empty)
    -- the word ends at its cast, or at what is behind the item
    have maximal : ∀ c, ((castText cast?).toList ++ rest).head? = some c → isWordChar c = false := by
      cases cast? with
      | none => exact fun c hc => (ends rfl c hc).1
      | some t =>
        rw [Reading.toList_castText_some]
        exact fun c hc => Option.some.inj hc ▸ by decide
    obtain ⟨after, read⟩ := names_castText (fun t ht => inert (casts t ht))
      ((':' :: name.toList).reverse ++ before) rest
    refine ⟨after, ?_⟩
    rw [Reading.text_parameter, names_placeholder_append before nonempty word.2 maximal, read,
      String.ofList_toList]
    rfl
  | .emptyArray cast? =>
    -- nothing makes the literal of the braces go on
    have single : ((castText cast?).toList ++ rest).head? ≠ some '\'' := by
      cases cast? with
      | none => exact fun hc => (ends rfl '\'' hc).2 rfl
      | some t =>
        rw [Reading.toList_castText_some, List.head?_cons]
        decide
    obtain ⟨after, read⟩ := names_castText (fun t ht => inert (words t ht))
      (('\'' :: ['{', '}', '\'']).reverse ++ before) rest
    have whole := names_literal (closedBy_emptyArray (escapesBefore before))
      ((castText cast?).toList ++ rest)
    rw [if_neg single, read] at whole
    refine ⟨after, ?_⟩
    rw [Reading.text_emptyArray]
    exact whole
  | .array items =>
    -- what opens and closes a constructor is inert, and the items are between
    have opening : Inert ['A', 'R', 'R', 'A', 'Y', '['] := inert_of_openers (by simp [openers])
    have closing : Inert [']'] := inert_of_openers (by simp [openers])
    obtain ⟨after, read⟩ := names_items inert items words.2
      (['A', 'R', 'R', 'A', 'Y', '['].reverse ++ before) (']' :: rest)
      fun c hc => Option.some.inj hc ▸ by decide
    refine ⟨[']'].reverse ++ after, ?_⟩
    rw [Reading.text_array]
    exact (opening.names before _).trans (read.trans
      (congrArg (itemNames items ++ ·) (closing.names after rest)))
  | .row items typeName =>
    obtain ⟨words, typed⟩ := words
    have opening : Inert ['R', 'O', 'W', '('] := inert_of_openers (by simp [openers])
    have closing : Inert [')'] := inert_of_openers (by simp [openers])
    obtain ⟨after, read⟩ := names_items inert items words (['R', 'O', 'W', '('].reverse ++ before)
      (')' :: ':' :: ':' :: (typeName.toList ++ rest)) fun c hc => Option.some.inj hc ▸ by decide
    have closed := closing.names after (':' :: ':' :: (typeName.toList ++ rest))
    rw [names_cast, (inert typed).names] at closed
    refine ⟨typeName.toList.reverse ++ ':' :: ':' :: ([')'].reverse ++ after), ?_⟩
    rw [Reading.text_row]
    exact (opening.names before _).trans (read.trans (congrArg (itemNames items ++ ·) closed))
termination_by structural f

/-- The placeholders of the items of a constructor, up to what closes it. -/
theorem names_items (inert : ∀ {t}, Q t → Inert t.toList) (items : List Fragment)
    (words : AllItems IsWord Q items) (before rest : List Char) (ends : ItemEnds rest) :
    ∃ after, Statement.names (tokensAfter before (Reading.itemChars items ++ rest))
      = itemNames items ++ Statement.names (tokensAfter after rest) := by
  match items with
  | [] => exact ⟨before, rfl⟩
  | [f] =>
    rw [Reading.itemChars_singleton, itemNames, itemNames, List.append_nil]
    exact names_text inert f words.1 before fun _ => ends
  | f :: g :: fs =>
    -- a comma ends the first item and is inert itself
    have comma : Inert [',', ' '] := inert_of_openers (by simp [openers])
    have separated : ItemEnds (',' :: ' ' :: (Reading.itemChars (g :: fs) ++ rest)) :=
      fun c hc => Option.some.inj hc ▸ by decide
    obtain ⟨between, one⟩ := names_text inert f words.1 before fun _ => separated
    obtain ⟨after, more⟩ := names_items inert (g :: fs) words.2 ([',', ' '].reverse ++ between)
      rest ends
    refine ⟨after, ?_⟩
    rw [Reading.itemChars_cons_cons, List.append_assoc, List.cons_append, List.cons_append, one,
      itemNames, List.append_assoc]
    exact congrArg (f.names ++ ·) ((comma.names between _).trans more)
termination_by structural items

end

theorem dollar_not_mem_castText {cast? : Option String} (inert : ∀ t ∈ cast?, Inert t.toList) :
    '$' ∉ (castText cast?).toList := by
  cases cast? with
  | none => exact List.not_mem_nil
  | some t =>
    rw [castText, String.toList_append, List.mem_append, not_or]
    exact ⟨by decide, (inert t rfl).dollarless⟩

mutual

theorem dollar_not_mem_text (inert : ∀ {t}, Q t → Inert t.toList) (f : Fragment)
    (words : f.All IsWord Q) : '$' ∉ f.text.toList := by
  match f with
  | .parameter name cast? =>
    have noDollar : '$' ∉ name.toList := fun dollar =>
      absurd (words.1.2 '$' dollar) (by decide)
    rw [text, String.toList_append, String.toList_append, List.mem_append, List.mem_append, not_or,
      not_or]
    exact ⟨⟨by decide, noDollar⟩, dollar_not_mem_castText fun t ht => inert (words.2 t ht)⟩
  | .emptyArray cast? =>
    rw [text, String.toList_append, List.mem_append, not_or]
    exact ⟨by decide, dollar_not_mem_castText fun t ht => inert (words t ht)⟩
  | .array items =>
    have inside := dollar_not_mem_itemChars inert items words.2
    rw [text, String.toList_append, String.toList_append, List.mem_append, List.mem_append, not_or,
      not_or]
    exact ⟨⟨by decide, inside⟩, by decide⟩
  | .row items typeName =>
    have inside := dollar_not_mem_itemChars inert items words.1
    rw [text, String.toList_append, String.toList_append, String.toList_append, List.mem_append,
      List.mem_append, List.mem_append, not_or, not_or, not_or]
    exact ⟨⟨⟨by decide, inside⟩, by decide⟩, (inert words.2).dollarless⟩
termination_by structural f

theorem dollar_not_mem_itemChars (inert : ∀ {t}, Q t → Inert t.toList) (items : List Fragment)
    (words : AllItems IsWord Q items) : '$' ∉ Reading.itemChars items := by
  match items with
  | [] => exact List.not_mem_nil
  | [f] =>
    rw [Reading.itemChars_singleton]
    exact dollar_not_mem_text inert f words.1
  | f :: g :: fs =>
    have first := dollar_not_mem_text inert f words.1
    have others := dollar_not_mem_itemChars inert (g :: fs) words.2
    rw [Reading.itemChars_cons_cons, List.mem_append, List.mem_cons, List.mem_cons, not_or, not_or,
      not_or]
    exact ⟨first, by decide, by decide, others⟩
termination_by structural items

end

/-- To what is around it a constructor is as opaque as the text of an empty array. -/
theorem opaque_text (inert : ∀ {t}, Q t → Inert t.toList) (f : Fragment) (words : f.All IsWord Q)
    (noParameter : ∀ name cast?, f ≠ .parameter name cast?) : Opaque f.text.toList := by
  have dollarless := dollar_not_mem_text inert f words
  have whole : f.text.toList = f.text.toList ++ [] := (List.append_nil _).symm
  cases f with
  | parameter name cast? => exact absurd rfl (noParameter name cast?)
  | emptyArray cast? =>
    rw [Reading.text_emptyArray] at whole
    refine ⟨?_, dollarless, '\'', whole ▸ List.mem_cons_self, by decide⟩
    rw [whole]
    exact fun c hc => Option.some.inj hc ▸ by decide
  | array items =>
    rw [Reading.text_array] at whole
    refine ⟨?_, dollarless, '[', ?_, by decide⟩
    · rw [whole]
      exact fun c hc => Option.some.inj hc ▸ by decide
    · rw [whole]
      simp only [List.mem_cons, true_or, or_true]
  | row items typeName =>
    rw [Reading.text_row] at whole
    refine ⟨?_, dollarless, '(', ?_, by decide⟩
    · rw [whole]
      exact fun c hc => Option.some.inj hc ▸ by decide
    · rw [whole]
      simp only [List.mem_cons, true_or, or_true]

end Fragment

/-- The array without items. -/
def Value.isEmptyArray : Value → Bool
  | .array [] => true
  | _ => false

namespace Expansion

/-! ## 2. Seams -/

/-- Whether the parameter of a name is structured. -/
def isStructured (params : Params) (name : String) : Bool :=
  (params.get? name).any Value.needsExpansion

/-- A token that is a placeholder and stays has no constructor right behind it: what is structured there
is the empty array. -/
def Clear (params : Params) (t : Token) (rest : List Token) : Prop :=
  ∀ n ∈ t.name?, isStructured params n = false → ∀ m ∈ rest.head?.bind Token.name?,
    isStructured params m = true → (params.get? m).any Value.isEmptyArray = true

instance (params : Params) (t : Token) (rest : List Token) : Decidable (Clear params t rest) :=
  inferInstanceAs (Decidable (∀ n ∈ t.name?, _))

/-- No placeholder that stays has a constructor right behind it, which would lengthen its name. -/
def Apart (params : Params) : List Token → Prop
  | [] => True
  | t :: rest => Clear params t rest ∧ Apart params rest

/-- A dollar marker begins a text. -/
def opensMarker : List Char → Bool
  | '$' :: cs => (marker? [] cs).isSome
  | _ => false

/-- What is right behind a structured placeholder is read in a new context: a literal has no backslash,
as its escapes may change, and a dollar begins no marker, as it began none behind a word. -/
def Settled (params : Params) (t : Token) (rest : List Token) : Prop :=
  ∀ n ∈ t.name?, isStructured params n = true →
    (∀ u ∈ rest.head?, u.kind = .literal → '\\' ∉ u.text)
      ∧ opensMarker (rest.flatMap (·.text)) = false

instance (params : Params) (t : Token) (rest : List Token) : Decidable (Settled params t rest) :=
  inferInstanceAs (Decidable (∀ n ∈ t.name?, _))

/-- Structured placeholders are followed by what does not depend on them. -/
def AllSettled (params : Params) : List Token → Prop
  | [] => True
  | t :: rest => Settled params t rest ∧ AllSettled params rest

/-- Both conditions can be checked. -/
instance decidableApart (params : Params) : (ts : List Token) → Decidable (Apart params ts)
  | [] => .isTrue trivial
  | t :: rest =>
    have := decidableApart params rest
    inferInstanceAs (Decidable (Clear params t rest ∧ Apart params rest))

instance decidableAllSettled (params : Params) :
    (ts : List Token) → Decidable (AllSettled params ts)
  | [] => .isTrue trivial
  | t :: rest =>
    have := decidableAllSettled params rest
    inferInstanceAs (Decidable (Settled params t rest ∧ AllSettled params rest))

theorem clear_of_nameless {params : Params} {t : Token} (h : t.name? = none) (rest : List Token) :
    Clear params t rest := by
  intro n name
  rw [h] at name
  cases name

/-- What stands for a structured value: the empty array, or a constructor. -/
def Shaped (v? : Option Value) (f : Fragment) : Prop :=
  v?.any Value.isEmptyArray = true ∧ f = .emptyArray none
    ∨ v?.any Value.isEmptyArray = false ∧ f.isConstructor = true

theorem Shaped.ne_parameter {v? : Option Value} {f : Fragment} (shape : Shaped v? f) (name : String)
    (cast? : Option String) : f ≠ .parameter name cast? := by
  rintro rfl
  rcases shape with ⟨-, empty⟩ | ⟨-, constructor⟩
  · cases empty
  · cases constructor

/-- What the fragments of a statement are to its parameters: those of structured ones are arrays, rows
and the empty array, which may be written anywhere, and others stand for themselves. -/
structure Splices (Q : String → Prop) (params : Params) (found : List String)
    (fragments : List (String × Fragment)) : Prop where
  kept : ∀ {n : String} {f : Fragment}, isStructured params n = false →
    entryValue? n fragments = some f → f = .parameter n none
  structured : ∀ {n : String}, n ∈ found → isStructured params n = true →
    ∃ f, entryValue? n fragments = some f ∧ f.All IsWord Q ∧ Shaped (params.get? n) f

/-- The names in the fragment of a placeholder. -/
def mintedNames (fragments : List (String × Fragment)) (n : String) : List String :=
  ((entryValue? n fragments).map Fragment.names).getD []

theorem mintedNames_of_entry {fragments : List (String × Fragment)} {n : String} {f : Fragment}
    (entry : entryValue? n fragments = some f) : mintedNames fragments n = f.names := by
  rw [mintedNames, entry]
  rfl

section Splicing

variable {Q : String → Prop} {params : Params} {found : List String}
  {fragments : List (String × Fragment)}

theorem replaced_of_nameless {t : Token} (h : t.name? = none) : replaced fragments t = t.text := by
  rw [replaced, h]
  rfl

theorem replaced_of_kept (splices : Splices Q params found fragments) {t : Token} {n : String}
    (h : t.name? = some n) (text : t.text = ':' :: n.toList) (kept : isStructured params n = false) :
    replaced fragments t = t.text := by
  rw [replaced, h, Option.bind_some]
  cases entry : entryValue? n fragments with
  | none => rfl
  | some f =>
    obtain rfl := splices.kept kept entry
    show (Fragment.parameter n none).text.toList = t.text
    rw [← List.append_nil (Fragment.text _).toList, Reading.text_parameter, text]
    exact congrArg (':' :: ·) (List.append_nil _)

theorem replaced_of_entry {t : Token} {n : String} {f : Fragment} (h : t.name? = some n)
    (entry : entryValue? n fragments = some f) : replaced fragments t = f.text.toList := by
  rw [replaced, h, Option.bind_some, entry]

/-- The rest of an expanded statement looks to tokens as it did before. -/
theorem seen_replaced (inert : ∀ {t}, Q t → Inert t.toList)
    (splices : Splices Q params found fragments) {ts : List Token}
    (texts : ∀ t ∈ ts, t.text ≠ [] ∧ ∀ n, t.name? = some n → t.text = ':' :: n.toList ∧ n ∈ found) :
    Seen (ts.flatMap (·.text)) (ts.flatMap (replaced fragments)) := by
  induction ts with
  | nil => exact Seen.nil
  | cons t ts ih =>
    have rest := ih fun u hu => texts u (List.mem_cons_of_mem _ hu)
    obtain ⟨nonempty, named⟩ := texts t List.mem_cons_self
    rw [List.flatMap_cons, List.flatMap_cons]
    cases name : t.name? with
    | none =>
      rw [replaced_of_nameless name]
      exact rest.append nonempty
    | some n =>
      -- a placeholder stays or gives way to the text of an opaque fragment
      obtain ⟨text, hn⟩ := named n name
      cases structured : isStructured params n with
      | false =>
        rw [replaced_of_kept splices name text structured]
        exact rest.append nonempty
      | true =>
        obtain ⟨f, entry, words, shape⟩ := splices.structured hn structured
        rw [replaced_of_entry name entry, text]
        exact rest.replace (f.opaque_text inert words shape.ne_parameter) n.toList

/-- Tokens that are found alike in every context: a word does not go on with them, a literal in front
has no backslash, and a dollar in front opens no marker. -/
structure Free (ts : List Token) : Prop where
  word : ∀ {c : Char}, (ts.flatMap (·.text)).head? = some c → isWordChar c = false
  literal : ∀ {u : Token}, ts.head? = some u → u.kind = .literal → '\\' ∉ u.text
  marker : ∀ {cs : List Char}, ts.flatMap (·.text) = '$' :: cs → marker? [] cs = none

/-- Nothing in front of a colon changes what is behind it. -/
theorem free_of_colon {before cs : List Char} (colon : cs.head? = some ':') :
    Free (tokensAfter before cs) := by
  -- a colon is no word character, opens no literal, and is no dollar
  obtain ⟨rest, rfl⟩ := List.head?_eq_some_iff.1 colon
  refine ⟨fun h => ?_, fun h literal => ?_, fun h => ?_⟩
  · rw [flatMap_text_tokensAfter, List.head?_cons] at h
    rw [← Option.some.inj h]
    decide
  · obtain ⟨⟨kind, size⟩, found⟩ : ∃ p, nextToken before ':' rest = p := ⟨_, rfl⟩
    rw [tokensAfter, found] at h
    obtain rfl := Option.some.inj h
    obtain rfl : kind = .literal := literal
    exact absurd (quote_of_nextToken found) (by decide)
  · rw [flatMap_text_tokensAfter] at h
    cases h

/-- What a placeholder stands for in the expanded statement: itself, or the names minted for it. -/
def placed (params : Params) (fragments : List (String × Fragment)) (n : String) : List String :=
  if isStructured params n then mintedNames fragments n else [n]

/-- The text of a structured parameter has its minted names, whatever is around it. -/
theorem names_structured (inert : ∀ {t}, Q t → Inert t.toList) {v? : Option Value} {f : Fragment}
    (words : f.All IsWord Q) (shape : Shaped v? f) (before rest : List Char) :
    ∃ after, names (tokensAfter before (f.text.toList ++ rest))
      = f.names ++ names (tokensAfter after rest) := by
  -- the empty array is a literal, which may be lengthened, and a constructor closes itself
  rcases shape with ⟨-, rfl⟩ | ⟨-, constructor⟩
  · rw [Reading.text_emptyArray]
    exact ⟨_, names_literal (Fragment.closedBy_emptyArray (escapesBefore before)) rest⟩
  · refine f.names_text inert words before fun no => ?_
    rw [constructor] at no
    cases no

/-- A token that is kept lengthens no name in front of it. -/
theorem clear_of_kept {t u : Token} {ts : List Token} (nonempty : u.text ≠ [])
    (same : replaced fragments u = u.text)
    (flat : ∀ m, u.name? = some m → isStructured params m = false)
    (maximal : ∀ d, ((u :: ts).flatMap (·.text)).head? = some d → isWordChar d = false) :
    Clear params t (u :: ts)
      ∧ ∀ d, ((u :: ts).flatMap (replaced fragments)).head? = some d → isWordChar d = false := by
  constructor
  · intro n _ _ m other structured
    rw [flat m other] at structured
    cases structured
  · intro d hd
    obtain ⟨c, x, parts⟩ := List.exists_cons_of_ne_nil nonempty
    rw [List.flatMap_cons, same, parts] at hd
    rw [List.flatMap_cons, parts] at maximal
    exact maximal d hd

/-- Right behind a placeholder that stays, a word character stands in the expanded statement exactly
where a constructor does. -/
theorem clear_or_word (splices : Splices Q params found fragments) {t : Token} {ts : List Token}
    {n : String} (name : t.name? = some n) (kept : isStructured params n = false)
    (texts : ∀ t ∈ ts, t.text ≠ [] ∧ ∀ n, t.name? = some n → t.text = ':' :: n.toList ∧ n ∈ found)
    (maximal : ∀ d, (ts.flatMap (·.text)).head? = some d → isWordChar d = false) :
    (Clear params t ts
        ∧ ∀ d, (ts.flatMap (replaced fragments)).head? = some d → isWordChar d = false)
      ∨ ¬ Clear params t ts
        ∧ ∃ d, (ts.flatMap (replaced fragments)).head? = some d ∧ isWordChar d = true := by
  cases ts with
  | nil =>
    refine .inl ⟨fun n _ _ m none => ?_, fun d none => ?_⟩
    · cases none
    · cases none
  | cons u ts =>
    obtain ⟨nonempty, named⟩ := texts u List.mem_cons_self
    cases other : u.name? with
    | none =>
      refine .inl (clear_of_kept nonempty (replaced_of_nameless other) (fun m named => ?_) maximal)
      rw [other] at named
      cases named
    | some m =>
      obtain ⟨text, hm⟩ := named m other
      cases structured : isStructured params m with
      | false =>
        have same := replaced_of_kept splices other text structured
        refine .inl (clear_of_kept nonempty same (fun m' named => ?_) maximal)
        rw [other] at named
        rw [← Option.some.inj named, structured]
      | true =>
        obtain ⟨f, entry, -, ⟨empty, rfl⟩ | ⟨notEmpty, constructor⟩⟩ := splices.structured hm structured
        · -- the empty array begins with a quote
          refine .inl ⟨?_, fun d hd => ?_⟩
          · rintro n - - m' other' -
            obtain rfl : m = m' := Option.some.inj (other.symm.trans other')
            exact empty
          · rw [List.flatMap_cons, replaced_of_entry other entry, Reading.text_emptyArray] at hd
            rw [← Option.some.inj hd]
            decide
        · -- and a constructor with its name
          refine .inr ⟨fun clear => ?_, ?_⟩
          · rw [clear n name kept m other structured] at notEmpty
            cases notEmpty
          · obtain ⟨d, x, parts, word⟩ := f.text_of_isConstructor constructor
            rw [List.flatMap_cons, replaced_of_entry other entry, parts]
            exact ⟨d, rfl, word⟩

/-- A placeholder that word characters follow has a longer name. -/
theorem names_lengthened {before u rest : List Char} (nonempty : u ≠ [])
    (isWord : ∀ c ∈ u, isWordChar c = true) {d : Char} (first : rest.head? = some d)
    (word : isWordChar d = true) (expected : List String) :
    names (tokensAfter before (':' :: (u ++ rest))) ≠ String.ofList u :: expected := by
  -- the placeholder takes in the word behind it, which is not empty
  obtain ⟨more, left, rfl, isMore, maximal⟩ := exists_word rest
  have longer : more ≠ [] := by
    rintro rfl
    rw [List.nil_append] at first
    rw [maximal d first] at word
    cases word
  have all : ∀ c ∈ u ++ more, isWordChar c = true := by
    intro c hc
    rcases List.mem_append.1 hc with hc | hc
    · exact isWord c hc
    · exact isMore c hc
  have whole : u ++ (more ++ left) = (u ++ more) ++ left := (List.append_assoc _ _ _).symm
  rw [whole, names_placeholder_append before (fun empty => nonempty (List.append_eq_nil_iff.1 empty).1)
    all maximal]
  intro same
  have chars := congrArg String.toList (List.cons.inj same).1
  rw [String.toList_ofList, String.toList_ofList] at chars
  exact longer (List.append_right_eq_self.1 chars)

/-- With the fragments in, the tokens of a statement are read back: the placeholders found behind
`before` are those that theirs stand for. -/
def ReadFrom (params : Params) (fragments : List (String × Fragment)) (before : List Char)
    (ts : List Token) : Prop :=
  names (tokensAfter before (ts.flatMap (replaced fragments)))
    = (names ts).flatMap (placed params fragments)

section Step

variable {before before' u rest : List Char} {c : Char} {kind : TokenKind} {ts : List Token}

/-- A token that is found in its old context, or is free, is found in the new one as well. -/
theorem found_again (first : nextToken before c (u ++ rest) = (kind, u.length))
    (same : ts.flatMap (·.text) = rest)
    (context : SameContext before before' ∨ Free (⟨kind, c :: u⟩ :: ts)) (notQuote : c ≠ '\'') :
    nextToken before' c (u ++ rest) = (kind, u.length)
      ∧ SameContext ((c :: u).reverse ++ before) ((c :: u).reverse ++ before') := by
  refine nextToken_of_context notQuote first (context.imp_right fun free => ⟨free.word rfl, ?_⟩)
  intro dollar
  apply free.marker
  rw [List.flatMap_cons, same, dollar]
  rfl

/-- A token without a name is kept, and what is behind it is read as it was, or is free. -/
theorem readFrom_nameless (first : nextToken before c (u ++ rest) = (kind, u.length))
    (same : ts.flatMap (·.text) = rest) (seen : Seen rest (ts.flatMap (replaced fragments)))
    (context : SameContext before before' ∨ Free (⟨kind, c :: u⟩ :: ts))
    (colon : rest.head? = some ':' → Free ts) (name : Token.name? ⟨kind, c :: u⟩ = none) :
    ∃ after, (SameContext ((c :: u).reverse ++ before) after ∨ Free ts)
      ∧ (ReadFrom params fragments before' (⟨kind, c :: u⟩ :: ts)
        ↔ ReadFrom params fragments after ts) := by
  unfold ReadFrom
  rw [List.flatMap_cons, replaced_of_nameless name, names_cons, name, Option.toList_none,
    List.nil_append, List.cons_append]
  by_cases isQuote : c = '\''
  · -- a literal may go on behind it, but only where a placeholder stood
    subst isQuote
    obtain rfl : TokenKind.literal = kind := (Prod.mk.inj first).1
    obtain ⟨after, context, read⟩ := names_literal_replace first (context.imp_right fun free =>
      fun backslash => free.literal rfl rfl (List.mem_cons_of_mem _ backslash)) seen
    refine ⟨after, context.imp_right colon, ?_⟩
    rw [read]
  · obtain ⟨here, behind⟩ := found_again first same context isQuote
    have notPlaceholder : kind = .placeholder →
        ∀ d, (ts.flatMap (replaced fragments)).head? = some d → isWordChar d = false := by
      rintro rfl
      cases name
    refine ⟨_, .inl behind, ?_⟩
    rw [tokensAfter_of_nextToken (nextToken_replace isQuote seen notPlaceholder here), names_cons,
      name, Option.toList_none, List.nil_append]

/-- A placeholder that stays is read back where nothing lengthens it. -/
theorem readFrom_kept (splices : Splices Q params found fragments)
    (first : nextToken before ':' (u ++ rest) = (.placeholder, u.length))
    (same : ts.flatMap (·.text) = rest) (seen : Seen rest (ts.flatMap (replaced fragments)))
    (texts : ∀ t ∈ ts, t.text ≠ [] ∧ ∀ n, t.name? = some n → t.text = ':' :: n.toList ∧ n ∈ found)
    (context : SameContext before before' ∨ Free (⟨.placeholder, ':' :: u⟩ :: ts))
    (kept : isStructured params (String.ofList u) = false) :
    ∃ after, SameContext ((':' :: u).reverse ++ before) after
      ∧ (ReadFrom params fragments before' (⟨.placeholder, ':' :: u⟩ :: ts)
        ↔ Clear params ⟨.placeholder, ':' :: u⟩ ts ∧ ReadFrom params fragments after ts) := by
  obtain ⟨-, nonempty, isWord, maximal⟩ := placeholder_of_nextToken first
  have name : Token.name? ⟨.placeholder, ':' :: u⟩ = some (String.ofList u) := rfl
  have text : ':' :: u = ':' :: (String.ofList u).toList := by rw [String.toList_ofList]
  obtain ⟨here, behind⟩ := found_again first same context (by decide)
  refine ⟨_, behind, ?_⟩
  unfold ReadFrom
  rw [List.flatMap_cons, replaced_of_kept splices name text kept, names_cons, name,
    Option.toList_some, List.singleton_append, List.flatMap_cons, placed, kept,
    if_neg Bool.false_ne_true, List.cons_append, List.singleton_append]
  rcases clear_or_word splices name kept texts (by rwa [same]) with
    ⟨clear, ends⟩ | ⟨notClear, d, first, word⟩
  · rw [tokensAfter_of_nextToken (nextToken_replace (by decide) seen (fun _ => ends) here),
      names_cons, name, Option.toList_some, List.singleton_append, List.cons.injEq, and_iff_right rfl,
      and_iff_right clear]
  · refine ⟨fun read => ?_, fun apart => absurd apart.1 notClear⟩
    exact absurd read (names_lengthened nonempty isWord first word _)

/-- A structured placeholder gives way to its minted names, and leaves what is behind it in a context
of which nothing is known but that it is free. -/
theorem readFrom_structured (inert : ∀ {t}, Q t → Inert t.toList)
    (splices : Splices Q params found fragments) (hu : String.ofList u ∈ found)
    (structured : isStructured params (String.ofList u) = true) (before' : List Char) :
    ∃ after, ReadFrom params fragments before' (⟨.placeholder, ':' :: u⟩ :: ts)
      ↔ ReadFrom params fragments after ts := by
  have name : Token.name? ⟨.placeholder, ':' :: u⟩ = some (String.ofList u) := rfl
  obtain ⟨f, entry, words, shape⟩ := splices.structured hu structured
  obtain ⟨after, read⟩ := names_structured inert words shape before'
    (ts.flatMap (replaced fragments))
  refine ⟨after, ?_⟩
  unfold ReadFrom
  rw [List.flatMap_cons, replaced_of_entry name entry, read, names_cons, name, Option.toList_some,
    List.singleton_append, List.flatMap_cons, placed, structured, if_pos rfl,
    mintedNames_of_entry entry, List.append_cancel_left_eq]

theorem clear_of_structured {t : Token} {n : String} (name : t.name? = some n)
    (structured : isStructured params n = true) (ts : List Token) : Clear params t ts := by
  intro n' name' kept
  obtain rfl : n = n' := Option.some.inj (name.symm.trans name')
  rw [structured] at kept
  cases kept

/-- What is settled behind a structured placeholder is free. -/
theorem free_of_settled {t : Token} {n : String} (name : t.name? = some n)
    (structured : isStructured params n = true) (settled : Settled params t ts)
    (maximal : ∀ d, (ts.flatMap (·.text)).head? = some d → isWordChar d = false) : Free ts := by
  obtain ⟨literal, marker⟩ := settled n name structured
  refine ⟨fun first => maximal _ first, fun first => literal _ first, fun {cs} parts => ?_⟩
  rw [parts] at marker
  cases opens : marker? [] cs with
  | none => rfl
  | some m =>
    rw [opensMarker, opens] at marker
    cases marker

end Step

/-- **The placeholders of a spliced statement.** They are those of the statement, with the names of each
fragment in the place of its placeholder, exactly if no placeholder that stays is lengthened. The
induction is on the tokens of the statement as it was. A token is met in the context it had, or in
another one if it is free; it is found again there, and so is what is behind it: in its old context
behind what was kept, in any context behind a fragment. -/
theorem names_replaced_iff (inert : ∀ {t}, Q t → Inert t.toList)
    (splices : Splices Q params found fragments) (before cs : List Char) :
    (∀ n ∈ names (tokensAfter before cs), n ∈ found) → AllSettled params (tokensAfter before cs) →
      ∀ before', SameContext before before' ∨ Free (tokensAfter before cs) →
        (ReadFrom params fragments before' (tokensAfter before cs)
          ↔ Apart params (tokensAfter before cs)) := by
  fun_induction tokensAfter before cs with
  | case1 before =>
    intro _ _ before' _
    unfold ReadFrom
    rw [List.flatMap_nil, tokensAfter]
    exact ⟨fun _ => trivial, fun _ => rfl⟩
  | case2 before c cs kind size first text ih =>
    intro mem settled before' context
    obtain ⟨u, rest, rfl, taken, dropped, first⟩ := exists_of_nextToken first
    have isText : text = c :: u := congrArg (c :: ·) taken
    clear_value text
    subst isText
    rw [dropped] at ih mem settled context ⊢
    obtain ⟨settled, allSettled⟩ := settled
    rw [names_cons] at mem
    have same : (tokensAfter ((c :: u).reverse ++ before) rest).flatMap (·.text) = rest :=
      flatMap_text_tokensAfter _ rest
    have texts : ∀ t ∈ tokensAfter ((c :: u).reverse ++ before) rest, t.text ≠ [] ∧ ∀ n,
        t.name? = some n → t.text = ':' :: n.toList ∧ n ∈ found := by
      intro t ht
      obtain ⟨nonempty, named⟩ := text_of_mem_tokensAfter ht
      refine ⟨nonempty, fun n name => ⟨(named n name).1, mem n (List.mem_append_right _ ?_)⟩⟩
      exact List.mem_filterMap.2 ⟨t, ht, name⟩
    have seen := seen_replaced inert splices texts
    rw [same] at seen
    have colon : rest.head? = some ':' → Free (tokensAfter ((c :: u).reverse ++ before) rest) :=
      free_of_colon
    replace ih := ih (fun n hn => mem n (List.mem_append_right _ hn)) allSettled
    -- from here on it does not matter how the tokens behind the first one are found
    generalize tokensAfter ((c :: u).reverse ++ before) rest = ts at *
    rw [Apart]
    -- what the first token does to those behind it: nothing, or it is kept, or it is replaced
    cases name : Token.name? ⟨kind, c :: u⟩ with
    | none =>
      obtain ⟨after, context, read⟩ := readFrom_nameless first same seen context colon name
      rw [read, ih after context, and_iff_right (clear_of_nameless name ts)]
    | some n =>
      obtain rfl : kind = .placeholder := by
        unfold Token.name? at name
        split at name
        · assumption
        · cases name
      obtain ⟨rfl, -, -, maximal⟩ := placeholder_of_nextToken first
      obtain rfl : String.ofList u = n := Option.some.inj name
      have hu : String.ofList u ∈ found := mem _ (List.mem_append_left _ (List.mem_singleton_self _))
      cases structured : isStructured params (String.ofList u) with
      | false =>
        obtain ⟨after, context, read⟩ :=
          readFrom_kept splices first same seen texts context structured
        rw [read, ih after (.inl context)]
      | true =>
        obtain ⟨after, read⟩ := readFrom_structured inert splices hu structured before'
        have free : Free ts := free_of_settled name structured settled (by rwa [same])
        rw [read, ih after (.inr free), and_iff_right (clear_of_structured name structured ts)]

end Splicing

end Expansion

end TypedStore
