/-
Reading an expanded expression as the store does. The reader knows nothing of expansion: it goes over
the text, takes constructors for arrays and records, quotes around braces for the empty array, and
placeholders for the values bound to them; fields of a row constructor have no names. The text of a
fragment is read as what the fragment stands for (`readValue?_text`).
-/
import TypedStore.Proofs.Expansion.Leaves

set_option autoImplicit false

namespace TypedStore

open TypedStore.Text

namespace Reading

/-! ## 1. The reader -/

/-- A word and what is behind it. -/
def word? (cs : List Char) : Option (String × List Char) :=
  let word := cs.takeWhile isWordChar
  if word.isEmpty then none else some (String.ofList word, cs.drop word.length)

/-- What is behind a cast, if there is one. -/
def afterCast? : List Char → Option (List Char)
  | ':' :: ':' :: rest => (word? rest).map (·.2)
  | cs => some cs

mutual

/-- Reads one expression; `bound` gives the values of placeholders. -/
def readValue? (bound : String → Option Value) (cs : List Char) : Option (Value × List Char) :=
  match cs with
  | ':' :: rest => do
    let (name, rest) ← word? rest
    let v ← bound name
    let rest ← afterCast? rest
    return (v, rest)
  | '\'' :: '{' :: '}' :: '\'' :: rest => do
    let rest ← afterCast? rest
    return (.array [], rest)
  | 'A' :: 'R' :: 'R' :: 'A' :: 'Y' :: '[' :: rest =>
    match readItems? bound rest with
    | some (items, ']' :: rest) => some (.array items, rest)
    | _ => none
  | 'R' :: 'O' :: 'W' :: '(' :: ')' :: ':' :: ':' :: rest => do
    let (typeName, rest) ← word? rest
    return (.record typeName [], rest)
  | 'R' :: 'O' :: 'W' :: '(' :: rest =>
    match readItems? bound rest with
    | some (items, ')' :: ':' :: ':' :: rest) => do
      let (typeName, rest) ← word? rest
      return (.record typeName (items.map fun v => ("", v)), rest)
    | _ => none
  | _ => none
termination_by (cs.length, 0)
decreasing_by all_goals simp only [Prod.lex_def, List.length_cons]; omega

/-- Reads expressions with commas between them, one at least. -/
def readItems? (bound : String → Option Value) (cs : List Char) : Option (List Value × List Char) :=
  match readValue? bound cs with
  | none => none
  | some (v, ',' :: ' ' :: rest) =>
    -- an expression is not empty, so there is always less left
    if _less : rest.length < cs.length then
      (readItems? bound rest).map fun read => (v :: read.1, read.2)
    else none
  | some (v, rest) => some ([v], rest)
termination_by (cs.length, 1)
decreasing_by
  · exact Prod.Lex.right _ Nat.zero_lt_one
  · exact Prod.Lex.left _ _ _less

end

/-- Reads a text that is one expression. -/
def read? (bound : String → Option Value) (text : String) : Option Value :=
  match readValue? bound text.toList with
  | some (v, []) => some v
  | _ => none

end Reading

/-! ## 2. What a fragment stands for -/

namespace Fragment

mutual

/-- The value of a fragment, if all its placeholders have values. -/
def meaning? (bound : String → Option Value) : Fragment → Option Value
  | .parameter name _ => bound name
  | .emptyArray _ => some (.array [])
  | .array items => (meanings? bound items).map .array
  | .row items typeName =>
    (meanings? bound items).map fun vs => .record typeName (vs.map fun v => ("", v))

/-- The values of the items of a constructor. -/
def meanings? (bound : String → Option Value) : List Fragment → Option (List Value)
  | [] => some []
  | f :: rest => (f.meaning? bound).bind fun v => (meanings? bound rest).map (v :: ·)

end

end Fragment

/-! ## 3. Reading a fragment -/

namespace Reading

/-- What may stand behind an expression: it neither goes on with a word nor is a cast. -/
def Stops (rest : List Char) : Prop := ∀ c ∈ rest.head?, isWordChar c = false ∧ c ≠ ':'

theorem word?_append {name : String} (word : IsWord name) {rest : List Char}
    (stops : ∀ c ∈ rest.head?, isWordChar c = false) :
    word? (name.toList ++ rest) = some (name, rest) := by
  -- the word ends where what stops it begins
  have run : (name.toList ++ rest).takeWhile isWordChar = name.toList := by
    rw [List.takeWhile_append_of_pos word.2]
    cases rest with
    | nil => rw [List.takeWhile_nil, List.append_nil]
    | cons c rest =>
      rw [List.takeWhile_cons, if_neg (by rw [stops c rfl]; decide), List.append_nil]
  have nonempty : name.toList.isEmpty = false := by
    cases chars : name.toList with
    | nil => exact absurd (String.toList_inj.1 chars) word.1
    | cons c cs => rfl
  rw [word?, run, nonempty, if_neg Bool.false_ne_true, String.ofList_toList, List.drop_left]

theorem toList_castText_some (cast : String) (rest : List Char) :
    (castText (some cast)).toList ++ rest = ':' :: ':' :: (cast.toList ++ rest) := by
  rw [castText, String.toList_append]
  rfl

theorem afterCast?_castText {cast? : Option String} (words : ∀ cast ∈ cast?, IsWord cast)
    {rest : List Char} (stops : Stops rest) :
    afterCast? ((castText cast?).toList ++ rest) = some rest := by
  cases cast? with
  | none =>
    show afterCast? rest = some rest
    unfold afterCast?
    split
    · exact absurd rfl (stops ':' rfl).2
    · rfl
  | some cast =>
    rw [toList_castText_some, afterCast?, word?_append (words cast rfl) fun c hc => (stops c hc).1]
    rfl

/-- The characters of the items of a constructor. -/
def itemChars (items : List Fragment) : List Char :=
  (", ".intercalate (Fragment.itemTexts items)).toList

theorem itemChars_singleton (f : Fragment) : itemChars [f] = f.text.toList := by
  rw [itemChars, Fragment.itemTexts, Fragment.itemTexts, String.intercalate_singleton]

theorem itemChars_cons_cons (f g : Fragment) (fs : List Fragment) :
    itemChars (f :: g :: fs) = f.text.toList ++ (',' :: ' ' :: itemChars (g :: fs)) := by
  rw [itemChars, Fragment.itemTexts, Fragment.itemTexts, String.intercalate_cons_cons,
    String.toList_append, String.toList_append, List.append_assoc]
  rfl

theorem text_parameter (name : String) (cast? : Option String) (rest : List Char) :
    (Fragment.parameter name cast?).text.toList ++ rest
      = ':' :: (name.toList ++ ((castText cast?).toList ++ rest)) := by
  rw [Fragment.text, String.toList_append, String.toList_append, List.append_assoc, List.append_assoc]
  rfl

theorem text_emptyArray (cast? : Option String) (rest : List Char) :
    (Fragment.emptyArray cast?).text.toList ++ rest
      = '\'' :: '{' :: '}' :: '\'' :: ((castText cast?).toList ++ rest) := by
  rw [Fragment.text, String.toList_append, List.append_assoc]
  rfl

theorem text_array (items : List Fragment) (rest : List Char) :
    (Fragment.array items).text.toList ++ rest
      = 'A' :: 'R' :: 'R' :: 'A' :: 'Y' :: '[' :: (itemChars items ++ (']' :: rest)) := by
  rw [Fragment.text, String.toList_append, String.toList_append, List.append_assoc, List.append_assoc]
  rfl

theorem text_row (items : List Fragment) (typeName : String) (rest : List Char) :
    (Fragment.row items typeName).text.toList ++ rest
      = 'R' :: 'O' :: 'W' :: '(' :: (itemChars items
          ++ (')' :: ':' :: ':' :: (typeName.toList ++ rest))) := by
  rw [Fragment.text, String.toList_append, String.toList_append, String.toList_append,
    List.append_assoc, List.append_assoc, List.append_assoc]
  rfl

theorem itemChars_cons (f : Fragment) (fs : List Fragment) :
    ∃ more, itemChars (f :: fs) = f.text.toList ++ more := by
  cases fs with
  | nil => exact ⟨[], by rw [itemChars_singleton, List.append_nil]⟩
  | cons g fs => exact ⟨_, itemChars_cons_cons f g fs⟩

/-- No expression begins with a closing parenthesis. -/
theorem itemChars_ne (f : Fragment) (fs : List Fragment) (rest rest' : List Char) :
    itemChars (f :: fs) ++ rest ≠ ')' :: rest' := by
  obtain ⟨more, parts⟩ := itemChars_cons f fs
  rw [parts, List.append_assoc]
  intro same
  have head := congrArg List.head? same
  cases f with
  | parameter name cast? => rw [text_parameter] at head; cases head
  | emptyArray cast? => rw [text_emptyArray] at head; cases head
  | array items => rw [text_array] at head; cases head
  | row items typeName => rw [text_row] at head; cases head

variable {bound : String → Option Value}

/-- What closes a constructor. -/
def Closes (rest : List Char) : Prop := ∃ c more, rest = c :: more ∧ (c = ']' ∨ c = ')')

theorem closes_cons {c : Char} (hc : c = ']' ∨ c = ')') (rest : List Char) : Closes (c :: rest) :=
  ⟨c, rest, rfl, hc⟩

theorem Closes.stops {rest : List Char} (h : Closes rest) : Stops rest := by
  obtain ⟨c, more, rfl, rfl | rfl⟩ := h
  · exact fun d hd => Option.some.inj hd ▸ by decide
  · exact fun d hd => Option.some.inj hd ▸ by decide

mutual

/-- **Fragments are read back.** The text of a fragment is read as its value, whatever stands behind
it that does not go on with it. -/
theorem readValue?_text (f : Fragment) (words : f.All IsWord IsWord) {v : Value}
    (value : f.meaning? bound = some v) {rest : List Char} (stops : Stops rest) :
    readValue? bound (f.text.toList ++ rest) = some (v, rest) := by
  match f with
  | .parameter name cast? =>
    obtain ⟨word, casts⟩ := words
    -- a cast ends the name, and so does what is behind the expression
    have behind : ∀ c ∈ ((castText cast?).toList ++ rest).head?, isWordChar c = false := by
      cases cast? with
      | none => exact fun c hc => (stops c hc).1
      | some cast =>
        rw [toList_castText_some]
        exact fun c hc => Option.some.inj hc ▸ by decide
    rw [Fragment.meaning?] at value
    rw [text_parameter, readValue?, word?_append word behind]
    simp only [Option.bind_eq_bind, Option.bind_some, value, afterCast?_castText casts stops]
    rfl
  | .emptyArray cast? =>
    cases value
    rw [text_emptyArray, readValue?, afterCast?_castText words stops]
    rfl
  | .array items =>
    obtain ⟨nonempty, words⟩ := words
    obtain ⟨vs, values, rfl⟩ := Option.map_eq_some_iff.1 value
    have closed : Closes (']' :: rest) := closes_cons (.inl rfl) rest
    rw [text_array, readValue?, readItems?_text items nonempty words values closed]
    rfl
  | .row items typeName =>
    obtain ⟨words, typeWord⟩ := words
    obtain ⟨vs, values, rfl⟩ := Option.map_eq_some_iff.1 value
    have behind := word?_append typeWord fun c hc => (stops c hc).1
    cases items with
    | nil =>
      -- a row without items has a rule of its own, as there is no expression to read
      cases values
      rw [text_row]
      show readValue? bound ('R' :: 'O' :: 'W' :: '(' :: ')' :: ':' :: ':' :: _) = _
      rw [readValue?, behind]
      rfl
    | cons f fs =>
      have closed : Closes (')' :: ':' :: ':' :: (typeName.toList ++ rest)) :=
        closes_cons (.inr rfl) _
      rw [text_row, readValue?, readItems?_text (f :: fs) (List.cons_ne_nil _ _) words values closed]
      · simp only [Option.bind_eq_bind, behind]
        rfl
      · exact fun rest' same => itemChars_ne f fs _ _ same
termination_by structural f

/-- The items of a constructor are read one after the other, up to what closes it. -/
theorem readItems?_text (items : List Fragment) (nonempty : items ≠ [])
    (words : Fragment.AllItems IsWord IsWord items) {vs : List Value}
    (values : Fragment.meanings? bound items = some vs) {rest : List Char} (closes : Closes rest) :
    readItems? bound (itemChars items ++ rest) = some (vs, rest) := by
  match items with
  | [] => exact absurd rfl nonempty
  | [f] =>
    obtain ⟨v, value, values⟩ := Option.bind_eq_some_iff.1 values
    cases values
    rw [itemChars_singleton, readItems?, readValue?_text f words.1 value closes.stops]
    obtain ⟨c, more, rfl, rfl | rfl⟩ := closes
    · rfl
    · rfl
  | f :: g :: fs =>
    obtain ⟨v, value, values⟩ := Option.bind_eq_some_iff.1 values
    obtain ⟨vs, others, rfl⟩ := Option.map_eq_some_iff.1 values
    -- a comma ends the first item, and less is left behind it
    have stops : Stops (',' :: ' ' :: (itemChars (g :: fs) ++ rest)) :=
      fun d hd => Option.some.inj hd ▸ by decide
    have one := readValue?_text f words.1 value stops
    have more := readItems?_text (g :: fs) (List.cons_ne_nil _ _) words.2 others closes
    have less : (itemChars (g :: fs) ++ rest).length
        < (f.text.toList ++ (',' :: ' ' :: (itemChars (g :: fs) ++ rest))).length := by
      simp only [List.length_append, List.length_cons]
      omega
    rw [itemChars_cons_cons, List.append_assoc, List.cons_append, List.cons_append, readItems?, one]
    refine (dif_pos less).trans ?_
    rw [more]
    rfl
termination_by structural items

end

end Reading

end TypedStore
