/-
Numbering the placeholders of a statement. A statement is cut into its placeholders and the text around
them (`Frame`); numbering keeps the text around them and writes a number in the place of each
placeholder, so putting the names back gives the statement again. The same numbered statement is put
together from slices of the text between the offsets of the placeholders, and each of these slices lies
in the text and between characters (`splice?_eq`).
-/
import Mathlib.Data.List.Basic
import TypedStore.Statement.Query
import TypedStore.Proofs.Statement.Replacing

set_option autoImplicit false

namespace TypedStore

open TypedStore.Text TypedStore.Statement

/-! ## 1. Distinct names -/

namespace Query

theorem mem_distinct {name : String} {names : List String} :
    name ∈ distinct names ↔ name ∈ names := by
  induction names with
  | nil => exact Iff.rfl
  | cons first rest ih =>
    rw [distinct, List.mem_cons, List.mem_cons, List.mem_filter, ih]
    by_cases same : name = first
    · exact ⟨fun _ => .inl same, fun _ => .inl same⟩
    · simp only [same, false_or, bne_iff_ne, ne_eq, not_false_eq_true, and_true]

theorem nodup_distinct (names : List String) : (distinct names).Nodup := by
  induction names with
  | nil => exact List.Pairwise.nil
  | cons first rest ih =>
    rw [distinct, List.nodup_cons]
    refine ⟨fun h => ?_, ih.filter _⟩
    have differs := (List.mem_filter.1 h).2
    rw [bne_self_eq_false] at differs
    cases differs

/-- Distinct names stand in the order of their first occurrences. -/
theorem pairwise_idxOf_distinct (names : List String) :
    (distinct names).Pairwise fun a b => names.idxOf a < names.idxOf b := by
  induction names with
  | nil => exact List.Pairwise.nil
  | cons first rest ih =>
    have behind : ∀ {name}, name ∈ (distinct rest).filter (· != first) →
        (first :: rest).idxOf name = rest.idxOf name + 1 := by
      intro name hname
      have other : name ≠ first := by simpa using (List.mem_filter.1 hname).2
      exact List.idxOf_cons_ne rest other.symm
    rw [distinct, List.pairwise_cons]
    refine ⟨fun name hname => ?_, (ih.filter _).imp_of_mem fun ha hb less => ?_⟩
    · rw [List.idxOf_cons_self, behind hname]
      exact Nat.succ_pos _
    · rw [behind ha, behind hb]
      exact Nat.succ_lt_succ less

/-- The first distinct name of a kind is the first name of the kind. -/
theorem find?_distinct (kind : String → Bool) (names : List String) :
    (distinct names).find? kind = names.find? kind := by
  induction names with
  | nil => rfl
  | cons first rest ih =>
    rw [distinct, List.find?_cons, List.find?_cons]
    cases here : kind first with
    | true => rfl
    | false =>
      -- leaving `first` out leaves nothing of the kind out
      have same : (fun name => decide ((name != first) = true ∧ kind name = true)) = kind := by
        funext name
        by_cases isFirst : name = first
        · simp [isFirst, here]
        · simp [isFirst]
      dsimp only
      rw [List.find?_filter, same, ih]

/-- The distinct names behind a first one, apart from those that are known. -/
theorem filter_distinct_of_mem {known : List String} {name : String} (mem : name ∈ known)
    (rest : List String) :
    (distinct (name :: rest)).filter (fun n => decide (n ∉ known))
      = (distinct rest).filter fun n => decide (n ∉ known) := by
  rw [distinct, List.filter_cons_of_neg (by simpa using mem), List.filter_filter]
  refine List.filter_congr fun n _ => ?_
  by_cases same : n = name
  · simp [same, mem]
  · simp [same]

theorem filter_distinct_of_not_mem {known : List String} {name : String} (new : name ∉ known)
    (rest : List String) :
    (distinct (name :: rest)).filter (fun n => decide (n ∉ known))
      = name :: (distinct rest).filter fun n => decide (n ∉ known ++ [name]) := by
  rw [distinct, List.filter_cons_of_pos (by simpa using new), List.filter_filter]
  refine congrArg (name :: ·) (List.filter_congr fun n _ => ?_)
  by_cases same : n = name
  · simp [same]
  · simp [same]

/-! ## 2. Values of names -/

theorem valuesOf_eq_ok {params : Params} {names : List String} {values : List Value} :
    valuesOf params names = .ok values ↔ names.map params.get? = values.map some := by
  induction names generalizing values with
  | nil =>
    rw [valuesOf]
    constructor
    · intro ok
      cases ok
      rfl
    · intro same
      rw [List.map_eq_nil_iff.1 same.symm]
  | cons name rest ih =>
    rw [valuesOf, List.map_cons]
    cases found : params.get? name with
    | none =>
      constructor
      · intro ok
        cases ok
      · intro same
        cases values <;> cases same
    | some v =>
      constructor
      · intro ok
        obtain ⟨others, more, rfl⟩ := map_eq_ok ok
        rw [List.map_cons, ih.1 more]
      · intro same
        obtain ⟨u, others, rfl, first, more⟩ := List.map_eq_cons_iff.1 same.symm
        cases first
        rw [ih.2 more.symm]
        rfl

/-- The first name without a value is the one that is reported. -/
theorem valuesOf_eq_error {params : Params} {names : List String} {e : Error} :
    valuesOf params names = .error e ↔
      ∃ name, names.find? (fun n => !params.contains n) = some name ∧ e = .missingParameter name := by
  induction names with
  | nil =>
    constructor
    · intro failed
      cases failed
    · rintro ⟨name, found, -⟩
      cases found
  | cons name rest ih =>
    rw [valuesOf, List.find?_cons, Dict.contains]
    cases found : params.get? name with
    | none =>
      constructor
      · intro failed
        cases failed
        exact ⟨name, rfl, rfl⟩
      · rintro ⟨missing, first, rfl⟩
        cases first
        rfl
    | some v =>
      -- the failure is one behind the first name
      refine Iff.trans ?_ ih
      cases valuesOf params rest with
      | ok values =>
        constructor
        · intro failed
          cases failed
        · intro failed
          cases failed
      | error e' =>
        constructor
        · intro failed
          cases failed
          rfl
        · intro failed
          cases failed
          rfl

end Query

namespace Statement

/-! ## 3. The text around placeholders -/

/-- The text of the placeholder of a name. -/
def placeholderText (name : String) : List Char := ':' :: name.toList

/-- The number of a name in an order, as it is written. -/
def numberText (order : List String) (name : String) : List Char :=
  '$' :: (natText (order.idxOf name + 1)).toList

/-- A statement apart from what stands for its names: each name with the text in front of it, and the
text behind the last one. -/
structure Frame where
  parts : List (List Char × String)
  tail : List Char

namespace Frame

/-- The text of a frame with something written in the place of each name. -/
def text (mark : String → List Char) (f : Frame) : List Char :=
  f.parts.flatMap (fun part => part.1 ++ mark part.2) ++ f.tail

/-- The placeholders of a frame whose text starts at an offset. -/
def spansFrom (offset : Nat) : List (List Char × String) → List Placeholder
  | [] => []
  | (gap, name) :: rest =>
    let start := offset + byteLength gap
    let stop := start + byteLength (placeholderText name)
    ⟨name, start, stop⟩ :: spansFrom stop rest

/-- Puts text in front. -/
def prepend (front : List Char) (f : Frame) : Frame :=
  match f.parts with
  | [] => ⟨[], front ++ f.tail⟩
  | (gap, name) :: rest => ⟨(front ++ gap, name) :: rest, f.tail⟩

/-- The frame of tokens. -/
def ofTokens : List Token → Frame
  | [] => ⟨[], []⟩
  | t :: rest =>
    match t.name? with
    | some name => ⟨([], name) :: (ofTokens rest).parts, (ofTokens rest).tail⟩
    | none => (ofTokens rest).prepend t.text

theorem text_cons (mark : String → List Char) (gap : List Char) (name : String)
    (rest : List (List Char × String)) (tail : List Char) :
    text mark ⟨(gap, name) :: rest, tail⟩ = gap ++ mark name ++ text mark ⟨rest, tail⟩ := by
  rw [text, List.flatMap_cons, List.append_assoc]
  rfl

theorem text_prepend (mark : String → List Char) (front : List Char) (f : Frame) :
    (f.prepend front).text mark = front ++ f.text mark := by
  obtain ⟨_ | ⟨⟨gap, name⟩, rest⟩, tail⟩ := f
  · rfl
  · simp only [prepend, text_cons, List.append_assoc]

theorem spansFrom_prepend (offset : Nat) (front : List Char) (f : Frame) :
    spansFrom offset (f.prepend front).parts = spansFrom (offset + byteLength front) f.parts := by
  obtain ⟨_ | ⟨⟨gap, name⟩, rest⟩, tail⟩ := f
  · rfl
  · simp only [prepend, spansFrom, byteLength_append, Nat.add_assoc]

/-- Whatever is written for names, the text of the other tokens stays. -/
theorem text_ofTokens (mark : String → List Char) (ts : List Token) :
    (ofTokens ts).text mark = ts.flatMap fun t => (t.name?.map mark).getD t.text := by
  induction ts with
  | nil => rfl
  | cons t rest ih =>
    rw [ofTokens, List.flatMap_cons]
    cases t.name? with
    | some name =>
      rw [← ih]
      exact text_cons mark [] name _ _
    | none => rw [text_prepend, ih, Option.map_none, Option.getD_none]

/-- Where tokens with a name are written as placeholders, they are those of the frame. -/
theorem spansFrom_ofTokens {ts : List Token}
    (written : ∀ t ∈ ts, ∀ name, t.name? = some name → t.text = placeholderText name) (offset : Nat) :
    spansFrom offset (ofTokens ts).parts = placeholdersFrom offset ts := by
  induction ts generalizing offset with
  | nil => rfl
  | cons t rest ih =>
    have others := ih fun u hu => written u (List.mem_cons_of_mem _ hu)
    rw [ofTokens, placeholdersFrom]
    cases named : t.name? with
    | some name =>
      rw [written t List.mem_cons_self name named]
      dsimp only [spansFrom, byteLength, Nat.add_zero]
      rw [others]
    | none => rw [spansFrom_prepend, others]

/-- What stands behind each name, as written, does not go on with a word. -/
def EndsWords (mark : String → List Char) (f : Frame) : Prop :=
  ∀ part behind, part :: behind <:+ f.parts →
    ∀ c, (text mark ⟨behind, f.tail⟩).head? = some c → isWordChar c = false

theorem EndsWords.prepend {mark : String → List Char} {f : Frame} (h : f.EndsWords mark)
    (front : List Char) : (f.prepend front).EndsWords mark := by
  obtain ⟨_ | ⟨⟨gap, name⟩, rest⟩, tail⟩ := f
  · intro part behind suffix
    cases List.suffix_nil.1 suffix
  · intro part behind suffix
    rcases List.suffix_cons_iff.1 suffix with whole | later
    · obtain ⟨-, rfl⟩ := List.cons.inj whole
      exact h (gap, name) behind List.suffix_rfl
    · exact h part behind (later.trans (List.suffix_cons _ _))

/-- Numbers begin with no word character either, so they may stand behind each other. -/
theorem EndsWords.numbered {f : Frame} (h : f.EndsWords placeholderText) (order : List String) :
    f.EndsWords (numberText order) := by
  intro part behind suffix c hc
  have ends := h part behind suffix c
  obtain _ | ⟨⟨gap, name⟩, rest⟩ := behind
  · exact ends hc
  · rw [text_cons] at hc ends
    cases gap with
    | nil =>
      cases hc
      decide
    | cons d gap => exact ends hc

/-- The frame of a text is that of its tokens: with the placeholders in it, it is the text. -/
theorem text_tokensAfter (before cs : List Char) :
    (ofTokens (tokensAfter before cs)).text placeholderText = cs := by
  rw [text_ofTokens]
  refine (List.flatMap_congr fun t ht => ?_).trans (flatMap_text_tokensAfter before cs)
  cases named : t.name? with
  | none => rfl
  | some name => exact ((text_of_mem_tokensAfter ht).2 name named).1.symm

/-- The names of a text are as long as they can be. -/
theorem endsWords_tokensAfter (before cs : List Char) :
    (ofTokens (tokensAfter before cs)).EndsWords placeholderText := by
  fun_induction tokensAfter before cs with
  | case1 =>
    intro part behind suffix
    cases List.suffix_nil.1 suffix
  | case2 before c rest kind size found text ih =>
    rw [ofTokens]
    by_cases isPlaceholder : kind = .placeholder
    · subst isPlaceholder
      have named : Token.name? ⟨.placeholder, text⟩ = some (String.ofList (text.drop 1)) := rfl
      rw [named]
      intro part behind suffix
      rcases List.suffix_cons_iff.1 suffix with whole | later
      · obtain ⟨-, rfl⟩ := List.cons.inj whole
        -- what is behind the placeholder is the text of the other tokens
        obtain ⟨u, left, -, -, drop, found⟩ := exists_of_nextToken found
        have same := text_tokensAfter (text.reverse ++ before) (rest.drop size)
        rw [drop] at same
        intro d hd
        rw [drop, same] at hd
        exact (placeholder_of_nextToken found).2.2.2 d hd
      · exact ih part behind later
    · have nameless : Token.name? ⟨kind, text⟩ = none := if_neg isPlaceholder
      rw [nameless]
      exact ih.prepend text

end Frame

/-- The frame of a statement. -/
def frame (sql : String) : Frame := Frame.ofTokens (tokens sql)

theorem text_frame (sql : String) : (frame sql).text placeholderText = sql.toList :=
  Frame.text_tokensAfter [] sql.toList

theorem spans_frame (sql : String) : Frame.spansFrom 0 (frame sql).parts = placeholders sql :=
  Frame.spansFrom_ofTokens (fun _ ht name named => ((text_of_mem_tokensAfter ht).2 name named).1) 0

theorem map_name_placeholders (sql : String) :
    (placeholders sql).map (·.name) = names (tokens sql) := by
  suffices h : ∀ (ts : List Token) (offset : Nat),
      (placeholdersFrom offset ts).map (·.name) = names ts from h (tokens sql) 0
  intro ts
  induction ts with
  | nil =>
    intro offset
    rfl
  | cons t ts ih =>
    intro offset
    rw [placeholdersFrom, names_cons]
    cases t.name? with
    | none => exact ih _
    | some n => exact congrArg (n :: ·) (ih _)

/-- The names of placeholders are those of the frame, in order. -/
theorem names_spansFrom (offset : Nat) (parts : List (List Char × String)) :
    (Frame.spansFrom offset parts).map (·.name) = parts.map (·.2) := by
  induction parts generalizing offset with
  | nil => rfl
  | cons part rest ih => exact congrArg (part.2 :: ·) (ih _)

theorem names_frame (sql : String) :
    (frame sql).parts.map (·.2) = (placeholders sql).map (·.name) := by
  rw [← spans_frame, names_spansFrom]

/-! ## 4. Slices -/

/-- Cuts a number of bytes off the front, if they are whole characters. -/
def splitBytes? : Nat → List Char → Option (List Char × List Char)
  | 0, cs => some ([], cs)
  | _ + 1, [] => none
  | size + 1, c :: rest =>
    if c.utf8Size ≤ size + 1 then
      (splitBytes? (size + 1 - c.utf8Size) rest).map fun parts => (c :: parts.1, parts.2)
    else none

/-- The text from one byte to another. There is none where the second is in front of the first or behind
the end of the text, or where one of them is inside a character. -/
def slice? (cs : List Char) (start stop : Nat) : Option (List Char) :=
  if start ≤ stop then
    (splitBytes? start cs).bind fun parts => (splitBytes? (stop - start) parts.2).map (·.1)
  else none

theorem splitBytes?_append (front behind : List Char) :
    splitBytes? (byteLength front) (front ++ behind) = some (front, behind) := by
  induction front with
  | nil => rw [byteLength, splitBytes?, List.nil_append]
  | cons c front ih =>
    -- every character has a byte
    obtain ⟨size, same⟩ := Nat.exists_eq_succ_of_ne_zero
      (Nat.pos_iff_ne_zero.1 (Nat.add_pos_left (Char.utf8Size_pos c) (byteLength front)))
    have left : size.succ - c.utf8Size = byteLength front := by omega
    rw [byteLength, same, List.cons_append, splitBytes?, if_pos (by omega), left, ih]
    rfl

theorem slice?_append (before inside behind : List Char) :
    slice? (before ++ (inside ++ behind)) (byteLength before) (byteLength before + byteLength inside)
      = some inside := by
  rw [slice?, if_pos (Nat.le_add_right _ _), splitBytes?_append, Option.bind_some,
    Nat.add_sub_cancel_left, splitBytes?_append]
  rfl

/-! ## 5. Numbering slice by slice -/

/-- Numbers placeholders one after the other: the text in front of each is a slice of the statement, from
the end of the placeholder before it on, and so is the name of a placeholder that is new. `order` are
the names met so far, and `values` their values. There is no answer where a slice does not exist. -/
def spliceFrom? (cs : List Char) (params : Params) (order : List String) (values : List Value)
    (last : Nat) : List Placeholder → Option (Except Error (List Char × List Value))
  | [] => (slice? cs last (byteLength cs)).map fun rest => .ok (rest, values)
  | p :: others =>
    if p.name ∈ order then do
      let gap ← slice? cs last p.start
      let answer ← spliceFrom? cs params order values p.stop others
      pure (answer.map fun done => (gap ++ numberText order p.name ++ done.1, done.2))
    else
      match params.get? p.name with
      | none => some (.error (.missingParameter p.name))
      | some v => do
        let name ← slice? cs (p.start + 1) p.stop
        let gap ← slice? cs last p.start
        let number := '$' :: (natText (order.length + 1)).toList
        let answer ← spliceFrom? cs params (order ++ [String.ofList name]) (values ++ [v]) p.stop others
        pure (answer.map fun done => (gap ++ number ++ done.1, done.2))

/-- Numbers the placeholders of a statement slice by slice. -/
def splice? (sql : String) (params : Params) : Option (Except Error Query) :=
  (spliceFrom? sql.toList params [] [] 0 (placeholders sql)).map fun answer =>
    answer.map fun done => ⟨String.ofList done.1, done.2⟩

/-- The names that are new behind those that are known. -/
def newNames (known : List String) (parts : List (List Char × String)) : List String :=
  (Query.distinct (parts.map (·.2))).filter fun name => decide (name ∉ known)

/-- Behind what is done, slices give the numbered frame and the values of the names that are new. The
induction is on the placeholders that are left; every placeholder moves its text to what is done. -/
theorem spliceFrom?_frame (params : Params) (parts : List (List Char × String)) (tail : List Char)
    (before : List Char) (order : List String) (values : List Value) :
    spliceFrom? (before ++ Frame.text placeholderText ⟨parts, tail⟩) params order values
        (byteLength before) (Frame.spansFrom (byteLength before) parts)
      = some ((Query.valuesOf params (newNames order parts)).map fun more =>
          (Frame.text (numberText (order ++ newNames order parts)) ⟨parts, tail⟩, values ++ more)) := by
  induction parts generalizing before order values with
  | nil =>
    have rest : slice? (before ++ tail) (byteLength before) (byteLength (before ++ tail)) = some tail := by
      rw [byteLength_append]
      simpa using slice?_append before tail []
    have whole : ∀ mark, Frame.text mark ⟨[], tail⟩ = tail := fun _ => rfl
    have none : newNames order [] = [] := rfl
    rw [Frame.spansFrom, spliceFrom?, whole, whole, rest, none, Query.valuesOf, Option.map_some,
      Except.map, List.append_nil]
  | cons part rest ih =>
    obtain ⟨gap, name⟩ := part
    -- the text in front of the placeholder, its name, and the end of it
    have parts : before ++ Frame.text placeholderText ⟨(gap, name) :: rest, tail⟩
        = before ++ (gap ++ (placeholderText name ++ Frame.text placeholderText ⟨rest, tail⟩)) := by
      rw [Frame.text_cons, List.append_assoc]
    have inFront : slice? (before ++ Frame.text placeholderText ⟨(gap, name) :: rest, tail⟩)
        (byteLength before) (byteLength before + byteLength gap) = some gap := by
      rw [parts, slice?_append]
    have word : slice? (before ++ Frame.text placeholderText ⟨(gap, name) :: rest, tail⟩)
        (byteLength before + byteLength gap + 1)
        (byteLength before + byteLength gap + byteLength (placeholderText name)) = some name.toList := by
      have one : byteLength [':'] = 1 := by decide
      have cut := slice?_append (before ++ gap ++ [':']) name.toList
        (Frame.text placeholderText ⟨rest, tail⟩)
      rw [byteLength_append, byteLength_append, one] at cut
      have stop : byteLength before + byteLength gap + byteLength (placeholderText name)
          = byteLength before + byteLength gap + 1 + byteLength name.toList := by
        rw [placeholderText, ← List.singleton_append, byteLength_append, one, ← Nat.add_assoc]
      rw [parts, stop, ← cut]
      simp [placeholderText]
    have done : byteLength (before ++ gap ++ placeholderText name)
        = byteLength before + byteLength gap + byteLength (placeholderText name) := by
      rw [byteLength_append, byteLength_append]
    have moved : before ++ Frame.text placeholderText ⟨(gap, name) :: rest, tail⟩
        = before ++ gap ++ placeholderText name ++ Frame.text placeholderText ⟨rest, tail⟩ := by
      rw [parts, List.append_assoc, List.append_assoc]
    rw [Frame.spansFrom, spliceFrom?]
    dsimp only
    rw [inFront, word, moved, ← done]
    by_cases known : name ∈ order
    · have same : newNames order ((gap, name) :: rest) = newNames order rest :=
        Query.filter_distinct_of_mem known _
      rw [if_pos known, same, ih]
      have number : numberText (order ++ newNames order rest) name = numberText order name := by
        rw [numberText, List.idxOf_append_of_mem known, numberText]
      cases Query.valuesOf params (newNames order rest) with
      | error e => rfl
      | ok more =>
        rw [Frame.text_cons, number]
        rfl
    · have new : newNames order ((gap, name) :: rest)
          = name :: newNames (order ++ [name]) rest := Query.filter_distinct_of_not_mem known _
      rw [if_neg known, new, Query.valuesOf]
      cases found : params.get? name with
      | none => rfl
      | some v =>
        have all : order ++ name :: newNames (order ++ [name]) rest
            = order ++ [name] ++ newNames (order ++ [name]) rest := by
          rw [List.append_assoc, List.singleton_append]
        have number : numberText (order ++ [name] ++ newNames (order ++ [name]) rest) name
            = '$' :: (natText (order.length + 1)).toList := by
          rw [numberText, List.append_assoc, List.singleton_append, List.idxOf_append_of_notMem known,
            List.idxOf_cons_self, Nat.add_zero]
        rw [all]
        simp only [Option.bind_eq_bind, Option.bind_some, String.ofList_toList]
        rw [ih]
        cases Query.valuesOf params (newNames (order ++ [name]) rest) with
        | error e => rfl
        | ok more =>
          rw [Frame.text_cons, number]
          simp [Except.map]

/-! ## 6. What is bound -/

/-- The names of a statement in the order of their numbers. -/
def order (sql : String) : List String := Query.distinct ((placeholders sql).map (·.name))

theorem newNames_frame (sql : String) : newNames [] (frame sql).parts = order sql := by
  rw [newNames, names_frame, order]
  exact List.filter_eq_self.2 fun name _ => decide_eq_true List.not_mem_nil

theorem numbered_eq (order : List String) :
    Query.numbered order = fun t => (t.name?.map (numberText order)).getD t.text := by
  funext t
  rw [Query.numbered]
  cases t.name? <;> rfl

/-- Numbering is writing numbers in the frame of a statement. -/
theorem ofNamed_eq (sql : String) (params : Params) :
    Query.ofNamed sql params = (Query.valuesOf params (order sql)).map fun values =>
      ⟨String.ofList ((frame sql).text (numberText (order sql))), values⟩ := by
  have text : (tokens sql).flatMap (Query.numbered (order sql))
      = (frame sql).text (numberText (order sql)) := by
    rw [numbered_eq, frame, Frame.text_ofTokens]
  rw [Query.ofNamed, ← map_name_placeholders, ← order, text]
  cases Query.valuesOf params (order sql) <;> rfl

/-- Numbering slice by slice meets no slice that does not exist, and has the same answer. -/
theorem splice?_eq (sql : String) (params : Params) :
    splice? sql params = some (Query.ofNamed sql params) := by
  have spliced := spliceFrom?_frame params (frame sql).parts (frame sql).tail [] [] []
  have start : byteLength [] = 0 := rfl
  rw [List.nil_append, List.nil_append, newNames_frame, text_frame, start, spans_frame] at spliced
  rw [splice?, spliced, ofNamed_eq]
  cases Query.valuesOf params (order sql) <;> rfl

/-- A query has the names of a statement numbered, in a frame that both have in common. -/
structure Numbers (sql : String) (params : Params) (q : Query) (order : List String) (f : Frame) :
    Prop where
  /-- Names that are numbered are those of placeholders, -/
  mem : ∀ {name : String}, name ∈ order ↔ ∃ p ∈ placeholders sql, p.name = name
  /-- each once, -/
  nodup : order.Nodup
  /-- in the order of their first occurrences. -/
  first : order.Pairwise fun a b =>
    ((placeholders sql).map (·.name)).idxOf a < ((placeholders sql).map (·.name)).idxOf b
  /-- Their values are bound in this order. -/
  values : order.map params.get? = q.params.map some
  /-- The names of the frame stand where the placeholders are. -/
  places : Frame.spansFrom 0 f.parts = placeholders sql
  /-- With placeholders in it, the frame is the statement, -/
  statement : f.text placeholderText = sql.toList
  /-- and with numbers the text of the query. -/
  text : q.sql.toList = f.text (numberText order)
  /-- A number is that of one name only. -/
  back : ∀ part ∈ f.parts, order[order.idxOf part.2]? = some part.2
  /-- Behind a number there is no digit and no other byte of a word. -/
  ends : ∀ part behind, part :: behind <:+ f.parts →
    ∀ b, (charBytes (Frame.text (numberText order) ⟨behind, f.tail⟩)).head? = some b →
      isWordByte b = false

theorem numbers_of_ofNamed {sql : String} {params : Params} {q : Query}
    (ok : Query.ofNamed sql params = .ok q) : Numbers sql params q (order sql) (frame sql) := by
  rw [ofNamed_eq] at ok
  obtain ⟨values, bound, rfl⟩ := map_eq_ok ok
  have mem : ∀ {name : String}, name ∈ order sql ↔ ∃ p ∈ placeholders sql, p.name = name := by
    intro name
    rw [order, Query.mem_distinct, List.mem_map]
  exact {
    mem := mem
    nodup := Query.nodup_distinct _
    first := Query.pairwise_idxOf_distinct _
    values := Query.valuesOf_eq_ok.1 bound
    places := spans_frame sql
    statement := text_frame sql
    text := String.toList_ofList
    back := by
      intro part hpart
      have known : part.2 ∈ order sql := by
        rw [order, Query.mem_distinct, ← names_frame]
        exact List.mem_map_of_mem hpart
      exact List.getElem?_idxOf known
    ends := by
      intro part behind suffix
      have written : (frame sql).EndsWords placeholderText := Frame.endsWords_tokensAfter [] sql.toList
      exact isWordByte_head?_charBytes (written.numbered _ part behind suffix) }

end Statement

open Statement in
/-- **Binding is faithful.** It fails with the name of the first placeholder without a value, and with
nothing else; otherwise the distinct names are numbered in order and nothing but placeholders is
replaced; and it is numbering slice by slice, with every slice in the text. -/
theorem Query.ofNamed_faithful (sql : String) (params : Params) :
    ((∃ q, Query.ofNamed sql params = .ok q) ↔
        ∀ p ∈ placeholders sql, params.contains p.name = true)
      ∧ (∀ e, Query.ofNamed sql params = .error e ↔
        ∃ p, (placeholders sql).find? (fun p => !params.contains p.name) = some p
          ∧ e = .missingParameter p.name)
      ∧ (∀ q, Query.ofNamed sql params = .ok q → ∃ order f, Numbers sql params q order f)
      ∧ splice? sql params = some (Query.ofNamed sql params) := by
  -- the first name without a value is that of the first placeholder without one
  have missing : ∀ e, Query.ofNamed sql params = .error e ↔
      ∃ p, (placeholders sql).find? (fun p => !params.contains p.name) = some p
        ∧ e = .missingParameter p.name := by
    intro e
    have failed : Query.ofNamed sql params = .error e
        ↔ Query.valuesOf params (order sql) = .error e := by
      rw [ofNamed_eq]
      cases Query.valuesOf params (order sql) <;> simp [Except.map]
    rw [failed, Query.valuesOf_eq_error, order, Query.find?_distinct, List.find?_map]
    simp only [Option.map_eq_some_iff]
    constructor
    · rintro ⟨_, ⟨p, found, rfl⟩, rfl⟩
      exact ⟨p, found, rfl⟩
    · rintro ⟨p, found, rfl⟩
      exact ⟨p.name, ⟨p, found, rfl⟩, rfl⟩
  refine ⟨?_, missing, fun q ok => ⟨order sql, frame sql, numbers_of_ofNamed ok⟩, splice?_eq sql params⟩
  cases answer : Query.ofNamed sql params with
  | ok q =>
    refine iff_of_true ⟨q, rfl⟩ fun p hp => ?_
    by_contra absent
    -- a placeholder without a value would have been found
    cases found : (placeholders sql).find? (fun p => !params.contains p.name) with
    | none =>
      have known := List.find?_eq_none.1 found p hp
      rw [Bool.not_eq_true', Bool.not_eq_false] at known
      exact absent known
    | some p =>
      have failed := (missing _).2 ⟨p, found, rfl⟩
      rw [answer] at failed
      cases failed
  | error e =>
    obtain ⟨p, found, -⟩ := (missing e).1 answer
    refine iff_of_false (fun ⟨q, ok⟩ => nomatch ok) fun all => ?_
    have absent := List.find?_some found
    rw [all p (List.mem_of_find?_eq_some found)] at absent
    cases absent

end TypedStore
