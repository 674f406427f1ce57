/-
Spread rows. A parameter that refers to a whole row stands for the columns of the row. Which value a name
gets is settled twice: by pairing labels with cells where a row is spread, and by the first position of a
label where a single cell is read. Both find the same cell (`get?_columns`), and conversions keep to it
(`resolve_columnOf`). So the columns of a row are what references to them one by one would be, as far as
nothing in front of them has their names (`resolveParams_get?`).
-/
import TypedStore.Plan.Resolution

set_option autoImplicit false

namespace TypedStore

/-! ## 1. References to rows -/

namespace Reference

/-- Whether a reference spreads a row. -/
def isRow : Reference → Bool
  | .fromStep _ (.row _) => true
  | .mapped source _ => source.isRow
  | _ => false

/-- A single column of the row that a reference spreads: of the same step and row, through the same
conversions. -/
def columnOf (label : String) : Reference → Reference
  | .fromStep id (.row index) => .fromStep id (.field (some label) index)
  | .mapped source convert => .mapped (source.columnOf label) convert
  | other => other

end Reference

/-- The rows that a step left. -/
def StepOutput.left : StepOutput → List Row
  | rows list => list
  | row found? => found?.toList
  | _ => []

namespace Progress

/-- The row that a reference spreads, as its step left it. -/
def rowOf? (p : Progress) : Reference → Option Row
  | .fromStep id (.row index) => ((p.output id).bind fun output => output.readRow id index).toOption
  | .mapped source _ => p.rowOf? source
  | _ => .none

/-- Rows that steps left have as many labels as cells. -/
def Aligned (p : Progress) : Prop :=
  ∀ id output, p.output id = .ok output → ∀ row ∈ output.left, row.labels.length = row.values.length

/-- Whether a reference spreads a row with a column of some name. -/
def HasColumn (p : Progress) (r : Reference) (label : String) : Prop :=
  ∃ row, p.rowOf? r = some row ∧ label ∈ row.labels

end Progress

/-! ## 2. Rows and their cells -/

/-- Pairing labels with cells finds what the position of a label finds. -/
theorem entryValue?_zip (label : String) (labels : List String) (values : List Value) :
    entryValue? label (labels.zip values)
      = (labels.findIdx? (· == label)).bind fun i => values[i]? := by
  induction labels generalizing values with
  | nil => rfl
  | cons first rest ih =>
    rw [List.findIdx?_cons]
    rcases values with _ | ⟨v, others⟩
    · simp [entryValue?]
    · rw [List.zip_cons_cons, entryValue?, ih]
      by_cases own : first = label
      · simp [own]
      · rw [if_neg own, if_neg (by simpa using own), Option.bind_map]
        rfl

theorem get?_columns (row : Row) (label : String) :
    entryValue? label row.columns = row.get? label :=
  entryValue?_zip label row.labels row.values

theorem labels_columns {row : Row} (aligned : row.labels.length = row.values.length) :
    row.columns.map (·.1) = row.labels :=
  List.map_fst_zip (Nat.le_of_eq aligned)

namespace StepOutput

variable {id : StepId} {output : StepOutput} {index : Nat} {row : Row}

theorem mem_left_of_readRow (found : output.readRow id index = .ok row) : row ∈ output.left := by
  cases output with
  | rows list =>
    rw [readRow, selectRow] at found
    split at found
    · rename_i there
      cases found
      exact List.mem_of_getElem? there
    · cases found
  | row row? =>
    cases row? with
    | none => cases found
    | some row' =>
      rw [readRow] at found
      split at found
      · cases found
      · cases found
        exact List.mem_singleton.2 rfl
  | scalar v => cases found
  | column values => cases found
  | count n => cases found

/-- A single cell is read from the row that would be spread. -/
theorem readField_of_readRow (found : output.readRow id index = .ok row) (column? : Option String) :
    output.readField id column? index = cell id row column? := by
  cases output with
  | rows list =>
    rw [readRow] at found
    rw [readField, found]
    rfl
  | row row? =>
    cases row? with
    | none => cases found
    | some row' =>
      rw [readRow] at found
      rw [readField]
      split
      · rename_i other
        rw [if_pos other] at found
        cases found
      · rename_i here
        rw [if_neg here] at found
        cases found
        rfl
  | scalar v => cases found
  | column values => cases found
  | count n => cases found

end StepOutput

/-! ## 3. Resolving one reference -/

namespace Progress

variable {p : Progress}

theorem map_fst_mapColumns {convert : Value → Except Error Value}
    {columns columns' : List (String × Value)} (h : mapColumns convert columns = .ok columns') :
    columns'.map (·.1) = columns.map (·.1) := by
  induction columns generalizing columns' with
  | nil =>
    cases h
    rfl
  | cons column rest ih =>
    obtain ⟨first, -, h⟩ := bind_eq_ok_iff.1 h
    obtain ⟨others, behind, h⟩ := bind_eq_ok_iff.1 h
    cases h
    rw [List.map_cons, List.map_cons, ih behind]

/-- A converted cell comes from the cell of the same column. -/
theorem entryValue?_mapColumns {convert : Value → Except Error Value}
    {columns columns' : List (String × Value)} (h : mapColumns convert columns = .ok columns')
    {label : String} {v' : Value} (found : entryValue? label columns' = some v') :
    ∃ v, entryValue? label columns = some v ∧ convert v = .ok v' := by
  induction columns generalizing columns' with
  | nil =>
    cases h
    cases found
  | cons column rest ih =>
    obtain ⟨first, one, h⟩ := bind_eq_ok_iff.1 h
    obtain ⟨others, behind, h⟩ := bind_eq_ok_iff.1 h
    cases h
    rw [entryValue?] at found ⊢
    split at found
    · rename_i own
      cases found
      exact ⟨column.2, if_pos own, one⟩
    · rename_i other
      rw [if_neg other]
      exact ih behind found

/-- A reference that spreads a row resolves to columns, and only such a one does. -/
theorem isRow_of_resolve {r : Reference} {resolved : Resolved} (h : p.resolve r = .ok resolved) :
    r.isRow = true ↔ ∃ columns, resolved = .row columns := by
  induction r generalizing resolved with
  | value v =>
    cases h
    simp [Reference.isRow]
  | fromStep id part =>
    obtain ⟨output, left, h⟩ := bind_eq_ok_iff.1 h
    cases part with
    | field column? index =>
      obtain ⟨v, -, rfl⟩ := map_eq_ok h
      simp [Reference.isRow]
    | column column? =>
      obtain ⟨values, -, rfl⟩ := map_eq_ok h
      simp [Reference.isRow]
    | row index =>
      obtain ⟨row, -, rfl⟩ := map_eq_ok h
      exact ⟨fun _ => ⟨_, rfl⟩, fun _ => rfl⟩
  | mapped source convert ih =>
    obtain ⟨resolved₀, one, h⟩ := bind_eq_ok_iff.1 h
    rw [Reference.isRow, ih one]
    cases resolved₀ with
    | value v =>
      obtain ⟨v', -, rfl⟩ := map_eq_ok h
      simp
    | row columns₀ =>
      obtain ⟨columns', -, rfl⟩ := map_eq_ok h
      exact ⟨fun _ => ⟨_, rfl⟩, fun _ => ⟨_, rfl⟩⟩

theorem isRow_of_value {r : Reference} {v : Value} (h : p.resolve r = .ok (.value v)) :
    r.isRow = false := by
  refine Bool.eq_false_iff.2 fun spreads => ?_
  obtain ⟨columns, same⟩ := (isRow_of_resolve h).1 spreads
  cases same

/-- The columns that a reference resolves to are those of its row. -/
theorem rowOf_of_resolve {r : Reference} {columns : List (String × Value)}
    (h : p.resolve r = .ok (.row columns)) :
    ∃ row, p.rowOf? r = some row ∧ columns.map (·.1) = row.columns.map (·.1) := by
  induction r generalizing columns with
  | value v => cases h
  | fromStep id part =>
    obtain ⟨output, left, h⟩ := bind_eq_ok_iff.1 h
    cases part with
    | field column? index =>
      obtain ⟨v, -, same⟩ := map_eq_ok h
      cases same
    | column column? =>
      obtain ⟨values, -, same⟩ := map_eq_ok h
      cases same
    | row index =>
      obtain ⟨row, found, same⟩ := map_eq_ok h
      cases same
      refine ⟨row, ?_, rfl⟩
      rw [rowOf?, left]
      show (output.readRow id index).toOption = _
      rw [found]
      rfl
  | mapped source convert ih =>
    obtain ⟨resolved, one, h⟩ := bind_eq_ok_iff.1 h
    cases resolved with
    | value v =>
      obtain ⟨v', -, same⟩ := map_eq_ok h
      cases same
    | row columns₀ =>
      obtain ⟨columns', converted, same⟩ := map_eq_ok h
      cases same
      obtain ⟨row, found, names⟩ := ih one
      exact ⟨row, found, (map_fst_mapColumns converted).trans names⟩

/-- A column of a spread row is what the reference to this column alone resolves to. The induction is on
the conversions. -/
theorem resolve_columnOf {r : Reference} {columns : List (String × Value)}
    (h : p.resolve r = .ok (.row columns)) {label : String} {v : Value}
    (found : entryValue? label columns = some v) : p.resolve (r.columnOf label) = .ok (.value v) := by
  induction r generalizing columns v with
  | value v => cases h
  | fromStep id part =>
    obtain ⟨output, left, h⟩ := bind_eq_ok_iff.1 h
    cases part with
    | field column? index =>
      obtain ⟨v, -, same⟩ := map_eq_ok h
      cases same
    | column column? =>
      obtain ⟨values, -, same⟩ := map_eq_ok h
      cases same
    | row index =>
      obtain ⟨row, read, same⟩ := map_eq_ok h
      cases same
      rw [get?_columns] at found
      rw [Reference.columnOf, resolve, left]
      show (output.readField id (some label) index).map _ = _
      rw [StepOutput.readField_of_readRow read, StepOutput.cell]
      simp only [found]
      rfl
  | mapped source convert ih =>
    obtain ⟨resolved, one, h⟩ := bind_eq_ok_iff.1 h
    cases resolved with
    | value v =>
      obtain ⟨v', -, same⟩ := map_eq_ok h
      cases same
    | row columns₀ =>
      obtain ⟨columns', converted, same⟩ := map_eq_ok h
      cases same
      obtain ⟨v₀, there, here⟩ := entryValue?_mapColumns converted found
      rw [Reference.columnOf, resolve, ih one there]
      show (convert v₀).map _ = _
      rw [here]
      rfl

theorem Aligned.of_outputs
    (h : ∀ entry ∈ p.outputs, ∀ row ∈ entry.2.left, row.labels.length = row.values.length) :
    p.Aligned := by
  intro id output left
  rw [Progress.output, output?] at left
  rcases found : p.outputs.find? (·.1 == id) with _ | entry
  · rw [found] at left
    dsimp only [Option.map_none] at left
    split at left
    · cases left
    · cases left
  · rw [found] at left
    cases left
    exact h entry (List.mem_of_find?_eq_some found)

theorem Aligned.of_rowOf (aligned : p.Aligned) {r : Reference} {row : Row} (h : p.rowOf? r = some row) :
    row.labels.length = row.values.length := by
  induction r with
  | value v => cases h
  | fromStep id part =>
    cases part with
    | field column? index => cases h
    | column column? => cases h
    | row index =>
      rw [rowOf?] at h
      rcases read : (p.output id).bind (fun output => output.readRow id index) with e | row'
      · rw [read] at h
        cases h
      rw [read] at h
      cases h
      obtain ⟨output, left, found⟩ := bind_eq_ok_iff.1 read
      exact aligned id output left row (StepOutput.mem_left_of_readRow found)
  | mapped source convert ih => exact ih h

/-- Only a reference that spreads a row has columns. -/
theorem HasColumn.isRow {r : Reference} {label : String} (h : p.HasColumn r label) : r.isRow = true := by
  obtain ⟨row, found, -⟩ := h
  induction r with
  | value v => cases found
  | fromStep id part =>
    cases part with
    | field column? index => cases found
    | column column? => cases found
    | row index => rfl
  | mapped source convert ih => exact ih found

theorem not_hasColumn_of_value {r : Reference} {v : Value} (h : p.resolve r = .ok (.value v))
    (label : String) : ¬ p.HasColumn r label := fun has => by
  have spreads := has.isRow
  rw [isRow_of_value h] at spreads
  cases spreads

/-- The columns of a resolved row are the labels of the row that was left. -/
theorem hasColumn_iff (aligned : p.Aligned) {r : Reference} {columns : List (String × Value)}
    (h : p.resolve r = .ok (.row columns)) (label : String) :
    p.HasColumn r label ↔ label ∈ columns.map (·.1) := by
  obtain ⟨row, found, names⟩ := rowOf_of_resolve h
  rw [names, labels_columns (aligned.of_rowOf found)]
  constructor
  · rintro ⟨row', found', there⟩
    cases found.symm.trans found'
    exact there
  · exact fun there => ⟨row, found, there⟩

/-! ## 4. Resolving all of them -/

/-- What the first of several parameters adds: a value of its own, or the columns of its row in front of
those behind it. -/
theorem resolveAll_cons {name : String} {r : Reference} {rest : List (String × Reference)}
    {values spread : List (String × Value)}
    (h : p.resolveAll ((name, r) :: rest) = .ok (values, spread)) :
    ∃ values' spread', p.resolveAll rest = .ok (values', spread') ∧
      ((∃ v, p.resolve r = .ok (.value v) ∧ values = (name, v) :: values' ∧ spread = spread') ∨
        ∃ columns, p.resolve r = .ok (.row columns) ∧ values = values' ∧ spread = columns ++ spread') := by
  obtain ⟨resolved, one, h⟩ := bind_eq_ok_iff.1 h
  obtain ⟨⟨values', spread'⟩, behind, h⟩ := bind_eq_ok_iff.1 h
  refine ⟨values', spread', behind, ?_⟩
  cases resolved with
  | value v =>
    cases h
    exact .inl ⟨v, one, rfl, rfl⟩
  | row columns =>
    cases h
    exact .inr ⟨columns, one, rfl, rfl⟩

variable {entries : List (String × Reference)} {values spread : List (String × Value)}

/-- Every parameter resolves where all of them do. -/
theorem resolve_of_resolveAll (h : p.resolveAll entries = .ok (values, spread)) {name : String}
    {r : Reference} (mem : (name, r) ∈ entries) : ∃ resolved, p.resolve r = .ok resolved := by
  induction entries generalizing values spread with
  | nil => cases mem
  | cons entry rest ih =>
    obtain ⟨values', spread', behind, one⟩ := resolveAll_cons h
    rcases List.mem_cons.1 mem with rfl | mem
    · rcases one with ⟨v, one, -⟩ | ⟨columns, one, -⟩
      · exact ⟨_, one⟩
      · exact ⟨_, one⟩
    · exact ih behind mem

/-- The values are those of the parameters that resolve to one, under their own names. -/
theorem mem_values_iff (h : p.resolveAll entries = .ok (values, spread)) (name : String) (v : Value) :
    (name, v) ∈ values ↔ ∃ r, (name, r) ∈ entries ∧ p.resolve r = .ok (.value v) := by
  induction entries generalizing values spread with
  | nil =>
    cases h
    simp
  | cons entry rest ih =>
    obtain ⟨own, first⟩ := entry
    obtain ⟨values', spread', behind, one⟩ := resolveAll_cons h
    simp only [List.mem_cons, Prod.mk.injEq, or_and_right, exists_or, and_assoc, exists_and_left,
      exists_eq_left, ← ih behind]
    rcases one with ⟨v₁, one, rfl, -⟩ | ⟨columns, one, rfl, -⟩
    · simp [one, eq_comm]
    · simp [one]

/-- Names of values rise as the parameters do. -/
theorem keysRise_values (h : p.resolveAll entries = .ok (values, spread)) (rise : KeysRise entries) :
    KeysRise values := by
  have kept : (values.map (·.1)).Sublist (entries.map (·.1)) := by
    clear rise
    induction entries generalizing values spread with
    | nil =>
      cases h
      exact .slnil
    | cons entry rest ih =>
      obtain ⟨values', spread', behind, one⟩ := resolveAll_cons h
      rcases one with ⟨v, -, rfl, -⟩ | ⟨columns, -, rfl, -⟩
      · exact (ih behind).cons_cons entry.1
      · exact (ih behind).cons entry.1
  have above : (entries.map (·.1)).Pairwise (· < ·) := List.pairwise_map.2 rise
  exact List.pairwise_map.1 (above.sublist kept)

/-- The spread columns are those of the rows that the parameters refer to. -/
theorem mem_spread_iff (aligned : p.Aligned) (h : p.resolveAll entries = .ok (values, spread))
    (label : String) :
    label ∈ spread.map (·.1) ↔ ∃ entry ∈ entries, p.HasColumn entry.2 label := by
  induction entries generalizing values spread with
  | nil =>
    cases h
    simp
  | cons entry rest ih =>
    obtain ⟨values', spread', behind, one⟩ := resolveAll_cons h
    simp only [List.mem_cons, exists_eq_or_imp, ← ih behind]
    rcases one with ⟨v, one, -, rfl⟩ | ⟨columns, one, -, rfl⟩
    · exact (or_iff_right (not_hasColumn_of_value one label)).symm
    · rw [List.map_append, List.mem_append, hasColumn_iff aligned one]

/-- A spread column stands for the first row that has it. The induction is on the parameters, whose rows
are spread one after the other. -/
theorem first_of_spread (aligned : p.Aligned) (h : p.resolveAll entries = .ok (values, spread))
    {label : String} {v : Value} (found : entryValue? label spread = some v) :
    ∃ before name r after, entries = before ++ (name, r) :: after ∧
      (∀ entry ∈ before, ¬ p.HasColumn entry.2 label) ∧ p.HasColumn r label ∧
      p.resolve (r.columnOf label) = .ok (.value v) := by
  induction entries generalizing values spread with
  | nil =>
    cases h
    cases found
  | cons entry rest ih =>
    obtain ⟨name, r⟩ := entry
    obtain ⟨values', spread', behind, one⟩ := resolveAll_cons h
    -- Where the row in front lacks the column, the column is that of a row behind it.
    have further (bare : ¬ p.HasColumn r label) (later : entryValue? label spread' = some v) :
        ∃ before name' r' after, (name, r) :: rest = before ++ (name', r') :: after ∧
          (∀ entry ∈ before, ¬ p.HasColumn entry.2 label) ∧ p.HasColumn r' label ∧
          p.resolve (r'.columnOf label) = .ok (.value v) := by
      obtain ⟨before, name', r', after, split, without, has, reads⟩ := ih behind later
      exact ⟨(name, r) :: before, name', r', after, congrArg _ split,
        List.forall_mem_cons.2 ⟨bare, without⟩, has, reads⟩
    rcases one with ⟨v₁, one, -, rfl⟩ | ⟨columns, one, -, rfl⟩
    · exact further (not_hasColumn_of_value one label) found
    · have column := hasColumn_iff aligned one label
      rw [entryValue?_append] at found
      rcases here : entryValue? label columns with _ | v₁
      · rw [here, Option.none_or] at found
        refine further (fun has => ?_) found
        obtain ⟨v₁, there⟩ := exists_entryValue?.2 (column.1 has)
        cases here.symm.trans there
      · rw [here, Option.some_or] at found
        cases found
        exact ⟨[], name, r, rest, rfl, List.forall_mem_nil _, column.2 (exists_entryValue?.1 ⟨_, here⟩),
          resolve_columnOf one here⟩

/-- A parameter that spreads no row has its own value. -/
theorem value_of_bare (rise : KeysRise entries) (h : p.resolveAll entries = .ok (values, spread))
    {name : String} {r : Reference} (there : entryValue? name entries = some r)
    (bare : r.isRow = false) : ∃ v, p.resolve r = .ok (.value v) ∧ entryValue? name values = some v := by
  have mem := mem_of_entryValue? there
  obtain ⟨resolved, one⟩ := resolve_of_resolveAll h mem
  cases resolved with
  | value v =>
    exact ⟨v, one, entryValue?_of_mem (keysRise_values h rise) ((mem_values_iff h name v).2 ⟨r, mem, one⟩)⟩
  | row columns =>
    rw [(isRow_of_resolve one).2 ⟨columns, rfl⟩] at bare
    cases bare

/-- Only such a parameter has a value. -/
theorem no_value_of_rows (rise : KeysRise entries) (h : p.resolveAll entries = .ok (values, spread))
    {name : String} (rows : ∀ r, entryValue? name entries = some r → r.isRow = true) :
    entryValue? name values = .none := by
  rcases found : entryValue? name values with _ | v
  · rfl
  · obtain ⟨r, mem, one⟩ := (mem_values_iff h name v).1 (mem_of_entryValue? found)
    have spreads := rows r (entryValue?_of_mem rise mem)
    rw [isRow_of_value one] at spreads
    cases spreads

/-- Values count before spread columns, and of those the first. -/
theorem resolveParams_get? {params : StepParams} {result : Params}
    (h : p.resolveParams params = .ok result) :
    ∃ values spread, p.resolveAll params.entries = .ok (values, spread) ∧
      ∀ name, result.get? name = (entryValue? name values).or (entryValue? name spread) := by
  obtain ⟨⟨values, spread⟩, all, h⟩ := bind_eq_ok_iff.1 h
  cases h
  refine ⟨values, spread, all, fun name => ?_⟩
  rw [Dict.get?_foldl_insertNew, Dict.ofList, Dict.get?_insertAll _ (keysRise_values all params.rise),
    Dict.get?_empty, Option.or_none]

end Progress

/-! ## 5. The parameters of a step -/

/-- **A spread row stands for its columns read one by one.** The parameters of a step, once resolved, bind
the names of those that spread no row and the labels of the rows that are spread. The former keep their
own values. Any other name has the value of the first row, by the names of the parameters, with a column of
this name, which is the value that a reference to this column alone resolves to, through the same
conversions. The name of a parameter that spreads a row is bound only as such a column. -/
theorem spread_resolves_as_fields {p : Progress} (aligned : p.Aligned) {params : StepParams}
    {result : Params} (h : p.resolveParams params = .ok result) :
    (∀ x, result.contains x = true ↔
      (∃ r, params.get? x = some r ∧ r.isRow = false) ∨
        ∃ name r, params.get? name = some r ∧ p.HasColumn r x) ∧
    (∀ x r, params.get? x = some r → r.isRow = false →
      ∃ v, p.resolve r = .ok (.value v) ∧ result.get? x = some v) ∧
    (∀ x v, result.get? x = some v → (∀ r, params.get? x = some r → r.isRow = true) →
      ∃ before name r after, params.entries = before ++ (name, r) :: after ∧
        (∀ entry ∈ before, ¬ p.HasColumn entry.2 x) ∧ p.HasColumn r x ∧
        p.resolve (r.columnOf x) = .ok (.value v)) ∧
    ∀ x r, params.get? x = some r → r.isRow = true → result.contains x = true →
      ∃ name r', params.get? name = some r' ∧ p.HasColumn r' x := by
  obtain ⟨values, spread, all, reads⟩ := p.resolveParams_get? h
  have own (x : String) (r : Reference) (there : params.get? x = some r) (bare : r.isRow = false) :
      ∃ v, p.resolve r = .ok (.value v) ∧ result.get? x = some v := by
    obtain ⟨v, one, found⟩ := p.value_of_bare params.rise all there bare
    exact ⟨v, one, by rw [reads, found, Option.some_or]⟩
  -- A name without a value of its own has that of a spread column, if any.
  have others (x : String) (rows : ∀ r, params.get? x = some r → r.isRow = true) :
      result.get? x = entryValue? x spread := by
    rw [reads, p.no_value_of_rows params.rise all rows, Option.none_or]
  have columns (x : String) :
      x ∈ spread.map (·.1) ↔ ∃ name r, params.get? name = some r ∧ p.HasColumn r x := by
    rw [p.mem_spread_iff aligned all]
    constructor
    · rintro ⟨⟨name, r⟩, mem, has⟩
      exact ⟨name, r, entryValue?_of_mem params.rise mem, has⟩
    · rintro ⟨name, r, there, has⟩
      exact ⟨(name, r), mem_of_entryValue? there, has⟩
  have binds (x : String) : result.contains x = true ↔
      (∃ r, params.get? x = some r ∧ r.isRow = false) ∨
        ∃ name r, params.get? name = some r ∧ p.HasColumn r x := by
    by_cases bare : ∃ r, params.get? x = some r ∧ r.isRow = false
    · obtain ⟨r, there, kept⟩ := bare
      obtain ⟨v, -, found⟩ := own x r there kept
      rw [Dict.contains, found]
      exact ⟨fun _ => .inl ⟨r, there, kept⟩, fun _ => rfl⟩
    · have rows (r : Reference) (there : params.get? x = some r) : r.isRow = true :=
        eq_true_of_ne_false fun kept => bare ⟨r, there, kept⟩
      rw [Dict.contains, others x rows, Option.isSome_iff_exists, exists_entryValue?, columns,
        or_iff_right bare]
  refine ⟨binds, own, fun x v found rows => ?_, fun x r there spreads bound => ?_⟩
  · exact p.first_of_spread aligned all ((others x rows).symm.trans found)
  · refine ((binds x).1 bound).resolve_left ?_
    rintro ⟨r', there', bare⟩
    cases there.symm.trans there'
    rw [spreads] at bare
    cases bare

/-- Two steps that ran: one left rows with a label twice, the other a single row. -/
def bothRan : Progress where
  planned := []
  outputs :=
    [(⟨0⟩, .rows [⟨["id", "label", "id"], [], [.int64 1, .text "Kitchen", .int64 2]⟩]),
      (⟨1⟩, .row (some ⟨["label", "zone", "far"], [], [.text "Office", .text "north", .null]⟩))]

/-- Both rows spread, one of them through a conversion, beside a value under a name of a column. -/
def bothSpread : StepParams :=
  Dict.ofList [("far", .rowOf ⟨1⟩), ("a", .mapped (.rowOf ⟨0⟩) fun v => .ok (.array [v])),
    ("zone", .value (.text "south"))]

/-- Parameters that compete for every name: `id` is the first of two cells, `label` is that of the
parameter in front, `zone` keeps its own value, and `far`, which spreads a row, is bound as a column. -/
theorem spread_resolves_as_fields_bothRan :
    bothRan.Aligned ∧ ∃ result, bothRan.resolveParams bothSpread = .ok result ∧
      result.entries = [("far", .null), ("id", .array [.int64 1]), ("label", .array [.text "Kitchen"]),
        ("zone", .text "south")] ∧
      (∃ before name r after, bothSpread.entries = before ++ (name, r) :: after ∧
        (∀ entry ∈ before, ¬ bothRan.HasColumn entry.2 "label") ∧ bothRan.HasColumn r "label" ∧
        bothRan.resolve (r.columnOf "label") = .ok (.value (.array [.text "Kitchen"]))) ∧
      ∃ name r, bothSpread.get? name = some r ∧ bothRan.HasColumn r "far" := by
  have aligned : bothRan.Aligned := .of_outputs (by decide)
  have resolved : ∃ result, bothRan.resolveParams bothSpread = .ok result ∧
      result.entries = [("far", .null), ("id", .array [.int64 1]), ("label", .array [.text "Kitchen"]),
        ("zone", .text "south")] := ⟨_, rfl, by rfl⟩
  obtain ⟨result, resolved, entries⟩ := resolved
  obtain ⟨-, -, first, bound⟩ := spread_resolves_as_fields aligned resolved
  have found (x : String) : result.get? x = entryValue? x result.entries := rfl
  rw [entries] at found
  refine ⟨aligned, result, resolved, entries, ?_, ?_⟩
  · exact first "label" (.array [.text "Kitchen"]) (found _) fun r there => by cases there
  · exact bound "far" (.rowOf ⟨1⟩) rfl rfl (by rw [Dict.contains, found]; rfl)

end TypedStore
