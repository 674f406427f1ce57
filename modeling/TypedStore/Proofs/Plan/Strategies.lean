/-
What the fetch strategies make of one answer. All of them send the same statement, and where fetching
every row succeeds, the others leave parts of the same rows: the first row, its first cell, or the first
cell of every row (`left_of_rows`). The strategies for one row see no more of a stream than its first item
(`left_of_firstRow`). Later steps read the same from either outcome, as far as both have what they read
(`readAlike`).
-/
import TypedStore.Proofs.Plan.Propagation

set_option autoImplicit false

namespace TypedStore

variable {σ σ' τ τ' : Type}

/-! ## 1. What strategies leave -/

/-- What a strategy leaves of a statement on a store in some state. -/
def leftBy (store : Store σ τ) (t : τ) (s : σ) (r : Registry) (sql : String) (params : Params)
    (strategy : Strategy) (log : List LogRecord) : Except Error StepOutput :=
  ((performStatement store t r sql params strategy).perform ⟨s, log⟩).1

/-- The answer of a store in some state to every statement that is fetched, whatever was logged. -/
def AnswersFetches (store : Store σ τ) (t : τ) (s : σ) (answer : Query → Except Error RowStream) :
    Prop :=
  ∀ q log, ((store.fetch t q).perform ⟨s, log⟩).1 = answer q

/-- What a strategy keeps of the answer to a statement that it fetches. One strategy fetches nothing. -/
def Strategy.kept? (r : Registry) (q : Query) (found : Except Error RowStream) :
    Strategy → Option (Except Error StepOutput)
  | .rows => some (((found.bind RowStream.allRows).mapError q.reported).bind (keepRows r))
  | .row => some (((found.bind RowStream.firstRow).mapError q.reported).bind (keepRow r))
  | .scalar => some (((found.bind RowStream.firstRow).mapError q.reported).bind (keepCell r))
  | .scalarColumn => some (((found.bind RowStream.allRows).mapError q.reported).bind (keepColumn r))
  | .execute => none

/-- A strategy that fetches makes one call for it. -/
theorem Answered.kept {r : Registry} {t : τ} {q : Query} {strategy : Strategy} {call : Exchange τ}
    {output : Except Error StepOutput} (answered : Answered r t q strategy call output)
    (fetches : strategy ≠ .execute) :
    ∃ found, call = .fetch t q found ∧ strategy.kept? r q found = some output := by
  cases answered with
  | execute => exact absurd rfl fetches
  | rows found => exact ⟨found, rfl, rfl⟩
  | row found => exact ⟨found, rfl, rfl⟩
  | scalar found => exact ⟨found, rfl, rfl⟩
  | scalarColumn found => exact ⟨found, rfl, rfl⟩

variable {store : Store σ τ} {t : τ} {s : σ} {answer : Query → Except Error RowStream}

/-- A statement that is bound is fetched once, and its strategy keeps its part of the answer. -/
theorem leftBy_eq (answers : AnswersFetches store t s answer) {r : Registry} {strategy : Strategy}
    {keep : Query → Except Error StepOutput}
    (kept : ∀ q, strategy.kept? r q (answer q) = some (keep q)) (sql : String) (params : Params)
    (log : List LogRecord) :
    leftBy store t s r sql params strategy log = (boundQuery r sql params).bind keep := by
  obtain ⟨left, s', log', calls, performed, -, reaches, ran⟩ :=
    (Follows.of_performStatement t r sql params strategy : Follows store _ _ _) s log []
  rw [leftBy, performed]
  rcases ran with ⟨e, refused, -, rfl⟩ | ⟨q, call, bound, rfl, answered⟩
  · rw [refused]
    rfl
  · have fetches : strategy ≠ .execute := by
      rintro rfl
      cases kept q
    obtain ⟨found, rfl, same⟩ := answered.kept fetches
    -- the call that was made got the answer of the store
    obtain _ | ⟨⟨before, after, fetched⟩, -⟩ := reaches
    have given := answers q before
    rw [fetched] at given
    obtain rfl : found = answer q := given
    rw [kept q] at same
    rw [bound]
    exact (Option.some.inj same).symm

/-! ## 2. Parts of the same rows -/

theorem allRows_eq_ok {stream : RowStream} {rows : List Row} (h : stream.allRows = .ok rows) :
    stream.rows = rows ∧ stream.ending = .ok () := by
  obtain ⟨_, ends, same⟩ := bind_eq_ok_iff.1 h
  exact ⟨Except.ok.inj same, ends⟩

/-- Where all rows are there, the first of them is the first item. -/
theorem firstRow_of_allRows {stream : RowStream} {rows : List Row} (h : stream.allRows = .ok rows) :
    stream.firstRow = .ok rows.head? := by
  obtain ⟨rfl, ends⟩ := allRows_eq_ok h
  unfold RowStream.firstRow
  rcases stream.rows with _ | ⟨row, rest⟩
  · rw [ends]
    rfl
  · rfl

theorem head?_of_mapM {α β : Type} {f : α → Except Error β} {as : List α} {bs : List β}
    (h : as.mapM f = .ok bs) :
    (as.head? = none ∧ bs.head? = none) ∨ ∃ a b, as.head? = some a ∧ bs.head? = some b ∧ f a = .ok b := by
  cases as with
  | nil =>
    cases h
    exact .inl ⟨rfl, rfl⟩
  | cons a rest =>
    obtain ⟨b, others, one, -, rfl⟩ := mapM_cons_eq_ok h
    exact .inr ⟨a, b, rfl, rfl, one⟩

/-- Rows that all strategies leave their parts of. -/
structure LeavesParts (store : Store σ τ) (t : τ) (s : σ) (r : Registry) (sql : String)
    (params : Params) (rows : List Row) : Prop where
  row : ∀ log, leftBy store t s r sql params .row log = .ok (.row rows.head?)
  scalar : ∀ log,
    leftBy store t s r sql params .scalar log = .ok (.scalar ((rows.head?.map firstCell).getD .null))
  scalarColumn : ∀ log,
    leftBy store t s r sql params .scalarColumn log = .ok (.column (rows.map firstCell))

theorem left_of_rows (answers : AnswersFetches store t s answer) {r : Registry} {sql : String}
    {params : Params} {rows : List Row} {log : List LogRecord}
    (left : leftBy store t s r sql params .rows log = .ok (.rows rows)) :
    LeavesParts store t s r sql params rows := by
  rw [leftBy_eq answers (fun _ => rfl)] at left
  obtain ⟨q, bound, left⟩ := bind_eq_ok_iff.1 left
  obtain ⟨found, whole, left⟩ := bind_eq_ok_iff.1 left
  obtain ⟨rows', normal, same⟩ := bind_eq_ok_iff.1 left
  cases same
  -- the stream has all rows and no failure behind them
  obtain ⟨stream, fetched, all⟩ := bind_eq_ok_iff.1 (mapError_eq_ok whole)
  have first : ((answer q).bind RowStream.firstRow).mapError q.reported = .ok found.head? := by
    rw [fetched]
    show stream.firstRow.mapError q.reported = _
    rw [firstRow_of_allRows all]
    rfl
  refine ⟨fun log => ?_, fun log => ?_, fun log => ?_⟩
  all_goals rw [leftBy_eq answers (fun _ => rfl), bound]
  · show (((answer q).bind RowStream.firstRow).mapError q.reported).bind (keepRow r) = _
    rw [first]
    show keepRow r found.head? = _
    rcases head?_of_mapM normal with ⟨none_, none'⟩ | ⟨row, row', here, here', one⟩
    · rw [none_, none']
      rfl
    · rw [here, here', keepRow, one]
      rfl
  · show (((answer q).bind RowStream.firstRow).mapError q.reported).bind (keepCell r) = _
    rw [first]
    show keepCell r found.head? = _
    rcases head?_of_mapM normal with ⟨none_, none'⟩ | ⟨row, row', here, here', one⟩
    · rw [none_, none']
      rfl
    · rw [here, here', keepCell, one]
      rfl
  · show (((answer q).bind RowStream.allRows).mapError q.reported).bind (keepColumn r) = _
    rw [whole]
    show keepColumn r found = _
    rw [keepColumn, normal]
    rfl

/-- The strategies for one row depend on the first item of the stream only: the first row, the end, or a
failure in front of both. -/
theorem left_of_firstRow {store' : Store σ' τ'} {t' : τ'} {s' : σ'}
    {answer' : Query → Except Error RowStream} (answers : AnswersFetches store t s answer)
    (answers' : AnswersFetches store' t' s' answer')
    (first : ∀ q, (answer' q).bind RowStream.firstRow = (answer q).bind RowStream.firstRow)
    (r : Registry) (sql : String) (params : Params) (log log' : List LogRecord) :
    leftBy store' t' s' r sql params .row log' = leftBy store t s r sql params .row log
      ∧ leftBy store' t' s' r sql params .scalar log' = leftBy store t s r sql params .scalar log := by
  constructor
  all_goals
    rw [leftBy_eq answers (fun _ => rfl), leftBy_eq answers' (fun _ => rfl)]
    simp only [first]

/-! ## 3. Reading the parts -/

/-- Outcomes of a step from which later references read the same, value or failure: all rows on the one
hand, and what the other strategies leave of them on the other. -/
structure ReadAlike (rows : List Row) : Prop where
  /-- Where every row has a column. -/
  scalarColumn : (∀ row ∈ rows, row.values ≠ []) → ∀ {p p' : Progress} {id : StepId},
    p.output id = .ok (.rows rows) → p'.output id = .ok (.column (rows.map firstCell)) →
    p.resolve (.valueOf id) = p'.resolve (.valueOf id)
      ∧ (∀ i, p.resolve (.fromStep id (.field none i)) = p'.resolve (.fromStep id (.field none i)))
      ∧ p.resolve (.fromStep id (.column none)) = p'.resolve (.fromStep id (.column none))
  /-- Where there is a row. -/
  row : rows ≠ [] → ∀ {p p' : Progress} {id : StepId},
    p.output id = .ok (.rows rows) → p'.output id = .ok (.row rows.head?) →
    p.resolve (.valueOf id) = p'.resolve (.valueOf id)
      ∧ (∀ column, p.resolve (.fieldOf id column) = p'.resolve (.fieldOf id column))
      ∧ p.resolve (.rowOf id) = p'.resolve (.rowOf id)
  /-- Where the first row has a first cell that is not NULL. -/
  scalar : ∀ {first : Row}, rows.head? = some first → first.values ≠ [] →
    (firstCell first).isNull = false → ∀ {p p' : Progress} {id : StepId},
    p.output id = .ok (.rows rows) →
    p'.output id = .ok (.scalar ((rows.head?.map firstCell).getD .null)) →
    p.resolve (.valueOf id) = p'.resolve (.valueOf id)

theorem resolve_fromStep {p : Progress} {id : StepId} {output : StepOutput}
    (left : p.output id = .ok output) (part : ResultPart) :
    p.resolve (.fromStep id part) = output.read id part := by
  rw [Progress.resolve, left]
  rfl

namespace StepOutput

theorem cell_first {row : Row} (some_ : row.values ≠ []) (id : StepId) :
    cell id row none = .ok (firstCell row) := by
  unfold cell firstCell
  rcases values : row.values with _ | ⟨v, rest⟩
  · exact absurd values some_
  · rfl

/-- The first cells of rows are the cells of their column. -/
theorem readField_column {rows : List Row} (some_ : ∀ row ∈ rows, row.values ≠ []) (id : StepId)
    (i : Nat) :
    readField id (.rows rows) none i = readField id (.column (rows.map firstCell)) none i := by
  simp only [readField, selectRow, Option.isSome_none, Bool.false_eq_true, if_false,
    List.getElem?_map, List.length_map]
  rcases here : rows[i]? with _ | row
  · rfl
  · exact cell_first (some_ row (List.mem_of_getElem? here)) id

theorem readColumn_column {rows : List Row} (some_ : ∀ row ∈ rows, row.values ≠ []) (id : StepId) :
    readColumn id (.rows rows) none = .ok (rows.map firstCell) := by
  show rows.mapM (fun row => cell id row none) = _
  induction rows with
  | nil => rfl
  | cons row rest ih =>
    rw [List.mapM_cons, cell_first (some_ row List.mem_cons_self),
      ih fun other mem => some_ other (List.mem_cons_of_mem _ mem)]
    rfl

end StepOutput

theorem readAlike (rows : List Row) : ReadAlike rows where
  scalarColumn some_ p p' id left left' := by
    have fields : ∀ i, p.resolve (.fromStep id (.field none i))
        = p'.resolve (.fromStep id (.field none i)) := by
      intro i
      rw [resolve_fromStep left, resolve_fromStep left', StepOutput.read, StepOutput.read,
        StepOutput.readField_column some_]
    refine ⟨fields 0, fields, ?_⟩
    rw [resolve_fromStep left, resolve_fromStep left', StepOutput.read, StepOutput.read,
      StepOutput.readColumn_column some_]
    rfl
  row some_ p p' id left left' := by
    rcases rows with _ | ⟨first, rest⟩
    · exact absurd rfl some_
    · refine ⟨?_, fun column => ?_, ?_⟩
      all_goals
        show p.resolve (.fromStep id _) = p'.resolve (.fromStep id _)
        rw [resolve_fromStep left, resolve_fromStep left']
        rfl
  scalar {first} head some_ full p p' id left left' := by
    rw [head] at left'
    rcases rows with _ | ⟨first', rest⟩
    · cases head
    · cases head
      show p.resolve (.fromStep id _) = p'.resolve (.fromStep id _)
      rw [resolve_fromStep left, resolve_fromStep left']
      show (StepOutput.cell id first none).map _
        = (StepOutput.readField id (.scalar (firstCell first)) none 0).map _
      rw [StepOutput.cell_first some_]
      simp [StepOutput.readField, full]

/-- **The strategy does not change what is read.** Let a store answer fetches with any streams. Whenever
fetching every row leaves rows, the other strategies leave the first of them, its first cell and the
first cell of each, with NULL where there is none, and later steps read the same from these as from the
rows. What the strategies for one row leave depends on the first item of the stream alone. -/
theorem strategies_agree (answers : AnswersFetches store t s answer) (r : Registry) (sql : String)
    (params : Params) :
    (∀ {rows : List Row} {log : List LogRecord},
        leftBy store t s r sql params .rows log = .ok (.rows rows) →
        LeavesParts store t s r sql params rows ∧ ReadAlike rows)
      ∧ ∀ {σ' τ' : Type} {store' : Store σ' τ'} {t' : τ'} {s' : σ'}
          {answer' : Query → Except Error RowStream}, AnswersFetches store' t' s' answer' →
        (∀ q, (answer' q).bind RowStream.firstRow = (answer q).bind RowStream.firstRow) →
        ∀ log log',
          leftBy store' t' s' r sql params .row log' = leftBy store t s r sql params .row log
            ∧ leftBy store' t' s' r sql params .scalar log'
              = leftBy store t s r sql params .scalar log :=
  ⟨fun left => ⟨left_of_rows answers left, readAlike _⟩,
    fun answers' first => left_of_firstRow answers answers' first r sql params⟩

/-- A row of an answer by rule, without types, so that its cells pass through. -/
def shelfRow (id : Int64) (label : String) : List ColumnTemplate :=
  [⟨"id", none, .value (.int64 id)⟩, ⟨"label", none, .value (.text label)⟩]

/-- A store by rule whose next answer has some rows and may break behind them. -/
def shelfStore (rows : List (List ColumnTemplate)) (break? : Option String) : ScriptedStore where
  tape := [⟨rows, none, none, break?⟩]
  rules := []
  refused := []
  catalog := .empty
  events := []
  committed := []
  transactions := []

/-- The number of rows that were left as such. -/
def rowCount? : StepOutput → Option Nat
  | .rows rows => some rows.length
  | _ => none

/-- Two rows that all strategies leave their parts of, and a store that breaks behind the first of them:
there fetching every row fails, and fetching one row leaves the same. -/
theorem strategies_agree_shelves :
    ∃ rows : List Row, rows.length = 2
      ∧ leftBy Scripted.store .connection (shelfStore [shelfRow 1 "Kitchen", shelfRow 2 "Office"] none)
          .empty "SELECT * FROM shelf" .empty .rows [] = .ok (.rows rows)
      ∧ LeavesParts Scripted.store .connection
          (shelfStore [shelfRow 1 "Kitchen", shelfRow 2 "Office"] none)
          .empty "SELECT * FROM shelf" .empty rows
      ∧ ReadAlike rows
      ∧ (leftBy Scripted.store .connection (shelfStore [shelfRow 1 "Kitchen"] (some "gone"))
          .empty "SELECT * FROM shelf" .empty .rows []).isOk = false
      ∧ leftBy Scripted.store .connection (shelfStore [shelfRow 1 "Kitchen"] (some "gone"))
          .empty "SELECT * FROM shelf" .empty .row [] = .ok (.row rows.head?) := by
  have answers : AnswersFetches Scripted.store .connection
      (shelfStore [shelfRow 1 "Kitchen", shelfRow 2 "Office"] none) _ := fun q log => rfl
  have answers' : AnswersFetches Scripted.store .connection
      (shelfStore [shelfRow 1 "Kitchen"] (some "gone")) _ := fun q log => rfl
  obtain ⟨agree, first⟩ := strategies_agree answers .empty "SELECT * FROM shelf" .empty
  have two : ((leftBy Scripted.store .connection
      (shelfStore [shelfRow 1 "Kitchen", shelfRow 2 "Office"] none)
      .empty "SELECT * FROM shelf" .empty .rows []).toOption.bind rowCount?) = some 2 := by
    decide +kernel
  rcases left : leftBy Scripted.store .connection
      (shelfStore [shelfRow 1 "Kitchen", shelfRow 2 "Office"] none)
      .empty "SELECT * FROM shelf" .empty .rows [] with e | output
  · rw [left] at two
    cases two
  · rw [left] at two
    cases output with
    | rows rows =>
      obtain ⟨parts, alike⟩ := agree left
      refine ⟨rows, Option.some.inj two, rfl, parts, alike, by decide +kernel, ?_⟩
      rw [(first answers' (fun q => rfl) [] []).1]
      exact parts.row []
    | row _ => cases two
    | scalar _ => cases two
    | column _ => cases two
    | count _ => cases two

end TypedStore
