/-
Types of several schemas. A name is unique within a schema only, and a catalog has no schemas. A server
lists the members of the types of some schemas by name and then by sort key, and neighbours of one name
become one type (`groups_of_rise`), so types that share a name across the schemas are merged, with
their members in turns. A catalog describes the types of its schemas if and only if no two of them share a
name (`loadCatalog_describes_iff`).
-/
import Mathlib.Data.List.Nodup
import TypedStore.Proofs.Server.Duty
import TypedStore.Proofs.Text.Encoding
import TypedStore.Server.Catalog

set_option autoImplicit false

namespace TypedStore.Server

open TypedStore.Text TypedStore.Wire

variable {α β : Type}

/-! ## 1. Neighbours of one name -/

/-- What stands under a name, in its order. -/
def under (name : String) (rows : List (String × α)) : List α :=
  (rows.filter fun row => row.1 = name).map (·.2)

/-- Names rise along rows, and may stay. -/
def NamesRise (rows : List (String × α)) : Prop := rows.Pairwise fun a b => a.1 ≤ b.1

theorem under_cons (name : String) (row : String × α) (rest : List (String × α)) :
    under name (row :: rest) = if row.1 = name then row.2 :: under name rest else under name rest := by
  unfold under
  by_cases own : row.1 = name
  · rw [if_pos own, List.filter_cons_of_pos (by simpa using own), List.map_cons]
  · rw [if_neg own, List.filter_cons_of_neg (by simpa using own)]

theorem under_ne_nil {name : String} {rows : List (String × α)} :
    under name rows ≠ [] ↔ ∃ row ∈ rows, row.1 = name := by
  unfold under
  simp [List.filter_eq_nil_iff]

/-- A row goes in front of the group of its name, or starts one. -/
theorem groupNeighbours_cons (name : String) (a : α) (rest : List (String × α)) :
    (∃ group others, groupNeighbours rest = (name, group) :: others ∧
        groupNeighbours ((name, a) :: rest) = (name, a :: group) :: others) ∨
      (groupNeighbours rest).head?.map (·.1) ≠ some name ∧
        groupNeighbours ((name, a) :: rest) = (name, [a]) :: groupNeighbours rest := by
  rw [groupNeighbours]
  rcases groupNeighbours rest with _ | ⟨⟨next, group⟩, others⟩
  · exact .inr ⟨(Option.some_ne_none name).symm, rfl⟩
  · by_cases same : name = next
    · subst same
      exact .inl ⟨group, others, rfl, if_pos rfl⟩
    · refine .inr ⟨fun head => same (Option.some.inj head).symm, ?_⟩
      dsimp only
      rw [if_neg same]

/-- One group for each name of some rows, in rising order, with all that stands under the name. -/
structure Groups (rows : List (String × α)) (groups : List (String × List α)) : Prop where
  rise : KeysRise groups
  mem_iff : ∀ name group, (name, group) ∈ groups ↔ group = under name rows ∧ group ≠ []

theorem Groups.le_of_mem {name : String} {rows : List (String × α)} {groups : List (String × List α)}
    (h : Groups rows groups) (above : ∀ row ∈ rows, name ≤ row.1) {entry : String × List α}
    (mem : entry ∈ groups) : name ≤ entry.1 := by
  obtain ⟨own, some_⟩ := (h.mem_iff entry.1 entry.2).1 mem
  obtain ⟨row, there, same⟩ := under_ne_nil.1 (own ▸ some_)
  exact same ▸ above row there

/-- A row in front of others adds to the group of its name. -/
theorem Groups.cons {name : String} {a : α} {rest : List (String × α)} {others : List (String × List α)}
    (below : ∀ entry ∈ others, name < entry.1) (rise : KeysRise others)
    (mem_iff : ∀ n group, name ≠ n → ((n, group) ∈ others ↔ group = under n rest ∧ group ≠ [])) :
    Groups ((name, a) :: rest) ((name, a :: under name rest) :: others) where
  rise := List.pairwise_cons.2 ⟨below, rise⟩
  mem_iff n group := by
    rw [under_cons, List.mem_cons]
    by_cases same : name = n
    · subst same
      rw [if_pos rfl]
      constructor
      · rintro (here | later)
        · cases here
          exact ⟨rfl, List.cons_ne_nil _ _⟩
        · exact absurd (below _ later) (String.lt_irrefl _)
      · rintro ⟨rfl, -⟩
        exact .inl rfl
    · rw [if_neg same, ← mem_iff n group same]
      exact or_iff_right fun here => same (congrArg Prod.fst here).symm

/-- Where names rise, neighbours of one name are all that has it. The induction is on the rows: the first
one belongs to the first group, or its name comes before those of all groups. -/
theorem groups_of_rise {rows : List (String × α)} (rise : NamesRise rows) :
    Groups rows (groupNeighbours rows) := by
  induction rows with
  | nil =>
    exact ⟨.nil, by simp [groupNeighbours, under]⟩
  | cons row rest ih =>
    obtain ⟨name, a⟩ := row
    obtain ⟨above, risen⟩ := List.pairwise_cons.1 rise
    have behind := ih risen
    rcases groupNeighbours_cons name a rest with ⟨group, others, one, all⟩ | ⟨fresh, all⟩
    · rw [one] at behind
      obtain ⟨before, others_⟩ := List.pairwise_cons.1 behind.rise
      obtain ⟨rfl, -⟩ := (behind.mem_iff name group).1 List.mem_cons_self
      rw [all]
      refine .cons before others_ fun n g other => ?_
      rw [← behind.mem_iff n g, List.mem_cons]
      exact (or_iff_right fun here => other (congrArg Prod.fst here).symm).symm
    · have below (entry : String × List α) (mem : entry ∈ groupNeighbours rest) : name < entry.1 := by
        refine Decidable.byContradiction fun notBelow => fresh ?_
        have same : name = entry.1 :=
          String.le_antisymm (behind.le_of_mem above mem) (String.not_lt.1 notBelow)
        rcases found : groupNeighbours rest with _ | ⟨first, others⟩
        · rw [found] at mem
          cases mem
        · rw [found] at behind mem
          rcases List.mem_cons.1 mem with rfl | later
          · exact congrArg some same.symm
          · have less := (List.pairwise_cons.1 behind.rise).1 entry later
            exact absurd (same ▸ less) (String.not_lt.2 (behind.le_of_mem above List.mem_cons_self))
      have alone : under name rest = [] := by
        refine Classical.byContradiction fun some_ => ?_
        exact String.lt_irrefl _ (below _ ((behind.mem_iff name _).2 ⟨rfl, some_⟩))
      rw [all, ← alone]
      exact .cons below behind.rise fun n g _ => behind.mem_iff n g

/-! ## 2. Types of a store -/

/-- A type of a store with its members, each with the key that they are sorted by: the sort order of a
label, the number of an attribute. -/
structure StoredType (α : Type) where
  schema : String
  name : String
  members : List (Rat × α)
  full : members ≠ []
  rise : members.Pairwise fun a b => a.1 < b.1

namespace StoredType

/-- The members in their order. -/
def ordered (t : StoredType α) : List α := t.members.map (·.2)

/-- The type as a catalog lists it. -/
def entry (t : StoredType α) : String × List α := (t.name, t.ordered)

/-- Where the name of a type is unique. -/
def place (t : StoredType α) : String × String := (t.schema, t.name)

/-- The rows of a type: its name, and a member with its key. -/
def rows (t : StoredType α) : List (String × Rat × α) := t.members.map fun member => (t.name, member)

end StoredType

/-- The types of a store. Names are unique within a schema. -/
structure StoreContent where
  enums : List (StoredType String)
  composites : List (StoredType (String × String))
  /-- Schemas, names and elements. -/
  arrays : List (String × String × String)
  distinct : (enums.map StoredType.place ++ composites.map StoredType.place).Nodup

/-- The types of some schemas. -/
def configured (schemas : List String) (types : List (StoredType α)) : List (StoredType α) :=
  types.filter fun t => t.schema ∈ schemas

/-- The types of a name. -/
def ofName (name : String) (types : List (StoredType α)) : List (StoredType α) :=
  types.filter fun t => t.name = name

/-- Rows by name and then by key. -/
def RowLe (a b : String × Rat × α) : Prop := a.1 < b.1 ∨ a.1 = b.1 ∧ a.2.1 ≤ b.2.1

instance (a b : String × Rat × α) : Decidable (RowLe a b) :=
  inferInstanceAs (Decidable (a.1 < b.1 ∨ a.1 = b.1 ∧ a.2.1 ≤ b.2.1))

/-- What a server may answer about the types of some schemas: their rows by name and then by key, in any
order where both are the same. -/
def Lists (schemas : List String) (types : List (StoredType α)) (rows : List (String × α)) : Prop :=
  ∃ keyed : List (String × Rat × α), keyed.Perm ((configured schemas types).flatMap StoredType.rows) ∧
    keyed.Pairwise RowLe ∧ rows = keyed.map fun row => (row.1, row.2.2)

/-- Entries of a catalog that are the types of a store: each is one of its types, and those of the schemas
are all there. -/
structure Describes (schemas : List String) (types : List (StoredType α))
    (entries : List (String × List α)) : Prop where
  sound : ∀ entry ∈ entries, ∃ t ∈ types, t.entry = entry
  complete : ∀ t ∈ configured schemas types, t.entry ∈ entries

/-- Entries of a catalog that are the names of the types of some schemas, each with the members of all
types of this name. -/
structure Merges (schemas : List String) (types : List (StoredType α))
    (entries : List (String × List α)) : Prop where
  rise : KeysRise entries
  names : ∀ name, name ∈ entries.map (·.1) ↔ ∃ t ∈ configured schemas types, t.name = name
  members : ∀ entry ∈ entries,
    entry.2.Perm ((ofName entry.1 (configured schemas types)).flatMap StoredType.ordered)

variable {schemas : List String} {types : List (StoredType α)} {rows : List (String × α)}

theorem StoredType.ordered_ne_nil (t : StoredType α) : t.ordered ≠ [] :=
  fun none_ => t.full (List.map_eq_nil_iff.1 none_)

theorem Lists.namesRise (lists : Lists schemas types rows) : NamesRise rows := by
  obtain ⟨keyed, -, sorted, rfl⟩ := lists
  refine List.pairwise_map.2 (sorted.imp fun le => ?_)
  rcases le with less | ⟨same, -⟩
  · exact String.not_lt.1 fun back => String.lt_irrefl _ (String.lt_trans less back)
  · exact same ▸ String.le_refl _

/-- The rows of types under a name are those of the types of this name. -/
theorem filter_flatMap_rows (name : String) (types : List (StoredType α)) :
    (types.flatMap StoredType.rows).filter (fun row => row.1 = name)
      = (ofName name types).flatMap StoredType.rows := by
  induction types with
  | nil => rfl
  | cons t rest ih =>
    rw [List.flatMap_cons, List.filter_append, ih, ofName, ofName, StoredType.rows]
    by_cases own : t.name = name
    · rw [List.filter_cons_of_pos (by simpa using own), List.flatMap_cons, StoredType.rows]
      congr 1
      exact List.filter_eq_self.2 fun row mem => by
        obtain ⟨member, -, rfl⟩ := List.mem_map.1 mem
        simpa using own
    · rw [List.filter_cons_of_neg (by simpa using own)]
      have none_ : (t.members.map fun member => (t.name, member)).filter (fun row => row.1 = name) = [] :=
        List.filter_eq_nil_iff.2 fun row mem => by
          obtain ⟨member, -, rfl⟩ := List.mem_map.1 mem
          simpa using own
      rw [none_, List.nil_append]

theorem under_map (name : String) (keyed : List (String × Rat × α)) :
    under name (keyed.map fun row => (row.1, row.2.2))
      = (keyed.filter fun row => row.1 = name).map (·.2.2) := by
  simp [under, List.filter_map, Function.comp_def]

theorem map_flatMap_rows (types : List (StoredType α)) :
    (types.flatMap StoredType.rows).map (·.2.2) = types.flatMap StoredType.ordered := by
  rw [List.map_flatMap]
  congr
  funext t
  exact List.map_map

/-- Under a name stand the members of all types of this name. -/
theorem Lists.under_perm (lists : Lists schemas types rows) (name : String) :
    (under name rows).Perm ((ofName name (configured schemas types)).flatMap StoredType.ordered) := by
  obtain ⟨keyed, perm, -, rfl⟩ := lists
  rw [under_map, ← map_flatMap_rows, ← filter_flatMap_rows]
  exact (perm.filter _).map _

theorem StoredType.rows_pairwise (t : StoredType α) : t.rows.Pairwise RowLe :=
  List.pairwise_map.2 (t.rise.imp fun less => .inr ⟨rfl, Rat.le_of_lt less⟩)

theorem StoredType.eq_of_key (t : StoredType α) {m m' : Rat × α} (mem : m ∈ t.members)
    (mem' : m' ∈ t.members) (same : m.1 = m'.1) : m = m' := by
  have keys : (t.members.map (·.1)).Nodup :=
    List.pairwise_map.2 (t.rise.imp fun less => Rat.ne_of_lt less)
  exact List.inj_on_of_nodup_map keys mem mem' same

/-- Under the name of a type that shares it with no other stand its members in their order. -/
theorem Lists.under_eq (lists : Lists schemas types rows) {t : StoredType α}
    (only : ofName t.name (configured schemas types) = [t]) : under t.name rows = t.ordered := by
  obtain ⟨keyed, perm, sorted, rfl⟩ := lists
  have own : (keyed.filter fun row => row.1 = t.name).Perm t.rows := by
    have all := perm.filter fun row => row.1 = t.name
    rwa [filter_flatMap_rows, only, List.flatMap_singleton] at all
  have antisymm (a b : String × Rat × α) (mem : a ∈ keyed.filter fun row => row.1 = t.name)
      (mem' : b ∈ t.rows) (le : RowLe a b) (ge : RowLe b a) : a = b := by
    obtain ⟨m, there, rfl⟩ := List.mem_map.1 (own.subset mem)
    obtain ⟨m', there', rfl⟩ := List.mem_map.1 mem'
    have le := (le.resolve_left (String.lt_irrefl _)).2
    have ge := (ge.resolve_left (String.lt_irrefl _)).2
    rw [t.eq_of_key there there' (Rat.le_antisymm le ge)]
  rw [under_map, own.eq_of_pairwise antisymm (sorted.filter _) t.rows_pairwise]
  simp [StoredType.rows, StoredType.ordered, Function.comp_def]

theorem mem_ofName {name : String} {t : StoredType α} :
    t ∈ ofName name types ↔ t ∈ types ∧ t.name = name := by
  simp [ofName]

theorem ofName_cons (name : String) (t : StoredType α) (rest : List (StoredType α)) :
    ofName name (t :: rest) = if t.name = name then t :: ofName name rest else ofName name rest := by
  unfold ofName
  by_cases own : t.name = name
  · rw [if_pos own, List.filter_cons_of_pos (by simpa using own)]
  · rw [if_neg own, List.filter_cons_of_neg (by simpa using own)]

/-- Names are distinct where each type is the only one of its name. -/
theorem nodup_names_iff :
    (types.map (·.name)).Nodup ↔ ∀ t ∈ types, ofName t.name types = [t] := by
  induction types with
  | nil => simp
  | cons first rest ih =>
    have fresh : first.name ∉ rest.map (·.name) ↔ ofName first.name rest = [] := by
      simp [ofName, List.filter_eq_nil_iff]
    rw [List.map_cons, List.nodup_cons, ih, fresh]
    constructor
    · rintro ⟨none_, only⟩ t mem
      rw [ofName_cons]
      rcases List.mem_cons.1 mem with rfl | mem
      · rw [if_pos rfl, none_]
      · have other : first.name ≠ t.name := fun same => by
          rw [same, only t mem] at none_
          cases none_
        rw [if_neg other]
        exact only t mem
    · intro only
      have none_ := only first List.mem_cons_self
      rw [ofName_cons, if_pos rfl] at none_
      refine ⟨(List.cons.inj none_).2, fun t mem => ?_⟩
      have one := only t (List.mem_cons_of_mem _ mem)
      rw [ofName_cons] at one
      split at one
      · -- a second type of the first one's name
        have there : t ∈ ofName t.name rest := mem_ofName.2 ⟨mem, rfl⟩
        rw [(List.cons.inj one).2] at there
        cases there
      · exact one

theorem flatMap_ordered_eq_nil : types.flatMap StoredType.ordered = [] ↔ types = [] := by
  rw [List.flatMap_eq_nil_iff]
  constructor
  · intro none_
    rcases types with _ | ⟨t, rest⟩
    · rfl
    · exact absurd (none_ t List.mem_cons_self) t.ordered_ne_nil
  · rintro rfl
    exact List.forall_mem_nil _

/-- Types whose members are those of one of them are this one alone. -/
theorem eq_singleton_of_perm {t : StoredType α} (mem : t ∈ types)
    (perm : t.ordered.Perm (types.flatMap StoredType.ordered)) : types = [t] := by
  obtain ⟨before, after, rfl⟩ := List.append_of_mem mem
  have lengths := perm.length_eq
  rw [List.flatMap_append, List.flatMap_cons, List.length_append, List.length_append] at lengths
  have first : before = [] := flatMap_ordered_eq_nil.1 (List.length_eq_zero_iff.1 (by omega))
  have last : after = [] := flatMap_ordered_eq_nil.1 (List.length_eq_zero_iff.1 (by omega))
  rw [first, last, List.nil_append]

/-! ## 3. What the groups are -/

theorem Lists.under_ne_nil_iff (lists : Lists schemas types rows) (name : String) :
    under name rows ≠ [] ↔ ∃ t ∈ configured schemas types, t.name = name := by
  have perm := lists.under_perm name
  rw [← List.length_pos_iff, perm.length_eq, List.length_pos_iff, Ne, flatMap_ordered_eq_nil]
  constructor
  · intro some_
    obtain ⟨t, mem⟩ := List.exists_mem_of_ne_nil _ some_
    exact ⟨t, mem_ofName.1 mem⟩
  · rintro ⟨t, mem⟩ none_
    have there := mem_ofName.2 mem
    rw [none_] at there
    cases there

/-- Whatever the types and the schemas, the groups are the names of the types, each with the members of all
types of this name. -/
theorem merges_of_lists (lists : Lists schemas types rows) :
    Merges schemas types (groupNeighbours rows) where
  rise := (groups_of_rise lists.namesRise).rise
  names name := by
    have groups := groups_of_rise lists.namesRise
    rw [← lists.under_ne_nil_iff]
    constructor
    · intro mem
      obtain ⟨⟨n, group⟩, there, rfl⟩ := List.mem_map.1 mem
      obtain ⟨rfl, full⟩ := (groups.mem_iff n group).1 there
      exact full
    · intro full
      exact List.mem_map_of_mem ((groups.mem_iff name _).2 ⟨rfl, full⟩)
  members entry mem := by
    have own := ((groups_of_rise lists.namesRise).mem_iff entry.1 entry.2).1 mem
    rw [own.1]
    exact lists.under_perm entry.1

/-- The groups are the types where no two of them share a name, and only there: a type that is listed with
its own members leaves none to others of its name. -/
theorem describes_iff (lists : Lists schemas types rows) :
    Describes schemas types (groupNeighbours rows)
      ↔ ((configured schemas types).map (·.name)).Nodup := by
  have groups := groups_of_rise lists.namesRise
  rw [nodup_names_iff]
  constructor
  · intro describes t mem
    obtain ⟨own, -⟩ := (groups.mem_iff t.name t.ordered).1 (describes.complete t mem)
    exact eq_singleton_of_perm (mem_ofName.2 ⟨mem, rfl⟩) (own ▸ lists.under_perm t.name)
  · intro only
    refine ⟨fun entry mem => ?_, fun t mem => ?_⟩
    · obtain ⟨own, full⟩ := (groups.mem_iff entry.1 entry.2).1 mem
      obtain ⟨t, there, same⟩ := (lists.under_ne_nil_iff entry.1).1 (own ▸ full)
      refine ⟨t, List.mem_of_mem_filter there, ?_⟩
      rw [StoredType.entry, ← lists.under_eq (only t there), same, ← own]
    · exact (groups.mem_iff t.name t.ordered).2 ⟨(lists.under_eq (only t mem)).symm, t.ordered_ne_nil⟩

/-! ## 4. Loading a catalog -/

/-- A server answers a statement about schemas with rows of texts. -/
structure Peer.Tells (p : Peer) (sql : String) (rows : List (List String)) : Prop where
  takes : ∃ t, (p.answer sql).params? = some [t] ∧ takesTexts t = true
  complete : (p.answer sql).ending = .complete
  cells : (p.answer sql).rows = rows.map fun row => row.map fun text => some (utf8Encode text)

/-- A server answers the three statements about the types of its store that are in some schemas. -/
structure Peer.Catalogues (p : Peer) (content : StoreContent) (schemas : List String) : Prop where
  enums : ∃ rows, Lists schemas content.enums rows ∧
    p.Tells enumStatement (rows.map fun row => [row.1, row.2])
  composites : ∃ rows, Lists schemas content.composites rows ∧
    p.Tells compositeStatement (rows.map fun row => [row.1, row.2.1, row.2.2])
  arrays : ∃ rows : List (String × String),
    rows.Perm ((content.arrays.filter fun array => array.1 ∈ schemas).map (·.2)) ∧
    p.Tells arrayStatement (rows.map fun row => [row.1, row.2])

theorem encodeItems_texts (element : WireType) (texts : List String) :
    encodeItems element (texts.map Value.text)
      = .ok (texts.map fun text => some (writeScalar element (.text text))) := by
  induction texts with
  | nil => rfl
  | cons text rest ih =>
    rw [List.map_cons, encodeItems, encode, ih]
    · rfl
    all_goals simp

/-- Any schemas can be asked for. -/
theorem exists_schemaCell? {t : WireType} (takes : takesTexts t = true) (schemas : List String) :
    ∃ cells, schemaCell? [t] schemas = some cells := by
  rw [schemaCell?, if_pos takes]
  cases t with
  | array name oid element =>
    rw [encodeAll?, encode, encodeItems_texts]
    exact ⟨_, rfl⟩
  | base name oid form => cases takes
  | enumeration name oid => cases takes
  | domain name oid inner => cases takes
  | composite name oid fields => cases takes

/-- What is written item by item is read item by item. -/
theorem mapM_map_of_reads {write : α → β} {read : β → Option α} (h : ∀ a, read (write a) = some a)
    (items : List α) : (items.map write).mapM read = some items := by
  induction items with
  | nil => rfl
  | cons item rest ih =>
    rw [List.map_cons, List.mapM_cons, ih, h]
    rfl

theorem textCells?_encoded (row : List String) :
    textCells? (row.map fun text => some (utf8Encode text)) = some row := by
  refine mapM_map_of_reads (fun text => ?_) row
  exact utf8Decode?_utf8Encode text

theorem perform_state_bind (next : ServerState → Action ServerState β) (s : ServerState)
    (log : List LogRecord) :
    (Action.state >>= next).perform ⟨s, log⟩ = (next s).perform ⟨s, log⟩ := rfl

theorem perform_send_bind (event : String) (next : Unit → Action ServerState β) (s : ServerState)
    (log : List LogRecord) :
    (send event >>= next).perform ⟨s, log⟩ = (next ()).perform ⟨s.see [event], log⟩ := rfl

/-- A statement that is answered with rows of texts is read as these rows. -/
theorem perform_readTexts {s : ServerState} {at_ : ServerHandle} (alive : s.isAlive at_ = true)
    {sql : String} {rows : List (List String)} (tells : s.peer.Tells sql rows) (schemas : List String)
    (failure : String) (log : List LogRecord) :
    ∃ events, (readTexts at_ sql schemas failure).perform ⟨s, log⟩ = (.ok rows, ⟨s.see events, log⟩) := by
  obtain ⟨t, declared, takes⟩ := tells.takes
  obtain ⟨cells, asked⟩ := exists_schemaCell? takes schemas
  refine ⟨[prepareEvent sql [], runEvent cells], ?_⟩
  have here : ¬ (!s.isAlive at_) = true := by simp [alive]
  have prepared : ¬ (s.peer.answer sql).ending = .rejected := by simp [tells.complete]
  rw [readTexts, perform_state_bind, if_neg here]
  show (send (prepareEvent sql []) >>= _).perform _ = _
  rw [perform_send_bind, if_neg prepared, declared, Option.getD_some, asked]
  show (send (runEvent cells) >>= _).perform _ = _
  rw [perform_send_bind, tells.complete, tells.cells]
  dsimp only
  rw [mapM_map_of_reads textCells?_encoded, see_see]
  rfl

theorem map_pairOf (rows : List (String × String)) :
    (rows.map fun row => [row.1, row.2]).map pairOf = rows := by
  simp [pairOf, Function.comp_def]

theorem map_attributeOf (rows : List (String × String × String)) :
    (rows.map fun row => [row.1, row.2.1, row.2.2]).map attributeOf = rows := by
  simp [attributeOf, pairOf, Function.comp_def]

/-- Loading reads the rows of the three statements one after the other and groups them. -/
theorem perform_loadCatalog {s : ServerState} {at_ : ServerHandle} (alive : s.isAlive at_ = true)
    {enums arrays : List (String × String)} {composites : List (String × String × String)}
    (tellsEnums : s.peer.Tells enumStatement (enums.map fun row => [row.1, row.2]))
    (tellsComposites : s.peer.Tells compositeStatement
      (composites.map fun row => [row.1, row.2.1, row.2.2]))
    (tellsArrays : s.peer.Tells arrayStatement (arrays.map fun row => [row.1, row.2]))
    (schemas : List String) (log : List LogRecord) :
    ∃ events log', (loadCatalog at_ schemas).perform ⟨s, log⟩
      = (.ok ⟨groupNeighbours enums, groupNeighbours composites, arrays⟩, ⟨s.see events, log'⟩) := by
  have still (events : List String) : (s.see events).isAlive at_ = true := alive
  obtain ⟨first, readEnums⟩ :=
    perform_readTexts alive tellsEnums schemas "While reading the enum types" log
  obtain ⟨second, readComposites⟩ :=
    perform_readTexts (still first) tellsComposites schemas "While reading the composite types" log
  rw [see_see] at readComposites
  obtain ⟨third, readArrays⟩ :=
    perform_readTexts (still (first ++ second)) tellsArrays schemas "While reading the array types" log
  rw [see_see] at readArrays
  have grouped : (⟨groupNeighbours enums, groupNeighbours composites, arrays⟩ : Catalog)
      = catalogOf (enums.map fun row => [row.1, row.2])
          (composites.map fun row => [row.1, row.2.1, row.2.2]) (arrays.map fun row => [row.1, row.2]) := by
    rw [catalogOf, map_pairOf, map_attributeOf, map_pairOf]
  rw [grouped, loadCatalog, Action.perform_bind, readEnums]
  dsimp only
  rw [Action.perform_bind, readComposites]
  dsimp only
  rw [Action.perform_bind, readArrays]
  exact ⟨_, _, rfl⟩

/-! ## 5. A server that answers -/

/-- Rows of texts as a server sends them. -/
def toldRows (rows : List (List String)) : PeerAnswer where
  params? := some [.array "_text" 1009 .text]
  columns := []
  rows := rows.map fun row => row.map fun text => some (utf8Encode text)
  affected := 0
  ending := .complete

/-- A server that answers the three statements. -/
def tellingPeer (enums : List (String × String)) (composites : List (String × String × String))
    (arrays : List (String × String)) : Peer where
  directory := "/run"
  rules :=
    [⟨enumStatement, toldRows (enums.map fun row => [row.1, row.2])⟩,
      ⟨compositeStatement, toldRows (composites.map fun row => [row.1, row.2.1, row.2.2])⟩,
      ⟨arrayStatement, toldRows (arrays.map fun row => [row.1, row.2])⟩]
  refused := []
  refusesLogins := false

theorem Peer.Tells.of_answer {p : Peer} {sql : String} {rows : List (List String)}
    (h : p.answer sql = toldRows rows) : p.Tells sql rows := by
  refine ⟨⟨.array "_text" 1009 .text, ?_, by decide⟩, ?_, ?_⟩
  · rw [h]
    rfl
  · rw [h]
    rfl
  · rw [h]
    rfl

section Answer

variable {directory starts sql : String} {told : PeerAnswer} {rules : List PeerRule}
  {refused : List String} {refusesLogins : Bool}

theorem Peer.answer_of_starts (h : starts.toList.isPrefixOf sql.toList = true) :
    (Peer.mk directory (⟨starts, told⟩ :: rules) refused refusesLogins).answer sql = told := by
  simp only [Peer.answer, List.find?_cons, h]

theorem Peer.answer_of_not_starts (h : starts.toList.isPrefixOf sql.toList = false) :
    (Peer.mk directory (⟨starts, told⟩ :: rules) refused refusesLogins).answer sql
      = (Peer.mk directory rules refused refusesLogins).answer sql := by
  simp only [Peer.answer, List.find?_cons, h]

end Answer

/-- The characters of a text that is written out, without reading its bytes. -/
theorem toList_of_eq_ofList {text : String} {chars : List Char} (h : text = String.ofList chars) :
    text.toList = chars := by
  rw [h, String.toList_ofList]

set_option maxRecDepth 4000 in
theorem tells_tellingPeer (enums : List (String × String))
    (composites : List (String × String × String)) (arrays : List (String × String)) :
    (tellingPeer enums composites arrays).Tells enumStatement (enums.map fun row => [row.1, row.2]) ∧
      (tellingPeer enums composites arrays).Tells compositeStatement
        (composites.map fun row => [row.1, row.2.1, row.2.2]) ∧
      (tellingPeer enums composites arrays).Tells arrayStatement
        (arrays.map fun row => [row.1, row.2]) := by
  have enums_ := toList_of_eq_ofList
    (show enumStatement = String.ofList _ by unfold enumStatement; rfl)
  have composites_ := toList_of_eq_ofList
    (show compositeStatement = String.ofList _ by unfold compositeStatement; rfl)
  have arrays_ := toList_of_eq_ofList
    (show arrayStatement = String.ofList _ by unfold arrayStatement; rfl)
  have enumsFirst : enumStatement.toList.isPrefixOf compositeStatement.toList = false := by
    rw [enums_, composites_]
    decide
  have enumsFirst' : enumStatement.toList.isPrefixOf arrayStatement.toList = false := by
    rw [enums_, arrays_]
    decide
  have apart : compositeStatement.toList.isPrefixOf arrayStatement.toList = false := by
    rw [composites_, arrays_]
    decide
  have own (sql : String) : sql.toList.isPrefixOf sql.toList = true :=
    List.isPrefixOf_iff_prefix.2 (List.prefix_refl _)
  refine ⟨.of_answer ?_, .of_answer ?_, .of_answer ?_⟩
  · exact Peer.answer_of_starts (own _)
  · exact (Peer.answer_of_not_starts enumsFirst).trans (Peer.answer_of_starts (own _))
  · exact (Peer.answer_of_not_starts enumsFirst').trans
      ((Peer.answer_of_not_starts apart).trans (Peer.answer_of_starts (own _)))

theorem catalogues_tellingPeer {content : StoreContent} {schemas : List String}
    {enums arrays : List (String × String)} {composites : List (String × String × String)}
    (listsEnums : Lists schemas content.enums enums)
    (listsComposites : Lists schemas content.composites composites)
    (listsArrays : arrays.Perm ((content.arrays.filter fun array => array.1 ∈ schemas).map (·.2))) :
    (tellingPeer enums composites arrays).Catalogues content schemas := by
  obtain ⟨tellsEnums, tellsComposites, tellsArrays⟩ := tells_tellingPeer enums composites arrays
  exact ⟨⟨enums, listsEnums, tellsEnums⟩, ⟨composites, listsComposites, tellsComposites⟩,
    ⟨arrays, listsArrays, tellsArrays⟩⟩

/-- A server after its first connection. -/
def connectedTo (peer : Peer) : ServerState := (ServerState.start peer ⟨none, none, none, none⟩).connected.2

/-! ## 6. Describing the schemas -/

/-- **A catalog describes its schemas if their names are distinct, and only then.** A server that answers
about the types of its store gives a catalog. It has the names of the enumerations and composite types of
the schemas, each with the members of all types of this name. These are the types themselves if and only if
no two types of the schemas share a name. -/
theorem loadCatalog_describes_iff {s : ServerState} {at_ : ServerHandle} (alive : s.isAlive at_ = true)
    {content : StoreContent} {schemas : List String} (catalogues : s.peer.Catalogues content schemas)
    (log : List LogRecord) :
    ∃ c events log', (loadCatalog at_ schemas).perform ⟨s, log⟩ = (.ok c, ⟨s.see events, log'⟩) ∧
      Merges schemas content.enums c.enums ∧
      (Describes schemas content.enums c.enums
        ↔ ((configured schemas content.enums).map (·.name)).Nodup) ∧
      Merges schemas content.composites c.composites ∧
      (Describes schemas content.composites c.composites
        ↔ ((configured schemas content.composites).map (·.name)).Nodup) := by
  obtain ⟨enums, listsEnums, tellsEnums⟩ := catalogues.enums
  obtain ⟨composites, listsComposites, tellsComposites⟩ := catalogues.composites
  obtain ⟨arrays, -, tellsArrays⟩ := catalogues.arrays
  obtain ⟨events, log', loaded⟩ :=
    perform_loadCatalog alive tellsEnums tellsComposites tellsArrays schemas log
  exact ⟨_, events, log', loaded, merges_of_lists listsEnums, describes_iff listsEnums,
    merges_of_lists listsComposites, describes_iff listsComposites⟩

/-- A store of two schemas without a name in common. A label was added between two others, and an attribute
was dropped. -/
def moodsAndGenres : StoreContent where
  enums := [⟨"cinema", "mood", [(1, "sad"), (2, "happy")], List.cons_ne_nil _ _, by decide⟩,
    ⟨"library", "genre", [(1, "fantasy"), (3 / 2, "crime"), (2, "poetry")], List.cons_ne_nil _ _,
      by decide +kernel⟩]
  composites := [⟨"library", "author", [(1, "name", "text"), (3, "genres", "_genre")],
    List.cons_ne_nil _ _, by decide⟩]
  arrays := [("cinema", "_mood", "mood"), ("library", "_genre", "genre")]
  distinct := by decide

/-- The server of this store. -/
def moodsAndGenresPeer : Peer :=
  tellingPeer [("genre", "fantasy"), ("genre", "crime"), ("genre", "poetry"), ("mood", "sad"),
      ("mood", "happy")]
    [("author", "name", "text"), ("author", "genres", "_genre")] [("_mood", "mood"), ("_genre", "genre")]

/-- Both schemas are read type by type. -/
theorem loadCatalog_describes_iff_genres :
    (connectedTo moodsAndGenresPeer).isAlive (.connection 0) = true ∧
      moodsAndGenresPeer.Catalogues moodsAndGenres ["cinema", "library"] ∧
      ∃ c events log',
        (loadCatalog (.connection 0) ["cinema", "library"]).perform ⟨connectedTo moodsAndGenresPeer, []⟩
          = (.ok c, ⟨(connectedTo moodsAndGenresPeer).see events, log'⟩) ∧
        Describes ["cinema", "library"] moodsAndGenres.enums c.enums ∧
        Describes ["cinema", "library"] moodsAndGenres.composites c.composites := by
  have alive : (connectedTo moodsAndGenresPeer).isAlive (.connection 0) = true := rfl
  have catalogues : moodsAndGenresPeer.Catalogues moodsAndGenres ["cinema", "library"] := by
    refine catalogues_tellingPeer ?_ ?_ (.refl _)
    · exact ⟨[("genre", 1, "fantasy"), ("genre", 3 / 2, "crime"), ("genre", 2, "poetry"),
        ("mood", 1, "sad"), ("mood", 2, "happy")], by decide +kernel, by decide +kernel, rfl⟩
    · exact ⟨[("author", 1, "name", "text"), ("author", 3, "genres", "_genre")], by decide +kernel,
        by decide +kernel, rfl⟩
  obtain ⟨c, events, log', loaded, -, enums, -, composites⟩ :=
    loadCatalog_describes_iff alive catalogues []
  exact ⟨alive, catalogues, c, events, log', loaded, enums.2 (by decide), composites.2 (by decide)⟩

/-- Two schemas with an enumeration of the same name. -/
def twoMoods : StoreContent where
  enums := [⟨"cinema", "mood", [(1, "sad"), (2, "happy")], List.cons_ne_nil _ _, by decide⟩,
    ⟨"library", "mood", [(1, "open"), (2, "closed")], List.cons_ne_nil _ _, by decide⟩]
  composites := []
  arrays := [("cinema", "_mood", "mood"), ("library", "_mood", "mood")]
  distinct := by decide

/-- The server of this store. Rows with the same name and key may come in any order. -/
def twoMoodsPeer : Peer :=
  tellingPeer [("mood", "sad"), ("mood", "open"), ("mood", "happy"), ("mood", "closed")] []
    [("_mood", "mood"), ("_mood", "mood")]

/-- The labels of both are read as those of one, in turns: neither enumeration is in the catalog, and what is
there has the labels of no type of the store. -/
theorem loadCatalog_merges_moods :
    (connectedTo twoMoodsPeer).isAlive (.connection 0) = true ∧
      twoMoodsPeer.Catalogues twoMoods ["cinema", "library"] ∧
      ∃ c events log',
        (loadCatalog (.connection 0) ["cinema", "library"]).perform ⟨connectedTo twoMoodsPeer, []⟩
          = (.ok c, ⟨(connectedTo twoMoodsPeer).see events, log'⟩) ∧
        c.enums = [("mood", ["sad", "open", "happy", "closed"])] ∧
        (∀ entry ∈ c.enums, ∀ t ∈ twoMoods.enums, entry.2 ≠ t.ordered) ∧
        ∀ t ∈ configured ["cinema", "library"] twoMoods.enums, t.entry ∉ c.enums := by
  have alive : (connectedTo twoMoodsPeer).isAlive (.connection 0) = true := rfl
  have catalogues : twoMoodsPeer.Catalogues twoMoods ["cinema", "library"] := by
    refine catalogues_tellingPeer ?_ ⟨[], by decide, by decide, rfl⟩ (.refl _)
    exact ⟨[("mood", 1, "sad"), ("mood", 1, "open"), ("mood", 2, "happy"), ("mood", 2, "closed")],
      by decide +kernel, by decide +kernel, rfl⟩
  obtain ⟨tellsEnums, tellsComposites, tellsArrays⟩ := tells_tellingPeer
    [("mood", "sad"), ("mood", "open"), ("mood", "happy"), ("mood", "closed")] []
    [("_mood", "mood"), ("_mood", "mood")]
  obtain ⟨events, log', loaded⟩ :=
    perform_loadCatalog alive tellsEnums tellsComposites tellsArrays ["cinema", "library"] []
  exact ⟨alive, catalogues, _, events, log', loaded, by decide, by decide, by decide⟩

end TypedStore.Server
