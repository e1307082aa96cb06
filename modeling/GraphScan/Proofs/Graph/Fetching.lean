import GraphScan.Graph.Fetch
import GraphScan.Proofs.Table.Fit

/-!
# Fetched attributes

A fetch answers with some of the columns of some of the rows of a table.  The columns are found by their
names, which may be repeated and in any case, and the schema and the rows of the answer are made one
apart from the other.  That no row is refused by the answer's own schema rests on the rows of the
source, which have to fit theirs.

* `SameName` — names that differ in the case of ASCII letters at most.
* `Schema.FirstNamed` — **the first column of a name**, which `Schema.indexOf?` finds.
* `Picks` — the items of a list at some positions, of a schema and of its rows alike.
* `FetchRequest.Asks`, `FetchRequest.Answers` — **the columns that a request asks for, and the table
  that answers it**.
* `FetchRequest.Outcome` — what can come of a request, in cases.  `FetchRequest.Outcome.unique` says that
  it is settled by the request and the table.
* `Fetcher.loopback_outcome` — **nothing else comes of a fetch** from a table whose rows fit.
-/

namespace GraphScan

/-! ## Names -/

/-- The small letter of a capital one, among the ASCII letters. -/
def SmallOf (capital small : Char) : Prop :=
  'A' ≤ capital ∧ capital ≤ 'Z' ∧ small.toNat = capital.toNat + 32

/-- **The same letter, in either case.**  Only ASCII letters have cases. -/
def SameLetter (first second : Char) : Prop :=
  first = second ∨ SmallOf first second ∨ SmallOf second first

/-- **The same name**, letter by letter. -/
def SameName (first second : String) : Prop :=
  List.Forall₂ SameLetter first.toList second.toList

theorem toNat_toLower (c : Char) :
    c.toLower.toNat = if 65 ≤ c.toNat ∧ c.toNat ≤ 90 then c.toNat + 32 else c.toNat := by
  have hcapital : (c.val ≥ 'A'.val ∧ c.val ≤ 'Z'.val) ↔ (65 ≤ c.toNat ∧ c.toNat ≤ 90) := Iff.rfl
  by_cases h : 65 ≤ c.toNat ∧ c.toNat ≤ 90
  · have hlower : c.toLower.val = c.val + 32 := congrArg Char.val (dif_pos (hcapital.mpr h))
    have hle : c.val.toNat ≤ 90 := h.2
    rw [if_pos h, Char.toNat, hlower, UInt32.toNat_add]
    show (c.val.toNat + 32) % 2 ^ 32 = c.val.toNat + 32
    omega
  · have hlower : c.toLower = c := dif_neg fun hval => h (hcapital.mp hval)
    rw [if_neg h, hlower]

/-- Letters that are the same in lower case are the same letter, in either case. -/
theorem toLower_eq_toLower_iff {first second : Char} :
    first.toLower = second.toLower ↔ SameLetter first second := by
  have hcapital (c : Char) : ('A' ≤ c ↔ 65 ≤ c.toNat) ∧ (c ≤ 'Z' ↔ c.toNat ≤ 90) := ⟨.rfl, .rfl⟩
  simp only [SameLetter, SmallOf, hcapital, ← Char.toNat_inj, toNat_toLower]
  split_ifs <;> omega

theorem Schema.foldCase_eq_foldCase_iff {first second : String} :
    foldCase first = foldCase second ↔ SameName first second := by
  rw [foldCase, foldCase, ← List.forall₂_eq_eq_eq, List.forall₂_map_left_iff,
    List.forall₂_map_right_iff, SameName]
  simp only [toLower_eq_toLower_iff]

/-! ## Columns by name -/

namespace Schema

variable {schema : Schema} {name : String} {position : Nat}

/-- Whether the column at a position has a name. -/
def NamedAt (schema : Schema) (name : String) (position : Nat) : Prop :=
  ∃ column, schema.column? position = some column ∧ SameName column.name name

/-- Whether some column has a name. -/
def Names (schema : Schema) (name : String) : Prop :=
  ∃ position, schema.NamedAt name position

/-- **The first column of a name.** -/
def FirstNamed (schema : Schema) (name : String) (position : Nat) : Prop :=
  schema.NamedAt name position ∧ ∀ earlier < position, ¬ schema.NamedAt name earlier

theorem FirstNamed.names (h : schema.FirstNamed name position) : schema.Names name :=
  ⟨position, h.1⟩

theorem FirstNamed.lt (h : schema.FirstNamed name position) : position < schema.width := by
  obtain ⟨⟨column, hcolumn, -⟩, -⟩ := h
  exact (List.getElem?_eq_some_iff.mp hcolumn).1

/-- **The position of a name is that of the first column that has it.** -/
theorem indexOf?_eq_some_iff :
    schema.indexOf? name = some position ↔ schema.FirstNamed name position := by
  have hnamed (index : Nat) (hlt : index < schema.columns.length) :
      (foldCase schema.columns[index].name == foldCase name) = true ↔ schema.NamedAt name index := by
    simp [NamedAt, column?, hlt, foldCase_eq_foldCase_iff]
  rw [indexOf?, List.findIdx?_eq_some_iff_getElem, FirstNamed]
  constructor
  · rintro ⟨hlt, hname, hfirst⟩
    refine ⟨(hnamed position hlt).mp hname, fun earlier hearlier => ?_⟩
    rw [← hnamed earlier (Nat.lt_trans hearlier hlt)]
    exact hfirst earlier hearlier
  · rintro hfirst
    have hlt : position < schema.columns.length := FirstNamed.lt hfirst
    refine ⟨hlt, (hnamed position hlt).mpr hfirst.1, fun earlier hearlier => ?_⟩
    rw [hnamed earlier (Nat.lt_trans hearlier hlt)]
    exact hfirst.2 earlier hearlier

theorem rightUnique_firstNamed (schema : Schema) : Relator.RightUnique schema.FirstNamed := by
  intro name position other h h'
  rw [← indexOf?_eq_some_iff] at h h'
  exact Option.some.inj (h.symm.trans h')

theorem indexOf?_eq_none_iff : schema.indexOf? name = none ↔ ¬ schema.Names name := by
  simp only [indexOf?, List.findIdx?_eq_none_iff, beq_eq_false_iff_ne, ne_eq,
    foldCase_eq_foldCase_iff, Names, NamedAt, column?, List.mem_iff_getElem?]
  constructor
  · rintro hnone ⟨position, column, hcolumn, hname⟩
    exact hnone column ⟨position, hcolumn⟩ hname
  · rintro hnone column ⟨position, hcolumn⟩ hname
    exact hnone ⟨position, column, hcolumn, hname⟩

end Schema

/-! ## Picking columns -/

/-- **The items of a list at some positions**, one for each position. -/
def Picks {α : Type} (positions : List Nat) (items picked : List α) : Prop :=
  List.Forall₂ (fun position item => items[position]? = some item) positions picked

theorem rightUnique_picks {α : Type} (positions : List Nat) :
    Relator.RightUnique (@Picks α positions) := by
  intro items picked others h h'
  refine List.right_unique_forall₂' ?_ h h'
  intro position item other hitem hother
  exact Option.some.inj (hitem.symm.trans hother)

/-- The columns at positions within a schema. -/
theorem picks_filterMap {schema : Schema} {positions : List Nat}
    (hwithin : ∀ position ∈ positions, position < schema.width) :
    Picks positions schema.columns (positions.filterMap schema.column?) := by
  induction positions with
  | nil => exact .nil
  | cons position positions ih =>
      rw [List.forall_mem_cons] at hwithin
      obtain ⟨column, hcolumn⟩ : ∃ column, schema.column? position = some column :=
        ⟨_, List.getElem?_eq_getElem hwithin.1⟩
      rw [List.filterMap_cons_some hcolumn]
      exact .cons hcolumn (ih hwithin.2)

/-- The cells at positions within a row. -/
theorem picks_pick {row : Row} {positions : List Nat}
    (hwithin : ∀ position ∈ positions, position < row.length) :
    Picks positions row (Fetcher.pick positions row) := by
  rw [Picks, Fetcher.pick, List.forall₂_map_right_iff, List.forall₂_same]
  intro position hposition
  rw [List.getElem?_eq_getElem (hwithin position hposition), Option.getD_some]

/-- **A row that fits a schema still fits it** when both are restricted to the same columns. -/
theorem Schema.Fits.picks {schema : Schema} {row cells : Row} {columns : List Column}
    {positions : List Nat} (hfits : schema.Fits row)
    (hcolumns : Picks positions schema.columns columns) (hcells : Picks positions row cells) :
    Schema.Fits ⟨columns⟩ cells := by
  induction positions generalizing columns cells with
  | nil =>
      cases hcolumns
      cases hcells
      exact .nil
  | cons position positions ih =>
      obtain - | ⟨hcolumn, hcolumns⟩ := hcolumns
      obtain - | ⟨hcell, hcells⟩ := hcells
      refine .cons ?_ (ih hcolumns hcells)
      rw [ColumnType.accepts_iff]
      exact (Schema.fits_iff.mp hfits).2 position _ _ hcell hcolumn

/-! ## Requests -/

/-- **A table whose rows fit its schema.** -/
def Table.Conforms (table : Table) : Prop :=
  ∀ row ∈ table.rows, table.schema.Fits row

namespace FetchRequest

/-- **The columns that a request asks for**: the first one of each name, or all if there are no
names. -/
def Asks (request : FetchRequest) (schema : Schema) (positions : List Nat) : Prop :=
  if request.attributes = [] then positions = List.range schema.width
  else List.Forall₂ schema.FirstNamed request.attributes positions

/-- **The rows that a request asks for**: the first cell is an integer, and one of the ids. -/
def Wants (request : FetchRequest) (row : Row) : Prop :=
  ∃ id ∈ request.ids, row[0]? = some (.int id)

instance (request : FetchRequest) (row : Row) : Decidable (request.Wants row) :=
  inferInstanceAs (Decidable (∃ id ∈ request.ids, row[0]? = some (.int id)))

/-- **The table that answers a request**, with the columns at some positions. -/
structure Answers (request : FetchRequest) (source : Table) (positions : List Nat) (answer : Table) :
    Prop where
  name_eq : answer.name = source.name ++ "_fetched"
  columns : Picks positions source.schema.columns answer.schema.columns
  /-- The rows that are wanted, in the order in which they are in the source, each restricted to the
  columns. -/
  rows : List.Forall₂ (Picks positions) (source.rows.toList.filter request.Wants) answer.rows.toList
  allocated_eq : answer.allocated = answer.active

/-- **What can come of a request** to a table. -/
inductive Outcome (request : FetchRequest) (shared : SharedTable) :
    Except EngineError Table → Prop where
  /-- The table is held by a writer. -/
  | held (hhold : shared.hold = .writer) : Outcome request shared (.error .tableHeldExclusively)
  /-- A name is that of no column.  The error gives the first such name. -/
  | unknown (hhold : shared.hold ≠ .writer) (known : List String) (name : String) (rest : List String)
      (hsplit : request.attributes = known ++ name :: rest)
      (hknown : ∀ other ∈ known, shared.table.schema.Names other)
      (hname : ¬ shared.table.schema.Names name) :
      Outcome request shared (.error (.attributeMissing request.element name shared.table.name))
  | answered (hhold : shared.hold ≠ .writer) (positions : List Nat) (answer : Table)
      (hasks : request.Asks shared.table.schema positions)
      (hanswers : request.Answers shared.table positions answer) : Outcome request shared (.ok answer)

/-- The columns that a request asks for are those of the schema. -/
theorem Asks.lt_width {request : FetchRequest} {schema : Schema} {positions : List Nat}
    (h : request.Asks schema positions) : ∀ position ∈ positions, position < schema.width := by
  rw [Asks] at h
  split_ifs at h
  · subst h
    exact fun position => List.mem_range.mp
  · have hfound : List.Forall₂ (fun position name =>
        position < schema.width ∧ schema.FirstNamed name position) positions request.attributes :=
      .flip (h.imp fun _ _ hfirst => ⟨hfirst.lt, hfirst⟩)
    exact ((List.forall₂_and_left _ _).mp hfound).1

theorem Asks.unique {request : FetchRequest} {schema : Schema} {positions others : List Nat}
    (h : request.Asks schema positions) (h' : request.Asks schema others) : positions = others := by
  rw [Asks] at h h'
  split_ifs at h h'
  · exact h.trans h'.symm
  · exact List.right_unique_forall₂' schema.rightUnique_firstNamed h h'

/-- Names that are asked for by their first columns are all found. -/
theorem Asks.names {request : FetchRequest} {schema : Schema} {positions : List Nat}
    (h : request.Asks schema positions) : ∀ name ∈ request.attributes, schema.Names name := by
  rw [Asks] at h
  split_ifs at h with hall
  · simp [hall]
  · have hfound : List.Forall₂ (fun name position =>
        schema.Names name ∧ schema.FirstNamed name position) request.attributes positions :=
      h.imp fun _ _ hfirst => ⟨hfirst.names, hfirst⟩
    exact ((List.forall₂_and_left _ _).mp hfound).1

theorem Answers.unique {request : FetchRequest} {source answer other : Table} {positions : List Nat}
    (h : request.Answers source positions answer) (h' : request.Answers source positions other) :
    answer = other := by
  have hrows : answer.rows.toList = other.rows.toList :=
    List.right_unique_forall₂' (rightUnique_picks positions) h.rows h'.rows
  have hname := h.name_eq.trans h'.name_eq.symm
  have hcolumns := rightUnique_picks positions h.columns h'.columns
  have hallocated : answer.allocated = other.allocated := by
    rw [h.allocated_eq, h'.allocated_eq, Table.active, Table.active, ← Array.length_toList, hrows,
      Array.length_toList]
  obtain ⟨name, ⟨columns⟩, ⟨rows⟩, allocated⟩ := answer
  obtain ⟨name', ⟨columns'⟩, ⟨rows'⟩, allocated'⟩ := other
  cases hname
  cases hcolumns
  cases hrows
  cases hallocated
  rfl

/-- The first item without a property is one only. -/
theorem first_unique {α : Type} {p : α → Prop} {known known' rest rest' : List α} {item item' : α}
    (heq : known ++ item :: rest = known' ++ item' :: rest') (hknown : ∀ other ∈ known, p other)
    (hitem : ¬ p item) (hknown' : ∀ other ∈ known', p other) (hitem' : ¬ p item') : item = item' := by
  classical
  have hfind (known rest : List α) (item : α) (hknown : ∀ other ∈ known, p other) (hitem : ¬ p item) :
      (known ++ item :: rest).find? (fun other => decide (¬ p other)) = some item :=
    List.find?_eq_some_iff_append.mpr
      ⟨by simpa using hitem, known, rest, rfl, by simpa using hknown⟩
  have hfound := hfind known rest item hknown hitem
  rw [heq, hfind known' rest' item' hknown' hitem'] at hfound
  exact (Option.some.inj hfound).symm

/-- **The outcome is settled** by the request and the table. -/
theorem Outcome.unique {request : FetchRequest} {shared : SharedTable}
    {outcome other : Except EngineError Table} (h : request.Outcome shared outcome)
    (h' : request.Outcome shared other) : outcome = other := by
  cases h with
  | held hhold =>
      cases h' with
      | held => rfl
      | unknown hreadable | answered hreadable => exact absurd hhold hreadable
  | unknown hreadable known name rest hsplit hknown hname =>
      cases h' with
      | held hhold => exact absurd hhold hreadable
      | unknown _ known' name' rest' hsplit' hknown' hname' =>
          rw [hsplit] at hsplit'
          rw [first_unique hsplit' hknown hname hknown' hname']
      | answered _ positions answer hasks =>
          exact absurd (hasks.names name (by simp [hsplit])) hname
  | answered hreadable positions answer hasks hanswers =>
      cases h' with
      | held hhold => exact absurd hhold hreadable
      | unknown _ known name rest hsplit _ hname =>
          exact absurd (hasks.names name (by simp [hsplit])) hname
      | answered _ positions' other hasks' hanswers' =>
          obtain rfl := hasks.unique hasks'
          rw [hanswers.unique hanswers']

end FetchRequest

/-! ## The fetcher -/

namespace Fetcher

/-- **All names are found**, each in its first column, or the first that is not found is the error. -/
theorem columnsOf_cases (element : ElementKind) (source : Table) (names : List String) :
    (∃ positions, columnsOf element source names = .ok positions ∧
      List.Forall₂ source.schema.FirstNamed names positions) ∨
    ∃ known name rest, names = known ++ name :: rest ∧
      (∀ other ∈ known, source.schema.Names other) ∧ ¬ source.schema.Names name ∧
      columnsOf element source names = .error (.attributeMissing element name source.name) := by
  induction names with
  | nil => exact .inl ⟨[], rfl, .nil⟩
  | cons name names ih =>
      rw [columnsOf]
      cases hindex : source.schema.indexOf? name with
      | none =>
          have hname := Schema.indexOf?_eq_none_iff.mp hindex
          exact .inr ⟨[], name, names, rfl, by simp, hname, rfl⟩
      | some position =>
          have hfirst := Schema.indexOf?_eq_some_iff.mp hindex
          obtain ⟨positions, hok, hnamed⟩ | ⟨known, other, rest, rfl, hknown, hother, herror⟩ := ih
          · refine .inl ⟨position :: positions, ?_, .cons hfirst hnamed⟩
            rw [hok]
            rfl
          · refine .inr ⟨name :: known, other, rest, rfl, ?_, hother, ?_⟩
            · exact List.forall_mem_cons.mpr ⟨hfirst.names, hknown⟩
            · rw [herror]
              rfl

theorem hasId_iff {request : FetchRequest} {row : Row} :
    hasId request.ids row = true ↔ request.Wants row := by
  rw [hasId, List.head?_eq_getElem?, FetchRequest.Wants]
  cases row[0]? with
  | none => simp
  | some value => cases value <;> simp

/-- **Rows that fit are all inserted.** -/
theorem insertAll_of_fits {table : Table} {rows : List Row}
    (hfits : ∀ row ∈ rows, table.schema.Fits row) :
    insertAll table rows = .ok (table.appendAll rows) := by
  induction rows generalizing table with
  | nil => rfl
  | cons row rows ih =>
      rw [List.forall_mem_cons] at hfits
      have hinsert : table.insert row = (.ok (), table.append row) :=
        Table.insert_eq_ok_iff.mpr ⟨(table.check_eq_ok_iff row).mpr hfits.1, rfl⟩
      rw [insertAll, hinsert]
      exact ih hfits.2

/-- A table without gaps in its history, one row after the other, has held all its rows at once. -/
theorem allocated_appendAll {table : Table} (h : table.allocated = table.active) (rows : List Row) :
    (table.appendAll rows).allocated = (table.appendAll rows).active := by
  induction rows generalizing table with
  | nil => exact h
  | cons row rows ih =>
      refine ih ?_
      rw [Table.allocated_append, h, Nat.max_eq_right (Nat.le_succ _)]
      simp [Table.active, Table.append]

/-- **The rows that are wanted fit the columns that are asked for**, and make up the answer. -/
theorem answers_of_asks {request : FetchRequest} {source : Table} (hconforms : source.Conforms)
    {positions : List Nat} (hasks : request.Asks source.schema positions) :
    ∃ answer, insertAll (.empty (source.name ++ "_fetched") ⟨positions.filterMap source.schema.column?⟩)
        ((source.rows.toList.filter (hasId request.ids)).map (pick positions)) = .ok answer ∧
      request.Answers source positions answer := by
  have hcolumns := picks_filterMap hasks.lt_width
  have hwanted : source.rows.toList.filter (hasId request.ids) =
      source.rows.toList.filter request.Wants :=
    List.filter_congr fun row _ => Bool.eq_iff_iff.mpr (hasId_iff.trans decide_eq_true_iff.symm)
  have hfits : ∀ row ∈ source.rows.toList.filter request.Wants, source.schema.Fits row :=
    fun row hrow => hconforms row (by simpa using (List.mem_filter.mp hrow).1)
  have hpicks : ∀ row ∈ source.rows.toList.filter request.Wants,
      Picks positions row (pick positions row) := by
    intro row hrow
    refine picks_pick fun position hposition => ?_
    rw [(Schema.fits_iff.mp (hfits row hrow)).1]
    exact hasks.lt_width position hposition
  rw [hwanted]
  refine ⟨_, insertAll_of_fits ?_, ?_, ?_, ?_, allocated_appendAll rfl _⟩
  · rw [List.forall_mem_map]
    intro row hrow
    exact (hfits row hrow).picks hcolumns (hpicks row hrow)
  · exact Table.name_appendAll _ _
  · rw [Table.schema_appendAll]
    exact hcolumns
  · rw [Table.toList_rows_appendAll]
    show List.Forall₂ _ _ (List.map _ _)
    rw [List.forall₂_map_right_iff, List.forall₂_same]
    exact hpicks

/-- Selecting and projecting fails only at a name that is not found. -/
theorem select_outcome (request : FetchRequest) {shared : SharedTable} (hhold : shared.hold ≠ .writer)
    (hconforms : shared.table.Conforms) :
    request.Outcome shared (select request.element shared.table request.ids request.attributes) := by
  have hanswered {positions : List Nat} (hasks : request.Asks shared.table.schema positions) :
      request.Outcome shared
        (insertAll (.empty (shared.table.name ++ "_fetched")
            ⟨positions.filterMap shared.table.schema.column?⟩)
          ((shared.table.rows.toList.filter (hasId request.ids)).map (pick positions))) := by
    obtain ⟨answer, hok, hanswers⟩ := answers_of_asks hconforms hasks
    rw [hok]
    exact .answered hhold positions answer hasks hanswers
  by_cases hall : request.attributes = []
  · rw [select, hall]
    exact hanswered (by rw [FetchRequest.Asks, if_pos hall])
  · rw [select, if_neg (by simpa using hall)]
    obtain ⟨positions, hok, hnamed⟩ | ⟨known, name, rest, hsplit, hknown, hname, herror⟩ :=
      columnsOf_cases request.element shared.table request.attributes
    · rw [hok]
      exact hanswered (by rwa [FetchRequest.Asks, if_neg hall])
    · rw [herror]
      exact .unknown hhold known name rest hsplit hknown hname

/-- **What comes of a fetch** from a table whose rows fit.  The rows of the answer are never refused. -/
theorem loopback_outcome (request : FetchRequest) (snapshot : Snapshot)
    (hconforms : (snapshot.table request.element).table.Conforms) :
    request.Outcome (snapshot.table request.element) (loopback.fetch request snapshot) := by
  simp only [loopback, SharedTable.read]
  cases hhold : (snapshot.table request.element).hold with
  | writer => exact .held hhold
  | free | readers => exact select_outcome request (by rw [hhold]; nofun) hconforms

end Fetcher

end GraphScan
