import GraphScan.Proofs.Scan.Failure
import GraphScan.Proofs.Typing.Aggregate

/-!
# Well-typed plans

A plan is well typed if it names only columns that there are and its output has the types of what is
written there.  Such a plan can still fail for the data's sake, but in no other way.

* `ScanNode.imageLayout`, `ScanNode.outputLayout` — **the static types of images and of output rows**.
* `ScanNode.WellTyped` — **a well-typed plan** over a source of some schema.
* `Scan.Supplied` — what the tables have to provide: rows that fit, vertices on record, and nobody who
  holds source or output.
* `Scan.execute_sound` — **an execution of a well-typed plan fails only for the data's sake**.

The proof goes through the places where an execution can fail, and has a lemma for each: the
preparation, a row, and the end of the aggregation.
-/

namespace GraphScan

/-- An error owed to the data is no defect of the configuration. -/
theorem EngineError.OfData.isConfigurationDefect {e : EngineError} (h : e.OfData) :
    e.report.isConfigurationDefect = false := by
  rcases h with hkind | hkind
  · rw [ErrorReport.isConfigurationDefect, hkind]
    rfl
  · rw [ErrorReport.isConfigurationDefect, hkind]
    rfl

/-! ## Static types of a plan -/

/-- **Whether a graph has the vertex of a row on record**, by the id in its first cell. -/
def Graph.Records (graph : Graph) (row : Row) : Prop :=
  ∃ id, row.head? = some (.int id) ∧ (graph.vertex? id).isSome = true

/-- A schema has the columns of a layout if each has the type that the layout asks for, if any. -/
def Schema.Realizes (schema : Schema) (layout : Layout) : Prop :=
  List.Forall₂ (fun type column => ∀ wanted ∈ type, column.type = wanted) layout schema.columns

/-- Rows that conform to the layout of a schema fit it. -/
theorem Schema.Realizes.fits {schema : Schema} {layout : Layout} (h : schema.Realizes layout)
    {row : Row} (hrow : row.Conforms layout) : schema.Fits row := by
  rw [Schema.Fits]
  rw [Schema.Realizes] at h
  generalize schema.columns = columns at h ⊢
  induction h generalizing row with
  | nil =>
      cases hrow
      exact .nil
  | @cons type column _ _ hcolumn _ ih =>
      rcases hrow with _ | ⟨hvalue, hrest⟩
      refine .cons ?_ (ih hrest)
      cases type with
      | none =>
          rw [show _ = Value.null from hvalue]
          rfl
      | some wanted =>
          rw [hcolumn wanted rfl]
          exact hvalue

namespace ScanNode

/-- **The static types of the images** of rows of some schema: those of the expressions of a
projection and two integers for the degrees, or else those of the row itself. -/
def imageLayout (source : Schema) (node : ScanNode) : Layout :=
  match node.projection with
  | some projection =>
    projection.exprs.map (Expr.typeIn source.layout) ++
      List.replicate Projection.degreeColumns (some .int)
  | none => source.layout

/-- **The static types of the rows written to the output.** -/
def outputLayout (source : Schema) (node : ScanNode) : Layout :=
  match node.aggregate with
  | some aggregate => aggregate.layoutIn (node.imageLayout source)
  | none => node.imageLayout source

/-- **A well-typed plan** over a source of some schema.  It names only columns of the rows that the
expressions are evaluated on, and its output has the types of what is written there.  Without stages
nothing is written. -/
structure WellTyped (source : Schema) (node : ScanNode) : Prop where
  predicate : ∀ predicate ∈ node.predicate, predicate.InRange source.width
  projection : ∀ projection ∈ node.projection, ∀ expr ∈ projection.exprs,
    expr.InRange source.width
  aggregate : ∀ aggregate ∈ node.aggregate, aggregate.InRange (node.imageLayout source).length
  schema : node.isPassThrough = false → node.schema.Realizes (node.outputLayout source)

variable {node : ScanNode} {source : Schema} {row : Row}

/-- **The image of a row** of the source is of its static types, or an expression fails for the data's
sake. -/
theorem image_sound (htyped : node.WellTyped source) (hcheck : node.checkProjection = .ok ())
    (hrow : source.Fits row)
    (hrecord : node.projection.isSome = true → ∀ graph ∈ node.graph, graph.Records row) :
    Sound (fun image => image.Conforms (node.imageLayout source)) (node.image row) := by
  have hlayout : row.Conforms source.layout := Row.conforms_layout_iff.mpr hrow
  cases hprojection : node.projection with
  | none =>
      simp only [image, imageLayout, hprojection]
      exact hlayout
  | some projection =>
      cases hgraph : node.graph with
      | none =>
          simp only [checkProjection, hprojection, hgraph] at hcheck
          split_ifs at hcheck with hwidth hnone
          exact absurd rfl hnone
      | some graph =>
          obtain ⟨id, hid, hsome⟩ := hrecord (by rw [hprojection]; rfl) graph hgraph
          obtain ⟨vertex, hvertex⟩ := Option.isSome_iff_exists.mp hsome
          have hfound : graph.vertexOf row = .ok vertex := by
            simp only [Graph.vertexOf, hid, hvertex]
          have hrange : ∀ expr ∈ projection.exprs, expr.InRange source.layout.length := by
            rw [Schema.length_layout]
            exact htyped.projection projection hprojection
          simp only [image, imageLayout, hprojection, hgraph, hfound]
          refine (Expr.evalEach_sound hlayout projection.exprs hrange).bind fun values hvalues => ?_
          exact List.rel_append hvalues (.cons rfl (.cons rfl .nil))

/-- The output of a projection has the width that the projection declares. -/
theorem WellTyped.width_eq (htyped : node.WellTyped source) (hcheck : node.checkProjection = .ok ())
    (haggregate : node.aggregate = none) {projection : Projection}
    (hprojection : node.projection = some projection) : node.schema.width = projection.width := by
  have hstages : node.isPassThrough = false := by simp [isPassThrough, hprojection]
  have hlength := (htyped.schema hstages).length_eq
  simp only [outputLayout, haggregate, imageLayout, hprojection, List.length_append, List.length_map,
    List.length_replicate] at hlength
  simp only [checkProjection, hprojection] at hcheck
  split_ifs at hcheck with hwidth
  rw [Schema.width, ← hlength, not_not.mp hwidth]

end ScanNode

/-! ## Executions -/

namespace Scan

/-- **What the tables provide** for an execution: nobody holds source or output, the rows of the
source fit its schema and, if degrees are to be looked up, the graph has their vertices on record. -/
structure Supplied (scan : Scan) (store : Store) : Prop where
  source_free : (store.get scan.source).hold = .free
  output_free : (store.get scan.output.table).hold = .free
  fits : ∀ row ∈ (store.get scan.source).table.rows.toList,
    (store.get scan.source).table.schema.Fits row
  records : scan.node.projection.isSome = true → ∀ graph ∈ scan.node.graph,
    ∀ row ∈ (store.get scan.source).table.rows.toList, graph.Records row

section WellTyped

variable {node : ScanNode} {scan : Scan} {store : Store} {params : List Value} {outlet : Outlet}
  {window : Window} {seen images : List Row} {row : Row} {e : EngineError}

variable (h : InUse scan.node scan store)
  (htyped : scan.node.WellTyped (store.get scan.source).table.schema)
  (hdata : scan.Supplied store)

include h htyped hdata

/-- Every row of the source has an image of its static types, or fails for the data's sake. -/
theorem image_sound (hrow : row ∈ (store.get scan.source).table.rows.toList) :
    Sound (fun image => image.Conforms (scan.node.imageLayout (store.get scan.source).table.schema))
      (scan.node.image row) :=
  ScanNode.image_sound htyped h.projection_ok (hdata.fits row hrow) fun hsome graph hgraph =>
    hdata.records hsome graph hgraph row hrow

theorem images_conform
    (hseen : ∀ row ∈ seen, row ∈ (store.get scan.source).table.rows.toList)
    (hselects : scan.node.Selects window seen images) :
    ∀ image ∈ images,
      image.Conforms (scan.node.imageLayout (store.get scan.source).table.schema) := by
  intro image himage
  rw [← selectedImages_of_forall₂ hselects.images, selectedImages, List.mem_filterMap] at himage
  obtain ⟨row, hrow, hsome⟩ := himage
  have hsource := hseen row (List.mem_of_mem_filter (Window.mem_of_mem_cut hrow))
  have hsound := image_sound h htyped hdata hsource
  cases hout : scan.node.image row with
  | error e => simp [hout, Except.toOption] at hsome
  | ok found =>
      obtain rfl : found = image := by simpa [hout, Except.toOption] using hsome
      exact hsound.of_ok hout

/-- The output takes every row of the static types of the plan. -/
theorem outlet_takes (hstages : scan.node.isPassThrough = false)
    (hshared : outlet.shared = store.get scan.output.table) :
    outlet.Takes (scan.node.outputLayout (store.get scan.source).table.schema) where
  free := by
    rw [hshared]
    exact hdata.output_free
  fits row hrow := by
    rw [hshared, h.schema_eq hstages]
    exact (htyped.schema hstages).fits hrow

/-- The start of the aggregation gives a scratch row of the width that a projection declares, or a
parameter is at fault. -/
theorem start_sound (params : List Value) (hstages : scan.node.isPassThrough = false)
    (hshared : outlet.shared = store.get scan.output.table) :
    Sound (fun scratch : Row => ∀ projection ∈ scan.node.projection,
        scratch.length = projection.width)
      (scan.start params (store.get scan.source) outlet.shared).1 := by
  cases hmachine : scan.machine with
  | none =>
      have hfree : outlet.shared.hold = .free := by rw [hshared, hdata.output_free]
      rw [start_of_none params (store.get scan.source) hmachine hfree]
      intro projection hprojection
      rw [Row.length_nulls, hshared, h.schema_eq hstages]
      exact htyped.width_eq h.projection_ok (h.machine_eq_none_iff.mp hmachine) hprojection
  | some idle =>
      have hsound := idle.init_sound params
        (scan.node.inputSchema (store.get scan.source).table.schema).width
      rw [start_of_machine params outlet.shared hmachine hdata.source_free]
      rcases hinit : idle.init params
        (scan.node.inputSchema (store.get scan.source).table.schema).width with ⟨_ | scratch, next⟩
      · exact hsound.of_error (congrArg Prod.fst hinit)
      · intro projection hprojection
        have hsome : scan.node.projection = some projection := hprojection
        rw [Machine.scratch_of_init hinit, Row.length_nulls]
        simp only [ScanNode.inputSchema, hsome, Projection.width]

/-- **The preparation** succeeds, or a parameter is at fault. -/
theorem prepare_sound (hstages : scan.node.isPassThrough = false)
    (hshared : outlet.shared = store.get scan.output.table) :
    Sound (fun _ => True) (scan.prepare params (store.get scan.source) outlet).1 := by
  have hsource : (store.get scan.source).write = .ok (store.get scan.source).table := by
    rw [SharedTable.write, hdata.source_free]
  have hwindow := WindowSpec.resolveOptional_sound scan.node.window params
  have hstart := start_sound h htyped hdata params hstages hshared
  simp only [prepare, h.writable hstages]
  cases hout : WindowSpec.resolveOptional scan.node.window params with
  | error e => exact hwindow.of_error hout
  | ok window =>
      dsimp only [bind, Except.bind]
      rcases hscratch : scan.start params (store.get scan.source) outlet.shared
        with ⟨_ | scratch, machine⟩ <;> rw [hscratch] at hstart
      · exact hstart
      · obtain ⟨route, hroute, -⟩ := exists_route scratch h.projection_ok hstart
        simp only [hroute, hsource]
        trivial

/-- **The aggregation**, once started and fed images of the static types, fails only for the data's
sake. -/
theorem complete_sound {idle : Machine} {width : Nat} {scratch : Row}
    (hidle : idle ∈ scan.machine) (hinit : (idle.init params width).1 = .ok scratch)
    (hshared : outlet.shared = store.get scan.output.table)
    (himages : ∀ image ∈ images,
      image.Conforms (scan.node.imageLayout (store.get scan.source).table.schema)) :
    Sound (fun _ => True) ((idle.init params width).2.complete images outlet).1 := by
  have haggregate : scan.node.aggregate = some idle.node := by
    rw [← h.machine_node, show scan.machine = some idle from hidle, Option.map_some]
  have hstages : scan.node.isPassThrough = false := by
    simp [ScanNode.isPassThrough, haggregate]
  have htakes := outlet_takes h htyped hdata hstages hshared
  simp only [ScanNode.outputLayout, haggregate] at htakes
  exact Machine.complete_sound (htyped.aggregate idle.node haggregate) hinit himages htakes

/-- **A row fails** for the data's sake, provided that its image is refused for no other reason. -/
theorem ofData_of_rowFault {refused : Row → Prop}
    (hrow : row ∈ (store.get scan.source).table.rows.toList)
    (hfault : RowFault scan.node window seen row refused e)
    (hrefused : ∀ image,
      image.Conforms (scan.node.imageLayout (store.get scan.source).table.schema) →
        refused image → e.OfData) : e.OfData := by
  have himage := image_sound h htyped hdata hrow
  cases hfault with
  | predicate hpredicate herror =>
      have hrange := htyped.predicate _ hpredicate
      rw [← Schema.length_layout] at hrange
      exact (Expr.eval_sound (Row.conforms_layout_iff.mpr (hdata.fits row hrow)) _ hrange).of_error
        herror
  | image hselected herror => exact himage.of_error herror
  | delivery hselected hok hno => exact hrefused _ (himage.of_ok hok) hno

/-- **Wherever an execution fails**, it fails for the data's sake. -/
theorem ofData_of_failure {traced : Bool} {taken : Nat} {sink : Option Machine × SharedTable}
    (hstages : scan.node.isPassThrough = false)
    (hshared : outlet.shared = store.get scan.output.table)
    (hfailure : Failure scan params store outlet traced e taken sink) : e.OfData := by
  cases hfailure with
  | early hearly =>
      rcases hearly with hname | hprepare
      · obtain ⟨name, hok⟩ := exists_sourceName hdata.source_free
        rw [hname] at hok
        cases hok
      · exact (prepare_sound h htyped hdata hstages hshared).of_error hprepare
  | @inserting window route seen rest images row hprepared hrows hselects hfault =>
      have hrow : row ∈ (store.get scan.source).table.rows.toList := by simp [hrows]
      refine ofData_of_rowFault h htyped hdata hrow hfault fun image himage hrefused => ?_
      -- An image of the static types fits, so that it is not refused.
      have hmachine : scan.machine = none := Option.map_eq_none_iff.mp hprepared.machine_eq.symm
      have haggregate := h.machine_eq_none_iff.mp hmachine
      have htakes := outlet_takes h htyped hdata hstages hshared
      simp only [ScanNode.outputLayout, haggregate] at htakes
      have hinsert : (outlet.shared.appendAll images).insert image = (.ok (), _) :=
        SharedTable.insert_eq_ok_iff.mpr
          ⟨htakes.free, by simpa using htakes.fits image himage, rfl⟩
      rw [hinsert] at hrefused
      cases hrefused
  | @feeding window route machine seen rest images fed row hprepared hrows hselects hmore hfault
      hfed =>
      have hrow : row ∈ (store.get scan.source).table.rows.toList := by simp [hrows]
      have himages := images_conform h htyped hdata (fun row hrow => by simp [hrows, hrow]) hselects
      refine ofData_of_rowFault h htyped hdata hrow hfault fun image himage hrefused => ?_
      obtain ⟨idle, hidle, rfl⟩ := Option.map_eq_some_iff.mp hprepared.machine_eq.symm
      obtain ⟨scratch, hinit⟩ := hprepared.started idle hidle
      -- The image that is refused is the last one of a completion.
      have hall : ∀ other ∈ images ++ [image],
          other.Conforms (scan.node.imageLayout (store.get scan.source).table.schema) := by
        intro other hother
        rcases List.mem_append.mp hother with hold | hlast
        · exact himages other hold
        · rwa [List.mem_singleton.mp hlast]
      exact (complete_sound h htyped hdata hidle hinit hshared hall).of_error
        (Machine.complete_concat_of_error hmore hrefused)
  | finishing hprepared hrows hselects hfed hend herror =>
      have himages := images_conform h htyped hdata (fun row hrow => by simp [hrows, hrow]) hselects
      obtain ⟨idle, hidle, rfl⟩ := Option.map_eq_some_iff.mp hprepared.machine_eq.symm
      obtain ⟨scratch, hinit⟩ := hprepared.started idle hidle
      exact (complete_sound h htyped hdata hidle hinit hshared himages).of_error herror
  | tracing _ _ _ _ _ _ _ hwriter =>
      rw [hshared, hdata.output_free] at hwriter
      cases hwriter

end WellTyped

variable {node : ScanNode} {scan : Scan} {store : Store} {params : List Value} {e : EngineError}

/-- **Well-typed plans never fail structurally.**  Take a scan in use whose plan is well typed over
the schema of its source, and tables that provide what it needs.  If an execution fails, a parameter
or an operand was out of range or of an unsupported kind; it is never the plan, a table, a vertex or
the aggregation that is at fault. -/
theorem execute_sound (context : Context) (h : InUse node scan store)
    (htyped : node.WellTyped (store.get scan.source).table.schema) (hdata : scan.Supplied store)
    (herror : (scan.execute context params store).outcome = .error e) :
    e.OfData ∧ e.report.isConfigurationDefect = false := by
  obtain rfl := h.node_eq
  suffices hsound : e.OfData from ⟨hsound, hsound.isConfigurationDefect⟩
  obtain ⟨name, hname⟩ := exists_sourceName hdata.source_free
  cases hfull : scan.node.emptyScan with
  | true =>
      rw [execute_of_empty context params hname hfull] at herror
      cases herror
  | false =>
      cases hstages : scan.node.isPassThrough with
      | true =>
          rw [execute_of_isPassThrough context params hname hfull hstages] at herror
          cases herror
      | false =>
          obtain ⟨taken, hfailure, -⟩ := run_fails (scan.outlet context store) h.projection_ok
            hname rfl (error_of_execute hname hfull hstages herror)
          exact ofData_of_failure h htyped hdata hstages rfl hfailure

/-! ### An example: sums of quotients -/

/-- The sums of `6 / (n - 3)` over the ids `n` of each out-degree, as far as they are negative. -/
def quotientSums : ScanNode :=
  ⟨0, some people, [], false, false, none,
    some ⟨[.column 0, .arith .div (.constant (.int 6))
        (.arith .sub (.column 0) (.constant (.int 3)))],
      ⟨[⟨"id", .int⟩, ⟨"quotient", .int⟩, ⟨"out", .int⟩, ⟨"in", .int⟩]⟩⟩, none,
    some ⟨.hash, [.column 2], [⟨.sum, some (.column 1)⟩, ⟨.countStar, none⟩],
      some (.compare .lt (.column 1) (.constant (.int 0))), none,
      ⟨[⟨"out", .int⟩, ⟨"total", .int⟩, ⟨"n", .int⟩]⟩⟩,
    ⟨[⟨"out", .int⟩, ⟨"total", .int⟩, ⟨"n", .int⟩]⟩⟩

/-- The scan that computes them, and the store with its output. -/
def quotientSumsScan : Scan × Store :=
  (⟨quotientSums, 0, .owned 1, quotientSums.aggregate.map Machine.ofNode⟩,
    (peopleStore.add (.empty "people_vertexes" quotientSums.schema)).2)

/-- The plan is well typed and the tables provide what it needs, but the quotient of the third id does
not exist. -/
theorem execute_sound_quotientSums :
    let scan := quotientSumsScan.1
    let store := quotientSumsScan.2
    InUse quotientSums scan store ∧
      quotientSums.WellTyped (store.get scan.source).table.schema ∧ scan.Supplied store ∧
      (scan.execute ⟨0, default, none, false, false⟩ [] store).outcome = .error .divisionByZero ∧
      EngineError.divisionByZero.OfData := by
  intro scan store
  have hinit : Scan.init (.scan quotientSums) peopleStore = .ok (scan, store) := rfl
  have huse : InUse quotientSums scan store := inUse_of_init hinit (by decide)
  have htyped : quotientSums.WellTyped idSchema := by
    constructor
    · intro predicate hpredicate
      cases hpredicate
    · intro projection hprojection
      cases hprojection
      simp [Expr.InRange, Schema.width, idSchema]
    · intro aggregate haggregate
      cases haggregate
      constructor
      · simp [Expr.InRange, ScanNode.imageLayout, quotientSums, Projection.degreeColumns]
      · simp [AggregateExpr.InRange, Expr.InRange, ScanNode.imageLayout, quotientSums]
      · simp [Expr.InRange]
    · intro _
      refine .cons ?_ (.cons ?_ (.cons ?_ .nil))
      · intro wanted hwanted
        cases hwanted
        rfl
      · intro wanted hwanted
        cases hwanted
        rfl
      · intro wanted hwanted
        cases hwanted
        rfl
  have hrows : ∀ row ∈ (store.get scan.source).table.rows.toList,
      row = [.int 1] ∨ row = [.int 2] ∨ row = [.int 3] ∨ row = [.int 4] := by
    show ∀ row ∈ ([[.int 1], [.int 2], [.int 3], [.int 4]] : List Row), _
    simp
  have hdata : scan.Supplied store := by
    refine ⟨rfl, rfl, ?_, ?_⟩
    · intro row hrow
      rcases hrows row hrow with rfl | rfl | rfl | rfl <;> exact .cons rfl .nil
    · intro _ graph hgraph row hrow
      cases hgraph
      rcases hrows row hrow with rfl | rfl | rfl | rfl <;> exact ⟨_, rfl, rfl⟩
  have herror : (scan.execute ⟨0, default, none, false, false⟩ [] store).outcome =
      .error .divisionByZero := rfl
  obtain ⟨hsound, -⟩ := execute_sound ⟨0, default, none, false, false⟩ huse htyped hdata herror
  exact ⟨huse, htyped, hdata, herror, hsound⟩

end Scan

end GraphScan
