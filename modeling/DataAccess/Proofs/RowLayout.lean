import DataAccess.Proofs.ArgsMethod
import DataAccess.Proofs.ExportedNames
import DataAccess.Proofs.SqlColumns
import DataAccess.Proofs.WellFormed

set_option autoImplicit false

/-! # Rows and their columns

Four parts of the generated code have the columns of a model in them: the statement of a find, the
statement that creates the table, the struct of a row with its tags, and the loop that scans rows
into such structs. Each part is read back on its own here. They agree because the check of a model's
columns makes different columns different fields (`nodup_exported_allColumns`). -/

namespace DataAccess.Go

open DataAccess.Naming

/-! ## Tags -/

/-- The characters that stand for themselves between the quotes of a tag. -/
def isTagChar (c : Char) : Bool := c != '\"' && c != '\\' && c != '\x60' && c != '\n'

/-- The column that a tag names, as `db:"id"` names `id`. -/
def tagColumn? (tag : String) : Option String :=
  ("db:\"".toList.isPrefixOf? tag.toList).bind fun rest =>
    if rest.dropWhile isTagChar = ['\"'] then some (String.ofList (rest.takeWhile isTagChar))
    else none

/-- The fields of a struct that are tagged with a column. -/
def Struct.fieldsFor (s : Struct) (column : String) : List String :=
  (s.fields.filter fun f => f.tag.bind tagColumn? == some column).map Field.name

theorem isTagChar_of_isIdentifierPart {c : Char} (h : isIdentifierPart c = true) :
    isTagChar c = true := by
  have hne : ∀ e : Char, e.toNat < 0x80 ∧ (e.isAlphanum || e == '_') = false → c ≠ e := by
    rintro e ⟨hascii, hnone⟩ rfl
    rw [isIdentifierPart_ascii hascii, hnone] at h
    cases h
  simp [isTagChar, hne '\"' (by decide), hne '\\' (by decide), hne '\x60' (by decide),
    hne '\n' (by decide)]

theorem isTagChar_of_isSeparator {c : Char} (h : isSeparator c = true) : isTagChar c = true := by
  simp only [isSeparator, Bool.or_eq_true, beq_iff_eq] at h
  rcases h with ((rfl | rfl) | rfl) | rfl <;> decide

/-- A column whose field is an identifier can stand in a tag as it is. -/
theorem all_isTagChar {column : String} (h : isIdentifier (exported column) = true) :
    ∀ c ∈ column.toList, isTagChar c = true := by
  intro c hc
  rcases isIdentifierPart_or_isSeparator h c hc with hpart | hsep
  · exact isTagChar_of_isIdentifierPart hpart
  · exact isTagChar_of_isSeparator hsep

theorem tagColumn?_columnTag {column : String} (h : ∀ c ∈ column.toList, isTagChar c = true) :
    tagColumn? (Generation.columnTag column) = some column := by
  have hrest : "db:\"".toList.isPrefixOf? (Generation.columnTag column).toList =
      some (column.toList ++ ['\"']) := by
    unfold Generation.columnTag
    simp
  have hquote : isTagChar '\"' = false := by decide
  rw [tagColumn?, hrest, Option.bind_some, List.dropWhile_append_of_pos h,
    List.takeWhile_append_of_pos h]
  simp [hquote]

end DataAccess.Go

namespace DataAccess.Generation

open Go (Field Func Node Struct exported isIdentifier)
open Sql (Dialect Statement)
open Validation

/-! ## Scans -/

/-- How a function takes the rows of a result: into which struct, and into which of its fields the
columns go, one after the other. -/
structure RowScan where
  row : String
  fields : List String
  deriving DecidableEq

/-- The object, the method and the arguments of a call of a method that runs at once. -/
def methodCall? (n : Node) : Option (String × String × List Node) :=
  match n.shape with
  | .call ⟨.method object name, args, false, .immediate, _⟩ =>
    (ident? object).map fun s => (s, name, args)
  | _ => none

/-- Reads the statement that makes an empty struct: the variable it is put in, and its type. -/
def newRow? (n : Node) : Option (String × String) :=
  match n.capture, n.shape with
  | .define [item], .unary .addressOf value => match value.shape with
    | .composite (some type) [] _ => some (item, type.render)
    | _ => none
  | _, _ => none

/-- Reads the address of a field of the struct in a variable. -/
def fieldAddress? (item : String) (n : Node) : Option String :=
  match n.shape with
  | .unary .addressOf value => (ident? value).bind fun path =>
    ((item ++ ".").toList.isPrefixOf? path.toList).map String.ofList
  | _ => none

/-- Reads the statement that scans a row into fields and stops if that fails. -/
def scannedFields? (item : String) (n : Node) : Option (List String) :=
  match n.capture, n.handler, methodCall? n with
  | .assign ["err"], some ⟨"err", _⟩, some ("rows", "Scan", targets) =>
    targets.mapM (fieldAddress? item)
  | _, _, _ => none

/-- Whether a statement appends the variable to a list. -/
def appendsItem (item : String) (n : Node) : Bool :=
  match n.capture, functionCall? n with
  | .assign [items], some ("append", [list, value]) =>
    ident? list == some items && ident? value == some item
  | _, _ => false

/-- Reads the loop that takes row after row. -/
def rowScan? (n : Node) : Option RowScan :=
  match n.shape with
  | .loop condition [new, scan, append] => match methodCall? condition, newRow? new with
    | some ("rows", "Next", []), some (item, row) =>
      if appendsItem item append then (scannedFields? item scan).map (⟨row, ·⟩) else none
    | _, _ => none
  | _ => none

/-- Reads how a function takes the rows of its result. -/
def funcScan? (f : Func) : Option RowScan := f.body.findSome? rowScan?

theorem fieldAddress?_target (field : String) :
    fieldAddress? "item" (.unary .addressOf (.ident ("item." ++ field))) = some field := by
  show (("item" ++ ".").toList.isPrefixOf? ("item." ++ field).toList).map String.ofList = _
  simp

theorem mapM_fieldAddress? (columns : List String) :
    (scanTargets columns).mapM (fieldAddress? "item") = some (columns.map exported) := by
  induction columns with
  | nil => rfl
  | cons c columns ih =>
      have hcons : scanTargets (c :: columns) =
          .unary .addressOf (.ident ("item." ++ exported c)) :: scanTargets columns := by
        rw [scanTargets, List.map_cons, scanTargets]
      rw [hcons, List.mapM_cons, fieldAddress?_target, ih]
      rfl

/-- The loop over the rows of a result. -/
def scanLoop (row : String) (targets : List Node) : Node :=
  .loop (.call (.method (.ident "rows") "Next" []))
    [⟨.unary .addressOf (.composite (some (.builtin row)) []), .define ["item"], none, none⟩,
     ⟨.call (.method (.ident "rows") "Scan" targets), .assign ["err"],
       some (onError .find), none⟩,
     ⟨.call (.function "append" [.ident "items", .ident "item"]), .assign ["items"], none, none⟩]

theorem rowScan?_scanLoop (row : String) (targets : List Node) :
    rowScan? (scanLoop row targets) =
      (targets.mapM (fieldAddress? "item")).map (⟨row, ·⟩) := rfl

/-- The loop is the only part of a find that takes rows. -/
theorem queryRows_ok (row : String) (columns : List String) :
    ∃ before after, queryRows row columns =
        .ok (before ++ scanLoop row (scanTargets columns) :: after) ∧
      ∀ n ∈ before, rowScan? n = none := by
  refine ⟨[_, _], [_, _], rfl, ?_⟩
  simp only [List.forall_mem_cons]
  exact ⟨rfl, rfl, by simp⟩

theorem prologue_ok (s : Statement) :
    ∃ nodes, prologue s = .ok nodes ∧ ∀ n ∈ nodes, rowScan? n = none := by
  refine ⟨[_, _, _], rfl, ?_⟩
  simp only [List.forall_mem_cons]
  exact ⟨rfl, rfl, rfl, by simp⟩

/-- The access function of a find scans every row into the fields of the columns it is given. -/
theorem accessFunction_find {s : Statement} (hkind : s.kind = .find) (row : String)
    (columns : List String) :
    ∃ f, accessFunction s row columns = .ok f ∧
      funcScan? f = some ⟨row, columns.map exported⟩ := by
  obtain ⟨start, hstart, hnone⟩ := prologue_ok s
  obtain ⟨before, after, hrows, hbefore⟩ := queryRows_ok row columns
  rw [accessFunction, hkind, resultNodes]
  refine ⟨_, bind_eq_ok.2 ⟨_, hstart, bind_eq_ok.2 ⟨_, hrows, rfl⟩⟩, ?_⟩
  rw [funcScan?, List.findSome?_append, List.findSome?_eq_none_iff.2 hnone, Option.none_or,
    List.findSome?_append, List.findSome?_eq_none_iff.2 hbefore, Option.none_or,
    List.findSome?_cons, rowScan?_scanLoop, mapM_fieldAddress?]
  rfl

/-! ## Structs of rows -/

section Columns

variable {r : Registry} {m : Model} {m' : Resolved}

theorem isIdentifier_fixedFields :
    ∀ name ∈ ["ID", "Version", "UpdatedAt"], isIdentifier name = true := by decide

/-- Every column of a model is a field that is an identifier. -/
theorem isIdentifier_allColumns (h : resolveModel r m = .ok m') :
    ∀ c ∈ allColumns m', isIdentifier (exported c) = true := by
  obtain ⟨hcolumns, -⟩ := checkColumns_iff.1 (resolveModel_columns h).1
  intro c hc
  rcases List.mem_append.1 hc with hc | hc
  · apply isIdentifier_fixedFields
    rw [← exported_fixedColumns]
    exact List.mem_map_of_mem hc
  · obtain ⟨a, ha, rfl⟩ := List.mem_map.1 hc
    exact (hcolumns a ha).2

/-- Different columns of a model are different fields. -/
theorem nodup_exported_allColumns (h : resolveModel r m = .ok m') :
    ((allColumns m').map exported).Nodup := by
  obtain ⟨-, hnodup, hnew⟩ := checkColumns_iff.1 (resolveModel_columns h).1
  have hfixed : (Sql.fixedColumns.map exported).Nodup := by
    rw [exported_fixedColumns]
    decide
  -- The check starts with the fields of the fixed columns.
  have hseen : Validation.fixedFields.map Prod.fst = Sql.fixedColumns.map exported := by
    rw [Validation.fixedFields, List.map_map, Function.comp_def]
  rw [hseen] at hnew
  rw [allColumns, List.map_append, List.map_map, Function.comp_def, List.nodup_append]
  refine ⟨hfixed, hnodup, ?_⟩
  rintro a ha _ hb rfl
  exact hnew a hb ha

/-- The fields of a row, column by column. -/
theorem rowFields_eq (m' : Resolved) :
    (rowStruct m').fields.map (fun f => (f.name, f.tag)) =
      (allColumns m').map fun c => (exported c, some (columnTag c)) := by
  have hfixed : fixedFields.map (fun f => (f.name, f.tag)) =
      Sql.fixedColumns.map fun c => (exported c, some (columnTag c)) := by decide +kernel
  rw [rowStruct, allColumns, List.map_append, List.map_append, hfixed]
  simp only [List.map_map, Function.comp_def, columnField]

theorem rowNames_eq (m' : Resolved) :
    (rowStruct m').fields.map Field.name = (allColumns m').map exported := by
  have hpairs := congrArg (List.map Prod.fst) (rowFields_eq m')
  simpa only [List.map_map, Function.comp_def] using hpairs

/-- Exactly one field of a row is tagged with a column, and it is the field of the column. -/
theorem fieldsFor_rowStruct (h : resolveModel r m = .ok m') {c : String} (hc : c ∈ allColumns m') :
    (rowStruct m').fieldsFor c = [exported c] := by
  have hids := isIdentifier_allColumns h
  have hone : (allColumns m').count c = 1 :=
    List.count_eq_one_of_mem (nodup_exported_allColumns h).of_map hc
  -- Every tag can be read back, so it is the columns that are compared, and they differ.
  have htags : ∀ c' ∈ allColumns m',
      ((some (columnTag c')).bind Go.tagColumn? == some c) = (c' == c) := by
    intro c' hc'
    rw [Option.bind_some, Go.tagColumn?_columnTag (Go.all_isTagChar (hids c' hc'))]
    rfl
  have hpairs : (rowStruct m').fieldsFor c =
      (((rowStruct m').fields.map fun f => (f.name, f.tag)).filter fun p =>
        p.2.bind Go.tagColumn? == some c).map Prod.fst := by
    rw [Struct.fieldsFor, List.filter_map, List.map_map]
    rfl
  calc (rowStruct m').fieldsFor c
      = ((allColumns m').filter fun c' =>
          (some (columnTag c')).bind Go.tagColumn? == some c).map exported := by
        rw [hpairs, rowFields_eq]
        simp only [List.filter_map, List.map_map, Function.comp_def]
    _ = ((allColumns m').filter (· == c)).map exported := by
        rw [List.filter_congr htags]
    _ = [exported c] := by
        rw [List.filter_beq, hone]
        rfl

end Columns

/-! ## Agreement -/

/-- A find returns the columns, and its access function scans each of them into the one field of the
row that is tagged with it. -/
structure ReadsRows (d : Dialect) (r : Resolved) (u : MethodUnit) (columns : List String) :
    Prop where
  returned : Sql.resultColumns? ((tableOf r).create d) u.statement.sql = some columns
  scanned : ∃ fields, funcScan? u.access = some ⟨(rowStruct r).name, fields⟩ ∧
    List.Forall₂ (fun column field => (rowStruct r).fieldsFor column = [field]) columns fields

theorem methodUnit_find (d : Dialect) (r : Resolved) (q : Find) :
    ∃ u, methodUnit d r (.find q) = .ok u ∧
      u.statement = Sql.compileMethod d r.model (.find q) ∧
      funcScan? u.access = some ⟨(rowStruct r).name, (scanColumns r (.find q)).map exported⟩ := by
  obtain ⟨f, hf, hscan⟩ := accessFunction_find (s := Sql.compileMethod d r.model (.find q)) rfl
    (exported r.name) (scanColumns r (.find q))
  have hname : (rowStruct r).name = exported r.name := by rw [rowStruct]
  rw [methodUnit, requestStruct_eq, hname]
  exact ⟨_, bind_eq_ok.2 ⟨_, rfl, bind_eq_ok.2 ⟨f, hf, rfl⟩⟩, rfl, hscan⟩

theorem mem_methods_of_mem_find {a : Access} {q : Find} (h : q ∈ a.find) :
    Method.find q ∈ a.methods := by
  simp only [Access.methods, List.append_assoc]
  exact List.mem_append_left _ (List.mem_map_of_mem h)

/-- **A find, its scan, the struct of a row and the table agree on the columns.** The fields of the
struct differ and are identifiers. A find without columns of its own returns those of the table: the
fixed ones, then the attributes of the model. -/
theorem find_scans_selected {r : Registry} {m : Model} {m' : Resolved}
    (h : resolveModel r m = .ok m') (d : Dialect) :
    ((rowStruct m').fields.map Field.name).Nodup ∧
      (∀ f ∈ (rowStruct m').fields, isIdentifier f.name = true) ∧
      ∃ unit, modelUnit d m' = .ok unit ∧ rowStruct m' ∈ unit.structs ∧
        ∀ q ∈ m'.model.access.find, ∃ u, methodUnit d m' (.find q) = .ok u ∧
          u.statement ∈ unit.statements ∧ u.access ∈ unit.funcs ∧
          ReadsRows d m' u (if q.attributes.isEmpty then
            Sql.fixedColumns ++ m'.columns.map Attribute.name else q.attributes) := by
  obtain ⟨unit, hunit, -⟩ := modelUnit_ok d m'
  obtain ⟨hrow, hmethods⟩ := mem_modelUnit hunit
  refine ⟨?_, ?_, unit, hunit, hrow, ?_⟩
  · rw [rowNames_eq]
    exact nodup_exported_allColumns h
  · intro f hf
    have hname : f.name ∈ (rowStruct m').fields.map Field.name := List.mem_map_of_mem hf
    rw [rowNames_eq] at hname
    obtain ⟨c, hc, heq⟩ := List.mem_map.1 hname
    rw [← heq]
    exact isIdentifier_allColumns h c hc
  · intro q hq
    obtain ⟨u, hu, hstatement, hscan⟩ := methodUnit_find d m' q
    obtain ⟨hstatements, hfuncs⟩ := hmethods _ (mem_methods_of_mem_find hq) u hu
    have hprojection := checkProjection_iff.1 ((resolveModel_columns h).2 q hq)
    have hall : ∀ c ∈ scanColumns m' (.find q), c ∈ allColumns m' := by
      intro c hc
      rw [scanColumns] at hc
      split at hc
      · exact hc
      · exact hprojection c hc
    refine ⟨u, hu, hstatements, hfuncs, ?_, _, hscan, ?_⟩
    · rw [hstatement]
      exact resultColumns_find d m' q hprojection
    · rw [List.forall₂_map_right_iff]
      exact List.forall₂_same.2 fun c hc => fieldsFor_rowStruct h (hall c hc)

/-- A table in a schema, with columns that have to be quoted and two that come close. -/
def lineRegistry : Registry :=
  .ofList
    [{ id := "line.order", name := "order", type := .uuid },
     { id := "line.sum", name := "total-sum", type := .float },
     { id := "line.sums", name := "totalSums", type := .json }]

def lineModel : Model :=
  { name := "order_line"
    schema := some "shop"
    attributes := ["line.order", "line.sum", "line.sums"]
    access :=
      { find :=
          [{ name := "FindLines" },
           { name := "FindSums", attributes := ["line.sum", "updated_at", "line.order"] }] } }

theorem lineModel_scans :
    ∃ m', resolveModel lineRegistry lineModel = .ok m' ∧
      m'.model.access.find.map Find.attributes = [[], ["total-sum", "updated_at", "order"]] ∧
      ((rowStruct m').fields.map Field.name).Nodup ∧
      (∀ f ∈ (rowStruct m').fields, isIdentifier f.name = true) ∧
      ∃ unit, modelUnit .sqlite m' = .ok unit ∧ rowStruct m' ∈ unit.structs ∧
        ∀ q ∈ m'.model.access.find, ∃ u, methodUnit .sqlite m' (.find q) = .ok u ∧
          u.statement ∈ unit.statements ∧ u.access ∈ unit.funcs ∧
          ReadsRows .sqlite m' u (if q.attributes.isEmpty then
            Sql.fixedColumns ++ m'.columns.map Attribute.name else q.attributes) := by
  have hfinds : (resolveModel lineRegistry lineModel).toOption.map
      (fun m' => m'.model.access.find.map Find.attributes) =
      some [[], ["total-sum", "updated_at", "order"]] := by decide +kernel
  cases h : resolveModel lineRegistry lineModel with
  | error e => rw [h] at hfinds; cases hfinds
  | ok m' =>
      rw [h] at hfinds
      exact ⟨m', rfl, Option.some.inj hfinds, find_scans_selected h .sqlite⟩

end DataAccess.Generation
