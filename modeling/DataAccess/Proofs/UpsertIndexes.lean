import DataAccess.Proofs.SchemaStatements
import DataAccess.Proofs.Substitution

set_option autoImplicit false

/-! # Upserts and their unique indexes

A statement and the schema of its model are written by different functions, from the model and from
the table made of it. What they have to agree on is read from both texts and compared there
(`Carries`): the table, and the columns by which an upsert finds the row to replace. The main result
is that the schema of every accepted model carries its statements (`upserts_have_unique_index`). -/

namespace DataAccess.Sql

/-! ## Statements by their words -/

theorem written_tableOf (m : Model) : Written isNamePart (tableOf m).toList :=
  written_qualified m.schema m.tableName

/-- A statement names its table behind the last of its first words. -/
theorem tableText?_words {p : Char → Bool} {words : String} (before : List String) (w : String)
    (hwords : Written p words.toList) (hpieces : pieces words = before ++ [w])
    (hw : w ∈ ["FROM", "INTO", "UPDATE"]) (hbefore : ∀ p ∈ before, p ∉ ["FROM", "INTO", "UPDATE"])
    (m : Model) (rest : String) :
    tableText? (words ++ " " ++ (tableOf m ++ " " ++ rest)) = some (tableOf m) := by
  have htable := written_tableOf m
  rw [tableText?, pieces_append hwords, pieces_append htable, pieces_name htable, hpieces,
    List.append_assoc, List.singleton_append, behind_append hw hbefore]
  rfl

/-- The columns that a find reads are not mistaken for words of the statement. -/
theorem projection_spec (columns : List String) :
    Written isScriptPart (projection columns).toList ∧
      ∀ p ∈ pieces (projection columns), p ∉ ["FROM", "INTO", "UPDATE"] := by
  rw [projection]
  split
  · exact ⟨.of_all (by decide), by decide⟩
  · have hlist := written_quoteAll columns
    refine ⟨hlist.mono fun _ => isScriptPart_of_isListPart, fun p hp hword => ?_⟩
    simp only [List.mem_cons, List.not_mem_nil, or_false] at hword
    rcases hword with rfl | rfl | rfl
    · exact not_mem_pieces hlist rfl (by decide) hp
    · exact not_mem_pieces hlist rfl (by decide) hp
    · exact not_mem_pieces hlist rfl (by decide) hp

theorem written_placeholder (d : Dialect) (n : Nat) :
    Written isListPart (d.placeholder n).toList := by
  cases d with
  | sqlite =>
      rw [Dialect.placeholder]
      exact .of_all (by decide)
  | postgres =>
      have hdigits : Written isListPart (toString n).toList := by
        refine .of_all (List.all_eq_true.2 fun c hc => ?_)
        have hdigit := isDigit_of_mem_toString hc
        have hquote : c ≠ '\"' := by
          rintro rfl
          exact absurd hdigit (by decide)
        simp [isListPart, isNamePart, isPlainPart, hdigit, hquote]
      rw [Dialect.placeholder, String.toList_append]
      exact Written.append (.of_all (by decide)) hdigits

theorem written_slots (d : Dialect) (next : Nat) (params : List Parameter) :
    Written isListPart ((slots params).render d next).toList := by
  rw [slots, Fragment.render_join]
  apply written_list
  induction params generalizing next with
  | nil => simp [Fragment.renderEach]
  | cons p params ih =>
      rw [List.map_cons, Fragment.renderEach]
      refine List.forall_mem_cons.2 ⟨?_, ih _⟩
      simpa [Fragment.render] using written_placeholder d next

theorem written_insertColumns (values : List Assignment) :
    Written isListPart (String.intercalate ", " (insertColumns values)).toList := by
  have hcolumns : insertColumns values = (idColumn :: values.map Assignment.attr).map quote := by
    simp [insertColumns]
  rw [hcolumns]
  exact written_quoteAll _

/-- An insertion, by its words. -/
theorem render_insert (d : Dialect) (next : Nat) (m : Model) (values : List Assignment)
    (rest : Fragment) : ∃ slots : String, Written isListPart slots.toList ∧
      Fragment.render d next (insertFragment m values ++ rest) =
        "INSERT INTO" ++ " " ++ (tableOf m ++ " " ++
          (inParens (String.intercalate ", " (insertColumns values)) ++ " " ++
            ("VALUES" ++ " " ++ (inParens slots ++
              rest.render d (next + (insertFragment m values).params.length))))) := by
  refine ⟨_, written_slots d next (insertParameters values), ?_⟩
  have hhead : "INSERT INTO " = "INSERT INTO" ++ " " := by decide
  have hopen : " (" = " " ++ "(" := by decide
  have hvalues : ") VALUES (" = ")" ++ (" " ++ ("VALUES" ++ (" " ++ "("))) := by decide
  rw [Fragment.render_append, insertFragment, List.cons_append, Fragment.render,
    Fragment.render_append, hhead, hopen, hvalues, inParens, inParens]
  simp only [Fragment.render, String.append_assoc, String.append_empty]

theorem sql_compileMethod (d : Dialect) (m : Model) (q : Method) :
    (compileMethod d m q).sql = (methodFragment d m q).render d d.firstPlaceholder := rfl

/-- An upsert, by its words. -/
theorem sql_upsert (d : Dialect) (m : Model) (u : Upsert) :
    ∃ slots rest : String, Written isListPart slots.toList ∧
      (compileMethod d m (.addOrReplace u)).sql =
        "INSERT INTO" ++ " " ++ (tableOf m ++ " " ++
          (inParens (String.intercalate ", " (insertColumns u.values)) ++ " " ++
            ("VALUES" ++ " " ++ (inParens slots ++ " " ++ ("ON CONFLICT" ++ " " ++
              (inParens (quoteAll u.conflictTarget) ++ " " ++ ("DO" ++ " " ++ rest))))))) := by
  have hclause : ∀ (before : String) (next : Nat) (tail : Fragment),
      before ++ Fragment.render d next
        (.text (" ON CONFLICT (" ++ quoteAll u.conflictTarget ++ ") DO UPDATE SET ") :: tail) =
      before ++ " " ++ ("ON CONFLICT" ++ " " ++ (inParens (quoteAll u.conflictTarget) ++ " " ++
        ("DO" ++ " " ++ ("UPDATE SET " ++ tail.render d next)))) := by
    intro before next tail
    have hopen : " ON CONFLICT (" = " " ++ ("ON CONFLICT" ++ (" " ++ "(")) := by decide
    have hclose : ") DO UPDATE SET " = ")" ++ (" " ++ ("DO" ++ (" " ++ "UPDATE SET "))) := by
      decide
    rw [Fragment.render, hopen, hclose, inParens]
    simp only [String.append_assoc]
  rw [sql_compileMethod, methodFragment, List.append_assoc, List.cons_append]
  obtain ⟨slots, hslots, hsql⟩ := render_insert d d.firstPlaceholder m u.values _
  rw [hclause] at hsql
  exact ⟨slots, _, hslots, hsql⟩

theorem tableText?_insert (d : Dialect) (m : Model) (values : List Assignment) (rest : Fragment) :
    tableText? (Fragment.render d d.firstPlaceholder (insertFragment m values ++ rest)) =
      some (tableOf m) := by
  obtain ⟨slots, -, hsql⟩ := render_insert d d.firstPlaceholder m values rest
  rw [hsql]
  exact tableText?_words (p := isScriptPart) ["INSERT"] "INTO"
    (.of_all (by decide)) (by decide) (by decide) (by decide) m _

theorem tableText?_find (d : Dialect) (m : Model) (q : Find) :
    tableText? (Fragment.render d d.firstPlaceholder (methodFragment d m (.find q))) =
      some (tableOf m) := by
  have hsql : Fragment.render d d.firstPlaceholder (methodFragment d m (.find q)) =
      ("SELECT" ++ " " ++ (projection q.attributes ++ " " ++ "FROM")) ++ " " ++
        (tableOf m ++ " " ++ (whereTail d q.filters).render d d.firstPlaceholder) := by
    have hhead : "SELECT " = "SELECT" ++ " " := by decide
    have hfrom : " FROM " = " " ++ ("FROM" ++ " ") := by decide
    rw [methodFragment, Fragment.render, hhead, hfrom]
    simp only [String.append_assoc]
  -- The columns stand in front of the table, so they must not be taken for its word.
  obtain ⟨hwritten, hother⟩ := projection_spec q.attributes
  have hselect : Written isScriptPart "SELECT".toList := .of_all (by decide)
  have hwords : Written isScriptPart
      ("SELECT" ++ " " ++ (projection q.attributes ++ " " ++ "FROM")).toList := by
    simp only [String.toList_append]
    exact (hselect.append (.of_all (by decide))).append
      ((hwritten.append (.of_all (by decide))).append (.of_all (by decide)))
  have hpieces : pieces ("SELECT" ++ " " ++ (projection q.attributes ++ " " ++ "FROM")) =
      "SELECT" :: pieces (projection q.attributes) ++ ["FROM"] := by
    rw [pieces_append hselect, pieces_append hwritten]
    rfl
  rw [hsql]
  exact tableText?_words _ "FROM" hwords hpieces (by decide)
    (List.forall_mem_cons.2 ⟨by decide, hother⟩) m _

theorem tableText?_update (d : Dialect) (m : Model) (q : Update) :
    tableText? (Fragment.render d d.firstPlaceholder (methodFragment d m (.update q))) =
      some (tableOf m) := by
  have hsql : Fragment.render d d.firstPlaceholder (methodFragment d m (.update q)) =
      "UPDATE" ++ " " ++ (tableOf m ++ " " ++ ("SET " ++ Fragment.render d d.firstPlaceholder
        (setFragment d q.set q.increment q.timestamp ++ .text " " :: whereTail d q.filters))) := by
    have hhead : "UPDATE " = "UPDATE" ++ " " := by decide
    have hset : " SET " = " " ++ "SET " := by decide
    rw [methodFragment, List.cons_append, Fragment.render, hhead, hset]
    simp only [String.append_assoc]
  rw [hsql]
  exact tableText?_words (p := isScriptPart) [] "UPDATE"
    (.of_all (by decide)) (by decide) (by decide) (by decide) m _

theorem tableText?_delete (d : Dialect) (m : Model) (q : Delete) :
    tableText? (Fragment.render d d.firstPlaceholder (methodFragment d m (.delete q))) =
      some (tableOf m) := by
  have hsql : Fragment.render d d.firstPlaceholder (methodFragment d m (.delete q)) =
      "DELETE FROM" ++ " " ++ (tableOf m ++ " " ++
        (whereTail d q.filters).render d d.firstPlaceholder) := by
    have hhead : "DELETE FROM " = "DELETE FROM" ++ " " := by decide
    rw [methodFragment, Fragment.render, hhead]
    simp only [String.append_assoc]
  rw [hsql]
  exact tableText?_words (p := isScriptPart) ["DELETE"] "FROM"
    (.of_all (by decide)) (by decide) (by decide) (by decide) m _

/-- A statement works on the table of its model. -/
theorem tableText?_compileMethod (d : Dialect) (m : Model) (q : Method) :
    tableText? (compileMethod d m q).sql = some (tableOf m) := by
  rw [sql_compileMethod]
  cases q with
  | find q => exact tableText?_find d m q
  | update q => exact tableText?_update d m q
  | add q =>
      rw [methodFragment]
      exact tableText?_insert d m q.values _
  | addOrReplace q =>
      rw [methodFragment, List.append_assoc]
      exact tableText?_insert d m q.values _
  | delete q => exact tableText?_delete d m q

/-- The pieces of an upsert around the columns of its conflict. -/
theorem pieces_upsert (d : Dialect) (m : Model) (u : Upsert) :
    ∃ before after : List String, pieces (compileMethod d m (.addOrReplace u)).sql = before ++
      "CONFLICT" :: (pieces (inParens (quoteAll u.conflictTarget)) ++ "DO" :: after) ∧
        "CONFLICT" ∉ before := by
  obtain ⟨slots, rest, hslots, hsql⟩ := sql_upsert d m u
  have hinsert : Written isScriptPart "INSERT INTO".toList := .of_all (by decide)
  have hvalues : Written isScriptPart "VALUES".toList := .of_all (by decide)
  have honconflict : Written isScriptPart "ON CONFLICT".toList := .of_all (by decide)
  have hdo : Written isScriptPart "DO".toList := .of_all (by decide)
  have hwords : pieces "INSERT INTO" = ["INSERT", "INTO"] ∧ pieces "VALUES" = ["VALUES"] ∧
      pieces "ON CONFLICT" = ["ON", "CONFLICT"] ∧ pieces "DO" = ["DO"] := by decide
  have htable := (written_tableOf m).mono fun _ => isListPart_of_isNamePart
  have hcolumns := written_inParens (written_insertColumns u.values)
  have hslots := written_inParens hslots
  have htarget := written_inParens (written_quoteAll u.conflictTarget)
  refine ⟨["INSERT", "INTO"] ++ pieces (tableOf m) ++
    pieces (inParens (String.intercalate ", " (insertColumns u.values))) ++ ["VALUES"] ++
    pieces (inParens slots) ++ ["ON"], pieces rest, ?_, ?_⟩
  · rw [hsql, pieces_append hinsert, pieces_append htable, pieces_append hcolumns,
      pieces_append hvalues, pieces_append hslots, pieces_append honconflict,
      pieces_append htarget, pieces_append hdo]
    simp only [hwords, List.cons_append, List.nil_append, List.append_assoc]
  · -- The names and placeholders in front of the word have no capitals outside of quotes.
    have hother : ∀ text : String, Written isListPart text.toList → "CONFLICT" ∉ pieces text :=
      fun text htext => not_mem_pieces htext rfl (by decide)
    simp [hother _ htable, hother _ hcolumns, hother _ hslots]

/-- An upsert finds the row to replace by the columns of its conflict. -/
theorem conflictText?_upsert (d : Dialect) (m : Model) (u : Upsert) :
    conflictText? (compileMethod d m (.addOrReplace u)).sql =
      some (inParens (quoteAll u.conflictTarget)) := by
  obtain ⟨before, after, hpieces, hbefore⟩ := pieces_upsert d m u
  have hbehind : behind ["CONFLICT"] (pieces (compileMethod d m (.addOrReplace u)).sql) =
      pieces (inParens (quoteAll u.conflictTarget)) ++ "DO" :: after := by
    rw [hpieces, behind_append (by decide)]
    rintro p hp hword
    rw [List.mem_singleton.1 hword] at hp
    exact hbefore hp
  have htake : (pieces (inParens (quoteAll u.conflictTarget)) ++ "DO" :: after).takeWhile
      (· ≠ "DO") = pieces (inParens (quoteAll u.conflictTarget)) := by
    have hcolumns : ∀ p ∈ pieces (inParens (quoteAll u.conflictTarget)), p ≠ "DO" := by
      rintro p hp rfl
      exact not_mem_pieces (written_inParens (written_quoteAll _)) rfl (by decide) hp
    rw [List.takeWhile_append_of_pos (by simpa using hcolumns),
      List.takeWhile_cons_of_neg (by simp), List.append_nil]
  rw [conflictText?, hbehind]
  split
  · next hnone => simp at hnone
  · rw [htake, intercalate_pieces]

end DataAccess.Sql

namespace DataAccess.Generation

open Sql (Dialect IndexText compileModel conflictText? createdText? indexText? namesIn statements
  tableText?)
open Validation (columnOf resolved_eq_map validate validate_eq_ok_iff validate_of_isOk)

/-- A unique index of a schema backs the statement of an upsert: it is one of the table of the
statement, on the very columns by which the statement finds the row to replace. They are the
target of the upsert, and there is one. -/
structure Backs (schema sql : String) (target : List String) (i : IndexText) : Prop where
  created : i ∈ (statements schema).filterMap indexText?
  unique : i.unique = true
  table : tableText? sql = some i.table
  conflict : conflictText? sql = some i.columns
  columns : namesIn i.columns = target
  nonempty : target ≠ []

/-- The schema of a resolved model carries the statements of its methods: what the texts of both say
fits together. -/
structure Carries (d : Dialect) (r : Registry) (m : Model) (m' : Resolved) : Prop where
  /-- One table is created, and every statement works on it. -/
  table : ∃ table, (statements ((tableOf m').schemaText d)).filterMap createdText? = [table] ∧
    ∀ s ∈ compileModel d m'.model, tableText? s.sql = some table
  /-- Every method has its statement, every upsert one that an index backs. -/
  upserts : List.Forall₂ (fun q s => s.kind = q.kind ∧ ∀ u, q = .addOrReplace u →
      ∃ i, Backs ((tableOf m').schemaText d) s.sql (u.conflictTarget.map (columnOf r)) i)
    m.access.methods (compileModel d m'.model)

theorem createdText?_statements (d : Dialect) (m : Resolved) :
    (statements ((tableOf m).schemaText d)).filterMap createdText? = [Sql.tableOf m.model] := by
  have hindexes : (tableOf m).indexBodies.filterMap createdText? = [] := by
    rw [List.filterMap_eq_nil_iff]
    intro s hs
    obtain ⟨i, -, -, rfl⟩ := Sql.Table.mem_indexBodies.1 hs
    exact Sql.Table.createdText?_indexBody _ i
  rw [Sql.Table.statements_schema, Sql.Table.allBodies,
    List.filterMap_cons_some (Sql.Table.createdText?_createBody d _), hindexes]
  rfl

/-- Every upsert of a resolved model has its index in the schema. -/
theorem exists_backs (d : Dialect) {m : Resolved} {u : Upsert}
    (hu : u ∈ m.model.access.addOrReplace) (hne : u.conflictTarget ≠ []) :
    ∃ i, Backs ((tableOf m).schemaText d) (Sql.compileMethod d m.model (.addOrReplace u)).sql
      u.conflictTarget i := by
  have hindex : ⟨u.conflictTarget, true⟩ ∈ (tableOf m).indexes :=
    List.mem_append_right _ (List.mem_map.2 ⟨u, hu, rfl⟩)
  have hbody : (tableOf m).indexBody ⟨u.conflictTarget, true⟩ ∈
      statements ((tableOf m).schemaText d) := by
    rw [Sql.Table.statements_schema]
    exact List.mem_cons_of_mem _ (Sql.Table.mem_indexBodies.2 ⟨_, hindex, hne, rfl⟩)
  have htext := Sql.Table.indexText?_indexBody (tableOf m) ⟨u.conflictTarget, true⟩
  exact ⟨_, {
    created := List.mem_filterMap.2 ⟨_, hbody, htext⟩
    unique := rfl
    table := Sql.tableText?_compileMethod d m.model _
    conflict := Sql.conflictText?_upsert d m.model u
    columns := Sql.Table.namesIn_columns _
    nonempty := hne }⟩

/-- In an accepted run some column identifies the row of an upsert. -/
theorem conflictTarget_ne_nil {models : List Model} {r : Registry} {resolved : List Resolved}
    (h : validate models r = .ok resolved) {m : Model} (hm : m ∈ models) {u : Upsert}
    (hu : .addOrReplace u ∈ m.access.methods) : u.conflictTarget ≠ [] := by
  obtain ⟨hwellFormed, -⟩ := validate_eq_ok_iff.1 h
  have hvalues : u.values ≠ [] := (hwellFormed.methods m hm _ hu).content
  unfold Upsert.conflictTarget
  split
  · simpa using hvalues
  · next hconflict => simpa using hconflict

/-- **Every upsert has its unique index.** In an accepted run the schema of every model creates the
table that all its statements work on, and for every upsert a unique index of that table on the very
columns by which its statement finds the row to replace. -/
theorem upserts_have_unique_index {models : List Model} {r : Registry} {resolved : List Resolved}
    (h : validate models r = .ok resolved) (d : Dialect) :
    List.Forall₂ (Carries d r) models resolved := by
  rw [resolved_eq_map h, List.forall₂_map_right_iff, List.forall₂_same]
  intro m hm
  refine ⟨⟨_, createdText?_statements d _, ?_⟩, ?_⟩
  · intro s hs
    obtain ⟨q, -, rfl⟩ := List.mem_map.1 hs
    exact Sql.tableText?_compileMethod d _ q
  · rw [Sql.compileModel_rename, List.forall₂_map_right_iff, List.forall₂_same]
    intro q hq
    refine ⟨q.kind_rename (columnOf r), ?_⟩
    rintro u rfl
    have hmem : u.rename (columnOf r) ∈ (m.rename (columnOf r)).access.addOrReplace :=
      List.mem_map_of_mem (by simpa [Access.methods] using hq)
    rw [← Upsert.conflictTarget_rename]
    refine exists_backs d hmem ?_
    rw [Upsert.conflictTarget_rename]
    simpa using conflictTarget_ne_nil h hm hq

def ledgerRegistry : Registry :=
  .ofList
    [{ id := "ledger.order", name := "order", type := .text },
     { id := "ledger.line", name := "Line", type := .int }]

/-- A model whose names have to be quoted; its schema even has what ends a statement. One upsert
says by which columns it finds its row, the other does not. -/
def ledgerModel : Model :=
  { name := "Group"
    schema := some "books; -- \"old\" ON CONFLICT"
    attributes := ["ledger.order", "ledger.line"]
    indexes := [["ledger.line"], []]
    access :=
     { find := [{ name := "FindLine", attributes := ["ledger.line", "id"] }]
       addOrReplace :=
         [{ name := "PutOrder", values := [⟨"ledger.order", "order"⟩, ⟨"ledger.line", "line"⟩] },
          { name := "PutLine", values := [⟨"ledger.order", "order"⟩]
            conflict := ["ledger.order", "ledger.line"] }] } }

theorem ledgerModel_carried : ∃ m, validate [ledgerModel] ledgerRegistry = .ok [m] ∧
    ledgerModel.access.addOrReplace.length = 2 ∧ ∀ d, Carries d ledgerRegistry ledgerModel m := by
  have haccepted : validate [ledgerModel] ledgerRegistry = .ok _ :=
    validate_of_isOk (by decide +kernel)
  refine ⟨_, haccepted, rfl, fun d => ?_⟩
  obtain ⟨hcarries, -⟩ := List.forall₂_cons.1 (upserts_have_unique_index haccepted d)
  exact hcarries

end DataAccess.Generation
