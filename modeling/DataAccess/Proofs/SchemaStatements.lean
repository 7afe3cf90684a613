import DataAccess.Proofs.OrderedLists
import DataAccess.Proofs.Scripts
import Mathlib.Data.String.Basic

set_option autoImplicit false

/-! # The statements of a schema

The schema of a run is read back here as a script: for every model it creates the table and then the
indexes, each by one statement (`statements_schemaText`), whatever characters the names have. What
each of these statements says is read from its text (`createdText?_createBody`,
`index?_indexBody`). -/

namespace DataAccess.Sql

open DataAccess.Unicode (isBlank)

/-! ## Scripts -/

/-- The characters of schema statements outside of quotes: none ends a statement or starts a
comment. -/
def isScriptPart (c : Char) : Bool := c != ';' && c != '-'

theorem isScriptPart_of_isListPart {c : Char} (h : isListPart c = true) :
    isScriptPart c = true := by
  have hne : ∀ e : Char, isListPart e = false → c ≠ e := by
    rintro e he rfl
    rw [he] at h
    cases h
  simp [isScriptPart, hne ';' (by decide), hne '-' (by decide)]

/-- A statement without its semicolon, and without white space around it. -/
structure IsStatement (body : String) : Prop where
  written : Written isScriptPart body.toList
  first : ∃ c ∈ body.toList.head?, isBlank c = false
  last : ∃ c ∈ body.toList.getLast?, isBlank c = false

theorem trim_newline (cs : List Char) :
    Text.trim (String.ofList ('\n' :: cs)) = Text.trim (String.ofList cs) := by
  have hblank : isBlank '\n' = true := by decide
  simp [Text.trim, hblank]

theorem IsStatement.trim {body : String} (h : IsStatement body) : Text.trim body = body := by
  obtain ⟨c, hc, hfirst⟩ := h.first
  obtain ⟨e, he, hlast⟩ := h.last
  obtain ⟨cs, hcs⟩ : ∃ cs, body.toList = c :: cs := List.head?_eq_some_iff.1 hc
  obtain ⟨ds, hds⟩ : ∃ ds, body.toList = ds ++ [e] := List.getLast?_eq_some_iff.1 he
  have hdrop : body.toList.dropWhile isBlank = body.toList := by
    rw [hcs, List.dropWhile_cons_of_neg (by simp [hfirst])]
  have hreverse : body.toList.reverse.dropWhile isBlank = body.toList.reverse := by
    rw [hds, List.reverse_append, List.reverse_singleton, List.singleton_append,
      List.dropWhile_cons_of_neg (by simp [hlast])]
  rw [Text.trim, hdrop, hreverse, List.reverse_reverse, String.ofList_toList]

theorem IsStatement.ne_empty {body : String} (h : IsStatement body) : body ≠ "" := by
  rintro rfl
  obtain ⟨c, hc, -⟩ := h.first
  cases hc

/-- How a statement starts and ends shows that there is no white space around it. -/
theorem IsStatement.of_append {head body tail : String}
    (hhead : ∃ c ∈ head.toList.head?, isBlank c = false)
    (htail : ∃ c ∈ tail.toList.getLast?, isBlank c = false)
    (h : Written isScriptPart (head ++ body ++ tail).toList) :
    IsStatement (head ++ body ++ tail) := by
  obtain ⟨c, hc, hfirst⟩ := hhead
  obtain ⟨e, he, hlast⟩ := htail
  refine ⟨h, ⟨c, ?_, hfirst⟩, ⟨e, ?_, hlast⟩⟩
  · rw [Option.mem_def] at hc ⊢
    rw [String.toList_append, String.toList_append, List.append_assoc, List.head?_append, hc,
      Option.some_or]
  · rw [Option.mem_def] at he ⊢
    rw [String.toList_append, List.getLast?_append, he, Option.some_or]

theorem statements_empty : statements "" = [] := by decide

theorem uncomment_newline (rest : String) :
    uncomment ("\n" ++ rest).toList = '\n' :: uncomment rest.toList := by
  rw [String.toList_append]
  exact uncomment_cons (by decide) (by decide) rest.toList

/-- White space between statements does not count. -/
theorem statements_newline (rest : String) : statements ("\n" ++ rest) = statements rest := by
  -- The line feed goes to the first piece, where it is trimmed away.
  obtain ⟨p, ps, hps, hmore⟩ := exists_splitFrom ';' ⟨false, ['\n']⟩ (uncomment rest.toList)
  have hsplit : split ';' ('\n' :: uncomment rest.toList) = ('\n' :: p) :: ps := hmore
  have hrest : split ';' (uncomment rest.toList) = p :: ps := hps
  rw [statements, uncomment_newline, hsplit, List.map_cons, trim_newline, statements, hrest,
    List.map_cons]

theorem statements_cons {body : String} (h : IsStatement body) (rest : String) :
    statements (body ++ ";" ++ rest) = body :: statements rest := by
  have hchars : (body ++ ";" ++ rest).toList = body.toList ++ ';' :: rest.toList := by simp
  rw [statements, hchars, uncomment_append (h.written.scan_code (by decide)),
    uncomment_cons (by decide) (by decide),
    h.written.split_append_stop (by decide), h.written.split_eq_singleton (by decide) (by decide),
    List.singleton_append, List.map_cons, String.ofList_toList, h.trim,
    List.filter_cons_of_pos (by simp [h.ne_empty]), statements]

/-- Statements on lines of their own. -/
theorem statements_lines {bodies : List String} (h : ∀ b ∈ bodies, IsStatement b)
    (rest : String) :
    statements (String.join (bodies.map fun b => b ++ ";" ++ "\n") ++ rest) =
      bodies ++ statements rest := by
  induction bodies with
  | nil => simp
  | cons b bodies ih =>
      obtain ⟨hb, hbodies⟩ := List.forall_mem_cons.1 h
      rw [List.map_cons, String.join_cons, String.append_assoc, String.append_assoc,
        statements_cons hb, statements_newline, ih hbodies, List.cons_append]

/-- A comment on a line of its own does not count. -/
theorem statements_comment {comment : String} (h : '\n' ∉ comment.toList) (rest : String) :
    statements ("--" ++ comment ++ "\n" ++ rest) = statements rest := by
  have hskip : Text.scan Place.step .comment comment.toList = ([], .comment) :=
    Text.scan_while (fun _ => Place.comment) [] fun c hc _ => by
      have hne : c ≠ '\n' := fun heq => h (heq ▸ hc)
      simp [Place.step, hne]
  have hcomment :
      Text.scan Place.step .code ("--" ++ comment ++ "\n").toList = (['\n'], .code) := by
    simp [Place.step, Text.scan_append, hskip]
  rw [← statements_newline rest, statements, statements, uncomment_newline, String.toList_append,
    uncomment_append hcomment, List.singleton_append]

/-! ## Tables -/

namespace Table

/-- The statement that creates the table, without its semicolon. -/
def createBody (d : Dialect) (t : Table) : String :=
  "CREATE TABLE IF NOT EXISTS " ++ t.reference ++ " (\n" ++
    String.intercalate ",\n"
      ((fixedLines d ++ t.columns.map (columnLine d)).map ("    " ++ ·)) ++ "\n)"

/-- The statement that creates an index, without its semicolon. -/
def indexBody (t : Table) (i : Index) : String :=
  "CREATE " ++ (if i.unique then "UNIQUE INDEX" else "INDEX") ++ " IF NOT EXISTS " ++
    quote (t.indexName i) ++ " ON " ++ t.reference ++ " " ++ inParens (quoteAll i.columns)

theorem create_eq (d : Dialect) (t : Table) : t.create d = createBody d t ++ ";" ++ "\n" := by
  have hend : "\n);\n" = "\n)" ++ ";" ++ "\n" := by decide
  unfold create createBody
  rw [hend]
  simp only [String.append_assoc]

theorem indexStatement_eq (t : Table) (i : Index) : t.indexStatement i = t.indexBody i ++ ";" := by
  have hopen : " (" = " " ++ "(" := by decide
  have hend : ");" = ")" ++ ";" := by decide
  unfold indexStatement indexBody inParens
  rw [hopen, hend]
  simp only [String.append_assoc]

/-- The statements that create the indexes, without their semicolons. -/
def indexBodies (t : Table) : List String :=
  t.createIndexes.map fun s => String.ofList s.toList.dropLast

/-- The statements that create the table and its indexes. -/
def allBodies (d : Dialect) (t : Table) : List String := createBody d t :: t.indexBodies

theorem written_name (name : String) : Written isScriptPart (quote name).toList :=
  (written_quote name).mono fun _ hc => isScriptPart_of_isListPart (isListPart_of_isNamePart hc)

theorem written_reference (t : Table) : Written isScriptPart t.reference.toList :=
  (written_qualified t.schema t.name).mono fun _ hc =>
    isScriptPart_of_isListPart (isListPart_of_isNamePart hc)

theorem written_lines (d : Dialect) (t : Table) :
    ∀ line ∈ (fixedLines d ++ t.columns.map (columnLine d)).map ("    " ++ ·),
      Written isScriptPart line.toList := by
  have hindent : Written isScriptPart "    ".toList := .of_all (by decide)
  -- A line defines a column: its name, which may be in quotes, and then only plain characters.
  have hdefinition : ∀ (name tail : String),
      (tail.toList.all fun c => isScriptPart c && c != '\"') = true →
      Written isScriptPart ("    " ++ (quote name ++ tail)).toList := by
    intro name tail htail
    rw [String.toList_append, String.toList_append]
    exact hindent.append ((written_name name).append (.of_all htail))
  rw [List.map_append, List.forall_mem_append]
  constructor
  · simp only [fixedLines, List.map_cons, List.map_nil, List.forall_mem_cons,
      String.append_assoc]
    refine ⟨hdefinition _ _ ?_, hdefinition _ _ ?_, hdefinition _ _ ?_, by simp⟩ <;>
      cases d <;> decide
  · simp only [List.map_map, List.forall_mem_map]
    intro c _
    simp only [Function.comp_apply, columnLine, String.append_assoc]
    refine hdefinition _ _ ?_
    simp only [String.toList_append, List.all_append, Bool.and_eq_true]
    refine ⟨by decide, ?_, ?_⟩
    · cases d <;> cases c.type <;> decide
    · cases c.required <;> decide

theorem isStatement_createBody (d : Dialect) (t : Table) : IsStatement (createBody d t) := by
  have hhead : Written isScriptPart "CREATE TABLE IF NOT EXISTS ".toList := .of_all (by decide)
  have hopen : Written isScriptPart " (\n".toList := .of_all (by decide)
  have hcomma : Written isScriptPart ",\n".toList := .of_all (by decide)
  have hclose : Written isScriptPart "\n)".toList := .of_all (by decide)
  have hbody : createBody d t = "CREATE TABLE IF NOT EXISTS " ++ (t.reference ++ " (\n" ++
      String.intercalate ",\n"
        ((fixedLines d ++ t.columns.map (columnLine d)).map ("    " ++ ·))) ++ "\n)" := by
    unfold createBody
    simp only [String.append_assoc]
  rw [hbody]
  refine .of_append ⟨'C', by decide, by decide⟩ ⟨')', by decide, by decide⟩ ?_
  simp only [String.toList_append]
  exact (hhead.append (((written_reference t).append hopen).append
    (hcomma.intercalate (written_lines d t)))).append hclose

theorem isStatement_indexBody (t : Table) (i : Index) : IsStatement (t.indexBody i) := by
  have hhead : Written isScriptPart "CREATE ".toList := .of_all (by decide)
  have hkind : Written isScriptPart
      (if i.unique then "UNIQUE INDEX" else "INDEX" : String).toList := by
    cases i.unique <;> exact .of_all (by decide)
  have hexists : Written isScriptPart " IF NOT EXISTS ".toList := .of_all (by decide)
  have hon : Written isScriptPart " ON ".toList := .of_all (by decide)
  have hblank : Written isScriptPart " ".toList := .of_all (by decide)
  have hcolumns := (written_inParens (written_quoteAll i.columns)).mono fun _ =>
    isScriptPart_of_isListPart
  have hbody : t.indexBody i = "CREATE " ++ ((if i.unique then "UNIQUE INDEX" else "INDEX") ++
      " IF NOT EXISTS " ++ quote (t.indexName i) ++ " ON " ++ t.reference ++ " " ++
      ("(" ++ quoteAll i.columns)) ++ ")" := by
    unfold indexBody inParens
    simp only [String.append_assoc]
  have hwritten : Written isScriptPart (t.indexBody i).toList := by
    unfold indexBody
    simp only [String.toList_append]
    exact ((((((hhead.append hkind).append hexists).append (written_name _)).append hon).append
      (written_reference t)).append hblank).append hcolumns
  rw [hbody] at hwritten ⊢
  exact .of_append ⟨'C', by decide, by decide⟩ ⟨')', by decide, by decide⟩ hwritten

theorem mem_createIndexes {t : Table} {s : String} :
    s ∈ t.createIndexes ↔ ∃ i ∈ t.indexes, i.columns ≠ [] ∧ t.indexStatement i = s := by
  rw [createIndexes, Ordered.mem_ofListBy, List.mem_map]
  simp only [List.mem_filter, Bool.not_eq_true', List.isEmpty_eq_false_iff, and_assoc]

theorem dropLast_indexStatement (t : Table) (i : Index) :
    String.ofList (t.indexStatement i).toList.dropLast = t.indexBody i := by
  have hchars : (t.indexStatement i).toList = (t.indexBody i).toList ++ [';'] := by
    rw [indexStatement_eq]
    simp
  rw [hchars, List.dropLast_concat, String.ofList_toList]

/-- There is an index for every one with columns, and no other. -/
theorem mem_indexBodies {t : Table} {s : String} :
    s ∈ t.indexBodies ↔ ∃ i ∈ t.indexes, i.columns ≠ [] ∧ s = t.indexBody i := by
  rw [indexBodies, List.mem_map]
  constructor
  · rintro ⟨s, hs, rfl⟩
    obtain ⟨i, hi, hne, rfl⟩ := mem_createIndexes.1 hs
    exact ⟨i, hi, hne, dropLast_indexStatement t i⟩
  · rintro ⟨i, hi, hne, rfl⟩
    exact ⟨_, mem_createIndexes.2 ⟨i, hi, hne, rfl⟩, dropLast_indexStatement t i⟩

theorem createIndexes_eq (t : Table) : t.createIndexes = t.indexBodies.map (· ++ ";") := by
  rw [indexBodies, List.map_map]
  refine (List.map_id _).symm.trans (List.map_congr_left fun s hs => ?_)
  obtain ⟨i, -, -, rfl⟩ := mem_createIndexes.1 hs
  rw [Function.comp_apply, dropLast_indexStatement, ← indexStatement_eq]
  rfl

theorem statements_schemaText (d : Dialect) (t : Table) (rest : String) :
    statements (t.schemaText d ++ rest) = t.allBodies d ++ statements rest := by
  have hindexes : ∀ b ∈ t.indexBodies, IsStatement b := by
    intro b hb
    obtain ⟨i, -, -, rfl⟩ := mem_indexBodies.1 hb
    exact isStatement_indexBody t i
  have hcreate : ∀ rest, statements (t.create d ++ rest) =
      createBody d t :: statements rest := by
    intro rest
    rw [create_eq, String.append_assoc, statements_cons (isStatement_createBody d t),
      statements_newline]
  have hlines : t.createIndexes.map (· ++ "\n") =
      t.indexBodies.map fun b => b ++ ";" ++ "\n" := by
    rw [createIndexes_eq, List.map_map]
    rfl
  rw [allBodies]
  unfold schemaText
  -- The indexes are set off by an empty line, which a table without indexes does not have.
  split
  · next hnone =>
      have hempty : t.indexBodies = [] := by
        rw [indexBodies, hnone, List.map_nil]
      rw [hcreate, hempty, List.singleton_append]
  · next hsome =>
      rw [String.append_assoc, String.append_assoc, hcreate, statements_newline, hlines,
        statements_lines hindexes, List.cons_append]

theorem statements_schema (d : Dialect) (t : Table) :
    statements (t.schemaText d) = t.allBodies d := by
  have hall := statements_schemaText d t ""
  rwa [String.append_empty, statements_empty, List.append_nil] at hall

/-! ## What the statements say -/

theorem pieces_createBody (d : Dialect) (t : Table) :
    ∃ rest, pieces (createBody d t) =
      ["CREATE", "TABLE", "IF", "NOT", "EXISTS"] ++ t.reference :: rest := by
  have hbody : createBody d t = "CREATE TABLE IF NOT EXISTS" ++ " " ++ (t.reference ++ " " ++
      ("(\n" ++ String.intercalate ",\n"
        ((fixedLines d ++ t.columns.map (columnLine d)).map ("    " ++ ·)) ++ "\n)")) := by
    have hhead : "CREATE TABLE IF NOT EXISTS " = "CREATE TABLE IF NOT EXISTS" ++ " " := by decide
    have hopen : " (\n" = " " ++ "(\n" := by decide
    unfold createBody
    rw [hhead, hopen]
    simp only [String.append_assoc]
  have hwords : Written isScriptPart "CREATE TABLE IF NOT EXISTS".toList := .of_all (by decide)
  have hname := written_qualified t.schema t.name
  rw [hbody, pieces_append hwords, pieces_append (a := t.reference) hname,
    pieces_name (a := t.reference) hname]
  exact ⟨_, rfl⟩

theorem createdText?_createBody (d : Dialect) (t : Table) :
    createdText? (createBody d t) = some t.reference := by
  obtain ⟨rest, hpieces⟩ := pieces_createBody d t
  rw [createdText?, hpieces]
  rfl

theorem indexText?_createBody (d : Dialect) (t : Table) : indexText? (createBody d t) = none := by
  obtain ⟨rest, hpieces⟩ := pieces_createBody d t
  rw [indexText?, hpieces]
  rfl

theorem pieces_indexBody (t : Table) (i : Index) :
    pieces (t.indexBody i) = (if i.unique then ["CREATE", "UNIQUE", "INDEX"] else
      ["CREATE", "INDEX"]) ++ ["IF", "NOT", "EXISTS", quote (t.indexName i), "ON", t.reference] ++
        pieces (inParens (quoteAll i.columns)) := by
  have hreference := written_qualified t.schema t.name
  -- The words that follow are the same for both kinds of index.
  have hrest : pieces ("IF NOT EXISTS" ++ " " ++ (quote (t.indexName i) ++ " " ++ ("ON" ++ " " ++
      (t.reference ++ " " ++ inParens (quoteAll i.columns))))) =
      ["IF", "NOT", "EXISTS", quote (t.indexName i), "ON", t.reference] ++
        pieces (inParens (quoteAll i.columns)) := by
    have hexists : Written isScriptPart "IF NOT EXISTS".toList := .of_all (by decide)
    have hon : Written isScriptPart "ON".toList := .of_all (by decide)
    rw [pieces_append hexists, pieces_append (written_quote _), pieces_name (written_quote _),
      pieces_append hon, pieces_append (a := t.reference) hreference,
      pieces_name (a := t.reference) hreference]
    rfl
  have hbody : t.indexBody i = (if i.unique then "CREATE UNIQUE INDEX" else "CREATE INDEX") ++
      " " ++ ("IF NOT EXISTS" ++ " " ++ (quote (t.indexName i) ++ " " ++ ("ON" ++ " " ++
        (t.reference ++ " " ++ inParens (quoteAll i.columns))))) := by
    have hkind : "CREATE " ++ (if i.unique then "UNIQUE INDEX" else "INDEX") =
        if i.unique then "CREATE UNIQUE INDEX" else "CREATE INDEX" := by
      cases i.unique <;> decide
    have hexists : " IF NOT EXISTS " = " " ++ ("IF NOT EXISTS" ++ " ") := by decide
    have hon : " ON " = " " ++ ("ON" ++ " ") := by decide
    unfold indexBody
    rw [hkind, hexists, hon]
    simp only [String.append_assoc]
  have hwords : Written isScriptPart
      (if i.unique then "CREATE UNIQUE INDEX" else "CREATE INDEX" : String).toList := by
    cases i.unique <;> exact .of_all (by decide)
  rw [hbody, pieces_append hwords, hrest, List.append_assoc]
  cases i.unique <;> rfl

theorem indexText?_indexBody (t : Table) (i : Index) :
    indexText? (t.indexBody i) = some ⟨i.unique, quote (t.indexName i), t.reference,
      inParens (quoteAll i.columns)⟩ := by
  have hcolumns := intercalate_pieces (inParens (quoteAll i.columns))
  rw [indexText?, pieces_indexBody]
  cases hunique : i.unique <;>
  · simp only [Bool.false_eq_true, if_false, if_true, List.cons_append, List.nil_append]
    rw [hcolumns]

theorem createdText?_indexBody (t : Table) (i : Index) : createdText? (t.indexBody i) = none := by
  rw [createdText?, pieces_indexBody]
  cases i.unique <;> rfl

theorem filterMap_names (names : List String) :
    (List.intercalate [.sign ','] (names.map fun s => [.name s])).filterMap Lexeme.name? =
      names := by
  induction names with
  | nil => rfl
  | cons s names ih =>
      cases names with
      | nil => rfl
      | cons s' names =>
          rw [List.map_cons] at ih
          rw [List.map_cons, List.map_cons, List.intercalate_cons_cons, List.filterMap_append, ih]
          rfl

theorem namesIn_columns (names : List String) : namesIn (inParens (quoteAll names)) = names := by
  obtain ⟨hlexemes, hwhole⟩ := lexemes_quoteAll names
  have hopen : Ends "(".toList := by decide
  have hparen : lexemes "(".toList = [.sign '('] := by decide
  have hparen' : lexemes ")".toList = [.sign ')'] := by decide
  rw [namesIn, inParens, String.append_assoc, String.toList_append, String.toList_append,
    hopen.lexemes_append, lexemes_append hwhole (by decide), hlexemes, hparen, hparen',
    List.filterMap_append, List.filterMap_append, filterMap_names]
  exact List.append_nil names

/-- What the statement for an index says. -/
def indexOf (t : Table) (i : Index) : IndexStatement :=
  ⟨i.unique, t.indexName i, (t.schema, t.name), i.columns⟩

theorem index?_indexBody (t : Table) (i : Index) :
    index? (t.indexBody i) = some (t.indexOf i) := by
  obtain ⟨href, -⟩ := lexemes_qualified t.schema t.name
  have htable : tableRef? (lexemes t.reference.toList) = some ((t.schema, t.name), []) := by
    rw [reference, href]
    cases t.schema <;> rfl
  rw [index?, indexText?_indexBody]
  simp only [lexemes_quote, htable, namesIn_columns, indexOf]

theorem layout?_createBody (d : Dialect) (t : Table) : layout? (createBody d t) =
    some ⟨(t.schema, t.name), fixedColumns ++ t.columns.map Column.name⟩ := by
  have hlines := layout?_lines t.schema t.name (defines_lines d t) (by simp [fixedColumns]) ""
  rwa [String.append_empty] at hlines

theorem layout?_indexBody (t : Table) (i : Index) : layout? (t.indexBody i) = none := by
  have hbody : ∃ rest, (t.indexBody i).toList =
      (if i.unique then "CREATE UNIQUE " else "CREATE INDEX " : String).toList ++ rest := by
    unfold indexBody
    cases i.unique <;> exact ⟨_, by simp only [String.toList_append, List.append_assoc]; rfl⟩
  obtain ⟨rest, hrest⟩ := hbody
  rw [layout?, hrest]
  -- The second word tells that no table is created, whatever follows.
  cases i.unique with
  | true =>
      have hends : Ends "CREATE UNIQUE ".toList := by decide
      rw [if_pos rfl, hends.lexemes_append]
      rfl
  | false =>
      have hends : Ends "CREATE INDEX ".toList := by decide
      rw [if_neg (by decide), hends.lexemes_append]
      rfl

theorem index?_createBody (d : Dialect) (t : Table) : index? (createBody d t) = none := by
  rw [index?, indexText?_createBody]

/-- The statements for indexes are those for the ones with columns. -/
theorem mem_allBodies_index? {d : Dialect} {t : Table} {s : String} {x : IndexStatement} :
    s ∈ t.allBodies d ∧ index? s = some x ↔
      ∃ i ∈ t.indexes, i.columns ≠ [] ∧ s = t.indexBody i ∧ x = t.indexOf i := by
  rw [allBodies, List.mem_cons]
  constructor
  · rintro ⟨rfl | hs, hx⟩
    · rw [index?_createBody] at hx
      cases hx
    · obtain ⟨i, hi, hne, rfl⟩ := mem_indexBodies.1 hs
      rw [index?_indexBody] at hx
      exact ⟨i, hi, hne, rfl, (Option.some.inj hx).symm⟩
  · rintro ⟨i, hi, hne, rfl, rfl⟩
    exact ⟨.inr (mem_indexBodies.2 ⟨i, hi, hne, rfl⟩), index?_indexBody t i⟩

theorem mem_filterMap_index?_allBodies {d : Dialect} {t : Table} {x : IndexStatement} :
    x ∈ (t.allBodies d).filterMap index? ↔
      ∃ i ∈ t.indexes, i.columns ≠ [] ∧ x = t.indexOf i := by
  rw [List.mem_filterMap]
  simp only [mem_allBodies_index?]
  constructor
  · rintro ⟨s, i, hi, hne, -, rfl⟩
    exact ⟨i, hi, hne, rfl⟩
  · rintro ⟨i, hi, hne, rfl⟩
    exact ⟨_, i, hi, hne, rfl, rfl⟩

/-- One statement creates the table, with its columns. -/
theorem filterMap_layout?_allBodies (d : Dialect) (t : Table) : (t.allBodies d).filterMap layout? =
    [⟨(t.schema, t.name), fixedColumns ++ t.columns.map Column.name⟩] := by
  have hindexes : t.indexBodies.filterMap layout? = [] := by
    rw [List.filterMap_eq_nil_iff]
    intro s hs
    obtain ⟨i, -, -, rfl⟩ := mem_indexBodies.1 hs
    exact layout?_indexBody t i
  rw [allBodies, List.filterMap_cons_some (layout?_createBody d t), hindexes]

end Table

end DataAccess.Sql

namespace DataAccess.Generation

open Sql (Dialect statements)

/-- The schema of a run creates the table of every model and then its indexes. -/
theorem statements_schemaText (d : Dialect) (models : List Resolved) :
    statements (schemaText d models) = models.flatMap fun r => (tableOf r).allBodies d := by
  have hmodels : ∀ rest, statements (String.join (models.map fun r =>
      "\n" ++ (tableOf r).schemaText d) ++ rest) =
      (models.flatMap fun r => (tableOf r).allBodies d) ++ statements rest := by
    induction models with
    | nil => simp
    | cons r models ih =>
        intro rest
        rw [List.map_cons, String.join_cons, String.append_assoc, String.append_assoc,
          Sql.statements_newline, Sql.Table.statements_schemaText, ih, List.flatMap_cons,
          List.append_assoc]
  have hheader : "-- " ++ Go.generatedMarker ++ "\n" =
      "--" ++ (" " ++ Go.generatedMarker) ++ "\n" := by decide
  have hall := hmodels ""
  rw [String.append_empty, Sql.statements_empty, List.append_nil] at hall
  rw [schemaText, hheader, Sql.statements_comment (by decide), hall]

end DataAccess.Generation
