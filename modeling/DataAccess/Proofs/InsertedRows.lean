import DataAccess.Proofs.BindValues
import DataAccess.Proofs.IndexedColumns

set_option autoImplicit false

/-! # Inserted rows

An insertion lists columns and, in a second list, the placeholders of their values. Both lists are
read from the text here (`insertion?`). A placeholder with a number stands for the bind value at
that place, one without a number for the next one.

In every accepted run the lists have one length, and every column gets the value that was assigned
to it, the primary key a new one (`insertion?_insert`). Validation lets a value refer to the primary
key, which is then listed twice; otherwise no column is (`inserted_columns_apart_iff`). -/

namespace DataAccess.Sql

/-! ## Reading an insertion -/

/-- Reads names between commas up to a closing parenthesis. -/
def columnList? : List Lexeme → Option (List String × List Lexeme)
  | .name s :: .sign ')' :: ts => some ([s], ts)
  | .name s :: .sign ',' :: ts => (columnList? ts).map fun p => (s :: p.1, p.2)
  | _ => none

/-- The value of a word made of decimal digits. -/
def decimal? (w : String) : Option Nat :=
  if w.toList.all Char.isDigit then some (Nat.ofDigitChars 10 w.toList 0) else none

/-- Reads placeholders between commas up to a closing parenthesis, as the numbers of their bind
values; `next` is the number of the next placeholder that has none. -/
def slotList? (next : Nat) : List Lexeme → Option (List Nat)
  | .sign '?' :: .sign ')' :: _ => some [next]
  | .sign '?' :: .sign ',' :: ts => (slotList? (next + 1) ts).map (next :: ·)
  | .sign '$' :: .word w :: .sign ')' :: _ => (decimal? w).map fun n => [n]
  | .sign '$' :: .word w :: .sign ',' :: ts =>
    (decimal? w).bind fun n => (slotList? (max next (n + 1)) ts).map (n :: ·)
  | _ => none

/-- What an insertion says: the columns of a table and the numbers of their bind values. -/
structure Insertion where
  table : TableRef
  columns : List String
  slots : List Nat
  deriving DecidableEq

/-- Reads the columns of an insertion. -/
def rowColumns? : List Lexeme → Option (List String × List Lexeme)
  | .sign '(' :: ts => columnList? ts
  | _ => none

/-- Reads the placeholders of an insertion. -/
def rowSlots? : List Lexeme → Option (List Nat)
  | .word "VALUES" :: .sign '(' :: ts => slotList? 1 ts
  | _ => none

/-- Reads an insertion up to the end of its values. -/
def insertion? (sql : String) : Option Insertion :=
  match lexemes sql.toList with
  | .word "INSERT" :: .word "INTO" :: ts => (tableRef? ts).bind fun t =>
    (rowColumns? t.2).bind fun c => (rowSlots? c.2).map fun slots => ⟨t.1, c.1, slots⟩
  | _ => none

/-- The bind value with a number, counted from one. -/
def Statement.bound? (s : Statement) (n : Nat) : Option Parameter := s.params[n - 1]?

/-! ## Columns and placeholders are read back -/

theorem columnList?_names {names : List String} (hne : names ≠ []) (ts : List Lexeme) :
    columnList? (List.intercalate [.sign ','] (names.map fun s => [.name s]) ++ .sign ')' :: ts) =
      some (names, ts) :=
  readNames_eq_some (fun _ _ => by rw [columnList?]) (fun _ _ => by rw [columnList?]) hne ts

/-- A placeholder by its lexemes. -/
def slotLexemes : Dialect → Nat → List Lexeme
  | .postgres, n => [.sign '$', .word (toString n)]
  | .sqlite, _ => [.sign '?']

theorem decimal?_toString (n : Nat) : decimal? (toString n) = some n := by
  have hall : (toString n).toList.all Char.isDigit = true :=
    List.all_eq_true.2 fun _ => isDigit_of_mem_toString
  rw [decimal?, if_pos hall, toList_toString, Nat.ofDigitChars_ten_toDigits]

theorem isPlainStart_of_isDigit {c : Char} (h : c.isDigit = true) : isPlainStart c = false := by
  have hrange := Char.isDigit_iff_toNat.1 h
  rw [Bool.eq_false_iff]
  intro hstart
  simp only [isPlainStart, Bool.or_eq_true, beq_iff_eq] at hstart
  rcases hstart with hlower | rfl
  · have halpha : (c.isUpper || c.isLower) = true := by rw [hlower, Bool.or_true]
    have hletter := Unicode.isAlpha_iff_toNat.1 halpha
    have hle : c.toNat ≤ 57 := hrange.2
    omega
  · exact absurd hrange.2 (by decide)

/-- A number is one word. -/
theorem lexemes_toString (n : Nat) :
    lexemes (toString n).toList = [.word (toString n)] ∧ Whole (toString n).toList := by
  have hdigit : ∀ c ∈ (toString n).toList, c.isDigit = true := fun _ => isDigit_of_mem_toString
  have hpart : ∀ c ∈ (toString n).toList, isWordPart c = true := fun c hc => by
    simp [isWordPart, Char.isAlphanum, hdigit c hc]
  cases hchars : (toString n).toList with
  | nil => exact absurd ((toList_toString n).symm.trans hchars) Nat.toDigits_ne_nil
  | cons c cs =>
      rw [hchars] at hdigit hpart
      obtain ⟨hc, hcs⟩ := List.forall_mem_cons.1 hpart
      have hquote : c ≠ '\"' := by
        rintro rfl
        exact absurd hc (by decide)
      have hplain := isPlainStart_of_isDigit (hdigit c List.mem_cons_self)
      have hscan : Text.scan Reading.step .nothing (c :: cs) = ([], .word (cs.reverse ++ [c])) := by
        simp [Reading.step, Reading.turn, Reading.start, Reading.close, hquote, hc,
          Reading.scan_word cs [c] (List.all_eq_true.2 hcs)]
      have hback : String.ofList (cs.reverse ++ [c]).reverse = toString n := by
        rw [List.reverse_append, List.reverse_reverse, List.reverse_singleton,
          List.singleton_append, ← hchars, String.ofList_toList]
      constructor
      · rw [lexemes, hscan]
        show [Lexeme.ofWord (String.ofList (cs.reverse ++ [c]).reverse)] = _
        rw [hback, Lexeme.ofWord, hchars, isPlain, hplain]
        rfl
      · rw [Whole, hscan]
        rfl

theorem lexemes_placeholder (d : Dialect) (n : Nat) :
    lexemes (d.placeholder n).toList = slotLexemes d n ∧ Whole (d.placeholder n).toList := by
  cases d with
  | sqlite =>
      show lexemes "?".toList = [.sign '?'] ∧ Whole "?".toList
      decide
  | postgres =>
      have hsign : Ends "$".toList := by decide
      have hlexemes : lexemes "$".toList = [.sign '$'] := by decide
      obtain ⟨hnumber, hwhole⟩ := lexemes_toString n
      rw [Dialect.placeholder, String.toList_append, hsign.lexemes_append, hlexemes, hnumber]
      exact ⟨rfl, hsign.append hwhole⟩

/-- Slots are numbered one after the other. -/
theorem renderEach_slots (d : Dialect) (next : Nat) (params : List Parameter) :
    Fragment.renderEach d next (params.map fun p => [.slot p]) =
      (List.range' next params.length).map d.placeholder := by
  induction params generalizing next with
  | nil => rfl
  | cons p params ih =>
      rw [List.map_cons, Fragment.renderEach, List.length_cons, List.range'_succ, List.map_cons,
        ← ih]
      simp [Fragment.render, Fragment.params]

/-- A placeholder is read as the number that it was given, if numbers were given in order. -/
theorem slotList?_cons (d : Dialect) (n : Nat) (ts : List Lexeme) :
    slotList? n (slotLexemes d n ++ .sign ',' :: ts) = (slotList? (n + 1) ts).map (n :: ·) := by
  cases d with
  | sqlite =>
      show slotList? n (.sign '?' :: .sign ',' :: ts) = _
      rw [slotList?]
  | postgres =>
      show slotList? n (.sign '$' :: .word (toString n) :: .sign ',' :: ts) = _
      rw [slotList?, decimal?_toString, Option.bind_some, Nat.max_eq_right (Nat.le_succ n)]

theorem slotList?_last (d : Dialect) (n : Nat) (ts : List Lexeme) :
    slotList? n (slotLexemes d n ++ .sign ')' :: ts) = some [n] := by
  cases d with
  | sqlite =>
      show slotList? n (.sign '?' :: .sign ')' :: ts) = _
      rw [slotList?]
  | postgres =>
      show slotList? n (.sign '$' :: .word (toString n) :: .sign ')' :: ts) = _
      rw [slotList?, decimal?_toString, Option.map_some]

theorem slotList?_slots (d : Dialect) (next n : Nat) (ts : List Lexeme) :
    slotList? next (List.intercalate [.sign ','] ((List.range' next (n + 1)).map (slotLexemes d)) ++
      .sign ')' :: ts) = some (List.range' next (n + 1)) := by
  -- The first number is general, since the reader counts placeholders as it goes.
  induction n generalizing next with
  | zero =>
      rw [List.range'_one, List.map_singleton, List.intercalate_singleton]
      exact slotList?_last d next ts
  | succ n ih =>
      have hrest := ih (next + 1)
      rw [List.range'_succ, List.map_cons] at hrest
      rw [List.range'_succ, List.map_cons, List.range'_succ, List.map_cons,
        List.intercalate_cons_cons, List.append_assoc, List.append_assoc, List.singleton_append,
        slotList?_cons, hrest]
      rfl

/-! ## Insertions are read back -/

theorem lexemes_insertColumns (values : List Assignment) :
    lexemes (String.intercalate ", " (insertColumns values)).toList =
        List.intercalate [.sign ','] ((idColumn :: values.map Assignment.attr).map fun s =>
          [.name s]) ∧
      Whole (String.intercalate ", " (insertColumns values)).toList := by
  have hcolumns : insertColumns values = (idColumn :: values.map Assignment.attr).map quote := by
    simp [insertColumns]
  rw [hcolumns]
  exact lexemes_quoteAll _

theorem lexemes_slots (d : Dialect) (next : Nat) (params : List Parameter) :
    lexemes ((slots params).render d next).toList = List.intercalate [.sign ',']
        ((List.range' next params.length).map (slotLexemes d)) ∧
      Whole ((slots params).render d next).toList := by
  have hwhole : ∀ t ∈ (List.range' next params.length).map d.placeholder, Whole t.toList := by
    intro t ht
    obtain ⟨n, -, rfl⟩ := List.mem_map.1 ht
    exact (lexemes_placeholder d n).2
  obtain ⟨hlexemes, hall⟩ := lexemes_intercalate ", " (by decide) (by decide) (by decide) hwhole
  rw [slots, Fragment.render_join, renderEach_slots]
  refine ⟨?_, hall⟩
  rw [hlexemes, List.map_map]
  congr 1
  exact List.map_congr_left fun n _ => (lexemes_placeholder d n).1

theorem lexemes_insert (d : Dialect) (m : Model) (values : List Assignment) (rest : Fragment) :
    ∃ ts, lexemes (Fragment.render d 1 (insertFragment m values ++ rest)).toList =
      .word "INSERT" :: .word "INTO" :: (tableLexemes (m.schema, m.tableName) ++ .sign '(' ::
        (List.intercalate [.sign ','] ((idColumn :: values.map Assignment.attr).map fun s =>
            [.name s]) ++ .sign ')' :: .word "VALUES" :: .sign '(' ::
          (List.intercalate [.sign ','] ((List.range' 1 (values.length + 1)).map (slotLexemes d)) ++
            .sign ')' :: ts))) := by
  obtain ⟨htable, htableWhole⟩ := lexemes_qualified m.schema m.tableName
  obtain ⟨hcolumns, hcolumnsWhole⟩ := lexemes_insertColumns values
  obtain ⟨hslots, hslotsWhole⟩ := lexemes_slots d 1 (insertParameters values)
  have hcount : (insertParameters values).length = values.length + 1 := by simp [insertParameters]
  rw [hcount] at hslots
  obtain ⟨tail, hsql⟩ : ∃ tail : List Char,
      (Fragment.render d 1 (insertFragment m values ++ rest)).toList = "INSERT INTO ".toList ++
        ((qualified m.schema m.tableName).toList ++ (" (".toList ++
          ((String.intercalate ", " (insertColumns values)).toList ++ (") VALUES (".toList ++
            (((slots (insertParameters values)).render d 1).toList ++ (")".toList ++ tail)))))) := by
    refine ⟨(rest.render d (1 + (insertFragment m values).params.length)).toList, ?_⟩
    rw [Fragment.render_append, insertFragment, List.cons_append, Fragment.render,
      Fragment.render_append, tableOf]
    simp only [Fragment.render, String.toList_append, List.append_assoc, String.append_empty]
  have hhead : Ends "INSERT INTO ".toList := by decide
  have hopen : Ends " (".toList := by decide
  have hmiddle : Ends ") VALUES (".toList := by decide
  have hclose : Ends ")".toList := by decide
  have hwords : lexemes "INSERT INTO ".toList = [.word "INSERT", .word "INTO"] := by decide
  have hparen : lexemes " (".toList = [.sign '('] := by decide
  have hvalues : lexemes ") VALUES (".toList = [.sign ')', .word "VALUES", .sign '('] := by decide
  have hend : lexemes ")".toList = [.sign ')'] := by decide
  refine ⟨lexemes tail, ?_⟩
  rw [hsql, hhead.lexemes_append, hwords, lexemes_append htableWhole rfl, htable,
    hopen.lexemes_append, hparen, lexemes_append hcolumnsWhole rfl, hcolumns,
    hmiddle.lexemes_append, hvalues, lexemes_append hslotsWhole rfl, hslots, hclose.lexemes_append,
    hend]
  rfl

/-- An insertion is read back, whatever follows its values. -/
theorem insertion?_insert (d : Dialect) (m : Model) (values : List Assignment) (rest : Fragment) :
    insertion? (Fragment.render d 1 (insertFragment m values ++ rest)) =
      some ⟨(m.schema, m.tableName), idColumn :: values.map Assignment.attr,
        List.range' 1 (values.length + 1)⟩ := by
  obtain ⟨ts, hlexemes⟩ := lexemes_insert d m values rest
  rw [insertion?, hlexemes]
  show (tableRef? _).bind _ = _
  rw [tableRef?_tableLexemes (by decide), Option.bind_some]
  show (columnList? _).bind _ = _
  rw [columnList?_names (List.cons_ne_nil _ _), Option.bind_some]
  show (slotList? 1 _).map _ = _
  rw [slotList?_slots]
  rfl

/-- A statement inserts a row, given as columns with their values: it lists the columns, and the
placeholder of each is bound to its value. -/
structure InsertsRow (row : List (String × Parameter)) (s : Statement) (i : Insertion) : Prop where
  read : insertion? s.sql = some i
  columns : i.columns = row.map Prod.fst
  length : i.slots.length = i.columns.length
  bound : i.slots.map s.bound? = row.map fun p => some p.2

theorem methodFragment_of_inserts (d : Dialect) (m : Model) {q : Method}
    (h : q.kind.inserts = true) :
    ∃ rest, methodFragment d m q = insertFragment m q.assignments ++ rest := by
  cases q with
  | find q => cases h
  | update q => cases h
  | add q => exact ⟨_, rfl⟩
  | addOrReplace q => exact ⟨_, by rw [methodFragment, List.append_assoc]; rfl⟩
  | delete q => cases h

/-- The first numbers stand for the first bind values. -/
theorem Statement.map_bound? {s : Statement} {ps qs : List Parameter} (h : s.params = ps ++ qs) :
    (List.range' 1 ps.length).map s.bound? = ps.map some := by
  rw [List.range'_eq_map_range, List.map_map]
  apply List.ext_getElem
  · simp
  · intro n hn _
    have hlt : n < ps.length := by simpa using hn
    simp [bound?, h, List.getElem?_append_left hlt]

end DataAccess.Sql

namespace DataAccess

open Sql (InsertsRow Parameter compileMethod compileModel idColumn insertion?)

/-- The row that a method inserts, with the columns of its attributes: the new primary key, then the
values in order. -/
def Method.row (g : String → String) (q : Method) : List (String × Parameter) :=
  (idColumn, .newId) :: q.assignments.map fun a => (g a.attr, .whole a.parameter)

theorem Method.assignments_rename (g : String → String) (q : Method) :
    (q.rename g).assignments = q.assignments.map (Assignment.rename g) := by
  cases q <;> rfl

theorem Method.row_rename (g : String → String) (q : Method) : (q.rename g).row id = q.row g := by
  simp [row, assignments_rename, Assignment.rename]

/-- A compiled insertion inserts the row of its method. -/
theorem insertsRow_compileMethod (d : Sql.Dialect) (m : Model) {q : Method}
    (h : q.kind.inserts = true) : ∃ i, InsertsRow (q.row id) (compileMethod d m q) i := by
  obtain ⟨rest, hfragment⟩ := Sql.methodFragment_of_inserts d m h
  have hread := Sql.insertion?_insert d m q.assignments rest
  rw [← hfragment] at hread
  have hparams : (compileMethod d m q).params =
      Sql.insertParameters q.assignments ++ rest.params := by
    rw [Sql.params_compileMethod, hfragment, Sql.Fragment.params_append, Sql.params_insertFragment]
  refine ⟨_, hread, ?_, by simp, ?_⟩
  · simp [Method.row]
  · simpa [Sql.insertParameters, Method.row, Function.comp_def] using
      Sql.Statement.map_bound? hparams

namespace Generation

open Sql (Dialect)
open Validation (columnOf resolved_eq_map validate)

/-- **When an insertion names no column twice.** In an accepted run every compiled insertion whose
values are for different columns lists the primary key and these columns, with as many placeholders,
each bound to the value assigned to its column. No column is listed twice exactly if no value is for
the primary key; validation does not see to that. -/
theorem inserted_columns_apart_iff {models : List Model} {r : Registry} {resolved : List Resolved}
    (h : validate models r = .ok resolved) (d : Dialect) :
    List.Forall₂ (fun m m' => List.Forall₂ (fun q s => q.kind.inserts = true →
        (q.assignments.map fun a => columnOf r a.attr).Nodup →
          ∃ i, InsertsRow (q.row (columnOf r)) s i ∧
            (i.columns.Nodup ↔ ∀ a ∈ q.assignments, columnOf r a.attr ≠ idColumn))
      m.access.methods (compileModel d m'.model)) models resolved := by
  rw [resolved_eq_map h, List.forall₂_map_right_iff, List.forall₂_same]
  intro m _
  rw [Sql.compileModel_rename, List.forall₂_map_right_iff, List.forall₂_same]
  intro q _ hinserts hdistinct
  rw [← q.kind_rename (columnOf r)] at hinserts
  obtain ⟨i, hi⟩ := insertsRow_compileMethod d (m.rename (columnOf r)) hinserts
  rw [q.row_rename] at hi
  refine ⟨i, hi, ?_⟩
  have hcolumns : i.columns = idColumn :: q.assignments.map fun a => columnOf r a.attr := by
    rw [hi.columns, Method.row, List.map_cons, List.map_map]
    rfl
  -- The values are for different columns, so only the primary key can come up again.
  rw [hcolumns, List.nodup_cons, and_iff_left hdistinct]
  simp

/-- The column of one attribute is the primary key. -/
def keyRegistry : Registry :=
  .ofList
    [{ id := "sku", name := "sku", type := .text }, { id := "order", name := "order", type := .int },
     { id := "key", name := "id", type := .uuid }]

/-- A model whose insertions give values to columns of its own and to a fixed one. -/
def rowModel : Model :=
  { name := "line"
    attributes := ["sku", "order"]
    access :=
     { add :=
         [{ name := "Create", values := [⟨"order", "n"⟩, ⟨"version", "v"⟩, ⟨"sku", "n"⟩] }]
       addOrReplace := [{ name := "Put", values := [⟨"sku", "sku"⟩, ⟨"order", "n"⟩] }] } }

theorem rowModel_inserts : ∃ m, validate [rowModel] keyRegistry = .ok [m] ∧
    ∀ d, List.Forall₂ (fun q s => q.kind.inserts = true ∧ ∃ i,
        InsertsRow (q.row (columnOf keyRegistry)) s i ∧ i.columns.Nodup)
      rowModel.access.methods (compileModel d m.model) := by
  have haccepted : validate [rowModel] keyRegistry = .ok _ :=
    Validation.validate_of_isOk (by decide +kernel)
  refine ⟨_, haccepted, fun d => ?_⟩
  obtain ⟨hmethods, -⟩ := List.forall₂_cons.1 (inserted_columns_apart_iff haccepted d)
  obtain ⟨hcreate, hput⟩ := List.forall₂_cons.1 hmethods
  obtain ⟨hput, -⟩ := List.forall₂_cons.1 hput
  obtain ⟨i, hi, hiff⟩ := hcreate rfl (by decide +kernel)
  obtain ⟨j, hj, hjff⟩ := hput rfl (by decide +kernel)
  exact .cons ⟨rfl, i, hi, hiff.2 (by decide +kernel)⟩
    (.cons ⟨rfl, j, hj, hjff.2 (by decide +kernel)⟩ .nil)

/-- A model that inserts a row with a value for the primary key. -/
def keyedModel : Model :=
  { name := "a", access := { add := [{ name := "Create", values := [⟨"key", "key"⟩] }] } }

/-- In an accepted run an insertion with one value can name the primary key twice. -/
theorem primary_key_inserted_twice : ∃ m, validate [keyedModel] keyRegistry = .ok [m] ∧
    ∀ d, ∃ s, compileModel d m.model = [s] ∧ s.kind = .add ∧
      insertion? s.sql = some ⟨(none, "a"), ["id", "id"], [1, 2]⟩ := by
  have haccepted : validate [keyedModel] keyRegistry = .ok _ :=
    Validation.validate_of_isOk (by decide +kernel)
  refine ⟨_, haccepted, fun d => ⟨_, rfl, rfl, ?_⟩⟩
  cases d <;> decide +kernel

end Generation

end DataAccess
