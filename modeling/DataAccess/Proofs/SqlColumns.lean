import DataAccess.Generation.ModelUnit
import DataAccess.Generation.Schema
import DataAccess.Proofs.Fragments
import DataAccess.Proofs.SqlTokens
import Mathlib.Data.List.Forall2

set_option autoImplicit false

/-! # The columns of a query

Which columns a query returns can be read from two texts: the query itself and the statement that
created its table, which decides if the query takes all columns. Both are cut into words, names and
signs by a scanner (`lexemes`), and what matters is read from these (`query?`, `layout?`). Only the
beginning of a query is looked at, so nothing has to be known about its condition.

The main result is that the columns that come back from a find are the ones its access function
expects (`resultColumns_find`). -/

namespace DataAccess.Sql

open Text (prepend scan)

/-! ## Words, names and signs -/

inductive Lexeme where
  /-- A bare word that cannot be a name, such as a keyword. -/
  | word (w : String)
  | name (s : String)
  | sign (c : Char)
  deriving DecidableEq

/-- A bare word is a name if it is a plain identifier and not reserved. -/
def Lexeme.ofWord (w : String) : Lexeme :=
  if isPlain w.toList && !reservedWords.contains w then .name w else .word w

/-- What is being read; its characters so far stand last first. -/
inductive Reading where
  | nothing
  | word (read : List Char)
  | quoted (read : List Char)
  /-- Behind a double quote that ends the name unless another one follows. -/
  | closing (read : List Char)
  deriving DecidableEq

namespace Reading

/-- What has been read if the text ends here. A quote that is still open starts no name. -/
def close : Reading → List Lexeme
  | nothing => []
  | word cs => [.ofWord (String.ofList cs.reverse)]
  | quoted _ => [.sign '\"']
  | closing cs => [.name (String.ofList cs.reverse)]

/-- Whether a quote is open. -/
def isOpen : Reading → Bool
  | quoted _ => true
  | _ => false

/-- Starts with a character. -/
def start (c : Char) : List Lexeme × Reading :=
  if c = '\"' then ([], .quoted [])
  else if isWordPart c then ([], .word [c])
  else if c = ' ' ∨ c = '\n' then ([], .nothing)
  else ([.sign c], .nothing)

/-- Ends what is being read and starts with the next character. -/
def turn (r : Reading) (c : Char) : List Lexeme × Reading := prepend r.close (start c)

/-- Reads one character. -/
def step (r : Reading) (c : Char) : List Lexeme × Reading :=
  match r with
  | nothing => r.turn c
  | word cs => if isWordPart c then ([], .word (c :: cs)) else r.turn c
  | quoted cs => if c = '\"' then ([], .closing cs) else ([], .quoted (c :: cs))
  | closing cs => if c = '\"' then ([], .quoted (c :: cs)) else r.turn c

/-- A character that ends every word ends what is being read, unless a quote is open. -/
theorem scan_of_breaks {r : Reading} {ds : List Char} (hr : r.isOpen = false)
    (hds : breaks ds = true) : scan step r ds = prepend r.close (scan step .nothing ds) := by
  cases ds with
  | nil => cases hds
  | cons c ds =>
      obtain ⟨hword, hquote⟩ : isWordPart c = false ∧ c ≠ '\"' := by
        simp only [breaks, isBreak, Bool.not_eq_true', Bool.or_eq_false_iff] at hds
        exact ⟨hds.1.1.1, by simpa using hds.1.1.2⟩
      refine Text.scan_of_step ?_ ds
      cases r with
      | nothing => rfl
      | word cs => simp [step, hword, turn, close]
      | quoted cs => cases hr
      | closing cs => simp [step, hquote, turn, close]

theorem scan_word (cs read : List Char) (h : cs.all isWordPart = true) :
    scan step (.word read) cs = ([], .word (cs.reverse ++ read)) :=
  Text.scan_while Reading.word read fun c hc read => by simp [step, List.all_eq_true.1 h c hc]

theorem scan_quoteChars (cs read : List Char) :
    scan step (.quoted read) (cs.flatMap quoteChar) = ([], .quoted (cs.reverse ++ read)) := by
  refine Text.scan_flatMap Reading.quoted _ read fun c _ read => ?_
  by_cases hc : c = '\"' <;> simp [quoteChar, hc, step]

end Reading

/-- The words, names and signs of a text. -/
def lexemes (cs : List Char) : List Lexeme :=
  (scan Reading.step .nothing cs).1 ++ (scan Reading.step .nothing cs).2.close

/-- A text that ends outside of quotes. -/
abbrev Whole (cs : List Char) : Prop := (scan Reading.step .nothing cs).2.isOpen = false

/-- A text that ends with a blank or a sign. -/
abbrev Ends (cs : List Char) : Prop := (scan Reading.step .nothing cs).2 = .nothing

section Append

variable {cs ds : List Char}

theorem lexemes_append (hcs : Whole cs) (hds : breaks ds = true) :
    lexemes (cs ++ ds) = lexemes cs ++ lexemes ds := by
  simp only [lexemes, Text.scan_append, Reading.scan_of_breaks hcs hds, Text.fst_prepend,
    Text.snd_prepend, List.append_assoc]

theorem Whole.append (hcs : Whole cs) (hds : breaks ds = true) (h : Whole ds) :
    Whole (cs ++ ds) := by
  simpa only [Whole, Text.scan_append, Reading.scan_of_breaks hcs hds, Text.snd_prepend] using h

theorem Ends.lexemes_append (hcs : Ends cs) (ds : List Char) :
    lexemes (cs ++ ds) = lexemes cs ++ lexemes ds := by
  simp only [lexemes, Text.scan_append, hcs, Reading.close, Text.fst_prepend, Text.snd_prepend,
    List.append_nil, List.append_assoc]

theorem Ends.append (hcs : Ends cs) (h : Whole ds) : Whole (cs ++ ds) := by
  simpa only [Whole, Text.scan_append, hcs, Text.snd_prepend] using h

end Append

/-! ## Names -/

theorem isWordPart_of_isWordStart {c : Char} (h : isWordStart c = true) :
    isWordPart c = true := by
  simp only [isWordStart, isWordPart, Char.isAlphanum, Bool.or_eq_true] at h ⊢
  rcases h with h | h
  · exact .inl (.inl h)
  · exact .inr h

theorem scan_quote (name : String) :
    ∃ r, scan Reading.step .nothing (quote name).toList = ([], r) ∧ r.isOpen = false ∧
      r.close = [.name name] := by
  by_cases h : (isPlain name.toList && !reservedWords.contains name) = true
  · have hword := isWord_of_isPlain (Bool.and_eq_true _ _ ▸ h).1
    rw [quote, if_pos h]
    cases hchars : name.toList with
    | nil => rw [hchars] at hword; cases hword
    | cons c cs =>
        rw [hchars, isWord, Bool.and_eq_true] at hword
        have hquote : c ≠ '\"' := by
          rintro rfl
          exact absurd hword.1 (by decide)
        have hback : String.ofList (cs.reverse ++ [c]).reverse = name := by
          rw [List.reverse_append, List.reverse_reverse, List.reverse_singleton,
            List.singleton_append, ← hchars, String.ofList_toList]
        refine ⟨.word (cs.reverse ++ [c]), ?_, rfl, ?_⟩
        · simp [Reading.step, Reading.turn, Reading.start, Reading.close, hquote,
            isWordPart_of_isWordStart hword.1, Reading.scan_word cs [c] hword.2]
        · rw [Reading.close, hback, Lexeme.ofWord, if_pos h]
  · -- Between the quotes only a quote that is not doubled ends the name.
    have hchars : (quote name).toList = '\"' :: (name.toList.flatMap quoteChar ++ ['\"']) := by
      rw [quote, if_neg h]
      simp
    have hopen : Reading.step .nothing '\"' = ([], .quoted []) := by decide
    refine ⟨.closing name.toList.reverse, ?_, rfl, ?_⟩
    · rw [hchars, Text.scan_cons, hopen, Text.scan_append_of_eq (Reading.scan_quoteChars _ [])]
      simp [Reading.step]
    · rw [Reading.close, List.reverse_reverse, String.ofList_toList]

/-- A name is read back, whatever its characters are. -/
theorem lexemes_quote (name : String) : lexemes (quote name).toList = [.name name] := by
  obtain ⟨r, hscan, -, hclose⟩ := scan_quote name
  rw [lexemes, hscan, hclose]
  rfl

theorem whole_quote (name : String) : Whole (quote name).toList := by
  obtain ⟨r, hscan, hopen, -⟩ := scan_quote name
  rw [Whole, hscan]
  exact hopen

theorem breaks_append {cs : List Char} (h : breaks cs = true) (ds : List Char) :
    breaks (cs ++ ds) = true := by
  cases cs with
  | nil => cases h
  | cons c cs => exact h

/-- Texts between commas. -/
theorem lexemes_intercalate (separator : String) {texts : List String}
    (hbreaks : breaks separator.toList = true) (hends : Ends separator.toList)
    (hcomma : lexemes separator.toList = [.sign ',']) (h : ∀ t ∈ texts, Whole t.toList) :
    lexemes (String.intercalate separator texts).toList =
        List.intercalate [.sign ','] (texts.map fun t => lexemes t.toList) ∧
      Whole (String.intercalate separator texts).toList := by
  have hmore := breaks_append hbreaks
  induction texts with
  | nil => exact ⟨rfl, rfl⟩
  | cons t texts ih =>
      obtain ⟨ht, htexts⟩ := List.forall_mem_cons.1 h
      cases texts with
      | nil => simpa using ht
      | cons u texts =>
          obtain ⟨hlexemes, hwhole⟩ := ih htexts
          rw [String.intercalate_cons_cons, String.toList_append, String.toList_append,
            List.append_assoc, lexemes_append ht (hmore _), hends.lexemes_append, hcomma,
            hlexemes, List.map_cons, List.map_cons, List.map_cons, List.intercalate_cons_cons,
            List.append_assoc]
          exact ⟨rfl, ht.append (hmore _) (hends.append hwhole)⟩

theorem lexemes_quoteAll (names : List String) :
    lexemes (quoteAll names).toList = List.intercalate [.sign ','] (names.map fun s => [.name s]) ∧
      Whole (quoteAll names).toList := by
  have hwhole : ∀ t ∈ names.map quote, Whole t.toList := by
    intro t ht
    obtain ⟨name, -, rfl⟩ := List.mem_map.1 ht
    exact whole_quote name
  obtain ⟨hlexemes, hall⟩ := lexemes_intercalate ", " (by decide) (by decide) (by decide) hwhole
  refine ⟨?_, hall⟩
  rw [quoteAll, hlexemes, List.map_map]
  congr 1
  exact List.map_congr_left fun name _ => lexemes_quote name

/-! ## Tables -/

/-- A table as statements refer to it: its schema, if there is one, and its name. -/
abbrev TableRef := Option String × String

/-- Reads a table. -/
def tableRef? : List Lexeme → Option (TableRef × List Lexeme)
  | .name s :: .sign '.' :: .name t :: ts => some ((some s, t), ts)
  | .name t :: ts => some ((none, t), ts)
  | _ => none

/-- How a table is written. -/
def tableLexemes : TableRef → List Lexeme
  | (some s, t) => [.name s, .sign '.', .name t]
  | (none, t) => [.name t]

theorem lexemes_qualified (schema : Option String) (table : String) :
    lexemes (qualified schema table).toList = tableLexemes (schema, table) ∧
      Whole (qualified schema table).toList := by
  cases schema with
  | none => exact ⟨lexemes_quote table, whole_quote table⟩
  | some s =>
      have hdot : Ends ".".toList := by decide
      have hbreaks : breaks (".".toList ++ (quote table).toList) = true := rfl
      rw [qualified, String.toList_append, String.toList_append, List.append_assoc,
        lexemes_append (whole_quote s) hbreaks, hdot.lexemes_append, lexemes_quote, lexemes_quote]
      exact ⟨rfl, (whole_quote s).append hbreaks (hdot.append (whole_quote table))⟩

/-- A table is read back if no dot follows it. -/
theorem tableRef?_tableLexemes {ref : TableRef} {t : Lexeme} {ts : List Lexeme}
    (ht : t ≠ .sign '.') : tableRef? (tableLexemes ref ++ t :: ts) = some (ref, t :: ts) := by
  obtain ⟨schema, table⟩ := ref
  cases schema with
  | some s => rfl
  | none =>
      show tableRef? (.name table :: t :: ts) = _
      unfold tableRef?
      split <;> simp_all

/-! ## Queries -/

/-- Reads names between commas up to the word `FROM`. -/
def nameList? : List Lexeme → Option (List String × List Lexeme)
  | .name s :: .word "FROM" :: ts => some ([s], ts)
  | .name s :: .sign ',' :: ts => (nameList? ts).map fun p => (s :: p.1, p.2)
  | _ => none

/-- Reads what a query takes, all columns or a list of them, up to the word `FROM`. -/
def selection? (ts : List Lexeme) : Option (Option (List String) × List Lexeme) :=
  match nameList? ts with
  | some (names, rest) => some (some names, rest)
  | none => match ts with
    | .sign '*' :: .word "FROM" :: rest => some (none, rest)
    | _ => none

/-- What a query takes from which table; without a list it takes all columns. -/
structure Query where
  columns : Option (List String)
  table : TableRef
  deriving DecidableEq

/-- Reads a query. -/
def query? (sql : String) : Option Query :=
  match lexemes sql.toList with
  | .word "SELECT" :: ts => (selection? ts).bind fun p =>
    (tableRef? p.2).map fun q => ⟨p.1, q.1⟩
  | _ => none

/-- Names between commas are read back by whatever reads one name after the other up to an end. -/
theorem readNames_eq_some {read : List Lexeme → Option (List String × List Lexeme)} {last : Lexeme}
    (hlast : ∀ s ts, read (.name s :: last :: ts) = some ([s], ts))
    (hnext : ∀ s ts, read (.name s :: .sign ',' :: ts) = (read ts).map fun p => (s :: p.1, p.2))
    {names : List String} (hne : names ≠ []) (ts : List Lexeme) :
    read (List.intercalate [.sign ','] (names.map fun s => [.name s]) ++ last :: ts) =
      some (names, ts) := by
  induction names with
  | nil => exact absurd rfl hne
  | cons s names ih =>
      cases names with
      | nil => exact hlast s ts
      | cons s' names =>
          have hrest := ih (List.cons_ne_nil s' names)
          rw [List.map_cons] at hrest
          rw [List.map_cons, List.map_cons, List.intercalate_cons_cons, List.append_assoc,
            List.append_assoc, List.singleton_append, List.singleton_append, hnext, hrest]
          rfl

theorem nameList?_names {names : List String} (hne : names ≠ []) (ts : List Lexeme) :
    nameList? (List.intercalate [.sign ','] (names.map fun s => [.name s]) ++
      .word "FROM" :: ts) = some (names, ts) :=
  readNames_eq_some (fun _ _ => by rw [nameList?]) (fun _ _ => by rw [nameList?]) hne ts

theorem ends_select : Ends "SELECT ".toList := by decide

theorem ends_from : Ends " FROM ".toList := by decide

theorem lexemes_select : lexemes "SELECT ".toList = [.word "SELECT"] := by decide

theorem lexemes_from : lexemes " FROM ".toList = [.word "FROM"] := by decide

/-- The columns a query lists. -/
def listed (columns : List String) : Option (List String) :=
  if columns.isEmpty then none else some columns

theorem selection?_projection (columns : List String) (rest : List Char) :
    selection? (lexemes ((projection columns).toList ++ (" FROM ".toList ++ rest))) =
      some (listed columns, lexemes rest) := by
  have hbreaks : breaks (" FROM ".toList ++ rest) = true := rfl
  cases columns with
  | nil =>
      have hstar : Ends "*".toList := by decide
      show selection? (lexemes ("*".toList ++ _)) = _
      rw [hstar.lexemes_append, ends_from.lexemes_append, lexemes_from]
      rfl
  | cons c columns =>
      obtain ⟨hlexemes, hwhole⟩ := lexemes_quoteAll (c :: columns)
      have hnames := nameList?_names (List.cons_ne_nil c columns) (lexemes rest)
      show selection? (lexemes ((quoteAll (c :: columns)).toList ++ _)) = _
      rw [lexemes_append hwhole hbreaks, ends_from.lexemes_append, lexemes_from, hlexemes,
        List.singleton_append]
      unfold selection?
      rw [hnames]
      rfl

/-- A find takes its columns, or all, from the table of its model. -/
theorem query?_find (d : Dialect) (m : Model) (q : Find) :
    query? (compileMethod d m (.find q)).sql =
      some ⟨listed q.attributes, (m.schema, m.tableName)⟩ := by
  obtain ⟨hlexemes, hwhole⟩ := lexemes_qualified m.schema m.tableName
  -- Of the condition only its first word matters: it ends the table.
  obtain ⟨rest, hwhere⟩ : ∃ rest : String, (whereTail d q.filters).render d d.firstPlaceholder =
      "WHERE " ++ rest := by
    rw [whereTail_eq]
    cases Filter.allCondition? q.filters with
    | none => exact ⟨"1=1", rfl⟩
    | some c => exact ⟨"1=1 AND " ++ (c.fragment d).render d d.firstPlaceholder, rfl⟩
  have hsql : (compileMethod d m (.find q)).sql.toList = "SELECT ".toList ++
      ((projection q.attributes).toList ++ (" FROM ".toList ++
        ((qualified m.schema m.tableName).toList ++ (" WHERE ".toList ++ rest.toList)))) := by
    have hrender : (compileMethod d m (.find q)).sql =
        "SELECT " ++ projection q.attributes ++ " FROM " ++ tableOf m ++ " " ++
          (whereTail d q.filters).render d d.firstPlaceholder := rfl
    rw [hrender, hwhere]
    simp [tableOf]
  have hends : Ends " WHERE ".toList := by decide
  have hword : lexemes " WHERE ".toList = [.word "WHERE"] := by decide
  have hbreaks : breaks (" WHERE ".toList ++ rest.toList) = true := rfl
  rw [query?, hsql, ends_select.lexemes_append, lexemes_select, List.singleton_append]
  show (selection? (lexemes _)).bind _ = _
  rw [selection?_projection, Option.bind_some, lexemes_append hwhole hbreaks,
    hends.lexemes_append, hword, hlexemes, List.singleton_append,
    tableRef?_tableLexemes (by decide)]
  rfl

/-! ## Table layouts -/

/-- The columns that the definitions between the parentheses start with. A definition starts if no
depth is given; otherwise it is the number of parentheses that are open in the current one. -/
def definitions? : Option Nat → List Lexeme → Option (List String)
  | none, .name s :: ts => (definitions? (some 0) ts).map (s :: ·)
  | some 0, .sign ',' :: ts => definitions? none ts
  | some 0, .sign ')' :: _ => some []
  | some (n + 1), .sign ')' :: ts => definitions? (some n) ts
  | some n, .sign '(' :: ts => definitions? (some (n + 1)) ts
  | some n, _ :: ts => definitions? (some n) ts
  | _, _ => none

/-- A table and its columns in order. -/
structure Layout where
  table : TableRef
  columns : List String
  deriving DecidableEq

/-- Reads the statement that creates a table. -/
def layout? (create : String) : Option Layout :=
  match lexemes create.toList with
  | .word "CREATE" :: .word "TABLE" :: .word "IF" :: .word "NOT" :: .word "EXISTS" :: ts =>
    match tableRef? ts with
    | some (table, .sign '(' :: ts) => (definitions? none ts).map fun columns => ⟨table, columns⟩
    | _ => none
  | _ => none

/-- Lexemes that stand inside of a definition and leave it where it was. -/
def Quiet (tail : List Lexeme) : Prop :=
  ∀ ts, definitions? (some 0) (tail ++ ts) = definitions? (some 0) ts

theorem Quiet.append {tail more : List Lexeme} (h : Quiet tail) (h' : Quiet more) :
    Quiet (tail ++ more) := by
  intro ts
  rw [List.append_assoc, h, h']

/-- What may stand behind the name in the definition of a column. -/
structure IsTail (tail : String) : Prop where
  breaks : breaks tail.toList = true
  whole : Whole tail.toList
  quiet : Quiet (lexemes tail.toList)

theorem IsTail.append {tail more : String} (h : IsTail tail) (h' : IsTail more) :
    IsTail (tail ++ more) := by
  constructor
  · rw [String.toList_append]
    exact breaks_append h.breaks more.toList
  · rw [String.toList_append]
    exact h.whole.append h'.breaks h'.whole
  · rw [String.toList_append, lexemes_append h.whole h'.breaks]
    exact h.quiet.append h'.quiet

theorem isTail_columnType (d : Dialect) (type : StorageType) :
    IsTail (" " ++ d.columnType type) := by
  cases d <;> cases type <;> exact ⟨rfl, rfl, fun _ => rfl⟩

theorem isTail_required (required : Bool) {tail : String} (h : IsTail tail) :
    IsTail (tail ++ if required then " NOT NULL" else "") := by
  cases required with
  | true => exact h.append ⟨rfl, rfl, fun _ => rfl⟩
  | false =>
      show IsTail (tail ++ "")
      rw [String.append_empty]
      exact h

theorem isTail_default (d : Dialect) : IsTail (" NOT NULL DEFAULT " ++ d.now) := by
  cases d <;> exact ⟨rfl, rfl, fun _ => rfl⟩

/-- A line that defines a column. -/
structure Defines (line column : String) : Prop where
  whole : Whole line.toList
  lexemes : ∃ tail, lexemes line.toList = .name column :: tail ∧ Quiet tail

theorem IsTail.defines {tail : String} (h : IsTail tail) (column : String) :
    Defines ("    " ++ (quote column ++ tail)) column := by
  have hends : Ends "    ".toList := by decide
  constructor
  · rw [String.toList_append, String.toList_append]
    exact hends.append ((whole_quote column).append h.breaks h.whole)
  · refine ⟨lexemes tail.toList, ?_, h.quiet⟩
    rw [String.toList_append, String.toList_append, hends.lexemes_append,
      lexemes_append (whole_quote column) h.breaks, lexemes_quote]
    rfl

theorem defines_columnLine (d : Dialect) (c : Column) :
    Defines ("    " ++ Table.columnLine d c) c.name := by
  have htail := isTail_required c.required (isTail_columnType d c.type)
  have hline : Table.columnLine d c = quote c.name ++
      (" " ++ d.columnType c.type ++ if c.required then " NOT NULL" else "") := by
    rw [Table.columnLine, String.append_assoc, String.append_assoc, String.append_assoc]
  rw [hline]
  exact htail.defines c.name

theorem defines_fixedLines (d : Dialect) :
    List.Forall₂ Defines ((Table.fixedLines d).map ("    " ++ ·)) fixedColumns := by
  have hkey : IsTail " PRIMARY KEY" := ⟨rfl, rfl, fun _ => rfl⟩
  have hone : IsTail " NOT NULL DEFAULT 1" := ⟨rfl, rfl, fun _ => rfl⟩
  have hid := ((isTail_columnType d .uuid).append hkey).defines idColumn
  have hversion := ((isTail_columnType d .bigint).append hone).defines versionColumn
  have hupdated := ((isTail_columnType d .timestamp).append (isTail_default d)).defines
    updatedAtColumn
  simp only [Table.fixedLines, List.map_cons, List.map_nil, String.append_assoc] at *
  exact .cons hid (.cons hversion (.cons hupdated .nil))

/-- The columns are read back from the lines that define them. -/
theorem definitions?_lines {lines columns : List String} (h : List.Forall₂ Defines lines columns)
    (hne : columns ≠ []) (ts : List Lexeme) :
    definitions? none (List.intercalate [.sign ','] (lines.map fun line => lexemes line.toList) ++
      .sign ')' :: ts) = some columns := by
  induction h with
  | nil => exact absurd rfl hne
  | @cons line column lines columns hline hlines ih =>
      -- Behind the name nothing of the line is a column, up to the comma or the end.
      obtain ⟨tail, hlexemes, hquiet⟩ := hline.lexemes
      have hname : ∀ us, definitions? none (.name column :: (tail ++ us)) =
          (definitions? (some 0) us).map (column :: ·) := by
        intro us
        rw [definitions?, hquiet]
      rw [List.map_cons, hlexemes]
      cases hlines with
      | nil =>
          rw [List.map_nil, List.intercalate_singleton, List.cons_append, hname]
          rfl
      | cons _ _ =>
          have hrest := ih (List.cons_ne_nil _ _)
          have hcomma : ∀ us, definitions? (some 0) (.sign ',' :: us) = definitions? none us :=
            fun us => by rw [definitions?]
          rw [List.map_cons] at hrest ⊢
          rw [List.intercalate_cons_cons, List.append_assoc, List.append_assoc,
            List.cons_append, hname, List.singleton_append, hcomma, hrest]
          rfl

theorem defines_lines (d : Dialect) (t : Table) :
    List.Forall₂ Defines
      ((Table.fixedLines d ++ t.columns.map (Table.columnLine d)).map ("    " ++ ·))
      (fixedColumns ++ t.columns.map Column.name) := by
  rw [List.map_append, List.map_map]
  refine List.rel_append (defines_fixedLines d) ?_
  rw [List.forall₂_map_left_iff, List.forall₂_map_right_iff]
  exact List.forall₂_same.2 fun c _ => defines_columnLine d c

theorem whole_of_defines {lines columns : List String} (h : List.Forall₂ Defines lines columns) :
    ∀ line ∈ lines, Whole line.toList := by
  induction h with
  | nil => simp
  | cons hline _ ih => exact List.forall_mem_cons.2 ⟨hline.whole, ih⟩

/-- A statement that creates a table is read up to the parenthesis that closes it. -/
theorem layout?_lines (schema : Option String) (table : String) {lines columns : List String}
    (hlines : List.Forall₂ Defines lines columns) (hne : columns ≠ []) (tail : String) :
    layout? ("CREATE TABLE IF NOT EXISTS " ++ qualified schema table ++ " (\n" ++
      String.intercalate ",\n" lines ++ "\n)" ++ tail) = some ⟨(schema, table), columns⟩ := by
  obtain ⟨href, hrefWhole⟩ := lexemes_qualified schema table
  obtain ⟨hbody, hbodyWhole⟩ :=
    lexemes_intercalate ",\n" (by decide) (by decide) (by decide) (whole_of_defines hlines)
  have hhead : Ends "CREATE TABLE IF NOT EXISTS ".toList := by decide
  have hopen : Ends " (\n".toList := by decide
  have hclose : Ends "\n)".toList := by decide
  have hwords : lexemes "CREATE TABLE IF NOT EXISTS ".toList =
      [.word "CREATE", .word "TABLE", .word "IF", .word "NOT", .word "EXISTS"] := by decide
  have hparen : lexemes " (\n".toList = [.sign '('] := by decide
  have hparen' : lexemes "\n)".toList = [.sign ')'] := by decide
  have hdefinitions := definitions?_lines hlines hne (lexemes tail.toList)
  simp only [layout?, String.toList_append, List.append_assoc]
  rw [hhead.lexemes_append, hwords, lexemes_append hrefWhole rfl,
    hopen.lexemes_append, hparen, List.singleton_append, lexemes_append hbodyWhole rfl,
    hclose.lexemes_append, hparen', List.singleton_append, hbody, href]
  show (match tableRef? (tableLexemes (schema, table) ++ .sign '(' :: _) with
    | some (table, .sign '(' :: ts) =>
      (definitions? none ts).map fun columns => Layout.mk table columns
    | _ => none) = _
  rw [tableRef?_tableLexemes (by decide)]
  show (definitions? none _).map _ = _
  rw [hdefinitions]
  rfl

/-- The statement that creates a table says where it is and which columns it has. -/
theorem layout?_create (d : Dialect) (t : Table) :
    layout? (t.create d) =
      some ⟨(t.schema, t.name), fixedColumns ++ t.columns.map Column.name⟩ := by
  have hend : "\n);\n" = "\n)" ++ ";\n" := by decide
  unfold Table.create Table.reference
  rw [hend, ← String.append_assoc]
  exact layout?_lines t.schema t.name (defines_lines d t) (by simp [fixedColumns]) ";\n"

/-- The columns that come back from a query on a table that was created by a statement. The query
must be one on this table, and its columns must be there. -/
def resultColumns? (create query : String) : Option (List String) :=
  match layout? create, query? query with
  | some l, some q =>
    if q.table = l.table ∧ ∀ c ∈ q.columns.getD [], c ∈ l.columns then
      some (q.columns.getD l.columns)
    else none
  | _, _ => none

end DataAccess.Sql

namespace DataAccess.Generation

open Sql (Dialect)

/-- The columns that come back from a find are the ones that are read from its rows. -/
theorem resultColumns_find (d : Dialect) (r : Resolved) (q : Find)
    (h : ∀ c ∈ q.attributes, c ∈ allColumns r) :
    Sql.resultColumns? ((tableOf r).create d) (Sql.compileMethod d r.model (.find q)).sql =
      some (scanColumns r (.find q)) := by
  have hlayout := Sql.layout?_create d (tableOf r)
  have hcolumns : (tableOf r).columns.map Sql.Column.name = r.columns.map Attribute.name := by
    rw [tableOf, List.map_map]
    rfl
  rw [hcolumns] at hlayout
  unfold Sql.resultColumns?
  rw [hlayout, Sql.query?_find]
  cases hattributes : q.attributes with
  | nil => simp [Sql.listed, scanColumns, hattributes, allColumns, tableOf]
  | cons c cs =>
      rw [hattributes] at h
      simp only [Sql.listed, scanColumns, hattributes, List.isEmpty_cons, Option.getD_some,
        Bool.false_eq_true, if_false]
      exact if_pos ⟨rfl, h⟩

end DataAccess.Generation
