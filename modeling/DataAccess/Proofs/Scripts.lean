import DataAccess.Proofs.SqlColumns
import DataAccess.Text.Split

set_option autoImplicit false

/-! # Scripts and the parts of their statements

A script is cut into its statements at the semicolons outside of double quotes, after the comments
are taken out (`statements`); a statement is cut at its blanks (`pieces`). Scanners do both. Pieces
are texts, so what two statements say can be compared character by character: the table a statement
works on (`tableText?`), the columns of a conflict (`conflictText?`), the parts of an index
(`indexText?`).

`Written p` describes the texts that are cut here: quoted names between characters of a class `p`.
Such a text is closed under putting one behind the other, and a cut at a character outside of `p`
leaves it whole. -/

namespace DataAccess.Sql

open Text (scan)

/-! ## Cutting outside of quotes -/

/-- Where a text is being cut: whether a double quote is open, and the piece so far, whose
characters stand last first. -/
structure Cut where
  quoted : Bool
  read : List Char
  deriving DecidableEq

/-- Reads one character: outside of quotes a `stop` ends the piece. -/
def Cut.step (stop : Char) (k : Cut) (c : Char) : List (List Char) × Cut :=
  if c = stop ∧ k.quoted = false then ([k.read.reverse], ⟨false, []⟩)
  else ([], ⟨k.quoted != (c == '\"'), c :: k.read⟩)

/-- The pieces if a text is cut on from a place. -/
def splitFrom (stop : Char) (k : Cut) (cs : List Char) : List (List Char) :=
  (scan (Cut.step stop) k cs).1 ++ [(scan (Cut.step stop) k cs).2.read.reverse]

/-- The pieces between the characters `stop` that stand outside of double quotes. -/
def split (stop : Char) (cs : List Char) : List (List Char) := splitFrom stop ⟨false, []⟩ cs

/-- Where a reader of a script is. -/
inductive Place where
  | code
  /-- Behind a dash that may start a comment. -/
  | dash
  | quoted
  | comment
  deriving DecidableEq

/-- Reads one character of a script and gives it out unless it belongs to a comment. Comments reach
from two dashes to the end of the line. -/
def Place.step : Place → Char → List Char × Place
  | .code, c => if c = '-' then ([], .dash) else ([c], if c = '\"' then .quoted else .code)
  | .dash, c =>
    if c = '-' then ([], .comment) else (['-', c], if c = '\"' then .quoted else .code)
  | .quoted, c => ([c], if c = '\"' then .code else .quoted)
  | .comment, c => if c = '\n' then ([c], .code) else ([], .comment)

/-- What is still to be given out at the end of a script. -/
def Place.close : Place → List Char
  | .dash => ['-']
  | _ => []

/-- A script without its comments. -/
def uncomment (cs : List Char) : List Char :=
  (scan Place.step .code cs).1 ++ (scan Place.step .code cs).2.close

/-- The statements of a script, without the white space around them. -/
def statements (script : String) : List String :=
  ((split ';' (uncomment script.toList)).map fun s => Text.trim (String.ofList s)).filter (· ≠ "")

/-- The pieces of a statement between its blanks. -/
def pieces (statement : String) : List String := (split ' ' statement.toList).map String.ofList

section Split

variable {stop : Char} {k k' : Cut} {cs ds : List Char} {ps : List (List Char)}

theorem splitFrom_append (h : scan (Cut.step stop) k cs = (ps, k')) (ds : List Char) :
    splitFrom stop k (cs ++ ds) = ps ++ splitFrom stop k' ds := by
  simp [splitFrom, Text.scan_append_of_eq h]

theorem splitFrom_cons (k : Cut) (c : Char) (cs : List Char) :
    splitFrom stop k (c :: cs) = (k.step stop c).1 ++ splitFrom stop (k.step stop c).2 cs := by
  simp [splitFrom]

theorem splitFrom_stop (stop : Char) (read cs : List Char) :
    splitFrom stop ⟨false, read⟩ (stop :: cs) = read.reverse :: split stop cs := by
  simp [splitFrom_cons, Cut.step, split]

/-- What has been read goes to the first piece. -/
theorem exists_splitFrom (stop : Char) (k : Cut) (cs : List Char) :
    ∃ p ps, splitFrom stop ⟨k.quoted, []⟩ cs = p :: ps ∧
      splitFrom stop k cs = (k.read.reverse ++ p) :: ps := by
  induction cs generalizing k with
  | nil => exact ⟨[], [], rfl, by simp [splitFrom]⟩
  | cons c cs ih =>
      simp only [splitFrom_cons, Cut.step]
      split_ifs with h
      · exact ⟨[], _, rfl, by simp⟩
      · obtain ⟨p, ps, hp, hread⟩ := ih ⟨k.quoted != (c == '\"'), c :: k.read⟩
        obtain ⟨q, qs, hq, hchar⟩ := ih ⟨k.quoted != (c == '\"'), [c]⟩
        cases hp.symm.trans hq
        exact ⟨c :: p, ps, by simpa using hchar, by simpa using hread⟩

/-- The pieces put together again are the text. -/
theorem intercalate_splitFrom (stop : Char) (k : Cut) (cs : List Char) :
    List.intercalate [stop] (splitFrom stop k cs) = k.read.reverse ++ cs := by
  induction cs generalizing k with
  | nil => simp [splitFrom]
  | cons c cs ih =>
      rw [splitFrom_cons, Cut.step]
      split_ifs with h
      · obtain ⟨p, ps, hps, -⟩ := exists_splitFrom stop ⟨false, []⟩ cs
        have hrest := ih ⟨false, []⟩
        rw [hps] at hrest ⊢
        rw [List.singleton_append, List.intercalate_cons_cons, hrest, h.1]
        simp
      · rw [List.nil_append, ih, List.reverse_cons, List.append_assoc, List.singleton_append]

theorem uncomment_append {cs ts : List Char} (h : scan Place.step .code cs = (ts, .code))
    (ds : List Char) : uncomment (cs ++ ds) = ts ++ uncomment ds := by
  simp [uncomment, Text.scan_append_of_eq h]

theorem uncomment_cons {c : Char} (hdash : c ≠ '-') (hquote : c ≠ '\"') (cs : List Char) :
    uncomment (c :: cs) = c :: uncomment cs := by
  have hstep : scan Place.step .code [c] = ([c], .code) := by simp [Place.step, hdash, hquote]
  exact uncomment_append hstep cs

end Split

/-! ## Quoted names between characters -/

/-- A text of names in double quotes between characters of a class. -/
inductive Written (p : Char → Bool) : List Char → Prop where
  | nil : Written p []
  | char {c : Char} {cs : List Char} (hc : p c = true) (hquote : c ≠ '\"') (h : Written p cs) :
      Written p (c :: cs)
  | quoted (name : List Char) {cs : List Char} (h : Written p cs) :
      Written p ('\"' :: (name.flatMap quoteChar ++ '\"' :: cs))

namespace Written

variable {p : Char → Bool} {cs ds : List Char}

theorem append (hcs : Written p cs) (hds : Written p ds) : Written p (cs ++ ds) := by
  induction hcs with
  | nil => exact hds
  | char hc hquote _ ih => exact .char hc hquote ih
  | quoted name _ ih =>
      rw [List.cons_append, List.append_assoc, List.cons_append]
      exact .quoted name ih

theorem mono {q : Char → Bool} (h : Written p cs) (hpq : ∀ c, p c = true → q c = true) :
    Written q cs := by
  induction h with
  | nil => exact .nil
  | char hc hquote _ ih => exact .char (hpq _ hc) hquote ih
  | quoted name _ ih => exact .quoted name ih

theorem of_all (h : (cs.all fun c => p c && c != '\"') = true) : Written p cs := by
  induction cs with
  | nil => exact .nil
  | cons c cs ih =>
      simp only [List.all_cons, Bool.and_eq_true, bne_iff_ne] at h
      exact .char h.1.1 h.1.2 (ih (by simpa using h.2))

/-- A name in quotes goes to the piece in which it stands. A quote in it is written twice: the first
one leaves the name for a moment, in which the second one is read. -/
theorem scan_name {stop : Char} (hstop : stop ≠ '\"') (name read cs : List Char) :
    scan (Cut.step stop) ⟨false, read⟩ ('\"' :: (name.flatMap quoteChar ++ '\"' :: cs)) =
      scan (Cut.step stop)
        ⟨false, ('\"' :: (name.flatMap quoteChar ++ ['\"'])).reverse ++ read⟩ cs := by
  have hne : '\"' ≠ stop := Ne.symm hstop
  have hname : scan (Cut.step stop) ⟨true, '\"' :: read⟩ (name.flatMap quoteChar) =
      ([], ⟨true, (name.flatMap quoteChar).reverse ++ '\"' :: read⟩) := by
    have hkept : scan (Cut.step stop) ⟨true, '\"' :: read⟩ (name.flatMap quoteChar) =
        ([], ⟨true, ((name.reverse ++ []).reverse.flatMap quoteChar).reverse ++ '\"' :: read⟩) := by
      refine Text.scan_flatMap
        (fun cs => Cut.mk true ((cs.reverse.flatMap quoteChar).reverse ++ '\"' :: read)) _ []
        fun c _ cs => ?_
      by_cases hc : c = '\"' <;> simp [quoteChar, Cut.step, hc, hne]
    simpa using hkept
  have hopen : Cut.step stop ⟨false, read⟩ '\"' = ([], ⟨true, '\"' :: read⟩) := by
    simp [Cut.step, hne]
  rw [Text.scan_cons, hopen, Text.scan_append_of_eq hname]
  simp [Cut.step]

theorem step_char {stop c : Char} (hstop : c ≠ stop) (hquote : c ≠ '\"') (read : List Char) :
    Cut.step stop ⟨false, read⟩ c = ([], ⟨false, c :: read⟩) := by
  simp [Cut.step, hstop, hquote]

/-- A cut at a character that can only stand in the names leaves the text whole. -/
theorem scan_cut {stop : Char} (h : Written p cs) (hstop : p stop = false) (hquote : stop ≠ '\"')
    (read : List Char) :
    scan (Cut.step stop) ⟨false, read⟩ cs = ([], ⟨false, cs.reverse ++ read⟩) := by
  -- By induction on how the text is written: behind each name the reader is outside again.
  induction h generalizing read with
  | nil => rfl
  | @char c cs hc hcquote _ ih =>
      have hne : c ≠ stop := by
        rintro rfl
        rw [hc] at hstop
        cases hstop
      rw [Text.scan_cons, step_char hne hcquote, Text.prepend_nil, ih]
      simp
  | quoted name _ ih =>
      rw [scan_name hquote, ih]
      simp

/-- The pieces of such a text are such texts, and behind it a reader is outside of quotes. -/
theorem exists_cut {stop : Char} (h : Written p cs) (hquote : stop ≠ '\"') (read : List Char)
    (hread : Written p read.reverse) :
    ∃ ps last, scan (Cut.step stop) ⟨false, read⟩ cs = (ps, ⟨false, last⟩) ∧
      ∀ piece ∈ ps ++ [last.reverse], Written p piece := by
  induction h generalizing read with
  | nil => exact ⟨[], read, rfl, by simpa using hread⟩
  | @char c cs hc hcquote _ ih =>
      rw [Text.scan_cons]
      by_cases hstop : c = stop
      · obtain ⟨ps, last, hscan, hpieces⟩ := ih [] .nil
        have hstep : Cut.step stop ⟨false, read⟩ c = ([read.reverse], ⟨false, []⟩) := by
          simp [Cut.step, hstop]
        refine ⟨read.reverse :: ps, last, ?_, List.forall_mem_cons.2 ⟨hread, hpieces⟩⟩
        rw [hstep, hscan]
        rfl
      · obtain ⟨ps, last, hscan, hpieces⟩ := ih (c :: read)
          (by simpa using hread.append (.char hc hcquote .nil))
        refine ⟨ps, last, ?_, hpieces⟩
        rw [step_char hstop hcquote, hscan]
        rfl
  | quoted name _ ih =>
      rw [scan_name hquote]
      exact ih _ (by simpa using hread.append (.quoted name .nil))

theorem split_eq_singleton {stop : Char} (h : Written p cs) (hstop : p stop = false)
    (hquote : stop ≠ '\"') : split stop cs = [cs] := by
  simp [split, splitFrom, h.scan_cut hstop hquote]

theorem split_append_stop {stop : Char} (h : Written p cs) (hquote : stop ≠ '\"')
    (rest : List Char) : split stop (cs ++ stop :: rest) = split stop cs ++ split stop rest := by
  obtain ⟨ps, last, hscan, -⟩ := h.exists_cut hquote [] .nil
  have hcs : split stop cs = ps ++ [last.reverse] := by rw [split, splitFrom, hscan]
  rw [split, splitFrom_append hscan, splitFrom_stop, hcs, List.append_assoc, List.singleton_append]

theorem of_mem_split {stop : Char} (h : Written p cs) (hquote : stop ≠ '\"') :
    ∀ piece ∈ split stop cs, Written p piece := by
  obtain ⟨ps, last, hscan, hpieces⟩ := h.exists_cut hquote [] .nil
  rw [split, splitFrom, hscan]
  exact hpieces

/-- Without dashes outside of the names there is no comment. -/
theorem scan_code (h : Written p cs) (hdash : p '-' = false) :
    scan Place.step .code cs = (cs, .code) := by
  induction h with
  | nil => rfl
  | @char c cs hc hcquote _ ih =>
      have hne : c ≠ '-' := by
        rintro rfl
        rw [hc] at hdash
        cases hdash
      simp [Place.step, hne, hcquote, ih]
  | @quoted name cs _ ih =>
      have hname : scan Place.step .quoted (name.flatMap quoteChar) =
          (name.flatMap quoteChar, .quoted) := by
        refine Text.scan_loop fun c _ => ?_
        by_cases hc : c = '\"' <;> simp [quoteChar, Place.step, hc]
      rw [Text.scan_cons, Place.step, if_neg (by decide), if_pos rfl,
        Text.scan_append_of_eq hname]
      simp [Place.step, ih]

end Written

/-! ## Names and lists -/

/-- The characters of a table name outside of quotes. -/
def isNamePart (c : Char) : Bool := isPlainPart c || c == '.'

/-- The characters of a list in parentheses outside of quotes, be it one of names or of
placeholders. -/
def isListPart (c : Char) : Bool := isNamePart c || "(), $?".toList.contains c

theorem isListPart_of_isNamePart {c : Char} (h : isNamePart c = true) : isListPart c = true := by
  rw [isListPart, h, Bool.true_or]

theorem isPlainPart_of_isPlain {cs : List Char} (h : isPlain cs = true) :
    ∀ c ∈ cs, isPlainPart c = true := by
  cases cs with
  | nil => simp
  | cons c cs =>
      rw [isPlain, Bool.and_eq_true, List.all_eq_true] at h
      refine List.forall_mem_cons.2 ⟨?_, h.2⟩
      have hstart := h.1
      simp only [isPlainStart, isPlainPart, Bool.or_eq_true] at hstart ⊢
      rcases hstart with hlower | hunderscore
      · exact .inl (.inl hlower)
      · exact .inr hunderscore

theorem written_quote (name : String) : Written isNamePart (quote name).toList := by
  by_cases h : (isPlain name.toList && !reservedWords.contains name) = true
  · rw [quote, if_pos h]
    have hplain : isPlain name.toList = true := (Bool.and_eq_true _ _ ▸ h).1
    refine Written.of_all (List.all_eq_true.2 fun c hc => ?_)
    have hpart := isPlainPart_of_isPlain hplain c hc
    have hquote : c ≠ '\"' := by
      rintro rfl
      exact absurd hpart (by decide)
    simp [isNamePart, hpart, hquote]
  · have hchars : (quote name).toList = '\"' :: (name.toList.flatMap quoteChar ++ ['\"']) := by
      rw [quote, if_neg h]
      simp
    rw [hchars]
    exact .quoted _ .nil

/-- The schema of a table is part of its name, with a dot between them. -/
theorem written_qualified (schema : Option String) (table : String) :
    Written isNamePart (qualified schema table).toList := by
  cases schema with
  | none => exact written_quote table
  | some s =>
      rw [qualified, String.toList_append, String.toList_append]
      exact ((written_quote s).append (.of_all (by decide))).append (written_quote table)

theorem Written.intercalate {p : Char → Bool} {separator : String} {texts : List String}
    (hsep : Written p separator.toList) (h : ∀ t ∈ texts, Written p t.toList) :
    Written p (String.intercalate separator texts).toList := by
  induction texts with
  | nil => exact .nil
  | cons t texts ih =>
      obtain ⟨ht, htexts⟩ := List.forall_mem_cons.1 h
      cases texts with
      | nil => simpa using ht
      | cons u texts =>
          rw [String.intercalate_cons_cons, String.toList_append, String.toList_append]
          exact (ht.append hsep).append (ih htexts)

theorem written_list {texts : List String} (h : ∀ t ∈ texts, Written isListPart t.toList) :
    Written isListPart (String.intercalate ", " texts).toList := by
  have hsep : Written isListPart ", ".toList := .of_all (by decide)
  exact hsep.intercalate h

theorem written_quoteAll (names : List String) : Written isListPart (quoteAll names).toList := by
  apply written_list
  intro t ht
  obtain ⟨name, -, rfl⟩ := List.mem_map.1 ht
  exact (written_quote name).mono fun _ hc => isListPart_of_isNamePart hc

/-- A list in parentheses. -/
def inParens (text : String) : String := "(" ++ text ++ ")"

theorem written_inParens {text : String} (h : Written isListPart text.toList) :
    Written isListPart (inParens text).toList := by
  rw [inParens, String.toList_append, String.toList_append]
  exact ((Written.of_all (by decide)).append h).append (.of_all (by decide))

/-! ## Pieces -/

theorem Written.head {p : Char → Bool} {c : Char} {cs : List Char} (h : Written p (c :: cs)) :
    p c = true ∨ c = '\"' := by
  cases h with
  | char hc _ _ => exact .inl hc
  | quoted _ _ => exact .inr rfl

section Pieces

variable {p : Char → Bool} {a : String}

/-- The pieces put together again are the statement. -/
theorem intercalate_pieces (a : String) : String.intercalate " " (pieces a) = a := by
  have hback : (split ' ' a.toList).map (String.toList ∘ String.ofList) = split ' ' a.toList := by
    simp [Function.comp_def]
  rw [← String.toList_inj, String.toList_intercalate, pieces, List.map_map, hback]
  exact intercalate_splitFrom ' ' ⟨false, []⟩ a.toList

theorem pieces_append (h : Written p a.toList) (b : String) :
    pieces (a ++ " " ++ b) = pieces a ++ pieces b := by
  have hchars : (a ++ " " ++ b).toList = a.toList ++ ' ' :: b.toList := by simp
  rw [pieces, hchars, h.split_append_stop (by decide), List.map_append, pieces, pieces]

/-- A name is one piece, whatever its characters are. -/
theorem pieces_name (h : Written isNamePart a.toList) : pieces a = [a] := by
  rw [pieces, h.split_eq_singleton (by decide) (by decide), List.map_singleton,
    String.ofList_toList]

/-- A word in capitals is no piece of a list. -/
theorem not_mem_pieces {w : String} {c : Char} {cs : List Char} (h : Written isListPart a.toList)
    (hw : w.toList = c :: cs) (hc : isListPart c = false ∧ c ≠ '\"') : w ∉ pieces a := by
  intro hmem
  obtain ⟨piece, hpiece, rfl⟩ := List.mem_map.1 hmem
  have hwritten := h.of_mem_split (by decide) piece hpiece
  rw [String.toList_ofList] at hw
  rw [hw] at hwritten
  -- A piece of a list starts with a character of lists, or it is a name in quotes.
  rcases hwritten.head with hpart | hquote
  · rw [hc.1] at hpart
    cases hpart
  · exact hc.2 hquote

end Pieces

/-! ## Readers -/

/-- What stands behind the first of the given words. -/
def behind (words pieces : List String) : List String :=
  (pieces.dropWhile fun p => !words.contains p).tail

theorem behind_append {words before after : List String} {w : String} (hw : w ∈ words)
    (hbefore : ∀ p ∈ before, p ∉ words) : behind words (before ++ w :: after) = after := by
  have hdrop : (before ++ w :: after).dropWhile (fun p => !words.contains p) = w :: after := by
    rw [List.dropWhile_append_of_pos (by simpa using hbefore),
      List.dropWhile_cons_of_neg (by simpa using hw)]
  rw [behind, hdrop, List.tail_cons]

/-- The table that a statement works on, as it is written. -/
def tableText? (sql : String) : Option String :=
  (behind ["FROM", "INTO", "UPDATE"] (pieces sql)).head?

/-- The list of columns by which an insertion finds the row that it replaces, as it is written. -/
def conflictText? (sql : String) : Option String :=
  match behind ["CONFLICT"] (pieces sql) with
  | [] => none
  | ps => some (String.intercalate " " (ps.takeWhile (· ≠ "DO")))

/-- The table that a statement creates, as it is written. -/
def createdText? (statement : String) : Option String :=
  match pieces statement with
  | "CREATE" :: "TABLE" :: "IF" :: "NOT" :: "EXISTS" :: table :: _ => some table
  | _ => none

/-- The parts of a statement that creates an index, as they are written. -/
structure IndexText where
  unique : Bool
  name : String
  table : String
  columns : String
  deriving DecidableEq

def indexText? (statement : String) : Option IndexText :=
  match pieces statement with
  | "CREATE" :: "UNIQUE" :: "INDEX" :: "IF" :: "NOT" :: "EXISTS" :: name :: "ON" :: table ::
      columns => some ⟨true, name, table, String.intercalate " " columns⟩
  | "CREATE" :: "INDEX" :: "IF" :: "NOT" :: "EXISTS" :: name :: "ON" :: table :: columns =>
    some ⟨false, name, table, String.intercalate " " columns⟩
  | _ => none

/-- The name that a lexeme is. -/
def Lexeme.name? : Lexeme → Option String
  | .name s => some s
  | _ => none

/-- The names in a text. -/
def namesIn (text : String) : List String := (lexemes text.toList).filterMap Lexeme.name?

/-- What a statement that creates an index says. -/
structure IndexStatement where
  unique : Bool
  name : String
  table : TableRef
  columns : List String
  deriving DecidableEq

/-- Reads a statement that creates an index. -/
def index? (statement : String) : Option IndexStatement :=
  match indexText? statement with
  | none => none
  | some t => match lexemes t.name.toList, tableRef? (lexemes t.table.toList) with
    | [.name name], some (table, []) => some ⟨t.unique, name, table, namesIn t.columns⟩
    | _, _ => none

/-- The index statements of a script. -/
def scriptIndexes (script : String) : List IndexStatement := (statements script).filterMap index?

end DataAccess.Sql
