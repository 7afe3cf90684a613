import DataAccess.Proofs.Mentions
import DataAccess.Proofs.OwnStatements
import DataAccess.Proofs.RowLayout

set_option autoImplicit false

/-! # Predeclared names

Go declares names of types, constants and functions for every package (`predeclared`). Some of them
are reserved; a method may have one of the others, which are `exposed`. Here the exposed names are
told that each part of the generated code refers to.

The names made from those of models, methods and columns are not among them, for they start with a
capital or go on with a word that does (`OwnName`). Texts that are the same for all models are gone
through one by one (`fixedTexts`). What is left are the types of columns (`exposed_rowStruct`) and
the result of an upsert (`mem_exposed_accessOf`). -/

namespace DataAccess.Go

open DataAccess.Naming DataAccess.Unicode

/-- The identifiers that Go declares for every package: types, constants and functions. -/
def predeclared : List String :=
  ["any", "bool", "byte", "comparable", "complex64", "complex128", "error", "float32", "float64",
   "int", "int8", "int16", "int32", "int64", "rune", "string", "uint", "uint8", "uint16", "uint32",
   "uint64", "uintptr", "true", "false", "iota", "nil", "append", "cap", "clear", "close",
   "complex", "copy", "delete", "imag", "len", "make", "max", "min", "new", "panic", "print",
   "println", "real", "recover"]

/-! ## Capitals -/

/-- The small letters of ASCII. -/
def smallLetters : List Char := "abcdefghijklmnopqrstuvwxyz".toList

theorem upperShifts_smallLetters : (smallLetters.all fun l =>
    upperShifts.avoids l.toNat && upperShifts.apply l != l) = true := by
  decide +kernel

theorem head_expansions :
    ∀ e ∈ upperExpansions, ∀ n ∈ e.2.head?, n ∉ smallLetters.map Char.toNat := by decide +kernel

/-- The upper case of a character does not start with a small letter of ASCII. -/
theorem head_upper_not_small {c u : Char} {us : List Char} (h : upper c = u :: us) :
    u ∉ smallLetters := by
  intro hsmall
  rcases upper_cases c with ⟨e, he, -, heq⟩ | ⟨-, heq⟩
  · obtain ⟨n, hn, hu⟩ : ∃ n ∈ e.2.head?, Char.ofNat n = u := by
      rw [heq] at h
      cases hcodes : e.2 with
      | nil => simp [hcodes] at h
      | cons n ns =>
          rw [hcodes, List.map_cons] at h
          exact ⟨n, rfl, (List.cons.inj h).1⟩
    have hnat := (contains_expansion he (List.mem_of_mem_head? hn)).1
    rw [hu] at hnat
    exact head_expansions e he n hn (hnat ▸ List.mem_map_of_mem hsmall)
  · -- Nothing moves to a small letter, and those letters do not stay.
    rw [heq] at h
    have hu : upperShifts.apply c = u := (List.cons.inj h).1
    have hletter := List.all_eq_true.1 upperShifts_smallLetters u hsmall
    rw [Bool.and_eq_true, bne_iff_ne] at hletter
    obtain ⟨havoids, hmoves⟩ := hletter
    have hself : upperShifts.apply c = c :=
      ShiftTable.apply_eq_self_of_avoids (TablesFit.scalar tablesFit)
        (TablesFit.upperEnds tablesFit) (hu ▸ havoids)
    have hsame : c = u := hself.symm.trans hu
    exact hmoves (hsame ▸ hu)

theorem not_small_initialisms :
    ∀ w ∈ initialisms, ((upperText w).toList.all (decide <| · ∉ smallLetters)) = true := by
  decide +kernel

/-- Neither does an exported name. -/
theorem head_exported_not_small {s : String} {u : Char} {us : List Char}
    (h : (exported s).toList = u :: us) : u ∉ smallLetters := by
  rw [toList_exported, List.flatten_eq_cons_iff] at h
  obtain ⟨before, rest, after, hwords, -, -⟩ := h
  have hmem : u :: rest ∈ (exportedWords s).map fun w => (exportedWord w).toList := by
    rw [hwords]
    simp
  obtain ⟨w, -, hchars⟩ := List.mem_map.1 hmem
  rcases exportedWord_cases w with ⟨hinitialism, hword⟩ | hword
  · rw [hword] at hchars
    have hsmall := List.all_eq_true.1 (not_small_initialisms w hinitialism) u
      (hchars ▸ List.mem_cons_self)
    exact of_decide_eq_true hsmall
  · rw [hword] at hchars
    obtain ⟨c, -, us', hupper⟩ := head_pascalChars hchars
    exact head_upper_not_small hupper

theorem head_predeclared :
    ∀ w ∈ predeclared, w.toList.head?.any smallLetters.contains = true := by
  decide +kernel

theorem small_predeclared :
    ∀ w ∈ predeclared, (w.toList.all fun c => !c.isUpper) = true := by
  decide +kernel

theorem not_predeclared_of_isUpper {s : String} {c : Char} (hc : c ∈ s.toList)
    (hupper : c.isUpper = true) : s ∉ predeclared := by
  intro hmem
  have hsmall := List.all_eq_true.1 (small_predeclared s hmem) c hc
  rw [hupper] at hsmall
  cases hsmall

/-- A name that generated code brings along: it has no signs and is not predeclared. -/
structure OwnName (s : String) : Prop where
  chars : ∀ c ∈ s.toList, isNameChar c = true
  own : s ∉ predeclared

theorem OwnName.exported {s : String} (h : isIdentifier (exported s) = true) :
    OwnName (exported s) := by
  refine ⟨isNameChar_identifier h, fun hmem => ?_⟩
  obtain ⟨u, hu, hsmall⟩ := (Option.any_eq_true _ _).1 (head_predeclared _ hmem)
  obtain ⟨us, hus⟩ := List.head?_eq_some_iff.1 hu
  exact head_exported_not_small hus (List.contains_iff_mem.1 hsmall)

/-- A name goes on with a word that starts with a capital. -/
theorem OwnName.append {s t : String} {c : Char} {cs : List Char} (ht : t.toList = c :: cs)
    (halpha : t.toList.all Char.isAlpha = true) (hupper : c.isUpper = true)
    (h : ∀ c ∈ s.toList, isNameChar c = true) : OwnName (s ++ t) := by
  refine ⟨?_, not_predeclared_of_isUpper (c := c) (by simp [ht]) hupper⟩
  rw [String.toList_append, List.forall_mem_append]
  exact ⟨h, fun d hd =>
    isNameChar_of_isAlphabetic (isAlphabetic_of_isAlpha (List.all_eq_true.1 halpha d hd))⟩

end DataAccess.Go

namespace DataAccess.Generation

open Go (Func Node Occurrence OwnName SourceFile TypeRef mentionsOf namesOf predeclared)
open Sql (Dialect Parameter Statement)

/-- The predeclared identifiers that no check keeps free. -/
def isExposed (name : String) : Bool := predeclared.contains name && !reservedNames.contains name

theorem isExposed_iff {name : String} :
    isExposed name = true ↔ name ∈ predeclared ∧ name ∉ reservedNames := by
  simp [isExposed]

/-- Those that a text refers to. -/
def exposedIn (text : String) : List String := (namesOf text).filter isExposed

/-- Those that code refers to. -/
def exposed (os : List Occurrence) : List String := (mentionsOf os).filter isExposed

section Exposed

variable (os os' : List Occurrence)

@[simp] theorem exposed_nil : exposed [] = [] := rfl

@[simp] theorem exposed_type (text : String) :
    exposed (.type text :: os) = exposedIn text ++ exposed os := List.filter_append _ _

@[simp] theorem exposed_name (text : String) :
    exposed (.name text :: os) = exposedIn text ++ exposed os := List.filter_append _ _

@[simp] theorem exposed_bound (x : String) : exposed (.bound x :: os) = exposed os := rfl

@[simp] theorem exposed_append : exposed (os ++ os') = exposed os ++ exposed os' := by
  rw [exposed, Go.mentionsOf_append, List.filter_append, exposed, exposed]

end Exposed

theorem exposed_flatMap {α : Type} (f : α → List Occurrence) (as : List α) :
    exposed (as.flatMap f) = as.flatMap fun a => exposed (f a) := by
  rw [exposed, Go.mentionsOf_flatMap, List.filter_flatMap]
  rfl

theorem exposed_map {α : Type} (f : α → Occurrence) (as : List α) :
    exposed (as.map f) = as.flatMap fun a => exposed [f a] := by
  rw [← exposed_flatMap, List.map_eq_flatMap]

theorem mem_exposed {name : String} {os : List Occurrence} :
    name ∈ exposed os ↔ name ∈ mentionsOf os ∧ isExposed name = true := List.mem_filter

theorem exposed_ownName {s : String} (h : OwnName s) : exposedIn s = [] := by
  have hexposed : isExposed s = false := by simp [isExposed, h.own]
  rw [exposedIn, Go.namesOf_word h.chars, List.filter_singleton, hexposed]
  rfl

section Names

variable {method goName : String}

theorem ownName_paramsName (h : Go.isIdentifier method = true) : OwnName (paramsName method) :=
  .append rfl (by decide) (by decide) (Go.isNameChar_identifier h)

theorem ownName_requestName (h : Go.isIdentifier method = true) : OwnName (requestName method) :=
  .append rfl (by decide) (by decide) (Go.isNameChar_identifier h)

theorem ownName_queryName (h : Go.isIdentifier method = true) : OwnName (queryName method) :=
  .append rfl (by decide) (by decide) (Go.isNameChar_camel (Go.isNameChar_identifier h))

theorem ownName_statementsName (h : Go.isIdentifier goName = true) :
    OwnName (statementsName goName) :=
  .append rfl (by decide) (by decide) (Go.isNameChar_camel (Go.isNameChar_identifier h))

end Names

/-! ## Texts without such names -/

/-- The texts that stand in the code of every model, and those in front of a type. They refer to no
exposed name. -/
def fixedTexts : List String :=
  ["nil", "err", "args", "stmt", "ctx", "stmts", "req", "ok", "rows", "items", "item", "id",
   "inserted", "append", "result", "error", "db", "make", "len", "r", "entry[1]",
   "stmts[entry[0]]", "", "[]", "any", "[]any", "int64", "string", "[][2]string",
   "map[string]*sql.Stmt", rangeBound, notPreparedError, Parameter.idGenerator]

/-- The types and the constant that are exposed. -/
def openTexts : List String := ["int32", "float64", "bool", "false"]

theorem exposed_texts : (∀ t ∈ fixedTexts, exposedIn t = []) ∧
    ∀ t ∈ openTexts, exposedIn t = [t] := by
  decide +kernel

theorem exposed_fixed {t : String} (h : t ∈ fixedTexts) : exposedIn t = [] := exposed_texts.1 t h

theorem exposed_open {t : String} (h : t ∈ openTexts) : exposedIn t = [t] := exposed_texts.2 t h

/-- Signs in front of a type refer to nothing. -/
theorem exposedIn_append {signs : String} (hsigns : signs ∈ fixedTexts) {c : Char}
    (hc : Go.isSign c = true) (t : String) :
    exposedIn (signs ++ String.singleton c ++ t) = exposedIn t := by
  rw [exposedIn, Go.namesOf_append hc, List.filter_append, ← exposedIn, exposed_fixed hsigns,
    List.nil_append, exposedIn]

/-- A pointer to a type mentions the type. -/
theorem exposed_pointer (t : String) : exposedIn ("*" ++ t) = exposedIn t := by
  have hempty : "" ∈ fixedTexts := by decide
  simpa using exposedIn_append hempty (c := '*') (by decide) t

/-- A list of pointers does, too. -/
theorem exposed_pointers (t : String) : exposedIn ("[]*" ++ t) = exposedIn t := by
  have hbrackets : "[]" ∈ fixedTexts := by decide
  exact exposedIn_append hbrackets (c := '*') (by decide) t

/-! ## Access functions -/

/-- The start of an access function. -/
def prologueCode (s : Statement) : List Node :=
  [⟨.call (.method (.ident "req") "Args" []), .define ["args", "err"], some (onError s.kind), none⟩,
   ⟨.index (.ident "stmts") (.str s.name), .define ["stmt", "ok"], none, none⟩,
   .branch (.unary .not (.ident "ok")) [.ret (zeros s.kind ++ [.ident notPreparedError])]]

/-- Reads every row of the result into a list. -/
def rowsCode (row : String) (columns : List String) : List Node :=
  [⟨.call (runStatement "QueryContext"), .define ["rows", "err"], some (onError .find),
     some (.method (.ident "rows") "Close" [])⟩,
   .declare "items" (.builtin ("[]*" ++ row)),
   scanLoop row (scanTargets columns),
   ⟨.call (.method (.ident "rows") "Err" []), .assign ["err"], some (onError .find), none⟩,
   .ret [.ident "items", .nil]]

/-- Counts the rows that were changed. -/
def executeCode (kind : MethodKind) : List Node :=
  [⟨.call (runStatement "ExecContext"), .define ["result", "err"], some (onError kind), none⟩,
   .ret [.call (.method (.ident "result") "RowsAffected" [])]]

/-- Reads the one row of the result into variables and returns them. -/
def rowCode (kind : MethodKind) (targets : List (String × String)) : List Node :=
  targets.map (fun t => .declare t.1 (.builtin t.2)) ++
    [⟨.call (.method (.call (runStatement "QueryRowContext")) "Scan"
       (targets.map fun t => .unary .addressOf (.ident t.1))), .assign ["err"],
       some (onError kind), none⟩,
     .ret (targets.map (fun t => .ident t.1) ++ [.nil])]

/-- The statements that run a method of a kind and return its result. -/
def resultCode (row : String) (columns : List String) : MethodKind → List Node
  | .find => rowsCode row columns
  | .update => executeCode .update
  | .delete => executeCode .delete
  | .add => rowCode .add [("id", "string")]
  | .addOrReplace => rowCode .addOrReplace [("id", "string"), ("inserted", "bool")]

/-- The access function of a statement. -/
def accessOf (s : Statement) (row : String) (columns : List String) : Func :=
  { name := s.name
    doc := [s.name ++ " runs the prepared " ++ s.kind.text ++ " statement."]
    params := [⟨"ctx", contextType⟩, ⟨"stmts", statementMapType⟩,
      ⟨"req", .builtin ("*" ++ requestName s.name)⟩]
    returns := resultTypes row s.kind
    body := prologueCode s ++ resultCode row columns s.kind }

/-- Generating an access function never fails. -/
theorem accessFunction_eq (s : Statement) (row : String) (columns : List String) :
    accessFunction s row columns = .ok (accessOf s row columns) := by
  have hresult : resultNodes row columns s.kind = .ok (resultCode row columns s.kind) := by
    cases s.kind <;> rfl
  rw [accessFunction, hresult]
  rfl

/-- What is exposed in the values beside an error. -/
def exposedZeros : MethodKind → List String
  | .addOrReplace => ["false"]
  | _ => []

theorem exposed_zeros (kind : MethodKind) :
    exposed (Node.allOccurrences (zeros kind)) = exposedZeros kind := by
  cases kind <;> simp (disch := decide) [zeros, exposedZeros, exposed_fixed, exposed_open]

theorem exposed_onError (kind : MethodKind) :
    exposed (onError kind).occurrences = exposedZeros kind := by
  simp (disch := decide) [onError, exposed_fixed, exposed_zeros]

theorem exposed_prologue (s : Statement) : exposed (Node.allOccurrences (prologueCode s)) =
    exposedZeros s.kind ++ exposedZeros s.kind := by
  simp (disch := decide) [prologueCode, exposed_fixed, exposed_zeros, exposed_onError]

theorem exposed_scanTargets {columns : List String}
    (h : ∀ c ∈ columns, Go.isIdentifier (Go.exported c) = true) :
    exposed (Node.allOccurrences (scanTargets columns)) = [] := by
  induction columns with
  | nil => rfl
  | cons c columns ih =>
      obtain ⟨hc, hcolumns⟩ := List.forall_mem_cons.1 h
      have htarget : exposedIn ("item" ++ "." ++ Go.exported c) = [] := by
        rw [exposedIn, Go.namesOf_select (List.all_eq_true.1 (by decide)) fun u hu =>
          (Go.isNameChar_iff.1 (Go.isNameChar_identifier hc u hu)).1]
        decide
      have hrest := ih hcolumns
      rw [scanTargets] at hrest
      rw [scanTargets, List.map_cons, Node.allOccurrences_cons, Node.occurrences_unary,
        Node.occurrences_ident, exposed_append, hrest, List.append_nil, exposed_name, exposed_nil,
        List.append_nil]
      exact htarget

theorem exposed_rows {row : String} {columns : List String} (hrow : OwnName row)
    (hcolumns : ∀ c ∈ columns, Go.isIdentifier (Go.exported c) = true) :
    exposed (Node.allOccurrences (rowsCode row columns)) = [] := by
  simp (disch := decide) [rowsCode, scanLoop, runStatement, exposed_fixed, exposed_onError,
    exposedZeros, exposed_pointers, exposed_ownName hrow, exposed_scanTargets hcolumns]

theorem exposed_execute (kind : MethodKind) :
    exposed (Node.allOccurrences (executeCode kind)) = exposedZeros kind := by
  simp (disch := decide) [executeCode, runStatement, exposed_fixed, exposed_onError]

/-- What is exposed where an upsert reads its result. -/
def exposedResult : MethodKind → List String
  | .addOrReplace => ["bool", "false"]
  | _ => []

theorem exposed_result {row : String} {columns : List String} (hrow : OwnName row)
    (hcolumns : ∀ c ∈ columns, Go.isIdentifier (Go.exported c) = true) (kind : MethodKind) :
    exposed (Node.allOccurrences (resultCode row columns kind)) = exposedResult kind := by
  cases kind with
  | find => exact exposed_rows hrow hcolumns
  | update => exact exposed_execute .update
  | delete => exact exposed_execute .delete
  | add =>
      simp (disch := decide) [resultCode, rowCode, runStatement, exposed_fixed, exposed_onError,
        exposedZeros, exposedResult]
  | addOrReplace =>
      simp (disch := decide) [resultCode, rowCode, runStatement, exposed_fixed, exposed_open,
        exposed_onError, exposedZeros, exposedResult]

/-- What is exposed in the types of results. -/
def exposedReturns : MethodKind → List String
  | .addOrReplace => ["bool"]
  | _ => []

theorem exposed_resultTypes {row : String} (hrow : OwnName row) (kind : MethodKind) :
    exposed ((resultTypes row kind).map TypeRef.occurrence) = exposedReturns kind := by
  cases kind <;>
    simp (disch := decide) [resultTypes, TypeRef.error, exposed_fixed, exposed_open,
      exposed_pointers, exposed_ownName hrow, exposedReturns]

/-- The types of other packages refer to these packages. -/
theorem exposed_packageTypes : ∀ t ∈ [contextType, databaseType, statementMapType, timeType,
    jsonType], ∀ os, exposed (t.occurrence :: os) = exposed os := by
  have htexts : ∀ t ∈ [contextType, databaseType, statementMapType, timeType, jsonType],
      exposedIn t.render = [] := by decide +kernel
  intro t ht os
  rw [TypeRef.occurrence, exposed_type, htexts t ht, List.nil_append]

/-- Only the access function of an upsert refers to exposed names. -/
theorem mem_exposed_accessOf {s : Statement} {row : String} {columns : List String}
    (hname : Go.isIdentifier s.name = true) (hrow : OwnName row)
    (hcolumns : ∀ c ∈ columns, Go.isIdentifier (Go.exported c) = true) {name : String} :
    name ∈ exposed (accessOf s row columns).occurrences ↔
      s.kind = .addOrReplace ∧ (name = "bool" ∨ name = "false") := by
  have hparams : exposed ((accessOf s row columns).params.flatMap fun p =>
      [.bound p.name, p.type.occurrence]) = [] := by
    simp (disch := decide) [accessOf, exposed_packageTypes, exposed_pointer,
      exposed_ownName (ownName_requestName hname)]
  have hall : exposed (accessOf s row columns).occurrences = exposedReturns s.kind ++
      (exposedZeros s.kind ++ exposedZeros s.kind ++ exposedResult s.kind) := by
    rw [Func.occurrences, exposed_append, exposed_append, exposed_append, hparams]
    simp only [accessOf, Option.elim_none, exposed_nil, List.nil_append,
      Node.allOccurrences_append, exposed_append, exposed_resultTypes hrow, exposed_prologue,
      exposed_result hrow hcolumns]
  rw [hall]
  cases s.kind <;> simp [exposedReturns, exposedZeros, exposedResult]
  rw [← or_assoc, or_self]

/-! ## Requests -/

theorem exposed_paramsStruct (s : Statement) : exposed (paramsStruct s).occurrences = [] := by
  simp (disch := decide) [paramsStruct, Go.Struct.occurrences, exposed_map, TypeRef.any,
    exposed_fixed]

/-- The variables that hold elements of parameters are no predeclared names. -/
theorem ownName_boundName (position : Nat) : OwnName (boundName position) := by
  have hchars : (boundName position).toList = "bound".toList ++ Nat.toDigits 10 position := by
    rw [boundName, String.toList_append, Nat.toString_eq_repr, Nat.toList_repr]
  constructor
  · rw [hchars, List.forall_mem_append]
    refine ⟨List.all_eq_true.1 (by decide), fun c hc => ?_⟩
    have hdigit := Nat.isDigit_of_mem_toDigits (by decide) (by decide) hc
    simp [Go.isNameChar, Go.isSign, Char.isAlphanum, hdigit]
    rintro rfl
    cases hdigit
  · intro hmem
    have hnone : ∀ w ∈ predeclared, ¬ "bound".toList <+: w.toList := by decide
    exact hnone _ hmem ⟨_, hchars.symm⟩

theorem exposed_parameterNode {name : String} (h : Go.isIdentifier (Go.exported name) = true) :
    exposed (parameterNode name).occurrences = [] := by
  -- What is mentioned is the request; the fields after the first dot belong to it.
  have hpath : "r.Params." ++ Go.exported name = "r" ++ "." ++ ("Params." ++ Go.exported name) := by
    simp [← String.append_assoc]
  have hparams : ("Params.".toList.all fun c => !Go.isSign c) = true := by decide
  have hsigns : ∀ c ∈ ("Params." ++ Go.exported name).toList, Go.isSign c = false := by
    rw [String.toList_append, List.forall_mem_append]
    exact ⟨fun c hc => by simpa using List.all_eq_true.1 hparams c hc,
      fun c hc => (Go.isNameChar_iff.1 (Go.isNameChar_identifier h c hc)).1⟩
  rw [parameterNode, Node.occurrences_ident, exposed_name, exposedIn, hpath,
    Go.namesOf_select (List.all_eq_true.1 (by decide)) hsigns]
  decide

/-- A bind value of a statement: the new primary key, or a parameter that becomes a field. -/
def IsBindValue (p : Parameter) : Prop :=
  p = .newId ∨ ∃ name, p.name? = some name ∧ Go.isIdentifier (Go.exported name) = true

theorem exposed_bindCode (position : Nat) {p : Parameter} (h : IsBindValue p) :
    exposed (Node.allOccurrences (bindCode position p)) = [] := by
  rcases h with rfl | ⟨name, hname, hfield⟩
  · simp (disch := decide) [Parameter.newId, bindCode, appendNode, exposed_fixed]
  · cases p with
    | generated function args => cases hname
    | named name' element =>
        cases hname
        cases element <;>
          simp (disch := decide) [bindCode, appendNode, takeNode, exposed_fixed,
            exposed_parameterNode hfield, exposed_ownName (ownName_boundName position)]

theorem exposed_allBindCode (position : Nat) {ps : List Parameter} (h : ∀ p ∈ ps, IsBindValue p) :
    exposed (Node.allOccurrences (allBindCode position ps)) = [] := by
  induction ps generalizing position with
  | nil => rfl
  | cons p ps ih =>
      obtain ⟨hp, hps⟩ := List.forall_mem_cons.1 h
      rw [allBindCode, Node.allOccurrences_append, exposed_append, exposed_bindCode position hp,
        ih (position + 1) hps, List.append_nil]

theorem exposed_requestOf {s : Statement} (hname : Go.isIdentifier s.name = true)
    (hparams : ∀ p ∈ s.params, IsBindValue p) : exposed (requestOf s).occurrences = [] := by
  simp (disch := decide) [requestOf, Go.Struct.occurrences, Func.occurrences, argsCode,
    TypeRef.error, exposed_fixed, exposed_allBindCode 1 hparams,
    exposed_ownName (ownName_paramsName hname), exposed_ownName (ownName_requestName hname)]

/-! ## Preparing -/

theorem exposed_statementsVar {statements : List Statement}
    (h : ∀ s ∈ statements, Go.isIdentifier s.name = true) (goName : String) :
    exposed (statementsVar goName statements).occurrences = [] := by
  have hentries :
      exposed (Go.Element.allOccurrences (statements.map statementEntry)) = [] := by
    induction statements with
    | nil => rfl
    | cons s statements ih =>
        obtain ⟨hs, hstatements⟩ := List.forall_mem_cons.1 h
        simp [statementEntry, exposed_ownName (ownName_queryName hs), ih hstatements]
  simp (disch := decide) [statementsVar, Go.Value.occurrences, exposed_fixed, hentries]

/-- The body of the function that prepares the statements of a list. -/
def prepareCode (list : String) : List Node :=
  [⟨.call (.function "make"
     [.ident statementMapType.name, .call (.function "len" [.ident list])]), .define ["stmts"],
     none, none⟩,
   .range none (some "entry") (.ident list)
     [⟨.call (.method (.ident "db") "PrepareContext" [.ident "ctx", .ident "entry[1]"]),
        .define ["stmt", "err"], some (.err [.nil]), none⟩,
      ⟨.ident "stmt", .assign ["stmts[entry[0]]"], none, none⟩],
   .ret [.ident "stmts", .nil]]

theorem exposed_prepareCode {list : String} (h : OwnName list) :
    exposed (Node.allOccurrences (prepareCode list)) = [] := by
  simp (disch := decide) [prepareCode, statementMapType, TypeRef.handle, exposed_fixed,
    exposed_ownName h]

theorem exposed_prepareFunction {goName : String} (hname : Go.isIdentifier goName = true) {f : Func}
    (h : prepareFunction goName = .ok f) : exposed f.occurrences = [] := by
  have hbody :
      prepareBody (statementsName goName) = .ok (prepareCode (statementsName goName)) := rfl
  rw [prepareFunction, hbody] at h
  cases h
  simp (disch := decide) [Func.occurrences, exposed_packageTypes, TypeRef.error, exposed_fixed,
    exposed_prepareCode (ownName_statementsName hname)]

/-! ## Rows -/

/-- What is exposed in the type of a column. -/
def exposedType : StorageType → List String
  | .int => ["int32"]
  | .float => ["float64"]
  | .bool => ["bool"]
  | _ => []

theorem exposed_scalarType (required : Bool) (name : String) :
    exposed [(scalarType required name).occurrence] = exposedIn name := by
  cases required <;> simp [scalarType, exposed_pointer]

theorem exposed_columnType (a : Attribute) :
    exposed [(columnType a).occurrence] = exposedType a.type := by
  rw [columnType]
  cases a.type <;>
    simp (disch := decide) [exposed_scalarType, exposed_packageTypes, exposed_fixed, exposed_open,
      exposedType]

theorem exposed_rowStruct (r : Resolved) :
    exposed (rowStruct r).occurrences = r.columns.flatMap fun a => exposedType a.type := by
  have hfixed : exposed (fixedFields.map (·.type.occurrence)) = [] := by
    simp (disch := decide) [fixedFields, exposed_packageTypes, exposed_fixed]
  simp [rowStruct, Go.Struct.occurrences, hfixed, exposed_map, columnField,
    exposed_columnType]

end DataAccess.Generation
