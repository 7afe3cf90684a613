import DataAccess.Go.SourceFile
import DataAccess.Proofs.ExportedNames

set_option autoImplicit false

/-! # The names that code refers to

What occurs in a piece of code is collected in one pass: its types, its names and the variables that
it makes (`Occurrence`, `Node.occurrences`). `SourceFile.mentions` lists every name that a file
refers to as a type, a constant, a function or a variable, in types, signatures and bodies. Names
that are declared or bound, names of fields and methods, and texts are not among them.

Types and some expressions are texts themselves, of names with signs between them (`namesOf`). A
name of a package comes before a dot and stands for the whole. Which names a text has can be told
from how it is put together, as long as the names that are put into it have no signs
(`namesOf_word`, `namesOf_append`, `namesOf_select`); the names made from identifiers have none
(`isNameChar_camel`). -/

namespace DataAccess.Go

open DataAccess.Naming DataAccess.Text DataAccess.Unicode

/-! ## Names in a text -/

/-- The signs between names: those of ASCII, except for the dot. -/
def isSign (c : Char) : Bool := decide (c.toNat < 0x80) && !(c.isAlphanum || c == '_' || c == '.')

/-- The characters of names; beyond ASCII all are taken for such. -/
def isNameChar (c : Char) : Bool := !isSign c && c != '.'

/-- The names in a text. What follows a dot belongs to the name before it. -/
def namesOf (text : String) : List String :=
  (splitBy isSign text.toList).map fun piece => String.ofList (piece.takeWhile (· != '.'))

theorem isNameChar_iff {c : Char} : isNameChar c = true ↔ isSign c = false ∧ c ≠ '.' := by
  simp [isNameChar]

theorem takeWhile_name {s : String} (h : ∀ c ∈ s.toList, isNameChar c = true) (rest : List Char) :
    (s.toList ++ rest).takeWhile (· != '.') = s.toList ++ rest.takeWhile (· != '.') :=
  List.takeWhile_append_of_pos fun c hc => by simpa using (isNameChar_iff.1 (h c hc)).2

theorem namesOf_word {s : String} (h : ∀ c ∈ s.toList, isNameChar c = true) : namesOf s = [s] := by
  have hdot := takeWhile_name h []
  rw [List.append_nil, List.takeWhile_nil, List.append_nil] at hdot
  rw [namesOf, splitBy_of_none fun c hc => (isNameChar_iff.1 (h c hc)).1, List.map_singleton, hdot,
    String.ofList_toList]

/-- A sign separates names. -/
theorem namesOf_append {c : Char} (hc : isSign c = true) (s t : String) :
    namesOf (s ++ String.singleton c ++ t) = namesOf s ++ namesOf t := by
  have hchars : (s ++ String.singleton c ++ t).toList = s.toList ++ c :: t.toList := by simp
  rw [namesOf, hchars, splitBy_append hc, List.map_append, namesOf, namesOf]

/-- A dot does not separate names. -/
theorem namesOf_select {s t : String} (hs : ∀ c ∈ s.toList, isNameChar c = true)
    (ht : ∀ c ∈ t.toList, isSign c = false) : namesOf (s ++ "." ++ t) = [s] := by
  have hchars : (s ++ "." ++ t).toList = s.toList ++ '.' :: t.toList := by simp
  have hsign : ∀ c ∈ s.toList ++ '.' :: t.toList, isSign c = false := by
    rw [List.forall_mem_append, List.forall_mem_cons]
    exact ⟨fun c hc => (isNameChar_iff.1 (hs c hc)).1, by decide, ht⟩
  rw [namesOf, hchars, splitBy_of_none hsign, List.map_singleton, takeWhile_name hs,
    List.takeWhile_cons_of_neg (by decide), List.append_nil, String.ofList_toList]

/-! ## Characters of names -/

theorem isNameChar_of_not_ascii {c : Char} (h : 0x80 ≤ c.toNat) : isNameChar c = true := by
  have hdot : c ≠ '.' := by
    rintro rfl
    exact absurd h (by decide)
  simp [isNameChar, isSign, Nat.not_lt.2 h, hdot]

theorem isNameChar_of_isIdentifierPart {c : Char} (h : isIdentifierPart c = true) :
    isNameChar c = true := by
  by_cases hascii : c.toNat < 0x80
  · rw [isIdentifierPart_ascii hascii] at h
    have hdot : c ≠ '.' := by
      rintro rfl
      exact absurd h (by decide)
    simp [isNameChar, isSign, hdot, h]
  · exact isNameChar_of_not_ascii (Nat.not_lt.1 hascii)

theorem isNameChar_of_isAlphabetic {c : Char} (h : isAlphabetic c = true) : isNameChar c = true :=
  isNameChar_of_isIdentifierPart (isIdentifierPart_of_isAlphabetic h)

theorem isNameChar_identifier {s : String} (h : isIdentifier s = true) :
    ∀ c ∈ s.toList, isNameChar c = true := fun c hc =>
  isNameChar_of_isIdentifierPart
    (List.all_eq_true.1 (all_part_of_identifierShape (identifierShape_of_isIdentifier h)) c hc)

/-- The upper case of a character of names has only such characters. -/
theorem isNameChar_upper {c u : Char} (h : isNameChar c = true) (hu : u ∈ upper c) :
    isNameChar u = true := by
  rcases upper_cases c with ⟨e, he, -, heq⟩ | ⟨-, heq⟩
  · rw [heq] at hu
    obtain ⟨n, hn, rfl⟩ := List.mem_map.1 hu
    have hcontains := (contains_expansion he hn).2
    split at hcontains
    · -- Combining marks are not in ASCII.
      rw [CodeSet.contains_eq_holds, CodeSet.holds_iff] at hcontains
      obtain ⟨range, hrange, hfirst, -⟩ := hcontains
      rw [combiningMarks, List.mem_singleton] at hrange
      rw [hrange] at hfirst
      exact isNameChar_of_not_ascii (by omega)
    · exact isNameChar_of_isAlphabetic hcontains
  · cases halpha : isAlphabetic c with
    | false =>
        rw [upper_of_not_alphabetic halpha, List.mem_singleton] at hu
        rwa [hu]
    | true =>
        rw [heq, List.mem_singleton] at hu
        rw [hu]
        exact isNameChar_of_isAlphabetic (isAlphabetic_upperShift halpha)

theorem isNameChar_lower {c l : Char} (h : isNameChar c = true) (hl : l ∈ lower c) :
    isNameChar l = true := by
  by_cases hdot : c = dottedI
  · rw [hdot, lower_dottedI] at hl
    exact List.all_eq_true.1 (by decide) l hl
  · cases halpha : isAlphabetic c with
    | false =>
        rw [lower_of_not_alphabetic halpha, List.mem_singleton] at hl
        rwa [hl]
    | true =>
        obtain ⟨l', heq, hletter⟩ := exists_lower halpha hdot
        rw [heq, List.mem_singleton] at hl
        rw [hl]
        exact isNameChar_of_isAlphabetic hletter

/-- A name in camel case has no signs if the name has none, even if it is no identifier any more. -/
theorem isNameChar_camel {s : String} (h : ∀ c ∈ s.toList, isNameChar c = true) :
    ∀ c ∈ (camel s).toList, isNameChar c = true := by
  have hpascal : ∀ c ∈ pascalChars s.toList, isNameChar c = true := by
    intro c hc
    obtain ⟨word, hword, hmem⟩ := List.mem_flatten.1 hc
    obtain ⟨piece, hpiece, rfl⟩ := List.mem_map.1 hword
    have hchars : ∀ d ∈ piece, isNameChar d = true := fun d hd =>
      h d (mem_splitBy.1 ⟨piece, hpiece, hd⟩).1
    cases piece with
    | nil => cases hmem
    | cons d rest =>
        obtain ⟨hd, hrest⟩ := List.forall_mem_cons.1 hchars
        rcases List.mem_append.1 hmem with hmem | hmem
        · exact isNameChar_upper hd hmem
        · exact hrest c hmem
  intro c hc
  rw [camel, String.toList_ofList] at hc
  cases hchars : pascalChars s.toList with
  | nil =>
      rw [hchars] at hc
      cases hc
  | cons d rest =>
      rw [hchars] at hc hpascal
      obtain ⟨hd, hrest⟩ := List.forall_mem_cons.1 hpascal
      rcases List.mem_append.1 hc with hc | hc
      · exact isNameChar_lower hd hc
      · exact hrest c hc

/-! ## Occurrences -/

/-- What occurs in code: a type, a name, or a variable that is made there. -/
inductive Occurrence where
  | type (text : String)
  | name (text : String)
  | bound (name : String)
  deriving DecidableEq

def TypeRef.occurrence (t : TypeRef) : Occurrence := .type t.render

def Literal.occurrences : Literal → List Occurrence
  | .nil => [.name "nil"]
  | .bool true => [.name "true"]
  | .bool false => [.name "false"]
  | .int _ => []
  | .str _ => []
  | .raw _ => []

/-- What is assigned to is there already, what is defined is made. -/
def Capture.occurrences : Capture → List Occurrence
  | .assign names => names.map .name
  | .define names => names.map .bound
  | .discard => []

mutual

def Node.occurrences : Node → List Occurrence
  | ⟨shape, capture, handler, cleanup⟩ =>
    capture.occurrences ++ shape.occurrences ++
    (match handler with
      | some h => h.occurrences
      | none => []) ++
    (match cleanup with
      | some c => c.occurrences
      | none => [])

def Shape.occurrences : Shape → List Occurrence
  | .literal value => value.occurrences
  | .ident name => [.name name]
  | .binary _ left right => left.occurrences ++ right.occurrences
  | .unary _ operand => operand.occurrences
  | .index target key => target.occurrences ++ key.occurrences
  | .declare name type value =>
    .bound name :: type.occurrence ::
    (match value with
      | some v => v.occurrences
      | none => [])
  | .branch condition yes no =>
    condition.occurrences ++ Node.allOccurrences yes ++ Node.allOccurrences no
  | .loop condition body => condition.occurrences ++ Node.allOccurrences body
  | .loopFrom start condition body =>
    start.occurrences ++ condition.occurrences ++ Node.allOccurrences body
  | .loopStep start condition step body =>
    start.occurrences ++ condition.occurrences ++ step.occurrences ++ Node.allOccurrences body
  | .range key value collection body =>
    key.toList.map .bound ++ value.toList.map .bound ++ collection.occurrences ++
      Node.allOccurrences body
  | .call c => c.occurrences
  | .composite type elements _ =>
    type.toList.map TypeRef.occurrence ++ Element.allOccurrences elements
  | .ret values => Node.allOccurrences values
  | .steps nodes => Node.allOccurrences nodes

def Call.occurrences : Call → List Occurrence
  | ⟨callee, args, _, _, _⟩ => callee.occurrences ++ Node.allOccurrences args

def Callee.occurrences : Callee → List Occurrence
  | .function name => [.name name]
  | .method receiver _ => receiver.occurrences

/-- The handler compares its variable with `nil`. -/
def Handler.occurrences : Handler → List Occurrence
  | ⟨name, returns⟩ => .name name :: .name "nil" :: Node.allOccurrences returns

def Element.occurrences : Element → List Occurrence
  | ⟨_, value⟩ => value.occurrences

def Node.allOccurrences : List Node → List Occurrence
  | [] => []
  | n :: ns => n.occurrences ++ Node.allOccurrences ns

def Element.allOccurrences : List Element → List Occurrence
  | [] => []
  | e :: es => e.occurrences ++ Element.allOccurrences es

end

@[simp] theorem TypeRef.occurrence_builtin (name : String) :
    (builtin name).occurrence = .type name := rfl

@[simp] theorem Capture.occurrences_assign (names : List String) :
    (assign names).occurrences = names.map .name := rfl

@[simp] theorem Capture.occurrences_define (names : List String) :
    (define names).occurrences = names.map .bound := rfl

@[simp] theorem Capture.occurrences_discard : discard.occurrences = [] := rfl

@[simp] theorem Shape.occurrences_call (c : Call) : (call c).occurrences = c.occurrences := rfl

@[simp] theorem Shape.occurrences_ident (name : String) :
    (ident name).occurrences = [.name name] := rfl

@[simp] theorem Shape.occurrences_unary (op : UnaryOp) (operand : Node) :
    (unary op operand).occurrences = operand.occurrences := rfl

@[simp] theorem Shape.occurrences_index (target key : Node) :
    (index target key).occurrences = target.occurrences ++ key.occurrences := rfl

namespace Node

@[simp] theorem allOccurrences_nil : allOccurrences [] = [] := rfl

@[simp] theorem allOccurrences_cons (n : Node) (ns : List Node) :
    allOccurrences (n :: ns) = n.occurrences ++ allOccurrences ns := rfl

@[simp] theorem allOccurrences_append (ns ms : List Node) :
    allOccurrences (ns ++ ms) = allOccurrences ns ++ allOccurrences ms := by
  induction ns with
  | nil => rfl
  | cons n ns ih =>
      rw [List.cons_append, allOccurrences_cons, ih, allOccurrences_cons, List.append_assoc]

@[simp] theorem occurrences_mk (shape : Shape) (capture : Capture) (handler : Option Handler)
    (cleanup : Option Call) : occurrences ⟨shape, capture, handler, cleanup⟩ =
      capture.occurrences ++ shape.occurrences ++ handler.elim [] Handler.occurrences ++
        cleanup.elim [] Call.occurrences := by
  cases handler <;> cases cleanup <;> rfl

theorem occurrences_ofShape (shape : Shape) :
    (ofShape shape).occurrences = shape.occurrences := by
  simp [ofShape]

section

variable (condition n : Node) (name : String) (ns ms : List Node)

@[simp] theorem occurrences_nil : nil.occurrences = [.name "nil"] := rfl

@[simp] theorem occurrences_int (value : Int) : (int value).occurrences = [] := rfl

@[simp] theorem occurrences_bool (value : Bool) :
    (bool value).occurrences = [.name (if value then "true" else "false")] := by
  cases value <;> rfl

@[simp] theorem occurrences_str (text : String) : (str text).occurrences = [] := rfl

@[simp] theorem occurrences_raw (text : String) : (raw text).occurrences = [] := rfl

@[simp] theorem occurrences_ident : (ident name).occurrences = [.name name] :=
  occurrences_ofShape _

@[simp] theorem occurrences_unary (op : UnaryOp) : (unary op n).occurrences = n.occurrences :=
  occurrences_ofShape _

@[simp] theorem occurrences_branch : (branch condition ns ms).occurrences =
    condition.occurrences ++ allOccurrences ns ++ allOccurrences ms :=
  occurrences_ofShape _

@[simp] theorem occurrences_declare (type : TypeRef) :
    (declare name type).occurrences = [.bound name, type.occurrence] :=
  occurrences_ofShape _

@[simp] theorem occurrences_loop :
    (loop condition ns).occurrences = condition.occurrences ++ allOccurrences ns :=
  occurrences_ofShape _

@[simp] theorem occurrences_range (key value : Option String) :
    (range key value n ns).occurrences = key.toList.map .bound ++ value.toList.map .bound ++
      n.occurrences ++ allOccurrences ns :=
  occurrences_ofShape _

@[simp] theorem occurrences_composite (type : Option TypeRef) (elements : List Element) :
    (composite type elements).occurrences =
      type.toList.map TypeRef.occurrence ++ Element.allOccurrences elements :=
  occurrences_ofShape _

@[simp] theorem occurrences_compositeBlock (type : Option TypeRef) (elements : List Element) :
    (compositeBlock type elements).occurrences =
      type.toList.map TypeRef.occurrence ++ Element.allOccurrences elements :=
  occurrences_ofShape _

@[simp] theorem occurrences_call (c : Call) : (call c).occurrences = c.occurrences :=
  occurrences_ofShape _

@[simp] theorem occurrences_ret : (ret ns).occurrences = allOccurrences ns :=
  occurrences_ofShape _

end

end Node

@[simp] theorem Handler.occurrences_err (zeros : List Node) :
    (err zeros).occurrences =
      .name "err" :: .name "nil" :: (Node.allOccurrences zeros ++ [.name "err"]) := by
  show .name "err" :: .name "nil" :: Node.allOccurrences (zeros ++ [.ident "err"]) = _
  simp

@[simp] theorem Call.occurrences_function (name : String) (args : List Node)
    (origin : Option Import) :
    (Call.function name args origin).occurrences = .name name :: Node.allOccurrences args := rfl

@[simp] theorem Call.occurrences_method (receiver : Node) (name : String) (args : List Node) :
    (Call.method receiver name args).occurrences =
      receiver.occurrences ++ Node.allOccurrences args := rfl

@[simp] theorem Call.occurrences_spreading (c : Call) :
    c.spreading.occurrences = c.occurrences := by
  cases c
  rfl

@[simp] theorem Element.occurrences_positional (n : Node) :
    (positional n).occurrences = n.occurrences := rfl

@[simp] theorem Element.allOccurrences_nil : allOccurrences [] = [] := rfl

@[simp] theorem Element.allOccurrences_cons (e : Element) (es : List Element) :
    allOccurrences (e :: es) = e.occurrences ++ allOccurrences es := rfl

/-- What occurs in a function, in its signature and in its body. -/
def Func.occurrences (f : Func) : List Occurrence :=
  f.receiver.elim [] (fun r => [.bound r.name, .type r.type]) ++
    f.params.flatMap (fun p => [.bound p.name, p.type.occurrence]) ++
    f.returns.map TypeRef.occurrence ++ Node.allOccurrences f.body

def Struct.occurrences (s : Struct) : List Occurrence :=
  s.fields.map (·.type.occurrence) ++ s.methods.flatMap Func.occurrences

def Value.occurrences (v : Value) : List Occurrence :=
  v.type.toList.map TypeRef.occurrence ++ v.value.occurrences

def SourceFile.occurrences (f : SourceFile) : List Occurrence :=
  f.vars.flatMap Value.occurrences ++ f.consts.flatMap Value.occurrences ++
    f.structs.flatMap Struct.occurrences ++ f.funcs.flatMap Func.occurrences ++
    Node.allOccurrences f.init

/-! ## Mentions -/

/-- The names that an occurrence refers to. -/
def Occurrence.mentions : Occurrence → List String
  | .type text => namesOf text
  | .name text => namesOf text
  | .bound _ => []

def mentionsOf (os : List Occurrence) : List String := os.flatMap Occurrence.mentions

def SourceFile.mentions (f : SourceFile) : List String := mentionsOf f.occurrences

@[simp] theorem mentionsOf_nil : mentionsOf [] = [] := rfl

@[simp] theorem mentionsOf_cons (o : Occurrence) (os : List Occurrence) :
    mentionsOf (o :: os) = o.mentions ++ mentionsOf os := rfl

@[simp] theorem mentionsOf_append (os os' : List Occurrence) :
    mentionsOf (os ++ os') = mentionsOf os ++ mentionsOf os' := List.flatMap_append

theorem mentionsOf_flatMap {α : Type} (f : α → List Occurrence) (as : List α) :
    mentionsOf (as.flatMap f) = as.flatMap fun a => mentionsOf (f a) := List.flatMap_assoc

@[simp] theorem Occurrence.mentions_type (text : String) :
    (Occurrence.type text).mentions = namesOf text := rfl

@[simp] theorem Occurrence.mentions_name (text : String) :
    (Occurrence.name text).mentions = namesOf text := rfl

@[simp] theorem Occurrence.mentions_bound (x : String) : (Occurrence.bound x).mentions = [] := rfl

end DataAccess.Go
