import DataAccess.Proofs.Mentions

set_option autoImplicit false

/-! # The packages that code refers to

Code refers to another package by a qualifier, a name with a dot behind it. `SourceFile.qualifiers`
lists the qualifiers of a file, in types, signatures and bodies. What stands before a dot is no
qualifier if it is a variable of the function, and a type of the file itself is named as it is
declared, with or without a dot.

So the qualifiers of a function are told from all that occurs in it, its variables among it. There
is a qualifier to each import, too; `Covers` says that imports and qualifiers are the same. -/

namespace DataAccess.Go

open DataAccess.Text

/-! ## Qualifiers in a text -/

/-- The part of a name before its first dot, if it has one. -/
def qualifier? (name : List Char) : Option String :=
  if '.' ∈ name then some (String.ofList (name.takeWhile (· != '.'))) else none

/-- The qualifiers of the names in a text. -/
def qualifiersIn (text : List Char) : List String := (splitBy isSign text).filterMap qualifier?

/-- The qualifiers of a type. Behind the signs at its front there may be a type of the file, which
has none. -/
def typeQualifiers (own : List String) : List Char → List String
  | [] => []
  | c :: cs =>
    if String.ofList (c :: cs) ∈ own then []
    else if isSign c then typeQualifiers own cs
    else qualifiersIn (c :: cs)

theorem qualifier?_of_not_mem {name : List Char} (h : '.' ∉ name) : qualifier? name = none :=
  if_neg h

/-- Without a dot there is no qualifier. -/
theorem qualifiersIn_of_not_mem {text : List Char} (h : '.' ∉ text) : qualifiersIn text = [] := by
  rw [qualifiersIn, List.filterMap_eq_nil_iff]
  intro name hname
  exact qualifier?_of_not_mem fun hdot => h (mem_splitBy.1 ⟨name, hname, hdot⟩).1

theorem typeQualifiers_of_not_mem {own : List String} {text : List Char} (h : '.' ∉ text) :
    typeQualifiers own text = [] := by
  induction text with
  | nil => rfl
  | cons c cs ih =>
      rw [typeQualifiers]
      split_ifs
      · rfl
      · exact ih fun hdot => h (List.mem_cons_of_mem _ hdot)
      · exact qualifiersIn_of_not_mem h

/-- A type of the file has no qualifier, nor has one that is made from it by signs. -/
theorem typeQualifiers_of_own {own : List String} {name : String} (h : name ∈ own)
    {signs : List Char} (hsigns : ∀ c ∈ signs, isSign c = true) :
    typeQualifiers own (signs ++ name.toList) = [] := by
  induction signs with
  | nil =>
      cases hname : name.toList with
      | nil => rfl
      | cons c cs =>
          rw [List.nil_append, typeQualifiers, if_pos]
          rwa [← hname, String.ofList_toList]
  | cons c cs ih =>
      obtain ⟨hc, hcs⟩ := List.forall_mem_cons.1 hsigns
      rw [List.cons_append, typeQualifiers, if_pos hc]
      split_ifs
      · rfl
      · exact ih hcs

/-- A text that is no type of the file and starts with no sign is a name. -/
theorem typeQualifiers_of_not_own {own : List String} {text : String} (h : text ∉ own)
    (hsign : text.toList.head?.any isSign = false) :
    typeQualifiers own text.toList = qualifiersIn text.toList := by
  cases htext : text.toList with
  | nil => rfl
  | cons c cs =>
      rw [htext, List.head?_cons, Option.any_some] at hsign
      rw [typeQualifiers, ← htext, String.ofList_toList, if_neg h, if_neg (by simp [hsign])]

/-- The qualifiers of a pointer type that is no type of the file. -/
theorem typeQualifiers_pointer {own : List String} {text : String} (h : "*" ++ text ∉ own) :
    typeQualifiers own ("*" ++ text).toList = typeQualifiers own text.toList := by
  have htext : ("*" ++ text).toList = '*' :: text.toList := by simp
  rw [htext, typeQualifiers, ← htext, String.ofList_toList, if_neg h, if_pos (by decide)]

/-- Characters without signs all belong to the first piece. -/
theorem splitBy_append_of_none {p : Char → Bool} {cs : List Char} (h : ∀ c ∈ cs, p c = false)
    (ds : List Char) : ∃ piece pieces, splitBy p ds = piece :: pieces ∧
      splitBy p (cs ++ ds) = (cs ++ piece) :: pieces := by
  induction cs with
  | nil =>
      obtain ⟨piece, pieces, hpieces⟩ := List.exists_cons_of_ne_nil (splitBy_ne_nil p ds)
      exact ⟨piece, pieces, hpieces, hpieces⟩
  | cons c cs ih =>
      obtain ⟨hc, hcs⟩ := List.forall_mem_cons.1 h
      obtain ⟨piece, pieces, hds, hall⟩ := ih hcs
      refine ⟨piece, pieces, hds, ?_⟩
      rw [List.cons_append, splitBy, if_neg (by simp [hc]), hall, List.cons_append]

/-- A path of names has its first name as the qualifier, whatever follows the last dot. -/
theorem qualifiersIn_select {path last : List Char} (hpath : ∀ c ∈ path, isSign c = false)
    (hdot : '.' ∈ path) (hlast : '.' ∉ last) :
    qualifiersIn (path ++ last) = [String.ofList (path.takeWhile (· != '.'))] := by
  obtain ⟨piece, pieces, hpieces, hall⟩ := splitBy_append_of_none hpath last
  have hfirst : qualifier? (path ++ piece) = some (String.ofList (path.takeWhile (· != '.'))) := by
    obtain ⟨name, rest, hsplit, hname⟩ := List.eq_append_cons_of_mem hdot
    have hne : ∀ c ∈ name, (c != '.') = true := by
      intro c hc
      rw [bne_iff_ne]
      rintro rfl
      exact hname hc
    have hbefore (tail : List Char) : (name ++ '.' :: tail).takeWhile (· != '.') = name := by
      rw [List.takeWhile_append_of_pos hne, List.takeWhile_cons_of_neg (by simp), List.append_nil]
    rw [qualifier?, if_pos (List.mem_append_left _ hdot), hsplit, hbefore, List.append_assoc,
      List.cons_append, hbefore]
  have hrest : pieces.filterMap qualifier? = [] := by
    rw [List.filterMap_eq_nil_iff]
    intro name hname
    refine qualifier?_of_not_mem fun hmem => hlast ?_
    exact (mem_splitBy.1 ⟨name, hpieces ▸ List.mem_cons_of_mem _ hname, hmem⟩).1
  rw [qualifiersIn, hall, List.filterMap_cons_some hfirst, hrest]

/-! ## Qualifiers of occurrences -/

namespace Occurrence

def bound? : Occurrence → Option String
  | .bound x => some x
  | _ => none

/-- The qualifiers of an occurrence, where `vars` are variables. -/
def qualifiers (own vars : List String) : Occurrence → List String
  | .type text => typeQualifiers own text.toList
  | .name text => (qualifiersIn text.toList).filter (· ∉ vars)
  | .bound _ => []

section

variable {own vars : List String}

@[simp] theorem qualifiers_bound (x : String) : (bound x).qualifiers own vars = [] := rfl

theorem qualifiers_type_of_not_mem {text : String} (h : '.' ∉ text.toList) :
    (type text).qualifiers own vars = [] := typeQualifiers_of_not_mem h

/-- A type made from a type of the file by signs. -/
theorem qualifiers_type_of_own {text : String} (h : text ∈ own) {signs : String}
    (hsigns : signs.toList.all isSign = true) :
    (type (signs ++ text)).qualifiers own vars = [] := by
  rw [qualifiers, String.toList_append]
  exact typeQualifiers_of_own h (List.all_eq_true.1 hsigns)

theorem qualifiers_own {text : String} (h : text ∈ own) :
    (type text).qualifiers own vars = [] := by
  simpa using qualifiers_type_of_own h (rfl : "".toList.all isSign = true)

theorem qualifiers_name_of_not_mem {text : String} (h : '.' ∉ text.toList) :
    (name text).qualifiers own vars = [] := by
  rw [qualifiers, qualifiersIn_of_not_mem h, List.filter_nil]

/-- A field of a variable belongs to no other package. -/
theorem qualifiers_field {path field : String}
    (hpath : (path.toList.all fun c => !isSign c) = true) (hdot : '.' ∈ path.toList)
    (hvar : String.ofList (path.toList.takeWhile (· != '.')) ∈ vars)
    (hfield : '.' ∉ field.toList) : (name (path ++ field)).qualifiers own vars = [] := by
  have hsigns : ∀ c ∈ path.toList, isSign c = false := fun c hc => by
    simpa using List.all_eq_true.1 hpath c hc
  rw [qualifiers, String.toList_append, qualifiersIn_select hsigns hdot hfield,
    List.filter_singleton]
  simp [hvar]

end

end Occurrence

/-! ## Qualifiers of declarations -/

/-- The variables of a function: its receiver, its parameters and what its body makes. -/
def Func.bound (f : Func) : List String := f.occurrences.filterMap Occurrence.bound?

def Func.qualifiers (own : List String) (f : Func) : List String :=
  f.occurrences.flatMap (Occurrence.qualifiers own f.bound)

def Struct.qualifiers (own : List String) (s : Struct) : List String :=
  s.fields.flatMap (·.type.occurrence.qualifiers own []) ++ s.methods.flatMap (Func.qualifiers own)

def Value.qualifiers (own : List String) (v : Value) : List String :=
  v.occurrences.flatMap (Occurrence.qualifiers own [])

/-- The qualifiers of a file; its structs are its own types. -/
def SourceFile.qualifiers (f : SourceFile) : List String :=
  let own := f.structs.map Struct.name
  f.vars.flatMap (Value.qualifiers own) ++ f.consts.flatMap (Value.qualifiers own) ++
    f.structs.flatMap (Struct.qualifiers own) ++ f.funcs.flatMap (Func.qualifiers own) ++
    Func.qualifiers own { name := "init", body := f.init }

/-! ## Imports and qualifiers -/

/-- What an import is referred to by: its local name, or the last part of its path. -/
def Import.qualifier (i : Import) : String :=
  i.localName.getD (String.ofList ((splitBy (· == '/') i.path.toList).getLast?.getD []))

/-- The qualifiers are those of the imports: nothing is missing, and nothing is there in vain. -/
def Covers (imports : List Import) (qualifiers : List String) : Prop :=
  ∀ q, q ∈ qualifiers ↔ ∃ i ∈ imports, i.qualifier = q

theorem Covers.nil : Covers [] [] := by simp [Covers]

theorem Covers.singleton {i : Import} {q : String} (h : i.qualifier = q) : Covers [i] [q] := by
  simp [Covers, h, eq_comm]

theorem Covers.append {is js : List Import} {ps qs : List String} (h : Covers is ps)
    (h' : Covers js qs) : Covers (is ++ js) (ps ++ qs) := by
  intro q
  rw [List.mem_append, h q, h' q]
  simp only [List.mem_append, or_and_right, exists_or]

theorem Covers.flatMap {α : Type} {as : List α} {imports : α → List Import}
    {qualifiers : α → List String} (h : ∀ a ∈ as, Covers (imports a) (qualifiers a)) :
    Covers (as.flatMap imports) (as.flatMap qualifiers) := by
  induction as with
  | nil => exact .nil
  | cons a as ih =>
      obtain ⟨ha, has⟩ := List.forall_mem_cons.1 h
      rw [List.flatMap_cons, List.flatMap_cons]
      exact ha.append (ih has)

/-- A file refers to what it imports if each of its declarations does. -/
theorem covers_sourceFile {f : SourceFile} (hextra : f.extra = []) (hinit : f.init = [])
    (hvars : ∀ v ∈ f.vars, Covers v.imports (v.qualifiers (f.structs.map Struct.name)))
    (hconsts : ∀ v ∈ f.consts, Covers v.imports (v.qualifiers (f.structs.map Struct.name)))
    (hstructs : ∀ s ∈ f.structs, Covers s.imports (s.qualifiers (f.structs.map Struct.name)))
    (hfuncs : ∀ g ∈ f.funcs, Covers g.imports (g.qualifiers (f.structs.map Struct.name))) :
    Covers f.imports f.qualifiers := by
  have hdeclared := (((Covers.flatMap hvars).append (.flatMap hconsts)).append
    (.flatMap hstructs)).append (.flatMap hfuncs)
  rw [SourceFile.imports, SourceFile.qualifiers, hextra, hinit]
  exact hdeclared.append .nil

end DataAccess.Go
