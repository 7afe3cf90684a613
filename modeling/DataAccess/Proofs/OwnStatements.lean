import DataAccess.Proofs.ArgsMethod
import DataAccess.Proofs.FrontEnds
import DataAccess.Proofs.WellFormed

set_option autoImplicit false

/-! # Access functions and their statements

On its way from a method to the database, the SQL of the method changes hands four times: a constant
holds it, a list pairs the constant with the name of the method, a function prepares the list into a
map, and the access function takes its statement from the map and runs it. Each of these four parts
is read back on its own here. They lead back to the method they were made for because no two methods
of a package share a name (`nodup_declares`), nor do their constants. -/

namespace DataAccess.Generation

open Go (Element Func Node SourceFile Value)
open Sql (Dialect Statement)
open Validation

/-! ## Reading a list of statements -/

/-- The text a node consists of. -/
def text? (n : Node) : Option String :=
  match n.shape with
  | .literal (.str s) => some s
  | .literal (.raw s) => some s
  | _ => none

/-- Reads an entry of a list of pairs: a text and a name. -/
def entry? (e : Element) : Option (String × String) :=
  match e.value.shape with
  | .composite none [⟨none, key⟩, ⟨none, constant⟩] _ =>
    (text? key).bind fun k => (ident? constant).map fun c => (k, c)
  | _ => none

/-- Reads a list of pairs. -/
def entries? (v : Value) : Option (List (String × String)) :=
  match v.value.shape with
  | .composite _ elements _ => elements.mapM entry?
  | _ => none

theorem entries?_statementsVar (goName : String) (statements : List Statement) :
    entries? (statementsVar goName statements) =
      some (statements.map fun s => (s.name, queryName s.name)) := by
  show (statements.map statementEntry).mapM entry? = _
  induction statements with
  | nil => rfl
  | cons s statements ih =>
      rw [List.map_cons, List.mapM_cons, ih]
      rfl

/-! ## Reading the function that prepares a list -/

/-- The parameter of a function that has a type. -/
def parameter? (type : Go.TypeRef) (f : Func) : Option String :=
  (f.params.find? fun p => p.type == type).map Go.Param.name

/-- Reads the statement that prepares the second part of an entry and stops if that fails: the
variable it is put in. -/
def prepared? (database entry : String) (n : Node) : Option String :=
  match n.capture, n.handler, n.shape with
  | .define [v, "err"], some ⟨"err", _⟩,
    .call ⟨.method object "PrepareContext", [_, sql], false, .immediate, _⟩ =>
    if ident? object = some database ∧ ident? sql = some (entry ++ "[1]") then some v else none
  | _, _, _ => none

/-- Whether a statement stores a variable in a map under the first part of an entry. -/
def storesEntry (map entry stmt : String) (n : Node) : Bool :=
  match n.capture, n.shape with
  | .assign [place], .ident v => place == map ++ "[" ++ entry ++ "[0]]" && v == stmt
  | _, _ => false

/-- Reads the loop that prepares the entries of a list into a map: the list. -/
def preparedIn? (database map : String) (n : Node) : Option String :=
  match n.shape with
  | .range none (some entry) list [prepare, store] =>
    (prepared? database entry prepare).bind fun v =>
      if storesEntry map entry v store then ident? list else none
  | _ => none

/-- The value that a function returns without an error at its end. -/
def returned? (f : Func) : Option String :=
  f.body.getLast?.bind fun n => match n.shape with
    | .ret [value, error] => if isNil error then ident? value else none
    | _ => none

/-- Reads which list a function prepares into the map that it returns. -/
def preparedList? (f : Func) : Option String :=
  (parameter? databaseType f).bind fun database => (returned? f).bind fun map =>
    f.body.findSome? (preparedIn? database map)

theorem preparedList?_prepareFunction {goName : String} {f : Func}
    (h : prepareFunction goName = .ok f) :
    f.name = prepareName goName ∧ preparedList? f = some (statementsName goName) := by
  cases h
  exact ⟨rfl, rfl⟩

/-! ## Reading an access function -/

/-- The methods that run a prepared statement. -/
def runners : List String := ["QueryContext", "QueryRowContext", "ExecContext"]

/-- The object and the name of a method that is called at once. -/
def receiver? (n : Node) : Option (Node × String) :=
  match n.shape with
  | .call ⟨.method object name, _, _, .immediate, _⟩ => some (object, name)
  | _ => none

/-- The variable with the statement that a call runs. -/
def runs? (n : Node) : Option String :=
  (receiver? n).bind fun (object, name) => if name ∈ runners then ident? object else none

/-- The variable with the statement that is run, in the call itself or to get the object of the
call. -/
def executed? (n : Node) : Option String :=
  (runs? n).or ((receiver? n).bind fun p => runs? p.1)

/-- Reads the statement that takes an entry of a map: the variable it is put in, and the key. -/
def taken? (map : String) (n : Node) : Option (String × String) :=
  match n.capture, n.shape with
  | .define [v, _], .index target key =>
    if ident? target = some map then (text? key).map (v, ·) else none
  | _, _ => none

/-- The key of the prepared statement that is run first. `held` has the keys of the variables so
far. -/
def keyOfRun (map : String) (held : List (String × String)) : List Node → Option String
  | [] => none
  | n :: ns => match taken? map n, executed? n with
    | some entry, _ => keyOfRun map (entry :: held) ns
    | none, some v => held.lookup v
    | none, none => keyOfRun map held ns

/-- Reads under which key a function looks up the prepared statement that it runs. -/
def statementKey? (f : Func) : Option String :=
  (parameter? statementMapType f).bind fun map => keyOfRun map [] f.body

/-- An access function runs what is prepared under its own name. -/
theorem statementKey?_accessFunction {s : Statement} {row : String} {columns : List String}
    {f : Func} (h : accessFunction s row columns = .ok f) :
    f.name = s.name ∧ statementKey? f = some s.name := by
  obtain ⟨name, kind, sql, params, warnings⟩ := s
  cases kind <;> cases h <;> exact ⟨rfl, rfl⟩

/-! ## Units -/

section Units

variable {d : Dialect} {r : Resolved} {u : ModelUnit}

theorem access_methodUnit {q : Method} {v : MethodUnit} (h : methodUnit d r q = .ok v) :
    v.access.name = q.name ∧ statementKey? v.access = some q.name := by
  rw [methodUnit] at h
  obtain ⟨request, -, h⟩ := bind_eq_ok.1 h
  obtain ⟨access, haccess, h⟩ := bind_eq_ok.1 h
  cases h
  exact statementKey?_accessFunction haccess

/-- Every method has a function in the unit of its model that runs what is prepared under its
name. -/
theorem exists_access (h : modelUnit d r = .ok u) {q : Method} (hq : q ∈ r.model.access.methods) :
    ∃ f ∈ u.funcs, f.name = q.name ∧ statementKey? f = some q.name := by
  obtain ⟨v, hv, -⟩ := methodUnit_ok d r q
  exact ⟨v.access, ((mem_modelUnit h).2 q hq v hv).2, access_methodUnit hv⟩

/-- A model with methods has one list of statements and a function that prepares it. -/
theorem exists_prepare (h : modelUnit d r = .ok u) {q : Method}
    (hq : q ∈ r.model.access.methods) :
    u.vars = [statementsVar u.goName (Sql.compileModel d r.model)] ∧
      ∃ f ∈ u.funcs, preparedList? f = some (statementsName u.goName) := by
  obtain ⟨us, fs, hus, hfs, hu⟩ := modelUnit_eq h
  have hstatements := statements_methodUnits hus
  obtain ⟨v, hv, -⟩ := exists_of_mem_right hus.flip hq
  have hsome : us.isEmpty = false := List.isEmpty_eq_false_iff.2 (List.ne_nil_of_mem hv)
  rw [prepareFunctions, hsome] at hfs
  obtain ⟨f, hf, hfs⟩ := bind_eq_ok.1 hfs
  cases hfs
  rw [hu, Sql.compileModel, ← hstatements]
  simp only [unitOf, List.isEmpty_map, hsome, Bool.false_eq_true, if_false, true_and]
  refine ⟨f, List.mem_append_right _ List.mem_cons_self, ?_⟩
  exact (preparedList?_prepareFunction hf).2

end Units

/-! ## Names that are declared once -/

/-- Among elements with different keys each is the only one with its key. -/
theorem filter_key {α : Type} (key : α → String) {l : List α} (h : (l.map key).Nodup) {a : α}
    (ha : a ∈ l) : l.filter (fun b => key b == key a) = [a] := by
  induction l with
  | nil => cases ha
  | cons b l ih =>
      obtain ⟨hb, hl⟩ := List.nodup_cons.1 h
      rcases List.mem_cons.1 ha with rfl | ha
      · have hnone : l.filter (fun b => key b == key a) = [] := by
          refine List.filter_eq_nil_iff.2 fun c hc heq => hb ?_
          exact beq_iff_eq.1 heq ▸ List.mem_map_of_mem hc
        rw [List.filter_cons_of_pos (by simp), hnone]
      · have hne : key b ≠ key a := by
          intro heq
          exact hb (heq ▸ List.mem_map_of_mem ha)
        rw [List.filter_cons_of_neg (by simpa using hne)]
        exact ih hl ha

/-- The files of a package with declarations. -/
def sourceFiles (package : String) (units : List ModelUnit) (support : SourceFile) :
    List SourceFile := units.map (·.sourceFile package) ++ [support]

theorem nodup_declares {models : List Model} {registry : Registry} {package : String}
    {units : List ModelUnit} {support : SourceFile} (h : WellFormed models registry)
    (hunits : List.Forall₂ (AsPredicted package) models units)
    (hsupport : support.declares = [rangeBound, notPreparedError]) :
    ((sourceFiles package units support).flatMap SourceFile.declares).Nodup := by
  have hperm := perm_units hunits
  rw [sourceFiles, List.flatMap_append, List.flatMap_map, List.flatMap_singleton, hsupport,
    List.nodup_append]
  -- The names of the helpers are reserved, so no model declares them.
  refine ⟨hperm.nodup_iff.2 h.declared, by decide, ?_⟩
  rintro name hname _ hhelper rfl
  exact h.unreserved name (hperm.mem_iff.1 hname) (helpers_reserved name hhelper)

/-- In an accepted run the files of the package declare no name twice. -/
theorem exists_units_nodup {models : List Model} {r : Registry} {resolved : List Resolved}
    (h : validate models r = .ok resolved) (d : Dialect) (package : String) :
    ∃ units support, resolved.mapM (modelUnit d) = .ok units ∧ supportFile package = .ok support ∧
      ((sourceFiles package units support).flatMap SourceFile.declares).Nodup := by
  obtain ⟨hwell, -⟩ := validate_eq_ok_iff.1 h
  obtain ⟨-, -, hresolved⟩ := validate_ok h
  obtain ⟨units, hunits, hpredicted⟩ := modelUnits_asPredicted hresolved d package
  obtain ⟨support, hsupport, hdeclares⟩ := supportFile_ok package
  exact ⟨units, support, hunits, hsupport, nodup_declares hwell hpredicted hdeclares⟩

theorem mem_sourceFiles {package : String} {units : List ModelUnit} {u : ModelUnit} (hu : u ∈ units)
    (support : SourceFile) : u.sourceFile package ∈ sourceFiles package units support :=
  List.mem_append_left _ (List.mem_map_of_mem hu)

/-- The names of constants are among the declared names. -/
theorem consts_sublist (files : List SourceFile) :
    ((files.flatMap SourceFile.consts).map Value.name).Sublist
      (files.flatMap SourceFile.declares) := by
  induction files with
  | nil => exact .slnil
  | cons f files ih =>
      rw [List.flatMap_cons, List.map_append, List.flatMap_cons]
      exact (List.sublist_append_right _ _).append ih

/-- The names of the functions of a file are among its declared names. -/
theorem funcs_sublist (f : SourceFile) : (f.funcs.map Func.name).Sublist f.declares := by
  rw [SourceFile.declares]
  exact ((List.sublist_append_right _ _).trans (List.sublist_append_left _ _)).trans
    (List.sublist_append_left _ _)

/-! ## From methods to their statements -/

/-- The way from a method to its SQL: `list` is the list of the model's statements, `constant` the
name that it pairs with the method. -/
structure RunsOwnSql (d : Dialect) (files : List SourceFile) (r : Resolved) (u : ModelUnit)
    (q : Method) (list : Value) (constant : String) : Prop where
  /-- The function of the method runs what is prepared under the name of the method. -/
  access : ∃ f, u.funcs.filter (·.name == q.name) = [f] ∧ statementKey? f = some q.name
  /-- It is the list of the model that is prepared. -/
  prepared : u.vars = [list] ∧ ∃ f ∈ u.funcs, preparedList? f = some list.name
  /-- The list has one entry for the method. -/
  entry : ∃ entries, entries? list = some entries ∧
    entries.filter (·.1 == q.name) = [(q.name, constant)]
  /-- The constant is declared once in all files. -/
  declared : (files.flatMap SourceFile.declares).count constant = 1
  /-- The constant holds the SQL of the method. -/
  value : ∃ c, (files.flatMap SourceFile.consts).filter (·.name == constant) = [c] ∧
    text? c.value = some (Sql.compileMethod d r.model q).sql

section Runs

variable {d : Dialect} {r : Resolved} {u : ModelUnit}

/-- Constants with different names belong to methods with different names. -/
theorem nodup_entries {package : String} (hu : modelUnit d r = .ok u)
    (h : (u.sourceFile package).declares.Nodup) :
    (((Sql.compileModel d r.model).map fun s => (s.name, queryName s.name)).map
      Prod.fst).Nodup := by
  have hconsts : (u.consts.map Value.name).Nodup := (List.sublist_append_right _ _).nodup h
  -- A constant is named after its method, so two methods of one name would share it.
  rw [(modelUnit_embeds hu).constants, List.map_map] at hconsts
  have hnames : ((Sql.compileModel d r.model).map (Value.name ∘ queryConst)) =
      ((Sql.compileModel d r.model).map Statement.name).map queryName := by
    rw [List.map_map]
    rfl
  rw [hnames] at hconsts
  rw [List.map_map]
  exact hconsts.of_map

theorem runsOwnSql_of_nodup {files : List SourceFile} {package : String}
    (hu : modelUnit d r = .ok u) (hfile : u.sourceFile package ∈ files)
    (hnodup : (files.flatMap SourceFile.declares).Nodup) {q : Method}
    (hq : q ∈ r.model.access.methods) :
    RunsOwnSql d files r u q (statementsVar u.goName (Sql.compileModel d r.model))
      (queryName q.name) := by
  have hembeds := modelUnit_embeds hu
  have hmine : (u.sourceFile package).declares.Nodup := (List.nodup_flatMap.1 hnodup).1 _ hfile
  -- The statement of the method, and the constant that is made of it.
  have hstatement : Sql.compileMethod d r.model q ∈ Sql.compileModel d r.model :=
    List.mem_map_of_mem hq
  have hname : (Sql.compileMethod d r.model q).name = q.name := rfl
  have hconst : queryConst (Sql.compileMethod d r.model q) ∈ files.flatMap SourceFile.consts := by
    refine List.mem_flatMap.2 ⟨_, hfile, ?_⟩
    show _ ∈ u.consts
    rw [hembeds.constants]
    exact List.mem_map_of_mem hstatement
  have hconsts := (consts_sublist files).nodup hnodup
  constructor
  · obtain ⟨f, hf, hfname, hkey⟩ := exists_access hu hq
    refine ⟨f, ?_, hkey⟩
    rw [← hfname]
    exact filter_key Func.name ((funcs_sublist _).nodup hmine) hf
  · exact exists_prepare hu hq
  · refine ⟨_, entries?_statementsVar _ _, ?_⟩
    rw [← hname]
    exact filter_key Prod.fst (nodup_entries hu hmine) (List.mem_map_of_mem hstatement)
  · refine List.count_eq_one_of_mem hnodup ((consts_sublist files).subset ?_)
    exact List.mem_map_of_mem hconst
  · exact ⟨_, filter_key Value.name hconsts hconst, rfl⟩

end Runs

/-- **Every access function runs its own SQL.** In an accepted run the way from each method leads,
over the map of prepared statements and the list they are prepared from, to one constant, which is
declared once in the package and holds the SQL of the method. -/
theorem access_runs_own_sql {models : List Model} {r : Registry} {resolved : List Resolved}
    (h : validate models r = .ok resolved) (d : Dialect) (package : String) :
    ∃ units support, resolved.mapM (modelUnit d) = .ok units ∧ supportFile package = .ok support ∧
      List.Forall₂ (fun m' u => ∀ q ∈ m'.model.access.methods, ∃ list constant,
        RunsOwnSql d (sourceFiles package units support) m' u q list constant) resolved units := by
  obtain ⟨units, support, hunits, hsupport, hnodup⟩ := exists_units_nodup h d package
  refine ⟨units, support, hunits, hsupport, ?_⟩
  have hfiles : ∀ u ∈ units, u.sourceFile package ∈ sourceFiles package units support :=
    fun u hu => mem_sourceFiles hu support
  have hpairs := (List.forall₂_and_left _ _).2 ⟨hfiles, (mapM_eq_ok.1 hunits).flip⟩
  refine hpairs.flip.imp fun m' u hu q hq => ?_
  exact ⟨_, _, runsOwnSql_of_nodup hu.2 hu.1 hnodup hq⟩

/-- Two models, one method each, whose constants come close to each other. -/
theorem sampleModels_run_own_sql :
    ∃ resolved, validate sampleModels sampleRegistry = .ok resolved ∧
      ∃ units support, resolved.mapM (modelUnit .postgres) = .ok units ∧
        supportFile "dal" = .ok support ∧
        List.Forall₂ (fun m' u => ∀ q ∈ m'.model.access.methods, ∃ list constant,
          RunsOwnSql .postgres (sourceFiles "dal" units support) m' u q list constant)
          resolved units := by
  obtain ⟨resolved, h⟩ := sampleModels_accepted
  exact ⟨resolved, h, access_runs_own_sql h .postgres "dal"⟩

end DataAccess.Generation
