import DataAccess.Proofs.WellFormed

set_option autoImplicit false

/-! # Resolution is a substitution

Renaming the attributes of a model (`Model.rename`) leaves everything else of it as it is: names,
schema, the shape of filters, operators, parameters, the order of all lists. Resolution does exactly
that with the names that the registry gives (`columnOf`), provided that every reference is known and
the columns of the model fit into one table and one struct (`Resolvable`). Each step of resolution
is described by where it succeeds and by the total function it computes there (`Computes`). -/

namespace DataAccess

/-! ## Renaming -/

namespace Filter

mutual

/-- A filter with its attributes renamed. -/
def rename (g : String → String) : Filter → Filter
  | .compare c => .compare { c with attr := g c.attr }
  | .group op fs => .group op (renameAll g fs)

/-- Several filters with their attributes renamed. -/
def renameAll (g : String → String) : List Filter → List Filter
  | [] => []
  | f :: fs => rename g f :: renameAll g fs

end

end Filter

section Rename

variable (g : String → String)

def Assignment.rename (a : Assignment) : Assignment := { a with attr := g a.attr }

def Find.rename (q : Find) : Find :=
  { q with attributes := q.attributes.map g, filters := Filter.renameAll g q.filters }

def Update.rename (q : Update) : Update :=
  { q with
    filters := Filter.renameAll g q.filters
    set := q.set.map (Assignment.rename g)
    increment := q.increment.map g
    timestamp := q.timestamp.map g }

def Add.rename (q : Add) : Add := { q with values := q.values.map (Assignment.rename g) }

def Upsert.rename (q : Upsert) : Upsert :=
  { q with values := q.values.map (Assignment.rename g), conflict := q.conflict.map g }

def Delete.rename (q : Delete) : Delete := { q with filters := Filter.renameAll g q.filters }

/-- A method with its attributes renamed. -/
def Method.rename : Method → Method
  | .find q => .find (q.rename g)
  | .update q => .update (q.rename g)
  | .add q => .add (q.rename g)
  | .addOrReplace q => .addOrReplace (q.rename g)
  | .delete q => .delete (q.rename g)

def Access.rename (a : Access) : Access :=
  { find := a.find.map (Find.rename g)
    update := a.update.map (Update.rename g)
    add := a.add.map (Add.rename g)
    addOrReplace := a.addOrReplace.map (Upsert.rename g)
    delete := a.delete.map (Delete.rename g) }

/-- A model with its attributes renamed. -/
def Model.rename (m : Model) : Model :=
  { m with
    attributes := m.attributes.map g
    indexes := m.indexes.map (List.map g)
    access := m.access.rename g }

theorem Method.kind_rename (q : Method) : (q.rename g).kind = q.kind := by cases q <;> rfl

theorem Access.methods_rename (a : Access) :
    (a.rename g).methods = a.methods.map (Method.rename g) := by
  simp [Access.methods, Access.rename, Method.rename, Function.comp_def]

/-- The attributes that identify a row are renamed with the others, also if they go without
saying. -/
theorem Upsert.conflictTarget_rename (q : Upsert) :
    (q.rename g).conflictTarget = q.conflictTarget.map g := by
  unfold Upsert.conflictTarget Upsert.rename
  cases q.conflict with
  | nil => simp [Assignment.rename, Function.comp_def]
  | cons id ids => simp

/-- The methods of a model are compiled one by one, with other names in the place of their
attributes. -/
theorem Sql.compileModel_rename (d : Dialect) (m : Model) : compileModel d (m.rename g) =
    m.access.methods.map fun q => compileMethod d (m.rename g) (q.rename g) := by
  rw [compileModel, Model.rename, Access.methods_rename, List.map_map]
  rfl

end Rename

/-! ## References -/

namespace Method

/-- The attributes that a method names outside of its assignments and filters. -/
def named : Method → List String
  | .find q => q.attributes
  | .update q => q.increment ++ q.timestamp
  | .addOrReplace q => q.conflict
  | .add _ => []
  | .delete _ => []

/-- A method refers to an attribute: it names it, assigns to it, or compares it at some depth of a
filter. -/
def RefersTo (q : Method) (id : String) : Prop :=
  id ∈ q.named ∨ (∃ a ∈ q.assignments, a.attr = id) ∨
    ∃ f ∈ q.filters, ∃ c, Filter.Occurs (.compare c) f ∧ c.attr = id

/-- All references of a method, by their kind. -/
theorem forall_refersTo {q : Method} {P : String → Prop} :
    (∀ id, q.RefersTo id → P id) ↔ (∀ id ∈ q.named, P id) ∧ (∀ a ∈ q.assignments, P a.attr) ∧
      ∀ c ∈ Filter.allComparisons q.filters, P c.attr := by
  constructor
  · intro h
    refine ⟨fun id hid => h id (.inl hid), fun a ha => h a.attr (.inr (.inl ⟨a, ha, rfl⟩)), ?_⟩
    intro c hc
    obtain ⟨f, hf, hoccurs⟩ := Filter.mem_allComparisons_iff.1 hc
    exact h c.attr (.inr (.inr ⟨f, hf, c, hoccurs, rfl⟩))
  · rintro ⟨hnamed, hassignments, hcomparisons⟩ id (hid | ⟨a, ha, rfl⟩ | ⟨f, hf, c, hoccurs, rfl⟩)
    · exact hnamed id hid
    · exact hassignments a ha
    · exact hcomparisons c (Filter.mem_allComparisons_iff.2 ⟨f, hf, hoccurs⟩)

end Method

/-- A model refers to an attribute in an index or in a method. -/
def Model.RefersTo (m : Model) (id : String) : Prop :=
  (∃ index ∈ m.indexes, id ∈ index) ∨ ∃ q ∈ m.access.methods, q.RefersTo id

namespace Validation

open Go (exported isIdentifier)

/-! ## What resolution has to find -/

/-- A reference that can be resolved: to a registered attribute or to a fixed column. -/
def Known (r : Registry) (id : String) : Prop :=
  (∃ a, r.lookup id = some a) ∨ id ∈ Sql.fixedColumns

/-- The column that a reference stands for: the name of the registered attribute. What is not
registered stands for itself. -/
def columnOf (r : Registry) (id : String) : String :=
  match r.lookup id with
  | some a => a.name
  | none => id

/-- The registered attributes of a model, in the order in which it lists them. -/
def entries (r : Registry) (m : Model) : List Attribute := m.attributes.filterMap r.lookup

/-- Columns that can stand in one table and one struct beside the fixed columns. -/
structure ColumnsFit (columns : List Attribute) : Prop where
  /-- No column is a fixed one. -/
  unfixed : ∀ a ∈ columns, a.name ∉ Sql.fixedColumns
  /-- Every column has the name of a field. -/
  identifiers : ∀ a ∈ columns, isIdentifier (exported a.name) = true
  /-- Different columns have different fields, also from those of the fixed columns. -/
  fields : (["ID", "Version", "UpdatedAt"] ++ columns.map fun a => exported a.name).Nodup

/-- A find reads only fixed columns and those given. -/
def Reads (r : Registry) (columns : List Attribute) (q : Find) : Prop :=
  ∀ id ∈ q.attributes, columnOf r id ∈ Sql.fixedColumns ++ columns.map Attribute.name

/-- What a model has to satisfy to be resolved. -/
structure Resolvable (r : Registry) (m : Model) : Prop where
  /-- Every attribute of the model is registered. -/
  registered : ∀ id ∈ m.attributes, ∃ a, r.lookup id = some a
  columns : ColumnsFit (entries r m)
  /-- Every reference is known. -/
  known : ∀ id, m.RefersTo id → Known r id
  /-- A find reads only what the struct of a row has fields for. -/
  projections : ∀ q ∈ m.access.find, Reads r (entries r m) q

/-- The resolved model is the model with its attributes renamed, and beside it stand the registered
attributes of the model. -/
structure IsSubstitution (r : Registry) (m : Model) (m' : Resolved) : Prop where
  model : m'.model = m.rename (columnOf r)
  columns : m'.columns.map some = m.attributes.map r.lookup
  /-- The attributes that identify the row of an upsert are those of the model, resolved. -/
  conflicts : List.Forall₂ (fun u u' => resolveColumns r u.conflictTarget = .ok u'.conflictTarget)
    m.access.addOrReplace m'.model.access.addOrReplace

/-! ## Computations with known success -/

/-- The computation succeeds exactly where `P` holds, and its answer there is that of `g`. -/
def Computes {ε α β : Type} (f : α → Except ε β) (P : α → Prop) (g : α → β) : Prop :=
  ∀ a b, f a = .ok b ↔ P a ∧ b = g a

section Computes

variable {ε ε' α β γ : Type} {f : α → Except ε β} {P : α → Prop} {g : α → β}

theorem Computes.mapM (h : Computes f P g) :
    Computes (fun as => as.mapM f) (fun as => ∀ a ∈ as, P a) (List.map g) := by
  intro as bs
  rw [mapM_eq_ok]
  induction as generalizing bs with
  | nil => cases bs <;> simp
  | cons a as ih =>
      show _ ↔ (∀ b ∈ a :: as, P b) ∧ bs = g a :: as.map g
      rw [List.forall_mem_cons]
      constructor
      · intro hall
        cases hall with
        | cons hb hbs =>
            obtain ⟨ha, rfl⟩ := (h _ _).1 hb
            obtain ⟨has, rfl⟩ := (ih _).1 hbs
            exact ⟨⟨ha, has⟩, rfl⟩
      · rintro ⟨⟨ha, has⟩, rfl⟩
        exact .cons ((h _ _).2 ⟨ha, rfl⟩) ((ih _).2 ⟨has, rfl⟩)

theorem Computes.mapError (h : Computes f P g) (place : α → ε → ε') :
    Computes (fun a => (f a).mapError (place a)) P g := by
  intro a b
  rw [mapError_eq_ok]
  exact h a b

/-- A computation that starts with such a step goes on with its answer. -/
theorem Computes.bind (h : Computes f P g) {a : α} {k : β → Except ε γ} {c : γ} :
    (f a >>= k) = .ok c ↔ P a ∧ k (g a) = .ok c := by
  rw [bind_eq_ok]
  constructor
  · rintro ⟨b, hb, hk⟩
    obtain ⟨ha, rfl⟩ := (h _ _).1 hb
    exact ⟨ha, hk⟩
  · rintro ⟨ha, hk⟩
    exact ⟨g a, (h _ _).2 ⟨ha, rfl⟩, hk⟩

theorem pure_eq_ok {b b' : β} : (pure b : Except ε β) = .ok b' ↔ b' = b := by
  rw [show (pure b : Except ε β) = .ok b from rfl, Except.ok.injEq, eq_comm]

end Computes

/-! ## References are resolved -/

variable {r : Registry}

theorem resolveColumn_computes : Computes (resolveColumn r) (Known r) (columnOf r) := by
  intro id name
  unfold resolveColumn columnOf Known
  cases hlookup : r.lookup id with
  | some a => simp [eq_comm]
  | none =>
      -- Only what is not registered falls back on the fixed columns.
      by_cases hfixed : id ∈ Sql.fixedColumns
      · simp [hfixed, eq_comm]
      · simp [hfixed]

theorem resolveColumns_computes :
    Computes (resolveColumns r) (fun ids => ∀ id ∈ ids, Known r id) (List.map (columnOf r)) :=
  resolveColumn_computes.mapM

theorem resolveAssignments_computes :
    Computes (resolveAssignments r) (fun as => ∀ a ∈ as, Known r a.attr)
      (List.map (Assignment.rename (columnOf r))) := by
  refine Computes.mapM (P := fun a : Assignment => Known r a.attr) fun a b => ?_
  rw [resolveColumn_computes.bind, pure_eq_ok]
  rfl

section Filters

variable {ε : Type} {g : String → Except ε String} {P : String → Prop} {k : String → String}

mutual

/-- The attributes of a filter are replaced one by one, at every depth. -/
theorem mapAttributes_computes (h : Computes g P k) : ∀ {f f' : Filter},
    Filter.mapAttributes g f = .ok f' ↔ (∀ c ∈ f.comparisons, P c.attr) ∧ f' = f.rename k
  | .compare c, f' => by
      rw [Filter.mapAttributes, h.bind, pure_eq_ok]
      simp [Filter.comparisons, Filter.rename]
  | .group op fs, f' => by
      rw [Filter.mapAttributes, Filter.comparisons, Filter.rename, bind_eq_ok]
      constructor
      · rintro ⟨fs', hfs, hf'⟩
        obtain ⟨hP, rfl⟩ := (mapAllAttributes_computes h).1 hfs
        exact ⟨hP, pure_eq_ok.1 hf'⟩
      · rintro ⟨hP, hf'⟩
        exact ⟨_, (mapAllAttributes_computes h).2 ⟨hP, rfl⟩, pure_eq_ok.2 hf'⟩

theorem mapAllAttributes_computes (h : Computes g P k) : ∀ {fs fs' : List Filter},
    Filter.mapAllAttributes g fs = .ok fs' ↔
      (∀ c ∈ Filter.allComparisons fs, P c.attr) ∧ fs' = Filter.renameAll k fs
  | [], fs' => by
      simp [Filter.mapAllAttributes, Filter.allComparisons, Filter.renameAll, eq_comm]
  | f :: fs, fs' => by
      rw [Filter.mapAllAttributes, Filter.allComparisons, Filter.renameAll, List.forall_mem_append,
        bind_eq_ok]
      constructor
      · rintro ⟨f', hf, hrest⟩
        obtain ⟨hPf, rfl⟩ := (mapAttributes_computes h).1 hf
        obtain ⟨gs, hgs, hfs'⟩ := bind_eq_ok.1 hrest
        obtain ⟨hPfs, rfl⟩ := (mapAllAttributes_computes h).1 hgs
        exact ⟨⟨hPf, hPfs⟩, pure_eq_ok.1 hfs'⟩
      · rintro ⟨⟨hPf, hPfs⟩, hfs'⟩
        refine ⟨_, (mapAttributes_computes h).2 ⟨hPf, rfl⟩, bind_eq_ok.2 ?_⟩
        exact ⟨_, (mapAllAttributes_computes h).2 ⟨hPfs, rfl⟩, pure_eq_ok.2 hfs'⟩

end

end Filters

theorem resolveFilters_computes :
    Computes (resolveFilters r) (fun fs => ∀ c ∈ Filter.allComparisons fs, Known r c.attr)
      (Filter.renameAll (columnOf r)) :=
  fun _ _ => mapAllAttributes_computes resolveColumn_computes

/-! ## Methods are resolved -/

/-- Every reference of a method is known. -/
def AllKnown (r : Registry) (q : Method) : Prop := ∀ id, q.RefersTo id → Known r id

theorem resolveFind_computes {columns : List Attribute} :
    Computes (resolveFind r columns) (fun q => AllKnown r (.find q) ∧ Reads r columns q)
      (Find.rename (columnOf r)) := by
  intro q q'
  show resolveFind r columns q = .ok q' ↔
    (AllKnown r (.find q) ∧ Reads r columns q) ∧ q' = q.rename (columnOf r)
  rw [resolveFind, resolveColumns_computes.bind, check_bind_eq_ok, checkProjection_iff,
    List.forall_mem_map, resolveFilters_computes.bind, pure_eq_ok, AllKnown,
    Method.forall_refersTo]
  simp only [Method.named, Method.assignments, Method.filters, Reads, Find.rename,
    List.not_mem_nil, false_implies, implies_true, true_and]
  tauto

theorem resolveUpdate_computes :
    Computes (resolveUpdate r) (fun q => AllKnown r (.update q)) (Update.rename (columnOf r)) := by
  intro q q'
  show resolveUpdate r q = .ok q' ↔ AllKnown r (.update q) ∧ q' = q.rename (columnOf r)
  rw [resolveUpdate, resolveFilters_computes.bind, resolveAssignments_computes.bind,
    resolveColumns_computes.bind, resolveColumns_computes.bind, pure_eq_ok, AllKnown,
    Method.forall_refersTo]
  simp only [Method.named, Method.assignments, Method.filters, Update.rename,
    List.forall_mem_append]
  tauto

theorem resolveAdd_computes :
    Computes (resolveAdd r) (fun q => AllKnown r (.add q)) (Add.rename (columnOf r)) := by
  intro q q'
  show resolveAdd r q = .ok q' ↔ AllKnown r (.add q) ∧ q' = q.rename (columnOf r)
  rw [resolveAdd, resolveAssignments_computes.bind, pure_eq_ok, AllKnown, Method.forall_refersTo]
  simp [Method.named, Method.assignments, Method.filters, Filter.allComparisons, Add.rename]

theorem resolveUpsert_computes :
    Computes (resolveUpsert r) (fun q => AllKnown r (.addOrReplace q))
      (Upsert.rename (columnOf r)) := by
  intro q q'
  show resolveUpsert r q = .ok q' ↔ AllKnown r (.addOrReplace q) ∧ q' = q.rename (columnOf r)
  rw [resolveUpsert, resolveAssignments_computes.bind, resolveColumns_computes.bind, pure_eq_ok,
    AllKnown, Method.forall_refersTo]
  simp only [Method.named, Method.assignments, Method.filters, Filter.allComparisons,
    Upsert.rename, List.not_mem_nil, false_implies, implies_true, and_true]
  tauto

theorem resolveDelete_computes :
    Computes (resolveDelete r) (fun q => AllKnown r (.delete q)) (Delete.rename (columnOf r)) := by
  intro q q'
  show resolveDelete r q = .ok q' ↔ AllKnown r (.delete q) ∧ q' = q.rename (columnOf r)
  rw [resolveDelete, resolveFilters_computes.bind, pure_eq_ok, AllKnown, Method.forall_refersTo]
  simp [Method.named, Method.assignments, Method.filters, Delete.rename]

/-! ## Models are resolved -/

theorem resolveAccess_computes {model : String} {columns : List Attribute} :
    Computes (resolveAccess r model columns)
      (fun a => (∀ q ∈ a.methods, AllKnown r q) ∧ ∀ q ∈ a.find, Reads r columns q)
      (Access.rename (columnOf r)) := by
  intro a a'
  rw [resolveAccess, (resolveFind_computes.mapError _).mapM.bind,
    (resolveUpdate_computes.mapError _).mapM.bind, (resolveAdd_computes.mapError _).mapM.bind,
    (resolveUpsert_computes.mapError _).mapM.bind, (resolveDelete_computes.mapError _).mapM.bind,
    pure_eq_ok]
  simp only [Access.methods, Access.rename, List.forall_mem_append, List.forall_mem_map,
    forall_and]
  tauto

/-- The attributes of a model have no fallback: each must be registered. -/
theorem resolveAttributes_computes :
    Computes (fun ids : List String => ids.mapM (resolveAttribute r))
      (fun ids => ∀ id ∈ ids, ∃ a, r.lookup id = some a) (List.filterMap r.lookup) := by
  have hone : ∀ {id a}, resolveAttribute r id = .ok a ↔ r.lookup id = some a := by
    intro id a
    unfold resolveAttribute
    cases r.lookup id <;> simp
  intro ids as
  rw [mapM_eq_ok]
  induction ids generalizing as with
  | nil => cases as <;> simp
  | cons id ids ih =>
      show _ ↔ (∀ i ∈ id :: ids, ∃ a, r.lookup i = some a) ∧ as = (id :: ids).filterMap r.lookup
      rw [List.forall_mem_cons]
      constructor
      · intro hall
        cases hall with
        | cons ha has =>
            obtain ⟨hids, rfl⟩ := (ih _).1 has
            exact ⟨⟨⟨_, hone.1 ha⟩, hids⟩, by rw [List.filterMap_cons_some (hone.1 ha)]⟩
      · rintro ⟨⟨⟨a, ha⟩, hids⟩, rfl⟩
        rw [List.filterMap_cons_some ha]
        exact .cons (hone.2 ha) ((ih _).2 ⟨hids, rfl⟩)

theorem checkColumns_fixedFields_iff {columns : List Attribute} :
    checkColumns fixedFields columns = .ok () ↔ ColumnsFit columns := by
  have hseen : fixedFields.map Prod.fst = ["ID", "Version", "UpdatedAt"] := by
    rw [fixedFields, List.map_map, Function.comp_def, exported_fixedColumns]
  rw [checkColumns_iff, hseen]
  -- The fields of the fixed columns count as seen before those of the model.
  constructor
  · rintro ⟨hcolumns, hnodup, hnew⟩
    refine ⟨fun a ha => (hcolumns a ha).1, fun a ha => (hcolumns a ha).2, ?_⟩
    refine List.nodup_append.2 ⟨by decide, hnodup, ?_⟩
    rintro field hfixed _ hfield rfl
    exact hnew field hfield hfixed
  · intro h
    obtain ⟨-, hnodup, hapart⟩ := List.nodup_append.1 h.fields
    refine ⟨fun a ha => ⟨h.unfixed a ha, h.identifiers a ha⟩, hnodup, ?_⟩
    exact fun field hfield hfixed => hapart field hfixed field hfield rfl

theorem resolveModelColumns_computes :
    Computes (resolveModelColumns r)
      (fun m => (∀ id ∈ m.attributes, ∃ a, r.lookup id = some a) ∧ ColumnsFit (entries r m))
      (entries r) := by
  intro m columns
  rw [resolveModelColumns, resolveAttributes_computes.bind, check_bind_eq_ok, pure_eq_ok,
    checkColumns_fixedFields_iff, and_assoc]
  rfl

/-- Every registered attribute is looked up once, in order. -/
theorem map_some_filterMap {ids : List String} (h : ∀ id ∈ ids, ∃ a, r.lookup id = some a) :
    (ids.filterMap r.lookup).map some = ids.map r.lookup := by
  induction ids with
  | nil => rfl
  | cons id ids ih =>
      obtain ⟨⟨a, ha⟩, hids⟩ := List.forall_mem_cons.1 h
      rw [List.filterMap_cons_some ha, List.map_cons, List.map_cons, ih hids, ha]

/-- The names of registered attributes are the columns they stand for. -/
theorem map_name_filterMap {ids : List String} (h : ∀ id ∈ ids, ∃ a, r.lookup id = some a) :
    (ids.filterMap r.lookup).map Attribute.name = ids.map (columnOf r) := by
  induction ids with
  | nil => rfl
  | cons id ids ih =>
      obtain ⟨⟨a, ha⟩, hids⟩ := List.forall_mem_cons.1 h
      have hcolumn : columnOf r id = a.name := by rw [columnOf, ha]
      rw [List.filterMap_cons_some ha, List.map_cons, List.map_cons, ih hids, hcolumn]

/-- A resolvable model satisfies what the single steps ask for. -/
theorem resolvable_iff {m : Model} :
    Resolvable r m ↔ ((∀ id ∈ m.attributes, ∃ a, r.lookup id = some a) ∧
      ColumnsFit (entries r m)) ∧ (∀ index ∈ m.indexes, ∀ id ∈ index, Known r id) ∧
      (∀ q ∈ m.access.methods, AllKnown r q) ∧ ∀ q ∈ m.access.find, Reads r (entries r m) q := by
  constructor
  · intro h
    refine ⟨⟨h.registered, h.columns⟩, ?_, ?_, h.projections⟩
    · exact fun index hindex id hid => h.known id (.inl ⟨index, hindex, hid⟩)
    · exact fun q hq id hid => h.known id (.inr ⟨q, hq, hid⟩)
  · rintro ⟨⟨hregistered, hfit⟩, hindexes, hmethods, hreads⟩
    refine ⟨hregistered, hfit, ?_, hreads⟩
    rintro id (⟨index, hindex, hid⟩ | ⟨q, hq, hid⟩)
    · exact hindexes index hindex id hid
    · exact hmethods q hq id hid

/-- Resolution computes the renamed model, with the registered attributes beside it. -/
theorem resolveModel_computes :
    Computes (resolveModel r) (Resolvable r)
      (fun m => ⟨m.rename (columnOf r), entries r m⟩) := by
  intro m m'
  rw [resolveModel,
    (resolveModelColumns_computes.mapError fun _ => CompileError.inModel m.name).bind,
    (resolveColumns_computes.mapM.mapError fun _ => CompileError.inModel m.name).bind,
    resolveAccess_computes.bind, pure_eq_ok, resolvable_iff]
  -- The attributes are replaced by the names of their entries, which are the columns.
  constructor
  · rintro ⟨hcolumns, hindexes, haccess, rfl⟩
    refine ⟨⟨hcolumns, hindexes, haccess⟩, ?_⟩
    rw [entries, map_name_filterMap hcolumns.1]
    rfl
  · rintro ⟨⟨hcolumns, hindexes, haccess⟩, rfl⟩
    refine ⟨hcolumns, hindexes, haccess, ?_⟩
    rw [entries, map_name_filterMap hcolumns.1]
    rfl

/-- An accepted run gives every model renamed. -/
theorem resolved_eq_map {models : List Model} {resolved : List Resolved}
    (h : validate models r = .ok resolved) :
    resolved = models.map fun m => ⟨m.rename (columnOf r), entries r m⟩ := by
  obtain ⟨-, -, hresolved⟩ := validate_ok h
  clear h
  induction hresolved with
  | nil => rfl
  | @cons m m' _ _ hm _ ih =>
      rw [List.map_cons, ← ih, ((resolveModel_computes m m').1 hm).2]

theorem validate_of_isOk {models : List Model} (h : (validate models r).isOk = true) :
    validate models r = .ok (models.map fun m => ⟨m.rename (columnOf r), entries r m⟩) := by
  obtain ⟨resolved, hresolved⟩ := exists_ok_of_isOk h
  rw [hresolved, ← resolved_eq_map hresolved]

/-- The attributes that identify the row of an upsert are references of it. -/
theorem refersTo_of_mem_conflictTarget {q : Upsert} {id : String} (h : id ∈ q.conflictTarget) :
    (Method.addOrReplace q).RefersTo id := by
  unfold Upsert.conflictTarget at h
  split at h
  · -- Without attributes of its own it takes the first of its assignments.
    obtain ⟨a, ha, rfl⟩ := List.mem_map.1 h
    exact .inr (.inl ⟨a, List.mem_of_mem_take ha, rfl⟩)
  · exact .inl h

theorem isSubstitution_rename {m : Model} (h : Resolvable r m) :
    IsSubstitution r m ⟨m.rename (columnOf r), entries r m⟩ where
  model := rfl
  columns := map_some_filterMap h.registered
  conflicts := by
    show List.Forall₂ _ _ (m.access.addOrReplace.map (Upsert.rename (columnOf r)))
    rw [List.forall₂_map_right_iff]
    refine List.forall₂_same.2 fun u hu => (resolveColumns_computes _ _).2 ⟨?_, ?_⟩
    · have hmethod : Method.addOrReplace u ∈ m.access.methods := by
        simp [Access.methods, hu]
      exact fun id hid =>
        h.known id (.inr ⟨_, hmethod, refersTo_of_mem_conflictTarget hid⟩)
    · exact u.conflictTarget_rename (columnOf r)

/-- A substitution is determined by the model and the registry. -/
theorem IsSubstitution.eq {m : Model} {m' : Resolved} (h : IsSubstitution r m m')
    (hm : Resolvable r m) : m' = ⟨m.rename (columnOf r), entries r m⟩ := by
  obtain ⟨model, columns⟩ := m'
  have hcolumns : columns = entries r m := by
    apply List.map_injective_iff.2 (Option.some_injective _)
    rw [h.columns, entries, map_some_filterMap hm.registered]
  rw [hcolumns, show model = m.rename (columnOf r) from h.model]

/-- **Resolution is the substitution of columns for attributes.** It succeeds exactly for the
resolvable models, and then the answer is the model with every reference replaced by its column and
nothing else changed. -/
theorem resolution_substitutes (r : Registry) (m : Model) :
    ((∃ m', resolveModel r m = .ok m') ↔ Resolvable r m) ∧
      ∀ m', resolveModel r m = .ok m' ↔ Resolvable r m ∧ IsSubstitution r m m' := by
  have hiff := fun m' => resolveModel_computes (r := r) m m'
  constructor
  · constructor
    · rintro ⟨m', h⟩
      exact ((hiff m').1 h).1
    · intro h
      exact ⟨_, (hiff _).2 ⟨h, rfl⟩⟩
  · intro m'
    rw [hiff]
    refine and_congr_right fun hm => ⟨?_, fun h => h.eq hm⟩
    rintro rfl
    exact isSubstitution_rename hm

end Validation

end DataAccess
