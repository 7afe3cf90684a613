import DataAccess.Proofs.Fragments

set_option autoImplicit false

/-! # Renaming parameters

The names of parameters are the caller's business: they stand beside a statement, in the list of its
bind values, and never in its text. To show this, all parameters of a method are renamed, by any
function on names. Renaming goes through every stage from a filter to a statement
(`Filter.condition?_mapParameters`, `Condition.fragment_mapParameters`,
`methodFragment_mapParameters`), until a fragment is written out: its text holds no name
(`Fragment.render_mapParameters`). -/

namespace DataAccess

open Sql

/-! ## What is renamed -/

def Assignment.mapParameters (ρ : String → String) (a : Assignment) : Assignment :=
  { a with parameter := ρ a.parameter }

def Comparison.mapParameters (ρ : String → String) (c : Comparison) : Comparison :=
  { c with parameter := ρ c.parameter }

namespace Filter

mutual

/-- A filter with the parameters of all its comparisons renamed. -/
def mapParameters (ρ : String → String) : Filter → Filter
  | .compare c => .compare (c.mapParameters ρ)
  | .group op fs => .group op (mapAllParameters ρ fs)

/-- Several filters with all parameters renamed. -/
def mapAllParameters (ρ : String → String) : List Filter → List Filter
  | [] => []
  | f :: fs => mapParameters ρ f :: mapAllParameters ρ fs

end

end Filter

/-- A method with the parameters of all its assignments and comparisons renamed. -/
def Method.mapParameters (ρ : String → String) : Method → Method
  | .find q => .find { q with filters := Filter.mapAllParameters ρ q.filters }
  | .update q => .update
    { q with
      filters := Filter.mapAllParameters ρ q.filters
      set := q.set.map (Assignment.mapParameters ρ) }
  | .add q => .add { q with values := q.values.map (Assignment.mapParameters ρ) }
  | .addOrReplace q =>
    .addOrReplace { q with values := q.values.map (Assignment.mapParameters ρ) }
  | .delete q => .delete { q with filters := Filter.mapAllParameters ρ q.filters }

namespace Sql

/-- A bind value with the parameter of the caller renamed; an element stays the same element, and
what the generated code makes itself has no name. -/
def Parameter.mapName (ρ : String → String) : Parameter → Parameter
  | .named name element => .named (ρ name) element
  | .generated function args => .generated function args

mutual

/-- A condition with all parameters renamed. -/
def Condition.mapParameters (ρ : String → String) : Condition → Condition
  | .compare s op p => .compare s op (ρ p)
  | .between s p => .between s (ρ p)
  | .member s p => .member s (ρ p)
  | .junction j parts => .junction j (Condition.mapAllParameters ρ parts)

/-- Several conditions with all parameters renamed. -/
def Condition.mapAllParameters (ρ : String → String) : List Condition → List Condition
  | [] => []
  | c :: cs => c.mapParameters ρ :: Condition.mapAllParameters ρ cs

end

def Piece.mapParameters (ρ : String → String) : Piece → Piece
  | .text s => .text s
  | .slot p => .slot (p.mapName ρ)

/-- A fragment with the bind values in its slots renamed. -/
def Fragment.mapParameters (ρ : String → String) (f : Fragment) : Fragment :=
  f.map (Piece.mapParameters ρ)

end Sql

variable (ρ : String → String)

/-! ## Fragments -/

namespace Sql.Fragment

@[simp] theorem mapParameters_nil : mapParameters ρ [] = [] := rfl

@[simp] theorem mapParameters_text (s : String) (f : Fragment) :
    mapParameters ρ (.text s :: f) = .text s :: mapParameters ρ f := rfl

@[simp] theorem mapParameters_slot (p : Parameter) (f : Fragment) :
    mapParameters ρ (.slot p :: f) = .slot (p.mapName ρ) :: mapParameters ρ f := rfl

@[simp] theorem mapParameters_append (f g : Fragment) :
    mapParameters ρ (f ++ g) = mapParameters ρ f ++ mapParameters ρ g := List.map_append

@[simp] theorem mapParameters_join (separator : String) (fs : List Fragment) :
    mapParameters ρ (join separator fs) = join separator (fs.map (mapParameters ρ)) := by
  induction fs with
  | nil => rfl
  | cons f fs ih =>
      cases fs with
      | nil => rfl
      | cons g fs => simpa [join] using ih

theorem params_mapParameters (f : Fragment) :
    (f.mapParameters ρ).params = f.params.map (Parameter.mapName ρ) := by
  induction f with
  | nil => rfl
  | cons p ps ih => cases p <;> simp [params, ih]

/-- The text of a fragment does not depend on what is bound in its slots. -/
theorem render_mapParameters (d : Dialect) (next : Nat) (f : Fragment) :
    (f.mapParameters ρ).render d next = f.render d next := by
  induction f generalizing next with
  | nil => rfl
  | cons p ps ih => cases p <;> simp [render, ih]

end Sql.Fragment

/-! ## Filters -/

namespace Sql.Condition

theorem mapAllParameters_eq_map (cs : List Condition) :
    mapAllParameters ρ cs = cs.map (Condition.mapParameters ρ) := by
  induction cs with
  | nil => rfl
  | cons c cs ih => rw [mapAllParameters, ih, List.map_cons]

theorem join?_mapAllParameters (j : Junction) (cs : List Condition) :
    join? j (mapAllParameters ρ cs) = (join? j cs).map (Condition.mapParameters ρ) := by
  cases cs <;> rfl

mutual

/-- A renamed condition is written as the same fragment with renamed bind values. -/
theorem fragment_mapParameters (d : Dialect) : ∀ c : Condition,
    (c.mapParameters ρ).fragment d = (c.fragment d).mapParameters ρ
  | .compare s op p => rfl
  | .between s p => rfl
  | .member s p => rfl
  | .junction j parts => by
      rw [Condition.mapParameters, Condition.fragment, Condition.fragment,
        fragments_mapAllParameters d parts]
      simp

theorem fragments_mapAllParameters (d : Dialect) : ∀ cs : List Condition,
    fragments d (mapAllParameters ρ cs) = (fragments d cs).map (Fragment.mapParameters ρ)
  | [] => rfl
  | c :: cs => by
      rw [mapAllParameters, fragments, fragments, List.map_cons, fragment_mapParameters d c,
        fragments_mapAllParameters d cs]

end

end Sql.Condition

namespace Filter

mutual

/-- What is left of a renamed filter is what was left of it, renamed. -/
theorem condition?_mapParameters : ∀ f : Filter,
    (f.mapParameters ρ).condition? = f.condition?.map (Condition.mapParameters ρ)
  | .compare c => by
      obtain ⟨attr, function, op, parameter⟩ := c
      cases op <;> rfl
  | .group op fs => by
      rw [mapParameters, condition?, condition?, conditions_mapAllParameters fs]
      cases op.junction? with
      | none => rfl
      | some j => exact Condition.join?_mapAllParameters ρ j (conditions fs)

theorem conditions_mapAllParameters : ∀ fs : List Filter,
    conditions (mapAllParameters ρ fs) = Condition.mapAllParameters ρ (conditions fs)
  | [] => rfl
  | f :: fs => by
      rw [mapAllParameters, conditions, conditions, condition?_mapParameters f,
        conditions_mapAllParameters fs, Condition.mapAllParameters_eq_map,
        Condition.mapAllParameters_eq_map, List.map_append]
      cases f.condition? <;> rfl

end

mutual

theorem warnings_mapParameters : ∀ f : Filter, (f.mapParameters ρ).warnings = f.warnings
  | .compare c => by
      obtain ⟨attr, function, op, parameter⟩ := c
      cases op <;> rfl
  | .group op fs => by
      cases op with
      | unknown op => rfl
      | _ => exact allWarnings_mapAllParameters fs

theorem allWarnings_mapAllParameters : ∀ fs : List Filter,
    allWarnings (mapAllParameters ρ fs) = allWarnings fs
  | [] => rfl
  | f :: fs => by
      rw [mapAllParameters, allWarnings, allWarnings, warnings_mapParameters f,
        allWarnings_mapAllParameters fs]

end

mutual

theorem comparisons_mapParameters : ∀ f : Filter,
    (f.mapParameters ρ).comparisons = f.comparisons.map (Comparison.mapParameters ρ)
  | .compare _ => rfl
  | .group _ fs => allComparisons_mapAllParameters fs

theorem allComparisons_mapAllParameters : ∀ fs : List Filter,
    allComparisons (mapAllParameters ρ fs) = (allComparisons fs).map (Comparison.mapParameters ρ)
  | [] => rfl
  | f :: fs => by
      rw [mapAllParameters, allComparisons, allComparisons, List.map_append,
        comparisons_mapParameters f, allComparisons_mapAllParameters fs]

end

theorem allCondition?_mapAllParameters (fs : List Filter) :
    allCondition? (mapAllParameters ρ fs) =
      (allCondition? fs).map (Condition.mapParameters ρ) := by
  match fs with
  | [] => rfl
  | [f] => exact condition?_mapParameters ρ f
  | f :: g :: fs => exact condition?_mapParameters ρ (.group .and (f :: g :: fs))

end Filter

/-! ## Methods -/

namespace Method

theorem name_mapParameters (q : Method) : (q.mapParameters ρ).name = q.name := by
  cases q <;> rfl

theorem kind_mapParameters (q : Method) : (q.mapParameters ρ).kind = q.kind := by
  cases q <;> rfl

theorem filters_mapParameters (q : Method) :
    (q.mapParameters ρ).filters = Filter.mapAllParameters ρ q.filters := by
  cases q <;> rfl

theorem assignments_mapParameters (q : Method) :
    (q.mapParameters ρ).assignments = q.assignments.map (Assignment.mapParameters ρ) := by
  cases q <;> rfl

/-- Renaming a method renames all its parameters. -/
theorem parameters_mapParameters (q : Method) :
    (q.mapParameters ρ).parameters = q.parameters.map ρ := by
  rw [parameters, parameters, assignments_mapParameters, filters_mapParameters,
    Filter.allComparisons_mapAllParameters, List.map_append, List.map_map, List.map_map,
    List.map_map, List.map_map]
  rfl

end Method

/-! ## Statements -/

namespace Sql

theorem whereTail_mapParameters (d : Dialect) (fs : List Filter) :
    whereTail d (Filter.mapAllParameters ρ fs) = (whereTail d fs).mapParameters ρ := by
  rw [whereTail_eq, whereTail_eq, Filter.allCondition?_mapAllParameters]
  cases Filter.allCondition? fs with
  | none => rfl
  | some c => exact congrArg (.text "WHERE 1=1 AND " :: ·) (Condition.fragment_mapParameters ρ d c)

theorem setFragment_mapParameters (d : Dialect) (as : List Assignment) (is ts : List String) :
    setFragment d (as.map (Assignment.mapParameters ρ)) is ts =
      (setFragment d as is ts).mapParameters ρ := by
  simp [setFragment, setFragments, Function.comp_def, Assignment.mapParameters,
    Parameter.mapName, Parameter.whole]

theorem insertFragment_mapParameters (m : Model) (values : List Assignment) :
    insertFragment m (values.map (Assignment.mapParameters ρ)) =
      (insertFragment m values).mapParameters ρ := by
  have hcolumns :
      insertColumns (values.map (Assignment.mapParameters ρ)) = insertColumns values := by
    simp [insertColumns, Assignment.mapParameters]
  have hslots : slots (insertParameters (values.map (Assignment.mapParameters ρ))) =
      (slots (insertParameters values)).mapParameters ρ := by
    simp [slots, insertParameters, Function.comp_def, Assignment.mapParameters,
      Parameter.mapName, Parameter.whole, Parameter.newId]
  rw [insertFragment, insertFragment, hcolumns, hslots]
  simp

theorem conflictTarget_mapParameters (u : Upsert) :
    Upsert.conflictTarget { u with values := u.values.map (Assignment.mapParameters ρ) } =
      u.conflictTarget := by
  simp [Upsert.conflictTarget, ← List.map_take, Function.comp_def, Assignment.mapParameters]

/-- A renamed method has the same statement with renamed bind values. -/
theorem methodFragment_mapParameters (d : Dialect) (m : Model) (q : Method) :
    methodFragment d m (q.mapParameters ρ) = (methodFragment d m q).mapParameters ρ := by
  cases q with
  | find q => simp [Method.mapParameters, methodFragment, whereTail_mapParameters]
  | update q =>
      simp [Method.mapParameters, methodFragment, setFragment_mapParameters,
        whereTail_mapParameters]
  | add q => simp [Method.mapParameters, methodFragment, insertFragment_mapParameters]
  | addOrReplace q =>
      simp [Method.mapParameters, methodFragment, insertFragment_mapParameters,
        setFragment_mapParameters, conflictTarget_mapParameters]
  | delete q => simp [Method.mapParameters, methodFragment, whereTail_mapParameters]

/-- **The names of parameters never reach the SQL.** If all parameters of a method are renamed, by a
function that may give several of them one name, the statement keeps its SQL, its warnings, its name
and its kind, and its bind values are the old ones renamed: the caller's parameters get their new
names, elements stay the same elements and generated values stay as they are. -/
theorem renaming_keeps_sql (d : Dialect) (m : Model) (q : Method) :
    (q.mapParameters ρ).parameters = q.parameters.map ρ ∧
      compileMethod d m (q.mapParameters ρ) =
        { compileMethod d m q with
          params := (compileMethod d m q).params.map (Parameter.mapName ρ) } := by
  refine ⟨Method.parameters_mapParameters ρ q, ?_⟩
  simp only [compileMethod, Builder.emit, Builder.start, methodFragment_mapParameters,
    Fragment.render_mapParameters, Fragment.params_mapParameters, Method.name_mapParameters,
    Method.kind_mapParameters, Method.filters_mapParameters,
    Filter.allWarnings_mapAllParameters, List.nil_append]

end Sql

end DataAccess
