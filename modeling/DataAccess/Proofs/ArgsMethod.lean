import DataAccess.Proofs.BindValues
import DataAccess.Proofs.GeneratedUnits
import Mathlib.Data.List.Nodup

set_option autoImplicit false

/-! # What the method `Args` returns

The body of `Args` is straight-line code of four kinds of statements. They are read off the nodes
(`step?`) and run (`Inputs.run`) on any fields of the request, any way of taking elements and any
generator. A run returns the values of all bind values of the statement in order, or the error of
the first element that cannot be taken (`run_argsSteps`). -/

namespace DataAccess.Generation

open Go (Call Func Node Struct exported isIdentifier)
open Sql (Dialect Parameter Statement)

/-! ## Reading the statements -/

/-- Where an appended value comes from. -/
inductive Source where
  /-- A variable or a field. -/
  | name (s : String)
  /-- A call with names as arguments. -/
  | call (function : String) (args : List String)
  deriving DecidableEq

/-- A statement of `Args`. -/
inductive ArgsStep where
  /-- Makes the empty list. -/
  | make
  /-- Takes an element into a new variable, and stops with the error if there is one. -/
  | take (bound source : String) (element : Int)
  /-- Appends a value to the list. -/
  | append (value : Source)
  /-- Returns the list. -/
  | ret
  deriving DecidableEq

/-- The name a node consists of. -/
def ident? (n : Node) : Option String :=
  match n.shape with
  | .ident s => some s
  | _ => none

/-- The number a node consists of. -/
def int? (n : Node) : Option Int :=
  match n.shape with
  | .literal (.int i) => some i
  | _ => none

/-- Whether a node is `nil`. -/
def isNil (n : Node) : Bool :=
  match n.shape with
  | .literal .nil => true
  | _ => false

/-- The function and the arguments of a call that runs at once. -/
def functionCall? (n : Node) : Option (String × List Node) :=
  match n.shape with
  | .call ⟨.function f, args, false, .immediate, _⟩ => some (f, args)
  | _ => none

/-- Reads where a value comes from. -/
def source? (n : Node) : Option Source :=
  match ident? n, functionCall? n with
  | some s, _ => some (.name s)
  | none, some (f, args) => (args.mapM ident?).map (.call f)
  | none, none => none

/-- Reads a call by what is done with its result. -/
def callStep? (n : Node) (function : String) (args : List Node) : Option ArgsStep :=
  match n.capture, n.handler, args with
  | .define ["args"], none, [type, length, _] =>
    if function = "make" ∧ ident? type = some "[]any" ∧ int? length = some 0 then some .make
    else none
  | .define [bound, "err"], some ⟨"err", [zero, error]⟩, [value, element] =>
    if function = rangeBound ∧ isNil zero ∧ ident? error = some "err" then
      (ident? value).bind fun s => (int? element).map fun i => .take bound s i
    else none
  | .assign ["args"], none, [list, value] =>
    if function = "append" ∧ ident? list = some "args" then (source? value).map .append else none
  | _, _, _ => none

/-- Reads a statement. -/
def step? (n : Node) : Option ArgsStep :=
  match n.cleanup, n.shape, functionCall? n with
  | none, .ret [list, error], _ =>
    if ident? list = some "args" ∧ isNil error then some .ret else none
  | none, _, some (f, args) => callStep? n f args
  | _, _, _ => none

/-! ## Running the statements -/

/-- What a run depends on: the fields of the caller's parameters, how an element of a value is taken
and what generators return. -/
structure Inputs (V E : Type) where
  field : String → V
  element : V → Int → Except E V
  generate : String → List String → V

/-- The field a path leads to. -/
def fieldOf? (path : String) : Option String :=
  ("r.Params.".toList.isPrefixOf? path.toList).map String.ofList

namespace Inputs

variable {V E : Type}

/-- The value of a source, where variables have the given values. -/
def get (i : Inputs V E) (vars : List (String × V)) : Source → Option V
  | .name s => match fieldOf? s with
    | some f => some (i.field f)
    | none => vars.lookup s
  | .call f args => some (i.generate f args)

/-- Runs statements, with the list if it has been made: what is returned, unless the code is not
meaningful. -/
def run (i : Inputs V E) (vars : List (String × V)) (list : Option (List V)) :
    List ArgsStep → Option (Except E (List V))
  | [] => none
  | .make :: steps => run i vars (some []) steps
  | .take bound source element :: steps =>
    match i.get vars (.name source) with
    | none => none
    | some v => match i.element v element with
      | .error e => some (.error e)
      | .ok w => run i ((bound, w) :: vars) list steps
  | .append value :: steps =>
    match list, i.get vars value with
    | some vs, some v => run i vars (some (vs ++ [v])) steps
    | _, _ => none
  | .ret :: _ => list.map .ok

/-- The value of a bind value. -/
def value (i : Inputs V E) : Parameter → Except E V
  | .named name none => .ok (i.field (exported name))
  | .named name (some element) => i.element (i.field (exported name)) element
  | .generated function args => .ok (i.generate function args)

end Inputs

namespace ArgsStep

/-- The value a statement appends. -/
def appended? : ArgsStep → Option Source
  | .append value => some value
  | _ => none

/-- The variable a statement introduces for an element. -/
def bound? : ArgsStep → Option String
  | .take bound _ _ => some bound
  | _ => none

/-- The names a statement reads. -/
def reads : ArgsStep → List String
  | .take _ source _ => [source]
  | .append (.name s) => [s]
  | .append (.call _ args) => args
  | _ => []

/-- The fields of the parameters that a statement reads. -/
def fields (s : ArgsStep) : List String := s.reads.filterMap fieldOf?

end ArgsStep

/-! ## The statements of the generated body -/

/-- The path to the field of a parameter. -/
def fieldPath (name : String) : String := "r.Params." ++ exported name

/-- The statements for one bind value. -/
def bindSteps (position : Nat) : Parameter → List ArgsStep
  | .named name none => [.append (.name (fieldPath name))]
  | .named name (some element) =>
    [.take (boundName position) (fieldPath name) element, .append (.name (boundName position))]
  | .generated function args => [.append (.call function args)]

/-- The statements for all bind values, from the given position on. -/
def allBindSteps (position : Nat) : List Parameter → List ArgsStep
  | [] => []
  | p :: ps => bindSteps position p ++ allBindSteps (position + 1) ps

/-- The statements of `Args`. -/
def argsSteps (params : List Parameter) : List ArgsStep :=
  .make :: allBindSteps 1 params ++ [.ret]

theorem mapM_ident? (args : List String) : (args.map Node.ident).mapM ident? = some args := by
  induction args with
  | nil => rfl
  | cons a args ih =>
      rw [List.map_cons, List.mapM_cons, ih]
      rfl

theorem mapM_step?_bindCode (position : Nat) (p : Parameter) :
    (bindCode position p).mapM step? = some (bindSteps position p) := by
  cases p with
  | named name element => cases element <;> rfl
  | generated function args =>
      have hvalue : source? (.call (.function function (args.map Node.ident)
          (generatorImport function))) = some (.call function args) := by
        show ((args.map Node.ident).mapM ident?).map (Source.call function) = _
        rw [mapM_ident?]
        rfl
      have hstep : step? (appendNode (.call (.function function (args.map Node.ident)
          (generatorImport function)))) = some (.append (.call function args)) := by
        show (source? _).map ArgsStep.append = _
        rw [hvalue]
        rfl
      rw [bindCode, List.mapM_cons, hstep]
      rfl

theorem mapM_step?_append {ns ns' : List Node} {ss ss' : List ArgsStep}
    (h : ns.mapM step? = some ss) (h' : ns'.mapM step? = some ss') :
    (ns ++ ns').mapM step? = some (ss ++ ss') := by
  rw [List.mapM_append, h, h']
  rfl

theorem mapM_step?_allBindCode (position : Nat) (ps : List Parameter) :
    (allBindCode position ps).mapM step? = some (allBindSteps position ps) := by
  induction ps generalizing position with
  | nil => rfl
  | cons p ps ih => exact mapM_step?_append (mapM_step?_bindCode position p) (ih (position + 1))

/-- The body of `Args` consists of the statements that bind one value after the other. -/
theorem mapM_step?_argsCode (params : List Parameter) :
    (argsCode params).mapM step? = some (argsSteps params) := by
  have hret : [Node.ret [.ident "args", .nil]].mapM step? = some [.ret] := rfl
  have hbody := mapM_step?_append (mapM_step?_allBindCode 1 params) hret
  rw [argsCode, List.cons_append, List.mapM_cons, hbody]
  rfl

/-! ## What a run returns -/

theorem fieldOf?_fieldPath (name : String) : fieldOf? (fieldPath name) = some (exported name) := by
  rw [fieldOf?, fieldPath, String.toList_append]
  simp [List.isPrefixOf?]

theorem fieldOf?_boundName (position : Nat) : fieldOf? (boundName position) = none := by
  rw [fieldOf?, boundName, String.toList_append]
  rfl

section Run

variable {V E : Type} (i : Inputs V E)

theorem get_fieldPath (vars : List (String × V)) (name : String) :
    i.get vars (.name (fieldPath name)) = some (i.field (exported name)) := by
  rw [Inputs.get, fieldOf?_fieldPath]

theorem get_boundName (vars : List (String × V)) (position : Nat) (v : V) :
    i.get ((boundName position, v) :: vars) (.name (boundName position)) = some v := by
  rw [Inputs.get, fieldOf?_boundName]
  exact List.lookup_cons_self

/-- The statements for one bind value append it, or stop with the error of its element. -/
theorem run_bindSteps (vars : List (String × V)) (list : List V) (position : Nat) (p : Parameter) :
    ∃ vars', ∀ rest, i.run vars (some list) (bindSteps position p ++ rest) =
      match i.value p with
      | .error e => some (.error e)
      | .ok v => i.run vars' (some (list ++ [v])) rest := by
  cases p with
  | named name element =>
      cases element with
      | none =>
          refine ⟨vars, fun rest => ?_⟩
          simp only [bindSteps, List.singleton_append, Inputs.run, get_fieldPath, Inputs.value]
      | some element =>
          rw [Inputs.value]
          cases hv : i.element (i.field (exported name)) element with
          | error e =>
              refine ⟨vars, fun rest => ?_⟩
              rw [bindSteps, List.cons_append, Inputs.run, get_fieldPath]
              simp only [hv]
          | ok v =>
              -- The element is read back from the variable that was introduced for it.
              refine ⟨(boundName position, v) :: vars, fun rest => ?_⟩
              rw [bindSteps, List.cons_append, Inputs.run, get_fieldPath]
              simp only [hv, List.singleton_append, Inputs.run, get_boundName]
  | generated function args => exact ⟨vars, fun rest => rfl⟩

theorem run_allBindSteps (vars : List (String × V)) (list : List V) (position : Nat)
    (ps : List Parameter) :
    i.run vars (some list) (allBindSteps position ps ++ [.ret]) =
      some ((ps.mapM i.value).map (list ++ ·)) := by
  induction ps generalizing vars list position with
  | nil =>
      show some (Except.ok list) = some (.ok (list ++ []))
      rw [List.append_nil]
  | cons p ps ih =>
      obtain ⟨vars', hrun⟩ := run_bindSteps i vars list position p
      rw [allBindSteps, List.append_assoc, hrun, List.mapM_cons]
      cases hv : i.value p with
      | error e => rfl
      | ok v =>
          simp only [ih]
          cases ps.mapM i.value with
          | error e => rfl
          | ok vs =>
              show some (Except.ok (list ++ [v] ++ vs)) = some (.ok (list ++ v :: vs))
              rw [List.append_assoc, List.singleton_append]

/-- A run returns the values of all bind values in order, or the first error. -/
theorem run_argsSteps (params : List Parameter) :
    i.run [] none (argsSteps params) = some (params.mapM i.value) := by
  have hrun := run_allBindSteps i [] [] 1 params
  rw [argsSteps, List.cons_append, Inputs.run, hrun]
  cases params.mapM i.value <;> rfl

end Run

/-! ## Appends, variables and fields -/

theorem length_appended (position : Nat) (ps : List Parameter) :
    ((allBindSteps position ps).filterMap ArgsStep.appended?).length = ps.length := by
  induction ps generalizing position with
  | nil => rfl
  | cons p ps ih =>
      have hone : ((bindSteps position p).filterMap ArgsStep.appended?).length = 1 := by
        cases p with
        | named name element => cases element <;> rfl
        | generated function args => rfl
      rw [allBindSteps, List.filterMap_append, List.length_append, hone, ih, List.length_cons]
      omega

theorem boundName_injective {m n : Nat} (h : boundName m = boundName n) : m = n := by
  have hchars := congrArg String.toList h
  rw [boundName, boundName, String.toList_append, String.toList_append, List.append_cancel_left_eq,
    Nat.toString_eq_repr, Nat.toString_eq_repr, Nat.toList_repr, Nat.toList_repr] at hchars
  have hvalue := congrArg (Nat.ofDigitChars 10 · 0) hchars
  simpa using hvalue

/-- The variables for elements carry positions from the first one on. -/
theorem bound_ge (position : Nat) (ps : List Parameter) :
    ∀ b ∈ (allBindSteps position ps).filterMap ArgsStep.bound?,
      ∃ k ≥ position, b = boundName k := by
  induction ps generalizing position with
  | nil => simp [allBindSteps]
  | cons p ps ih =>
      intro b hb
      rw [allBindSteps, List.filterMap_append, List.mem_append] at hb
      rcases hb with hb | hb
      · refine ⟨position, Nat.le_refl _, ?_⟩
        cases p with
        | named name element =>
            cases element with
            | none => cases hb
            | some element => exact List.mem_singleton.1 hb
        | generated function args => cases hb
      · obtain ⟨k, hk, rfl⟩ := ih (position + 1) b hb
        exact ⟨k, by omega, rfl⟩

/-- No variable is introduced twice. -/
theorem nodup_bound (position : Nat) (ps : List Parameter) :
    ((allBindSteps position ps).filterMap ArgsStep.bound?).Nodup := by
  induction ps generalizing position with
  | nil => exact .nil
  | cons p ps ih =>
      rw [allBindSteps, List.filterMap_append]
      cases p with
      | named name element =>
          cases element with
          | none => exact ih (position + 1)
          | some element =>
              -- Later variables carry larger positions, and the position is part of the name.
              refine List.nodup_cons.2 ⟨fun hmem => ?_, ih (position + 1)⟩
              obtain ⟨k, hk, heq⟩ := bound_ge (position + 1) ps _ hmem
              have := boundName_injective heq
              omega
      | generated function args => exact ih (position + 1)

theorem fields_bindSteps (position : Nat) (name : String) (element : Option Int) :
    (bindSteps position (.named name element)).flatMap ArgsStep.fields = [exported name] := by
  cases element with
  | none => simp [bindSteps, ArgsStep.fields, ArgsStep.reads, fieldOf?_fieldPath]
  | some element =>
      simp [bindSteps, ArgsStep.fields, ArgsStep.reads, fieldOf?_fieldPath, fieldOf?_boundName]

/-- The fields that are read are those of the caller's parameters; generators take no arguments. -/
theorem fields_allBindSteps (position : Nat) {ps : List Parameter}
    (hps : ∀ p ∈ ps, p = .newId ∨ ∃ name, p.name? = some name) :
    ∀ f ∈ (allBindSteps position ps).flatMap ArgsStep.fields,
      ∃ p ∈ ps, ∃ name, p.name? = some name ∧ f = exported name := by
  induction ps generalizing position with
  | nil => simp [allBindSteps]
  | cons p ps ih =>
      intro f hf
      rw [allBindSteps, List.flatMap_append, List.mem_append] at hf
      rcases hf with hf | hf
      · refine ⟨p, List.mem_cons_self, ?_⟩
        rcases hps p List.mem_cons_self with rfl | ⟨name, hname⟩
        · cases hf
        · cases p with
          | named name' element =>
              rw [fields_bindSteps] at hf
              exact ⟨name', rfl, List.mem_singleton.1 hf⟩
          | generated function args => cases hname
      · obtain ⟨p', hp', hname⟩ := ih (position + 1)
          (fun p hp => hps p (List.mem_cons_of_mem _ hp)) f hf
        exact ⟨p', List.mem_cons_of_mem _ hp', hname⟩

/-! ## Accepted methods -/

/-- What the statements of `Args` and the struct of the caller's parameters have to satisfy. -/
structure FeedsPlaceholders (s : Statement) (params : Struct) (steps : List ArgsStep) : Prop where
  /-- There is one append for each bind value. -/
  appends : (steps.filterMap ArgsStep.appended?).length = s.params.length
  /-- The appended values are those of the bind values, in order. -/
  supplies : ∀ {V E : Type} (i : Inputs V E), i.run [] none steps = some (s.params.mapM i.value)
  /-- Every field that is read is declared. -/
  declared : ∀ f ∈ steps.flatMap ArgsStep.fields, f ∈ params.fields.map Go.Field.name
  /-- The fields are those of the caller's names. -/
  fields : params.fields.map Go.Field.name = (Parameter.distinctNames s.params).map exported
  /-- The caller's names are those of the bind values, in the order of their first appearance. -/
  names : ∀ name, name ∈ Parameter.distinctNames s.params ↔ ∃ p ∈ s.params, p.name? = some name
  order : (Parameter.distinctNames s.params).Pairwise fun a b =>
    (s.params.filterMap Parameter.name?).idxOf a < (s.params.filterMap Parameter.name?).idxOf b
  identifiers : ∀ f ∈ params.fields.map Go.Field.name, isIdentifier f = true
  distinct : (params.fields.map Go.Field.name).Nodup
  /-- No variable is introduced twice. -/
  bounds : (steps.filterMap ArgsStep.bound?).Nodup

/-- The parameters of a resolved method of an accepted run become different fields. -/
theorem fieldsFit_of_validate {models : List Model} {r : Registry} {resolved : List Resolved}
    (h : Validation.validate models r = .ok resolved) {m : Resolved} (hm : m ∈ resolved)
    {q : Method} (hq : q ∈ m.model.access.methods) : Validation.FieldsFit q.parameters := by
  obtain ⟨hstructure, -, hresolved⟩ := Validation.validate_ok h
  obtain ⟨m₀, hm₀, hresolve⟩ := Validation.exists_of_mem_right hresolved hm
  obtain ⟨q₀, hq₀, hkeeps⟩ :=
    Validation.exists_of_mem_right (Validation.resolveModel_ok hresolve).2 hq
  rw [hkeeps.parameters]
  exact Validation.checkStructure_ok (hstructure m₀ hm₀) q₀ hq₀

theorem names_paramsStruct (s : Statement) :
    (paramsStruct s).fields.map Go.Field.name =
      (Parameter.distinctNames s.params).map exported := by
  show ((Parameter.distinctNames s.params).map fun p =>
    ({ name := exported p, type := .any } : Go.Field)).map Go.Field.name = _
  simp only [List.map_map, Function.comp_def]

/-- Making the list and returning it adds nothing to what the bind values need. -/
theorem filterMap_argsSteps {α : Type} (f : ArgsStep → Option α) (hmake : f .make = none)
    (hret : f .ret = none) (params : List Parameter) :
    (argsSteps params).filterMap f = (allBindSteps 1 params).filterMap f := by
  simp [argsSteps, hmake, hret]

theorem flatMap_fields_argsSteps (params : List Parameter) :
    (argsSteps params).flatMap ArgsStep.fields =
      (allBindSteps 1 params).flatMap ArgsStep.fields := by
  simp [argsSteps, ArgsStep.fields, ArgsStep.reads]

/-- The request of a compiled method feeds its placeholders if the parameters of the method become
different fields. -/
theorem feedsPlaceholders_of_fieldsFit (d : Dialect) (m : Model) {q : Method}
    (hq : Validation.FieldsFit q.parameters) :
    FeedsPlaceholders (Sql.compileMethod d m q) (paramsStruct (Sql.compileMethod d m q))
      (argsSteps (Sql.compileMethod d m q).params) where
  appends := by
    rw [filterMap_argsSteps _ rfl rfl, length_appended]
  supplies i := run_argsSteps i _
  declared f hf := by
    rw [flatMap_fields_argsSteps] at hf
    have hps : ∀ p ∈ (Sql.compileMethod d m q).params,
        p = .newId ∨ ∃ name, p.name? = some name := by
      intro p hp
      exact (Sql.mem_params_compileMethod hp).imp_right fun ⟨name, _, hname⟩ => ⟨name, hname⟩
    obtain ⟨p, hp, name, hname, hfield⟩ := fields_allBindSteps 1 hps f hf
    rw [names_paramsStruct, hfield]
    exact List.mem_map_of_mem (Sql.mem_distinctNames.2 ⟨p, hp, hname⟩)
  fields := names_paramsStruct _
  names _ := Sql.mem_distinctNames
  order := Sql.pairwise_distinctNames _
  identifiers f hf := by
    rw [names_paramsStruct] at hf
    obtain ⟨name, hname, hfield⟩ := List.mem_map.1 hf
    rw [← hfield]
    exact hq.identifier name (Sql.distinctNames_subset d m q name hname)
  distinct := by
    rw [names_paramsStruct]
    refine List.Nodup.map_on (fun a ha b hb => ?_) (Sql.nodup_distinctNames _)
    exact hq.differ a (Sql.distinctNames_subset d m q a ha) b (Sql.distinctNames_subset d m q b hb)
  bounds := by
    rw [filterMap_argsSteps _ rfl rfl]
    exact nodup_bound 1 _

/-- The method `Args` of the request of a unit, and the statements that it consists of. The request
holds the struct of the caller's parameters, and `Args` reaches it by its receiver. -/
structure IsArgsOf (u : MethodUnit) (args : Func) (steps : List ArgsStep) : Prop where
  request : u.request.fields = [{ name := "Params", type := .builtin u.params.name }]
  method : u.request.methods = [args]
  name : args.name = "Args"
  receiver : args.receiver = some ⟨"r", u.request.name⟩
  body : args.body.mapM step? = some steps

/-- **`Args` feeds every placeholder.** For every method of an accepted run and every dialect, the
declarations of the method are generated, the method `Args` of its request consists of statements
that can be read, and they feed the placeholders of the compiled statement from the struct of the
caller's parameters. -/
theorem args_feeds_placeholders {models : List Model} {r : Registry} {resolved : List Resolved}
    (h : Validation.validate models r = .ok resolved) {m : Resolved} (hm : m ∈ resolved)
    {q : Method} (hq : q ∈ m.model.access.methods) (d : Dialect) :
    ∃ u args steps, methodUnit d m q = .ok u ∧ u.statement = Sql.compileMethod d m.model q ∧
      u.params.name = paramsName q.name ∧ u.request.name = requestName q.name ∧
      IsArgsOf u args steps ∧ FeedsPlaceholders u.statement u.params steps := by
  obtain ⟨u, hu, hunit⟩ := methodUnit_ok d m q
  have hparams : u.params.name = paramsName u.statement.name := by rw [hunit.params]; rfl
  have hrequest : u.request.name = requestName u.statement.name := by rw [hunit.request]; rfl
  have hname := hunit.statement_name
  refine ⟨u, _, argsSteps u.statement.params, hu, hunit.statement, by rw [hparams, hname],
    by rw [hrequest, hname], ⟨?_, by rw [hunit.request]; rfl, rfl, ?_, mapM_step?_argsCode _⟩, ?_⟩
  · rw [hunit.request, hparams]
    rfl
  · rw [hrequest]
  · rw [hunit.params, hunit.statement]
    exact feedsPlaceholders_of_fieldsFit d m.model (fieldsFit_of_validate h hm hq)

theorem sampleModels_args_feed :
    ∃ resolved, Validation.validate Validation.sampleModels Validation.sampleRegistry =
        .ok resolved ∧
      ∃ m ∈ resolved, ∃ q ∈ m.model.access.methods, ∃ u args steps,
        methodUnit .postgres m q = .ok u ∧ u.statement = Sql.compileMethod .postgres m.model q ∧
        u.params.name = paramsName q.name ∧ u.request.name = requestName q.name ∧
        IsArgsOf u args steps ∧ FeedsPlaceholders u.statement u.params steps := by
  obtain ⟨resolved, h⟩ := Validation.sampleModels_accepted
  obtain ⟨m, hm, q, hq⟩ : ∃ m ∈ resolved, ∃ q, q ∈ m.model.access.methods := by
    have hresolved := (Validation.validate_ok h).2.2
    unfold Validation.sampleModels at hresolved
    cases hresolved with
    | cons hmodel _ =>
        have hlength := (Validation.resolveModel_ok hmodel).2.length_eq
        exact ⟨_, List.mem_cons_self, List.exists_mem_of_length_pos (hlength ▸ Nat.one_pos)⟩
  exact ⟨resolved, h, m, hm, q, hq, args_feeds_placeholders h hm hq .postgres⟩

end DataAccess.Generation
