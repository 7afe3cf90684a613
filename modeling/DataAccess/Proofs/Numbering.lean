import DataAccess.Proofs.Fragments

set_option autoImplicit false

/-! # Placeholders stand where their values are bound

The position of a value among the parameters of a statement is the only thing that ties it to its
placeholder. This file shows that the two always agree, for every history of calls on one builder
(`BuilderCall`, `Builder.run`) and for every compiled method.

The clauses of a builder are fragments that are numbered when they are written out. `writeWhere`,
`writeSet`, `writeValues` and `writeMethod` produce the same texts the other way round: they bind
one value after the other and put the placeholder they are handed into the text. -/

namespace DataAccess.Sql

/-! ## Writing one value after the other -/

namespace Builder

/-- Notes something that is left out. -/
def warn (b : Builder) (w : Warning) : Builder := { b with warnings := b.warnings ++ [w] }

/-- Writes a comparison. An unknown operator leaves no text. -/
def writeComparison (b : Builder) (c : Comparison) : String × Builder :=
  let subject := Subject.text ⟨c.attr, c.transformation⟩
  match c.operator with
  | .unknown op => ("", b.warn (.unknownOperator c.attr op))
  | .isIn =>
    let (list, b) := b.bind (.whole c.parameter)
    (b.dialect.membership subject list, b)
  | .between =>
    let (low, b) := b.bind (.named c.parameter (some 0))
    let (high, b) := b.bind (.named c.parameter (some 1))
    ("(" ++ subject ++ " BETWEEN " ++ low ++ " AND " ++ high ++ ")", b)
  | op =>
    let (value, b) := b.bind (.whole c.parameter)
    (subject ++ " " ++ op.spelling ++ " " ++ value, b)

mutual

/-- Writes a filter, depth first and left to right. -/
def writeFilter (b : Builder) : Filter → String × Builder
  | .compare c => b.writeComparison c
  | .group op fs => match op.junction? with
    | none => ("", b.warn (.unknownConnective op.spelling))
    | some j =>
      let (parts, b) := writeFilters b fs
      (groupText j parts, b)

/-- Writes several filters; those that leave no text are passed over. -/
def writeFilters (b : Builder) : List Filter → List String × Builder
  | [] => ([], b)
  | f :: fs =>
    let (text, b) := writeFilter b f
    let (texts, b) := writeFilters b fs
    (if text.isEmpty then texts else text :: texts, b)

end

/-- Writes the condition of a list of filters. -/
def writeWhere (b : Builder) : List Filter → String × Builder
  | [] => ("", b)
  | [f] => b.writeFilter f
  | fs =>
    let (parts, b) := b.writeFilters fs
    (groupText .and parts, b)

/-- Writes the assignments of a SET clause that bind a value. -/
def writeAssignments (b : Builder) : List Assignment → List String × Builder
  | [] => ([], b)
  | a :: as =>
    let (value, b) := b.bind (.whole a.parameter)
    let (texts, b) := writeAssignments b as
    ((quote a.attr ++ " = " ++ value) :: texts, b)

/-- Writes a SET clause; only the given assignments bind values. -/
def writeSet (b : Builder) (assignments : List Assignment) (increments timestamps : List String) :
    String × Builder :=
  let (texts, b) := b.writeAssignments assignments
  (String.intercalate ", " (texts ++
    increments.map (fun c => quote c ++ " = " ++ quote c ++ " + 1") ++
    timestamps.map (fun c => quote c ++ " = " ++ b.dialect.now)), b)

/-- Writes the columns and placeholders of an inserted row, side by side. -/
def writeRow (b : Builder) : List Assignment → InsertLists × Builder
  | [] => (⟨[], []⟩, b)
  | a :: as =>
    let (value, b) := b.bind (.whole a.parameter)
    let (lists, b) := writeRow b as
    (⟨quote a.attr :: lists.columns, value :: lists.placeholders⟩, b)

/-- Writes the columns and placeholders of an inserted row, its key first. -/
def writeValues (b : Builder) (values : List Assignment) : InsertLists × Builder :=
  let (key, b) := b.bind .newId
  let (lists, b) := b.writeRow values
  (⟨quote idColumn :: lists.columns, key :: lists.placeholders⟩, b)

/-! ### What a call does to a builder -/

/-- The builder after values were bound and warnings noted. -/
def advance (b : Builder) (ps : List Parameter) (ws : List Warning) : Builder :=
  { b with
    next := b.next + ps.length
    params := b.params ++ ps
    warnings := b.warnings ++ ws }

@[simp] theorem advance_dialect (b : Builder) (ps : List Parameter) (ws : List Warning) :
    (b.advance ps ws).dialect = b.dialect := rfl

@[simp] theorem advance_next (b : Builder) (ps : List Parameter) (ws : List Warning) :
    (b.advance ps ws).next = b.next + ps.length := rfl

@[simp] theorem advance_params (b : Builder) (ps : List Parameter) (ws : List Warning) :
    (b.advance ps ws).params = b.params ++ ps := rfl

@[simp] theorem advance_nil (b : Builder) : b.advance [] [] = b := by simp [advance]

@[simp] theorem advance_advance (b : Builder) (ps qs : List Parameter) (vs ws : List Warning) :
    (b.advance ps vs).advance qs ws = b.advance (ps ++ qs) (vs ++ ws) := by
  simp [advance, Nat.add_assoc]

theorem emit_eq (b : Builder) (f : Fragment) (ws : List Warning) :
    b.emit f ws = (f.render b.dialect b.next, b.advance f.params ws) := rfl

theorem bind_eq (b : Builder) (p : Parameter) :
    b.bind p = (b.dialect.placeholder b.next, b.advance [p] []) := by
  simp [bind, emit_eq, Fragment.render, Fragment.params]

theorem warn_eq (b : Builder) (w : Warning) : b.warn w = b.advance [] [w] := by
  simp [warn, advance]

/-! ### Clauses -/

theorem writeComparison_eq (b : Builder) (c : Comparison) :
    b.writeComparison c =
      b.emit (leftFragment b.dialect c.condition?) (Filter.warnings (.compare c)) := by
  rcases c with ⟨attr, function, op, parameter⟩
  cases op <;>
    simp [writeComparison, leftFragment, Comparison.condition?, Filter.warnings,
      Condition.fragment, bind_eq, emit_eq, warn_eq, Fragment.render, Fragment.params,
      Dialect.membership_eq, String.append_assoc]

mutual

/-- Writing a filter value by value gives the fragment of what is left of it. -/
theorem writeFilter_eq (b : Builder) (f : Filter) :
    b.writeFilter f = b.emit (leftFragment b.dialect f.condition?) f.warnings := by
  match f with
  | .compare c => rw [writeFilter, writeComparison_eq, Filter.condition?]
  | .group op fs =>
      -- For a known operator the group is what its parts leave, written between parentheses.
      have known : ∀ j, op.junction? = some j →
          Filter.warnings (.group op fs) = Filter.allWarnings fs →
          b.writeFilter (.group op fs) =
            b.emit (leftFragment b.dialect (Filter.group op fs).condition?)
              (Filter.warnings (.group op fs)) := by
        intro j hj hw
        rw [writeFilter, hj, hw, emit_eq, Filter.condition?, hj, Option.bind_some, render_join?,
          params_join?]
        simp only [writeFilters_eq b fs, leftFragments]
      cases op with
      | and => exact known .and rfl rfl
      | or => exact known .or rfl rfl
      | not => exact known .not rfl rfl
      | unknown op =>
          simp [writeFilter, leftFragment, Filter.condition?, Connective.junction?, warn_eq,
            Filter.warnings, emit_eq, Fragment.render, Fragment.params, Connective.spelling]

theorem writeFilters_eq (b : Builder) (fs : List Filter) :
    b.writeFilters fs =
      (Fragment.renderEach b.dialect b.next (leftFragments b.dialect fs),
        b.advance ((leftFragments b.dialect fs).flatMap Fragment.params)
          (Filter.allWarnings fs)) := by
  match fs with
  | [] =>
      simp [writeFilters, leftFragments, Filter.conditions, Fragment.renderEach,
        Filter.allWarnings]
  | f :: fs =>
      simp only [writeFilters, writeFilter_eq b f, emit_eq, writeFilters_eq _ fs, advance_advance,
        advance_dialect, advance_next]
      -- An empty text is passed over exactly if nothing is left of the filter.
      cases h : f.condition? with
      | none =>
          simp [leftFragment, leftFragments, Filter.conditions, Filter.allWarnings, h,
            Fragment.render, Fragment.params]
      | some c =>
          have hne := Condition.render_ne_empty b.dialect b.next c
          simp [leftFragment, leftFragments, Filter.conditions, Filter.allWarnings, h,
            Fragment.renderEach, hne]

end

theorem writeWhere_eq (b : Builder) (fs : List Filter) : b.writeWhere fs = b.whereClause fs := by
  rw [whereClause, whereFragment_eq]
  match fs with
  | [] => simp [writeWhere, Filter.allCondition?, leftFragment, Filter.allWarnings, emit_eq,
      Fragment.render, Fragment.params]
  | [f] => simp [writeWhere, writeFilter_eq, Filter.allCondition?, Filter.allWarnings]
  | f :: g :: fs =>
      rw [writeWhere, emit_eq, Filter.allCondition?, render_join?, params_join?]
      · simp only [writeFilters_eq, leftFragments]
      all_goals simp

theorem writeAssignments_eq (b : Builder) (as : List Assignment) :
    b.writeAssignments as =
      (Fragment.renderEach b.dialect b.next
        (as.map fun a => [.text (quote a.attr ++ " = "), .slot (.whole a.parameter)]),
        b.advance (as.map fun a => .whole a.parameter) []) := by
  induction as generalizing b with
  | nil => simp [writeAssignments, Fragment.renderEach]
  | cons a as ih =>
      simp [writeAssignments, bind_eq, ih, Fragment.renderEach, Fragment.render, Fragment.params]

theorem writeSet_eq (b : Builder) (as : List Assignment) (is ts : List String) :
    b.writeSet as is ts = b.setClause as is ts := by
  have hplain : ∀ (next : Nat) (g : String → String) (cs : List String),
      Fragment.renderEach b.dialect next (cs.map fun c => [.text (g c)]) = cs.map g := by
    intro next g cs
    simpa [Function.comp_def] using Fragment.renderEach_texts b.dialect next (cs.map g)
  rw [setClause, emit_eq, params_setFragment, setFragment, Fragment.render_join, setFragments,
    Fragment.renderEach_append, Fragment.renderEach_append, hplain, hplain]
  simp only [writeSet, writeAssignments_eq, advance_dialect]

theorem writeRow_eq (b : Builder) (as : List Assignment) :
    b.writeRow as =
      let bound := b.bindAll (as.map fun a => .whole a.parameter)
      (⟨as.map fun a => quote a.attr, bound.1⟩, bound.2) := by
  induction as generalizing b with
  | nil => rfl
  | cons a as ih => simp [writeRow, bindAll, ih]

theorem writeValues_eq (b : Builder) (values : List Assignment) :
    b.writeValues values = b.valuesClause values := by
  simp [writeValues, valuesClause, insertParameters, insertColumns, bindAll, writeRow_eq]

end Builder

/-! ## Histories of calls -/

/-- A call of a builder that returns text. -/
inductive BuilderCall where
  | bind (p : Parameter)
  | whereClause (fs : List Filter)
  | filterClause (f : Filter)
  | setClause (assignments : List Assignment) (increments timestamps : List String)
  | valuesClause (values : List Assignment)

/-- The texts a call returns, as fragments: they know neither the builder nor its counter. -/
def BuilderCall.fragments (d : Dialect) : BuilderCall → List Fragment
  | .bind p => [[.slot p]]
  | .whereClause fs => [Filter.whereFragment d fs]
  | .filterClause f => [Filter.whereFragment d [f]]
  | .setClause as is ts => [setFragment d as is ts]
  | .valuesClause vs =>
    (insertColumns vs).map (fun c => [.text c]) ++ (insertParameters vs).map fun p => [.slot p]

/-- What a call leaves out. -/
def BuilderCall.warnings : BuilderCall → List Warning
  | .whereClause fs => Filter.allWarnings fs
  | .filterClause f => Filter.allWarnings [f]
  | _ => []

namespace Builder

/-- The two lists of an inserted row, one behind the other. -/
def rowTexts (lists : InsertLists) : List String := lists.columns ++ lists.placeholders

/-- Makes a call: the texts it returns and the builder after it. -/
def perform (b : Builder) : BuilderCall → List String × Builder
  | .bind p => let (text, b) := b.bind p; ([text], b)
  | .whereClause fs => let (text, b) := b.whereClause fs; ([text], b)
  | .filterClause f => let (text, b) := b.filterClause f; ([text], b)
  | .setClause as is ts => let (text, b) := b.setClause as is ts; ([text], b)
  | .valuesClause vs => let (lists, b) := b.valuesClause vs; (rowTexts lists, b)

/-- Makes a call by binding its values one after the other. -/
def performStepwise (b : Builder) : BuilderCall → List String × Builder
  | .bind p => let (text, b) := b.bind p; ([text], b)
  | .whereClause fs => let (text, b) := b.writeWhere fs; ([text], b)
  | .filterClause f => let (text, b) := b.writeFilter f; ([text], b)
  | .setClause as is ts => let (text, b) := b.writeSet as is ts; ([text], b)
  | .valuesClause vs => let (lists, b) := b.writeValues vs; (rowTexts lists, b)

/-- The builder after several calls. -/
def run (b : Builder) (calls : List BuilderCall) : Builder :=
  calls.foldl (fun b call => (b.perform call).2) b

theorem perform_eq_stepwise (b : Builder) (call : BuilderCall) :
    b.perform call = b.performStepwise call := by
  cases call with
  | bind p => rfl
  | whereClause fs => simp only [perform, performStepwise, writeWhere_eq]
  | filterClause f =>
      simp only [perform, performStepwise, filterClause, ← writeWhere_eq, writeWhere]
  | setClause as is ts => simp only [perform, performStepwise, writeSet_eq]
  | valuesClause vs => simp only [perform, performStepwise, writeValues_eq]

theorem bindAll_eq (b : Builder) (ps : List Parameter) :
    b.bindAll ps =
      (Fragment.renderEach b.dialect b.next (ps.map fun p => [.slot p]), b.advance ps []) := by
  induction ps generalizing b with
  | nil => simp [bindAll, Fragment.renderEach]
  | cons p ps ih =>
      simp [bindAll, bind_eq, ih, Fragment.renderEach, Fragment.render, Fragment.params]

/-- **What one call does.** Its texts are its fragments, numbered from the counter on; the slots of
the fragments are recorded behind the parameters so far. -/
theorem perform_eq (b : Builder) (call : BuilderCall) :
    b.perform call =
      (Fragment.renderEach b.dialect b.next (call.fragments b.dialect),
        b.advance ((call.fragments b.dialect).flatMap Fragment.params) call.warnings) := by
  cases call with
  | bind p =>
      simp [perform, bind_eq, BuilderCall.fragments, BuilderCall.warnings, Fragment.renderEach,
        Fragment.render, Fragment.params]
  | whereClause fs =>
      simp [perform, whereClause, emit_eq, BuilderCall.fragments, BuilderCall.warnings,
        Fragment.renderEach]
  | filterClause f =>
      simp [perform, filterClause, whereClause, emit_eq, BuilderCall.fragments,
        BuilderCall.warnings, Fragment.renderEach]
  | setClause as is ts =>
      simp [perform, setClause, emit_eq, BuilderCall.fragments, BuilderCall.warnings,
        Fragment.renderEach]
  | valuesClause vs =>
      simp only [perform, valuesClause, bindAll_eq, rowTexts, BuilderCall.fragments,
        BuilderCall.warnings, Fragment.renderEach_append, Fragment.renderEach_texts,
        List.flatMap_append, Fragment.params_texts, Fragment.params_slots, List.nil_append,
        List.length_nil, Nat.add_zero]

/-- A history of calls appends to the parameters, moves the counter by as many and keeps the
dialect. -/
theorem run_eq_advance (b : Builder) (calls : List BuilderCall) :
    ∃ ps ws, b.run calls = b.advance ps ws := by
  induction calls generalizing b with
  | nil => exact ⟨[], [], (advance_nil b).symm⟩
  | cons call calls ih =>
      obtain ⟨ps, ws, h⟩ := ih (b.perform call).2
      have hrun : b.run (call :: calls) = (b.perform call).2.run calls := rfl
      rw [hrun, h, perform_eq, advance_advance]
      exact ⟨_, _, rfl⟩

theorem run_append (b : Builder) (xs ys : List BuilderCall) :
    b.run (xs ++ ys) = (b.run xs).run ys := List.foldl_append

end Builder

/-! ## Statements -/

namespace Builder

/-- Writes a WHERE clause. -/
def writeTail (b : Builder) (fs : List Filter) : String × Builder :=
  let (text, b) := b.writeWhere fs
  (if text.isEmpty then "WHERE 1=1" else "WHERE 1=1 AND " ++ text, b)

/-- Everything of an insertion up to the values, around the lists of its row. -/
def insertText (m : Model) (lists : InsertLists) : String :=
  "INSERT INTO " ++ tableOf m ++ " (" ++ String.intercalate ", " lists.columns ++ ") VALUES (" ++
    String.intercalate ", " lists.placeholders ++ ")"

/-- Writes everything of an insertion up to the values. -/
def writeInsert (b : Builder) (m : Model) (values : List Assignment) : String × Builder :=
  let (lists, b) := b.writeValues values
  (insertText m lists, b)

/-- Writes the statement of a method clause by clause, all on one builder. -/
def writeMethod (b : Builder) (m : Model) : Method → String × Builder
  | .find q =>
    let (tail, b) := b.writeTail q.filters
    ("SELECT " ++ projection q.attributes ++ " FROM " ++ tableOf m ++ " " ++ tail, b)
  | .update q =>
    let (set, b) := b.writeSet q.set q.increment q.timestamp
    let (tail, b) := b.writeTail q.filters
    ("UPDATE " ++ tableOf m ++ " SET " ++ set ++ " " ++ tail, b)
  | .add q =>
    let (insert, b) := b.writeInsert m q.values
    (insert ++ " RETURNING " ++ quote idColumn, b)
  | .addOrReplace q =>
    let (insert, b) := b.writeInsert m q.values
    let (set, b) := b.writeSet q.values [] []
    (insert ++ " ON CONFLICT (" ++ quoteAll q.conflictTarget ++ ") DO UPDATE SET " ++ set ++
      " RETURNING " ++ quote idColumn ++ ", " ++ b.dialect.insertedFlag ++ " AS inserted", b)
  | .delete q =>
    let (tail, b) := b.writeTail q.filters
    ("DELETE FROM " ++ tableOf m ++ " " ++ tail, b)

theorem writeTail_eq (b : Builder) (fs : List Filter) :
    b.writeTail fs = b.emit (whereTail b.dialect fs) (Filter.allWarnings fs) := by
  simp only [writeTail, writeWhere_eq, whereClause, emit_eq, whereTail_eq, whereFragment_eq]
  cases Filter.allCondition? fs with
  | none => simp [leftFragment, Fragment.render, Fragment.params]
  | some c =>
      have hne := Condition.render_ne_empty b.dialect b.next c
      simp [leftFragment, hne, Fragment.render, Fragment.params]

theorem writeInsert_eq (b : Builder) (m : Model) (vs : List Assignment) :
    b.writeInsert m vs = b.emit (insertFragment m vs) [] := by
  simp only [writeInsert, writeValues_eq, valuesClause, bindAll_eq]
  unfold insertText
  simp only [emit_eq, insertFragment, slots, List.cons_append, Fragment.render,
    Fragment.render_append, Fragment.render_join, Fragment.params, Fragment.params_append,
    Fragment.params_join, Fragment.params_slots, List.append_nil, String.append_empty,
    String.append_assoc]

/-- Writing a statement clause by clause gives the fragment of its method. -/
theorem writeMethod_eq (b : Builder) (m : Model) (q : Method) :
    b.writeMethod m q = b.emit (methodFragment b.dialect m q) (Filter.allWarnings q.filters) := by
  cases q with
  | find q =>
      simp only [writeMethod, writeTail_eq, emit_eq, methodFragment, Method.filters,
        Fragment.render, Fragment.params, String.append_assoc]
  | update q =>
      simp only [writeMethod, writeTail_eq, writeSet_eq, setClause, emit_eq, advance_dialect,
        advance_next, advance_advance, methodFragment, Method.filters, List.cons_append,
        List.nil_append, Fragment.render, Fragment.render_append, Fragment.params,
        Fragment.params_append, String.append_assoc]
  | add q =>
      simp only [writeMethod, writeInsert_eq, emit_eq, methodFragment, Method.filters,
        Filter.allWarnings, Fragment.render, Fragment.render_append, Fragment.params,
        Fragment.params_append, List.append_nil, String.append_empty, String.append_assoc]
  | addOrReplace q =>
      simp only [writeMethod, writeInsert_eq, writeSet_eq, setClause, emit_eq, advance_dialect,
        advance_next, advance_advance, methodFragment, Method.filters, Filter.allWarnings,
        List.append_nil, Fragment.render, Fragment.render_append, Fragment.params,
        Fragment.params_append, String.append_empty, String.append_assoc]
  | delete q =>
      simp only [writeMethod, writeTail_eq, emit_eq, methodFragment, Method.filters,
        Fragment.render, Fragment.params, String.append_assoc]

end Builder

/-- **Placeholders stand where their values are bound.** After any history of calls the counter is
the first number plus the number of parameters, and the parameters were only appended to. The next
call makes its texts by binding one value after the other; they are its literal chunks, which do not
depend on the counter, with consecutive placeholders from the counter on between them, and the slots
between the chunks are, in this order, the parameters it appends. So the SQL of a compiled method
holds the placeholders `1, …, n` from left to right, each once, where `n` counts its parameters. -/
theorem placeholders_follow_parameters (d : Dialect) :
    (∀ calls : List BuilderCall,
      let b := (Builder.start d).run calls
      b.next = d.firstPlaceholder + b.params.length ∧
      (∀ later, b.params <+: ((Builder.start d).run (calls ++ later)).params) ∧
      ∀ call : BuilderCall,
        b.perform call = b.performStepwise call ∧
        (b.perform call).1 = weaveAll d b.next ((call.fragments d).map Fragment.chunks) ∧
        (b.perform call).2.params = b.params ++ (call.fragments d).flatMap Fragment.params ∧
        ∀ f ∈ call.fragments d, f.chunks.length = f.params.length + 1) ∧
    ∀ (m : Model) (q : Method),
      let s := compileMethod d m q
      let f := methodFragment d m q
      (s.sql, s.params) = (((Builder.start d).writeMethod m q).1,
        ((Builder.start d).writeMethod m q).2.params) ∧
      s.sql = weave d 1 f.chunks ∧ s.params = f.params ∧
      f.chunks.length = s.params.length + 1 := by
  constructor
  · intro calls
    obtain ⟨ps, ws, hrun⟩ := Builder.run_eq_advance (Builder.start d) calls
    have hdialect : ((Builder.start d).run calls).dialect = d := by rw [hrun]; rfl
    refine ⟨?_, ?_, ?_⟩
    · rw [hrun]
      simp [Builder.start]
    · intro later
      rw [Builder.run_append]
      obtain ⟨qs, vs, hlater⟩ := Builder.run_eq_advance ((Builder.start d).run calls) later
      rw [hlater]
      exact ⟨qs, rfl⟩
    · intro call
      have hcall := Builder.perform_eq ((Builder.start d).run calls) call
      rw [hdialect, Fragment.renderEach_eq_weaveAll] at hcall
      refine ⟨Builder.perform_eq_stepwise _ call, ?_, ?_, ?_⟩
      · rw [hcall]
      · rw [hcall]; rfl
      · intro f _
        exact Fragment.length_chunks f
  · intro m q
    refine ⟨?_, ?_, ?_, ?_⟩
    · rw [Builder.writeMethod_eq]
      rfl
    · exact Fragment.render_eq_weave d 1 (methodFragment d m q)
    · simp [compileMethod, Builder.emit_eq, Builder.start]
    · simpa [compileMethod, Builder.emit_eq, Builder.start] using
        Fragment.length_chunks (methodFragment d m q)

end DataAccess.Sql
