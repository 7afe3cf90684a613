import DataAccess.Proofs.BindValues

set_option autoImplicit false

/-! # Live comparisons

A comparison is live if its operator is known and so are the logical operators of all groups around
it. A WHERE clause binds the values of its live comparisons and of nothing else
(`params_whereFragment`), and it tells what it leaves out (`allWarnings_eq`). So the bind values of
a statement can be read off its method without looking at the dialect or the model
(`Method.bindValues`, `params_compileMethod_eq`), and nothing is left out without a warning
(`clauses_bind_live`). -/

namespace DataAccess

open Sql

/-! ## Places in a filter -/

namespace Filter

/-- A filter that stands inside others, with the logical operators of the groups around it, from
the inside out. -/
structure Placed where
  filter : Filter
  around : List Connective

namespace Placed

/-- Whether all groups around have known operators. -/
def isReached (p : Placed) : Bool := p.around.all Connective.isKnown

/-- The live comparison that stands in a place, if there is one. -/
def live? (p : Placed) : Option Comparison :=
  match p.filter with
  | .compare c => if p.isReached && c.operator.isKnown then some c else none
  | .group _ _ => none

/-- What is told about a place: an unknown operator, unless an unknown group is around it. -/
def warning? (p : Placed) : Option Warning :=
  if p.isReached then
    match p.filter with
    | .compare ⟨attr, _, .unknown op, _⟩ => some (.unknownOperator attr op)
    | .group (.unknown op) _ => some (.unknownConnective op)
    | _ => none
  else none

end Placed

mutual

/-- Every place in a filter, depth first and left to right; a group stands before its parts. -/
def placed (around : List Connective) : Filter → List Placed
  | .compare c => [⟨.compare c, around⟩]
  | .group op fs => ⟨.group op fs, around⟩ :: allPlaced (op :: around) fs

/-- Every place in several filters. -/
def allPlaced (around : List Connective) : List Filter → List Placed
  | [] => []
  | f :: fs => placed around f ++ allPlaced around fs

end

/-- The live comparisons of several filters. -/
def liveComparisons (fs : List Filter) : List Comparison :=
  (allPlaced [] fs).filterMap Placed.live?

end Filter

/-- The bind values of a comparison: both ends of a range, one value otherwise. -/
def Comparison.bindValues (c : Comparison) : List Parameter :=
  if c.operator = .between then [.named c.parameter (some 0), .named c.parameter (some 1)]
  else [.whole c.parameter]

namespace Filter

variable {around : List Connective}

/-! ### Below an unknown group -/

mutual

/-- Whatever is around a filter is around every place in it. -/
theorem suffix_of_mem_placed : ∀ {f : Filter} {around : List Connective} {p : Placed},
    p ∈ placed around f → around <:+ p.around
  | .compare c, around, p, h => by
      rw [placed, List.mem_singleton] at h
      subst h
      exact List.suffix_rfl
  | .group op fs, around, p, h => by
      rw [placed, List.mem_cons] at h
      rcases h with rfl | h
      · exact List.suffix_rfl
      · exact (List.suffix_cons op around).trans (suffix_of_mem_allPlaced h)

theorem suffix_of_mem_allPlaced : ∀ {fs : List Filter} {around : List Connective} {p : Placed},
    p ∈ allPlaced around fs → around <:+ p.around
  | [], around, p, h => by cases h
  | f :: fs, around, p, h => by
      rw [allPlaced, List.mem_append] at h
      rcases h with h | h
      · exact suffix_of_mem_placed h
      · exact suffix_of_mem_allPlaced h

end

theorem live?_of_not_isReached {p : Placed} (h : p.isReached = false) : p.live? = none := by
  unfold Placed.live?
  split <;> simp [h]

theorem warning?_of_not_isReached {p : Placed} (h : p.isReached = false) : p.warning? = none := by
  simp [Placed.warning?, h]

/-- No place below an unknown group is looked at. -/
theorem filterMap_below_unknown {β : Type} {g : Placed → Option β} {op : Connective}
    (hg : ∀ {p : Placed}, p.isReached = false → g p = none) (hop : op.isKnown = false)
    (fs : List Filter) : (allPlaced (op :: around) fs).filterMap g = [] := by
  rw [List.filterMap_eq_nil_iff]
  intro p hp
  apply hg
  have hmem : op ∈ p.around := (suffix_of_mem_allPlaced hp).subset List.mem_cons_self
  exact List.all_eq_false.2 ⟨op, hmem, by simp [hop]⟩

theorem isKnown_eq_isSome_junction? (op : Connective) : op.isKnown = op.junction?.isSome := by
  cases op <;> rfl

theorem warnings_group_of_isKnown {op : Connective} (h : op.isKnown = true) (fs : List Filter) :
    warnings (.group op fs) = allWarnings fs := by
  cases op with
  | unknown op => cases h
  | _ => rfl

/-! ### Bind values and warnings -/

mutual

/-- A filter binds the values of its live comparisons, in their order. -/
theorem params_condition? (d : Dialect) : ∀ (f : Filter) {around : List Connective},
    around.all Connective.isKnown = true →
      (leftFragment d f.condition?).params =
        ((placed around f).filterMap Placed.live?).flatMap Comparison.bindValues
  | .compare c, around, h => by
      obtain ⟨attr, function, op, parameter⟩ := c
      cases op <;>
        simp [placed, Placed.live?, Placed.isReached, h, Operator.isKnown, condition?,
          Comparison.condition?, leftFragment, Condition.fragment, Fragment.params,
          Comparison.bindValues]
  | .group op fs, around, h => by
      have hself : Placed.live? ⟨.group op fs, around⟩ = none := rfl
      rw [placed, List.filterMap_cons_none hself, condition?]
      -- An unknown group is left out as a whole, and so no place below it is live. Below a known
      -- group the same operators count as around it.
      cases hj : op.junction? with
      | none =>
          have hop : op.isKnown = false := by simp [isKnown_eq_isSome_junction?, hj]
          rw [filterMap_below_unknown live?_of_not_isReached hop]
          rfl
      | some j =>
          have hop : op.isKnown = true := by simp [isKnown_eq_isSome_junction?, hj]
          rw [Option.bind_some, params_join?]
          exact params_conditions d fs (by simp [hop, h])

theorem params_conditions (d : Dialect) : ∀ (fs : List Filter) {around : List Connective},
    around.all Connective.isKnown = true →
      ((conditions fs).map (Condition.fragment d)).flatMap Fragment.params =
        ((allPlaced around fs).filterMap Placed.live?).flatMap Comparison.bindValues
  | [], around, _ => rfl
  | f :: fs, around, h => by
      have hfirst : (f.condition?.toList.map (Condition.fragment d)).flatMap Fragment.params =
          (leftFragment d f.condition?).params := by
        cases f.condition? <;> simp [leftFragment, Fragment.params]
      rw [conditions, allPlaced, List.map_append, List.flatMap_append, List.filterMap_append,
        List.flatMap_append, hfirst, params_condition? d f h, params_conditions d fs h]

end

mutual

/-- A filter tells its unknown operators, in their order. -/
theorem warnings_eq : ∀ (f : Filter) {around : List Connective},
    around.all Connective.isKnown = true →
      f.warnings = (placed around f).filterMap Placed.warning?
  | .compare c, around, h => by
      obtain ⟨attr, function, op, parameter⟩ := c
      cases op <;> simp [placed, Placed.warning?, Placed.isReached, h, warnings]
  | .group op fs, around, h => by
      cases op with
      | unknown op =>
          rw [placed, List.filterMap_cons, filterMap_below_unknown warning?_of_not_isReached rfl]
          simp [Placed.warning?, Placed.isReached, h, warnings]
      | _ =>
          rw [placed, List.filterMap_cons_none (by simp [Placed.warning?]),
            warnings_group_of_isKnown rfl]
          exact allWarnings_eq fs (by simp [h, Connective.isKnown])

theorem allWarnings_eq : ∀ (fs : List Filter) {around : List Connective},
    around.all Connective.isKnown = true →
      allWarnings fs = (allPlaced around fs).filterMap Placed.warning?
  | [], around, _ => rfl
  | f :: fs, around, h => by
      rw [allWarnings, allPlaced, List.filterMap_append, warnings_eq f h, allWarnings_eq fs h]

end

mutual

/-- Without warnings every comparison is live. -/
theorem live_of_warnings_nil : ∀ (f : Filter) {around : List Connective},
    around.all Connective.isKnown = true → f.warnings = [] →
      (placed around f).filterMap Placed.live? = f.comparisons
  | .compare c, around, h, hw => by
      obtain ⟨attr, function, op, parameter⟩ := c
      cases op <;>
        simp_all [placed, Placed.live?, Placed.isReached, warnings, comparisons, Operator.isKnown]
  | .group op fs, around, h, hw => by
      have hself : Placed.live? ⟨.group op fs, around⟩ = none := rfl
      rw [placed, List.filterMap_cons_none hself, comparisons]
      cases op with
      | unknown op => cases hw
      | _ => exact allLive_of_warnings_nil fs (by simp [h, Connective.isKnown]) hw

theorem allLive_of_warnings_nil : ∀ (fs : List Filter) {around : List Connective},
    around.all Connective.isKnown = true → allWarnings fs = [] →
      (allPlaced around fs).filterMap Placed.live? = allComparisons fs
  | [], around, _, _ => rfl
  | f :: fs, around, h, hw => by
      rw [allWarnings, List.append_eq_nil_iff] at hw
      rw [allPlaced, List.filterMap_append, allComparisons, live_of_warnings_nil f h hw.1,
        allLive_of_warnings_nil fs h hw.2]

end

/-! ### Clauses -/

/-- The bind values of several filters. -/
def bindValues (fs : List Filter) : List Parameter :=
  (liveComparisons fs).flatMap Comparison.bindValues

theorem params_whereFragment (d : Dialect) (fs : List Filter) :
    (whereFragment d fs).params = bindValues fs := by
  rw [whereFragment_eq]
  match fs with
  | [] => rfl
  | [f] =>
      have hplaced : allPlaced [] [f] = placed [] f := by simp [allPlaced]
      rw [bindValues, liveComparisons, hplaced]
      exact params_condition? d f rfl
  | f :: g :: fs => exact (params_join? d .and _).trans (params_conditions d (f :: g :: fs) rfl)

theorem params_whereTail (d : Dialect) (fs : List Filter) :
    (whereTail d fs).params = bindValues fs := by
  rw [← params_whereFragment d fs, whereTail_eq, whereFragment_eq]
  cases allCondition? fs <;> rfl

mutual

/-- What is left of a filter binds something. -/
theorem params_ne_nil (d : Dialect) : ∀ {f : Filter} {c : Condition},
    f.condition? = some c → (c.fragment d).params ≠ []
  | .compare ⟨attr, function, op, parameter⟩, c, h => by
      cases op with
      | unknown op => cases h
      | _ =>
          cases h
          simp [Condition.fragment, Fragment.params]
  | .group op fs, c, h => by
      rw [condition?, Option.bind_eq_some_iff] at h
      obtain ⟨j, -, hj⟩ := h
      cases hcs : conditions fs with
      | nil =>
          rw [hcs] at hj
          cases hj
      | cons c' cs =>
          have hmem : c' ∈ conditions fs := by simp [hcs]
          have hfirst := params_ne_nil_of_mem d hmem
          rw [hcs] at hj
          cases hj
          simp [Condition.fragment, Condition.fragments, Fragment.params, Fragment.params_join,
            hfirst]

theorem params_ne_nil_of_mem (d : Dialect) : ∀ {fs : List Filter} {c : Condition},
    c ∈ conditions fs → (c.fragment d).params ≠ []
  | [], c, h => by cases h
  | f :: fs, c, h => by
      rw [conditions, List.mem_append] at h
      rcases h with h | h
      · exact params_ne_nil d (Option.mem_toList.1 h)
      · exact params_ne_nil_of_mem d h

end

/-- What is left of several filters is left of one: the only one, or the group of them. -/
theorem exists_condition? {fs : List Filter} {c : Condition} (h : allCondition? fs = some c) :
    ∃ f : Filter, f.condition? = some c := by
  match fs with
  | [] => cases h
  | [f] => exact ⟨f, h⟩
  | f :: g :: fs => exact ⟨.group .and (f :: g :: fs), h⟩

/-- There is no text exactly if nothing is bound. -/
theorem render_whereFragment_eq_empty_iff (d : Dialect) (next : Nat) (fs : List Filter) :
    (whereFragment d fs).render d next = "" ↔ bindValues fs = [] := by
  rw [← params_whereFragment d fs, whereFragment_eq]
  cases h : allCondition? fs with
  | none => simp [leftFragment, Fragment.render, Fragment.params]
  | some c =>
      obtain ⟨f, hf⟩ := exists_condition? h
      have htext := Condition.render_ne_empty d next c
      have hparams := params_ne_nil d hf
      simp [leftFragment, htext, hparams]

end Filter

/-! ## Statements -/

/-- The bind values of a method. An upsert binds its values twice, to insert them and to replace
them. -/
def Method.bindValues : Method → List Parameter
  | .find q => Filter.bindValues q.filters
  | .update q => (q.set.map fun a => .whole a.parameter) ++ Filter.bindValues q.filters
  | .add q => insertParameters q.values
  | .addOrReplace q => insertParameters q.values ++ q.values.map fun a => .whole a.parameter
  | .delete q => Filter.bindValues q.filters

namespace Sql

theorem params_compileMethod_eq (d : Dialect) (m : Model) (q : Method) :
    (compileMethod d m q).params = q.bindValues := by
  rw [params_compileMethod]
  cases q with
  | find q => exact Filter.params_whereTail d q.filters
  | update q =>
      simp only [methodFragment, List.cons_append, Fragment.params, Fragment.params_append,
        params_setFragment, Filter.params_whereTail, Method.bindValues]
  | add q =>
      simp only [methodFragment, Fragment.params_append, params_insertFragment, Fragment.params,
        List.append_nil, Method.bindValues]
  | addOrReplace q =>
      simp only [methodFragment, Fragment.params_append, params_insertFragment, Fragment.params,
        params_setFragment, List.append_nil, Method.bindValues]
  | delete q => exact Filter.params_whereTail d q.filters

theorem warnings_compileMethod (d : Dialect) (m : Model) (q : Method) :
    (compileMethod d m q).warnings = Filter.allWarnings q.filters := List.nil_append _

/-! ### Names in order of first appearance -/

/-- Two lists in which the same names appear first in the same order, also if some are left out. -/
def SameFirst (as bs : List String) : Prop :=
  ∀ p : String → Bool, (as.filter p).eraseDups = (bs.filter p).eraseDups

theorem SameFirst.refl (as : List String) : SameFirst as as := fun _ => rfl

theorem SameFirst.eraseDups {as bs : List String} (h : SameFirst as bs) :
    as.eraseDups = bs.eraseDups := by
  have hall := h fun _ => true
  rwa [List.filter_true, List.filter_true] at hall

theorem SameFirst.append {as as' bs bs' : List String} (ha : SameFirst as as')
    (hb : SameFirst bs bs') : SameFirst (as ++ bs) (as' ++ bs') := by
  intro p
  -- Of the second lists only names count that the first lists do not have, and these are the same
  -- names, since the first lists have the same members.
  have hmem : ∀ b, b ∈ as.filter p ↔ b ∈ as'.filter p := by
    intro b
    rw [← List.mem_eraseDups, ha p, List.mem_eraseDups]
  have helem : ∀ b, List.elem b (as.filter p) = List.elem b (as'.filter p) := by
    intro b
    rw [Bool.eq_iff_iff, List.elem_iff, List.elem_iff, hmem]
  rw [List.filter_append, List.filter_append, List.eraseDups_append, List.eraseDups_append, ha p]
  simp only [List.removeAll, helem, List.filter_filter, hb _]

/-- What was there before adds nothing. -/
theorem SameFirst.append_self (as : List String) : SameFirst (as ++ as) as := by
  intro p
  have hnone : (as.filter p).removeAll (as.filter p) = [] := by
    rw [List.removeAll, List.filter_eq_nil_iff]
    intro a ha
    simpa using ha
  rw [List.filter_append, List.eraseDups_append, hnone, List.eraseDups_nil, List.append_nil]

theorem names_assignments (as : List Assignment) :
    (as.map fun a => Parameter.whole a.parameter).filterMap Parameter.name? =
      as.map Assignment.parameter := by
  rw [List.filterMap_map]
  exact congrFun List.filterMap_eq_map as

/-- A range names its parameter twice, and that is all that bind values repeat. -/
theorem sameFirst_comparisons (cs : List Comparison) :
    SameFirst ((cs.flatMap Comparison.bindValues).filterMap Parameter.name?)
      (cs.map Comparison.parameter) := by
  induction cs with
  | nil => exact .refl _
  | cons c cs ih =>
      have hfirst : SameFirst (c.bindValues.filterMap Parameter.name?) [c.parameter] := by
        unfold Comparison.bindValues
        split
        · exact .append_self [c.parameter]
        · exact .refl _
      rw [List.flatMap_cons, List.filterMap_append]
      exact hfirst.append ih

/-- Without warnings the names of the bind values are the parameters of the method. -/
theorem sameFirst_bindValues {q : Method} (h : Filter.allWarnings q.filters = []) :
    SameFirst (q.bindValues.filterMap Parameter.name?) q.parameters := by
  have hfilters : ∀ fs, Filter.allWarnings fs = [] →
      SameFirst ((Filter.bindValues fs).filterMap Parameter.name?)
        ((Filter.allComparisons fs).map Comparison.parameter) := by
    intro fs hfs
    rw [Filter.bindValues, Filter.liveComparisons, Filter.allLive_of_warnings_nil fs rfl hfs]
    exact sameFirst_comparisons _
  cases q with
  | find q => exact hfilters q.filters h
  | update q =>
      rw [Method.bindValues, List.filterMap_append, names_assignments]
      exact (SameFirst.refl _).append (hfilters q.filters h)
  | add q =>
      have hparameters : (Method.add q).parameters = q.values.map Assignment.parameter :=
        List.append_nil _
      rw [Method.bindValues, insertParameters, List.filterMap_cons_none rfl, names_assignments,
        hparameters]
      exact .refl _
  | addOrReplace q =>
      have hparameters : (Method.addOrReplace q).parameters = q.values.map Assignment.parameter :=
        List.append_nil _
      rw [Method.bindValues, insertParameters, List.filterMap_append, List.filterMap_cons_none rfl,
        names_assignments, hparameters]
      exact .append_self _
  | delete q => exact hfilters q.filters h

/-! ### Nothing is left out without a warning -/

/-- What the clause that is written for filters has to tell about them. -/
structure TellsFilters (fs : List Filter) (text : String) (params : List Parameter)
    (warnings : List Warning) : Prop where
  /-- It binds the values of the live comparisons, in their order. -/
  bound : params = (Filter.liveComparisons fs).flatMap Comparison.bindValues
  /-- It tells the unknown operators that stand in no unknown group, in their order. -/
  told : warnings = (Filter.allPlaced [] fs).filterMap Filter.Placed.warning?
  /-- It has text exactly if it binds something. -/
  text : text = "" ↔ params = []
  /-- If it tells nothing, it binds the values of all comparisons. -/
  complete : warnings = [] → params = (Filter.allComparisons fs).flatMap Comparison.bindValues

theorem tellsFilters (d : Dialect) (fs : List Filter) :
    TellsFilters fs ((Builder.start d).whereClause fs).1
      ((Builder.start d).whereClause fs).2.params
      ((Builder.start d).whereClause fs).2.warnings := by
  have hparams : ((Builder.start d).whereClause fs).2.params = Filter.bindValues fs :=
    (List.nil_append _).trans (Filter.params_whereFragment d fs)
  have hwarnings : ((Builder.start d).whereClause fs).2.warnings = Filter.allWarnings fs :=
    List.nil_append _
  rw [hparams, hwarnings]
  refine ⟨rfl, Filter.allWarnings_eq fs rfl, ?_, fun h => ?_⟩
  · exact Filter.render_whereFragment_eq_empty_iff d _ fs
  · rw [Filter.bindValues, Filter.liveComparisons, Filter.allLive_of_warnings_nil fs rfl h]

/-- **Bind values are those of the live comparisons, and nothing is left out without a warning.**
The clause written for any filters binds the values of their live comparisons in order, tells the
unknown operators in order, has text exactly if it binds something, and binds all comparisons if it
tells nothing. So the distinct names of the bind values of a compiled method are always among its
parameters, and if there are no warnings they are its parameters, each once, in the order in which
they appear first. An upsert binds a new primary key, its values, and its values again. -/
theorem clauses_bind_live (d : Dialect) :
    (∀ fs : List Filter,
      let clause := (Builder.start d).whereClause fs
      TellsFilters fs clause.1 clause.2.params clause.2.warnings) ∧
    ∀ m : Model,
      (∀ q : Method,
        let s := compileMethod d m q
        (∀ name ∈ Parameter.distinctNames s.params, name ∈ q.parameters) ∧
        (s.warnings = [] → Parameter.distinctNames s.params = q.parameters.eraseDups)) ∧
      ∀ u : Upsert,
        let values := u.values.map fun a => Parameter.whole a.parameter
        (compileMethod d m (.addOrReplace u)).params = .newId :: (values ++ values) := by
  refine ⟨tellsFilters d, fun m => ⟨fun q => ⟨distinctNames_subset d m q, fun h => ?_⟩, fun u => ?_⟩⟩
  · rw [warnings_compileMethod] at h
    rw [params_compileMethod_eq]
    exact (sameFirst_bindValues h).eraseDups
  · exact params_compileMethod_eq d m (.addOrReplace u)

/-- The comparison in the unknown group is neither bound nor told, the group is told in its place. -/
example :
    let fs : List Filter := [.group .or
      [.compare ⟨"age", none, .between, "ages"⟩, .compare ⟨"name", none, .unknown "~", "name"⟩,
       .group (.unknown "XOR") [.compare ⟨"id", none, .unknown "~", "id"⟩]]]
    Filter.bindValues fs = [.named "ages" (some 0), .named "ages" (some 1)] ∧
      Filter.allWarnings fs = [.unknownOperator "name" "~", .unknownConnective "XOR"] := by
  decide

end Sql

end DataAccess
