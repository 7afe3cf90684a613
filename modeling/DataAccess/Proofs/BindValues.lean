import DataAccess.Proofs.Fragments
import Mathlib.Data.List.Basic

set_option autoImplicit false

/-! # The bind values of a statement

Every bind value of a compiled method is a parameter of the method, or an element of one, or the
primary key of a new row (`mem_params_compileMethod`, `newId_mem_params_iff`). The names under which the caller knows them
are listed in the order of their first appearance (`pairwise_distinctNames`). -/

namespace DataAccess

/-- Whether methods of a kind insert rows. -/
def MethodKind.inserts : MethodKind → Bool
  | .add => true
  | .addOrReplace => true
  | .find => false
  | .update => false
  | .delete => false

end DataAccess

namespace DataAccess.Sql

/-! ## First appearances -/

/-- Leaving elements out keeps the order in which the others appear first. -/
theorem idxOf_lt_of_filter {p : String → Bool} {as : List String} {b c : String} (hb : p b = true)
    (hc : p c = true) (h : (as.filter p).idxOf b < (as.filter p).idxOf c) :
    as.idxOf b < as.idxOf c := by
  induction as with
  | nil => simp at h
  | cons a as ih =>
      by_cases ha : p a = true
      · rw [List.filter_cons_of_pos ha] at h
        by_cases hac : a = c
        · rw [hac, List.idxOf_cons_self] at h
          cases h
        · rw [List.idxOf_cons_ne _ hac] at h ⊢
          by_cases hab : a = b
          · rw [hab, List.idxOf_cons_self]
            omega
          · rw [List.idxOf_cons_ne _ hab] at h ⊢
            have hlt := ih (by omega)
            omega
      · have hab : a ≠ b := by
          rintro rfl
          exact ha hb
        have hac : a ≠ c := by
          rintro rfl
          exact ha hc
        rw [List.filter_cons_of_neg ha] at h
        have hlt := ih h
        rw [List.idxOf_cons_ne _ hab, List.idxOf_cons_ne _ hac]
        omega

/-- Without repetitions, elements stand in the order of their first appearance. -/
theorem pairwise_eraseDups (as : List String) :
    as.eraseDups.Pairwise fun b c => as.idxOf b < as.idxOf c := by
  match as with
  | [] => exact .nil
  | a :: as =>
      -- The head appears before everything else. The others come from the list without the head,
      -- in which first appearances have the same order as in the whole list.
      have ih := pairwise_eraseDups (as.filter fun b => !b == a)
      have hne : ∀ b ∈ (as.filter fun b => !b == a).eraseDups, a ≠ b := by
        intro b hb
        rintro rfl
        simpa using (List.mem_filter.1 (List.mem_eraseDups.1 hb)).2
      rw [List.eraseDups_cons, List.pairwise_cons]
      refine ⟨fun b hb => ?_, ih.imp_of_mem fun {b c} hb hc hlt => ?_⟩
      · rw [List.idxOf_cons_self, List.idxOf_cons_ne _ (hne b hb)]
        omega
      · have hb' := (List.mem_filter.1 (List.mem_eraseDups.1 hb)).2
        have hc' := (List.mem_filter.1 (List.mem_eraseDups.1 hc)).2
        have hlt' := idxOf_lt_of_filter hb' hc' hlt
        rw [List.idxOf_cons_ne _ (hne b hb), List.idxOf_cons_ne _ (hne c hc)]
        omega
termination_by as.length
decreasing_by exact Nat.lt_succ_of_le (List.length_filter_le _ _)

theorem mem_distinctNames {params : List Parameter} {name : String} :
    name ∈ Parameter.distinctNames params ↔ ∃ p ∈ params, p.name? = some name := by
  rw [Parameter.distinctNames, List.mem_eraseDups, List.mem_filterMap]

/-- The distinct names stand in the order of their first appearance. -/
theorem pairwise_distinctNames (params : List Parameter) :
    (Parameter.distinctNames params).Pairwise fun a b =>
      (params.filterMap Parameter.name?).idxOf a < (params.filterMap Parameter.name?).idxOf b :=
  pairwise_eraseDups _

theorem nodup_distinctNames (params : List Parameter) :
    (Parameter.distinctNames params).Nodup :=
  (pairwise_distinctNames params).imp fun {a b} hlt heq => by
    rw [heq] at hlt
    exact Nat.lt_irrefl _ hlt

/-! ## Filters -/

mutual

/-- A filter binds the parameters of its comparisons only. -/
theorem mem_params_filter (d : Dialect) : ∀ {f : Filter} {p : Parameter},
    p ∈ (leftFragment d f.condition?).params → ∃ c ∈ f.comparisons, p.name? = some c.parameter
  | .compare c, p, h => by
      refine ⟨c, List.mem_cons_self, ?_⟩
      obtain ⟨attr, transformation, op, parameter⟩ := c
      -- A range binds its parameter twice, every other operator once.
      cases op with
      | unknown s => cases h
      | between =>
          rcases List.mem_cons.1 h with rfl | h
          · rfl
          · rw [List.mem_singleton.1 h]
            rfl
      | _ =>
          rw [List.mem_singleton.1 h]
          rfl
  | .group op fs, p, h => by
      rw [Filter.condition?] at h
      cases hj : op.junction? with
      | none => rw [hj] at h; cases h
      | some j =>
          rw [hj, Option.bind_some, params_join?] at h
          exact mem_params_filters d h

theorem mem_params_filters (d : Dialect) : ∀ {fs : List Filter} {p : Parameter},
    p ∈ (leftFragments d fs).flatMap Fragment.params →
      ∃ c ∈ Filter.allComparisons fs, p.name? = some c.parameter
  | [], p, h => by cases h
  | f :: fs, p, h => by
      rw [leftFragments, Filter.conditions, List.map_append, List.flatMap_append,
        List.mem_append] at h
      rcases h with h | h
      · obtain ⟨c, hc, hp⟩ := mem_params_filter d (f := f) (by
          cases hf : f.condition? with
          | none => rw [hf] at h; cases h
          | some c => rw [hf] at h; simpa [leftFragment] using h)
        exact ⟨c, List.mem_append_left _ hc, hp⟩
      · obtain ⟨c, hc, hp⟩ := mem_params_filters d h
        exact ⟨c, List.mem_append_right _ hc, hp⟩

end

/-- A WHERE clause binds the parameters of its comparisons only. -/
theorem mem_params_whereTail {d : Dialect} {fs : List Filter} {p : Parameter}
    (h : p ∈ (whereTail d fs).params) :
    ∃ c ∈ Filter.allComparisons fs, p.name? = some c.parameter := by
  have hleft : p ∈ (leftFragment d (Filter.allCondition? fs)).params := by
    rw [whereTail_eq] at h
    cases hc : Filter.allCondition? fs with
    | none => rw [hc] at h; cases h
    | some c => rw [hc] at h; exact h
  match fs with
  | [] => cases hleft
  | [f] =>
      obtain ⟨c, hc, hp⟩ := mem_params_filter d hleft
      exact ⟨c, List.mem_append_left _ hc, hp⟩
  | f :: g :: fs =>
      have hjoin : p ∈ (leftFragment d
          (Condition.join? .and (Filter.conditions (f :: g :: fs)))).params := hleft
      rw [params_join?] at hjoin
      exact mem_params_filters d hjoin

/-! ## Methods -/

/-- Assignments bind their parameters. -/
theorem mem_params_assignments {as : List Assignment} {p : Parameter}
    (h : p ∈ as.map fun a => Parameter.whole a.parameter) :
    ∃ name ∈ as.map Assignment.parameter, p.name? = some name := by
  obtain ⟨a, ha, rfl⟩ := List.mem_map.1 h
  exact ⟨a.parameter, List.mem_map_of_mem ha, rfl⟩

theorem params_insertFragment (m : Model) (values : List Assignment) :
    (insertFragment m values).params = insertParameters values := by
  rw [insertFragment, List.cons_append, Fragment.params, Fragment.params_append, slots,
    Fragment.params_join, Fragment.params_slots]
  exact List.append_nil _

theorem mem_params_insert {m : Model} {values : List Assignment} {p : Parameter}
    (h : p ∈ (insertFragment m values).params) :
    p = .newId ∨ ∃ name ∈ values.map Assignment.parameter, p.name? = some name := by
  rw [params_insertFragment, insertParameters] at h
  rcases List.mem_cons.1 h with hid | hvalue
  · exact .inl hid
  · exact .inr (mem_params_assignments hvalue)

theorem params_compileMethod (d : Dialect) (m : Model) (q : Method) :
    (compileMethod d m q).params = (methodFragment d m q).params := List.nil_append _

/-- Every bind value of a compiled method is the new primary key or comes from a parameter. -/
theorem mem_params_compileMethod {d : Dialect} {m : Model} {q : Method} {p : Parameter}
    (h : p ∈ (compileMethod d m q).params) :
    p = .newId ∨ ∃ name ∈ q.parameters, p.name? = some name := by
  have hassigned : (∃ name ∈ q.assignments.map Assignment.parameter, p.name? = some name) →
      ∃ name ∈ q.parameters, p.name? = some name := by
    rintro ⟨name, hname, hp⟩
    exact ⟨name, List.mem_append_left _ hname, hp⟩
  have hcompared : p ∈ (whereTail d q.filters).params →
      ∃ name ∈ q.parameters, p.name? = some name := by
    intro htail
    obtain ⟨c, hc, hp⟩ := mem_params_whereTail htail
    exact ⟨c.parameter, List.mem_append_right _ (List.mem_map_of_mem hc), hp⟩
  rw [params_compileMethod] at h
  cases q with
  | find q => exact .inr (hcompared h)
  | update q =>
      simp only [methodFragment, List.cons_append, Fragment.params, Fragment.params_append,
        params_setFragment, List.mem_append] at h
      rcases h with hset | htail
      · exact .inr (hassigned (mem_params_assignments hset))
      · exact .inr (hcompared htail)
  | add q =>
      simp only [methodFragment, Fragment.params_append, Fragment.params, List.append_nil] at h
      exact (mem_params_insert h).imp_right hassigned
  | addOrReplace q =>
      simp only [methodFragment, Fragment.params_append, Fragment.params, params_setFragment,
        List.append_nil, List.mem_append] at h
      rcases h with hinsert | hset
      · exact (mem_params_insert hinsert).imp_right hassigned
      · exact .inr (hassigned (mem_params_assignments hset))
  | delete q => exact .inr (hcompared h)

/-- Methods that insert a row make its primary key, no others do. -/
theorem newId_mem_params_iff {d : Dialect} {m : Model} {q : Method} :
    Parameter.newId ∈ (compileMethod d m q).params ↔ q.kind.inserts = true := by
  have htail : ∀ fs, Parameter.newId ∉ (whereTail d fs).params := by
    intro fs h
    obtain ⟨c, -, hc⟩ := mem_params_whereTail h
    cases hc
  have hset : ∀ as : List Assignment,
      Parameter.newId ∉ as.map fun a => Parameter.whole a.parameter := by
    intro as h
    obtain ⟨name, -, hname⟩ := mem_params_assignments h
    cases hname
  have hinsert : ∀ values, Parameter.newId ∈ (insertFragment m values).params := by
    intro values
    rw [params_insertFragment]
    exact List.mem_cons_self
  rw [params_compileMethod]
  cases q with
  | find q => simpa [methodFragment, Fragment.params, Method.kind, MethodKind.inserts] using htail _
  | update q =>
      simpa [methodFragment, Fragment.params, Fragment.params_append, params_setFragment,
        Method.kind, MethodKind.inserts] using ⟨by simpa using hset _, htail _⟩
  | add q =>
      simpa [methodFragment, Fragment.params_append, Method.kind, MethodKind.inserts]
        using .inl (hinsert _)
  | addOrReplace q =>
      simpa [methodFragment, Fragment.params_append, Method.kind, MethodKind.inserts]
        using .inl (hinsert _)
  | delete q =>
      simpa [methodFragment, Fragment.params, Method.kind, MethodKind.inserts] using htail _

/-- The caller's names for the bind values are among the parameters of the method. -/
theorem distinctNames_subset (d : Dialect) (m : Model) (q : Method) :
    ∀ name ∈ Parameter.distinctNames (compileMethod d m q).params, name ∈ q.parameters := by
  intro name hname
  obtain ⟨p, hp, hpname⟩ := mem_distinctNames.1 hname
  rcases mem_params_compileMethod hp with rfl | ⟨name', hmem, hname'⟩
  · cases hpname
  · rw [hpname] at hname'
    cases hname'
    exact hmem

end DataAccess.Sql
