import DataAccess.Go.Import
import DataAccess.Proofs.OrderedLists

set_option autoImplicit false

/-! # Sets of imports

The paths of a set of imports are those of the imports it was made of, each once (`paths_ofList`,
`mem_paths_ofList`), and for each path it holds the first of them (`find?_imports_ofList`). Its
dependencies are those of all these imports, also of the ones that came too late for their path
(`mem_dependencies_ofList`, `mem_dependencies_extend`). So a set is determined by the first imports
and by the dependencies (`ofList_eq_iff`). -/

namespace DataAccess.Go

open Ordered (Increasing)

instance : Std.TransCmp Dependency.order :=
  inferInstanceAs (Std.TransCmp
    (compareLex (compareOn Dependency.name) (compareOn Dependency.version)))

instance : Std.LawfulEqCmp Dependency.order where
  eq_of_compare := by
    intro a b h
    obtain ⟨hname, hversion⟩ := Ordering.then_eq_eq.1 h
    cases a
    cases b
    simp_all

namespace ImportSet

/-! ## Paths -/

theorem imports_insert (s : ImportSet) (i : Import) :
    (s.insert i).imports = Ordered.insertBy Import.order i s.imports := by
  rw [insert]
  cases i.dependency <;> rfl

theorem imports_ofList (is : List Import) :
    (ofList is).imports = Ordered.ofListBy Import.order is := by
  have hall (s : ImportSet) : (s.insertAll is).imports =
      is.foldl (fun acc i => Ordered.insertBy Import.order i acc) s.imports := by
    induction is generalizing s with
    | nil => rfl
    | cons i is ih =>
        rw [insertAll, List.foldl_cons, ← insertAll, ih, imports_insert]
        rfl
  exact hall {}

/-- A set of imports has no other ones than those it was made of. -/
theorem ofList_subset (is : List Import) : (ofList is).imports ⊆ is := by
  rw [imports_ofList]
  exact Ordered.ofListBy_subset _ is

theorem paths_ofList (is : List Import) :
    (ofList is).paths = Ordered.ofListBy compare (is.map Import.path) := by
  have horder (a b : Import) : Import.order a b = compare a.path b.path := rfl
  rw [paths, imports_ofList, Ordered.map_ofListBy horder]

theorem mem_paths_ofList {is : List Import} {path : String} :
    path ∈ (ofList is).paths ↔ ∃ i ∈ is, i.path = path := by
  rw [paths_ofList, Ordered.mem_ofListBy, List.mem_map]

theorem nodup_paths_ofList (is : List Import) : (ofList is).paths.Nodup := by
  rw [paths_ofList]
  exact (Ordered.increasing_ofListBy _).nodup

instance : Std.TransCmp Import.order := inferInstanceAs (Std.TransCmp (compareOn Import.path))

theorem increasing_imports_ofList (is : List Import) :
    Increasing Import.order (ofList is).imports := by
  rw [imports_ofList]
  exact Ordered.increasing_ofListBy is

/-- An import beside its path. -/
def keyed (i : Import) : String × Import := (i.path, i)

theorem lookup_map_keyed (is : List Import) (path : String) :
    (is.map keyed).lookup path = is.find? fun i => i.path = path := by
  induction is with
  | nil => rfl
  | cons i is ih =>
      rw [List.map_cons, Ordered.lookup_cons_ite, ih, List.find?_cons]
      by_cases hi : path = i.path <;> simp [keyed, hi, eq_comm]

theorem map_keyed_ofList (is : List Import) :
    (ofList is).imports.map keyed = Ordered.ofListBy Ordered.byKey (is.map keyed) := by
  have horder (a b : Import) : Import.order a b = Ordered.byKey (keyed a) (keyed b) := rfl
  rw [imports_ofList, Ordered.map_ofListBy horder]

/-- What a set holds under a path is the first import with this path. -/
theorem find?_imports_ofList (is : List Import) (path : String) :
    (ofList is).imports.find? (fun i => i.path = path) = is.find? fun i => i.path = path := by
  rw [← lookup_map_keyed, map_keyed_ofList, Ordered.lookup_ofListBy, lookup_map_keyed]

/-- A set holds the first import of every path. -/
theorem mem_imports_ofList {is : List Import} {i : Import} :
    i ∈ (ofList is).imports ↔ is.find? (fun j => j.path = i.path) = some i := by
  have hmem : i ∈ (ofList is).imports ↔ (i.path, i) ∈ (ofList is).imports.map keyed := by
    simp [keyed]
  rw [hmem, map_keyed_ofList, (Ordered.increasing_ofListBy _).mem_iff_lookup,
    Ordered.lookup_ofListBy, lookup_map_keyed]

/-! ## Dependencies -/

theorem dependencies_require (s : ImportSet) (d : Dependency) :
    (s.require d).dependencies = Ordered.insertBy Dependency.order d s.dependencies := rfl

theorem dependencies_insert (s : ImportSet) (i : Import) : (s.insert i).dependencies =
    i.dependency.elim s.dependencies (Ordered.insertBy Dependency.order · s.dependencies) := by
  rw [insert]
  cases i.dependency <;> rfl

/-- A set of imports whose dependencies are in order. -/
def InOrder (s : ImportSet) : Prop := Increasing Dependency.order s.dependencies

theorem inOrder_require {s : ImportSet} (h : s.InOrder) (d : Dependency) : (s.require d).InOrder :=
  Ordered.increasing_insertBy h

theorem inOrder_insert {s : ImportSet} (h : s.InOrder) (i : Import) : (s.insert i).InOrder := by
  rw [InOrder, dependencies_insert]
  cases i.dependency with
  | none => exact h
  | some d => exact Ordered.increasing_insertBy h

theorem inOrder_insertAll {s : ImportSet} (h : s.InOrder) (is : List Import) :
    (s.insertAll is).InOrder := by
  induction is generalizing s with
  | nil => exact h
  | cons i is ih => exact ih (inOrder_insert h i)

theorem inOrder_ofList (is : List Import) : (ofList is).InOrder :=
  inOrder_insertAll (show InOrder {} from Ordered.increasing_nil) is

theorem inOrder_extend {s : ImportSet} (h : s.InOrder) (t : ImportSet) : (s.extend t).InOrder := by
  have hall (ds : List Dependency) {s : ImportSet} (h : s.InOrder) :
      (ds.foldl require s).InOrder := by
    induction ds generalizing s with
    | nil => exact h
    | cons d ds ih => exact ih (inOrder_require h d)
  exact hall _ (inOrder_insertAll h _)

theorem mem_dependencies_insertAll {s : ImportSet} {is : List Import} {d : Dependency} :
    d ∈ (s.insertAll is).dependencies ↔
      d ∈ s.dependencies ∨ ∃ i ∈ is, i.dependency = some d := by
  induction is generalizing s with
  | nil => simp [insertAll]
  | cons i is ih =>
      rw [insertAll, List.foldl_cons, ← insertAll, ih, dependencies_insert]
      cases hi : i.dependency with
      | none => simp [hi]
      | some e =>
          simp only [Option.elim_some, Ordered.mem_insertBy, List.exists_mem_cons_iff, hi,
            Option.some.injEq, eq_comm (a := d)]
          tauto

theorem mem_dependencies_ofList {is : List Import} {d : Dependency} :
    d ∈ (ofList is).dependencies ↔ ∃ i ∈ is, i.dependency = some d := by
  rw [ofList, mem_dependencies_insertAll]
  simp

theorem mem_dependencies_extend {s : ImportSet} {is : List Import} {d : Dependency} :
    d ∈ (s.extend (ofList is)).dependencies ↔
      d ∈ s.dependencies ∨ ∃ i ∈ is, i.dependency = some d := by
  have hrequire (ds : List Dependency) {s : ImportSet} :
      d ∈ (ds.foldl require s).dependencies ↔ d ∈ ds ∨ d ∈ s.dependencies := by
    induction ds generalizing s with
    | nil => simp
    | cons e ds ih =>
        rw [List.foldl_cons, ih, dependencies_require, Ordered.mem_insertBy, List.mem_cons]
        tauto
  rw [extend, hrequire, mem_dependencies_insertAll, mem_dependencies_ofList]
  -- The imports that are left of the list bring no dependency that the list has not.
  have hsubset : (∃ i ∈ (ofList is).imports, i.dependency = some d) →
      ∃ i ∈ is, i.dependency = some d := by
    rintro ⟨i, hi, hd⟩
    exact ⟨i, ofList_subset is hi, hd⟩
  constructor
  · rintro (hd | hd | hd)
    · exact .inr hd
    · exact .inl hd
    · exact .inr (hsubset hd)
  · rintro (hd | hd)
    · exact .inr (.inl hd)
    · exact .inl hd

/-! ## Equal sets -/

/-- Sets that are in order are told by what they hold. -/
theorem eq_of_mem_iff {s t : ImportSet} (hs : Increasing Import.order s.imports)
    (ht : Increasing Import.order t.imports) (hs' : s.InOrder) (ht' : t.InOrder)
    (himports : ∀ i, i ∈ s.imports ↔ i ∈ t.imports)
    (hdependencies : ∀ d, d ∈ s.dependencies ↔ d ∈ t.dependencies) : s = t := by
  calc s = ⟨s.imports, s.dependencies⟩ := rfl
    _ = ⟨t.imports, t.dependencies⟩ := by
      rw [hs.eq_of_mem_iff ht himports, Increasing.eq_of_mem_iff hs' ht' hdependencies]
    _ = t := rfl

/-- Sets of imports are equal if they have the same first import for every path and the same
dependencies. -/
theorem ofList_eq_iff {is js : List Import} : ofList is = ofList js ↔
    (∀ path, is.find? (fun i => i.path = path) = js.find? fun i => i.path = path) ∧
      ∀ d, (∃ i ∈ is, i.dependency = some d) ↔ ∃ j ∈ js, j.dependency = some d := by
  constructor
  · intro h
    refine ⟨fun path => ?_, fun d => ?_⟩
    · rw [← find?_imports_ofList, h, find?_imports_ofList]
    · rw [← mem_dependencies_ofList, h, mem_dependencies_ofList]
  · rintro ⟨hfind, hdependencies⟩
    refine eq_of_mem_iff (increasing_imports_ofList is) (increasing_imports_ofList js)
      (inOrder_ofList is) (inOrder_ofList js) (fun i => ?_) fun d => ?_
    · rw [mem_imports_ofList, mem_imports_ofList, hfind]
    · rw [mem_dependencies_ofList, mem_dependencies_ofList, hdependencies]

end ImportSet

end DataAccess.Go
