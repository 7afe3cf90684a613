import DataAccess.Proofs.ImportSets

set_option autoImplicit false

/-! # Histories of import sets

A set of imports starts empty and grows by single imports and by whole sets, which have grown in
the same way (`ImportSet.Built`). A set that is taken in shows no more than the imports that are
left in it, in the order of their paths, and its dependencies.

That is enough: taking in the set of a list gives the set of the longer list (`extend_ofList`). So
a set is always the one of all imports that were ever inserted, whatever way they took
(`Built.eq_ofList`), and the laws of `extend` are those of appending lists. -/

namespace DataAccess.Go.ImportSet

/-! ## Sets of longer lists -/

theorem insertAll_ofList (is js : List Import) :
    (ofList is).insertAll js = ofList (is ++ js) := by
  unfold ofList insertAll
  rw [List.foldl_append]

theorem imports_extend (s t : ImportSet) :
    (s.extend t).imports = (s.insertAll t.imports).imports := by
  have hrequire (ds : List Dependency) (s : ImportSet) :
      (ds.foldl require s).imports = s.imports := by
    induction ds generalizing s with
    | nil => rfl
    | cons d ds ih => exact ih (s.require d)
  exact hrequire t.dependencies _

/-- **Taking in the set of a list is inserting the list.** -/
theorem extend_ofList (is js : List Import) :
    (ofList is).extend (ofList js) = ofList (is ++ js) := by
  have himports : ((ofList is).extend (ofList js)).imports =
      (ofList (is ++ (ofList js).imports)).imports := by
    rw [imports_extend, insertAll_ofList]
  have hincreasing : Ordered.Increasing Import.order ((ofList is).extend (ofList js)).imports := by
    rw [himports]
    exact increasing_imports_ofList _
  refine eq_of_mem_iff hincreasing (increasing_imports_ofList _)
    (inOrder_extend (inOrder_ofList is) _) (inOrder_ofList _) ?_ ?_
  · -- The set is listed by path, but it has the first import of every path, and only that counts.
    intro i
    rw [himports, mem_imports_ofList, mem_imports_ofList, List.find?_append, List.find?_append,
      find?_imports_ofList]
  · -- An import that came too late has still left its dependency in the set.
    intro d
    rw [mem_dependencies_extend, mem_dependencies_ofList, mem_dependencies_ofList]
    simp only [List.mem_append, or_and_right, exists_or]

/-- Imports that come again come too late. -/
theorem ofList_append_again (is js : List Import) :
    ofList (is ++ js ++ js) = ofList (is ++ js) := by
  apply ofList_eq_iff.2
  constructor
  · intro path
    simp only [List.find?_append, Option.or_assoc, Option.or_self]
  · intro d
    simp only [List.mem_append, or_assoc, or_self]

theorem paths_ofList_increasing (is : List Import) : (ofList is).paths.Pairwise (· < ·) := by
  have hincreasing : Ordered.Increasing compare (ofList is).paths := by
    rw [paths_ofList]
    exact Ordered.increasing_ofListBy _
  exact hincreasing.imp fun hlt => compareOfLessAndEq_eq_lt.1 hlt

/-! ## Sets after any history -/

/-- The sets of imports that can be built, each with all imports that were inserted on the way, in
the order of their insertion. What was inserted into a set comes along where it is taken in. -/
inductive Built : List Import → ImportSet → Prop where
  | empty : Built [] {}
  | insert {is : List Import} {s : ImportSet} (h : Built is s) (i : Import) :
      Built (is ++ [i]) (s.insert i)
  | extend {is js : List Import} {s t : ImportSet} (hs : Built is s) (ht : Built js t) :
      Built (is ++ js) (s.extend t)

/-- A set is always the one of the imports that were inserted. -/
theorem Built.eq_ofList {is : List Import} {s : ImportSet} (h : Built is s) : s = ofList is := by
  induction h with
  | empty => rfl
  | @insert is s _ i ih =>
      rw [ih]
      exact insertAll_ofList is [i]
  | extend _ _ ihs iht => rw [ihs, iht, extend_ofList]

/-- **A set of imports keeps the first of every path, and taking in a set replays its history.**
However a set was built, it has the paths of the imports that were inserted, in increasing order,
and for each path the first import with it. Its dependencies are those of all these imports. Taking
in another set is the same as inserting, one by one and in their order, the imports that the other
set was built of. So it does not matter how sets are grouped when they are taken in, and taking in
a set again changes nothing. -/
theorem union_replays_history {is js ks : List Import} {s t u : ImportSet} (hs : Built is s)
    (ht : Built js t) (hu : Built ks u) :
    (∀ path, s.contains path = true ↔ ∃ i ∈ is, i.path = path) ∧
    (∀ path, s.imports.find? (fun i => i.path = path) = is.find? fun i => i.path = path) ∧
    s.paths.Pairwise (· < ·) ∧
    (∀ d, d ∈ s.dependencies ↔ ∃ i ∈ is, i.dependency = some d) ∧
    Ordered.Increasing Dependency.order s.dependencies ∧
    s.extend t = js.foldl insert s ∧
    (s.extend t).extend u = s.extend (t.extend u) ∧
    s.extend s = s ∧
    (s.extend t).extend t = s.extend t := by
  obtain rfl := hs.eq_ofList
  obtain rfl := ht.eq_ofList
  obtain rfl := hu.eq_ofList
  refine ⟨fun path => ?_, find?_imports_ofList is, paths_ofList_increasing is,
    fun d => mem_dependencies_ofList, inOrder_ofList is, ?_, ?_, ?_, ?_⟩
  · rw [contains, List.contains_iff_mem, mem_paths_ofList]
  · calc (ofList is).extend (ofList js) = ofList (is ++ js) := extend_ofList is js
      _ = js.foldl insert (ofList is) := (insertAll_ofList is js).symm
  · rw [extend_ofList, extend_ofList, extend_ofList, extend_ofList, List.append_assoc]
  · calc (ofList is).extend (ofList is) = ofList ([] ++ is ++ is) := extend_ofList is is
      _ = ofList is := ofList_append_again [] is
  · rw [extend_ofList, extend_ofList, ofList_append_again]

/-- The import of a package, under a name of its own and from a version of its module. -/
def uuidImport (name : Option String) (version : String) : Import :=
  { path := "github.com/google/uuid", localName := name
    dependency := some ⟨"github.com/google/uuid", version⟩ }

/-- Imports with a path that occurs twice, out of order. -/
def shadowingImports : List Import :=
  [uuidImport none "v1.6.0", { path := "context" }, uuidImport (some "guid") "v1.3.0"]

theorem shadowingImports_replayed :
    Built [] {} ∧ Built [{ path := "context", localName := some "ctx" }]
      (insert {} { path := "context", localName := some "ctx" }) ∧
    Built shadowingImports (ofList shadowingImports) ∧
    (insert {} { path := "context", localName := some "ctx" }).extend (ofList shadowingImports) =
      { imports := [{ path := "context", localName := some "ctx" }, uuidImport none "v1.6.0"]
        dependencies :=
          [⟨"github.com/google/uuid", "v1.3.0"⟩, ⟨"github.com/google/uuid", "v1.6.0"⟩] } := by
  have hset : Built [{ path := "context", localName := some "ctx" }]
      (insert {} { path := "context", localName := some "ctx" }) := .insert .empty _
  have hother : Built shadowingImports (ofList shadowingImports) :=
    .insert (.insert (.insert .empty _) _) _
  obtain ⟨-, -, -, -, -, hreplay, -⟩ := union_replays_history hset hother .empty
  exact ⟨.empty, hset, hother, hreplay.trans (by decide +kernel)⟩

end DataAccess.Go.ImportSet
