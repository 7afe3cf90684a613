import DataAccess.Proofs.GeneratedUnits
import DataAccess.Proofs.PackageWrites
import DataAccess.Proofs.WellFormed
import Mathlib.Data.Finset.Card

set_option autoImplicit false

/-! # The files of a package

Every model has a file, which is named after the Go name of the model in snake case. The Go names of
an accepted run differ, but snake case can make one name of two, and it can make the name of the
support file. `FilesApart` excludes that. It is exactly what all files need to have different names
(`nodup_fileNames_iff`). Then each is found under its own name, in the package and on the disk. -/

namespace DataAccess.Naming

open DataAccess.Unicode

theorem slash_not_mem_snakeChars {cs : List Char} (h : '/' ∉ cs) (afterLower : Bool) :
    '/' ∉ snakeChars afterLower cs := by
  induction cs generalizing afterLower with
  | nil => exact h
  | cons c cs ih =>
      obtain ⟨hc, hcs⟩ := not_or.1 (List.mem_cons.not.1 h)
      unfold snakeChars
      split
      · simpa using ih hcs false
      · split
        · simp only [List.mem_append, not_or]
          have hlower : '/' ∉ lower c := fun hmem =>
            hc (eq_of_mem_lower (by decide) (by decide) hmem).symm
          refine ⟨⟨?_, hlower⟩, ih hcs false⟩
          cases afterLower <;> simp
        · simpa using ⟨hc, ih hcs _⟩

end DataAccess.Naming

namespace DataAccess.Generation

open Go (exported isIdentifier)
open Sql (Dialect)
open Validation

/-! ## Names -/

/-- What the file of a model is named after. -/
def fileStem (m : Model) : String := Naming.snake (exported m.name)

/-- The names of the files that every package has. -/
def fixedNames : List String := [supportFileName, schemaFileName, goModFileName]

/-- The names of all files of a package. -/
def fileNames (models : List Model) : List String :=
  (models.map fun m => fileStem m ++ ".go") ++ fixedNames

/-- Models whose files have different names, also from the support file. -/
structure FilesApart (models : List Model) : Prop where
  stems : (models.map fileStem).Nodup
  support : ∀ m ∈ models, fileStem m ≠ "dalgen"

instance (models : List Model) : Decidable (FilesApart models) :=
  decidable_of_iff ((models.map fileStem).Nodup ∧ ∀ m ∈ models, fileStem m ≠ "dalgen")
    ⟨fun h => ⟨h.1, h.2⟩, fun h => ⟨h.stems, h.support⟩⟩

theorem toList_goFile (stem : String) :
    (stem ++ ".go").toList = stem.toList ++ ['.', 'g', 'o'] := by simp

/-- The file of a model has no name with another ending. -/
theorem goFile_ne {name : String} (h : name.toList.getLast? ≠ some 'o') (stem : String) :
    stem ++ ".go" ≠ name := by
  rintro rfl
  exact h (by simp)

/-- The file of a model is never the schema or the module file, only their endings count. -/
theorem goFile_mem_fixedNames {stem : String} : stem ++ ".go" ∈ fixedNames ↔ stem = "dalgen" := by
  have hschema : stem ++ ".go" ≠ schemaFileName := goFile_ne (by decide) stem
  have hmod : stem ++ ".go" ≠ goModFileName := goFile_ne (by decide) stem
  have hsupport : supportFileName = "dalgen" ++ ".go" := by decide
  simp only [fixedNames, List.mem_cons, List.not_mem_nil, hschema, hmod, or_false]
  rw [hsupport, String.append_left_inj]

theorem nodup_fileNames_iff {models : List Model} :
    (fileNames models).Nodup ↔ FilesApart models := by
  have hmap : models.map (fun m => fileStem m ++ ".go") =
      (models.map fileStem).map (· ++ ".go") := by
    rw [List.map_map, Function.comp_def]
  have hstems : ((models.map fileStem).map (· ++ ".go")).Nodup ↔ (models.map fileStem).Nodup :=
    List.nodup_map_iff fun _ _ h => (String.append_left_inj _).1 h
  rw [fileNames, List.nodup_append, hmap, hstems]
  constructor
  · rintro ⟨hnodup, -, hnew⟩
    refine ⟨hnodup, fun m hm hstem => ?_⟩
    have hmem : fileStem m ++ ".go" ∈ fixedNames := goFile_mem_fixedNames.2 hstem
    exact hnew _ (List.mem_map_of_mem (List.mem_map_of_mem hm)) _ hmem rfl
  · intro h
    refine ⟨h.stems, by decide, ?_⟩
    rintro name hname _ hfixed rfl
    obtain ⟨stem, hstem, rfl⟩ := List.mem_map.1 hname
    obtain ⟨m, hm, rfl⟩ := List.mem_map.1 hstem
    exact h.support m hm (goFile_mem_fixedNames.1 hfixed)

/-- The names of files are names of entries: no name leads into another directory. -/
theorem isEntry_fileNames {models : List Model}
    (h : ∀ m ∈ models, isIdentifier (exported m.name) = true) :
    ∀ name ∈ fileNames models, Path.IsEntry name := by
  intro name hname
  rcases List.mem_append.1 hname with hname | hname
  · obtain ⟨m, hm, rfl⟩ := List.mem_map.1 hname
    have hparts := Go.all_part_of_identifierShape (Go.identifierShape_of_isIdentifier (h m hm))
    have hslash : '/' ∉ (exported m.name).toList := by
      intro hmem
      have hpart := List.all_eq_true.1 hparts _ hmem
      rw [Go.isIdentifierPart_ascii (by decide)] at hpart
      exact absurd hpart (by decide)
    have hchars := toList_goFile (fileStem m)
    -- The ending tells the name from the two that stand for directories.
    constructor
    · rw [hchars]
      simp
    · rw [hchars, fileStem, Naming.snake, String.toList_ofList, List.mem_append, not_or]
      exact ⟨Naming.slash_not_mem_snakeChars hslash false, by decide⟩
    · intro heq
      have hlast := congrArg (fun s => s.toList.getLast?) heq
      simp [hchars, Path.here] at hlast
    · intro heq
      have hlast := congrArg (fun s => s.toList.getLast?) heq
      simp [hchars, Path.above] at hlast
  · simp only [fixedNames, List.mem_cons, List.not_mem_nil, or_false] at hname
    rcases hname with rfl | rfl | rfl <;> exact ⟨by decide, by decide, by decide, by decide⟩

/-! ## Generated files -/

/-- The file of a unit is named after its model. -/
theorem fileName_modelUnit {r : Registry} {m : Model} {m' : Resolved} {d : Dialect}
    {u : ModelUnit} (hm : resolveModel r m = .ok m') (hu : modelUnit d m' = .ok u) :
    u.fileName = fileStem m ++ ".go" := by
  unfold ModelUnit.fileName
  rw [goName_modelUnit hu, (resolveModel_ok hm).1, fileStem]

theorem fileNames_units {r : Registry} {d : Dialect} {models : List Model}
    {resolved : List Resolved} {units : List ModelUnit}
    (hmodels : List.Forall₂ (fun m m' => resolveModel r m = .ok m') models resolved)
    (hunits : List.Forall₂ (fun m' u => modelUnit d m' = .ok u) resolved units) :
    units.map ModelUnit.fileName = models.map fun m => fileStem m ++ ".go" := by
  induction hmodels generalizing units with
  | nil =>
      cases hunits
      rfl
  | cons hm _ ih =>
      cases hunits with
      | cons hu hus => rw [List.map_cons, List.map_cons, ih hus, fileName_modelUnit hm hu]

/-- Accepted models are generated, each into a file of its name. -/
theorem generate_ok {models : List Model} {r : Registry} {resolved : List Resolved}
    (h : validate models r = .ok resolved) (package modulePath : String) (d : Dialect) :
    ∃ units p, resolved.mapM (modelUnit d) = .ok units ∧
      generate package modulePath d resolved = .ok p ∧
      (∀ u ∈ units, unitFile package u ∈ p.files) ∧
      p.files.map TextFile.name = fileNames models := by
  obtain ⟨-, -, hmodels⟩ := validate_ok h
  obtain ⟨units, hunits⟩ := modelUnits_ok d resolved
  obtain ⟨support, -, hgenerate⟩ := generate_of_units hunits package modulePath
  refine ⟨units, _, mapM_eq_ok.2 hunits, hgenerate, ?_, ?_⟩
  · intro u hu
    exact List.mem_append_left _ (List.mem_map_of_mem hu)
  · rw [fileNames, ← fileNames_units hmodels hunits, List.map_append, List.map_map]
    rfl

/-- Among files with different names each is the only one with its name. -/
theorem find?_name {files : List TextFile} (h : (files.map TextFile.name).Nodup) {f : TextFile}
    (hf : f ∈ files) : files.find? (·.name == f.name) = some f := by
  induction files with
  | nil => cases hf
  | cons g files ih =>
      obtain ⟨hg, hfiles⟩ := List.nodup_cons.1 h
      rcases List.mem_cons.1 hf with rfl | hf
      · simp
      · have hne : g.name ≠ f.name := by
          intro heq
          exact hg (heq ▸ List.mem_map_of_mem hf)
        rw [List.find?_cons_of_neg (by simpa using hne)]
        exact ih hfiles hf

theorem file?_of_nodup {p : GeneratedPackage} (h : (p.files.map TextFile.name).Nodup)
    {f : TextFile} (hf : f ∈ p.files) : p.file? f.name = some f.text := by
  rw [GeneratedPackage.file?, find?_name h hf]
  rfl

theorem lastFile?_of_nodup {files : List TextFile} (h : (files.map TextFile.name).Nodup)
    {f : TextFile} (hf : f ∈ files) : Compiler.lastFile? files f.name = some f := by
  apply find?_name _ (List.mem_reverse.2 hf)
  rw [List.map_reverse]
  exact List.nodup_reverse.2 h

/-! ## Written files -/

theorem join_injective (dir : String) : Function.Injective (Path.join dir) := by
  intro a b h
  unfold Path.join at h
  split at h
  · exact h
  · split at h
    · exact (String.append_right_inj _).1 h
    · exact (String.append_right_inj _).1 h

/-- The different paths that the files of a package are written to. -/
def writtenPaths (dir : String) (files : List TextFile) : Finset String :=
  (files.map fun f => Path.join dir f.name).toFinset

/-- There is a path for every file exactly if the files have different names. -/
theorem card_writtenPaths (dir : String) (files : List TextFile) :
    (writtenPaths dir files).card = files.length ↔ (files.map TextFile.name).Nodup := by
  have hpaths : (files.map fun f => Path.join dir f.name) =
      (files.map TextFile.name).map (Path.join dir) := by
    rw [List.map_map, Function.comp_def]
  have hlength : files.length = ((files.map TextFile.name).map (Path.join dir)).length := by simp
  rw [writtenPaths, hpaths, ← List.nodup_map_iff (join_injective dir), hlength]
  constructor
  · intro hcard
    exact Multiset.coe_nodup.1 (Multiset.toFinset_card_eq_card_iff_nodup.1 hcard)
  · exact List.toFinset_card_of_nodup

/-! ## Compiled packages -/

/-- What a run reports and leaves on the disk, once its models are resolved. -/
theorem compile_files {c : Config} {disk disk' : Disk} {d : Dialect} {resolved : List Resolved}
    {p : GeneratedPackage} {report : Report} (hd : Dialect.parse c.dialect = .ok d)
    (hresolve : Compiler.resolve c disk = .ok resolved)
    (hp : generate c.package c.modulePath d resolved = .ok p)
    (h : Compiler.compile c disk = (.ok report, disk')) :
    report.files = p.files.length ∧
      Compiler.writePackage c.outDir disk p.files = (.ok (), disk') := by
  obtain ⟨found, hgenerate, hfound⟩ : ∃ found, Compiler.generate c disk = .ok (p, found) ∧
      found.files = p.files.length := by
    rw [Compiler.generate]
    exact ⟨_, bind_eq_ok.2 ⟨d, hd, bind_eq_ok.2 ⟨resolved, hresolve,
      bind_eq_ok.2 ⟨p, hp, rfl⟩⟩⟩, rfl⟩
  obtain ⟨p', hgenerate', hwrite⟩ := Compiler.compile_eq_ok_iff.1 h
  rw [hgenerate] at hgenerate'
  cases hgenerate'
  exact ⟨hfound, hwrite⟩

/-- What a run leaves of the files of a package. -/
structure RunKeeps (c : Config) (models : List Model) (p : GeneratedPackage) (report : Report)
    (disk' : Disk) : Prop where
  /-- Only if the models are apart, as many files are written as are reported. -/
  count : report.files = (writtenPaths c.outDir p.files).card ↔ FilesApart models
  /-- Of the files with one name the last is on the disk. -/
  last : ∀ f ∈ p.files, disk'.find? (Path.join c.outDir f.name) =
    (Compiler.lastFile? p.files f.name).map fun g => .file (some g.text)
  /-- If the models are apart, every file is on the disk. -/
  every : FilesApart models → ∀ f ∈ p.files,
    disk'.find? (Path.join c.outDir f.name) = some (.file (some f.text))

/-- **Exactly if the models are apart, no generated file overwrites another.** An accepted run is
generated, with a file for every model and three more. Their names differ exactly if the models are
apart, and then every model finds its own file, in the package and on the disk. -/
theorem files_apart_iff {models : List Model} {r : Registry} {resolved : List Resolved}
    (h : validate models r = .ok resolved) (c : Config) (d : Dialect) :
    ∃ units p, resolved.mapM (modelUnit d) = .ok units ∧
      generate c.package c.modulePath d resolved = .ok p ∧
      p.files.map TextFile.name = fileNames models ∧
      ((p.files.map TextFile.name).Nodup ↔ FilesApart models) ∧
      (FilesApart models → ∀ u ∈ units,
        p.file? u.fileName = some (u.sourceFile c.package).render) ∧
      ∀ disk report disk', disk.AtHome → Dialect.parse c.dialect = .ok d →
        Compiler.resolve c disk = .ok resolved →
        Compiler.compile c disk = (.ok report, disk') → RunKeeps c models p report disk' := by
  obtain ⟨units, p, hunits, hp, hfiles, hnames⟩ := generate_ok h c.package c.modulePath d
  have hnodup : (p.files.map TextFile.name).Nodup ↔ FilesApart models := by
    rw [hnames, nodup_fileNames_iff]
  refine ⟨units, p, hunits, hp, hnames, hnodup, ?_, ?_⟩
  · intro hapart u hu
    exact file?_of_nodup (hnodup.2 hapart) (hfiles u hu)
  · intro disk report disk' hhome hd hresolve hcompile
    obtain ⟨hreport, hwrite⟩ := compile_files hd hresolve hp hcompile
    have hentries : ∀ f ∈ p.files, Path.IsEntry f.name := by
      intro f hf
      apply isEntry_fileNames (validate_eq_ok_iff.1 h).1.structs
      rw [← hnames]
      exact List.mem_map_of_mem hf
    have hfind := Compiler.writePackage_find hhome hentries hwrite
    refine ⟨?_, hfind, ?_⟩
    · rw [hreport, eq_comm, card_writtenPaths, hnodup]
    · intro hapart f hf
      rw [hfind f hf, lastFile?_of_nodup (hnodup.2 hapart) hf]
      rfl

/-- A disk with two models whose files come close to each other. -/
def apartDisk : Disk :=
  { root := .dir [("models", .dir
      [("first.json", .file (some "\x7b\"name\": \"user_id\"\x7d")),
       ("second.json", .file (some "\x7b\"name\": \"user_ids\"\x7d"))])] }

theorem apartDisk_keeps :
    ∃ set resolved p report disk', ModelSet.load apartDisk "models" = .ok set ∧
      validate set.models set.registry = .ok resolved ∧ FilesApart set.models ∧
      generate "dal" "example.com/dal" .postgres resolved = .ok p ∧
      (p.files.map TextFile.name).Nodup ∧
      Compiler.compile {} apartDisk = (.ok report, disk') ∧
      RunKeeps {} set.models p report disk' := by
  have hok : (Compiler.resolve {} apartDisk).isOk = true := by decide +kernel
  have hrun : (Compiler.compile {} apartDisk).1.isOk = true := by decide +kernel
  have hload : ((ModelSet.load apartDisk "models").toOption.any fun set =>
      decide (FilesApart set.models)) = true := by decide +kernel
  obtain ⟨resolved, hresolve⟩ := exists_ok_of_isOk hok
  obtain ⟨set, hset, hvalidate⟩ := bind_eq_ok.1 hresolve
  obtain ⟨units, p, -, hp, -, hnodup, -, hkeeps⟩ := files_apart_iff hvalidate {} .postgres
  have hapart : FilesApart set.models := by
    rw [show ModelSet.load apartDisk "models" = .ok set from hset] at hload
    exact of_decide_eq_true hload
  cases hcompile : Compiler.compile {} apartDisk with
  | mk result disk' =>
      rw [hcompile] at hrun
      obtain ⟨report, rfl⟩ := exists_ok_of_isOk hrun
      exact ⟨set, resolved, p, report, disk', hset, hvalidate, hapart, hp, hnodup.2 hapart, rfl,
        hkeeps apartDisk report disk' ⟨_, rfl⟩ rfl hresolve hcompile⟩

/-- Two models with different Go names, `AB` and `Ab`, and one file name. -/
def clashingModels : List Model := [{ name := "a_b" }, { name := "ab" }]

theorem clashingModels_overwrite :
    ∃ resolved p, validate clashingModels {} = .ok resolved ∧
      generate "dal" "example.com/dal" .postgres resolved = .ok p ∧
      ¬ (p.files.map TextFile.name).Nodup := by
  obtain ⟨resolved, h⟩ : ∃ resolved, validate clashingModels {} = .ok resolved := by
    apply exists_ok_of_isOk
    decide +kernel
  obtain ⟨units, p, -, hp, -, hnames⟩ := generate_ok h "dal" "example.com/dal" .postgres
  refine ⟨resolved, p, h, hp, ?_⟩
  rw [hnames, nodup_fileNames_iff]
  decide +kernel

end DataAccess.Generation
