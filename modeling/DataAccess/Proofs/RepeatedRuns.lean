import DataAccess.Proofs.FileNames
import DataAccess.Proofs.SourceFiles

set_option autoImplicit false

/-! # Runs that are repeated

A run writes nothing before everything is generated, and then only files with the names of generated
ones, into one directory. None of them is a source, so the models stay as they are
(`writePackage_leaves`), and a run that is repeated generates the same package and changes nothing
(`compile_again_iff`). The exception is a directory that the first run made inside the model
directory, if its path from there is too long for it to be opened. -/

namespace DataAccess

/-! ## Names -/

namespace Path

/-- The extension of a name that is put together. -/
theorem extension?_append {stem ext : String} (hext : '.' ∉ ext.toList) :
    extension? (stem ++ "." ++ ext) = if stem = "" then none else some ext := by
  have hreverse : (stem ++ "." ++ ext).toList.reverse =
      ext.toList.reverse ++ '.' :: stem.toList.reverse := by
    simp
  have hnot : ∀ c ∈ ext.toList.reverse, (c != '.') = true := by
    intro c hc
    rw [bne_iff_ne]
    rintro rfl
    exact hext (List.mem_reverse.1 hc)
  unfold extension?
  dsimp only
  rw [hreverse, List.dropWhile_append_of_pos hnot, List.takeWhile_append_of_pos hnot]
  cases hstem : stem.toList.reverse with
  | nil =>
      have hempty : stem = "" := by simpa using hstem
      simp [hempty]
  | cons c cs =>
      have hne : stem ≠ "" := by
        rintro rfl
        cases hstem
      simp [hne]

end Path

namespace Compiler

open Generation (TextFile GeneratedPackage fileNames fixedNames)
open Sql (Dialect)
open Validation (bind_eq_ok)

/-- A name that a generated file can have. -/
structure OutputName (name : String) : Prop where
  entry : Path.IsEntry name
  ending : ∃ stem, ∃ ext ∈ ["go", "sql", "mod"], name = stem ++ "." ++ ext

theorem OutputName.extension {name : String} (h : OutputName name) :
    Path.extension? name ≠ some "json" := by
  obtain ⟨stem, ext, hext, rfl⟩ := h.ending
  have hdot : ∀ ext ∈ ["go", "sql", "mod"], '.' ∉ ext.toList ∧ ext ≠ "json" := by decide
  rw [Path.extension?_append (hdot ext hext).1]
  split
  · simp
  · simpa using (hdot ext hext).2

theorem OutputName.ne_json {name : String} (h : OutputName name) (stem : String) :
    name ≠ stem ++ ".json" := by
  obtain ⟨stem', ext, hext, rfl⟩ := h.ending
  intro heq
  have hlast := congrArg (fun s => s.toList.getLast?) heq
  simp only [List.mem_cons, List.not_mem_nil, or_false] at hext
  rcases hext with rfl | rfl | rfl <;> simp at hlast

theorem outputName_fileNames {models : List Model}
    (h : ∀ m ∈ models, Go.isIdentifier (Go.exported m.name) = true) :
    ∀ name ∈ fileNames models, OutputName name := by
  intro name hname
  refine ⟨Generation.isEntry_fileNames h name hname, ?_⟩
  rcases List.mem_append.1 hname with hname | hname
  · obtain ⟨m, -, rfl⟩ := List.mem_map.1 hname
    exact ⟨Generation.fileStem m, "go", by decide, by rw [String.append_assoc]; rfl⟩
  · simp only [fixedNames, List.mem_cons, List.not_mem_nil, or_false] at hname
    rcases hname with rfl | rfl | rfl
    · exact ⟨"dalgen", "go", by decide, by decide⟩
    · exact ⟨"schema", "sql", by decide, by decide⟩
    · exact ⟨"go", "mod", by decide, by decide⟩

/-- A generated package has files, and all are named as such. -/
theorem generate_names {c : Config} {disk : Disk} {package : GeneratedPackage} {report : Report}
    (h : generate c disk = .ok (package, report)) :
    (∃ set, ModelSet.load disk c.modelDir = .ok set) ∧ package.files ≠ [] ∧
      ∀ f ∈ package.files, OutputName f.name := by
  rw [generate] at h
  obtain ⟨d, -, h⟩ := bind_eq_ok.1 h
  obtain ⟨resolved, hresolve, h⟩ := bind_eq_ok.1 h
  obtain ⟨p, hp, h⟩ := bind_eq_ok.1 h
  obtain ⟨set, hset, hvalidate⟩ := bind_eq_ok.1 hresolve
  obtain ⟨-, p', -, hp', -, hnames⟩ :=
    Generation.generate_ok hvalidate c.package c.modulePath d
  rw [hp] at hp'
  cases hp'
  cases h
  refine ⟨⟨set, hset⟩, ?_, fun f hf => ?_⟩
  · intro hnil
    rw [hnil] at hnames
    simp [fileNames, fixedNames] at hnames
  · apply outputName_fileNames (Validation.validate_eq_ok_iff.1 hvalidate).1.structs
    rw [← hnames]
    exact List.mem_map_of_mem hf

/-! ## Written packages -/

variable {dir : String} {disk : Disk} {es : List (String × Tree)} {files : List TextFile}

theorem entryChange_writtenEntries (hnames : ∀ f ∈ files, OutputName f.name)
    (hfit : ∀ f ∈ files, Disk.Fits dir es f.name) (name : String) :
    Tree.EntryChange name (es.lookup name) ((writtenEntries files es).lookup name) := by
  rw [lookup_writtenEntries]
  cases hlast : lastFile? files name with
  | none => exact .same _
  | some f =>
      obtain ⟨hf, rfl⟩ := mem_of_lastFile? hlast
      exact .written _ (hnames f hf).extension (hfit f hf).free

/-- What a run leaves of a disk that is to hold its package in a directory. -/
structure LeavesInputs (dir : String) (disk after : Disk) : Prop where
  /-- A text that changes stands directly in the directory, under a name of generated files. -/
  changed : ∀ p, after.root.text? p ≠ disk.root.text? p → ∃ place es name,
    after.LeadsTo dir place es ∧ p = place ++ [name] ∧ OutputName name
  /-- So no model and no registry changes, wherever it stands. -/
  inputs : ∀ p stem, after.root.text? (p ++ [stem ++ ".json"]) =
    disk.root.text? (p ++ [stem ++ ".json"])

/-- Texts that change only under the names of generated files are no inputs. -/
theorem LeavesInputs.of_changed {dir : String} {disk after : Disk}
    (h : ∀ p, after.root.text? p ≠ disk.root.text? p → ∃ place es name,
      after.LeadsTo dir place es ∧ p = place ++ [name] ∧ OutputName name) :
    LeavesInputs dir disk after := by
  refine ⟨h, fun p stem => ?_⟩
  by_contra hne
  obtain ⟨place, es, name, -, hp, hname⟩ := h _ hne
  obtain ⟨-, hlast⟩ := List.append_inj' hp rfl
  exact hname.ne_json stem (List.singleton_inj.1 hlast).symm

theorem LeavesInputs.refl (dir : String) (disk : Disk) : LeavesInputs dir disk disk :=
  .of_changed fun _ hp => absurd rfl hp

/-- Files that are written leave the sources and every text but their own. -/
theorem writeFiles_leaves (hhome : disk.AtHome) (hnames : ∀ f ∈ files, OutputName f.name) :
    disk.KeepsSources (writeFiles dir disk files).2 ∧
      LeavesInputs dir disk (writeFiles dir disk files).2 := by
  have hentries : ∀ f ∈ files, Path.IsEntry f.name := fun f hf => (hnames f hf).entry
  by_cases hleads : ∃ place es, disk.LeadsTo dir place es
  · obtain ⟨place, es, hleads⟩ := hleads
    obtain ⟨done, rest, rfl, hfit, -, -, hafter, -⟩ := writeFiles_graft hhome hleads hentries
    have hnames : ∀ f ∈ done, OutputName f.name := fun f hf =>
      hnames f (List.mem_append_left _ hf)
    have hchange := entryChange_writtenEntries hnames hfit
    have hkeeps := Disk.keepsSources_graft hleads.directory hchange
    rw [hafter]
    refine ⟨hkeeps, .of_changed fun p hp => ?_⟩
    rcases Tree.text?_refill hleads.directory hchange p with ⟨name, text, rfl, hne, -⟩ | hsame
    · -- Entries change only under the names of files.
      refine ⟨place, _, name, hleads.refill hkeeps.grows, rfl, ?_⟩
      rw [lookup_writtenEntries] at hne
      cases hlast : lastFile? done name with
      | none => exact absurd (by rw [hlast]; rfl) hne
      | some f =>
          obtain ⟨hf, rfl⟩ := mem_of_lastFile? hlast
          exact hnames f hf
    · exact absurd hsame hp
  · rw [(writeFiles_of_not_leadsTo hhome hleads hentries).1]
    exact ⟨.refl disk, .refl dir disk⟩

/-- **Writing a package leaves the inputs**, whether it succeeds or not. -/
theorem writePackage_leaves (hhome : disk.AtHome) (hnames : ∀ f ∈ files, OutputName f.name) :
    disk.KeepsSources (writePackage dir disk files).2 ∧
      LeavesInputs dir disk (writePackage dir disk files).2 := by
  obtain ⟨hmade, htext⟩ := Disk.makeDirectories_keeps hhome dir
  rw [writePackage]
  cases hmake : disk.makeDirectories dir with
  | mk result made =>
      rw [hmake] at hmade htext
      cases result with
      | error e => exact ⟨hmade, .of_changed fun p hp => absurd (htext p) hp⟩
      | ok _ =>
          obtain ⟨hkeeps, hleaves⟩ := writeFiles_leaves (hmade.grows.atHome hhome) hnames
          refine ⟨hmade.trans hkeeps, .of_changed fun p hp => ?_⟩
          rw [← htext p] at hp
          exact hleaves.changed p hp

/-! ## Runs -/

theorem generate_of_load {c : Config} {disk after : Disk}
    (h : ModelSet.load after c.modelDir = ModelSet.load disk c.modelDir) :
    generate c after = generate c disk := by
  rw [generate, generate, resolve, resolve, h]

/-- A run that is repeated ends in the same way exactly if its model directory is in reach. -/
theorem compile_again_iff {c : Config} {disk after : Disk} {report : Report} (hhome : disk.AtHome)
    (h : compile c disk = (.ok report, after)) :
    compile c after = (.ok report, after) ↔ ModelSet.InReach after c.modelDir := by
  obtain ⟨package, hgenerate, hwrite⟩ := compile_eq_ok_iff.1 h
  obtain ⟨⟨set, hload⟩, hsome, hnames⟩ := generate_names hgenerate
  constructor
  · intro hagain
    obtain ⟨package', hgenerate', -⟩ := compile_eq_ok_iff.1 hagain
    obtain ⟨⟨set', hload'⟩, -⟩ := generate_names hgenerate'
    exact ModelSet.inReach_of_load hload'
  · intro hreach
    have hkeeps : disk.KeepsSources (writePackage c.outDir disk package.files).2 :=
      (writePackage_leaves hhome hnames).1
    rw [hwrite] at hkeeps
    have hload' := ModelSet.load_of_keepsSources hkeeps hload hreach
    have hagain := writePackage_again hhome (fun f hf => (hnames f hf).entry) hsome hwrite
    refine compile_eq_ok_iff.2 ⟨package, ?_, hagain⟩
    rw [generate_of_load (hload'.trans hload.symm), hgenerate]

/-- If the directory of the package is there before, nothing gets out of reach. -/
theorem inReach_of_leadsTo {c : Config} {disk after : Disk} {report : Report}
    (hhome : disk.AtHome) (h : compile c disk = (.ok report, after)) {place : Place}
    {es : List (String × Tree)} (hleads : disk.LeadsTo c.outDir place es) :
    ModelSet.InReach after c.modelDir := by
  obtain ⟨package, hgenerate, hwrite⟩ := compile_eq_ok_iff.1 h
  obtain ⟨⟨set, hload⟩, hsome, hnames⟩ := generate_names hgenerate
  obtain ⟨made, place', es', hmake, hleads', -, rfl, -, hgrows⟩ :=
    writePackage_ok hhome (fun f hf => (hnames f hf).entry) hsome hwrite
  -- No directory is made, and files take the place of none.
  rw [Disk.makeDirectories_of_leadsTo hleads (Disk.checkPath_of_makeDirectories hmake)] at hmake
  cases hmake
  obtain ⟨rfl, rfl⟩ := hleads.unique hleads'
  obtain ⟨entries, hfind, -⟩ := ModelSet.load_ok hload
  obtain ⟨modelPlace, hplace, hfind'⟩ := hgrows.find? hfind
  intro t ht path es' hpath
  rw [hfind'] at ht
  have hnew : (disk.graft (.dir (writtenEntries package.files es)) place).root.get?
      (modelPlace ++ path) = some (.dir es') := by
    rw [Tree.get?_append, ht]
    exact hpath
  obtain ⟨old, hold⟩ := Tree.directory_of_refill hleads.directory
    (fun _ _ => directory_of_writtenEntries) hnew
  rw [Tree.get?_append, hplace] at hold
  exact ModelSet.inReach_of_load hload _ hfind path old hold

/-- **A run changes nothing but its package and can be repeated.** If it fails and all writes
succeed, the disk stays as it is. In every case a text that changes is that of a generated file in
the directory of the package, so all inputs stay. If the run succeeds, the package is there, and
another run gives the same report and leaves the disk as it is, exactly if the directories in the
model directory are still in reach, as they were before. That is always so if the directory of the
package was there before. -/
theorem run_repeated_iff (c : Config) {disk after : Disk} {result : Except CompileError Report}
    (hhome : disk.AtHome) (h : compile c disk = (result, after)) :
    (∀ e, result = .error e → after = disk ∨ ∃ package report,
      generate c disk = .ok (package, report) ∧
        (writePackage c.outDir disk package.files).1 = .error e) ∧
    LeavesInputs c.outDir disk after ∧
    ∀ report, result = .ok report →
      (∃ package, generate c disk = .ok (package, report) ∧ package.files ≠ [] ∧
        ∀ f ∈ package.files, after.find? (Path.join c.outDir f.name) =
          (lastFile? package.files f.name).map fun g => .file (some g.text)) ∧
      ModelSet.InReach disk c.modelDir ∧
      (compile c after = (.ok report, after) ↔ ModelSet.InReach after c.modelDir) ∧
      ((∃ place es, disk.LeadsTo c.outDir place es) → ModelSet.InReach after c.modelDir) := by
  refine ⟨?_, ?_, ?_⟩
  · rintro e rfl
    rcases compile_cases c disk with ⟨e', he'⟩ | ⟨package, report, hgenerate, hcompile⟩
    · exact .inl (Prod.mk.inj (h.symm.trans he')).2
    · refine .inr ⟨package, report, hgenerate, ?_⟩
      obtain ⟨hresult, -⟩ := Prod.mk.inj (hcompile.symm.trans h)
      cases hwrite : (writePackage c.outDir disk package.files).1 with
      | error e' =>
          rw [hwrite] at hresult
          exact congrArg _ (Except.error.inj hresult)
      | ok _ => rw [hwrite] at hresult; cases hresult
  · rcases compile_cases c disk with ⟨e, he⟩ | ⟨package, report, hgenerate, hcompile⟩
    · obtain ⟨-, rfl⟩ := Prod.mk.inj (h.symm.trans he)
      exact .refl c.outDir after
    · obtain ⟨-, rfl⟩ := Prod.mk.inj (h.symm.trans hcompile)
      exact (writePackage_leaves hhome (generate_names hgenerate).2.2).2
  · rintro report rfl
    obtain ⟨package, hgenerate, hwrite⟩ := compile_eq_ok_iff.1 h
    obtain ⟨⟨set, hload⟩, hsome, hnames⟩ := generate_names hgenerate
    refine ⟨⟨package, hgenerate, hsome, ?_⟩, ModelSet.inReach_of_load hload,
      compile_again_iff hhome h, ?_⟩
    · exact writePackage_find hhome (fun f hf => (hnames f hf).entry) hwrite
    · rintro ⟨place, es, hleads⟩
      exact inReach_of_leadsTo hhome h hleads

/-- A disk with two models whose files have one name. -/
def nestedDisk : Disk :=
  { root := .dir [("models", .dir
      [("a.json", .file (some "\x7b\"name\": \"a_b\"\x7d")),
       ("b.json", .file (some "\x7b\"name\": \"ab\"\x7d"))])] }

/-- A run that writes into its model directory. -/
def nestedConfig : Config := { outDir := "models/generated" }

theorem nestedDisk_repeated : nestedDisk.AtHome ∧ ∃ report after,
    compile nestedConfig nestedDisk = (.ok report, after) ∧
      LeavesInputs nestedConfig.outDir nestedDisk after ∧
      ModelSet.InReach after nestedConfig.modelDir ∧
      compile nestedConfig after = (.ok report, after) := by
  have hhome : nestedDisk.AtHome := ⟨_, rfl⟩
  have hfirst : (compile nestedConfig nestedDisk).1.isOk = true ∧
      ModelSet.InReach (compile nestedConfig nestedDisk).2 nestedConfig.modelDir := by
    decide +kernel
  cases hrun : compile nestedConfig nestedDisk with
  | mk result after =>
      rw [hrun] at hfirst
      obtain ⟨hok, hreach⟩ := hfirst
      obtain ⟨report, rfl⟩ := Validation.exists_ok_of_isOk hok
      obtain ⟨-, hleaves, hrepeat⟩ := run_repeated_iff nestedConfig hhome hrun
      obtain ⟨-, -, hagain, -⟩ := hrepeat report rfl
      exact ⟨hhome, report, after, rfl, hleaves, hreach, hagain.2 hreach⟩

end Compiler

/-! ## A long way to the models -/

namespace Disk

open Validation (bind_eq_ok)

theorem checkPath_eq_ok_iff {path : String} : checkPath path = .ok () ↔
    '\x00' ∉ path.toList ∧ path.utf8ByteSize ≤ maxPathSize ∧ path.isEmpty = false := by
  unfold checkPath
  simp only [List.contains_eq_mem, decide_eq_true_eq]
  split
  · simp [*]
  · split
    · simp only [reduceCtorEq, false_iff]
      omega
    · split <;> simp_all

/-- A directory is also reached by a path that goes on and stays there. -/
theorem find?_here {d : Disk} {dir : String} {es : List (String × Tree)}
    (h : d.find? dir = some (.dir es)) (hsize : (dir ++ "/.").utf8ByteSize ≤ maxPathSize) :
    d.find? (dir ++ "/.") = some (.dir es) := by
  have hchars : (dir ++ "/.").toList = dir.toList ++ '/' :: ['.'] := by simp
  have hsteps : Path.steps (dir ++ "/.") = Path.steps dir ++ [Path.here] := by
    rw [Path.steps_slash hchars, String.ofList_toList]
    rfl
  have hends : Path.endsInSlash (dir ++ "/.") = false := by
    simp [Path.endsInSlash, hchars]
  obtain ⟨place, hlocate, hplace⟩ := find?_eq_some_iff.1 h
  rw [locate] at hlocate
  obtain ⟨⟨⟩, hcheck, hfollow⟩ := bind_eq_ok.1 hlocate
  obtain ⟨hnull, -, hempty⟩ := checkPath_eq_ok_iff.1 hcheck
  have hcheck' : checkPath (dir ++ "/.") = .ok () := by
    refine checkPath_eq_ok_iff.2 ⟨?_, hsize, by simp⟩
    rw [hchars]
    simp [hnull]
  have hrooted : Path.isRooted (dir ++ "/.") = Path.isRooted dir := by
    rw [Path.isRooted, Path.isRooted, hchars]
    cases hdir : dir.toList with
    | nil => simp [String.toList_eq_nil_iff.1 hdir] at hempty
    | cons c cs => rfl
  have hstay : d.step place Path.here = .ok place := by
    unfold step
    rw [hplace]
    rfl
  have hfollow' : d.follow (d.start dir) (Path.steps dir ++ [Path.here]) = .ok place := by
    split at hfollow
    · exact hfollow
    · rw [follow_append, hfollow]
      exact (follow_singleton d place Path.here).trans hstay
  refine find?_eq_some_iff.2 ⟨place, ?_, hplace⟩
  rw [locate, start, hrooted, hends, hsteps]
  exact bind_eq_ok.2 ⟨(), hcheck', hfollow'⟩

end Disk

namespace Compiler

/-- The path of a directory with steps behind it that stay there. -/
def detour (dir : String) : Nat → String
  | 0 => dir
  | n + 1 => detour dir n ++ "/."

theorem utf8ByteSize_detour (dir : String) (n : Nat) :
    (detour dir n).utf8ByteSize = dir.utf8ByteSize + 2 * n := by
  induction n with
  | zero => rfl
  | succ n ih =>
      have hstep : "/.".utf8ByteSize = 2 := by decide
      rw [detour, String.utf8ByteSize_append, ih, hstep]
      omega

theorem find?_detour {disk : Disk} {dir : String} {es : List (String × Tree)}
    (h : disk.find? dir = some (.dir es)) {n : Nat}
    (hsize : dir.utf8ByteSize + 2 * n ≤ Disk.maxPathSize) :
    disk.find? (detour dir n) = some (.dir es) := by
  induction n with
  | zero => exact h
  | succ n ih =>
      apply Disk.find?_here (ih (by omega))
      rw [← utf8ByteSize_detour dir (n + 1)] at hsize
      exact hsize

/-- The size of the path of an entry behind a detour. -/
theorem isInReach_detour (dir name : String) (n : Nat) :
    ModelSet.isInReach (detour dir (n + 1)) [name] =
      decide (dir.utf8ByteSize + 2 * (n + 1) + 1 + name.utf8ByteSize ≤ Disk.maxPathSize) := by
  have hslash : "/".utf8ByteSize = 1 := by decide
  have hjoin : Path.join (detour dir (n + 1)) name = detour dir (n + 1) ++ "/" ++ name := by
    simp [Path.join, detour]
  rw [ModelSet.isInReach, Path.joinAll, List.foldl_cons, List.foldl_nil, hjoin,
    String.utf8ByteSize_append, String.utf8ByteSize_append, utf8ByteSize_detour, hslash]

/-- A disk with one model. -/
def plainDisk : Disk :=
  { root := .dir [("models", .dir [("a.json", .file (some "\x7b\"name\": \"A\"\x7d"))])] }

/-- A run that writes into its model directory and reaches its models by a long way. -/
def distantConfig : Config := { nestedConfig with modelDir := detour "models" 2040 }

/-- The model is in reach by the long way, so it is read. -/
theorem load_plainDisk {set : ModelSet} (h : ModelSet.load plainDisk "models" = .ok set) :
    ModelSet.load plainDisk distantConfig.modelDir = .ok set := by
  have hfind : plainDisk.find? "models" =
      some (.dir [("a.json", .file (some "\x7b\"name\": \"A\"\x7d"))]) := by rfl
  have hlisting : (Tree.dir [("a.json", .file (some "\x7b\"name\": \"A\"\x7d"))]).listing =
      [.directory [], .file ⟨["a.json"], some "\x7b\"name\": \"A\"\x7d"⟩] := by decide +kernel
  refine ModelSet.load_of_ok h hfind (find?_detour hfind (by decide)) ?_ ?_
  · rw [hlisting]
    decide +kernel
  · rw [hlisting, List.forall_mem_cons, List.forall_mem_singleton]
    constructor
    · have hsize : (detour "models" 2040).utf8ByteSize ≤ Disk.maxPathSize := by
        rw [utf8ByteSize_detour]
        decide
      exact decide_eq_true hsize
    · show ModelSet.isInReach (detour "models" 2040) ["a.json"] = true
      rw [isInReach_detour]
      decide

/-- A directory for the package is not in reach by the long way. -/
theorem not_inReach_distant {disk : Disk} {es es' : List (String × Tree)}
    (hfind : disk.find? "models" = some (.dir es))
    (hmade : (Tree.dir es).get? ["generated"] = some (.dir es')) :
    ¬ ModelSet.InReach disk distantConfig.modelDir := by
  intro h
  have hreach : ModelSet.isInReach (detour "models" 2040) ["generated"] = true :=
    h _ (find?_detour hfind (by decide)) ["generated"] es' hmade
  rw [isInReach_detour] at hreach
  exact absurd hreach (by decide)

/-- **A run need not be repeatable.** The directory made by the first run cannot be opened by the
next one, which therefore fails. -/
theorem distant_run_not_repeated : plainDisk.AtHome ∧ ∃ report after,
    compile distantConfig plainDisk = (.ok report, after) ∧
      ∃ e, compile distantConfig after = (.error e, after) := by
  have hfirst : (compile nestedConfig plainDisk).1.isOk = true ∧
      ((compile nestedConfig plainDisk).2.find? "models").any
        (fun t => (t.get? ["generated"]).any Tree.isDirectory) = true := by
    decide +kernel
  cases hrun : compile nestedConfig plainDisk with
  | mk result after =>
      rw [hrun] at hfirst
      obtain ⟨hok, hgenerated⟩ := hfirst
      obtain ⟨report, rfl⟩ := Validation.exists_ok_of_isOk hok
      -- The first run is the same by the short way and by the long way.
      obtain ⟨package, hgenerate, hwrite⟩ := compile_eq_ok_iff.1 hrun
      obtain ⟨⟨set, hload⟩, -⟩ := generate_names hgenerate
      have hsame : generate distantConfig plainDisk = generate nestedConfig plainDisk := by
        rw [generate, generate, resolve, resolve, load_plainDisk hload, hload]
        rfl
      refine ⟨⟨_, rfl⟩, report, after,
        compile_eq_ok_iff.2 ⟨package, hsame.trans hgenerate, hwrite⟩, ?_⟩
      rcases compile_cases distantConfig after with hfails | ⟨package', report', hgenerate', -⟩
      · exact hfails
      · obtain ⟨⟨set', hload'⟩, -⟩ := generate_names hgenerate'
        obtain ⟨models, hmodels, hany⟩ := (Option.any_eq_true _ _).1 hgenerated
        obtain ⟨made, hmade, hdirectory⟩ := (Option.any_eq_true _ _).1 hany
        cases models with
        | file text => cases hmade
        | dir es =>
            cases made with
            | file text => cases hdirectory
            | dir es' =>
                exact absurd (ModelSet.inReach_of_load hload') (not_inReach_distant hmodels hmade)

end Compiler

end DataAccess
