import DataAccess.Compiler
import DataAccess.Proofs.DiskWrites

set_option autoImplicit false

/-! # Writing a package

Files are written into a directory until one does not fit, and those that are written are put among
its entries (`writeFiles_graft`). Of several files with one name the last one is then found there
(`writePackage_find`). Writing the same files twice is writing them once (`writtenEntries_twice`),
so a package that is written can be written again, and this changes nothing
(`writePackage_again`). -/

namespace DataAccess

/-! ## Writing into a directory -/

namespace Disk

open Validation (bind_eq_ok)

variable {d : Disk} {dir : String} {place : Place} {es : List (String × Tree)}

/-- What a file needs to be written into a directory with these entries. -/
structure Fits (dir : String) (es : List (String × Tree)) (name : String) : Prop where
  path : checkPath (Path.join dir name) = .ok ()
  size : name.utf8ByteSize ≤ maxNameSize
  free : ∀ es', es.lookup name ≠ some (.dir es')

theorem graft_eq_self {t : Tree} (h : d.root.get? place = some t) : d.graft t place = d :=
  congrArg (Disk.mk · d.home) (Tree.graft_eq_self h)

theorem graft_graft (d : Disk) (t s : Tree) (place : Place) :
    (d.graft s place).graft t place = d.graft t place :=
  congrArg (Disk.mk · d.home) (Tree.graft_graft t s place d.root)

theorem LeadsTo.refill (h : LeadsTo d dir place es) {es' : List (String × Tree)}
    (hgrows : Grows d (d.graft (.dir es') place)) :
    LeadsTo (d.graft (.dir es') place) dir place es' :=
  ⟨hgrows.follow h.follow, Tree.get?_graft_self _ _ _⟩

/-- A file in the directory is in no other file's way. -/
theorem fits_setEntry {name : String} (hfree : ∀ es', es.lookup name ≠ some (.dir es'))
    (text : Option String) (n : String) :
    Fits dir (Tree.setEntry name (.file text) es) n ↔ Fits dir es n := by
  have hlookup : (∀ es', (Tree.setEntry name (.file text) es).lookup n ≠ some (.dir es')) ↔
      ∀ es', es.lookup n ≠ some (.dir es') := by
    rw [Tree.lookup_setEntry]
    split
    · next heq => simp [heq, hfree]
    · rfl
  exact ⟨fun h => ⟨h.path, h.size, hlookup.1 h.free⟩, fun h => ⟨h.path, h.size, hlookup.2 h.free⟩⟩

/-- A file that fits is written. -/
theorem write_of_fits (hleads : LeadsTo d dir place es) {name : String}
    (hname : Path.IsEntry name) (h : Fits dir es name) (text : Option String) :
    d.write (Path.join dir name) text =
      .ok (d.graft (.dir (Tree.setEntry name (.file text) es)) place) := by
  have hgraft : d.graft (.file text) (place ++ [name]) =
      d.graft (.dir (Tree.setEntry name (.file text) es)) place := by
    rw [graft, graft, Tree.graft_entry hleads.directory]
  have hfollow : d.follow (d.start (Path.join dir name))
      (Path.steps (Path.join dir name)).dropLast = .ok place := by
    rw [start_join d dir hname, Path.steps_join dir hname, List.dropLast_concat, hleads.follow]
  rw [← hgraft, write]
  refine bind_eq_ok.2 ⟨(), h.path, bind_eq_ok.2 ⟨place, hfollow, ?_⟩⟩
  rw [Path.endsInSlash_join dir hname, Path.steps_join dir hname]
  simp only [List.getLast?_concat, Option.getD_some, Bool.false_eq_true, if_false]
  rw [step_directory hleads.directory hname, if_neg (by have := h.size; omega)]
  cases hentry : es.lookup name with
  | none => rfl
  | some old =>
      cases old with
      | dir es' => exact absurd hentry (h.free es')
      | file old =>
          simp only [Option.isSome_some, if_true, Tree.get?_entry hleads.directory, hentry]
          rfl

/-- Only a file that fits is written. -/
theorem fits_of_write {d' : Disk} (hhome : AtHome d) (hleads : LeadsTo d dir place es)
    {name : String} (hname : Path.IsEntry name) {text : Option String}
    (h : d.write (Path.join dir name) text = .ok d') : Fits dir es name := by
  obtain ⟨hcheck, hsize, place', es', hleads', hfree, -⟩ := write_join hhome hname h
  obtain ⟨rfl, rfl⟩ := hleads.unique hleads'
  exact ⟨hcheck, hsize, hfree⟩

/-- A directory that is there need not be made. -/
theorem makeDirectories_of_leadsTo (hleads : LeadsTo d dir place es)
    (hpath : dir.isEmpty = true ∨ checkPath dir = .ok ()) :
    d.makeDirectories dir = (.ok (), d) := by
  have hoccupied : d.makeDirectory (d.start dir) (Path.steps dir) = .error .occupied := by
    unfold makeDirectory
    cases hlast : (Path.steps dir).getLast? with
    | none => rfl
    | some name =>
        have hfollow := hleads.follow
        rw [← List.dropLast_append_getLast? name hlast, follow_append] at hfollow
        obtain ⟨parent, hparent, hstep⟩ := bind_eq_ok.1 hfollow
        rw [follow_singleton] at hstep
        simp only [hparent, bind, Except.bind, hstep]
  have hthere : d.leadsToDirectory (d.start dir) (Path.steps dir) = true := by
    rw [leadsToDirectory, hleads.follow]
    dsimp only
    rw [hleads.directory]
    rfl
  unfold makeDirectories
  split
  · rfl
  · next hempty =>
      rw [hpath.resolve_left hempty]
      dsimp only
      rw [Path.trail, makeTrail, hoccupied]
      dsimp only
      rw [settle, hthere]
      rfl

theorem checkPath_of_makeDirectories {d' : Disk} (h : d.makeDirectories dir = (.ok (), d')) :
    dir.isEmpty = true ∨ checkPath dir = .ok () := by
  unfold makeDirectories at h
  split at h
  · next hempty => exact .inl hempty
  · cases hcheck : checkPath dir with
    | error e => rw [hcheck] at h; cases h
    | ok _ => exact .inr rfl

end Disk

namespace Compiler

open Generation (TextFile)

/-! ## Written files -/

/-- The entries of a directory after files are written into it. -/
def writtenEntries (files : List TextFile) (es : List (String × Tree)) : List (String × Tree) :=
  files.foldl (fun es f => Tree.setEntry f.name (.file (some f.text)) es) es

theorem writtenEntries_cons (f : TextFile) (fs : List TextFile) (es : List (String × Tree)) :
    writtenEntries (f :: fs) es =
      writtenEntries fs (Tree.setEntry f.name (.file (some f.text)) es) := rfl

/-- The last file with a name. -/
def lastFile? (files : List TextFile) (name : String) : Option TextFile :=
  files.reverse.find? (·.name == name)

theorem lastFile?_cons (f : TextFile) (fs : List TextFile) (name : String) :
    lastFile? (f :: fs) name = (lastFile? fs name).or (if f.name = name then some f else none) := by
  rw [lastFile?, List.reverse_cons, List.find?_append, List.find?_singleton]
  simp [lastFile?]

theorem mem_of_lastFile? {files : List TextFile} {name : String} {f : TextFile}
    (h : lastFile? files name = some f) : f ∈ files ∧ f.name = name :=
  ⟨List.mem_reverse.1 (List.mem_of_find?_eq_some h), by simpa using List.find?_some h⟩

theorem isSome_lastFile? {files : List TextFile} {f : TextFile} (hf : f ∈ files) :
    (lastFile? files f.name).isSome := by
  rw [lastFile?, List.find?_isSome]
  exact ⟨f, List.mem_reverse.2 hf, by simp⟩

/-- Under a name is then the last file that has it. -/
theorem lookup_writtenEntries (files : List TextFile) (es : List (String × Tree)) (name : String) :
    (writtenEntries files es).lookup name =
      ((lastFile? files name).map fun f => .file (some f.text)).or (es.lookup name) := by
  induction files generalizing es with
  | nil => rfl
  | cons f fs ih =>
      rw [writtenEntries_cons, ih, lastFile?_cons, Tree.lookup_setEntry]
      cases lastFile? fs name with
      | some g => rfl
      | none =>
          by_cases hname : f.name = name
          · simp [hname]
          · simp [hname, Ne.symm hname]

/-- An entry does not matter if a file is written in its place. -/
theorem writtenEntries_setEntry {files : List TextFile} {name : String}
    (hname : ∃ f ∈ files, f.name = name) {es : List (String × Tree)}
    (hes : (es.lookup name).isSome) (t : Tree) :
    writtenEntries files (Tree.setEntry name t es) = writtenEntries files es := by
  induction files generalizing es with
  | nil =>
      obtain ⟨f, hf, -⟩ := hname
      cases hf
  | cons g fs ih =>
      rw [writtenEntries_cons, writtenEntries_cons]
      by_cases hg : g.name = name
      · rw [hg, Tree.setEntry_setEntry]
      · obtain ⟨f, hf, hfname⟩ := hname
        have hfs : ∃ f ∈ fs, f.name = name := by
          rcases List.mem_cons.1 hf with rfl | hf
          · exact absurd hfname hg
          · exact ⟨f, hf, hfname⟩
        rw [Tree.setEntry_comm (Ne.symm hg) hes]
        exact ih hfs (Tree.isSome_lookup_setEntry hes _ _)

/-- Files that are there already leave the entries as they are. -/
theorem writtenEntries_settled {files : List TextFile} {es : List (String × Tree)}
    (h : ∀ f ∈ files, es.lookup f.name =
      (lastFile? files f.name).map fun g => .file (some g.text)) :
    writtenEntries files es = es := by
  induction files with
  | nil => rfl
  | cons f fs ih =>
      obtain ⟨hf, hfs⟩ := List.forall_mem_cons.1 h
      have hrest : writtenEntries fs es = es := by
        apply ih
        intro g hg
        obtain ⟨last, hlast⟩ := Option.isSome_iff_exists.1 (isSome_lastFile? hg)
        rw [hfs g hg, lastFile?_cons, hlast, Option.some_or]
      rw [lastFile?_cons, if_pos rfl] at hf
      rw [writtenEntries_cons]
      by_cases hlater : ∃ g ∈ fs, g.name = f.name
      · -- A later file takes the place of this one.
        have hes : (es.lookup f.name).isSome := by
          rw [hf]
          cases lastFile? fs f.name <;> rfl
        rw [writtenEntries_setEntry hlater hes, hrest]
      · have hnone : lastFile? fs f.name = none := by
          rw [lastFile?, List.find?_eq_none]
          intro g hg hname
          exact hlater ⟨g, List.mem_reverse.1 hg, beq_iff_eq.1 hname⟩
        rw [hnone, Option.none_or] at hf
        rw [Tree.setEntry_eq_self hf, hrest]

/-- **Writing files twice is writing them once.** -/
theorem writtenEntries_twice (files : List TextFile) (es : List (String × Tree)) :
    writtenEntries files (writtenEntries files es) = writtenEntries files es := by
  apply writtenEntries_settled
  intro f hf
  obtain ⟨last, hlast⟩ := Option.isSome_iff_exists.1 (isSome_lastFile? hf)
  rw [lookup_writtenEntries, hlast]
  rfl

variable {dir : String} {disk : Disk} {place : Place} {es : List (String × Tree)}
  {files : List TextFile}

/-- Files that are written make no directory. -/
theorem directory_of_writtenEntries {name : String} {x : List (String × Tree)}
    (h : (writtenEntries files es).lookup name = some (.dir x)) :
    es.lookup name = some (.dir x) := by
  rw [lookup_writtenEntries] at h
  cases hlast : lastFile? files name with
  | none => rwa [hlast] at h
  | some f => rw [hlast] at h; cases h

theorem forall_fits_writtenEntries (hfit : ∀ f ∈ files, Disk.Fits dir es f.name) :
    ∀ f ∈ files, Disk.Fits dir (writtenEntries files es) f.name := by
  intro f hf
  refine ⟨(hfit f hf).path, (hfit f hf).size, fun es' h => ?_⟩
  obtain ⟨last, hlast⟩ := Option.isSome_iff_exists.1 (isSome_lastFile? hf)
  rw [lookup_writtenEntries, hlast] at h
  cases h

/-- **Files are written until one does not fit.** Those that are written are put into the
directory. -/
theorem writeFiles_graft (hhome : disk.AtHome) (hleads : disk.LeadsTo dir place es)
    (hfiles : ∀ f ∈ files, Path.IsEntry f.name) :
    ∃ done rest, files = done ++ rest ∧ (∀ f ∈ done, Disk.Fits dir es f.name) ∧
      (∀ f ∈ rest.head?, ¬ Disk.Fits dir es f.name) ∧
      ((writeFiles dir disk files).1 = .ok () ↔ rest = []) ∧
      (writeFiles dir disk files).2 = disk.graft (.dir (writtenEntries done es)) place ∧
      disk.Grows (writeFiles dir disk files).2 := by
  induction files generalizing disk es with
  | nil =>
      exact ⟨[], [], rfl, by simp, by simp, by simp [writeFiles],
        (Disk.graft_eq_self hleads.directory).symm, .refl disk⟩
  | cons f fs ih =>
      obtain ⟨hf, hfs⟩ := List.forall_mem_cons.1 hfiles
      rw [writeFiles]
      by_cases hfit : Disk.Fits dir es f.name
      · have hwrite := Disk.write_of_fits hleads hf hfit (some f.text)
        have hgrows := Disk.write_grows hhome hf hwrite
        obtain ⟨done, rest, rfl, hdone, hrest, hok, hafter, hgrows'⟩ :=
          ih (hgrows.atHome hhome) (hleads.refill hgrows) hfs
        simp only [Disk.fits_setEntry hfit.free] at hdone hrest
        rw [hwrite]
        refine ⟨f :: done, rest, rfl, List.forall_mem_cons.2 ⟨hfit, hdone⟩, hrest, hok, ?_,
          hgrows.trans hgrows'⟩
        rw [hafter, Disk.graft_graft]
        rfl
      · refine ⟨[], f :: fs, rfl, by simp, by simpa using hfit, ?_⟩
        cases hwrite : disk.write (Path.join dir f.name) (some f.text) with
        | ok next => exact absurd (Disk.fits_of_write hhome hleads hf hwrite) hfit
        | error e => exact ⟨by simp, (Disk.graft_eq_self hleads.directory).symm, .refl disk⟩

/-- Without a directory nothing is written. -/
theorem writeFiles_of_not_leadsTo (hhome : disk.AtHome)
    (hleads : ¬ ∃ place es, disk.LeadsTo dir place es)
    (hfiles : ∀ f ∈ files, Path.IsEntry f.name) :
    (writeFiles dir disk files).2 = disk ∧
      ((writeFiles dir disk files).1 = .ok () → files = []) := by
  cases files with
  | nil => exact ⟨rfl, fun _ => rfl⟩
  | cons f fs =>
      rw [writeFiles]
      cases hwrite : disk.write (Path.join dir f.name) (some f.text) with
      | ok next =>
          obtain ⟨-, -, place, es, h, -⟩ :=
            Disk.write_join hhome (List.forall_mem_cons.1 hfiles).1 hwrite
          exact absurd ⟨place, es, h⟩ hleads
      | error e => exact ⟨rfl, by simp⟩

/-- What has been done if a package is written. -/
theorem writePackage_ok {after : Disk} (hhome : disk.AtHome)
    (hfiles : ∀ f ∈ files, Path.IsEntry f.name) (hsome : files ≠ [])
    (h : writePackage dir disk files = (.ok (), after)) :
    ∃ made place es, disk.makeDirectories dir = (.ok (), made) ∧ made.LeadsTo dir place es ∧
      (∀ f ∈ files, Disk.Fits dir es f.name) ∧
      after = made.graft (.dir (writtenEntries files es)) place ∧
      after.LeadsTo dir place (writtenEntries files es) ∧ disk.Grows after := by
  have hmade := Disk.makeDirectories_grows hhome dir
  rw [writePackage] at h
  cases hmake : disk.makeDirectories dir with
  | mk result made =>
      rw [hmake] at h hmade
      have hhome' := hmade.atHome hhome
      cases result with
      | error e => cases h
      | ok _ =>
          dsimp only at h
          by_cases hleads : ∃ place es, made.LeadsTo dir place es
          · obtain ⟨place, es, hleads⟩ := hleads
            obtain ⟨done, rest, hsplit, hfit, -, hok, hafter, hgrows⟩ :=
              writeFiles_graft hhome' hleads hfiles
            rw [h] at hok hafter hgrows
            have hdone : done = files := by rw [hsplit, hok.1 rfl, List.append_nil]
            subst hdone
            dsimp only at hafter hgrows
            subst hafter
            exact ⟨made, place, es, rfl, hleads, hfit, rfl, hleads.refill hgrows,
              hmade.trans hgrows⟩
          · exact absurd ((writeFiles_of_not_leadsTo hhome' hleads hfiles).2 (by rw [h])) hsome

/-- **The last file written under a name is found there.** -/
theorem writePackage_find {disk' : Disk} (hhome : disk.AtHome)
    (hfiles : ∀ f ∈ files, Path.IsEntry f.name)
    (h : writePackage dir disk files = (.ok (), disk')) :
    ∀ f ∈ files, disk'.find? (Path.join dir f.name) =
      (lastFile? files f.name).map fun g => .file (some g.text) := by
  intro f hf
  obtain ⟨made, place, es, -, -, hfit, -, hleads, -⟩ :=
    writePackage_ok hhome hfiles (List.ne_nil_of_mem hf) h
  obtain ⟨last, hlast⟩ := Option.isSome_iff_exists.1 (isSome_lastFile? hf)
  have hentry : (writtenEntries files es).lookup f.name = some (.file (some last.text)) := by
    rw [lookup_writtenEntries, hlast]
    rfl
  rw [hlast]
  exact (Disk.find?_join (hfiles f hf)).2
    ⟨(hfit f hf).path, (hfit f hf).size, place, _, hleads, hentry⟩

/-- **A package that is written can be written again**, and this changes nothing. -/
theorem writePackage_again {after : Disk} (hhome : disk.AtHome)
    (hfiles : ∀ f ∈ files, Path.IsEntry f.name) (hsome : files ≠ [])
    (h : writePackage dir disk files = (.ok (), after)) :
    writePackage dir after files = (.ok (), after) := by
  obtain ⟨made, place, es, hmake, -, hfit, -, hleads, hgrows⟩ :=
    writePackage_ok hhome hfiles hsome h
  obtain ⟨done, rest, hsplit, -, hrest, hok, hagain, -⟩ :=
    writeFiles_graft (hgrows.atHome hhome) hleads hfiles
  have hnil : rest = [] := by
    cases rest with
    | nil => rfl
    | cons f rest =>
        have hf : f ∈ files := by simp [hsplit]
        exact absurd (forall_fits_writtenEntries hfit f hf) (hrest f rfl)
  have hdone : done = files := by rw [hsplit, hnil, List.append_nil]
  rw [hdone, writtenEntries_twice, Disk.graft_eq_self hleads.directory] at hagain
  rw [writePackage,
    Disk.makeDirectories_of_leadsTo hleads (Disk.checkPath_of_makeDirectories hmake)]
  exact Prod.ext (hok.2 hnil) hagain

/-! ## Runs -/

/-- A run fails with the disk as it was, or it generates a package and writes it. -/
theorem compile_cases (c : Config) (disk : Disk) :
    (∃ e, compile c disk = (.error e, disk)) ∨ ∃ package report,
      generate c disk = .ok (package, report) ∧
        compile c disk = ((writePackage c.outDir disk package.files).1.map fun _ => report,
          (writePackage c.outDir disk package.files).2) := by
  rw [compile]
  cases generate c disk with
  | error e => exact .inl ⟨e, rfl⟩
  | ok generated => exact .inr ⟨generated.1, generated.2, rfl, rfl⟩

theorem compile_eq_ok_iff {c : Config} {disk after : Disk} {report : Report} :
    compile c disk = (.ok report, after) ↔ ∃ package, generate c disk = .ok (package, report) ∧
      writePackage c.outDir disk package.files = (.ok (), after) := by
  constructor
  · intro h
    rcases compile_cases c disk with ⟨e, he⟩ | ⟨package, report', hgenerate, hcompile⟩
    · rw [he] at h
      cases h
    · rw [hcompile] at h
      cases hwrite : writePackage c.outDir disk package.files with
      | mk written next =>
          rw [hwrite] at h
          cases written with
          | error e => cases h
          | ok _ =>
              cases h
              exact ⟨package, hgenerate, hwrite⟩
  · rintro ⟨package, hgenerate, hwrite⟩
    rw [compile, hgenerate]
    dsimp only
    rw [hwrite]
    rfl

end Compiler

end DataAccess
