import DataAccess.Disk.Change
import DataAccess.Proofs.Acceptance
import DataAccess.Proofs.ExportedNames
import DataAccess.Proofs.TreeGrafts

set_option autoImplicit false

/-! # What is on the disk after files are written

A file is written to a path, and a path is followed name by name through the tree. So writing a file
must not change the way to the next one. That holds because a file never takes the place of a
directory: every directory stays one, with its entries and maybe a new one (`write_grows`). The same
is true of the directories that are made on the way (`makeDirectories_grows`). -/

namespace DataAccess

/-! ## Paths -/

namespace Path

/-- A name that stands for an entry of a directory. -/
structure IsEntry (name : String) : Prop where
  nonempty : name.toList ≠ []
  noSlash : '/' ∉ name.toList
  notHere : name ≠ here
  notAbove : name ≠ above

/-- An entry is one name. -/
theorem IsEntry.splitBy {name : String} (h : IsEntry name) :
    Text.splitBy (· == '/') name.toList = [name.toList] := by
  apply Text.splitBy_of_none
  intro c hc
  rw [beq_eq_false_iff_ne]
  rintro rfl
  exact h.noSlash hc

theorem IsEntry.steps {name : String} (h : IsEntry name) : steps name = [name] := by
  have hkeep : (!name.toList.isEmpty) = true := by simpa using h.nonempty
  rw [Path.steps, h.splitBy]
  simp [hkeep]

/-- The names on both sides of a slash follow each other. -/
theorem steps_slash {path : String} {cs ds : List Char} (h : path.toList = cs ++ '/' :: ds) :
    steps path = steps (String.ofList cs) ++ steps (String.ofList ds) := by
  have hsplit : Text.splitBy (· == '/') (cs ++ '/' :: ds) = _ :=
    Text.splitBy_append (by decide) cs ds
  rw [steps, h, hsplit, List.filter_append, List.map_append, steps, steps,
    String.toList_ofList, String.toList_ofList]

/-- The three ways in which an entry is put behind a directory. -/
theorem join_cases (dir name : String) :
    (dir = "" ∧ join dir name = name) ∨
      (∃ cs, dir.toList = cs ++ ['/'] ∧ (join dir name).toList = cs ++ '/' :: name.toList) ∨
      (dir ≠ "" ∧ (join dir name).toList = dir.toList ++ '/' :: name.toList) := by
  unfold join
  by_cases hempty : dir = ""
  · exact .inl ⟨hempty, by simp [hempty]⟩
  · have hisEmpty : dir.isEmpty = false := by simpa using hempty
    rw [hisEmpty]
    by_cases hslash : dir.toList.getLast? = some '/'
    · obtain ⟨cs, hcs⟩ := List.getLast?_eq_some_iff.1 hslash
      refine .inr (.inl ⟨cs, hcs, ?_⟩)
      simp [hcs]
    · refine .inr (.inr ⟨hempty, ?_⟩)
      simp [hslash]

theorem steps_join (dir : String) {name : String} (hname : IsEntry name) :
    steps (join dir name) = steps dir ++ [name] := by
  rcases join_cases dir name with ⟨rfl, hjoin⟩ | ⟨cs, hdir, hjoin⟩ | ⟨-, hjoin⟩
  · rw [hjoin, hname.steps]
    rfl
  · rw [steps_slash hjoin, steps_slash hdir, String.ofList_toList, hname.steps]
    simp [steps, Text.splitBy]
  · rw [steps_slash hjoin, String.ofList_toList, String.ofList_toList, hname.steps]

theorem isRooted_join (dir : String) {name : String} (hname : IsEntry name) :
    isRooted (join dir name) = isRooted dir := by
  unfold isRooted
  rcases join_cases dir name with ⟨rfl, hjoin⟩ | ⟨cs, hdir, hjoin⟩ | ⟨hne, hjoin⟩
  · rw [hjoin]
    cases hchars : name.toList with
    | nil => exact absurd hchars hname.nonempty
    | cons c cs =>
        have hc : c ≠ '/' := by
          rintro rfl
          exact hname.noSlash (by simp [hchars])
        simp [hc]
  · rw [hjoin, hdir]
    cases cs <;> rfl
  · rw [hjoin]
    cases hchars : dir.toList with
    | nil => exact absurd (String.toList_eq_nil_iff.1 hchars) hne
    | cons c cs => rfl

theorem endsInSlash_join (dir : String) {name : String} (hname : IsEntry name) :
    endsInSlash (join dir name) = false := by
  have hlast : ∀ cs : List Char, (cs ++ '/' :: name.toList).getLast? = name.toList.getLast? := by
    intro cs
    rw [List.getLast?_append, List.getLast?_cons_of_ne_nil hname.nonempty]
    cases h : name.toList.getLast? with
    | none => exact absurd (List.getLast?_eq_none_iff.1 h) hname.nonempty
    | some c => rfl
  have hname' : (name.toList.getLast? == some '/') = false := by
    rw [beq_eq_false_iff_ne]
    intro h
    exact hname.noSlash (List.mem_of_getLast? h)
  unfold endsInSlash
  rcases join_cases dir name with ⟨-, hjoin⟩ | ⟨cs, -, hjoin⟩ | ⟨-, hjoin⟩
  · rw [hjoin, hname']
  · rw [hjoin, hlast, hname']
  · rw [hjoin, hlast, hname']

end Path

namespace Disk

open Validation (bind_eq_ok)

/-! ## Following paths -/

theorem follow_cons (d : Disk) (place : Place) (name : String) (names : List String) :
    d.follow place (name :: names) = (d.step place name) >>= fun p => d.follow p names := by
  rw [follow, List.foldlM_cons]
  rfl

theorem follow_append (d : Disk) (place : Place) (names more : List String) :
    d.follow place (names ++ more) = (d.follow place names) >>= fun p => d.follow p more := by
  rw [follow, List.foldlM_append]
  rfl

theorem follow_singleton (d : Disk) (place : Place) (name : String) :
    d.follow place [name] = d.step place name := by
  rw [follow_cons]
  cases d.step place name <;> rfl

/-- A step to an entry of a directory. -/
theorem step_directory {d : Disk} {place : Place} {es : List (String × Tree)} {name : String}
    (h : d.root.get? place = some (.dir es)) (hname : Path.IsEntry name) :
    d.step place name =
      if maxNameSize < name.utf8ByteSize then .error .nameTooLong
      else if (es.lookup name).isSome then .ok (place ++ [name])
      else .error .missing := by
  unfold step
  rw [h]
  simp only [hname.notHere, hname.notAbove, if_false]

/-- Steps start in directories. -/
theorem directory_of_step {d : Disk} {place q : Place} {name : String}
    (h : d.step place name = .ok q) : ∃ es, d.root.get? place = some (.dir es) := by
  unfold step at h
  cases hplace : d.root.get? place with
  | none => rw [hplace] at h; cases h
  | some t =>
      cases t with
      | file text => rw [hplace] at h; cases h
      | dir es => exact ⟨es, rfl⟩

/-- A step leads to something. -/
theorem exists_of_step {d : Disk} {place q : Place} {name : String}
    (h : d.step place name = .ok q) : (d.root.get? q).isSome := by
  obtain ⟨es, hplace⟩ := directory_of_step h
  unfold step at h
  rw [hplace] at h
  dsimp only at h
  split at h
  · cases h
    rw [hplace]
    rfl
  · split at h
    · cases h
      -- Every place on the way to a directory is there.
      cases hlast : place.getLast? with
      | none =>
          rw [List.getLast?_eq_none_iff.1 hlast]
          rfl
      | some n =>
          have hsplit := List.dropLast_append_getLast? n hlast
          rw [← hsplit, Tree.get?_append] at hplace
          cases hup : d.root.get? place.dropLast with
          | none => rw [hup] at hplace; cases hplace
          | some t => rfl
    · split at h
      · cases h
      · split at h
        · cases h
          rw [Tree.get?_entry hplace]
          assumption
        · cases h

theorem exists_of_follow {d : Disk} {place q : Place} {names : List String}
    (hplace : (d.root.get? place).isSome) (h : d.follow place names = .ok q) :
    (d.root.get? q).isSome := by
  induction names generalizing place with
  | nil =>
      cases h
      exact hplace
  | cons name names ih =>
      rw [follow_cons] at h
      obtain ⟨p, hstep, hrest⟩ := bind_eq_ok.1 h
      exact ih (exists_of_step hstep) hrest

/-- The working directory is there. -/
def AtHome (d : Disk) : Prop := ∃ es, d.root.get? d.home = some (.dir es)

theorem AtHome.start {d : Disk} (h : AtHome d) (path : String) :
    (d.root.get? (d.start path)).isSome := by
  unfold Disk.start
  split
  · rfl
  · obtain ⟨es, hes⟩ := h
    rw [hes]
    rfl

/-- Every directory is still there, with all its names. -/
structure Grows (d d' : Disk) : Prop where
  home : d'.home = d.home
  directory : ∀ p es, d.root.get? p = some (.dir es) → ∃ es', d'.root.get? p = some (.dir es') ∧
    ∀ n, (es.lookup n).isSome → (es'.lookup n).isSome

theorem Grows.refl (d : Disk) : Grows d d := ⟨rfl, fun _ es h => ⟨es, h, fun _ hn => hn⟩⟩

theorem Grows.trans {d d' d'' : Disk} (h : Grows d d') (h' : Grows d' d'') : Grows d d'' := by
  refine ⟨h'.home.trans h.home, fun p es hp => ?_⟩
  obtain ⟨es', hp', hnames⟩ := h.directory p es hp
  obtain ⟨es'', hp'', hnames'⟩ := h'.directory p es' hp'
  exact ⟨es'', hp'', fun n hn => hnames' n (hnames n hn)⟩

theorem Grows.atHome {d d' : Disk} (h : Grows d d') (hhome : AtHome d) : AtHome d' := by
  obtain ⟨es, hes⟩ := hhome
  obtain ⟨es', hes', -⟩ := h.directory _ es hes
  exact ⟨es', h.home ▸ hes'⟩

theorem Grows.step {d d' : Disk} (h : Grows d d') {place q : Place} {name : String}
    (hstep : d.step place name = .ok q) : d'.step place name = .ok q := by
  obtain ⟨es, hplace⟩ := directory_of_step hstep
  obtain ⟨es', hplace', hnames⟩ := h.directory place es hplace
  -- Only the last of the tests looks at the entries, and more of them do not fail it.
  unfold Disk.step at hstep ⊢
  rw [hplace] at hstep
  rw [hplace']
  dsimp only at hstep ⊢
  by_cases hhere : name = Path.here
  · rw [if_pos hhere] at hstep ⊢
    exact hstep
  · by_cases habove : name = Path.above
    · rw [if_neg hhere, if_pos habove] at hstep ⊢
      exact hstep
    · rw [if_neg hhere, if_neg habove] at hstep ⊢
      by_cases hsize : maxNameSize < name.utf8ByteSize
      · rw [if_pos hsize] at hstep
        cases hstep
      · rw [if_neg hsize] at hstep ⊢
        by_cases hentry : (es.lookup name).isSome = true
        · rw [if_pos hentry] at hstep
          rw [if_pos (hnames name hentry)]
          exact hstep
        · rw [if_neg hentry] at hstep
          cases hstep

theorem Grows.follow {d d' : Disk} (h : Grows d d') {place q : Place} {names : List String}
    (hfollow : d.follow place names = .ok q) : d'.follow place names = .ok q := by
  induction names generalizing place with
  | nil => exact hfollow
  | cons name names ih =>
      rw [follow_cons] at hfollow ⊢
      obtain ⟨p, hstep, hrest⟩ := bind_eq_ok.1 hfollow
      exact bind_eq_ok.2 ⟨p, h.step hstep, ih hrest⟩

/-- What takes the place of no directory leaves all directories. -/
theorem grows_graft {d : Disk} {parent : Place} {es : List (String × Tree)} {name : String}
    (hparent : d.root.get? parent = some (.dir es))
    (hfree : ∀ es', es.lookup name ≠ some (.dir es')) (t : Tree) :
    Grows d (d.graft t (parent ++ [name])) := by
  refine ⟨rfl, fun p es' hp => ?_⟩
  have hnot : ¬ parent ++ [name] <+: p := by
    apply Tree.not_prefix_of_directory _ hp
    intro es'' h
    rw [Tree.get?_entry hparent] at h
    exact hfree es'' h
  obtain ⟨new, hnew, es'', rfl, hnames⟩ := Tree.kept_graft hparent name t hnot hp
  exact ⟨es'', hnew, hnames⟩

/-! ## Entries of a directory -/

/-- The names of a path lead to a place, and there is a directory. -/
structure LeadsTo (d : Disk) (dir : String) (place : Place) (es : List (String × Tree)) : Prop where
  follow : d.follow (d.start dir) (Path.steps dir) = .ok place
  directory : d.root.get? place = some (.dir es)

theorem start_join (d : Disk) (dir : String) {name : String} (hname : Path.IsEntry name) :
    d.start (Path.join dir name) = d.start dir := by
  rw [start, start, Path.isRooted_join dir hname]

theorem find?_eq_some_iff {d : Disk} {path : String} {t : Tree} :
    d.find? path = some t ↔ ∃ place, d.locate path = .ok place ∧ d.root.get? place = some t := by
  rw [find?]
  cases d.locate path with
  | error e => simp
  | ok place => simp

/-- What is found under a name in a directory. -/
theorem find?_join {d : Disk} {dir name : String} {t : Tree} (hname : Path.IsEntry name) :
    d.find? (Path.join dir name) = some t ↔
      checkPath (Path.join dir name) = .ok () ∧ name.utf8ByteSize ≤ maxNameSize ∧
        ∃ place es, LeadsTo d dir place es ∧ es.lookup name = some t := by
  have hlocate : d.locate (Path.join dir name) = (checkPath (Path.join dir name)) >>= fun _ =>
      (d.follow (d.start dir) (Path.steps dir)) >>= fun p => d.step p name := by
    rw [locate, start_join d dir hname, Path.endsInSlash_join dir hname,
      Path.steps_join dir hname]
    simp only [Bool.false_eq_true, if_false, follow_append, follow_singleton]
  rw [find?_eq_some_iff]
  constructor
  · rintro ⟨q, hq, h⟩
    rw [hlocate] at hq
    obtain ⟨⟨⟩, hcheck, hq⟩ := bind_eq_ok.1 hq
    obtain ⟨place, hfollow, hstep⟩ := bind_eq_ok.1 hq
    obtain ⟨es, hes⟩ := directory_of_step hstep
    rw [step_directory hes hname] at hstep
    split at hstep
    · cases hstep
    · split at hstep
      · cases hstep
        refine ⟨hcheck, by omega, place, es, ⟨hfollow, hes⟩, ?_⟩
        rw [← Tree.get?_entry hes]
        exact h
      · cases hstep
  · rintro ⟨hcheck, hsize, place, es, hleads, hentry⟩
    have hstep : d.step place name = .ok (place ++ [name]) := by
      rw [step_directory hleads.directory hname, if_neg (by omega), hentry]
      rfl
    refine ⟨place ++ [name], ?_, (Tree.get?_entry hleads.directory name).trans hentry⟩
    rw [hlocate]
    exact bind_eq_ok.2 ⟨(), hcheck, bind_eq_ok.2 ⟨place, hleads.follow, hstep⟩⟩

/-- What writing a file into a directory takes, and what it does. -/
theorem write_join {d d' : Disk} {dir name : String} {text : Option String} (hhome : AtHome d)
    (hname : Path.IsEntry name) (h : d.write (Path.join dir name) text = .ok d') :
    checkPath (Path.join dir name) = .ok () ∧ name.utf8ByteSize ≤ maxNameSize ∧
      ∃ place es, LeadsTo d dir place es ∧ (∀ es', es.lookup name ≠ some (.dir es')) ∧
        d' = d.graft (.file text) (place ++ [name]) := by
  unfold write at h
  obtain ⟨⟨⟩, hcheck, h⟩ := bind_eq_ok.1 h
  obtain ⟨parent, hparent, h⟩ := bind_eq_ok.1 h
  rw [start_join d dir hname, Path.steps_join dir hname, List.dropLast_concat] at hparent
  rw [Path.endsInSlash_join dir hname, Path.steps_join dir hname] at h
  simp only [List.getLast?_concat, Option.getD_some, Bool.false_eq_true, if_false] at h
  -- A path without names leads to the working directory, which is there.
  obtain ⟨t, ht⟩ := Option.isSome_iff_exists.1 (exists_of_follow (hhome.start dir) hparent)
  cases t with
  | file old =>
      have hstep : d.step parent name = .error .notDirectory := by
        unfold step
        rw [ht]
      rw [hstep] at h
      cases h
  | dir es =>
      rw [step_directory ht hname] at h
      by_cases hsize : maxNameSize < name.utf8ByteSize
      · rw [if_pos hsize] at h
        cases h
      · rw [if_neg hsize] at h
        refine ⟨hcheck, by omega, parent, es, ⟨hparent, ht⟩, ?_⟩
        cases hentry : es.lookup name with
        | none =>
            rw [hentry] at h
            exact ⟨by simp, (Except.ok.inj h).symm⟩
        | some old =>
            rw [hentry] at h
            simp only [Option.isSome_some, if_true, Tree.get?_entry ht, hentry] at h
            cases old with
            | dir es' => cases h
            | file old => exact ⟨by simp, (Except.ok.inj h).symm⟩

theorem LeadsTo.unique {d : Disk} {dir : String} {place place' : Place}
    {es es' : List (String × Tree)} (h : LeadsTo d dir place es) (h' : LeadsTo d dir place' es') :
    place = place' ∧ es = es' := by
  have hplace : place = place' := Except.ok.inj (h.follow.symm.trans h'.follow)
  subst hplace
  have hdir := h.directory.symm.trans h'.directory
  injection hdir with hdir
  injection hdir with hdir
  exact ⟨rfl, hdir⟩

theorem write_grows {d d' : Disk} {dir name : String} {text : Option String} (hhome : AtHome d)
    (hname : Path.IsEntry name) (h : d.write (Path.join dir name) text = .ok d') : Grows d d' := by
  obtain ⟨-, -, place, es, hleads, hfree, rfl⟩ := write_join hhome hname h
  exact grows_graft hleads.directory hfree (.file text)

/-! ## Directories -/

theorem lookup_of_step_missing {d : Disk} {place : Place} {es : List (String × Tree)}
    {name : String} (hplace : d.root.get? place = some (.dir es))
    (h : d.step place name = .error .missing) : es.lookup name = none := by
  unfold step at h
  rw [hplace] at h
  dsimp only at h
  split at h
  · cases h
  · split at h
    · cases h
    · split at h
      · cases h
      · split at h
        · cases h
        · rename_i hnone
          exact Option.not_isSome_iff_eq_none.1 hnone

/-- What making a directory does: an empty one is put where nothing was. -/
theorem makeDirectory_ok {d d' : Disk} {place : Place} {names : List String}
    (hplace : (d.root.get? place).isSome) (h : d.makeDirectory place names = .ok d') :
    ∃ parent es name, d.root.get? parent = some (.dir es) ∧ es.lookup name = none ∧
      d' = d.graft (.dir []) (parent ++ [name]) := by
  unfold makeDirectory at h
  cases hlast : names.getLast? with
  | none => rw [hlast] at h; cases h
  | some name =>
      rw [hlast] at h
      obtain ⟨parent, hparent, h⟩ := bind_eq_ok.1 h
      obtain ⟨t, ht⟩ := Option.isSome_iff_exists.1 (exists_of_follow hplace hparent)
      cases hstep : d.step parent name with
      | ok q => rw [hstep] at h; cases h
      | error e =>
          rw [hstep] at h
          cases e with
          | missing =>
              cases t with
              | file text =>
                  unfold step at hstep
                  rw [ht] at hstep
                  cases hstep
              | dir es =>
                  exact ⟨parent, es, name, ht, lookup_of_step_missing ht hstep,
                    (Except.ok.inj h).symm⟩
          | _ => cases h

/-- What holds of a disk and stays when a directory is made holds after an attempt. -/
theorem settle_induction {P : Disk → Prop} {d : Disk} {place : Place} {names : List String}
    {attempt : Except Failure Disk} (hd : P d) (h : ∀ d', attempt = .ok d' → P d') :
    P (d.settle place names attempt).2 := by
  unfold settle
  split
  · exact h _ rfl
  · exact hd
  · exact hd

/-- What holds of a disk and stays when one directory is made holds after a trail is made. -/
theorem makeTrail_induction {P : Disk → Prop} {place : Place}
    (hstep : ∀ d d' names, P d → d.makeDirectory place names = .ok d' → P d') {d : Disk} (hd : P d)
    (trail : List (List String)) : P (d.makeTrail place trail).2 := by
  induction trail with
  | nil => exact hd
  | cons names rest ih =>
      unfold makeTrail
      split
      · -- The rest of the trail is made first, and then the directory itself.
        cases hrest : d.makeTrail place rest with
        | mk result next =>
            rw [hrest] at ih
            cases result with
            | error e => exact ih
            | ok _ => exact settle_induction ih fun d' h => hstep next d' names ih h
      · exact settle_induction hd fun d' h => hstep d d' names hd h

theorem Grows.start {d d' : Disk} (h : Grows d d') (path : String) :
    d'.start path = d.start path := by
  rw [Disk.start, Disk.start, h.home]

/-- The same for all directories of a path. Every step puts an empty one where nothing was. -/
theorem makeDirectories_induction {P : Disk → Prop} {d : Disk} (hhome : AtHome d) (hd : P d)
    (hstep : ∀ d' parent es name, P d' → d'.root.get? parent = some (.dir es) →
      es.lookup name = none → P (d'.graft (.dir []) (parent ++ [name]))) (path : String) :
    P (d.makeDirectories path).2 := by
  have hmake : ∀ d' d'' names, (Grows d d' ∧ P d') →
      d'.makeDirectory (d.start path) names = .ok d'' → Grows d d'' ∧ P d'' := by
    rintro d' d'' names ⟨hgrows, hd'⟩ h
    have hplace : (d'.root.get? (d.start path)).isSome := by
      rw [← hgrows.start path]
      exact (hgrows.atHome hhome).start path
    obtain ⟨parent, es, name, hparent, hnone, rfl⟩ := makeDirectory_ok hplace h
    exact ⟨hgrows.trans (grows_graft hparent (by simp [hnone]) (.dir [])),
      hstep d' parent es name hd' hparent hnone⟩
  unfold makeDirectories
  split
  · exact hd
  · split
    · exact hd
    · exact (makeTrail_induction hmake ⟨Grows.refl d, hd⟩ _).2

theorem makeDirectories_grows {d : Disk} (hhome : AtHome d) (path : String) :
    Grows d (d.makeDirectories path).2 := by
  apply makeDirectories_induction hhome (Grows.refl d)
  intro d' parent es name hgrows hparent hnone
  exact hgrows.trans (grows_graft hparent (by simp [hnone]) (.dir []))

end Disk

end DataAccess
