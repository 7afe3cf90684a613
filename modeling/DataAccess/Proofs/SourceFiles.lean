import DataAccess.Proofs.PackageWrites
import DataAccess.Proofs.TreeListings
import Mathlib.Data.List.TakeWhile

set_option autoImplicit false

/-! # Changes that keep the sources

A model directory is read through its sources, the files with the extension `json`. Two changes of
an entry are considered (`EntryChange`): an empty directory is made where nothing was, and a file
that is no source is written where no directory was. Such changes leave every directory with its
names and its sources (`keepsSources_refill`), and the text of every file but the written ones
(`text?_refill`). Reading the directory again yields the same, provided that no directory in it is
out of reach (`load_of_keepsSources`). -/

namespace DataAccess

/-! ## Trees -/

namespace Tree

/-- How the entry with a name may change. -/
inductive EntryChange (name : String) : Option Tree → Option Tree → Prop
  | same (entry : Option Tree) : EntryChange name entry entry
  /-- An empty directory is made where nothing was. -/
  | made : EntryChange name none (some (.dir []))
  /-- A file that is no source is written where no directory was. -/
  | written {old : Option Tree} (text : Option String) (hname : Path.extension? name ≠ some "json")
      (hfree : ∀ es, old ≠ some (.dir es)) : EntryChange name old (some (.file text))

/-- Where no directory is, there is nothing or a file. -/
theorem eq_none_or_file {entry : Option Tree} (h : ∀ es, entry ≠ some (.dir es)) :
    entry = none ∨ ∃ text, entry = some (.file text) := by
  rcases entry with _ | (text | es)
  · exact .inl rfl
  · exact .inr ⟨text, rfl⟩
  · exact absurd rfl (h es)

namespace EntryChange

variable {name : String} {old new : Option Tree}

theorem isSome (h : EntryChange name old new) (hold : old.isSome) : new.isSome := by
  cases h with
  | same => exact hold
  | made => rfl
  | written => rfl

/-- Directories do not change. -/
theorem get?_directory (h : EntryChange name old new) {rest : Place} {es : List (String × Tree)}
    (hold : (old.bind fun t => t.get? rest) = some (.dir es)) :
    (new.bind fun t => t.get? rest) = some (.dir es) := by
  cases h with
  | same => exact hold
  | made => cases hold
  | written text hname hfree =>
      rcases eq_none_or_file hfree with rfl | ⟨text', rfl⟩
      · cases hold
      · cases rest <;> cases hold

/-- Only the text of the entry itself changes, to one that is written. -/
theorem text?_bind (h : EntryChange name old new) (rest : Place) :
    (∃ text, rest = [] ∧ new ≠ old ∧ new = some (.file text)) ∨
      (new.bind fun t => t.text? rest) = old.bind fun t => t.text? rest := by
  cases h with
  | same => exact .inr rfl
  | made =>
      right
      cases rest <;> rfl
  | written text hname hfree =>
      by_cases hsame : some (.file text) = old
      · exact .inr (by rw [hsame])
      · cases rest with
        | nil => exact .inl ⟨text, rfl, hsame, rfl⟩
        | cons n rest =>
            right
            rcases eq_none_or_file hfree with rfl | ⟨text', rfl⟩ <;> rfl

/-- A file that is no source contributes none. -/
theorem contributed_file (hname : Path.extension? name ≠ some "json") (place : Place)
    (text : Option String) :
    contributed (fun f => ModelSet.isSource (f.under place)) name (some (.file text)) = [] := by
  have hsource : ModelSet.isSource ((File.below name ⟨[], text⟩).under place) = false := by
    rw [ModelSet.isSource, ModelSet.fileName, File.under, File.below, List.getLast?_concat,
      Option.getD_some]
    exact beq_eq_false_iff_ne.2 hname
  rw [contributed, Option.elim_some, files, listing]
  simp [hsource, Entry.file?]

/-- The same sources are contributed. -/
theorem contributed_eq (h : EntryChange name old new) (place : Place) :
    contributed (fun f => ModelSet.isSource (f.under place)) name new =
      contributed (fun f => ModelSet.isSource (f.under place)) name old := by
  cases h with
  | same => rfl
  | made => rfl
  | written text hname hfree =>
      rw [contributed_file hname]
      rcases eq_none_or_file hfree with rfl | ⟨text', rfl⟩
      · rfl
      · rw [contributed_file hname]

end EntryChange

/-! ## Directories with changed entries -/

section Refill

variable {root : Tree} {place : Place} {es es' : List (String × Tree)}

/-- The sources of a tree. -/
def sources (t : Tree) : List File := t.files.filter ModelSet.isSource

/-- What a directory keeps when entries change, in itself or in one below it. -/
structure KeepsSources (old new : List (String × Tree)) : Prop where
  names : ∀ n, (old.lookup n).isSome → (new.lookup n).isSome
  sources : sources (.dir new) = sources (.dir old)

theorem KeepsSources.refl (es : List (String × Tree)) : KeepsSources es es := ⟨fun _ h => h, rfl⟩

/-- **Changed entries leave every directory with its names and its sources.** -/
theorem keepsSources_refill (hplace : root.get? place = some (.dir es))
    (h : ∀ n, EntryChange n (es.lookup n) (es'.lookup n)) {p : Place}
    {old : List (String × Tree)} (hp : root.get? p = some (.dir old)) :
    ∃ new, (graft (.dir es') place root).get? p = some (.dir new) ∧ KeepsSources old new := by
  by_cases habove : p <+: place
  · obtain ⟨rest, rfl⟩ := habove
    obtain ⟨es₀, hes₀, hrest⟩ := directory_above hplace
    rw [hes₀] at hp
    cases hp
    have hsources : sources (graft (.dir es') rest (.dir old)) = sources (.dir old) := by
      apply filter_files_graft hrest
      apply filter_files_congr
      intro n
      exact (h n).contributed_eq rest
    rw [get?_graft_above hes₀]
    cases rest with
    | nil =>
        cases hrest
        exact ⟨es', rfl, fun n hn => (h n).isSome hn, hsources⟩
    | cons m rest => exact ⟨_, rfl, fun n hn => isSome_lookup_setEntry hn _ _, hsources⟩
  · refine ⟨old, ?_, KeepsSources.refl old⟩
    by_cases hbelow : place <+: p
    · obtain ⟨rest, rfl⟩ := hbelow
      cases rest with
      | nil => exact absurd (by simp) habove
      | cons n rest =>
          rw [get?_append, hplace, Option.bind_some, get?_cons_dir] at hp
          rw [get?_append, get?_graft_self, Option.bind_some, get?_cons_dir]
          exact (h n).get?_directory hp
    · rw [get?_graft_apart _ _ hbelow habove, hp]

theorem text?_of_directory {t : Tree} {p : Place} {es : List (String × Tree)}
    (h : t.get? p = some (.dir es)) : t.text? p = none := by
  rw [text?, h]

theorem text?_append_cons {t : Tree} {p : Place} {es : List (String × Tree)}
    (h : t.get? p = some (.dir es)) (name : String) (rest : Place) :
    t.text? (p ++ name :: rest) = (es.lookup name).bind fun s => s.text? rest := by
  rw [text?, get?_append, h, Option.bind_some, get?_cons_dir]
  cases es.lookup name <;> rfl

/-- **Changed entries leave every text but those that are written.** -/
theorem text?_refill (hplace : root.get? place = some (.dir es))
    (h : ∀ n, EntryChange n (es.lookup n) (es'.lookup n)) (p : Place) :
    (∃ n text, p = place ++ [n] ∧ es'.lookup n ≠ es.lookup n ∧ es'.lookup n = some (.file text)) ∨
      (graft (.dir es') place root).text? p = root.text? p := by
  by_cases habove : p <+: place
  · obtain ⟨rest, rfl⟩ := habove
    obtain ⟨old, hold, -⟩ := directory_above hplace
    obtain ⟨new, hnew, -⟩ := keepsSources_refill hplace h hold
    exact .inr (by rw [text?_of_directory hnew, text?_of_directory hold])
  · by_cases hbelow : place <+: p
    · obtain ⟨rest, rfl⟩ := hbelow
      cases rest with
      | nil => exact absurd (by simp) habove
      | cons n rest =>
          rw [text?_append_cons hplace, text?_append_cons (get?_graft_self _ _ _)]
          rcases (h n).text?_bind rest with ⟨text, rfl, hne, hnew⟩ | hsame
          · exact .inl ⟨n, text, rfl, hne, hnew⟩
          · exact .inr hsame
    · exact .inr (by rw [text?, text?, get?_graft_apart _ _ hbelow habove])

/-- Where no directory is put among the entries, no directory is new. -/
theorem directory_of_refill (hplace : root.get? place = some (.dir es))
    (h : ∀ n x, es'.lookup n = some (.dir x) → es.lookup n = some (.dir x)) {p : Place}
    {new : List (String × Tree)} (hp : (graft (.dir es') place root).get? p = some (.dir new)) :
    ∃ old, root.get? p = some (.dir old) := by
  by_cases habove : p <+: place
  · obtain ⟨rest, rfl⟩ := habove
    obtain ⟨old, hold, -⟩ := directory_above hplace
    exact ⟨old, hold⟩
  · by_cases hbelow : place <+: p
    · obtain ⟨rest, rfl⟩ := hbelow
      cases rest with
      | nil => exact absurd (by simp) habove
      | cons n rest =>
          rw [get?_append, get?_graft_self, Option.bind_some, get?_cons_dir] at hp
          obtain ⟨s, hs, hrest⟩ := Option.bind_eq_some_iff.1 hp
          cases s with
          | file text => cases rest <;> cases hrest
          | dir x =>
              refine ⟨new, ?_⟩
              rw [get?_append, hplace, Option.bind_some, get?_cons_dir, h n x hs]
              exact hrest
    · rw [get?_graft_apart _ _ hbelow habove] at hp
      exact ⟨new, hp⟩

end Refill

end Tree

/-! ## Disks -/

namespace Disk

open Validation (bind_eq_ok)

/-- Every directory is still there, with its names and its sources. -/
structure KeepsSources (d d' : Disk) : Prop where
  home : d'.home = d.home
  directory : ∀ p old, d.root.get? p = some (.dir old) →
    ∃ new, d'.root.get? p = some (.dir new) ∧ Tree.KeepsSources old new

namespace KeepsSources

variable {d d' d'' : Disk}

theorem refl (d : Disk) : KeepsSources d d :=
  ⟨rfl, fun _ old hp => ⟨old, hp, Tree.KeepsSources.refl old⟩⟩

theorem trans (h : KeepsSources d d') (h' : KeepsSources d' d'') : KeepsSources d d'' := by
  refine ⟨h'.home.trans h.home, fun p old hp => ?_⟩
  obtain ⟨mid, hmid, hnames, hsources⟩ := h.directory p old hp
  obtain ⟨new, hnew, hnames', hsources'⟩ := h'.directory p mid hmid
  exact ⟨new, hnew, fun n hn => hnames' n (hnames n hn), hsources'.trans hsources⟩

theorem grows (h : KeepsSources d d') : Grows d d' := by
  refine ⟨h.home, fun p es hp => ?_⟩
  obtain ⟨new, hnew, hkeeps⟩ := h.directory p es hp
  exact ⟨new, hnew, hkeeps.names⟩

end KeepsSources

theorem keepsSources_graft {d : Disk} {place : Place} {es es' : List (String × Tree)}
    (hplace : d.root.get? place = some (.dir es))
    (h : ∀ n, Tree.EntryChange n (es.lookup n) (es'.lookup n)) :
    KeepsSources d (d.graft (.dir es') place) :=
  ⟨rfl, fun _ _ hp => Tree.keepsSources_refill hplace h hp⟩

/-- Directories that are made leave the sources and every text. -/
theorem makeDirectories_keeps {d : Disk} (hhome : AtHome d) (path : String) :
    KeepsSources d (d.makeDirectories path).2 ∧
      ∀ p, (d.makeDirectories path).2.root.text? p = d.root.text? p := by
  apply makeDirectories_induction (P := fun d' =>
    KeepsSources d d' ∧ ∀ p, d'.root.text? p = d.root.text? p) hhome ⟨.refl d, fun _ => rfl⟩
  rintro d' parent es name ⟨hkeeps, htext⟩ hparent hnone
  have hchange : ∀ n, Tree.EntryChange n (es.lookup n)
      ((Tree.setEntry name (.dir []) es).lookup n) := by
    intro n
    rw [Tree.lookup_setEntry]
    split
    · next heq =>
        rw [heq, hnone]
        exact .made
    · exact .same _
  have hgraft : d'.graft (.dir []) (parent ++ [name]) =
      d'.graft (.dir (Tree.setEntry name (.dir []) es)) parent := by
    rw [graft, graft, Tree.graft_entry hparent]
  rw [hgraft]
  refine ⟨hkeeps.trans (keepsSources_graft hparent hchange), fun p => ?_⟩
  rcases Tree.text?_refill hparent hchange p with ⟨n, text, -, hne, hnew⟩ | hsame
  · -- Under the name of the directory there is no file, and all other names stay.
    rw [Tree.lookup_setEntry] at hne hnew
    split at hnew
    · cases hnew
    · next hn => exact absurd (if_neg hn) hne
  · exact hsame.trans (htext p)

theorem Grows.find? {d d' : Disk} (h : Grows d d') {path : String} {es : List (String × Tree)}
    (hfind : d.find? path = some (.dir es)) :
    ∃ place, d.root.get? place = some (.dir es) ∧ d'.find? path = d'.root.get? place := by
  obtain ⟨place, hlocate, hplace⟩ := find?_eq_some_iff.1 hfind
  have hlocate' : d'.locate path = .ok place := by
    rw [locate] at hlocate ⊢
    obtain ⟨⟨⟩, hcheck, hfollow⟩ := bind_eq_ok.1 hlocate
    rw [h.start path]
    exact bind_eq_ok.2 ⟨(), hcheck, h.follow hfollow⟩
  exact ⟨place, hplace, by rw [Disk.find?, hlocate']⟩

end Disk

/-! ## Model directories -/

namespace ModelSet

open Validation (bind_eq_ok)

/-- No directory below a path has a path that is too long. -/
def InReach (disk : Disk) (dir : String) : Prop :=
  ∀ t, disk.find? dir = some t → ∀ path es, t.get? path = some (.dir es) →
    isInReach dir path = true

/-- Directories are in reach if none is listed that cannot be opened. -/
theorem forall_listing_open_iff {dir : String} {t : Tree} :
    (∀ e ∈ t.listing, isClosed dir e = false) ↔
      ∀ path es, t.get? path = some (.dir es) → isInReach dir path = true := by
  constructor
  · intro h path es hpath
    simpa [isClosed] using h _ (Tree.directory_mem_listing.2 ⟨es, hpath⟩)
  · intro h e he
    cases e with
    | file f => rfl
    | directory path =>
        obtain ⟨es, hpath⟩ := Tree.directory_mem_listing.1 he
        simp [isClosed, h path es hpath]

instance (disk : Disk) (dir : String) : Decidable (InReach disk dir) :=
  decidable_of_iff (∀ t ∈ disk.find? dir, ∀ e ∈ t.listing, isClosed dir e = false) (by
    simp only [Option.mem_def, InReach, forall_listing_open_iff])

/-- The sources of a listing are those of its tree that are in reach. -/
theorem filterMap_source? (dir : String) (t : Tree) :
    t.listing.filterMap (source? dir) = t.sources.filter fun f => isInReach dir f.path := by
  rw [Tree.sources, Tree.files, List.filter_filter, ← List.filterMap_eq_filter,
    List.filterMap_filterMap]
  congr 1
  funext e
  rw [source?]
  cases e.file? <;> rfl

theorem ofListing_ok {dir : String} {listing : List Tree.Entry} {set : ModelSet}
    (h : ofListing dir listing = .ok set) : ∀ e ∈ listing, isClosed dir e = false := by
  rw [ofListing] at h
  obtain ⟨registries, -, h⟩ := bind_eq_ok.1 h
  cases hclosed : listing.find? (isClosed dir) with
  | some e => rw [hclosed] at h; cases h
  | none => simpa using hclosed

/-- Reads the sources of a directory. -/
def ofSources (dir : String) (files : List Tree.File) : Except CompileError ModelSet := do
  let registries ← (files.filter isRegistry).mapM (readRegistry dir)
  let models ← (files.filter fun f => !isRegistry f).mapM (readModel dir)
  return { registry := registries.getLast?.getD {}, models }

/-- Where every directory can be opened, only the sources count. -/
theorem ofListing_eq {dir : String} {listing : List Tree.Entry}
    (h : ∀ e ∈ listing, isClosed dir e = false) :
    ofListing dir listing = ofSources dir (listing.filterMap (source? dir)) := by
  have hopened : (listing.takeWhile fun e => !isClosed dir e) = listing :=
    List.takeWhile_eq_self_iff.2 fun e he => by simp [h e he]
  have hclosed : listing.find? (isClosed dir) = none :=
    List.find?_eq_none.2 fun e he => by simp [h e he]
  rw [ofListing, hopened, hclosed, List.partition_eq_filter_filter]
  rfl

theorem readFile_of_ok {α : Type} {decode : String → Except Json.Mismatch α} {dir : String}
    {f : Tree.File} {a : α} (h : readFile decode dir f = .ok a) (dir' : String) :
    readFile decode dir' f = .ok a := by
  unfold readFile at h ⊢
  cases htext : f.text with
  | none => rw [htext] at h; cases h
  | some text =>
      rw [htext] at h
      exact Validation.mapError_eq_ok.2 (Validation.mapError_eq_ok.1 h)

/-- What is read does not depend on the path to it. -/
theorem ofSources_of_ok {dir : String} {files : List Tree.File} {set : ModelSet}
    (h : ofSources dir files = .ok set) (dir' : String) : ofSources dir' files = .ok set := by
  rw [ofSources] at h ⊢
  obtain ⟨registries, hregistries, h⟩ := bind_eq_ok.1 h
  obtain ⟨models, hmodels, h⟩ := bind_eq_ok.1 h
  refine bind_eq_ok.2 ⟨registries, ?_, bind_eq_ok.2 ⟨models, ?_, h⟩⟩
  · refine Validation.mapM_eq_ok.2 ((Validation.mapM_eq_ok.1 hregistries).imp fun f r hr => ?_)
    unfold readRegistry at hr ⊢
    cases hread : readFile Registry.ofText dir f with
    | error e => rw [hread] at hr; cases hr
    | ok registry => rwa [readFile_of_ok hread dir', ← hread]
  · exact Validation.mapM_eq_ok.2
      ((Validation.mapM_eq_ok.1 hmodels).imp fun f m hm => readFile_of_ok hm dir')

theorem load_ok {disk : Disk} {dir : String} {set : ModelSet} (h : load disk dir = .ok set) :
    ∃ es, disk.find? dir = some (.dir es) ∧ ofListing dir (Tree.dir es).listing = .ok set := by
  unfold load at h
  split at h
  · next es hfind => exact ⟨es, hfind, h⟩
  · cases h

/-- What is read is in reach. -/
theorem inReach_of_load {disk : Disk} {dir : String} {set : ModelSet}
    (h : load disk dir = .ok set) : InReach disk dir := by
  obtain ⟨es, hfind, hlisting⟩ := load_ok h
  intro t ht
  rw [hfind] at ht
  cases ht
  exact forall_listing_open_iff.1 (ofListing_ok hlisting)

/-- **A model directory with the same sources is read in the same way**, unless a directory in it
has got out of reach. -/
theorem load_of_keepsSources {d d' : Disk} (hkeeps : d.KeepsSources d') {dir : String}
    {set : ModelSet} (h : load d dir = .ok set) (hreach : InReach d' dir) :
    load d' dir = .ok set := by
  obtain ⟨es, hfind, hlisting⟩ := load_ok h
  obtain ⟨place, hplace, hfind'⟩ := hkeeps.grows.find? hfind
  obtain ⟨es', hplace', hdir⟩ := hkeeps.directory place es hplace
  rw [hplace'] at hfind'
  have hsame : ofListing dir (Tree.dir es').listing = ofListing dir (Tree.dir es).listing := by
    rw [ofListing_eq (forall_listing_open_iff.2 (hreach _ hfind')),
      ofListing_eq (ofListing_ok hlisting), filterMap_source?, filterMap_source?, hdir.sources]
  rw [load, hfind']
  exact hsame.trans hlisting

/-- Where every entry is in reach, all sources are read. -/
theorem ofListing_of_inReach {dir : String} {t : Tree}
    (hreach : ∀ e ∈ t.listing, isInReach dir e.path = true) :
    ofListing dir t.listing = ofSources dir t.sources := by
  have hsources : t.sources.filter (fun f => isInReach dir f.path) = t.sources := by
    apply List.filter_eq_self.2
    intro f hf
    obtain ⟨e, he, hfile⟩ := List.mem_filterMap.1 (List.mem_of_mem_filter hf)
    cases e with
    | directory path => cases hfile
    | file f' =>
        cases hfile
        exact hreach _ he
  rw [ofListing_eq, filterMap_source?, hsources]
  apply forall_listing_open_iff.2
  intro path es hpath
  exact hreach _ (Tree.directory_mem_listing.2 ⟨es, hpath⟩)

/-- **A model directory is read in the same way by every path** by which all its entries are in
reach. -/
theorem load_of_ok {disk : Disk} {dir dir' : String} {set : ModelSet} {es : List (String × Tree)}
    (h : load disk dir = .ok set) (hfind : disk.find? dir = some (.dir es))
    (hfind' : disk.find? dir' = some (.dir es))
    (hreach : ∀ e ∈ (Tree.dir es).listing, isInReach dir e.path = true)
    (hreach' : ∀ e ∈ (Tree.dir es).listing, isInReach dir' e.path = true) :
    load disk dir' = .ok set := by
  rw [load, hfind] at h
  rw [load, hfind']
  dsimp only at h ⊢
  rw [ofListing_of_inReach hreach] at h
  rw [ofListing_of_inReach hreach']
  exact ofSources_of_ok h dir'

end ModelSet

end DataAccess
