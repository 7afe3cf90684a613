import DataAccess.Proofs.ListingOrder
import DataAccess.Proofs.RepeatedRuns

set_option autoImplicit false

/-! # Loading a model directory

A model directory is walked in the order of places. A directory that cannot be opened stops the
walk, and so does a registry that does not decode (`ModelSet.stop?`, `ModelSet.StopsWalk`). Models
are decoded after the walk.

Reading therefore fails in one of two ways (`ModelSet.ofListing_eq_error_iff`): by the first thing
that stops the walk, or, if nothing does, by the first model that does not decode. Both lists are in
the order of places, so what is first in the list is first in the tree (`firstFailure_iff`).

The main result says what is read from a directory, when reading fails and what is then reported,
and that the order in which the disk holds the entries does not matter
(`ModelSet.load_in_path_order`). -/

namespace DataAccess

/-! ## The first failure -/

/-- The error of a computation that fails. -/
def errorOf? {ε α : Type} : Except ε α → Option ε
  | .error e => some e
  | .ok _ => none

theorem errorOf?_eq_some_iff {ε α : Type} {x : Except ε α} {e : ε} :
    errorOf? x = some e ↔ x = .error e := by
  cases x <;> simp [errorOf?]

/-- A traversal fails as its first element does that fails. -/
theorem mapM_eq_error_iff {ε α β : Type} {f : α → Except ε β} {as : List α} {e : ε} :
    as.mapM f = .error e ↔ as.findSome? (fun a => errorOf? (f a)) = some e := by
  induction as with
  | nil => simp [pure, Except.pure]
  | cons a as ih =>
      rw [List.mapM_cons, List.findSome?_cons]
      cases ha : f a with
      | error e' => simp [errorOf?, bind, Except.bind]
      | ok b =>
          show ((as.mapM f) >>= fun bs => pure (b :: bs)) = .error e ↔
            as.findSome? (fun a => errorOf? (f a)) = some e
          rw [← ih]
          cases as.mapM f <;> simp [bind, Except.bind, pure, Except.pure]

theorem exists_mapM_eq_ok_iff {ε α β : Type} {f : α → Except ε β} {as : List α} :
    (∃ bs, as.mapM f = .ok bs) ↔ as.findSome? (fun a => errorOf? (f a)) = none := by
  cases has : as.mapM f with
  | error e => simp [mapM_eq_error_iff.1 has]
  | ok bs =>
      simp only [Except.ok.injEq, exists_eq', true_iff]
      by_contra hsome
      obtain ⟨e, he⟩ := Option.ne_none_iff_exists'.1 hsome
      rw [mapM_eq_error_iff.2 he] at has
      cases has

theorem bind_eq_error_iff {ε α β : Type} {x : Except ε α} {f : α → Except ε β} {e : ε} :
    (x >>= f) = .error e ↔ x = .error e ∨ ∃ a, x = .ok a ∧ f a = .error e := by
  cases x <;> simp [bind, Except.bind]

/-- The error at the first place at which something fails. -/
def FirstFailure (fails : Place → CompileError → Prop) (e : CompileError) : Prop :=
  ∃ place, fails place e ∧ ∀ earlier < place, ∀ e', ¬ fails earlier e'

section FirstFailure

variable {α : Type} {key : α → Place} {fault? : α → Option CompileError} {l : List α}
  {fails : Place → CompileError → Prop}

/-- In a list in the order of places, the first failure is the one at the first place. -/
theorem firstFailure_iff (hl : l.Pairwise fun a b => key a < key b)
    (hfails : ∀ place e, fails place e ↔ ∃ a ∈ l, key a = place ∧ fault? a = some e)
    {e : CompileError} : FirstFailure fails e ↔ l.findSome? fault? = some e := by
  rw [List.findSome?_eq_some_iff]
  constructor
  · rintro ⟨place, hplace, hearlier⟩
    obtain ⟨a, ha, rfl, hfault⟩ := (hfails _ _).1 hplace
    obtain ⟨before, after, rfl⟩ := List.append_of_mem ha
    refine ⟨before, a, after, rfl, hfault, fun x hx => ?_⟩
    have hlt : key x < key a := (List.pairwise_append.1 hl).2.2 x hx a List.mem_cons_self
    by_contra hx'
    obtain ⟨e', he'⟩ := Option.ne_none_iff_exists'.1 hx'
    exact hearlier _ hlt e' ((hfails _ _).2 ⟨x, by simp [hx], rfl, he'⟩)
  · rintro ⟨before, a, after, rfl, hfault, hbefore⟩
    refine ⟨key a, (hfails _ _).2 ⟨a, by simp, rfl, hfault⟩, fun place hplace e' he' => ?_⟩
    obtain ⟨b, hb, rfl, hb'⟩ := (hfails _ _).1 he'
    rcases List.mem_append.1 hb with hb | hb
    · rw [hbefore b hb] at hb'
      cases hb'
    · rcases List.mem_cons.1 hb with rfl | hb
      · exact lt_irrefl _ hplace
      · have hlt : key a < key b :=
          (List.pairwise_cons.1 (List.pairwise_append.1 hl).2.1).1 b hb
        exact lt_irrefl _ (hlt.trans hplace)

theorem forall_not_fails_iff
    (hfails : ∀ place e, fails place e ↔ ∃ a ∈ l, key a = place ∧ fault? a = some e) :
    (∀ place e, ¬ fails place e) ↔ l.findSome? fault? = none := by
  rw [List.findSome?_eq_none_iff]
  constructor
  · intro h a ha
    by_contra hfault
    obtain ⟨e, he⟩ := Option.ne_none_iff_exists'.1 hfault
    exact h _ e ((hfails _ _).2 ⟨a, ha, rfl, he⟩)
  · intro h place e he
    obtain ⟨a, ha, -, hfault⟩ := (hfails _ _).1 he
    rw [h a ha] at hfault
    cases hfault

theorem exists_firstFailure (hl : l.Pairwise fun a b => key a < key b)
    (hfails : ∀ place e, fails place e ↔ ∃ a ∈ l, key a = place ∧ fault? a = some e)
    {place : Place} {e : CompileError} (h : fails place e) : ∃ e', FirstFailure fails e' := by
  cases hfirst : l.findSome? fault? with
  | some e' => exact ⟨e', (firstFailure_iff hl hfails).2 hfirst⟩
  | none => exact absurd h ((forall_not_fails_iff hfails).2 hfirst place e)

end FirstFailure

namespace ModelSet

open Validation (bind_eq_ok mapM_eq_ok)

/-! ## Walking a listing -/

/-- Why the walk stops at an entry, if it does. -/
def stop? (dir : String) (e : Tree.Entry) : Option CompileError :=
  if isClosed dir e then some (closedError dir e.path)
  else ((source? dir e).filter isRegistry).bind fun f => errorOf? (readRegistry dir f)

/-- The registries before the first directory that cannot be opened. -/
def seenRegistries (dir : String) (listing : List Tree.Entry) : List Tree.File :=
  ((listing.takeWhile fun e => !isClosed dir e).filterMap (source? dir)).filter isRegistry

/-- The walk stops at the first registry that does not decode, or else at the first directory that
cannot be opened: whatever comes first. -/
theorem findSome?_stop? (dir : String) (listing : List Tree.Entry) :
    listing.findSome? (stop? dir) =
      ((seenRegistries dir listing).findSome? fun f => errorOf? (readRegistry dir f)).or
        ((listing.find? (isClosed dir)).map fun e => closedError dir e.path) := by
  induction listing with
  | nil => rfl
  | cons e listing ih =>
      rw [List.findSome?_cons, stop?, seenRegistries, List.takeWhile_cons, List.find?_cons]
      by_cases hclosed : isClosed dir e = true
      · simp [hclosed]
      · -- An entry that can be passed leaves the rest of the walk as it is.
        simp only [hclosed, Bool.not_false, if_true, Bool.false_eq_true, if_false]
        rw [ih, seenRegistries]
        cases hsource : source? dir e with
        | none => rw [List.filterMap_cons_none hsource]; rfl
        | some f =>
            rw [List.filterMap_cons_some hsource, List.filter_cons]
            by_cases hregistry : isRegistry f = true
            · rw [if_pos hregistry, List.findSome?_cons, Option.filter_some, if_pos hregistry,
                Option.bind_some]
              cases errorOf? (readRegistry dir f) <;> rfl
            · rw [if_neg hregistry, Option.filter_some, if_neg hregistry]
              rfl

/-- **Reading a listing fails** by what stops the walk first. If nothing does, it fails by the first
model that does not decode. -/
theorem ofListing_eq_error_iff {dir : String} {listing : List Tree.Entry} {e : CompileError} :
    ofListing dir listing = .error e ↔
      listing.findSome? (stop? dir) = some e ∨
      listing.findSome? (stop? dir) = none ∧
        ((listing.filterMap (source? dir)).filter fun f => !isRegistry f).findSome?
          (fun f => errorOf? (readModel dir f)) = some e := by
  rw [findSome?_stop?]
  cases hclosed : listing.find? (isClosed dir) with
  | some x =>
      -- The walk stops at this directory at the latest, and no model is read.
      have hthrow : (throw (closedError dir x.path) : Except CompileError ModelSet) =
          .error (closedError dir x.path) := rfl
      have hform : ofListing dir listing = .error e ↔
          (seenRegistries dir listing).findSome? (fun f => errorOf? (readRegistry dir f)) = some e ∨
          (seenRegistries dir listing).findSome? (fun f => errorOf? (readRegistry dir f)) = none ∧
            closedError dir x.path = e := by
        rw [← exists_mapM_eq_ok_iff, ← mapM_eq_error_iff, ofListing, hclosed,
          List.partition_eq_filter_filter, bind_eq_error_iff, seenRegistries]
        simp only [hthrow, Except.error.injEq, exists_and_right]
      rw [hform]
      cases (seenRegistries dir listing).findSome? fun f => errorOf? (readRegistry dir f) with
      | some e' => simp
      | none => simp
  | none =>
      have hopen : ∀ x ∈ listing, isClosed dir x = false := by simpa using hclosed
      have hseen : seenRegistries dir listing =
          (listing.filterMap (source? dir)).filter isRegistry := by
        unfold seenRegistries
        rw [List.takeWhile_eq_self_iff.2 fun x hx => by simp [hopen x hx]]
      have hmodels (registry : Registry) (fs : List Tree.File) :
          (fs.mapM (readModel dir) >>= fun models =>
            (return { registry, models } : Except CompileError ModelSet)) = .error e ↔
          fs.findSome? (fun f => errorOf? (readModel dir f)) = some e := by
        rw [bind_eq_error_iff, mapM_eq_error_iff]
        simp [pure, Except.pure]
      rw [ofListing_eq hopen, ofSources, bind_eq_error_iff, mapM_eq_error_iff, hseen]
      simp only [hmodels, exists_and_right, exists_mapM_eq_ok_iff, Option.map_none, Option.or_none]

/-! ## Contents -/

/-- What the content of a file decodes to, if it does. -/
def contentOf? {α : Type} (decode : String → Except Json.Mismatch α) (f : Tree.File) : Option α :=
  f.text.bind fun text => (decode text).toOption

/-- The report on a content that does not decode: it names the path of the file. -/
inductive Refused {α : Type} (decode : String → Except Json.Mismatch α) (path : String) :
    Option String → CompileError → Prop where
  | noText : Refused decode path none (.io path "stream did not contain valid UTF-8")
  | mismatch {text : String} {m : Json.Mismatch} (h : decode text = .error m) :
      Refused decode path (some text) (.parse path m.message)

section Contents

variable {α : Type} {decode : String → Except Json.Mismatch α} {dir : String} {f : Tree.File}
  {e : CompileError}

theorem readFile_eq_error_iff :
    readFile decode dir f = .error e ↔ Refused decode (Path.joinAll dir f.path) f.text e := by
  obtain ⟨place, text⟩ := f
  unfold readFile
  cases text with
  | none =>
      constructor
      · intro h
        cases h
        exact .noText
      · rintro ⟨⟩
        rfl
  | some text =>
      constructor
      · intro h
        cases hdecode : decode text with
        | ok a => simp [hdecode, Except.mapError] at h
        | error m =>
            simp only [hdecode, Except.mapError, Except.error.injEq] at h
            rw [← h]
            exact .mismatch hdecode
      · rintro (_ | h)
        simp [h, Except.mapError]

theorem readFile_eq_ok_iff {a : α} :
    readFile decode dir f = .ok a ↔ contentOf? decode f = some a := by
  unfold readFile contentOf?
  cases f.text with
  | none => simp
  | some text => cases h : decode text <;> simp [h, Except.mapError, Except.toOption]

theorem readRegistry_eq_error_iff : readRegistry dir f = .error e ↔
    Refused Registry.ofText (Path.joinAll dir f.path) f.text e := by
  rw [← readFile_eq_error_iff, readRegistry]
  cases readFile Registry.ofText dir f <;> simp [Functor.map, Except.map]

theorem readRegistry_eq_ok_iff {r : Registry} : readRegistry dir f = .ok r ↔
    (contentOf? Registry.ofText f).map Registry.reindex = some r := by
  rw [Option.map_eq_some_iff, readRegistry]
  simp only [← @readFile_eq_ok_iff _ _ dir]
  cases readFile Registry.ofText dir f <;> simp [Functor.map, Except.map]

end Contents

/-! ## Failures in a tree -/

/-- Whether a file holds a model. -/
def isModel (f : Tree.File) : Bool := isSource f && !isRegistry f

/-- At a place stands a file as it is looked for, and its content does not decode. -/
def Undecodable {α : Type} (decode : String → Except Json.Mismatch α) (wanted : Tree.File → Bool)
    (dir : String) (t : Tree) (place : Place) (e : CompileError) : Prop :=
  ∃ content, t.text? place = some content ∧ wanted ⟨place, content⟩ = true ∧
    Refused decode (Path.joinAll dir place) content e

/-- At a place stands a directory that cannot be opened. -/
def Unopened (dir : String) (t : Tree) (place : Place) (e : CompileError) : Prop :=
  (∃ es, t.get? place = some (.dir es)) ∧ isInReach dir place = false ∧ e = closedError dir place

/-- What stops the walk at a place. -/
def StopsWalk (dir : String) (t : Tree) (place : Place) (e : CompileError) : Prop :=
  Unopened dir t place e ∨ Undecodable Registry.ofText isRegistry dir t place e

/-- Every source has a path that is short enough to be used. -/
def SourcesInReach (dir : String) (t : Tree) : Prop :=
  ∀ place content, t.text? place = some content → isSource ⟨place, content⟩ = true →
    isInReach dir place = true

theorem isSource_of_isRegistry {f : Tree.File} (h : isRegistry f = true) : isSource f = true := by
  rw [isRegistry, beq_iff_eq] at h
  rw [isSource, h]
  decide

section Tree

variable {dir : String} {t : Tree}

/-- What an entry contributes is the entry itself. -/
theorem source?_eq_some_iff {x : Tree.Entry} {f : Tree.File} : source? dir x = some f ↔
    x = .file f ∧ isInReach dir f.path = true ∧ isSource f = true := by
  rw [source?, Option.filter_eq_some_iff, Bool.and_eq_true]
  apply and_congr_left'
  cases x <;> simp [Tree.Entry.file?]

/-- Where every source is in reach, none is passed over. -/
theorem filterMap_source?_of_inReach (h : SourcesInReach dir t) :
    t.listing.filterMap (source? dir) = t.sources := by
  rw [filterMap_source?, List.filter_eq_self]
  intro f hf
  obtain ⟨hmem, hsource⟩ := List.mem_filter.1 hf
  exact h f.path f.text (Tree.mem_files.1 hmem) hsource

/-- What stops the walk stands in the listing. -/
theorem stopsWalk_iff (h : SourcesInReach dir t) (place : Place) (e : CompileError) :
    StopsWalk dir t place e ↔ ∃ x ∈ t.listing, x.path = place ∧ stop? dir x = some e := by
  constructor
  · rintro (⟨hdir, hreach, rfl⟩ | ⟨content, htext, hregistry, hrefused⟩)
    · refine ⟨.directory place, Tree.directory_mem_listing.2 hdir, rfl, ?_⟩
      rw [stop?, if_pos (by simp [isClosed, hreach])]
      rfl
    · have hsource := isSource_of_isRegistry hregistry
      have hreach := h place content htext hsource
      refine ⟨.file ⟨place, content⟩, Tree.file_mem_listing.2 htext, rfl, ?_⟩
      rw [stop?, source?_eq_some_iff.2 ⟨rfl, hreach, hsource⟩, Option.filter_some, if_pos hregistry]
      exact errorOf?_eq_some_iff.2 (readRegistry_eq_error_iff.2 hrefused)
  · rintro ⟨x, hx, rfl, hstop⟩
    unfold stop? at hstop
    by_cases hclosed : isClosed dir x = true
    · rw [if_pos hclosed, Option.some.injEq] at hstop
      cases x with
      | file f => cases hclosed
      | directory place =>
          have hreach : isInReach dir place = false := by simpa [isClosed] using hclosed
          exact .inl ⟨Tree.directory_mem_listing.1 hx, hreach, hstop.symm⟩
    · rw [if_neg hclosed] at hstop
      obtain ⟨f, hf, herror⟩ := Option.bind_eq_some_iff.1 hstop
      obtain ⟨hsource, hregistry⟩ := Option.filter_eq_some_iff.1 hf
      obtain ⟨rfl, -⟩ := source?_eq_some_iff.1 hsource
      exact .inr ⟨f.text, Tree.file_mem_listing.1 hx, hregistry,
        readRegistry_eq_error_iff.1 (errorOf?_eq_some_iff.1 herror)⟩

/-- The files of a tree that are looked for, each once and in the order of their places. -/
structure FilesInOrder (t : Tree) (wanted : Tree.File → Bool) (fs : List Tree.File) : Prop where
  mem_iff : ∀ f, f ∈ fs ↔ t.text? f.path = some f.text ∧ wanted f = true
  increasing : fs.Pairwise fun f g => f.path < g.path

theorem filesInOrder_filter (t : Tree) (wanted : Tree.File → Bool) :
    FilesInOrder t wanted (t.files.filter wanted) := by
  refine ⟨fun f => ?_, t.files_increasing.filter _⟩
  rw [List.mem_filter, Tree.mem_files]

theorem registries_inOrder (t : Tree) :
    FilesInOrder t isRegistry (t.sources.filter isRegistry) := by
  have hfilter : t.sources.filter isRegistry = t.files.filter isRegistry := by
    rw [Tree.sources, List.filter_filter]
    apply List.filter_congr
    intro f _
    by_cases h : isRegistry f = true
    · rw [h, isSource_of_isRegistry h, Bool.and_self]
    · rw [Bool.eq_false_of_not_eq_true h, Bool.false_and]
  rw [hfilter]
  exact filesInOrder_filter t isRegistry

theorem models_inOrder (t : Tree) :
    FilesInOrder t isModel (t.sources.filter fun f => !isRegistry f) := by
  have hfilter : (t.sources.filter fun f => !isRegistry f) = t.files.filter isModel := by
    rw [Tree.sources, List.filter_filter]
    exact List.filter_congr fun f _ => Bool.and_comm _ _
  rw [hfilter]
  exact filesInOrder_filter t isModel

/-- A model that does not decode is among the files. -/
theorem FilesInOrder.undecodable_iff {fs : List Tree.File} (h : FilesInOrder t isModel fs)
    (place : Place) (e : CompileError) :
    Undecodable Model.ofText isModel dir t place e ↔
      ∃ f ∈ fs, f.path = place ∧ errorOf? (readModel dir f) = some e := by
  simp only [errorOf?_eq_some_iff, readModel, readFile_eq_error_iff]
  constructor
  · rintro ⟨content, htext, hmodel, hrefused⟩
    exact ⟨⟨place, content⟩, (h.mem_iff _).2 ⟨htext, hmodel⟩, rfl, hrefused⟩
  · rintro ⟨f, hf, rfl, hrefused⟩
    obtain ⟨htext, hmodel⟩ := (h.mem_iff f).1 hf
    exact ⟨f.text, htext, hmodel, hrefused⟩

end Tree

/-! ## The directory as a whole -/

theorem load_of_find? {disk : Disk} {dir : String} {es : List (String × Tree)}
    (h : disk.find? dir = some (.dir es)) :
    load disk dir = ofListing dir (Tree.dir es).listing := by
  rw [load, h]

/-- Files that are all read, with what is read from them. -/
theorem map_some_eq_map {α : Type} {read : Tree.File → Except CompileError α}
    {content? : Tree.File → Option α} (hread : ∀ f a, read f = .ok a ↔ content? f = some a)
    {fs : List Tree.File} {as : List α} (h : List.Forall₂ (fun f a => read f = .ok a) fs as) :
    as.map some = fs.map content? := by
  induction h with
  | nil => rfl
  | cons ha _ ih => rw [List.map_cons, List.map_cons, ih, (hread _ _).1 ha]

/-- What is read from the sources: the last registry and all models. -/
theorem ofSources_ok {dir : String} {fs : List Tree.File} {set : ModelSet}
    (h : ofSources dir fs = .ok set) :
    set.registry = (((fs.filter isRegistry).getLast?.bind (contentOf? Registry.ofText)).map
      Registry.reindex).getD {} ∧
    set.models.map some = (fs.filter fun f => !isRegistry f).map (contentOf? Model.ofText) := by
  rw [ofSources] at h
  obtain ⟨registries, hregistries, h⟩ := bind_eq_ok.1 h
  obtain ⟨models, hmodels, h⟩ := bind_eq_ok.1 h
  cases h
  have hcontents := map_some_eq_map (fun f r => readRegistry_eq_ok_iff) (mapM_eq_ok.1 hregistries)
  have hlast : registries.getLast?.map some = (fs.filter isRegistry).getLast?.map
      fun f => (contentOf? Registry.ofText f).map Registry.reindex := by
    rw [← List.getLast?_map, ← List.getLast?_map, hcontents]
  refine ⟨?_, map_some_eq_map (fun f m => readFile_eq_ok_iff) (mapM_eq_ok.1 hmodels)⟩
  show registries.getLast?.getD {} = _
  cases hregistry : (fs.filter isRegistry).getLast? with
  | none =>
      rw [hregistry, Option.map_none, Option.map_eq_none_iff] at hlast
      rw [hlast]
      rfl
  | some f =>
      rw [hregistry, Option.map_some, Option.map_eq_some_iff] at hlast
      obtain ⟨r, hr, hf⟩ := hlast
      rw [hr, Option.bind_some, ← hf]

/-- Reading fails at the first thing that stops the walk, or else at the first model that does not
decode. -/
theorem load_eq_error_iff {disk : Disk} {dir : String} {es : List (String × Tree)}
    (hdir : disk.find? dir = some (.dir es)) (hreach : SourcesInReach dir (.dir es))
    (e : CompileError) : load disk dir = .error e ↔
      FirstFailure (StopsWalk dir (.dir es)) e ∨
      (∀ place e', ¬ StopsWalk dir (.dir es) place e') ∧
        FirstFailure (Undecodable Model.ofText isModel dir (.dir es)) e := by
  have hwalk := stopsWalk_iff hreach
  have hmodels := models_inOrder (.dir es)
  rw [load_of_find? hdir, ofListing_eq_error_iff, filterMap_source?_of_inReach hreach,
    firstFailure_iff (Tree.listing_increasing _) hwalk, forall_not_fails_iff hwalk,
    firstFailure_iff hmodels.increasing hmodels.undecodable_iff]

/-- Whatever fails in the tree, something is reported. -/
theorem exists_load_eq_error {disk : Disk} {dir : String} {es : List (String × Tree)}
    (hdir : disk.find? dir = some (.dir es)) (hreach : SourcesInReach dir (.dir es))
    {place : Place} {e : CompileError} (h : StopsWalk dir (.dir es) place e ∨
      Undecodable Model.ofText isModel dir (.dir es) place e) :
    ∃ e', load disk dir = .error e' := by
  have hmodels := models_inOrder (.dir es)
  by_cases hstops : ∃ place e, StopsWalk dir (.dir es) place e
  · obtain ⟨place', e', hstops⟩ := hstops
    obtain ⟨first, hfirst⟩ :=
      exists_firstFailure (Tree.listing_increasing _) (stopsWalk_iff hreach) hstops
    exact ⟨first, (load_eq_error_iff hdir hreach first).2 (.inl hfirst)⟩
  · have hnone : ∀ place e, ¬ StopsWalk dir (.dir es) place e :=
      fun place e h => hstops ⟨place, e, h⟩
    obtain ⟨first, hfirst⟩ := exists_firstFailure hmodels.increasing hmodels.undecodable_iff
      (h.resolve_left (hnone place e))
    exact ⟨first, (load_eq_error_iff hdir hreach first).2 (.inr ⟨hnone, hfirst⟩)⟩

/-- **A model directory is read in the order of places.** Suppose that the path of every source is
short enough to be used. If reading succeeds, the registry is that of the last registry file, or
empty if there is none, and the models are the contents of the model files, each once and in the
order of their places. Reading fails exactly if a directory cannot be opened or the content of a
registry or of a model does not decode. Reported is the first directory or registry that stops the
walk. If none does, it is the first model that does not decode. The order in which a disk holds the
entries of directories, at any depth, does not matter. -/
theorem load_in_path_order {disk : Disk} {dir : String} {es : List (String × Tree)}
    (hdir : disk.find? dir = some (.dir es)) (hreach : SourcesInReach dir (.dir es)) :
    (∀ set, load disk dir = .ok set → ∃ registries models,
      FilesInOrder (.dir es) isRegistry registries ∧ FilesInOrder (.dir es) isModel models ∧
      set.registry =
        ((registries.getLast?.bind (contentOf? Registry.ofText)).map Registry.reindex).getD {} ∧
      set.models.map some = models.map (contentOf? Model.ofText)) ∧
    ((∃ e, load disk dir = .error e) ↔ ∃ place e, Unopened dir (.dir es) place e ∨
      Undecodable Registry.ofText isRegistry dir (.dir es) place e ∨
      Undecodable Model.ofText isModel dir (.dir es) place e) ∧
    (∀ e, load disk dir = .error e ↔ FirstFailure (StopsWalk dir (.dir es)) e ∨
      (∀ place e', ¬ StopsWalk dir (.dir es) place e') ∧
        FirstFailure (Undecodable Model.ofText isModel dir (.dir es)) e) ∧
    ∀ disk' t, disk'.find? dir = some t → Tree.Rearranged (.dir es) t →
      load disk' dir = load disk dir := by
  have herror := load_eq_error_iff hdir hreach
  refine ⟨fun set hset => ?_, ⟨?_, ?_⟩, herror, fun disk' t ht hrearranged => ?_⟩
  · rw [load_of_find? hdir] at hset
    have hopen := ofListing_ok hset
    rw [ofListing_eq hopen, filterMap_source?_of_inReach hreach] at hset
    exact ⟨_, _, registries_inOrder _, models_inOrder _, ofSources_ok hset⟩
  · rintro ⟨e, he⟩
    rcases (herror e).1 he with ⟨place, hclosed | hregistry, -⟩ | ⟨-, place, hmodel, -⟩
    · exact ⟨place, e, .inl hclosed⟩
    · exact ⟨place, e, .inr (.inl hregistry)⟩
    · exact ⟨place, e, .inr (.inr hmodel)⟩
  · rintro ⟨place, e, hfails⟩
    exact exists_load_eq_error hdir hreach (or_assoc.2 hfails)
  · obtain ⟨es', rfl⟩ := hrearranged.exists_dir
    rw [load_of_find? hdir, load_of_find? ht, hrearranged.listing_eq]

theorem sourcesInReach_of_files {dir : String} {t : Tree}
    (h : ∀ f ∈ t.files, isInReach dir f.path = true) : SourcesInReach dir t := by
  intro place content htext _
  exact h ⟨place, content⟩ (Tree.mem_files.2 htext)

/-- Entries whose order is not that of their names, in two directories. -/
def shuffledEntries : List (String × Tree) :=
  [("b.json", .file (some "\x7b\"name\": \"B\"\x7d")),
   ("attributes.json", .file (some "\x7b\"attributes\": []\x7d")),
   ("a.json", .file (some "\x7b\"name\": \"A\"\x7d")),
   ("notes.txt", .file none),
   ("a", .dir
      [("z.json", .file (some "\x7b\"name\": \"Z\"\x7d")),
       ("attributes.json", .file (some "\x7b\"attributes\": [[\"x\", \"x\", \"text\"]]\x7d"))])]

/-- A disk with a model directory. -/
def modelDisk (entries : List (String × Tree)) : Disk := { root := .dir [("models", .dir entries)] }

theorem shuffledEntries_loaded :
    (modelDisk shuffledEntries).find? "models" = some (.dir shuffledEntries) ∧
    SourcesInReach "models" (.dir shuffledEntries) ∧
    Tree.Rearranged (.dir shuffledEntries) (.dir shuffledEntries.reverse) ∧
    ∃ set, load (modelDisk shuffledEntries) "models" = .ok set ∧
      load (modelDisk shuffledEntries.reverse) "models" = .ok set ∧
      set.models.map Model.name = ["Z", "A", "B"] ∧ set.registry.attributes = [] := by
  have hdir : (modelDisk shuffledEntries).find? "models" = some (.dir shuffledEntries) := by rfl
  have hreach : SourcesInReach "models" (.dir shuffledEntries) :=
    sourcesInReach_of_files (by decide +kernel)
  have hrearranged : Tree.Rearranged (.dir shuffledEntries) (.dir shuffledEntries.reverse) :=
    .order (by decide) (List.reverse_perm _).symm
  have hload : (load (modelDisk shuffledEntries) "models").toOption.any (fun set =>
      set.models.map Model.name = ["Z", "A", "B"] ∧ set.registry.attributes.length = 0) = true := by
    decide +kernel
  obtain ⟨-, -, -, horder⟩ := load_in_path_order hdir hreach
  have hsame := horder (modelDisk shuffledEntries.reverse) _ (by rfl) hrearranged
  cases hset : load (modelDisk shuffledEntries) "models" with
  | error e => rw [hset] at hload; cases hload
  | ok set =>
      rw [hset] at hload hsame
      obtain ⟨hnames, hregistry⟩ := of_decide_eq_true hload
      exact ⟨hdir, hreach, hrearranged, set, rfl, hsame, hnames,
        List.length_eq_zero_iff.1 hregistry⟩

theorem not_undecodable {α : Type} {decode : String → Except Json.Mismatch α}
    {wanted : Tree.File → Bool} {t : Tree}
    (h : (t.files.all fun f => !wanted f || (contentOf? decode f).isSome) = true) (dir : String)
    (place : Place) (e : CompileError) : ¬ Undecodable decode wanted dir t place e := by
  rintro ⟨content, htext, hwanted, hrefused⟩
  have hsome := List.all_eq_true.1 h ⟨place, content⟩ (Tree.mem_files.2 htext)
  cases hrefused with
  | noText => simp [hwanted, contentOf?] at hsome
  | mismatch hdecode => simp [hwanted, contentOf?, hdecode, Except.toOption] at hsome

/-- A model beside an empty directory. -/
def besideEntries : List (String × Tree) :=
  [("a.json", .file (some "\x7b\"name\": \"A\"\x7d")), ("generated", .dir [])]

/-- **A directory may fail to load though everything in it decodes.** By a long way to it, the
directory inside it cannot be opened. -/
theorem long_directory_fails :
    (modelDisk besideEntries).find? (Compiler.detour "models" 2040) = some (.dir besideEntries) ∧
    SourcesInReach (Compiler.detour "models" 2040) (.dir besideEntries) ∧
    (∀ place e, ¬ Undecodable Registry.ofText isRegistry (Compiler.detour "models" 2040)
      (.dir besideEntries) place e) ∧
    (∀ place e, ¬ Undecodable Model.ofText isModel (Compiler.detour "models" 2040)
      (.dir besideEntries) place e) ∧
    ∃ e, load (modelDisk besideEntries) (Compiler.detour "models" 2040) = .error e := by
  have hfind : (modelDisk besideEntries).find? "models" = some (.dir besideEntries) := by rfl
  refine ⟨Compiler.find?_detour hfind (by decide), ?_, not_undecodable (by decide +kernel) _,
    not_undecodable (by decide +kernel) _, ?_⟩
  · have hfiles : (Tree.dir besideEntries).files =
        [⟨["a.json"], some "\x7b\"name\": \"A\"\x7d"⟩] := by decide +kernel
    apply sourcesInReach_of_files
    rw [hfiles, List.forall_mem_singleton, Compiler.isInReach_detour]
    decide
  · have hmade : (Tree.dir besideEntries).get? ["generated"] = some (.dir []) := rfl
    cases hload : load (modelDisk besideEntries) (Compiler.detour "models" 2040) with
    | error e => exact ⟨e, rfl⟩
    | ok set =>
        exact absurd (inReach_of_load hload) (Compiler.not_inReach_distant hfind hmade)

end ModelSet

end DataAccess
