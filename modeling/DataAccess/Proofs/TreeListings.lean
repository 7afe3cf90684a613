import DataAccess.Proofs.TreeGrafts

set_option autoImplicit false

/-! # What a tree lists

A listing names exactly the directories that stand in the tree (`directory_mem_listing`). The files
of a directory are those that its entries contribute, name by name (`filter_files_congr`). So a tree
that is put at a place changes the files that are looked for only if it changes those below the
place (`filter_files_graft`). -/

namespace DataAccess.Tree

open Ordered (byKey increasing_ofListBy lookup_ofListBy)

/-- The file as seen from the directory above. -/
def File.below (name : String) (f : File) : File := { f with path := name :: f.path }

/-- The file as seen from where a place starts that leads to its tree. -/
def File.under (place : Place) (f : File) : File := { f with path := place ++ f.path }

/-! ## Directories -/

theorem lookup_listings (es : List (String × Tree)) (name : String) :
    (listings es).lookup name = (es.lookup name).map listing := by
  induction es with
  | nil => rfl
  | cons e es ih =>
      rw [listings, Ordered.lookup_cons_ite, Ordered.lookup_cons_ite, ih]
      split <;> rfl

/-- The listings of the entries of a directory, in the order of their names. -/
def orderedListings (es : List (String × Tree)) : List (String × List Entry) :=
  Ordered.ofListBy byKey (listings es)

theorem listing_dir (es : List (String × Tree)) :
    (dir es).listing =
      .directory [] :: (orderedListings es).flatMap fun e => e.2.map (Entry.below e.1) := by
  rw [listing]
  rfl

theorem mem_orderedListings {es : List (String × Tree)} {name : String} {l : List Entry} :
    (name, l) ∈ orderedListings es ↔ ∃ t, es.lookup name = some t ∧ t.listing = l := by
  rw [orderedListings, (increasing_ofListBy _).mem_iff_lookup, lookup_ofListBy, lookup_listings,
    Option.map_eq_some_iff]

/-- What a directory lists, itself apart, its entries list. -/
theorem mem_listing_dir {es : List (String × Tree)} {e : Entry} :
    e ∈ (dir es).listing ↔ e = .directory [] ∨
      ∃ name t, es.lookup name = some t ∧ ∃ e' ∈ t.listing, e'.below name = e := by
  rw [listing_dir, List.mem_cons, List.mem_flatMap]
  apply or_congr_right
  constructor
  · rintro ⟨⟨name, l⟩, hl, he⟩
    obtain ⟨t, ht, rfl⟩ := mem_orderedListings.1 hl
    exact ⟨name, t, ht, List.mem_map.1 he⟩
  · rintro ⟨name, t, ht, he⟩
    exact ⟨(name, t.listing), mem_orderedListings.2 ⟨t, ht, rfl⟩, List.mem_map.2 he⟩

/-- **A listing names the directories of a tree.** -/
theorem directory_mem_listing {t : Tree} {place : Place} :
    .directory place ∈ t.listing ↔ ∃ es, t.get? place = some (.dir es) := by
  induction place generalizing t with
  | nil =>
      cases t with
      | file text => simp [listing, get?]
      | dir es => simp [mem_listing_dir, get?]
  | cons name place ih =>
      cases t with
      | file text => simp [listing, get?]
      | dir es =>
          rw [mem_listing_dir, get?]
          constructor
          · rintro (h | ⟨n, t, ht, e, he, hbelow⟩)
            · cases h
            · cases e with
              | file f => cases hbelow
              | directory p =>
                  cases hbelow
                  rw [ht]
                  exact ih.1 he
          · rintro ⟨es', hes'⟩
            cases ht : es.lookup name with
            | none => rw [ht] at hes'; cases hes'
            | some t =>
                rw [ht] at hes'
                exact .inr ⟨name, t, ht, _, ih.2 ⟨es', hes'⟩, rfl⟩

/-! ## Files -/

theorem file?_below (name : String) (e : Entry) :
    (e.below name).file? = e.file?.map (File.below name) := by
  cases e <;> rfl

/-- The files that a directory has from its entry with a name, as far as they are looked for. -/
def contributed (q : File → Bool) (name : String) (entry : Option Tree) : List File :=
  entry.elim [] fun t => (t.files.map (File.below name)).filter q

theorem filter_files_dir (q : File → Bool) (es : List (String × Tree)) :
    (dir es).files.filter q = (orderedListings es).flatMap fun e =>
      ((e.2.filterMap Entry.file?).map (File.below e.1)).filter q := by
  rw [files, listing_dir, List.filterMap_cons_none rfl, List.filterMap_flatMap,
    List.filter_flatMap]
  simp only [List.filterMap_map, List.map_filterMap, Function.comp_def, file?_below]

/-- Directories have the same files if each name contributes the same. -/
theorem filter_files_congr {q : File → Bool} {es es' : List (String × Tree)}
    (h : ∀ name, contributed q name (es.lookup name) = contributed q name (es'.lookup name)) :
    (dir es).files.filter q = (dir es').files.filter q := by
  rw [filter_files_dir, filter_files_dir]
  apply (increasing_ofListBy _).flatMap_congr (increasing_ofListBy _)
    fun name (l : List Entry) => ((l.filterMap Entry.file?).map (File.below name)).filter q
  intro name
  have hlookup : ∀ entries : List (String × Tree),
      ((Ordered.ofListBy byKey (listings entries)).lookup name).elim []
          (fun l => ((l.filterMap Entry.file?).map (File.below name)).filter q) =
        contributed q name (entries.lookup name) := by
    intro entries
    rw [lookup_ofListBy, lookup_listings]
    cases entries.lookup name <;> rfl
  rw [hlookup, hlookup, h name]

/-- A tree put in the place of another changes no more files than it has others. -/
theorem filter_files_graft {q : File → Bool} {root old new : Tree} {place : Place}
    (hold : root.get? place = some old)
    (h : (new.files.filter fun f => q (f.under place)) =
      old.files.filter fun f => q (f.under place)) :
    (graft new place root).files.filter q = root.files.filter q := by
  -- Going down by one name, the files are looked for as they are seen from below.
  induction place generalizing root q with
  | nil =>
      have hroot : root = old := by simpa [get?] using hold
      subst hroot
      exact h
  | cons n place ih =>
      cases root with
      | file text => cases hold
      | dir es =>
          rw [get?] at hold
          cases hn : es.lookup n with
          | none => rw [hn] at hold; cases hold
          | some s =>
              rw [hn] at hold
              rw [graft, hn, Option.getD_some]
              apply filter_files_congr
              intro name
              rw [lookup_setEntry]
              split
              · next heq =>
                  subst heq
                  rw [hn, contributed, contributed, Option.elim_some, Option.elim_some,
                    List.filter_map, List.filter_map]
                  exact congrArg _ (ih hold h)
              · rfl

end DataAccess.Tree
