import DataAccess.Proofs.TreeListings
import Mathlib.Data.String.Basic

set_option autoImplicit false

/-! # The order of a listing

Places are compared name by name, so a directory comes before everything in it, and what it holds
comes before every later name. A listing has the files of a tree and its directories
(`file_mem_listing`, `directory_mem_listing`), each once and in this order (`listing_increasing`).
It does not depend on the order in which a directory holds its entries, at any depth
(`Rearranged.listing_eq`). -/

namespace DataAccess.Tree

open Ordered (byKey increasing_ofListBy)

/-! ## Files -/

/-- **A listing has the files of a tree**, with their contents. -/
theorem file_mem_listing {t : Tree} {f : File} :
    .file f ∈ t.listing ↔ t.text? f.path = some f.text := by
  obtain ⟨place, text⟩ := f
  show Entry.file ⟨place, text⟩ ∈ t.listing ↔ t.text? place = some text
  induction place generalizing t with
  | nil =>
      cases t with
      | file text' => simp [listing, text?, get?, eq_comm]
      | dir es =>
          rw [mem_listing_dir]
          constructor
          · rintro (h | ⟨name, s, -, e, -, hbelow⟩)
            · cases h
            · cases e <;> cases hbelow
          · intro h
            cases h
  | cons name place ih =>
      cases t with
      | file text' => simp [listing, text?, get?]
      | dir es =>
          have htext : (dir es).text? (name :: place) =
              (es.lookup name).bind fun t => t.text? place := by
            rw [text?, get?_cons_dir]
            cases es.lookup name <;> rfl
          rw [mem_listing_dir, htext, Option.bind_eq_some_iff]
          constructor
          · rintro (h | ⟨n, s, hs, e, he, hbelow⟩)
            · cases h
            · cases e with
              | directory p => cases hbelow
              | file g =>
                  cases hbelow
                  exact ⟨s, hs, ih.1 he⟩
          · rintro ⟨s, hs, hplace⟩
            exact .inr ⟨name, s, hs, _, ih.2 hplace, rfl⟩

theorem eq_of_file? {e : Entry} {f : File} (h : e.file? = some f) : Entry.file f = e := by
  cases e with
  | directory place => cases h
  | file g =>
      cases h
      rfl

theorem mem_files {t : Tree} {f : File} : f ∈ t.files ↔ t.text? f.path = some f.text := by
  rw [← file_mem_listing, files, List.mem_filterMap]
  constructor
  · rintro ⟨e, he, hfile⟩
    rw [eq_of_file? hfile]
    exact he
  · intro h
    exact ⟨_, h, rfl⟩

/-! ## Order -/

theorem path_below (name : String) (e : Entry) : (e.below name).path = name :: e.path := by
  cases e <;> rfl

/-- What stands below different names is in the order of the names. -/
theorem below_lt_below {a b : String × List Entry} (h : byKey a b = .lt) {x y : Entry}
    (hx : x ∈ a.2.map (Entry.below a.1)) (hy : y ∈ b.2.map (Entry.below b.1)) :
    x.path < y.path := by
  obtain ⟨x', -, rfl⟩ := List.mem_map.1 hx
  obtain ⟨y', -, rfl⟩ := List.mem_map.1 hy
  rw [path_below, path_below, List.cons_lt_cons_iff]
  exact .inl (compareOfLessAndEq_eq_lt.1 h)

mutual

/-- **A listing is strictly increasing.** -/
theorem listing_increasing : ∀ t : Tree, t.listing.Pairwise fun a b => a.path < b.path
  | .file text => List.pairwise_singleton _ _
  | .dir es => by
      rw [listing_dir, List.pairwise_cons, List.pairwise_flatMap]
      refine ⟨fun e he => ?_, fun l hl => ?_, ?_⟩
      · obtain ⟨l, -, he⟩ := List.mem_flatMap.1 he
        obtain ⟨e', -, rfl⟩ := List.mem_map.1 he
        rw [path_below]
        exact List.nil_lt_cons _ _
      · -- Below one name the order is that of the entry.
        rw [List.pairwise_map]
        have hentry := listings_increasing es l (Ordered.ofListBy_subset _ _ hl)
        exact hentry.imp fun h => by
          rw [path_below, path_below, List.cons_lt_cons_iff]
          exact .inr ⟨rfl, h⟩
      · exact (increasing_ofListBy _).imp fun h x hx y hy => below_lt_below h hx hy

theorem listings_increasing : ∀ es : List (String × Tree), ∀ l ∈ listings es,
    l.2.Pairwise fun a b => a.path < b.path
  | [] => fun _ hl => nomatch hl
  | (_, t) :: es => by
      intro l hl
      rcases List.mem_cons.1 hl with rfl | hl
      · exact listing_increasing t
      · exact listings_increasing es l hl

end

theorem files_increasing (t : Tree) : t.files.Pairwise fun f g => f.path < g.path := by
  refine List.Pairwise.filterMap Entry.file? (fun a b hlt f hf g hg => ?_) t.listing_increasing
  rw [← eq_of_file? hf, ← eq_of_file? hg] at hlt
  exact hlt

/-! ## Rearrangement -/

/-- A listing depends on what is found under each name. -/
theorem listing_dir_congr {es es' : List (String × Tree)}
    (h : ∀ name, (es.lookup name).map listing = (es'.lookup name).map listing) :
    (dir es).listing = (dir es').listing := by
  have hordered : orderedListings es = orderedListings es' := by
    have hincreasing (fs : List (String × Tree)) : Ordered.Increasing byKey (orderedListings fs) :=
      increasing_ofListBy _
    apply (hincreasing es).eq_of_mem_iff (hincreasing es')
    rintro ⟨name, l⟩
    rw [mem_orderedListings, mem_orderedListings, ← Option.map_eq_some_iff, h,
      Option.map_eq_some_iff]
  rw [listing_dir, listing_dir, hordered]

/-- The same tree with entries of directories held in another order, at any depth. The entries of a
directory that is rearranged have different names. -/
inductive Rearranged : Tree → Tree → Prop where
  | refl (t : Tree) : Rearranged t t
  | order {es es' : List (String × Tree)} (hnames : (es.map Prod.fst).Nodup) (h : es.Perm es') :
      Rearranged (.dir es) (.dir es')
  | inside {t t' : Tree} (before : List (String × Tree)) (name : String)
      (after : List (String × Tree)) (h : Rearranged t t') :
      Rearranged (.dir (before ++ (name, t) :: after)) (.dir (before ++ (name, t') :: after))
  | trans {s t u : Tree} (h : Rearranged s t) (h' : Rearranged t u) : Rearranged s u

/-- **A rearranged tree has the same listing.** -/
theorem Rearranged.listing_eq {t t' : Tree} (h : Rearranged t t') : t.listing = t'.listing := by
  induction h with
  | refl t => rfl
  | @order es es' hnames h =>
      apply listing_dir_congr
      intro name
      have hnames' : (es'.map Prod.fst).Nodup := (h.map Prod.fst).nodup_iff.1 hnames
      have hlookup : es.lookup name = es'.lookup name := by
        ext t
        rw [← Ordered.mem_iff_lookup hnames, ← Ordered.mem_iff_lookup hnames', h.mem_iff]
      rw [hlookup]
  | @inside t t' before name after _ ih =>
      apply listing_dir_congr
      intro n
      induction before with
      | nil =>
          rw [List.nil_append, List.nil_append, Ordered.lookup_cons_ite, Ordered.lookup_cons_ite]
          by_cases hn : n = name
          · simp [hn, ih]
          · simp [hn]
      | cons e before ihbefore =>
          rw [List.cons_append, List.cons_append, Ordered.lookup_cons_ite, Ordered.lookup_cons_ite]
          by_cases hn : n = e.1
          · simp [hn]
          · simpa [hn] using ihbefore
  | trans _ _ ih ih' => rw [ih, ih']

/-- What is rearranged stays a directory. -/
theorem Rearranged.exists_dir {es : List (String × Tree)} {t : Tree}
    (h : Rearranged (.dir es) t) : ∃ es', t = .dir es' := by
  generalize hs : Tree.dir es = s at h
  induction h generalizing es with
  | refl t => exact ⟨es, hs.symm⟩
  | order _ _ => exact ⟨_, rfl⟩
  | inside _ _ _ _ _ => exact ⟨_, rfl⟩
  | trans _ _ ih ih' =>
      obtain ⟨es', hes'⟩ := ih hs
      exact ih' hes'.symm

end DataAccess.Tree
