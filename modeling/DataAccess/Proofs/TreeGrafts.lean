import DataAccess.Disk.Tree
import DataAccess.Proofs.OrderedLists

set_option autoImplicit false

/-! # What stands where after a tree is put at a place

A tree that is put at a place stands there (`get?_graft_self`). What stood on the way to the place
changes inside itself (`get?_graft_above`), and everything else stays (`get?_graft_apart`). So an
entry that takes the place of no directory leaves every directory with all its names
(`kept_graft`). -/

namespace DataAccess.Tree

/-! ## Entries -/

theorem lookup_setEntry (name n : String) (t : Tree) (es : List (String × Tree)) :
    (setEntry name t es).lookup n = if n = name then some t else es.lookup n := by
  induction es with
  | nil => rw [setEntry, Ordered.lookup_cons_ite]
  | cons e es ih =>
      obtain ⟨key, old⟩ := e
      unfold setEntry
      by_cases hkey : key = name
      · subst hkey
        rw [if_pos rfl, Ordered.lookup_cons_ite, Ordered.lookup_cons_ite]
        split <;> rfl
      · rw [if_neg hkey, Ordered.lookup_cons_ite, Ordered.lookup_cons_ite, ih]
        by_cases h : n = key
        · simp [h, hkey]
        · simp [h]

theorem isSome_lookup_setEntry {n : String} {es : List (String × Tree)}
    (h : (es.lookup n).isSome) (name : String) (t : Tree) :
    ((setEntry name t es).lookup n).isSome := by
  rw [lookup_setEntry]
  split
  · rfl
  · exact h

theorem setEntry_eq_self {name : String} {t : Tree} {es : List (String × Tree)}
    (h : es.lookup name = some t) : setEntry name t es = es := by
  induction es with
  | nil => cases h
  | cons e es ih =>
      obtain ⟨key, old⟩ := e
      rw [Ordered.lookup_cons_ite] at h
      unfold setEntry
      by_cases hkey : key = name
      · rw [if_pos hkey.symm] at h
        have hold : old = t := Option.some.inj h
        rw [if_pos hkey, hold]
      · rw [if_neg (Ne.symm hkey)] at h
        rw [if_neg hkey, ih h]

theorem setEntry_setEntry (name : String) (t s : Tree) (es : List (String × Tree)) :
    setEntry name t (setEntry name s es) = setEntry name t es := by
  induction es with
  | nil => simp [setEntry]
  | cons e es ih =>
      obtain ⟨key, old⟩ := e
      by_cases hkey : key = name
      · simp [setEntry, hkey]
      · simp [setEntry, hkey, ih]

/-- Entries with different names can be replaced in any order. A new one would go to the end. -/
theorem setEntry_comm {a b : String} (hab : a ≠ b) {es : List (String × Tree)}
    (ha : (es.lookup a).isSome) (t s : Tree) :
    setEntry b s (setEntry a t es) = setEntry a t (setEntry b s es) := by
  induction es with
  | nil => cases ha
  | cons e es ih =>
      obtain ⟨key, old⟩ := e
      by_cases hkey : key = a
      · subst hkey
        simp [setEntry, hab]
      · rw [Ordered.lookup_cons_ite, if_neg (Ne.symm hkey)] at ha
        by_cases hkey' : key = b
        · subst hkey'
          simp [setEntry, hkey]
        · simp [setEntry, hkey, hkey', ih ha]

/-! ## Places -/

theorem get?_append (t : Tree) (place rest : Place) :
    t.get? (place ++ rest) = (t.get? place).bind fun s => s.get? rest := by
  induction place generalizing t with
  | nil => simp [get?]
  | cons name place ih =>
      cases t with
      | file text => simp [get?]
      | dir entries =>
          simp only [List.cons_append, get?]
          cases entries.lookup name with
          | none => rfl
          | some s => exact ih s

/-- The names of a directory lead to its entries. -/
theorem get?_entry {root : Tree} {parent : Place} {es : List (String × Tree)}
    (h : root.get? parent = some (.dir es)) (name : String) :
    root.get? (parent ++ [name]) = es.lookup name := by
  rw [get?_append, h, Option.bind_some, get?]
  cases es.lookup name <;> rfl

/-- Everything on the way to a directory is a directory. -/
theorem directory_above {root : Tree} {p rest : Place} {es : List (String × Tree)}
    (h : root.get? (p ++ rest) = some (.dir es)) :
    ∃ es', root.get? p = some (.dir es') ∧ (dir es').get? rest = some (.dir es) := by
  rw [get?_append] at h
  obtain ⟨sub, hsub, hrest⟩ := Option.bind_eq_some_iff.1 h
  cases sub with
  | file text => cases rest <;> cases hrest
  | dir es' => exact ⟨es', hsub, hrest⟩

/-! ## Grafts -/

/-- What is put at a place stands there. -/
theorem get?_graft_self (t : Tree) (place : Place) (root : Tree) :
    (graft t place root).get? place = some t := by
  induction place generalizing root with
  | nil => cases t <;> rfl
  | cons name place ih =>
      cases root with
      | file text => simp [graft, get?, ih]
      | dir entries =>
          rw [graft, get?, lookup_setEntry, if_pos rfl]
          exact ih _

/-- On the way to the place, what stands there changes inside itself. -/
theorem get?_graft_above {root sub : Tree} {p : Place} (h : root.get? p = some sub) (t : Tree)
    (rest : Place) : (graft t (p ++ rest) root).get? p = some (graft t rest sub) := by
  induction p generalizing root with
  | nil =>
      have hroot : root = sub := by simpa [get?] using h
      simp [get?, hroot]
  | cons m p ih =>
      cases root with
      | file text => cases h
      | dir entries =>
          rw [get?] at h
          cases hm : entries.lookup m with
          | none => rw [hm] at h; cases h
          | some s =>
              rw [hm] at h
              rw [List.cons_append, graft, get?, lookup_setEntry, if_pos rfl, hm]
              exact ih h

/-- Apart from the place and the way to it, everything stays. -/
theorem get?_graft_apart (t root : Tree) {place p : Place} (hbelow : ¬ place <+: p)
    (habove : ¬ p <+: place) : (graft t place root).get? p = root.get? p := by
  induction place generalizing root p with
  | nil => exact absurd List.nil_prefix hbelow
  | cons name place ih =>
      cases p with
      | nil => exact absurd List.nil_prefix habove
      | cons n p =>
          by_cases hn : n = name
          · subst hn
            have hbelow' : ¬ place <+: p := fun h => hbelow ((List.prefix_cons_inj n).2 h)
            have habove' : ¬ p <+: place := fun h => habove ((List.prefix_cons_inj n).2 h)
            -- Where nothing stands under the name, nothing stands below it.
            have hnone : (dir []).get? p = none := by
              cases p with
              | nil => exact absurd List.nil_prefix habove'
              | cons m p => rfl
            cases root with
            | file text =>
                simp only [graft, get?, List.lookup_cons_self]
                rw [ih _ hbelow' habove', hnone]
            | dir entries =>
                rw [graft, get?, get?, lookup_setEntry, if_pos rfl]
                dsimp only
                rw [ih _ hbelow' habove']
                cases entries.lookup n with
                | none => exact hnone
                | some s => rfl
          · cases root with
            | file text => simp [graft, get?, List.lookup_cons, beq_eq_false_iff_ne.2 hn]
            | dir entries => rw [graft, get?, get?, lookup_setEntry, if_neg hn]

/-- An entry put into a directory is the directory put there with the entry in it. -/
theorem graft_entry {root : Tree} {parent : Place} {es : List (String × Tree)}
    (h : root.get? parent = some (.dir es)) (name : String) (t : Tree) :
    graft t (parent ++ [name]) root = graft (.dir (setEntry name t es)) parent root := by
  induction parent generalizing root with
  | nil =>
      cases h
      rfl
  | cons m parent ih =>
      cases root with
      | file text => cases h
      | dir entries =>
          rw [get?] at h
          cases hm : entries.lookup m with
          | none => rw [hm] at h; cases h
          | some s =>
              rw [hm] at h
              rw [List.cons_append, graft, graft, hm, Option.getD_some, ih h]

theorem graft_eq_self {root t : Tree} {place : Place} (h : root.get? place = some t) :
    graft t place root = root := by
  induction place generalizing root with
  | nil =>
      rw [get?] at h
      exact (Option.some.inj h).symm
  | cons m place ih =>
      cases root with
      | file text => cases h
      | dir entries =>
          rw [get?] at h
          cases hm : entries.lookup m with
          | none => rw [hm] at h; cases h
          | some s =>
              rw [hm] at h
              rw [graft, hm, Option.getD_some, ih h, setEntry_eq_self hm]

theorem graft_graft (t s : Tree) (place : Place) (root : Tree) :
    graft t place (graft s place root) = graft t place root := by
  induction place generalizing root with
  | nil => rfl
  | cons name place ih =>
      cases root with
      | file text => simp [graft, setEntry, ih]
      | dir entries =>
          rw [graft, graft, lookup_setEntry, if_pos rfl, Option.getD_some, ih, setEntry_setEntry,
            graft]

/-- What a change leaves of something: a file as it is, a directory with all its names. -/
def Kept : Tree → Tree → Prop
  | .file text, new => new = .file text
  | .dir es, new => ∃ es', new = .dir es' ∧ ∀ n, (es.lookup n).isSome → (es'.lookup n).isSome

theorem Kept.refl (t : Tree) : Kept t t := by
  cases t with
  | file text => rfl
  | dir es => exact ⟨es, rfl, fun _ h => h⟩

/-- A tree put into a directory leaves everything that does not stand at or below its place. -/
theorem kept_graft {root : Tree} {parent : Place} {es : List (String × Tree)}
    (h : root.get? parent = some (.dir es)) (name : String) (t : Tree) {p : Place} {old : Tree}
    (hp : ¬ parent ++ [name] <+: p) (hold : root.get? p = some old) :
    ∃ new, (graft t (parent ++ [name]) root).get? p = some new ∧ Kept old new := by
  by_cases habove : p <+: parent ++ [name]
  · rcases List.prefix_concat_iff.1 habove with rfl | ⟨rest, rfl⟩
    · exact absurd (List.prefix_refl _) hp
    · -- On the way to the entry a directory changes under one name.
      obtain ⟨es', hes', -⟩ := directory_above h
      rw [hes'] at hold
      cases hold
      rw [List.append_assoc, get?_graft_above hes']
      cases rest with
      | nil => exact ⟨_, rfl, _, rfl, fun n hn => isSome_lookup_setEntry hn _ _⟩
      | cons m rest => exact ⟨_, rfl, _, rfl, fun n hn => isSome_lookup_setEntry hn _ _⟩
  · exact ⟨old, (get?_graft_apart t root hp habove).trans hold, Kept.refl old⟩

/-- Below something that is no directory there is none. -/
theorem not_prefix_of_directory {root : Tree} {place p : Place} {es : List (String × Tree)}
    (hplace : ∀ es', root.get? place ≠ some (.dir es')) (hp : root.get? p = some (.dir es)) :
    ¬ place <+: p := by
  rintro ⟨rest, rfl⟩
  rw [get?_append] at hp
  cases hs : root.get? place with
  | none => rw [hs] at hp; cases hp
  | some s =>
      cases s with
      | dir es' => exact hplace es' hs
      | file text =>
          rw [hs, Option.bind_some] at hp
          cases rest <;> cases hp

end DataAccess.Tree
