import DataAccess.Ordered
import Mathlib.Data.List.Sort
import Mathlib.Tactic.Tauto

set_option autoImplicit false

/-! # Lists that are kept in order

What is in a list after an insertion (`mem_insertBy`), and that insertions leave the list strictly
increasing (`increasing_insertBy`). So a list that was built by insertions has no element twice and
is determined by its elements (`Increasing.eq_of_mem_iff`). Where pairs are compared by their keys,
it is determined by what is found under each key (`lookup_ofListBy`, `Increasing.flatMap_congr`). -/

namespace DataAccess.Ordered

variable {α β : Type} {cmp : α → α → Ordering}

/-! ## Elements -/

theorem insertBy_subset (cmp : α → α → Ordering) (a : α) (l : List α) :
    insertBy cmp a l ⊆ a :: l := by
  induction l with
  | nil => exact fun _ hx => hx
  | cons b bs ih =>
      intro x hx
      rw [insertBy] at hx
      split at hx
      · exact hx
      · exact List.mem_cons_of_mem _ hx
      · rcases List.mem_cons.1 hx with rfl | hx
        · simp
        · rcases List.mem_cons.1 (ih hx) with rfl | hx <;> simp [*]

theorem ofListBy_subset (cmp : α → α → Ordering) (as : List α) : ofListBy cmp as ⊆ as := by
  have hall (acc : List α) :
      as.foldl (fun acc a => insertBy cmp a acc) acc ⊆ as ++ acc := by
    induction as generalizing acc with
    | nil => exact fun _ hx => hx
    | cons a as ih =>
        intro x hx
        rcases List.mem_append.1 (ih (insertBy cmp a acc) hx) with hx | hx
        · simp [hx]
        · rcases List.mem_cons.1 (insertBy_subset cmp a acc hx) with rfl | hx <;> simp [*]
  simpa [ofListBy] using hall []

/-- Of elements that compare equal only if they are the same, none is lost. -/
theorem mem_insertBy [Std.LawfulEqCmp cmp] {a x : α} {l : List α} :
    x ∈ insertBy cmp a l ↔ x = a ∨ x ∈ l := by
  induction l with
  | nil => simp [insertBy]
  | cons b bs ih =>
      rw [insertBy]
      split
      · exact List.mem_cons
      · next heq =>
          have hab : a = b := Std.LawfulEqCmp.eq_of_compare heq
          simp [hab]
      · rw [List.mem_cons, ih, List.mem_cons]
        tauto

theorem mem_foldl_insertBy [Std.LawfulEqCmp cmp] {x : α} {as acc : List α} :
    x ∈ as.foldl (fun acc a => insertBy cmp a acc) acc ↔ x ∈ as ∨ x ∈ acc := by
  induction as generalizing acc with
  | nil => simp
  | cons a as ih =>
      rw [List.foldl_cons, ih, mem_insertBy, List.mem_cons]
      tauto

theorem mem_ofListBy [Std.LawfulEqCmp cmp] {x : α} {as : List α} :
    x ∈ ofListBy cmp as ↔ x ∈ as := by
  rw [ofListBy, mem_foldl_insertBy]
  simp

/-- An insertion can be followed by what it compares. -/
theorem map_insertBy {cmp' : β → β → Ordering} {f : α → β}
    (h : ∀ a b, cmp a b = cmp' (f a) (f b)) (a : α) (l : List α) :
    (insertBy cmp a l).map f = insertBy cmp' (f a) (l.map f) := by
  induction l with
  | nil => rfl
  | cons b bs ih =>
      rw [List.map_cons, insertBy, insertBy, ← h a b]
      cases cmp a b with
      | lt => rfl
      | eq => rfl
      | gt => exact congrArg _ ih

theorem map_ofListBy {cmp' : β → β → Ordering} {f : α → β}
    (h : ∀ a b, cmp a b = cmp' (f a) (f b)) (as : List α) :
    (ofListBy cmp as).map f = ofListBy cmp' (as.map f) := by
  have hall (acc : List α) : (as.foldl (fun acc a => insertBy cmp a acc) acc).map f =
      (as.map f).foldl (fun acc b => insertBy cmp' b acc) (acc.map f) := by
    induction as generalizing acc with
    | nil => rfl
    | cons a as ih =>
        rw [List.foldl_cons, ih, map_insertBy h]
        rfl
  exact hall []

/-! ## Order -/

/-- A list in which every element comes before all that follow it. -/
def Increasing (cmp : α → α → Ordering) (l : List α) : Prop :=
  l.Pairwise fun a b => cmp a b = .lt

theorem increasing_nil : Increasing cmp [] := List.Pairwise.nil

theorem increasing_insertBy [Std.TransCmp cmp] {a : α} {l : List α} (h : Increasing cmp l) :
    Increasing cmp (insertBy cmp a l) := by
  induction l with
  | nil => exact List.pairwise_singleton _ a
  | cons b bs ih =>
      obtain ⟨hb, hbs⟩ := List.pairwise_cons.1 h
      rw [insertBy]
      split
      · next hlt =>
          refine List.pairwise_cons.2 ⟨fun x hx => ?_, h⟩
          rcases List.mem_cons.1 hx with rfl | hx
          · exact hlt
          · exact Std.TransCmp.lt_trans hlt (hb x hx)
      · exact h
      · next hgt =>
          refine List.pairwise_cons.2 ⟨fun x hx => ?_, ih hbs⟩
          rcases List.mem_cons.1 (insertBy_subset cmp a bs hx) with rfl | hx
          · exact Std.OrientedCmp.lt_of_gt hgt
          · exact hb x hx

theorem increasing_foldl_insertBy [Std.TransCmp cmp] (as : List α) {acc : List α}
    (h : Increasing cmp acc) :
    Increasing cmp (as.foldl (fun acc a => insertBy cmp a acc) acc) := by
  induction as generalizing acc with
  | nil => exact h
  | cons a as ih => exact ih (increasing_insertBy h)

theorem increasing_ofListBy [Std.TransCmp cmp] (as : List α) : Increasing cmp (ofListBy cmp as) :=
  increasing_foldl_insertBy as increasing_nil

theorem Increasing.nodup [Std.TransCmp cmp] {l : List α} (h : Increasing cmp l) : l.Nodup := by
  apply List.Pairwise.imp _ h
  rintro a b hlt rfl
  exact Std.OrientedCmp.not_lt_of_lt hlt hlt

/-- The elements of a list in order tell the list. -/
theorem Increasing.eq_of_mem_iff [Std.TransCmp cmp] {l l' : List α} (h : Increasing cmp l)
    (h' : Increasing cmp l') (hmem : ∀ a, a ∈ l ↔ a ∈ l') : l = l' := by
  have hperm : l.Perm l' := (List.perm_ext_iff_of_nodup h.nodup h'.nodup).2 hmem
  exact hperm.eq_of_pairwise (fun a b _ _ (hlt : cmp a b = .lt) (hgt : cmp b a = .lt) =>
    absurd hgt (Std.OrientedCmp.not_lt_of_lt hlt)) h h'

/-! ## Keys -/

section Keys

variable {ν γ : Type}

/-- Pairs compared by their keys. -/
def byKey (a b : String × ν) : Ordering := compare a.1 b.1

instance : Std.TransCmp (@byKey ν) := inferInstanceAs (Std.TransCmp (compareOn Prod.fst))

theorem eq_of_byKey {a b : String × ν} (h : byKey a b = .eq) : a.1 = b.1 :=
  Std.LawfulEqCmp.eq_of_compare h

theorem ne_of_byKey {a b : String × ν} (h : byKey a b = .lt) : b.1 ≠ a.1 := by
  intro heq
  have hself : compare a.1 a.1 = .eq := Std.ReflCmp.compare_self
  rw [byKey, heq, hself] at h
  cases h

theorem lookup_cons_ite (e : String × ν) (l : List (String × ν)) (k : String) :
    (e :: l).lookup k = if k = e.1 then some e.2 else l.lookup k := by
  rw [List.lookup_cons]
  by_cases hk : k = e.1
  · rw [if_pos hk, beq_iff_eq.2 hk]
  · rw [if_neg hk, beq_eq_false_iff_ne.2 hk]

/-- Where all keys come later, one is not found. -/
theorem lookup_of_lt {a : String × ν} {l : List (String × ν)} (h : ∀ b ∈ l, byKey a b = .lt) :
    l.lookup a.1 = none := by
  rw [List.lookup_eq_none_iff]
  intro b hb
  simpa using (ne_of_byKey (h b hb)).symm

/-- Where keys differ, a pair is the only one with its key. -/
theorem mem_iff_lookup {l : List (String × ν)} (h : (l.map Prod.fst).Nodup) {k : String} {v : ν} :
    (k, v) ∈ l ↔ l.lookup k = some v := by
  induction l with
  | nil => simp
  | cons b bs ih =>
      rw [List.map_cons, List.nodup_cons] at h
      rw [List.mem_cons, lookup_cons_ite, ih h.2]
      by_cases hk : k = b.1
      · have hnone : bs.lookup b.1 = none := by
          rw [List.lookup_eq_none_iff]
          intro p hp
          rw [bne_iff_ne]
          intro heq
          exact h.1 (heq ▸ List.mem_map_of_mem hp)
        subst hk
        simp [hnone, Prod.ext_iff, eq_comm]
      · simp [hk, Prod.ext_iff]

/-- Pairs in order have different keys. -/
theorem Increasing.mem_iff_lookup {l : List (String × ν)} (h : Increasing byKey l) {k : String}
    {v : ν} : (k, v) ∈ l ↔ l.lookup k = some v := by
  apply Ordered.mem_iff_lookup
  rw [List.Nodup, List.pairwise_map]
  exact h.imp fun hlt => (ne_of_byKey hlt).symm

theorem lookup_insertBy {l : List (String × ν)} (h : Increasing byKey l) (a : String × ν)
    (k : String) : (insertBy byKey a l).lookup k = (l.lookup k).or ([a].lookup k) := by
  induction l with
  | nil => rfl
  | cons b bs ih =>
      obtain ⟨hb, hbs⟩ := List.pairwise_cons.1 h
      rw [insertBy]
      split
      · next hlt =>
          -- A new key is smaller than all that follow, so it is none of them.
          have hfirst : ∀ p ∈ b :: bs, byKey a p = .lt :=
            List.forall_mem_cons.2 ⟨hlt, fun p hp => Std.TransCmp.lt_trans hlt (hb p hp)⟩
          rw [lookup_cons_ite a (b :: bs), lookup_cons_ite a []]
          by_cases hk : k = a.1
          · rw [hk, lookup_of_lt hfirst, Option.none_or, if_pos rfl, if_pos rfl]
          · rw [if_neg hk, if_neg hk, List.lookup_nil, Option.or_none]
      · next heq =>
          rw [lookup_cons_ite a [], lookup_cons_ite b bs, eq_of_byKey heq]
          by_cases hk : k = b.1 <;> simp [hk]
      · rw [lookup_cons_ite, lookup_cons_ite b bs, ih hbs]
        by_cases hk : k = b.1 <;> simp [hk]

theorem lookup_foldl_insertBy (as : List (String × ν)) {acc : List (String × ν)}
    (h : Increasing byKey acc) (k : String) :
    (as.foldl (fun acc a => insertBy byKey a acc) acc).lookup k =
      (acc.lookup k).or (as.lookup k) := by
  induction as generalizing acc with
  | nil => simp
  | cons a as ih =>
      rw [List.foldl_cons, ih (increasing_insertBy h), lookup_insertBy h, Option.or_assoc,
        lookup_cons_ite a [], lookup_cons_ite a as]
      by_cases hk : k = a.1 <;> simp [hk]

/-- The first pair of every key is kept. -/
theorem lookup_ofListBy (as : List (String × ν)) (k : String) :
    (ofListBy byKey as).lookup k = as.lookup k := by
  rw [ofListBy, lookup_foldl_insertBy as increasing_nil]
  simp

/-- What is read for the pairs of a list, beside their keys, where it is not empty. -/
def readings (f : String → ν → List γ) (l : List (String × ν)) : List (String × List γ) :=
  (l.map fun e => (e.1, f e.1 e.2)).filter fun e => !e.2.isEmpty

theorem flatMap_readings (f : String → ν → List γ) (l : List (String × ν)) :
    (readings f l).flatMap Prod.snd = l.flatMap fun e => f e.1 e.2 := by
  induction l with
  | nil => rfl
  | cons e l ih =>
      rw [List.flatMap_cons, ← ih, readings, List.map_cons, List.filter_cons]
      by_cases he : f e.1 e.2 = []
      · simp [he, readings]
      · simp [he, readings]

theorem Increasing.readings {l : List (String × ν)} (h : Increasing byKey l)
    (f : String → ν → List γ) : Increasing byKey (readings f l) := by
  refine List.Pairwise.filter _ (List.pairwise_map.2 ?_)
  exact h

theorem Increasing.mem_readings {l : List (String × ν)} (h : Increasing byKey l)
    (f : String → ν → List γ) {k : String} {x : List γ} :
    (k, x) ∈ Ordered.readings f l ↔ x ≠ [] ∧ (l.lookup k).elim [] (f k) = x := by
  simp only [Ordered.readings, List.mem_filter, List.mem_map, Prod.mk.injEq, Prod.exists]
  constructor
  · rintro ⟨⟨n, v, hmem, rfl, rfl⟩, hx⟩
    exact ⟨by simpa using hx, by simp [h.mem_iff_lookup.1 hmem]⟩
  · rintro ⟨hx, rfl⟩
    cases hk : l.lookup k with
    | none => simp [hk] at hx
    | some v => exact ⟨⟨k, v, h.mem_iff_lookup.2 hk, rfl, rfl⟩, by simpa [hk] using hx⟩

/-- What is read from pairs in order depends on what is read for each key. -/
theorem Increasing.flatMap_congr {l l' : List (String × ν)} (h : Increasing byKey l)
    (h' : Increasing byKey l') (f : String → ν → List γ)
    (hf : ∀ k, (l.lookup k).elim [] (f k) = (l'.lookup k).elim [] (f k)) :
    (l.flatMap fun e => f e.1 e.2) = l'.flatMap fun e => f e.1 e.2 := by
  have hreadings : Ordered.readings f l = Ordered.readings f l' := by
    apply (h.readings f).eq_of_mem_iff (h'.readings f)
    rintro ⟨k, x⟩
    rw [h.mem_readings, h'.mem_readings, hf]
  rw [← flatMap_readings, hreadings, flatMap_readings]

end Keys

end DataAccess.Ordered
