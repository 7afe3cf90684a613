import DataAccess.Model.Registry
import DataAccess.Proofs.OrderedLists
import Mathlib.Data.Finset.Card

set_option autoImplicit false

/-! # The index of the registry

A registry starts from a list of attributes and changes by registering attributes and by removing
them (`Registry.Reached`). A removal moves later attributes to other positions and may bring an
attribute to light that was shadowed.

Registering one more attribute gives the registry of the longer list (`ofList_insert`), so a
registry is always the one of its list of attributes, whatever happened before
(`Reached.eq_ofList`). What an id stands for, where it stands and how many ids there are is then
proved for the registry of a list, by adding attributes at its end. -/

namespace DataAccess

namespace PositionIndex

/-- The ids that have a position. -/
def ids (index : PositionIndex) : List String := index.map Prod.fst

variable (index : PositionIndex) (id : String) (position : Nat)

theorem lookup_set (key : String) : (index.set id position).lookup key =
    if key = id then some position else index.lookup key := by
  induction index with
  | nil => rw [set, Ordered.lookup_cons_ite]
  | cons e index ih =>
      rw [set]
      split
      · next he =>
          rw [Ordered.lookup_cons_ite, Ordered.lookup_cons_ite, he]
          by_cases hkey : key = id <;> simp [hkey]
      · next he =>
          rw [Ordered.lookup_cons_ite, Ordered.lookup_cons_ite, ih]
          by_cases hkey : key = e.1
          · rw [if_pos hkey, if_pos hkey, if_neg (hkey ▸ he)]
          · rw [if_neg hkey, if_neg hkey]

/-- Setting the position of an id keeps its place if it has one, and adds it at the end if not. -/
theorem ids_set : (index.set id position).ids =
    if id ∈ index.ids then index.ids else index.ids ++ [id] := by
  induction index with
  | nil => rfl
  | cons e index ih =>
      have hcons (l : PositionIndex) (e : String × Nat) : ids (e :: l) = e.1 :: ids l := rfl
      rw [set]
      split
      · next he => simp [hcons, he]
      · next he =>
          rw [hcons, hcons, ih]
          by_cases hid : id ∈ ids index <;> simp [hid, Ne.symm he]

end PositionIndex

namespace Registry

/-! ## The registry of a list -/

theorem enter_append (start : Nat) (index : PositionIndex) (as bs : List Attribute) :
    enter start index (as ++ bs) = enter (start + as.length) (enter start index as) bs := by
  induction as generalizing start index with
  | nil => rfl
  | cons a as ih =>
      rw [List.cons_append, enter, ih, enter, List.length_cons, Nat.add_right_comm, Nat.add_assoc]

theorem index_ofList_concat (as : List Attribute) (a : Attribute) :
    (ofList (as ++ [a])).index = (ofList as).index.set a.id as.length := by
  show enter 0 [] (as ++ [a]) = (enter 0 [] as).set a.id as.length
  rw [enter_append, Nat.zero_add]
  rfl

/-- Registering an attribute is the same as having it at the end of the list. -/
theorem ofList_insert (as : List Attribute) (a : Attribute) :
    (ofList as).insert a = ofList (as ++ [a]) := by
  show (⟨as ++ [a], (ofList as).index.set a.id as.length⟩ : Registry) =
    ⟨as ++ [a], (ofList (as ++ [a])).index⟩
  rw [index_ofList_concat]

/-- Every position in the index is one of the list. -/
theorem position_lt (as : List Attribute) {id : String} {position : Nat}
    (h : (ofList as).index.lookup id = some position) : position < as.length := by
  induction as using List.reverseRecOn generalizing position with
  | nil => cases h
  | append_singleton as a ih =>
      rw [index_ofList_concat, PositionIndex.lookup_set] at h
      rw [List.length_append, List.length_singleton]
      split at h
      · cases h
        exact Nat.lt_succ_self _
      · exact Nat.lt_succ_of_lt (ih h)

/-- An attribute at the end shadows all others with its id and no attribute with another one. -/
theorem lookup_ofList_concat (as : List Attribute) (a : Attribute) (id : String) :
    (ofList (as ++ [a])).lookup id = if id = a.id then some a else (ofList as).lookup id := by
  have hlookup (as : List Attribute) : (ofList as).lookup id =
      ((ofList as).index.lookup id).bind fun position => as[position]? := rfl
  rw [hlookup, hlookup, index_ofList_concat, PositionIndex.lookup_set]
  by_cases hid : id = a.id
  · simp [hid]
  · rw [if_neg hid, if_neg hid]
    cases hposition : (ofList as).index.lookup id with
    | none => rfl
    | some position =>
        exact List.getElem?_append_left (position_lt as hposition)

/-- An id stands for the last attribute that has it. -/
theorem lookup_ofList (as : List Attribute) (id : String) :
    (ofList as).lookup id = (as.filter fun a => a.id = id).getLast? := by
  induction as using List.reverseRecOn with
  | nil => rfl
  | append_singleton as a ih =>
      rw [lookup_ofList_concat, List.filter_append, ih]
      by_cases hid : id = a.id
      · simp [hid]
      · simp [hid, Ne.symm hid]

/-- The index holds the ids of the attributes, each once. -/
theorem ids_ofList (as : List Attribute) : (ofList as).index.ids.Nodup ∧
    (ofList as).index.ids.toFinset = (as.map Attribute.id).toFinset := by
  induction as using List.reverseRecOn with
  | nil => exact ⟨List.nodup_nil, rfl⟩
  | append_singleton as a ih =>
      obtain ⟨hnodup, hids⟩ := ih
      rw [index_ofList_concat, PositionIndex.ids_set, List.map_append, List.toFinset_append, ← hids]
      split
      · next hmem => exact ⟨hnodup, by simp [hmem]⟩
      · next hmem =>
          refine ⟨?_, by simp⟩
          rw [← List.concat_eq_append]
          exact hnodup.concat hmem

theorem size_ofList (as : List Attribute) :
    (ofList as).size = (as.map Attribute.id).toFinset.card := by
  obtain ⟨hnodup, hids⟩ := ids_ofList as
  rw [← hids, List.toFinset_card_of_nodup hnodup, PositionIndex.ids, List.length_map]
  rfl

/-! ## Registries after any changes -/

/-- The registries that can be reached from a list by registering and removing attributes. -/
inductive Reached : Registry → Prop where
  | ofList (as : List Attribute) : Reached (ofList as)
  | insert {r : Registry} (h : Reached r) (a : Attribute) : Reached (r.insert a)
  | removeAt {r : Registry} (h : Reached r) {position : Nat}
      (hposition : position < r.attributes.length) : Reached (r.removeAt position)

/-- The index of a registry is always the one of its list. -/
theorem Reached.eq_ofList {r : Registry} (h : r.Reached) : r = Registry.ofList r.attributes := by
  induction h with
  | ofList as => rfl
  | @insert r _ a ih =>
      rw [ih, ofList_insert]
      rfl
  | removeAt _ _ _ => rfl

/-- **The index is in step with the attributes.** However a registry was reached, its index leads
to positions of the list only. An id stands for the last attribute that has it, and for none
exactly if no attribute has it. The size is the number of different ids. Registering an attribute
gives the same answers as a new registry of the list with the attribute at its end. -/
theorem index_in_step {r : Registry} (h : r.Reached) :
    (∀ id position, r.index.lookup id = some position → position < r.attributes.length) ∧
    (∀ id, r.lookup id = (r.attributes.filter fun a => a.id = id).getLast?) ∧
    (∀ id, r.lookup id = none ↔ ∀ a ∈ r.attributes, a.id ≠ id) ∧
    r.size = (r.attributes.map Attribute.id).toFinset.card ∧
    ∀ a id, (r.insert a).lookup id = (Registry.ofList (r.attributes ++ [a])).lookup id := by
  obtain ⟨as, rfl⟩ : ∃ as, r = Registry.ofList as := ⟨r.attributes, h.eq_ofList⟩
  refine ⟨fun _ _ => position_lt as, lookup_ofList as, fun id => ?_, size_ofList as, ?_⟩
  · rw [lookup_ofList, List.getLast?_eq_none_iff, List.filter_eq_nil_iff]
    simp only [decide_eq_true_eq]
    rfl
  · intro a id
    rw [ofList_insert]
    rfl

/-- A registry in which the attribute that shadowed another one was removed again. -/
def unshadowedRegistry : Registry :=
  (((ofList [⟨"sku", "sku", .text, []⟩, ⟨"price", "price", .float, []⟩]).insert
    ⟨"sku", "product_sku", .text, ["required"]⟩).insert ⟨"price", "amount", .int, []⟩).removeAt 2

theorem unshadowedRegistry_in_step : unshadowedRegistry.Reached ∧
    unshadowedRegistry.lookup "sku" = some ⟨"sku", "sku", .text, []⟩ ∧
    unshadowedRegistry.lookup "price" = some ⟨"price", "amount", .int, []⟩ ∧
    unshadowedRegistry.size = 2 := by
  have hreached : unshadowedRegistry.Reached :=
    .removeAt (.insert (.insert (.ofList _) _) _) (by decide)
  obtain ⟨-, hlookup, -, hsize, -⟩ := index_in_step hreached
  exact ⟨hreached, (hlookup "sku").trans (by decide), (hlookup "price").trans (by decide),
    hsize.trans (by decide)⟩

end Registry

end DataAccess
