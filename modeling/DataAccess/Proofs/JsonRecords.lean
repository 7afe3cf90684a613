import DataAccess.Json.Decode
import DataAccess.Proofs.Acceptance

set_option autoImplicit false

/-! # Reading records

Reading a record takes up some of the values directly inside it, one after the other
(`takeAll`). `decode_ok` says which, for an object as well as for an array, and `decode_obj` that an
object with the right names is taken up as it stands. -/

namespace DataAccess.Json

open Validation (bind_eq_ok)

/-! ## Depth -/

/-- The values directly inside an array or an object. -/
def children : Json → List Json
  | .arr vs => vs
  | .obj ms => ms.map Prod.snd
  | _ => []

theorem fitsItems_iff {levels : Nat} {vs : List Json} :
    fitsItems levels vs = true ↔ ∀ v ∈ vs, v.fits levels = true := by
  induction vs with
  | nil => simp [fitsItems]
  | cons v vs ih => rw [fitsItems, Bool.and_eq_true, ih, List.forall_mem_cons]

theorem fitsMembers_iff {levels : Nat} {ms : List (String × Json)} :
    fitsMembers levels ms = true ↔ ∀ m ∈ ms, m.2.fits levels = true := by
  induction ms with
  | nil => simp [fitsMembers]
  | cons m ms ih => rw [fitsMembers, Bool.and_eq_true, ih, List.forall_mem_cons]

@[simp] theorem fits_str (levels : Nat) (s : String) : (str s).fits levels = true := rfl

@[simp] theorem fits_arr {levels : Nat} {vs : List Json} : (arr vs).fits levels = true ↔
    levels ≠ 0 ∧ ∀ v ∈ vs, v.fits (levels - 1) = true := by
  rw [fits, Bool.and_eq_true, fitsItems_iff, bne_iff_ne]

@[simp] theorem fits_obj {levels : Nat} {ms : List (String × Json)} :
    (obj ms).fits levels = true ↔ levels ≠ 0 ∧ ∀ m ∈ ms, m.2.fits (levels - 1) = true := by
  rw [fits, Bool.and_eq_true, fitsMembers_iff, bne_iff_ne]

/-- What is inside a value has one level less. -/
theorem fits_of_mem_children {levels : Nat} {v c : Json} (h : v.fits levels = true)
    (hc : c ∈ v.children) : levels ≠ 0 ∧ c.fits (levels - 1) = true := by
  cases v with
  | arr vs =>
      obtain ⟨hlevels, hvs⟩ := fits_arr.1 h
      exact ⟨hlevels, hvs c hc⟩
  | obj ms =>
      obtain ⟨hlevels, hms⟩ := fits_obj.1 h
      obtain ⟨m, hm, rfl⟩ := List.mem_map.1 hc
      exact ⟨hlevels, hms m hm⟩
  | null | bool _ | int _ | float _ | str _ | void => cases hc

/-! ## Texts and lists -/

@[simp] theorem ok_bind {α β : Type} (a : α) (f : α → Except Mismatch β) :
    (Except.ok a >>= f) = f a := rfl

@[simp] theorem pure_eq {α : Type} (a : α) : (pure a : Except Mismatch α) = .ok a := rfl

@[simp] theorem string_str (s : String) : (str s).string = .ok s := rfl

@[simp] theorem optionalString_str (s : String) : (str s).optionalString = .ok (some s) := rfl

section Lists

variable {α : Type} {item : Json → Except Mismatch α}

theorem decodeAll_eq_ok {vs : List Json} {as : List α} :
    decodeAll item vs = .ok as ↔ List.Forall₂ (fun v a => item v = .ok a) vs as := by
  induction vs generalizing as with
  | nil =>
      rw [decodeAll, List.forall₂_nil_left_iff]
      constructor
      · intro h
        exact (Except.ok.inj h).symm
      · rintro rfl
        rfl
  | cons v vs ih =>
      rw [decodeAll, bind_eq_ok]
      constructor
      · rintro ⟨a, ha, h⟩
        obtain ⟨as', has, h⟩ := bind_eq_ok.1 h
        cases h
        exact .cons ha (ih.1 has)
      · intro h
        cases h with
        | cons ha has => exact ⟨_, ha, bind_eq_ok.2 ⟨_, ih.2 has, rfl⟩⟩

/-- A list is read from an array. -/
theorem list_eq_ok {v : Json} {as : List α} : v.list item = .ok as ↔
    ∃ vs, v = .arr vs ∧ List.Forall₂ (fun v a => item v = .ok a) vs as := by
  cases v with
  | arr vs => simp [list, decodeAll_eq_ok]
  | null | bool _ | int _ | float _ | str _ | obj _ | void => simp [list, reject]

/-- What every item is read as holds of the items of a list. -/
theorem forall_of_list {P : α → Prop} {v : Json} {as : List α} (h : v.list item = .ok as)
    (hitem : ∀ v a, item v = .ok a → P a) : ∀ a ∈ as, P a := by
  obtain ⟨vs, -, hvs⟩ := list_eq_ok.1 h
  intro a ha
  obtain ⟨v, -, hv⟩ := Validation.exists_of_mem_right hvs ha
  exact hitem v a hv

/-- A list that was written item by item is read back if its items are. -/
theorem list_map {write : α → Json} {as : List α} (h : ∀ a ∈ as, item (write a) = .ok a) :
    (Json.arr (as.map write)).list item = .ok as := by
  refine list_eq_ok.2 ⟨_, rfl, ?_⟩
  rw [List.forall₂_map_left_iff, List.forall₂_same]
  exact h

@[simp] theorem list_strings (ss : List String) : (Json.arr (ss.map str)).list string = .ok ss :=
  list_map fun _ _ => rfl

end Lists

/-! ## Records -/

namespace RecordShape

variable {α : Type} {shape : RecordShape} {set : α → String → Json → Except Mismatch α}

/-- Takes up fields one after the other. -/
def takeAll (set : α → String → Json → Except Mismatch α) (a : α) :
    List (String × Json) → Except Mismatch α
  | [] => .ok a
  | (name, v) :: ms => do
    let a ← set a name v
    takeAll set a ms

theorem takeMembers_ok {a a' : α} {seen seen' : List String} {ms : List (String × Json)}
    (h : shape.takeMembers set a seen ms = .ok (a', seen')) :
    ∃ taken, taken ⊆ ms ∧ takeAll set a taken = .ok a' ∧
      ∀ name ∈ seen', name ∈ seen ∨ name ∈ taken.map Prod.fst := by
  induction ms generalizing a seen with
  | nil =>
      cases h
      exact ⟨[], by simp, rfl, fun name hname => .inl hname⟩
  | cons m ms ih =>
      obtain ⟨name, v⟩ := m
      rw [takeMembers] at h
      split_ifs at h
      · obtain ⟨taken, hsubset, htaken, hseen⟩ := ih h
        exact ⟨taken, List.subset_cons_of_subset _ hsubset, htaken, hseen⟩
      · obtain ⟨b, hb, h⟩ := bind_eq_ok.1 h
        obtain ⟨taken, hsubset, htaken, hseen⟩ := ih h
        refine ⟨(name, v) :: taken, List.cons_subset_cons _ hsubset,
          bind_eq_ok.2 ⟨b, hb, htaken⟩, fun n hn => ?_⟩
        rcases hseen n hn with hmem | hmem
        · rcases List.mem_cons.1 hmem with rfl | hmem
          · exact .inr (by simp)
          · exact .inl hmem
        · exact .inr (by simp [hmem])

theorem takeItems_eq (a : α) (fs : List (String × Bool)) (vs : List Json) :
    takeItems set a fs vs = takeAll set a ((fs.map Prod.fst).zip vs) := by
  induction fs generalizing a vs with
  | nil => rfl
  | cons f fs ih =>
      cases vs with
      | nil => rfl
      | cons v vs => simp only [takeItems, List.map_cons, List.zip_cons_cons, takeAll, ih]

theorem mem_map_fst_zip {names : List String} {vs : List Json} {name : String}
    (h : name ∈ names.take vs.length) : name ∈ (names.zip vs).map Prod.fst := by
  induction names generalizing vs with
  | nil => simp at h
  | cons n names ih =>
      cases vs with
      | nil => simp at h
      | cons v vs =>
          rw [List.length_cons, List.take_succ_cons, List.mem_cons] at h
          rw [List.zip_cons_cons, List.map_cons, List.mem_cons]
          exact h.imp_right ih

theorem not_required_of_firstRequired {n : Nat} {fs : List (String × Bool)}
    (h : firstRequired n fs = none) : ∀ f ∈ fs, f.2 = false := by
  induction fs generalizing n with
  | nil => simp
  | cons f fs ih =>
      rw [firstRequired] at h
      split_ifs at h with hrequired
      exact List.forall_mem_cons.2 ⟨by simpa using hrequired, ih h⟩

/-- A record that is read takes up values from inside the document, among them every required
field. -/
theorem decode_ok {a a' : α} {v : Json} (h : shape.decode set a v = .ok a') :
    ∃ taken, (∀ p ∈ taken, p.2 ∈ v.children) ∧ takeAll set a taken = .ok a' ∧
      ∀ f ∈ shape.fields, f.2 = true → f.1 ∈ taken.map Prod.fst := by
  cases v with
  | obj ms =>
      rw [decode] at h
      obtain ⟨⟨b, seen⟩, hmembers, h⟩ := bind_eq_ok.1 h
      obtain ⟨taken, hsubset, htaken, hseen⟩ := takeMembers_ok hmembers
      cases hmissing : shape.fields.find? fun f => f.2 && !seen.contains f.1 with
      | some f =>
          simp only [hmissing] at h
          cases h
      | none =>
          simp only [hmissing] at h
          cases h
          refine ⟨taken, fun p hp => List.mem_map_of_mem (hsubset hp), htaken, ?_⟩
          intro f hf hrequired
          have hnone := List.find?_eq_none.1 hmissing f hf
          rcases hseen f.1 (by simpa [hrequired] using hnone) with hmem | hmem
          · cases hmem
          · exact hmem
  | arr vs =>
      rw [decode] at h
      obtain ⟨b, hitems, h⟩ := bind_eq_ok.1 h
      cases hshort : firstRequired vs.length (shape.fields.drop vs.length) with
      | some n =>
          simp only [hshort] at h
          cases h
      | none =>
          simp only [hshort] at h
          split_ifs at h
          cases h
          rw [takeItems_eq] at hitems
          refine ⟨_, fun p hp => (List.of_mem_zip hp).2, hitems, ?_⟩
          intro f hf hrequired
          have hdrop : f ∉ shape.fields.drop vs.length := by
            intro hmem
            rw [not_required_of_firstRequired hshort f hmem] at hrequired
            cases hrequired
          have htake : f ∈ shape.fields.take vs.length := by
            rw [← List.take_append_drop vs.length shape.fields] at hf
            exact (List.mem_append.1 hf).resolve_right hdrop
          exact mem_map_fst_zip (by rw [← List.map_take]; exact List.mem_map_of_mem htake)
  | null | bool _ | int _ | float _ | str _ | void => cases h

/-- What holds at the start and after every field that is taken up holds in the end. -/
theorem takeAll_keeps {P : α → Prop} {a a' : α} {taken : List (String × Json)}
    (h : takeAll set a taken = .ok a') (ha : P a)
    (hset : ∀ b b' name v, (name, v) ∈ taken → P b → set b name v = .ok b' → P b') : P a' := by
  induction taken generalizing a with
  | nil =>
      cases h
      exact ha
  | cons p taken ih =>
      obtain ⟨name, v⟩ := p
      obtain ⟨b, hb, h⟩ := bind_eq_ok.1 h
      exact ih h (hset a b name v List.mem_cons_self ha hb)
        fun c c' n w hmem => hset c c' n w (List.mem_cons_of_mem _ hmem)

/-- Every field that is taken up is set at some time. -/
theorem exists_set_of_mem {a a' : α} {taken : List (String × Json)}
    (h : takeAll set a taken = .ok a') {p : String × Json} (hp : p ∈ taken) :
    ∃ b b', set b p.1 p.2 = .ok b' := by
  induction taken generalizing a with
  | nil => cases hp
  | cons q taken ih =>
      obtain ⟨b, hb, h⟩ := bind_eq_ok.1 h
      rcases List.mem_cons.1 hp with rfl | hp
      · exact ⟨a, b, hb⟩
      · exact ih h hp

/-- Reading a record keeps what setting its fields keeps. -/
theorem decode_keeps {P : α → Prop} {a a' : α} {v : Json} (h : shape.decode set a v = .ok a')
    (ha : P a) (hset : ∀ b b' name v, P b → set b name v = .ok b' → P b') : P a' := by
  obtain ⟨taken, -, htaken, -⟩ := decode_ok h
  exact takeAll_keeps htaken ha fun b b' name v _ => hset b b' name v

/-- Taking up a field leaves a part of the record as it is, or sets it to what `read` reads. -/
def Sets {β : Type} (set : α → String → Json → Except Mismatch α) (part : α → β)
    (read : Json → Except Mismatch β) : Prop :=
  ∀ a a' name v, set a name v = .ok a' → part a' = part a ∨ read v = .ok (part a')

/-- A part of a record that is read is as it was in the beginning, or it is read from a value inside
the document. -/
theorem Sets.of_decode {β : Type} {part : α → β} {read : Json → Except Mismatch β}
    (hset : Sets set part read) {a a' : α} {v : Json} (h : shape.decode set a v = .ok a') :
    part a' = part a ∨ ∃ w ∈ v.children, read w = .ok (part a') := by
  obtain ⟨taken, hchildren, htaken, -⟩ := decode_ok h
  refine takeAll_keeps
    (P := fun b => part b = part a ∨ ∃ w ∈ v.children, read w = .ok (part b)) htaken (.inl rfl) ?_
  intro b b' name w hmem hb hstep
  rcases hset b b' name w hstep with heq | hread
  · rw [heq]
    exact hb
  · exact .inr ⟨w, hchildren _ hmem, hread⟩

/-- If the part is a list, what holds of every item that is read holds of its items. -/
theorem Sets.forall_of_decode {β : Type} {part : α → List β} {item : Json → Except Mismatch β}
    (hset : Sets set part (list item)) {a a' : α} (hstart : part a = []) {P : β → Prop}
    (hitem : ∀ v b, item v = .ok b → P b) {v : Json} (h : shape.decode set a v = .ok a') :
    ∀ b ∈ part a', P b := by
  rcases hset.of_decode h with heq | ⟨w, -, hw⟩
  · simp [heq, hstart]
  · exact forall_of_list hw hitem

/-! ## Objects with the right names -/

/-- Whether names are those of different fields, with all required ones among them. -/
def accepts (shape : RecordShape) (names : List String) : Bool :=
  names.all shape.hasField && names.Nodup && shape.fields.all fun f => !f.2 || names.contains f.1

theorem takeMembers_eq {a : α} {seen : List String} {ms : List (String × Json)}
    (hfields : ∀ m ∈ ms, shape.hasField m.1 = true) (hnodup : (ms.map Prod.fst).Nodup)
    (hseen : ∀ m ∈ ms, m.1 ∉ seen) : shape.takeMembers set a seen ms =
      (takeAll set a ms).map fun a => (a, (ms.map Prod.fst).reverse ++ seen) := by
  induction ms generalizing a seen with
  | nil => rfl
  | cons m ms ih =>
      obtain ⟨name, v⟩ := m
      obtain ⟨hfield, hfields⟩ := List.forall_mem_cons.1 hfields
      obtain ⟨hname, hnodup⟩ := List.nodup_cons.1 hnodup
      obtain ⟨hnew, hseen⟩ := List.forall_mem_cons.1 hseen
      rw [takeMembers, if_neg (by simp [hfield]), if_neg (by simpa using hnew), takeAll]
      cases hset : set a name v with
      | error e => rfl
      | ok b =>
          have hrest := @ih b (name :: seen) hfields hnodup fun m hm hmem => by
            rcases List.mem_cons.1 hmem with heq | hmem
            · have hrepeated : m.1 ∈ ms.map Prod.fst := List.mem_map_of_mem hm
              exact hname (heq ▸ hrepeated)
            · exact hseen m hm hmem
          show shape.takeMembers set b (name :: seen) ms = (takeAll set b ms).map _
          rw [hrest, List.map_cons, List.reverse_cons, List.append_assoc]
          rfl

/-- An object with the right names is taken up as it stands. -/
theorem decode_obj {ms : List (String × Json)} (h : shape.accepts (ms.map Prod.fst) = true)
    (a : α) : shape.decode set a (.obj ms) = takeAll set a ms := by
  simp only [accepts, Bool.and_eq_true, decide_eq_true_eq] at h
  obtain ⟨⟨hfields, hnodup⟩, hrequired⟩ := h
  have hfields' : ∀ m ∈ ms, shape.hasField m.1 = true := fun m hm =>
    List.all_eq_true.1 hfields _ (List.mem_map_of_mem hm)
  rw [decode, takeMembers_eq hfields' hnodup (by simp)]
  cases takeAll set a ms with
  | error e => rfl
  | ok b =>
      have hnone : shape.fields.find? (fun f => f.2 &&
          !((ms.map Prod.fst).reverse ++ []).contains f.1) = none := by
        rw [List.find?_eq_none]
        intro f hf
        have hf := List.all_eq_true.1 hrequired f hf
        cases hrequired : f.2 with
        | false => simp
        | true => simpa [hrequired] using hf
      simp only [Except.map, bind, Except.bind, hnone]
      rfl

end RecordShape

end DataAccess.Json
