import DataAccess.Model.Codec
import DataAccess.Proofs.JsonRecords
import DataAccess.Proofs.JsonText

set_option autoImplicit false

/-! # Written descriptions read back

Models, registries and filters are read back from the text they are written as. Two things can
stand against it. An operator that is kept as an unknown spelling, although the spelling is that of
a known one, is never read (`Filter.Parsed`), and a document can nest deeper than the reader goes
(`Json.fits`). What was read once has neither, so it is read back in any case. -/

namespace DataAccess

open Json (Mismatch RecordShape Textual)
open Json.RecordShape (Sets)
open Validation (bind_eq_ok)

/-! ## Operators -/

/-- A known operator is read from its own spelling. -/
theorem Operator.parse_spelling {s : String} {op : Operator} (h : ofSpelling? s = some op) :
    parse op.spelling = op := by
  have hknown : ∀ op ∈ [Operator.eq, .ne, .lt, .le, .gt, .ge, .isIn, .between, .like, .notLike,
      .ilike, .is, .isNot], parse op.spelling = op := by decide +kernel
  unfold ofSpelling? at h
  split at h <;> cases h <;> exact hknown _ (by simp)

/-- Reading an operator again changes nothing. -/
theorem Operator.parse_spelling_parse (s : String) : parse (parse s).spelling = parse s := by
  cases hop : ofSpelling? (Unicode.upperText (String.intercalate " " (Text.words s))) with
  | none =>
      have hparse : parse s = .unknown s := by rw [parse, hop, Option.getD_none]
      rw [hparse, spelling, hparse]
  | some op =>
      have hparse : parse s = op := by rw [parse, hop, Option.getD_some]
      rw [hparse]
      exact parse_spelling hop

theorem Connective.parse_spelling {s : String} {op : Connective} (h : ofSpelling? s = some op) :
    parse op.spelling = op := by
  have hknown : ∀ op ∈ [Connective.and, .or, .not], parse op.spelling = op := by decide +kernel
  unfold ofSpelling? at h
  split at h <;> cases h <;> exact hknown _ (by simp)

theorem Connective.parse_spelling_parse (s : String) : parse (parse s).spelling = parse s := by
  cases hop : ofSpelling? (Unicode.upperText (Text.trim s)) with
  | none =>
      have hparse : parse s = .unknown s := by rw [parse, hop, Option.getD_none]
      rw [hparse, spelling, hparse]
  | some op =>
      have hparse : parse s = op := by rw [parse, hop, Option.getD_some]
      rw [hparse]
      exact parse_spelling hop

theorem StorageType.parse?_name : ∀ t : StorageType, parse? t.name = some t := by
  intro t
  have hall : ∀ t ∈ StorageType.all, parse? t.name = some t := by decide +kernel
  cases t <;> exact hall _ (by decide)

/-! ## Filters -/

namespace Filter

/-- A filter whose operators are read from spellings. -/
inductive Parsed : Filter → Prop
  | compare {c : Comparison} (h : ∃ s, Operator.parse s = c.operator) : Parsed (.compare c)
  | group {op : Connective} {fs : List Filter} (h : ∃ s, Connective.parse s = op)
      (hfs : ∀ f ∈ fs, Parsed f) : Parsed (.group op fs)

theorem allToJson_eq_map (fs : List Filter) : allToJson fs = fs.map toJson := by
  induction fs with
  | nil => rfl
  | cons f fs ih => rw [allToJson, ih, List.map_cons]

theorem fits_compare {levels : Nat} {c : Comparison} :
    (compare c).toJson.fits levels = true ↔ levels ≠ 0 := by
  cases htransformation : c.transformation <;> simp [toJson, htransformation]

theorem fits_group {levels : Nat} {op : Connective} {fs : List Filter} :
    (group op fs).toJson.fits levels = true ↔
      2 ≤ levels ∧ ∀ f ∈ fs, f.toJson.fits (levels - 2) = true := by
  have hlevels : levels ≠ 0 ∧ levels - 1 ≠ 0 ↔ 2 ≤ levels := by omega
  have hsub : levels - 1 - 1 = levels - 2 := by omega
  rw [← hlevels, and_assoc]
  simp [toJson, allToJson_eq_map, hsub]

/-- The form of a comparison is not that of a group: it has no filters. -/
theorem decode_group_compare (item : Json → Except Mismatch Filter) (c : Comparison) :
    ∃ e, groupShape.decode (setGroup item) default (compare c).toJson = .error e := by
  rw [toJson]
  cases c.transformation with
  | none => exact ⟨_, rfl⟩
  | some t => exact ⟨_, rfl⟩

theorem decode_compare {c : Comparison} (h : ∃ s, Operator.parse s = c.operator) :
    Comparison.shape.decode Comparison.set default (compare c).toJson = .ok c := by
  obtain ⟨attr, transformation, operator, parameter⟩ := c
  obtain ⟨s, rfl⟩ := h
  rw [toJson]
  cases transformation with
  | none =>
      have hnames : Comparison.shape.accepts ["attribute", "operator", "parameter"] = true := by
        decide
      have hdefault : (default : Comparison).transformation = none := rfl
      rw [RecordShape.decode_obj hnames]
      simp [RecordShape.takeAll, Comparison.set, Operator.parse_spelling_parse, hdefault]
  | some t =>
      have hnames : Comparison.shape.accepts
          ["attribute", "transformation", "operator", "parameter"] = true := by decide
      rw [RecordShape.decode_obj hnames]
      simp [RecordShape.takeAll, Comparison.set, Operator.parse_spelling_parse]

theorem decode_group {op : Connective} (h : ∃ s, Connective.parse s = op)
    {item : Json → Except Mismatch Filter} {fs : List Filter}
    (hfs : ∀ f ∈ fs, item f.toJson = .ok f) :
    groupShape.decode (setGroup item) default (group op fs).toJson = .ok (op, fs) := by
  obtain ⟨s, rfl⟩ := h
  have hnames : groupShape.accepts ["operator", "filters"] = true := by decide
  rw [toJson, allToJson_eq_map, RecordShape.decode_obj hnames]
  simp [RecordShape.takeAll, setGroup, Connective.parse_spelling_parse, Json.list_map hfs]

/-- A filter of parsed operators is read back, if the reader goes as deep as it nests. -/
theorem ofJson_toJson {f : Filter} (h : Parsed f) {levels depth : Nat} (hle : depth ≤ levels)
    (hfits : f.toJson.fits depth = true) : ofJson levels f.toJson = .ok f := by
  induction h generalizing levels depth with
  | @compare c hop =>
      have hdepth := fits_compare.1 hfits
      obtain ⟨levels, rfl⟩ : ∃ n, levels = n + 1 := ⟨levels - 1, by omega⟩
      obtain ⟨e, he⟩ := decode_group_compare (ofJson levels) c
      rw [ofJson, he, decode_compare hop]
  | @group op fs hop _ ih =>
      obtain ⟨hdepth, hitems⟩ := fits_group.1 hfits
      obtain ⟨levels, rfl⟩ : ∃ n, levels = n + 1 := ⟨levels - 1, by omega⟩
      have hfs : ∀ f ∈ fs, ofJson levels f.toJson = .ok f := fun f hf =>
        ih f hf (by omega) (hitems f hf)
      rw [ofJson, decode_group hop hfs]

theorem sets_connective (item : Json → Except Mismatch Filter) :
    Sets (setGroup item) Prod.fst fun v => v.string.map Connective.parse := by
  intro g g' name v h
  unfold setGroup at h
  split at h <;> grind [bind_eq_ok, Json.pure_eq, Except.map]

theorem sets_group (item : Json → Except Mismatch Filter) :
    Sets (setGroup item) Prod.snd (Json.list item) := by
  intro g g' name v h
  unfold setGroup at h
  split at h <;> grind [bind_eq_ok, Json.pure_eq]

theorem sets_operator :
    Sets Comparison.set Comparison.operator fun v => v.string.map Operator.parse := by
  intro c c' name v h
  unfold Comparison.set at h
  split at h <;> grind [bind_eq_ok, Json.pure_eq, Except.map]

/-- What is read as the parse of a text is the parse of some text. -/
theorem exists_of_map {α : Type} {parse : String → α} {v : Json} {a : α}
    (h : v.string.map parse = .ok a) : ∃ s, parse s = a := by
  cases hs : v.string with
  | error e =>
      rw [hs] at h
      cases h
  | ok s =>
      rw [hs] at h
      exact ⟨s, Except.ok.inj h⟩

/-- What a group is read from, given what its filters are read from. -/
theorem group_ok {levels depth : Nat} {v : Json} {op : Connective} {fs : List Filter}
    (h : groupShape.decode (setGroup (ofJson levels)) default v = .ok (op, fs))
    (hv : v.fits depth = true)
    (hitem : ∀ w f, ofJson levels w = .ok f → w.fits (depth - 2) = true →
      Parsed f ∧ f.toJson.fits (depth - 2) = true) :
    Parsed (.group op fs) ∧ (group op fs).toJson.fits depth = true := by
  obtain ⟨taken, hchildren, htaken, hrequired⟩ := RecordShape.decode_ok h
  have hlist {w : Json} (hw : w ∈ v.children) {gs : List Filter}
      (hgs : w.list (ofJson levels) = .ok gs) :
      2 ≤ depth ∧ ∀ g ∈ gs, Parsed g ∧ g.toJson.fits (depth - 2) = true := by
    obtain ⟨hdepth, hfits⟩ := Json.fits_of_mem_children hv hw
    obtain ⟨ws, rfl, hws⟩ := Json.list_eq_ok.1 hgs
    obtain ⟨hdepth', hitems⟩ := Json.fits_arr.1 hfits
    refine ⟨by omega, fun g hg => ?_⟩
    obtain ⟨w, hw, hread⟩ := Validation.exists_of_mem_right hws hg
    exact hitem w g hread (hitems w hw)
  have hop : ∃ s, Connective.parse s = op := by
    rcases (sets_connective _).of_decode h with heq | ⟨w, -, hw⟩
    · exact ⟨"AND", by rw [show op = .and from heq]; decide +kernel⟩
    · exact exists_of_map hw
  have hfs : ∀ f ∈ fs, Parsed f ∧ f.toJson.fits (depth - 2) = true := by
    rcases (sets_group _).of_decode h with heq | ⟨w, hw, hfs⟩
    · rw [show fs = [] from heq]
      exact fun _ hf => nomatch hf
    · exact (hlist hw hfs).2
  -- The list of filters is required, so the document has room for it.
  obtain ⟨⟨name, w⟩, hmem, rfl⟩ := List.mem_map.1 (hrequired ("filters", true) (by decide) rfl)
  obtain ⟨g, g', hset⟩ := RecordShape.exists_set_of_mem htaken hmem
  obtain ⟨gs, hgs, -⟩ := bind_eq_ok.1 hset
  exact ⟨.group hop fun f hf => (hfs f hf).1,
    fits_group.2 ⟨(hlist (hchildren _ hmem) hgs).1, fun f hf => (hfs f hf).2⟩⟩

theorem compare_ok {depth : Nat} {v : Json} {c : Comparison}
    (h : Comparison.shape.decode Comparison.set default v = .ok c) (hv : v.fits depth = true) :
    Parsed (.compare c) ∧ (compare c).toJson.fits depth = true := by
  obtain ⟨taken, hchildren, htaken, hrequired⟩ := RecordShape.decode_ok h
  have hoperator : ∃ s, Operator.parse s = c.operator := by
    rcases sets_operator.of_decode h with heq | ⟨w, -, hw⟩
    · exact ⟨"=", by rw [heq]; decide +kernel⟩
    · exact exists_of_map hw
  obtain ⟨p, hp, -⟩ := List.mem_map.1 (hrequired ("attribute", true) (by decide) rfl)
  exact ⟨.compare hoperator,
    fits_compare.2 (Json.fits_of_mem_children hv (hchildren p hp)).1⟩

/-- A filter that is read has parsed operators and nests no deeper than what it is read from. -/
theorem ofJson_ok {levels depth : Nat} {v : Json} {f : Filter} (h : ofJson levels v = .ok f)
    (hv : v.fits depth = true) : Parsed f ∧ f.toJson.fits depth = true := by
  induction levels generalizing depth v f with
  | zero => cases h
  | succ levels ih =>
      rw [ofJson] at h
      split at h
      · next op fs hgroup =>
          cases h
          exact group_ok hgroup hv fun w f hw hfits => ih hw hfits
      · split at h
        · next c hcompare =>
            cases h
            exact compare_ok hcompare hv
        · cases h

/-- A filter that a reader can read back at a place with room for so many levels. -/
structure Readable (levels : Nat) (f : Filter) : Prop where
  parsed : Parsed f
  fits : f.toJson.fits levels = true

theorem decode_toJson {levels : Nat} {f : Filter} (h : Readable levels f) :
    decode levels f.toJson = .ok f := by
  rw [decode, if_pos h.fits]
  exact ofJson_toJson h.parsed (Nat.le_refl levels) h.fits

theorem readable_of_decode {levels : Nat} {v : Json} {f : Filter} (h : decode levels v = .ok f) :
    Readable levels f := by
  rw [decode] at h
  split_ifs at h with hfits
  obtain ⟨hparsed, hfits⟩ := ofJson_ok h hfits
  exact ⟨hparsed, hfits⟩

/-- Filters that can be read back. -/
def AllReadable (levels : Nat) (fs : List Filter) : Prop := ∀ f ∈ fs, Readable levels f

theorem allReadable_nil (levels : Nat) : AllReadable levels [] := fun _ hf => by cases hf

theorem list_toJson {levels : Nat} {fs : List Filter} (h : AllReadable levels fs) :
    (Json.arr (allToJson fs)).list (decode levels) = .ok fs := by
  rw [allToJson_eq_map]
  exact Json.list_map fun f hf => decode_toJson (h f hf)

/-- Filters that are read as a part of a record can be read back. -/
theorem allReadable_of_record {α : Type} {shape : RecordShape}
    {set : α → String → Json → Except Mismatch α} {filters : α → List Filter} {levels : Nat}
    (hset : Sets set filters (Json.list (decode levels))) {a a' : α} (hstart : filters a = [])
    {v : Json} (h : shape.decode set a v = .ok a') : AllReadable levels (filters a') :=
  hset.forall_of_decode hstart (fun _ _ => readable_of_decode) h

end Filter

open DataAccess.Filter (AllReadable)

/-! ## Methods -/

theorem Assignment.ofJson_toJson (a : Assignment) : ofJson a.toJson = .ok a := by
  have hnames : shape.accepts ["attribute", "parameter"] = true := by decide
  rw [ofJson, toJson, RecordShape.decode_obj hnames]
  simp [RecordShape.takeAll, set]

theorem Assignment.list_toJson (as : List Assignment) :
    (allToJson as).list ofJson = .ok as := Json.list_map fun a _ => ofJson_toJson a

theorem Json.list_ofStrings (ss : List String) : (ofStrings ss).list string = .ok ss :=
  list_strings ss

theorem Find.ofJson_toJson {levels : Nat} {m : Find} (h : AllReadable levels m.filters) :
    ofJson levels m.toJson = .ok m := by
  have hnames : shape.accepts ["name", "attributes", "filters"] = true := by decide
  rw [ofJson, toJson, RecordShape.decode_obj hnames]
  simp [RecordShape.takeAll, setField, Json.list_ofStrings, Filter.list_toJson h]

theorem Update.ofJson_toJson {levels : Nat} {m : Update} (h : AllReadable levels m.filters) :
    ofJson levels m.toJson = .ok m := by
  have hnames : shape.accepts ["name", "filters", "set", "increment", "timestamp"] = true := by
    decide
  rw [ofJson, toJson, RecordShape.decode_obj hnames]
  simp [RecordShape.takeAll, setField, Json.list_ofStrings, Assignment.list_toJson,
    Filter.list_toJson h]

theorem Add.ofJson_toJson (m : Add) : ofJson m.toJson = .ok m := by
  have hnames : shape.accepts ["name", "values"] = true := by decide
  rw [ofJson, toJson, RecordShape.decode_obj hnames]
  simp [RecordShape.takeAll, setField, Assignment.list_toJson]

theorem Upsert.ofJson_toJson (m : Upsert) : ofJson m.toJson = .ok m := by
  have hnames : shape.accepts ["name", "values", "conflict"] = true := by decide
  rw [ofJson, toJson, RecordShape.decode_obj hnames]
  simp [RecordShape.takeAll, setField, Json.list_ofStrings, Assignment.list_toJson]

theorem Delete.ofJson_toJson {levels : Nat} {m : Delete} (h : AllReadable levels m.filters) :
    ofJson levels m.toJson = .ok m := by
  have hnames : shape.accepts ["name", "filters"] = true := by decide
  rw [ofJson, toJson, RecordShape.decode_obj hnames]
  simp [RecordShape.takeAll, setField, Filter.list_toJson h]

/-- The filters of a method are read as a list of filters. -/
theorem Method.sets_filters (levels : Nat) :
    Sets (Find.setField levels) Find.filters (Json.list (Filter.decode levels)) ∧
      Sets (Update.setField levels) Update.filters (Json.list (Filter.decode levels)) ∧
      Sets (Delete.setField levels) Delete.filters (Json.list (Filter.decode levels)) := by
  refine ⟨?_, ?_, ?_⟩
  all_goals
    intro m m' name v h
    simp only [Find.setField, Update.setField, Delete.setField] at h
    split at h <;> grind [bind_eq_ok, Json.pure_eq]

/-! ## Models -/

/-- Access methods whose filters can be read back. -/
structure Access.Readable (levels : Nat) (a : Access) : Prop where
  find : ∀ m ∈ a.find, AllReadable levels m.filters
  update : ∀ m ∈ a.update, AllReadable levels m.filters
  delete : ∀ m ∈ a.delete, AllReadable levels m.filters

theorem Access.readable_empty (levels : Nat) : Readable levels {} :=
  ⟨by simp, by simp, by simp⟩

theorem Access.readable_iff {levels : Nat} {a : Access} :
    Readable levels a ↔ ∀ q ∈ a.methods, AllReadable levels q.filters := by
  constructor
  · intro h q hq
    cases q with
    | find m => exact h.find m (by simpa [methods] using hq)
    | update m => exact h.update m (by simpa [methods] using hq)
    | delete m => exact h.delete m (by simpa [methods] using hq)
    | add m => exact Filter.allReadable_nil levels
    | addOrReplace m => exact Filter.allReadable_nil levels
  · intro h
    exact {
      find := fun m hm => h (.find m) (by simpa [methods] using hm)
      update := fun m hm => h (.update m) (by simpa [methods] using hm)
      delete := fun m hm => h (.delete m) (by simpa [methods] using hm) }

theorem Access.ofJson_toJson {levels : Nat} {a : Access} (h : Readable levels a) :
    ofJson levels a.toJson = .ok a := by
  have hnames : shape.accepts ["find", "update", "add", "add_or_replace", "delete"] = true := by
    decide
  have hfind := Json.list_map fun m hm => Find.ofJson_toJson (h.find m hm)
  have hupdate := Json.list_map fun m hm => Update.ofJson_toJson (h.update m hm)
  have hadd := Json.list_map fun m (_ : m ∈ a.add) => Add.ofJson_toJson m
  have hupsert := Json.list_map fun m (_ : m ∈ a.addOrReplace) => Upsert.ofJson_toJson m
  have hdelete := Json.list_map fun m hm => Delete.ofJson_toJson (h.delete m hm)
  rw [ofJson, toJson, RecordShape.decode_obj hnames]
  simp [RecordShape.takeAll, setField, hfind, hupdate, hadd, hupsert, hdelete]

theorem Access.sets_methods (levels : Nat) :
    Sets (setField levels) find (Json.list (Find.ofJson levels)) ∧
      Sets (setField levels) update (Json.list (Update.ofJson levels)) ∧
      Sets (setField levels) delete (Json.list (Delete.ofJson levels)) := by
  refine ⟨?_, ?_, ?_⟩
  all_goals
    intro a a' name v h
    unfold setField at h
    split at h <;> grind [bind_eq_ok, Json.pure_eq]

theorem Access.readable_of_ofJson {levels : Nat} {v : Json} {a : Access}
    (h : ofJson levels v = .ok a) : Readable levels a := by
  obtain ⟨hfind, hupdate, hdelete⟩ := sets_methods levels
  obtain ⟨hfindFilters, hupdateFilters, hdeleteFilters⟩ := Method.sets_filters levels
  exact {
    find := hfind.forall_of_decode rfl
      (fun _ _ => Filter.allReadable_of_record hfindFilters rfl) h
    update := hupdate.forall_of_decode rfl
      (fun _ _ => Filter.allReadable_of_record hupdateFilters rfl) h
    delete := hdelete.forall_of_decode rfl
      (fun _ _ => Filter.allReadable_of_record hdeleteFilters rfl) h }

theorem Model.ofJson_toJson {levels : Nat} {m : Model}
    (h : m.access.Readable (levels - levelsAboveFilters)) : ofJson levels m.toJson = .ok m := by
  have hindexes := Json.list_map fun ss (_ : ss ∈ m.indexes) => Json.list_ofStrings ss
  obtain ⟨name, schema, attributes, indexes, access⟩ := m
  cases schema with
  | none =>
      have hnames : shape.accepts ["name", "attributes", "indexes", "access"] = true := by decide
      have hdefault : (default : Model).schema = none := rfl
      rw [ofJson, toJson, RecordShape.decode_obj hnames]
      simp [RecordShape.takeAll, setField, Json.list_ofStrings, hindexes,
        Access.ofJson_toJson h, hdefault]
  | some s =>
      have hnames : shape.accepts
          ["name", "namespace", "attributes", "indexes", "access"] = true := by decide
      rw [ofJson, toJson, RecordShape.decode_obj hnames]
      simp [RecordShape.takeAll, setField, Json.list_ofStrings, hindexes, Access.ofJson_toJson h]

theorem Model.sets_access (levels : Nat) :
    Sets (setField levels) access (Access.ofJson levels) := by
  intro m m' name v h
  unfold setField at h
  split at h <;> grind [bind_eq_ok, Json.pure_eq]

theorem Model.readable_of_ofJson {levels : Nat} {v : Json} {m : Model}
    (h : ofJson levels v = .ok m) : m.access.Readable (levels - levelsAboveFilters) := by
  rcases (sets_access _).of_decode h with heq | ⟨w, -, hw⟩
  · rw [heq]
    exact Access.readable_empty _
  · exact Access.readable_of_ofJson hw

/-! ## Registries -/

theorem StorageType.ofJson_name (t : StorageType) : ofJson (.str t.name) = .ok t := by
  simp [ofJson, parse?_name]

theorem Attribute.ofJson_toJson (a : Attribute) : ofJson a.toJson = .ok a := by
  have hnames : shape.accepts ["id", "name", "type", "validations"] = true := by decide
  rw [ofJson, toJson, RecordShape.decode_obj hnames]
  simp [RecordShape.takeAll, set, StorageType.ofJson_name, Json.list_ofStrings]

/-- A registry is read without its index. -/
theorem Registry.ofJson_toJson (r : Registry) :
    ofJson r.toJson = .ok { attributes := r.attributes } := by
  have hnames : shape.accepts ["attributes"] = true := by decide
  have hattributes := Json.list_map fun a (_ : a ∈ r.attributes) => Attribute.ofJson_toJson a
  have hdefault : (default : Registry).index = [] := rfl
  rw [ofJson, toJson, RecordShape.decode_obj hnames]
  simp [RecordShape.takeAll, set, hattributes, hdefault]

theorem Registry.index_of_ofJson {v : Json} {r : Registry} (h : ofJson v = .ok r) :
    r.index = [] := by
  refine RecordShape.decode_keeps (P := fun r => r.index = []) h rfl ?_
  intro r r' name v hr hset
  unfold set at hset
  split at hset
  · obtain ⟨_, -, hset⟩ := bind_eq_ok.1 hset
    exact Except.ok.inj hset ▸ hr
  · exact Except.ok.inj hset ▸ hr

/-! ## Depth of models -/

theorem Json.fits_ofStrings (levels : Nat) (ss : List String) :
    (ofStrings ss).fits (levels + 1) = true := by
  simp [ofStrings]

theorem Assignment.fits_allToJson (levels : Nat) (as : List Assignment) :
    (allToJson as).fits (levels + 2) = true := by
  simp [allToJson, toJson]

/-- A method as JSON, as it stands in the list of its kind. -/
def Method.toJson : Method → Json
  | .find m => m.toJson
  | .update m => m.toJson
  | .add m => m.toJson
  | .addOrReplace m => m.toJson
  | .delete m => m.toJson

/-- The filters of a method stand two levels deep in it, and nothing else stands deeper. -/
theorem Method.fits_toJson {levels : Nat} (q : Method) : q.toJson.fits (levels + 3) = true ↔
    ∀ f ∈ q.filters, f.toJson.fits (levels + 1) = true := by
  cases q <;>
    simp [toJson, Find.toJson, Update.toJson, Add.toJson, Upsert.toJson, Delete.toJson, filters,
      Filter.allToJson_eq_map, Json.fits_ofStrings, Assignment.fits_allToJson]

theorem Access.fits_toJson {levels : Nat} {a : Access} : a.toJson.fits (levels + 2) = true ↔
    ∀ q ∈ a.methods, q.toJson.fits levels = true := by
  simp [toJson, methods, Method.toJson, or_imp, forall_and]

/-- The filters of a model stand five levels deep in it, and nothing else stands deeper. -/
theorem Model.fits_toJson {levels : Nat} {m : Model} : m.toJson.fits (levels + 6) = true ↔
    ∀ q ∈ m.access.methods, ∀ f ∈ q.filters, f.toJson.fits (levels + 1) = true := by
  have haccess : m.access.toJson.fits (levels + 5) = true ↔
      ∀ q ∈ m.access.methods, ∀ f ∈ q.filters, f.toJson.fits (levels + 1) = true := by
    simp only [Access.fits_toJson, Method.fits_toJson]
  rw [← haccess]
  cases hschema : m.schema <;> simp [toJson, hschema, Json.fits_ofStrings]

/-! ## Texts -/

mutual

theorem Filter.textual_toJson : ∀ f : Filter, Textual f.toJson
  | .compare c => by
      rw [toJson]
      cases c.transformation <;> simp
  | .group op fs => by
      rw [toJson]
      simpa using textual_allToJson fs

theorem Filter.textual_allToJson : ∀ fs : List Filter, ∀ v ∈ allToJson fs, Textual v
  | [] => by simp [allToJson]
  | f :: fs => by
      rw [allToJson]
      exact List.forall_mem_cons.2 ⟨textual_toJson f, textual_allToJson fs⟩

end

theorem Json.textual_ofStrings (ss : List String) : Textual (ofStrings ss) := by
  simp [ofStrings]

theorem Assignment.textual_allToJson (as : List Assignment) : Textual (allToJson as) := by
  simp [allToJson, toJson]

theorem Method.textual_toJson (q : Method) : Textual q.toJson := by
  cases q <;>
    simp [toJson, Find.toJson, Update.toJson, Add.toJson, Upsert.toJson, Delete.toJson,
      Filter.allToJson_eq_map, Filter.textual_toJson, Json.textual_ofStrings,
      Assignment.textual_allToJson]

theorem Access.textual_toJson (a : Access) : Textual a.toJson := by
  have hmethods : ∀ q ∈ a.methods, Textual q.toJson := fun q _ => q.textual_toJson
  simpa [toJson, methods, Method.toJson, or_imp, forall_and] using hmethods

theorem Model.textual_toJson (m : Model) : Textual m.toJson := by
  rw [toJson]
  cases m.schema <;> simp [Json.textual_ofStrings, Access.textual_toJson]

theorem Attribute.textual_toJson (a : Attribute) : Textual a.toJson := by
  simp [toJson, Json.textual_ofStrings]

theorem Registry.textual_toJson (r : Registry) : Textual r.toJson := by
  simp [toJson, Attribute.textual_toJson]

/-- What is written is read as the value that was written. -/
theorem Json.decodeText_render {α : Type} {decode : Json → Except Mismatch α} {v : Json}
    (h : Textual v) {a : α} : decodeText decode v.render = .ok a ↔ decode v = .ok a := by
  rw [decodeText, read?_render h]
  cases hdecode : decode v with
  | ok b => simp [hdecode]
  | error e => by_cases hfits : v.fits maxDepth = true <;> simp [hdecode, hfits]

theorem Json.decode_of_decodeText {α : Type} {decode : Json → Except Mismatch α} {text : String}
    {a : α} (h : decodeText decode text = .ok a) : ∃ v, decode v = .ok a := by
  rw [decodeText] at h
  split at h
  · cases h
  · next v _ =>
      split at h
      · next b hb => exact ⟨v, hb.trans h⟩
      · split_ifs at h

/-- A model whose operators are read from spellings. -/
def Model.Parsed (m : Model) : Prop := ∀ q ∈ m.access.methods, ∀ f ∈ q.filters, f.Parsed

theorem Model.readable_iff {m : Model} :
    m.access.Readable (Json.maxDepth - levelsAboveFilters) ↔
      m.Parsed ∧ m.toJson.fits Json.maxDepth = true := by
  have hfits : m.toJson.fits Json.maxDepth = true ↔ ∀ q ∈ m.access.methods, ∀ f ∈ q.filters,
      f.toJson.fits (Json.maxDepth - levelsAboveFilters) = true := @fits_toJson 121 m
  rw [Access.readable_iff, hfits, Parsed]
  constructor
  · intro h
    exact ⟨fun q hq f hf => (h q hq f hf).parsed, fun q hq f hf => (h q hq f hf).fits⟩
  · rintro ⟨hparsed, hfits⟩ q hq f hf
    exact ⟨hparsed q hq f hf, hfits q hq f hf⟩

/-- A model is read back exactly if its operators are parsed and it does not nest too deep. -/
theorem Model.ofText_toJson_iff {m : Model} : ofText m.toJson.render = .ok m ↔
    m.Parsed ∧ m.toJson.fits Json.maxDepth = true := by
  rw [ofText, Json.decodeText_render m.textual_toJson, ← readable_iff]
  exact ⟨readable_of_ofJson, ofJson_toJson⟩

theorem Filter.ofText_toJson_iff {f : Filter} : ofText f.toJson.render = .ok f ↔
    f.Parsed ∧ f.toJson.fits Json.maxDepth = true := by
  rw [ofText, Json.decodeText_render f.textual_toJson]
  constructor
  · intro h
    exact ⟨(readable_of_decode h).parsed, (readable_of_decode h).fits⟩
  · rintro ⟨hparsed, hfits⟩
    exact decode_toJson ⟨hparsed, hfits⟩

/-- **What is written is read back.** A model and a filter are, exactly if their operators are
parsed and they do not nest too deep; attributes are in any case. What was read from some text, in
whatever form, is always read back from the text it is written as. -/
theorem written_read_back :
    (∀ m : Model, Model.ofText m.toJson.render = .ok m ↔
      m.Parsed ∧ m.toJson.fits Json.maxDepth = true) ∧
    (∀ f : Filter, Filter.ofText f.toJson.render = .ok f ↔
      f.Parsed ∧ f.toJson.fits Json.maxDepth = true) ∧
    (∀ a : Attribute, Attribute.ofText a.toJson.render = .ok a) ∧
    (∀ r : Registry, Registry.ofText r.toJson.render = .ok { attributes := r.attributes }) ∧
    (∀ text m, Model.ofText text = .ok m → Model.ofText m.toJson.render = .ok m) ∧
    (∀ text f, Filter.ofText text = .ok f → Filter.ofText f.toJson.render = .ok f) ∧
    ∀ text r, Registry.ofText text = .ok r → Registry.ofText r.toJson.render = .ok r := by
  have hregistry (r : Registry) :
      Registry.ofText r.toJson.render = .ok { attributes := r.attributes } := by
    rw [Registry.ofText, Json.decodeText_render r.textual_toJson]
    exact r.ofJson_toJson
  refine ⟨fun m => Model.ofText_toJson_iff, fun f => Filter.ofText_toJson_iff, fun a => ?_,
    hregistry, fun text m h => ?_, fun text f h => ?_, fun text r h => ?_⟩
  · rw [Attribute.ofText, Json.decodeText_render a.textual_toJson]
    exact a.ofJson_toJson
  · obtain ⟨v, hv⟩ := Json.decode_of_decodeText h
    exact Model.ofText_toJson_iff.2 (Model.readable_iff.1 (Model.readable_of_ofJson hv))
  · obtain ⟨v, hv⟩ := Json.decode_of_decodeText h
    have hreadable := Filter.readable_of_decode hv
    exact Filter.ofText_toJson_iff.2 ⟨hreadable.parsed, hreadable.fits⟩
  · obtain ⟨v, hv⟩ := Json.decode_of_decodeText h
    have hindex := Registry.index_of_ofJson hv
    obtain ⟨attributes, index⟩ := r
    cases hindex
    exact hregistry _

/-- A model in an unusual form: a find and its filters are arrays, and the operators are spelled in
small letters or not at all. -/
def oddDocument : String :=
  "\x7b\"name\":\"a\",\"access\":\x7b\"find\":[[\"F\",[]," ++
  "[[\"or\",[[\"b\",null,\"is\",\"c\"],[\"b\",null,\"~\",\"d\"]]]]]]\x7d\x7d"

theorem oddDocument_read_back : ∃ m, Model.ofText oddDocument = .ok m ∧
    Model.ofText m.toJson.render = .ok m := by
  obtain ⟨m, hm⟩ : ∃ m, Model.ofText oddDocument = .ok m := by
    apply Validation.exists_ok_of_isOk
    decide +kernel
  exact ⟨m, hm, written_read_back.2.2.2.2.1 oddDocument m hm⟩

end DataAccess
