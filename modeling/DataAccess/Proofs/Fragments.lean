import DataAccess.Sql.Statement

set_option autoImplicit false

/-! # Fragments as literal chunks

A text with placeholders is given by its literal chunks (`Fragment.chunks`); `weave` puts the
placeholders back between them, with consecutive numbers. Several texts are numbered one after the
other (`weaveAll`, `Fragment.renderEach`). A condition is a fragment whose text is never empty, so
an empty text means that nothing is left of a filter. -/

namespace DataAccess.Sql

/-! ## Literal chunks -/

/-- Literal chunks with placeholders between neighbours, numbered from `next` on. -/
def weave (d : Dialect) (next : Nat) : List String → String
  | [] => ""
  | [c] => c
  | c :: e :: cs => c ++ d.placeholder next ++ weave d (next + 1) (e :: cs)

/-- Several texts, each given by its chunks; the numbers go on from one text to the next. -/
def weaveAll (d : Dialect) (next : Nat) : List (List String) → List String
  | [] => []
  | cs :: rest => weave d next cs :: weaveAll d (next + (cs.length - 1)) rest

namespace Fragment

/-- The literal text before, between and behind the slots of a fragment. -/
def chunks : Fragment → List String
  | [] => [""]
  | .text s :: ps => match chunks ps with
    | [] => [s]
    | c :: cs => (s ++ c) :: cs
  | .slot _ :: ps => "" :: chunks ps

/-- Several fragments as texts; the numbers go on from one to the next. -/
def renderEach (d : Dialect) (next : Nat) : List Fragment → List String
  | [] => []
  | f :: fs => f.render d next :: renderEach d (next + f.params.length) fs

/-- There is one chunk more than there are slots. -/
theorem length_chunks (f : Fragment) : f.chunks.length = f.params.length + 1 := by
  induction f with
  | nil => rfl
  | cons p ps ih =>
      cases p with
      | text s =>
          simp only [chunks, params]
          cases h : chunks ps with
          | nil => rw [h] at ih; simp at ih
          | cons c cs => rw [h] at ih; simpa using ih
      | slot p => simp [chunks, params, ih]

/-- A fragment is its chunks with the placeholders between them. -/
theorem render_eq_weave (d : Dialect) (next : Nat) (f : Fragment) :
    f.render d next = weave d next f.chunks := by
  induction f generalizing next with
  | nil => rfl
  | cons p ps ih =>
      have hne : chunks ps ≠ [] := by
        intro h
        have hlen := length_chunks ps
        rw [h] at hlen
        simp at hlen
      obtain ⟨c, cs, hc⟩ := List.exists_cons_of_ne_nil hne
      cases p with
      | text s =>
          simp only [render, chunks, ih, hc]
          cases cs with
          | nil => rfl
          | cons e cs => simp only [weave, String.append_assoc]
      | slot p =>
          simp only [render, chunks, ih (next + 1), hc, weave, String.empty_append]

theorem renderEach_eq_weaveAll (d : Dialect) (next : Nat) (fs : List Fragment) :
    renderEach d next fs = weaveAll d next (fs.map chunks) := by
  induction fs generalizing next with
  | nil => rfl
  | cons f fs ih =>
      simp only [renderEach, List.map_cons, weaveAll, render_eq_weave, length_chunks,
        Nat.add_sub_cancel, ih]

theorem renderEach_append (d : Dialect) (next : Nat) (fs gs : List Fragment) :
    renderEach d next (fs ++ gs) =
      renderEach d next fs ++ renderEach d (next + (fs.flatMap params).length) gs := by
  induction fs generalizing next with
  | nil => simp [renderEach]
  | cons f fs ih => simp [renderEach, ih, Nat.add_assoc]

/-- Fragments without slots take no numbers. -/
theorem renderEach_texts (d : Dialect) (next : Nat) (ss : List String) :
    renderEach d next (ss.map fun s => [.text s]) = ss := by
  induction ss with
  | nil => rfl
  | cons s ss ih => simp [renderEach, render, params, ih]

theorem params_texts (ss : List String) : (ss.map fun s => [Piece.text s]).flatMap params = [] := by
  simp [params]

theorem params_slots (ps : List Parameter) :
    (ps.map fun p => [Piece.slot p]).flatMap params = ps := by
  induction ps with
  | nil => rfl
  | cons p ps ih => simpa [params] using ih

/-- The separators of joined fragments hold no slots. -/
theorem params_join (separator : String) (fs : List Fragment) :
    params (join separator fs) = fs.flatMap params := by
  induction fs with
  | nil => rfl
  | cons f fs ih =>
      cases fs with
      | nil => simp [join]
      | cons g fs => simp [join, params, ih]

/-- Joining fragments and joining their texts is the same. -/
theorem render_join (d : Dialect) (next : Nat) (separator : String) (fs : List Fragment) :
    (join separator fs).render d next = String.intercalate separator (renderEach d next fs) := by
  induction fs generalizing next with
  | nil => rfl
  | cons f fs ih =>
      cases fs with
      | nil => simp [join, renderEach]
      | cons g fs =>
          have hne : renderEach d (next + f.params.length) (g :: fs) ≠ [] := by
            simp [renderEach]
          rw [renderEach, String.intercalate_cons_of_ne_nil hne, ← ih, join, render_append, render,
            ← String.append_assoc]

end Fragment

/-! ## Conditions -/

theorem Dialect.membership_eq (d : Dialect) (subject placeholder : String) :
    d.membership subject placeholder =
      subject ++ d.memberFrame.1 ++ placeholder ++ d.memberFrame.2 := rfl

/-- Several conditions are written one by one. -/
theorem Condition.fragments_eq_map (d : Dialect) (cs : List Condition) :
    Condition.fragments d cs = cs.map (Condition.fragment d) := by
  induction cs with
  | nil => rfl
  | cons c cs ih => simp [Condition.fragments, ih]

/-- A condition always leaves some text. -/
theorem Condition.render_ne_empty (d : Dialect) (next : Nat) (c : Condition) :
    (c.fragment d).render d next ≠ "" := by
  cases c with
  | compare s op p => simp [Condition.fragment, Fragment.render, String.append_eq_empty_iff]
  | between s p => simp [Condition.fragment, Fragment.render, String.append_eq_empty_iff]
  | member s p =>
      cases d <;>
        simp [Condition.fragment, Fragment.render, Dialect.memberFrame, String.append_eq_empty_iff]
  | junction j parts =>
      cases j <;>
        simp [Condition.fragment, Fragment.render, Junction.opening, String.append_eq_empty_iff]

/-- What is left of filters, as a fragment: nothing, or one condition. -/
def leftFragment (d : Dialect) : Option Condition → Fragment
  | some c => c.fragment d
  | none => []

/-- What is left of several filters, one fragment for each that leaves something. -/
def leftFragments (d : Dialect) (fs : List Filter) : List Fragment :=
  (Filter.conditions fs).map (Condition.fragment d)

theorem whereFragment_eq (d : Dialect) (fs : List Filter) :
    Filter.whereFragment d fs = leftFragment d (Filter.allCondition? fs) := by
  rw [Filter.whereFragment]
  cases Filter.allCondition? fs <;> rfl

/-- The WHERE clause, by what is left of the filters. -/
theorem whereTail_eq (d : Dialect) (fs : List Filter) :
    whereTail d fs = match Filter.allCondition? fs with
      | some c => .text "WHERE 1=1 AND " :: c.fragment d
      | none => [.text "WHERE 1=1"] := by
  rw [whereTail, whereFragment_eq]
  cases Filter.allCondition? fs with
  | none => rfl
  | some c =>
      have hne : c.fragment d ≠ [] := by
        intro h
        have htext := Condition.render_ne_empty d 1 c
        rw [h] at htext
        exact htext rfl
      simp only [leftFragment]

/-- The text of a group; a group without parts leaves none. -/
def groupText (j : Junction) (parts : List String) : String :=
  if parts.isEmpty then "" else j.opening ++ String.intercalate j.separator parts ++ ")"

/-- The text of a group is made of the texts of its parts. -/
theorem render_join? (d : Dialect) (next : Nat) (j : Junction) (cs : List Condition) :
    (leftFragment d (Condition.join? j cs)).render d next =
      groupText j (Fragment.renderEach d next (cs.map (Condition.fragment d))) := by
  cases cs with
  | nil => rfl
  | cons c cs =>
      simp only [Condition.join?, leftFragment, Condition.fragment, Condition.fragments_eq_map,
        groupText, List.cons_append, Fragment.render, Fragment.render_append,
        Fragment.render_join, String.append_empty, String.append_assoc]
      rfl

/-- The slots of a group are those of its parts. -/
theorem params_join? (d : Dialect) (j : Junction) (cs : List Condition) :
    (leftFragment d (Condition.join? j cs)).params =
      (cs.map (Condition.fragment d)).flatMap Fragment.params := by
  cases cs with
  | nil => rfl
  | cons c cs =>
      simp [Condition.join?, leftFragment, Condition.fragment, Condition.fragments_eq_map,
        Fragment.params, Fragment.params_join]

/-! ## Assignments -/

/-- The slots of a SET clause are the values of the given assignments. -/
theorem params_setFragment (d : Dialect) (as : List Assignment) (is ts : List String) :
    (setFragment d as is ts).params = as.map fun a => .whole a.parameter := by
  have hgiven : (as.map fun a =>
      [Piece.text (quote a.attr ++ " = "), .slot (.whole a.parameter)]).flatMap Fragment.params =
      as.map fun a => .whole a.parameter := by
    induction as with
    | nil => rfl
    | cons a as ih => simpa [Fragment.params] using ih
  have hplain : ∀ (g : String → String) (cs : List String),
      (cs.map fun c => [Piece.text (g c)]).flatMap Fragment.params = [] := by
    intro g cs
    simpa [Function.comp_def] using Fragment.params_texts (cs.map g)
  rw [setFragment, Fragment.params_join, setFragments, List.flatMap_append, List.flatMap_append,
    hgiven, hplain, hplain, List.append_nil, List.append_nil]

end DataAccess.Sql
