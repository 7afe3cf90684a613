import DataAccess.Json.Reader
import DataAccess.Json.Writer
import Mathlib.Data.List.Basic

set_option autoImplicit false

/-! # Written documents read back

A value of texts, arrays and objects only (`Textual`) is read back from its own text
(`read?_render`). First the characters of a string and their escapes are followed through the
reader, then arrays and objects by induction. The reader's fuel is compared with the length of the
text that is left: every step that takes fuel also takes a character. -/

namespace DataAccess.Json

/-! ## Strings -/

/-- What an escaped character is read as. -/
def pieceOf (c : Char) : Piece :=
  if c.toNat < 0x20 ∧ c ∉ ['\x08', '\t', '\n', '\x0c', '\r'] then .unit c.toNat else .char c

theorem hexUnit?_digitChars :
    ∀ n < 0x20, hexUnit? '0' '0' (Nat.digitChar (n / 16)) (Nat.digitChar (n % 16)) = some n := by
  decide

/-- A short escape is read as its character. -/
theorem stringPieces_short {e c : Char} (he : e ≠ 'u') (h : shortEscape? e = some c)
    (cs : List Char) :
    stringPieces ('\\' :: e :: cs) = (stringPieces cs).map fun p => (.char c :: p.1, p.2) := by
  rw [stringPieces, h]
  · cases stringPieces cs <;> rfl
  · intro _ _ _ _ _ heq
    exact absurd heq he

/-- A character that needs no escape is read as itself. -/
theorem stringPieces_char {c : Char} (hquote : c ≠ '\"') (hback : c ≠ '\\')
    (hcontrol : ¬c.toNat < 0x20) (cs : List Char) :
    stringPieces (c :: cs) = (stringPieces cs).map fun p => (.char c :: p.1, p.2) := by
  rw [stringPieces, if_neg (by simp [hback, hcontrol])]
  · cases stringPieces cs <;> rfl
  · exact hquote
  · intro _ _ _ _ _ heq
    exact absurd heq hback
  · intro _ _ heq
    exact absurd heq hback

theorem stringPieces_escapeChar (c : Char) (cs : List Char) :
    stringPieces (escapeChar c ++ cs) =
      (stringPieces cs).map fun p => (pieceOf c :: p.1, p.2) := by
  unfold escapeChar
  split_ifs with hquote hback hbackspace htab hfeed hform hreturn hcontrol
  · rw [hquote]; exact stringPieces_short (by decide) rfl cs
  · rw [hback]; exact stringPieces_short (by decide) rfl cs
  · rw [hbackspace]; exact stringPieces_short (by decide) rfl cs
  · rw [htab]; exact stringPieces_short (by decide) rfl cs
  · rw [hfeed]; exact stringPieces_short (by decide) rfl cs
  · rw [hform]; exact stringPieces_short (by decide) rfl cs
  · rw [hreturn]; exact stringPieces_short (by decide) rfl cs
  · -- A control is written by its number, in two hexadecimal digits.
    have hpiece : pieceOf c = .unit c.toNat := by
      rw [pieceOf, if_pos]
      simp [hcontrol, hbackspace, htab, hfeed, hform, hreturn]
    have hunit := hexUnit?_digitChars c.toNat hcontrol
    simp only [List.cons_append, List.nil_append, stringPieces, hunit, hpiece]
    cases stringPieces cs <;> rfl
  · have hpiece : pieceOf c = .char c := by
      rw [pieceOf, if_neg fun h => hcontrol h.1]
    rw [hpiece]
    exact stringPieces_char hquote hback hcontrol cs

theorem stringPieces_escapeChars (cs rest : List Char) :
    stringPieces (cs.flatMap escapeChar ++ '\"' :: rest) = some (cs.map pieceOf, rest) := by
  induction cs with
  | nil => rfl
  | cons c cs ih =>
      rw [List.flatMap_cons, List.append_assoc, stringPieces_escapeChar, ih]
      rfl

/-- A control is no half of a pair, so it is spelled for itself. -/
theorem spell_control {n : Nat} (h : n < 0x20) (ps : List Piece) :
    spell (.unit n :: ps) = (spell ps).map (Char.ofNat n :: ·) := by
  have hhigh : isHighSurrogate n = false := by
    simp only [isHighSurrogate, Bool.and_eq_false_iff, decide_eq_false_iff_not]
    omega
  have hlow : isLowSurrogate n = false := by
    simp only [isLowSurrogate, Bool.and_eq_false_iff, decide_eq_false_iff_not]
    omega
  cases ps with
  | nil => simp [spell, hhigh, hlow]
  | cons p ps =>
      cases p with
      | char c => simp [spell, hhigh, hlow]
      | unit m => simp [spell, hhigh, hlow]

theorem spell_pieceOf (cs : List Char) : spell (cs.map pieceOf) = some cs := by
  induction cs with
  | nil => rfl
  | cons c cs ih =>
      rw [List.map_cons, pieceOf]
      split_ifs with hcontrol
      · rw [spell_control hcontrol.1, ih, Char.ofNat_toNat]
        rfl
      · rw [spell, ih]
        rfl

/-- A string is read back up to its closing quote. -/
theorem quotedText_escape (s : String) (rest : List Char) :
    quotedText (s.toList.flatMap escapeChar ++ '\"' :: rest) = some (some s, rest) := by
  rw [quotedText, stringPieces_escapeChars]
  simp [spell_pieceOf]

theorem toList_renderString (s : String) (rest : List Char) : (renderString s).toList ++ rest =
    '\"' :: (s.toList.flatMap escapeChar ++ '\"' :: rest) := by
  simp [renderString]

/-! ## Values -/

/-- A value of texts, arrays and objects. -/
inductive Textual : Json → Prop
  | str (s : String) : Textual (.str s)
  | arr {vs : List Json} (h : ∀ v ∈ vs, Textual v) : Textual (.arr vs)
  | obj {ms : List (String × Json)} (h : ∀ m ∈ ms, Textual m.2) : Textual (.obj ms)

@[simp] theorem textual_str (s : String) : Textual (.str s) := .str s

@[simp] theorem textual_arr {vs : List Json} : Textual (.arr vs) ↔ ∀ v ∈ vs, Textual v := by
  constructor
  · intro h
    cases h with
    | arr h => exact h
  · exact .arr

@[simp] theorem textual_obj {ms : List (String × Json)} :
    Textual (.obj ms) ↔ ∀ m ∈ ms, Textual m.2 := by
  constructor
  · intro h
    cases h with
    | obj h => exact h
  · exact .obj

/-- Texts with commas between them. -/
def commas (texts : List String) : List Char := (String.intercalate "," texts).toList

@[simp] theorem commas_nil : commas [] = [] := by simp [commas]

@[simp] theorem commas_singleton (text : String) : commas [text] = text.toList := by simp [commas]

@[simp] theorem commas_cons_cons (text text' : String) (texts : List String) :
    commas (text :: text' :: texts) = text.toList ++ ',' :: commas (text' :: texts) := by
  simp [commas, String.toList_intercalate]

theorem renderItems_eq_map (vs : List Json) : renderItems vs = vs.map render := by
  induction vs with
  | nil => rfl
  | cons v vs ih => rw [renderItems, ih, List.map_cons]

/-- A member of an object as text. -/
def renderMember (m : String × Json) : String := renderString m.1 ++ ":" ++ render m.2

theorem renderMembers_eq_map (ms : List (String × Json)) :
    renderMembers ms = ms.map renderMember := by
  induction ms with
  | nil => rfl
  | cons m ms ih => rw [renderMembers, ih, List.map_cons, renderMember]

theorem toList_render_arr (vs : List Json) :
    (render (.arr vs)).toList = '[' :: commas (vs.map render) ++ [']'] := by
  simp [render, commas, renderItems_eq_map]

theorem toList_render_obj (ms : List (String × Json)) :
    (render (.obj ms)).toList = '\x7b' :: commas (ms.map renderMember) ++ ['\x7d'] := by
  simp [render, commas, renderMembers_eq_map]

/-- A value is read from its text, with any text behind it, if the fuel reaches as far as the text
does. -/
def ReadsBack (v : Json) : Prop :=
  ∀ fuel rest, (render v).toList.length ≤ fuel →
    value fuel ((render v).toList ++ rest) = some (v, rest)

theorem skipSpace_cons {c : Char} (h : isSpace c = false) (cs : List Char) :
    skipSpace (c :: cs) = c :: cs := List.dropWhile_cons_of_neg (by simp [h])

theorem readsBack_str (s : String) : ReadsBack (.str s) := by
  intro fuel rest hfuel
  cases fuel with
  | zero => simp [render, renderString] at hfuel
  | succ fuel =>
      rw [render, toList_renderString, value, skipSpace_cons (by decide)]
      simp [quotedText_escape]

/-- The text of a value starts with a quote, a bracket or a brace. -/
theorem head_render {v : Json} (h : Textual v) :
    ∃ c cs, (render v).toList = c :: cs ∧ c ∈ ['\"', '[', '\x7b'] := by
  cases h with
  | str s =>
      have htext := toList_renderString s []
      rw [List.append_nil] at htext
      exact ⟨_, _, htext, by simp⟩
  | arr _ => exact ⟨_, _, toList_render_arr _, by simp⟩
  | obj _ => exact ⟨_, _, toList_render_obj _, by simp⟩

theorem items_commas {v : Json} {vs : List Json} (h : ∀ w ∈ v :: vs, ReadsBack w) (fuel : Nat)
    (rest : List Char) (hfuel : (commas ((v :: vs).map render)).length < fuel) :
    items fuel (commas ((v :: vs).map render) ++ ']' :: rest) = some (v :: vs, rest) := by
  induction vs generalizing v fuel with
  | nil =>
      obtain ⟨fuel, rfl⟩ : ∃ n, fuel = n + 1 := ⟨fuel - 1, by omega⟩
      have hv := h v List.mem_cons_self fuel (']' :: rest) (by simpa using Nat.le_of_lt_succ hfuel)
      simp [items, hv, skipSpace_cons (show isSpace ']' = false by decide)]
  | cons w vs ih =>
      obtain ⟨fuel, rfl⟩ : ∃ n, fuel = n + 1 := ⟨fuel - 1, by omega⟩
      obtain ⟨hv, hvs⟩ := List.forall_mem_cons.1 h
      simp only [List.map_cons, commas_cons_cons, List.length_append, List.length_cons]
        at hfuel ih ⊢
      have hfirst := hv fuel (',' :: (commas (render w :: vs.map render) ++ ']' :: rest)) (by omega)
      have hrest := ih hvs fuel (by omega)
      rw [List.append_assoc, List.cons_append, items]
      simp [hfirst, hrest, skipSpace_cons (show isSpace ',' = false by decide)]

theorem readsBack_arr {vs : List Json} (htextual : ∀ v ∈ vs, Textual v)
    (h : ∀ v ∈ vs, ReadsBack v) : ReadsBack (.arr vs) := by
  intro fuel rest hfuel
  rw [toList_render_arr] at hfuel ⊢
  obtain ⟨fuel, rfl⟩ : ∃ n, fuel = n + 1 := ⟨fuel - 1, by simp at hfuel; omega⟩
  rw [List.cons_append, List.cons_append, List.append_assoc, value, skipSpace_cons (by decide)]
  cases vs with
  | nil => simp [skipSpace_cons (show isSpace ']' = false by decide)]
  | cons v vs =>
      have hitems := items_commas h fuel rest (by simp at hfuel ⊢; omega)
      -- The bracket that closes an empty array is not what a value starts with.
      obtain ⟨c, cs, hhead, hc⟩ := head_render (htextual v List.mem_cons_self)
      obtain ⟨cs', hcommas⟩ : ∃ cs', commas ((v :: vs).map render) = c :: cs' := by
        cases vs <;> simp [hhead]
      rw [hcommas] at hitems ⊢
      have hspace : isSpace c = false := by
        simp only [List.mem_cons, List.not_mem_nil, or_false] at hc
        rcases hc with rfl | rfl | rfl <;> decide
      have hclose : c ≠ ']' := by
        rintro rfl
        exact absurd hc (by decide)
      simp only [List.cons_append, List.nil_append] at hitems ⊢
      simp [skipSpace_cons hspace, hclose, hitems]

theorem members_commas {m : String × Json} {ms : List (String × Json)}
    (h : ∀ m' ∈ m :: ms, ReadsBack m'.2) (fuel : Nat) (rest : List Char)
    (hfuel : (commas ((m :: ms).map renderMember)).length < fuel) :
    members fuel (commas ((m :: ms).map renderMember) ++ '\x7d' :: rest) =
      some (some (m :: ms), rest) := by
  have htext (m : String × Json) (cs : List Char) : (renderMember m).toList ++ cs =
      '\"' :: (m.1.toList.flatMap escapeChar ++ '\"' :: ':' :: ((render m.2).toList ++ cs)) := by
    simp [renderMember, renderString]
  have hlength (m : String × Json) :
      (render m.2).toList.length ≤ (renderMember m).toList.length := by
    simp only [renderMember, String.toList_append, List.length_append]
    omega
  induction ms generalizing m fuel with
  | nil =>
      obtain ⟨fuel, rfl⟩ : ∃ n, fuel = n + 1 := ⟨fuel - 1, by omega⟩
      simp only [List.map_cons, List.map_nil, commas_singleton] at hfuel ⊢
      have hv := h m List.mem_cons_self fuel ('\x7d' :: rest)
        (Nat.le_trans (hlength m) (Nat.le_of_lt_succ hfuel))
      rw [htext, members, skipSpace_cons (by decide)]
      simp [quotedText_escape, hv, skipSpace_cons (show isSpace ':' = false by decide),
        skipSpace_cons (show isSpace '\x7d' = false by decide)]
  | cons m' ms ih =>
      obtain ⟨fuel, rfl⟩ : ∃ n, fuel = n + 1 := ⟨fuel - 1, by omega⟩
      obtain ⟨hm, hms⟩ := List.forall_mem_cons.1 h
      simp only [List.map_cons, commas_cons_cons, List.length_append, List.length_cons]
        at hfuel ih ⊢
      have hshort := hlength m
      have hfirst := hm fuel
        (',' :: (commas (renderMember m' :: ms.map renderMember) ++ '\x7d' :: rest)) (by omega)
      have hrest := ih hms fuel (by omega)
      rw [List.append_assoc, List.cons_append, htext, members, skipSpace_cons (by decide)]
      simp [quotedText_escape, hfirst, hrest, skipSpace_cons (show isSpace ':' = false by decide),
        skipSpace_cons (show isSpace ',' = false by decide)]

theorem readsBack_obj {ms : List (String × Json)} (h : ∀ m ∈ ms, ReadsBack m.2) :
    ReadsBack (.obj ms) := by
  intro fuel rest hfuel
  rw [toList_render_obj] at hfuel ⊢
  obtain ⟨fuel, rfl⟩ : ∃ n, fuel = n + 1 := ⟨fuel - 1, by simp at hfuel; omega⟩
  rw [List.cons_append, List.cons_append, List.append_assoc, value, skipSpace_cons (by decide)]
  cases ms with
  | nil => simp [skipSpace_cons (show isSpace '\x7d' = false by decide)]
  | cons m ms =>
      have hmembers := members_commas h fuel rest (by simp at hfuel ⊢; omega)
      obtain ⟨cs, hcommas⟩ : ∃ cs, commas ((m :: ms).map renderMember) = '\"' :: cs := by
        cases ms <;> simp [renderMember, renderString]
      rw [hcommas] at hmembers ⊢
      simp only [List.cons_append, List.nil_append] at hmembers ⊢
      simp [skipSpace_cons (show isSpace '\"' = false by decide), hmembers]

theorem readsBack_of_textual {v : Json} (h : Textual v) : ReadsBack v := by
  induction h with
  | str s => exact readsBack_str s
  | arr h ih => exact readsBack_arr h ih
  | obj _ ih => exact readsBack_obj ih

/-- A value of texts, arrays and objects is read back from its text. -/
theorem read?_render {v : Json} (h : Textual v) : read? (render v) = some v := by
  have hfuel : (render v).toList.length ≤ (render v).length + 1 := by
    rw [String.length_toList]
    exact Nat.le_succ _
  have hread := readsBack_of_textual h _ [] hfuel
  rw [List.append_nil] at hread
  rw [read?, hread]
  rfl

end DataAccess.Json
