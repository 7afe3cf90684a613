import DataAccess.Proofs.Letters

set_option autoImplicit false

/-! # The characters of an exported name

An exported name is made of the words of a name, and no character is lost on the way but separators.
What is no letter stays as it is (`mem_exported`), so a name whose export is an identifier consists
of letters, digits and separators (`isIdentifierPart_or_isSeparator`). The exported name itself has
no separator, and it starts with a letter that has an ordinary lower case (`head_exported`). -/

namespace DataAccess.Text

/-- The pieces between separators hold everything but the separators. -/
theorem flatten_splitBy (p : Char → Bool) (cs : List Char) :
    (splitBy p cs).flatten = cs.filter fun c => !p c := by
  induction cs with
  | nil => rfl
  | cons c cs ih =>
      by_cases hc : p c = true
      · rw [splitBy, if_pos hc, List.flatten_cons, List.nil_append, ih]
        simp [hc]
      · rw [splitBy, if_neg hc, List.filter_cons_of_pos (by simpa using hc), ← ih]
        cases hpieces : splitBy p cs with
        | nil => exact absurd hpieces (splitBy_ne_nil p cs)
        | cons piece pieces => rfl

/-- The characters of the pieces are those of the text, without the separators. -/
theorem mem_splitBy {p : Char → Bool} {cs : List Char} {c : Char} :
    (∃ piece ∈ splitBy p cs, c ∈ piece) ↔ c ∈ cs ∧ p c = false := by
  rw [← List.mem_flatten, flatten_splitBy, List.mem_filter, Bool.not_eq_true']

theorem splitBy_of_none {p : Char → Bool} {cs : List Char} (h : ∀ c ∈ cs, p c = false) :
    splitBy p cs = [cs] := by
  induction cs with
  | nil => rfl
  | cons c cs ih =>
      obtain ⟨hc, hcs⟩ := List.forall_mem_cons.1 h
      rw [splitBy, if_neg (by simp [hc]), ih hcs]

theorem splitBy_append {p : Char → Bool} {c : Char} (hc : p c = true) (cs ds : List Char) :
    splitBy p (cs ++ c :: ds) = splitBy p cs ++ splitBy p ds := by
  induction cs with
  | nil => simp [splitBy, hc]
  | cons d cs ih =>
      simp only [List.cons_append, splitBy, ih]
      split
      · rfl
      · cases h : splitBy p cs with
        | nil => exact absurd h (splitBy_ne_nil p cs)
        | cons piece pieces => rfl

end DataAccess.Text

namespace DataAccess.Naming

open DataAccess.Text DataAccess.Unicode

/-! ## Words -/

theorem upper_ne_nil (c : Char) : upper c ≠ [] := by
  cases hc : isAlphabetic c with
  | false => simp [upper_of_not_alphabetic hc]
  | true =>
      obtain ⟨u, us, hupper, -⟩ := exists_upper hc
      simp [hupper]

/-- What is no letter is not changed by a capital at the front. -/
theorem mem_capitalize {c : Char} {cs : List Char} (hc : isAlphabetic c = false) (h : c ∈ cs) :
    c ∈ capitalize cs := by
  cases cs with
  | nil => cases h
  | cons d cs =>
      rw [capitalize, List.mem_append]
      rcases List.mem_cons.1 h with rfl | h
      · exact .inl (by simp [upper_of_not_alphabetic hc])
      · exact .inr h

theorem mem_pascalChars {c : Char} {cs : List Char} (hc : isAlphabetic c = false)
    (hsep : isSeparator c = false) (h : c ∈ cs) : c ∈ pascalChars cs := by
  obtain ⟨piece, hpiece, hmem⟩ := mem_splitBy.2 ⟨h, hsep⟩
  rw [pascalChars, List.mem_flatten]
  exact ⟨capitalize piece, List.mem_map_of_mem hpiece, mem_capitalize hc hmem⟩

/-- The words in capitals start with the upper case of one of the characters. -/
theorem head_pascalChars {cs us : List Char} {u : Char} (h : pascalChars cs = u :: us) :
    ∃ c ∈ cs, ∃ us', upper c = u :: us' := by
  rw [pascalChars, List.flatten_eq_cons_iff] at h
  obtain ⟨before, word, after, hpieces, -, -⟩ := h
  have hmem : u :: word ∈ (splitBy isSeparator cs).map capitalize := by
    rw [hpieces]
    simp
  obtain ⟨piece, hpiece, hword⟩ := List.mem_map.1 hmem
  cases piece with
  | nil => cases hword
  | cons c rest =>
      refine ⟨c, (mem_splitBy.1 ⟨_, hpiece, List.mem_cons_self⟩).1, ?_⟩
      obtain ⟨u', us', hupper⟩ := List.exists_cons_of_ne_nil (upper_ne_nil c)
      rw [capitalize, hupper, List.cons_append] at hword
      injection hword with hu
      exact ⟨us', by rw [hupper, hu]⟩

theorem ascii_of_isSeparator {s : Char} (h : isSeparator s = true) :
    s.toNat < 0x80 ∧ s.isAlpha = false := by
  simp only [isSeparator, Bool.or_eq_true, beq_iff_eq] at h
  rcases h with ((rfl | rfl) | rfl) | rfl <;> decide

theorem separator_not_mem_pascalChars {s : Char} (hs : isSeparator s = true) (cs : List Char) :
    s ∉ pascalChars cs := by
  intro h
  obtain ⟨hascii, hsign⟩ := ascii_of_isSeparator hs
  rw [pascalChars, List.mem_flatten] at h
  obtain ⟨word, hword, hmem⟩ := h
  obtain ⟨piece, hpiece, rfl⟩ := List.mem_map.1 hword
  have hnone : s ∉ piece := by
    intro hin
    have hsep := (mem_splitBy.1 ⟨piece, hpiece, hin⟩).2
    rw [hs] at hsep
    cases hsep
  cases piece with
  | nil => cases hmem
  | cons c rest =>
      rw [capitalize, List.mem_append] at hmem
      rcases hmem with hmem | hmem
      · exact hnone (eq_of_mem_upper hascii hsign hmem ▸ List.mem_cons_self)
      · exact hnone (List.mem_cons_of_mem _ hmem)

theorem separator_not_mem_camel {c : Char} (hc : isSeparator c = true) (s : String) :
    c ∉ (camel s).toList := by
  intro h
  have hnone := separator_not_mem_pascalChars hc s.toList
  obtain ⟨hascii, hsign⟩ := ascii_of_isSeparator hc
  rw [camel, String.toList_ofList] at h
  cases hchars : pascalChars s.toList with
  | nil =>
      rw [hchars] at h
      cases h
  | cons d rest =>
      rw [hchars] at h hnone
      rcases List.mem_append.1 h with h | h
      · exact hnone (eq_of_mem_lower hascii hsign h ▸ List.mem_cons_self)
      · exact hnone (List.mem_cons_of_mem _ h)

/-! ## Snake case -/

theorem mem_snakeChars {c : Char} {cs : List Char} (hc : isAlphabetic c = false)
    (hsep : isSeparator c = false) (h : c ∈ cs) (afterLower : Bool) :
    c ∈ snakeChars afterLower cs := by
  induction cs generalizing afterLower with
  | nil => cases h
  | cons d cs ih =>
      unfold snakeChars
      rcases List.mem_cons.1 h with rfl | h
      · -- The character is no separator, and its lower case is the character again.
        have hblank : (c == '-' || c == ' ' || c == '.') = false := by
          simp only [isSeparator, Bool.or_eq_false_iff] at hsep ⊢
          exact ⟨⟨hsep.1.1.2, hsep.2⟩, hsep.1.2⟩
        rw [hblank]
        split
        · contradiction
        · split
          · simp [lower_of_not_alphabetic hc]
          · exact List.mem_cons_self
      · split
        · exact List.mem_cons_of_mem _ (ih h _)
        · split
          · exact List.mem_append_right _ (ih h _)
          · exact List.mem_cons_of_mem _ (ih h _)

/-- The capital I with a dot is an upper-case letter, so it is not left as it is. -/
theorem dottedI_not_mem_snakeChars (cs : List Char) (afterLower : Bool) :
    dottedI ∉ snakeChars afterLower cs := by
  have hupper : isUpper dottedI = true := by decide
  induction cs generalizing afterLower with
  | nil => simp [snakeChars]
  | cons d cs ih =>
      unfold snakeChars
      intro hmem
      split at hmem
      · rcases List.mem_cons.1 hmem with heq | hmem
        · exact absurd heq (by decide)
        · exact ih _ hmem
      · split at hmem
        · simp only [List.mem_append] at hmem
          rcases hmem with (hmem | hmem) | hmem
          · cases afterLower <;> exact absurd hmem (by decide)
          · exact dottedI_not_mem_lower d hmem
          · exact ih _ hmem
        · next hnot =>
            rcases List.mem_cons.1 hmem with heq | hmem
            · exact hnot (heq ▸ hupper)
            · exact ih _ hmem

end DataAccess.Naming

namespace DataAccess.Go

open DataAccess.Naming DataAccess.Text DataAccess.Unicode

/-! ## Exported names -/

theorem toList_exported (s : String) :
    (exported s).toList = ((exportedWords s).map fun w => (exportedWord w).toList).flatten := by
  rw [exported, String.toList_join, List.flatMap_map, List.flatMap_def]

/-- The characters of the words are those of the name in snake case, without the underscores. -/
theorem mem_exportedWords {s : String} {c : Char} :
    (∃ w ∈ exportedWords s, c ∈ w.toList) ↔ c ∈ snakeChars false s.toList ∧ c ≠ '_' := by
  have hpieces : (∃ w ∈ exportedWords s, c ∈ w.toList) ↔
      ∃ piece ∈ splitBy (· == '_') (snakeChars false s.toList), c ∈ piece := by
    simp only [exportedWords, snake, String.toList_ofList, List.mem_map, List.mem_filter]
    constructor
    · rintro ⟨_, ⟨piece, ⟨hpiece, -⟩, rfl⟩, hc⟩
      exact ⟨piece, hpiece, by simpa using hc⟩
    · rintro ⟨piece, hpiece, hc⟩
      exact ⟨_, ⟨piece, ⟨hpiece, by cases piece <;> simp_all⟩, rfl⟩, by simpa using hc⟩
  rw [hpieces, mem_splitBy, beq_eq_false_iff_ne]

theorem all_isAlpha_initialisms : ∀ w ∈ initialisms, w.toList.all Char.isAlpha = true := by
  decide

theorem all_isAlpha_upperText :
    ∀ w ∈ initialisms, (upperText w).toList.all Char.isAlpha = true := by decide +kernel

theorem ordinary_of_isAlpha {u : Char} (h : u.isAlpha = true) :
    needsMark u = false ∧ u ≠ dottedI := by
  have hspecial : ∀ n ∈ 0x130 :: markedCapitals, 0x80 ≤ n := by decide
  have hbound := isAlpha_iff_toNat.1 h
  constructor
  · rw [Bool.eq_false_iff]
    intro hmark
    have hle := hspecial _ (List.mem_cons_of_mem _ (List.contains_iff_mem.1 hmark))
    omega
  · rintro rfl
    exact absurd h (by decide)

/-- A word is an initialism or starts with a capital. -/
theorem exportedWord_cases (w : String) :
    w ∈ initialisms ∧ exportedWord w = upperText w ∨
      (exportedWord w).toList = pascalChars w.toList := by
  rw [exportedWord]
  by_cases hw : w ∈ initialisms
  · exact .inl ⟨hw, by simp [hw]⟩
  · exact .inr (by simp [hw, pascal])

/-- What is neither a letter nor a separator stays in the exported name. -/
theorem mem_exported {s : String} {c : Char} (hc : isAlphabetic c = false)
    (hsep : isSeparator c = false) (h : c ∈ s.toList) : c ∈ (exported s).toList := by
  have hne : c ≠ '_' := by
    rintro rfl
    exact absurd hsep (by decide)
  obtain ⟨w, hw, hmem⟩ := mem_exportedWords.2 ⟨mem_snakeChars hc hsep h false, hne⟩
  rw [toList_exported, List.mem_flatten]
  refine ⟨_, List.mem_map_of_mem hw, ?_⟩
  rcases exportedWord_cases w with ⟨hinitialism, -⟩ | hword
  · have halpha := List.all_eq_true.1 (all_isAlpha_initialisms w hinitialism) c hmem
    rw [isAlphabetic_of_isAlpha halpha] at hc
    cases hc
  · rw [hword]
    exact mem_pascalChars hc hsep hmem

theorem separator_not_mem_exported {c : Char} (hc : isSeparator c = true) (s : String) :
    c ∉ (exported s).toList := by
  rw [toList_exported, List.mem_flatten]
  rintro ⟨cs, hcs, hmem⟩
  obtain ⟨w, -, rfl⟩ := List.mem_map.1 hcs
  rcases exportedWord_cases w with ⟨hinitialism, hword⟩ | hword
  · rw [hword] at hmem
    have halpha := List.all_eq_true.1 (all_isAlpha_upperText w hinitialism) _ hmem
    rw [(ascii_of_isSeparator hc).2] at halpha
    cases halpha
  · rw [hword] at hmem
    exact separator_not_mem_pascalChars hc _ hmem

/-- An exported name starts with a letter whose two cases are ordinary. -/
theorem head_exported {s : String} {u : Char} {us : List Char}
    (h : (exported s).toList = u :: us) : needsMark u = false ∧ u ≠ dottedI := by
  rw [toList_exported, List.flatten_eq_cons_iff] at h
  obtain ⟨before, rest, after, hwords, -, -⟩ := h
  have hmem : u :: rest ∈ (exportedWords s).map fun w => (exportedWord w).toList := by
    rw [hwords]
    simp
  obtain ⟨w, hw, hchars⟩ := List.mem_map.1 hmem
  rcases exportedWord_cases w with ⟨hinitialism, hword⟩ | hword
  · rw [hword] at hchars
    have hu : u ∈ (upperText w).toList := by
      rw [hchars]
      exact List.mem_cons_self
    have halpha := List.all_eq_true.1 (all_isAlpha_upperText w hinitialism) u hu
    exact ordinary_of_isAlpha halpha
  · rw [hword] at hchars
    obtain ⟨c, hc, us', hupper⟩ := head_pascalChars hchars
    obtain ⟨hmark, hdot⟩ := head_upper hupper
    refine ⟨hmark, fun hu => ?_⟩
    -- The capital would come from the same capital in snake case, where there is none.
    have hsnake := (mem_exportedWords.1 ⟨w, hw, hc⟩).1
    rw [hdot hu] at hsnake
    exact dottedI_not_mem_snakeChars _ _ hsnake

/-! ## Identifiers -/

theorem identifierShape_of_isIdentifier {s : String} (h : isIdentifier s = true) :
    identifierShape s.toList = true := by
  simp only [isIdentifier, Bool.and_eq_true] at h
  exact h.1.1

/-- Every character of an identifier can stand behind its first one. -/
theorem all_part_of_identifierShape {cs : List Char} (h : identifierShape cs = true) :
    cs.all isIdentifierPart = true := by
  cases cs with
  | nil => cases h
  | cons c cs =>
      rw [identifierShape, Bool.and_eq_true] at h
      have hstart : isIdentifierPart c = true := by
        rcases Bool.or_eq_true _ _ ▸ h.1 with hc | hc
        · exact isIdentifierPart_of_isAlphabetic hc
        · simp [isIdentifierPart, hc]
      rw [List.all_cons, hstart, h.2]
      rfl

/-- A name whose export is an identifier consists of characters of identifiers and separators. -/
theorem isIdentifierPart_or_isSeparator {s : String} (h : isIdentifier (exported s) = true) :
    ∀ c ∈ s.toList, isIdentifierPart c = true ∨ isSeparator c = true := by
  intro c hc
  by_cases halpha : isAlphabetic c = true
  · exact .inl (isIdentifierPart_of_isAlphabetic halpha)
  · by_cases hsep : isSeparator c = true
    · exact .inr hsep
    · have hmem := mem_exported (by simpa using halpha) (by simpa using hsep) hc
      have hparts := all_part_of_identifierShape (identifierShape_of_isIdentifier h)
      exact .inl (List.all_eq_true.1 hparts c hmem)

end DataAccess.Go
