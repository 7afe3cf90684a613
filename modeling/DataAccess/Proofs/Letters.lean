import DataAccess.Go.Identifier
import Mathlib.Data.List.Sort

set_option autoImplicit false

/-! # Letters under case mapping

Classes of characters and case mappings are tables of ranges, so what holds of all characters is
checked range by range. Two classes are apart (`CodeSet.apart`), or a class holds everything that a
mapping moves (`ShiftTable.startsWithin`) and everything it moves to (`ShiftTable.endsWithin`). The
checks are made once for all tables (`tablesFit`).

Only letters have two cases, and both begin with a letter. The capitals of a few letters also need a
combining mark (`needsMark`), which no identifier may hold. In lower case this is true of one letter
only, the capital I with a dot above (`dottedI`). -/

namespace DataAccess.Unicode

/-! ## Ranges -/

/-- Whether a code point is in the class. -/
def CodeSet.holds (s : CodeSet) (n : Nat) : Bool := s.any fun r => r.1.ble n && n.ble r.2

/-- Whether code points are all in the class. Ranges that end before one of them are left out for
the rest, so a single pass is enough if both ascend. -/
def CodeSet.holdsAll : CodeSet → List Nat → Bool
  | _, [] => true
  | s, n :: ns => match s.dropWhile fun r => r.2.blt n with
    | [] => false
    | r :: s' => r.1.ble n && holdsAll (r :: s') ns

/-- Whether no code point is in both classes. -/
def CodeSet.apart (s t : CodeSet) : Bool :=
  s.all fun r => t.all fun u => r.2.blt u.1 || u.2.blt r.1

/-- Whether the class consists of characters, and not of halves of surrogate pairs. -/
def CodeSet.scalar (s : CodeSet) : Bool :=
  s.all fun r => r.2.blt 0xD800 || Nat.blt 0xDFFF r.1 && r.2.blt 0x110000

/-- The code points of a run. -/
def runPoints (first last step : Nat) : List Nat :=
  (List.range ((last - first) / step + 1)).map fun k => first + k * step

theorem CodeSet.holds_iff {s : CodeSet} {n : Nat} :
    s.holds n = true ↔ ∃ r ∈ s, r.1 ≤ n ∧ n ≤ r.2 := by
  simp [CodeSet.holds]

theorem CodeSet.contains_eq_holds (s : CodeSet) (c : Char) : s.contains c = s.holds c.toNat := by
  rw [Bool.eq_iff_iff, CodeSet.holds_iff]
  simp [CodeSet.contains]

theorem CodeSet.holds_of_subset {s t : CodeSet} {n : Nat} (hsub : t ⊆ s) (h : t.holds n = true) :
    s.holds n = true := by
  obtain ⟨r, hr, hn⟩ := CodeSet.holds_iff.1 h
  exact CodeSet.holds_iff.2 ⟨r, hsub hr, hn⟩

theorem CodeSet.holds_of_holdsAll {s : CodeSet} {ns : List Nat} (h : s.holdsAll ns = true) :
    ∀ n ∈ ns, s.holds n = true := by
  induction ns generalizing s with
  | nil => simp
  | cons n ns ih =>
      rw [CodeSet.holdsAll] at h
      cases hdrop : s.dropWhile fun r => r.2.blt n with
      | nil => rw [hdrop] at h; cases h
      | cons r s' =>
          simp only [hdrop, Bool.and_eq_true, Nat.ble_eq] at h
          have hsub : r :: s' ⊆ s := hdrop ▸ List.dropWhile_subset _
          have hlast : n ≤ r.2 := by
            have hhead := List.head?_dropWhile_not (fun r : Nat × Nat => r.2.blt n) s
            simp only [hdrop, List.head?_cons] at hhead
            rw [← Bool.not_eq_true, Nat.blt_eq] at hhead
            omega
          intro m hm
          rcases List.mem_cons.1 hm with rfl | hm
          · exact CodeSet.holds_iff.2 ⟨r, hsub List.mem_cons_self, h.1, hlast⟩
          · exact CodeSet.holds_of_subset hsub (ih h.2 m hm)

/-- Of the ranges only those that start early enough matter. -/
theorem CodeSet.holds_filter (s : CodeSet) {n bound : Nat} (h : n < bound) :
    CodeSet.holds (s.filter fun r => r.1.blt bound) n = s.holds n := by
  rw [Bool.eq_iff_iff]
  constructor
  · exact CodeSet.holds_of_subset (List.filter_subset_self _)
  · intro hholds
    obtain ⟨r, hr, hle, hge⟩ := CodeSet.holds_iff.1 hholds
    have hfirst : r.1.blt bound = true := by
      rw [Nat.blt_eq]
      omega
    exact CodeSet.holds_iff.2 ⟨r, List.mem_filter.2 ⟨hr, hfirst⟩, hle, hge⟩

theorem CodeSet.not_contains_of_apart {s t : CodeSet} {c : Char} (h : s.apart t = true)
    (hc : s.contains c = true) : t.contains c = false := by
  rw [Bool.eq_false_iff]
  intro ht
  rw [CodeSet.contains_eq_holds, CodeSet.holds_iff] at hc ht
  obtain ⟨r, hr, hrc⟩ := hc
  obtain ⟨u, hu, huc⟩ := ht
  simp only [CodeSet.apart, List.all_eq_true, Bool.or_eq_true, Nat.blt_eq] at h
  have hsides := h r hr u hu
  omega

/-- A code point of a class of characters is that of a character, which is in the class. -/
theorem CodeSet.contains_ofNat {s : CodeSet} {n : Nat} (hs : s.scalar = true)
    (h : s.holds n = true) : (Char.ofNat n).toNat = n ∧ s.contains (Char.ofNat n) = true := by
  have hnat : (Char.ofNat n).toNat = n := by
    obtain ⟨r, hr, hle, hge⟩ := CodeSet.holds_iff.1 h
    simp only [CodeSet.scalar, List.all_eq_true, Bool.or_eq_true, Bool.and_eq_true,
      Nat.blt_eq] at hs
    have hvalid : n.isValidChar := by
      have hrange := hs r hr
      unfold Nat.isValidChar
      omega
    unfold Char.ofNat
    rw [dif_pos hvalid]
    exact UInt32.toNat_ofNatLT
  refine ⟨hnat, ?_⟩
  rw [CodeSet.contains_eq_holds, hnat]
  exact h

theorem mem_runPoints {first last step n : Nat} (h : onRun first last step n = true) :
    n ∈ runPoints first last step := by
  simp only [onRun, Bool.and_eq_true, decide_eq_true_eq, beq_iff_eq] at h
  obtain ⟨⟨hfirst, hlast⟩, hstep⟩ := h
  have hk : (n - first) / step < (last - first) / step + 1 :=
    Nat.lt_succ_of_le (Nat.div_le_div_right (by omega))
  refine List.mem_map.2 ⟨(n - first) / step, List.mem_range.2 hk, ?_⟩
  have hdiv := Nat.div_add_mod (n - first) step
  rw [hstep, Nat.mul_comm] at hdiv
  omega

/-! ## Shifts -/

namespace ShiftTable

/-- Whether every character that moves is in the class. -/
def startsWithin (t : ShiftTable) (s : CodeSet) : Bool :=
  s.holdsAll (t.flatMap fun r => runPoints r.1 r.2.1 r.2.2.1)

/-- Where the runs are moved to: first, last and step. -/
def images (t : ShiftTable) : SteppedSet :=
  t.map fun r => ((r.1 + r.2.2.2).toNat, (r.1 + r.2.2.2).toNat + (r.2.1 - r.1), r.2.2.1)

/-- Whether every character that moves ends up in the class. -/
def endsWithin (t : ShiftTable) (s : CodeSet) : Bool :=
  (t.all fun r => (r.1 + r.2.2.2).toNat == r.1 + r.2.2.2) &&
    s.holdsAll ((t.images.insertionSort fun r u => r.1 ≤ u.1).flatMap fun r =>
      runPoints r.1 r.2.1 r.2.2)

/-- Whether nothing moves to a code point. -/
def avoids (t : ShiftTable) (n : Nat) : Bool := t.images.all fun r => n.blt r.1 || r.2.1.blt n

/-- A character stays where it is, or it is on a run and moves by the distance of that run. -/
theorem apply_cases (t : ShiftTable) (c : Char) :
    t.apply c = c ∨ ∃ r ∈ t, onRun r.1 r.2.1 r.2.2.1 c.toNat = true ∧
      t.apply c = Char.ofNat (c.toNat + r.2.2.2).toNat := by
  unfold ShiftTable.apply
  cases hfind : t.find? fun r => onRun r.1 r.2.1 r.2.2.1 c.toNat with
  | none => exact .inl rfl
  | some r =>
      have hrun := List.find?_some hfind
      exact .inr ⟨r, List.mem_of_find?_eq_some hfind, hrun, rfl⟩

theorem apply_of_not_contains {t : ShiftTable} {s : CodeSet} {c : Char}
    (h : t.startsWithin s = true) (hc : s.contains c = false) : t.apply c = c := by
  rcases t.apply_cases c with heq | ⟨r, hr, hrun, -⟩
  · exact heq
  · have hmem : c.toNat ∈ t.flatMap fun r => runPoints r.1 r.2.1 r.2.2.1 :=
      List.mem_flatMap.2 ⟨r, hr, mem_runPoints hrun⟩
    have hholds := CodeSet.holds_of_holdsAll h _ hmem
    rw [← CodeSet.contains_eq_holds, hc] at hholds
    cases hholds

/-- Where a character that moves ends up: in the class, and on the run that was moved with it. -/
theorem apply_cases_of_endsWithin {t : ShiftTable} {s : CodeSet} (hs : s.scalar = true)
    (h : t.endsWithin s = true) (c : Char) :
    t.apply c = c ∨ s.contains (t.apply c) = true ∧
      ∃ r ∈ t.images, r.1 ≤ (t.apply c).toNat ∧ (t.apply c).toNat ≤ r.2.1 := by
  rcases t.apply_cases c with heq | ⟨r, hr, hrun, heq⟩
  · exact .inl heq
  · rw [endsWithin, Bool.and_eq_true] at h
    have hstart := List.all_eq_true.1 h.1 r hr
    rw [beq_iff_eq] at hstart
    have himage : _ ∈ t.images := List.mem_map_of_mem hr
    have hmoved : onRun (r.1 + r.2.2.2).toNat ((r.1 + r.2.2.2).toNat + (r.2.1 - r.1)) r.2.2.1
        (c.toNat + r.2.2.2).toNat = true := by
      simp only [onRun, Bool.and_eq_true, decide_eq_true_eq, beq_iff_eq] at hrun ⊢
      have hdistance : (c.toNat + r.2.2.2).toNat - (r.1 + r.2.2.2).toNat = c.toNat - r.1 := by
        omega
      rw [hdistance]
      exact ⟨⟨by omega, by omega⟩, hrun.2⟩
    have hholds := CodeSet.holds_of_holdsAll h.2 _
      (List.mem_flatMap.2 ⟨_, (List.mem_insertionSort _).2 himage, mem_runPoints hmoved⟩)
    obtain ⟨hnat, hcontains⟩ := CodeSet.contains_ofNat hs hholds
    simp only [onRun, Bool.and_eq_true, decide_eq_true_eq] at hmoved
    rw [heq, hnat]
    exact .inr ⟨hcontains, _, himage, hmoved.1.1, hmoved.1.2⟩

theorem contains_apply {t : ShiftTable} {s : CodeSet} {c : Char} (hs : s.scalar = true)
    (h : t.endsWithin s = true) (hc : s.contains c = true) : s.contains (t.apply c) = true := by
  rcases apply_cases_of_endsWithin hs h c with heq | ⟨hin, -⟩
  · rw [heq]
    exact hc
  · exact hin

theorem apply_eq_self_of_avoids {t : ShiftTable} {s : CodeSet} {c : Char} (hs : s.scalar = true)
    (h : t.endsWithin s = true) (havoids : t.avoids (t.apply c).toNat = true) : t.apply c = c := by
  rcases apply_cases_of_endsWithin hs h c with heq | ⟨-, r, hr, hlow, hhigh⟩
  · exact heq
  · have hsides := List.all_eq_true.1 havoids r hr
    simp only [Bool.or_eq_true, Nat.blt_eq] at hsides
    omega

end ShiftTable

/-! ## The tables -/

/-- Marks that are put on the letter before them. -/
def combiningMarks : CodeSet := [(0x300, 0x344)]

/-- The letters whose capital needs a combining mark. -/
def markedCapitals : List Nat :=
  [0x1F0, 0x390, 0x3B0, 0x1E96, 0x1E97, 0x1E98, 0x1E99, 0x1F50, 0x1F52, 0x1F54, 0x1F56, 0x1FB6,
   0x1FB7, 0x1FC6, 0x1FC7, 0x1FD2, 0x1FD3, 0x1FD6, 0x1FD7, 0x1FE2, 0x1FE3, 0x1FE4, 0x1FE6, 0x1FE7,
   0x1FF6, 0x1FF7]

/-- Whether the capital of a character needs a combining mark. -/
def needsMark (c : Char) : Bool := markedCapitals.contains c.toNat

/-- The capital I with a dot above, the only character whose lower case is not one character. -/
def dottedI : Char := Char.ofNat 0x130

/-- What expansions consist of apart from marks. -/
def expandedLetters : List Nat :=
  (upperExpansions.flatMap Prod.snd).filter fun n => !combiningMarks.holds n

/-- Whether an expansion starts with a code point without a special upper or lower case, and has a
mark only where one is needed. -/
def expandsPlainly (e : Nat × List Nat) : Bool :=
  (markedCapitals.contains e.1 == e.2.any combiningMarks.holds) &&
    match e.2 with
    | [] => false
    | n :: _ => !combiningMarks.holds n && !(0x130 :: markedCapitals).contains n

/-- What is checked of the tables. -/
structure TablesFit : Prop where
  /-- All letters are characters. -/
  scalar : alphabetic.scalar = true
  /-- The letters and the digits of ASCII are the usual ones. -/
  letters : (alphabetic.filter fun r => r.1.blt 0x80) = [(0x41, 0x5A), (0x61, 0x7A)]
  digits : (numeric.filter fun r => r.1.blt 0x80) = [(0x30, 0x39)]
  /-- White space and marks are no letters, and marks are no digits. -/
  blank : blank.apart alphabetic = true
  marks : combiningMarks.apart alphabetic = true
  marks' : combiningMarks.apart numeric = true
  /-- Only letters move, and only to letters. -/
  upperStarts : upperShifts.startsWithin alphabetic = true
  upperEnds : upperShifts.endsWithin alphabetic = true
  lowerStarts : lowerShifts.startsWithin alphabetic = true
  lowerEnds : lowerShifts.endsWithin alphabetic = true
  /-- Only letters expand, and only to letters and marks. -/
  expanded : alphabetic.holdsAll (upperExpansions.map Prod.fst) = true
  expansion : alphabetic.holdsAll (expandedLetters.insertionSort (· ≤ ·)) = true
  plainly : ∀ e ∈ upperExpansions, expandsPlainly e = true
  /-- A letter whose capital needs a mark expands. -/
  marked : ∀ n ∈ markedCapitals, (upperExpansions.lookup n).isSome = true
  /-- Nothing moves to a letter with a special upper or lower case. -/
  upperAvoids : ∀ n ∈ 0x130 :: markedCapitals, upperShifts.avoids n = true
  lowerAvoids : lowerShifts.avoids 0x130 = true

theorem tablesFit : TablesFit := by constructor <;> decide +kernel

theorem isAlpha_iff_toNat {c : Char} : c.isAlpha = true ↔
    0x41 ≤ c.toNat ∧ c.toNat ≤ 0x5A ∨ 0x61 ≤ c.toNat ∧ c.toNat ≤ 0x7A := by
  show (decide (c.val ≥ 'A'.val ∧ c.val ≤ 'Z'.val) ||
    decide (c.val ≥ 'a'.val) && decide (c.val ≤ 'z'.val)) = true ↔ _
  simp [UInt32.le_iff_toNat_le]

theorem isAlphabetic_ascii {c : Char} (h : c.toNat < 0x80) : isAlphabetic c = c.isAlpha := by
  rw [isAlphabetic, CodeSet.contains_eq_holds, ← CodeSet.holds_filter _ h,
    TablesFit.letters tablesFit, Bool.eq_iff_iff, isAlpha_iff_toNat]
  simp [CodeSet.holds]

theorem isAlphabetic_of_isAlpha {c : Char} (h : c.isAlpha = true) : isAlphabetic c = true := by
  have hbound := isAlpha_iff_toNat.1 h
  rw [isAlphabetic_ascii (by omega), h]

theorem isNumeric_ascii {c : Char} (h : c.toNat < 0x80) : isNumeric c = c.isDigit := by
  rw [isNumeric, CodeSet.contains_eq_holds, ← CodeSet.holds_filter _ h,
    TablesFit.digits tablesFit, Bool.eq_iff_iff, Char.isDigit_iff_toNat]
  simp [CodeSet.holds]

/-! ## Upper case -/

/-- The upper case of a character is looked up among the expansions first. -/
theorem upper_cases (c : Char) :
    (∃ e ∈ upperExpansions, e.1 = c.toNat ∧ upper c = e.2.map Char.ofNat) ∨
      upperExpansions.lookup c.toNat = none ∧ upper c = [upperShifts.apply c] := by
  unfold upper
  cases hlookup : upperExpansions.lookup c.toNat with
  | none => exact .inr ⟨rfl, rfl⟩
  | some cs =>
      obtain ⟨before, after, heq, -⟩ := List.lookup_eq_some_iff.1 hlookup
      exact .inl ⟨(c.toNat, cs), by rw [heq]; simp, rfl, rfl⟩

theorem isAlphabetic_upperShift {c : Char} (h : isAlphabetic c = true) :
    isAlphabetic (upperShifts.apply c) = true :=
  ShiftTable.contains_apply (TablesFit.scalar tablesFit) (TablesFit.upperEnds tablesFit) h

/-- Only letters expand. -/
theorem isAlphabetic_of_expands {e : Nat × List Nat} {c : Char} (he : e ∈ upperExpansions)
    (hc : e.1 = c.toNat) : isAlphabetic c = true := by
  rw [isAlphabetic, CodeSet.contains_eq_holds, ← hc]
  exact CodeSet.holds_of_holdsAll (TablesFit.expanded tablesFit) _ (List.mem_map_of_mem he)

theorem contains_expansion {e : Nat × List Nat} {n : Nat} (he : e ∈ upperExpansions)
    (hn : n ∈ e.2) : (Char.ofNat n).toNat = n ∧
      if combiningMarks.holds n then combiningMarks.contains (Char.ofNat n) = true
      else isAlphabetic (Char.ofNat n) = true := by
  by_cases hmark : combiningMarks.holds n = true
  · rw [if_pos hmark]
    exact CodeSet.contains_ofNat (by decide) hmark
  · rw [if_neg hmark]
    have hmem : n ∈ expandedLetters :=
      List.mem_filter.2 ⟨List.mem_flatMap.2 ⟨e, he, hn⟩, by simpa using hmark⟩
    have hholds := CodeSet.holds_of_holdsAll (TablesFit.expansion tablesFit) n
      ((List.mem_insertionSort _).2 hmem)
    exact CodeSet.contains_ofNat (TablesFit.scalar tablesFit) hholds

/-- An expansion starts with a letter. -/
theorem exists_expansion {e : Nat × List Nat} (he : e ∈ upperExpansions) :
    ∃ u us, e.2.map Char.ofNat = u :: us ∧ isAlphabetic u = true ∧
      u.toNat ∉ 0x130 :: markedCapitals := by
  have hplain := TablesFit.plainly tablesFit e he
  obtain ⟨first, image⟩ := e
  cases image with
  | nil => simp [expandsPlainly] at hplain
  | cons n ns =>
      simp only [expandsPlainly, Bool.and_eq_true, Bool.not_eq_true', List.contains_eq_mem,
        decide_eq_false_iff_not] at hplain
      obtain ⟨-, hmark, hspecial⟩ := hplain
      obtain ⟨hnat, hletter⟩ := contains_expansion he List.mem_cons_self
      rw [hmark] at hletter
      exact ⟨Char.ofNat n, ns.map Char.ofNat, rfl, hletter, by rw [hnat]; exact hspecial⟩

theorem upper_of_not_alphabetic {c : Char} (h : isAlphabetic c = false) : upper c = [c] := by
  rcases upper_cases c with ⟨e, he, hc, -⟩ | ⟨-, heq⟩
  · rw [isAlphabetic_of_expands he hc] at h
    cases h
  · rw [heq, ShiftTable.apply_of_not_contains (TablesFit.upperStarts tablesFit) h]

/-- The upper case of a letter starts with a letter. -/
theorem exists_upper {c : Char} (h : isAlphabetic c = true) :
    ∃ u us, upper c = u :: us ∧ isAlphabetic u = true := by
  rcases upper_cases c with ⟨e, he, -, heq⟩ | ⟨-, heq⟩
  · obtain ⟨u, us, hmap, hu, -⟩ := exists_expansion he
    exact ⟨u, us, by rw [heq, hmap], hu⟩
  · exact ⟨_, _, heq, isAlphabetic_upperShift h⟩

/-- No upper case starts with a letter whose capital needs a mark, and only that of the capital I
with a dot starts with this one. -/
theorem head_upper {c u : Char} {us : List Char} (h : upper c = u :: us) :
    needsMark u = false ∧ (u = dottedI → c = dottedI) := by
  rcases upper_cases c with ⟨e, he, hc, heq⟩ | ⟨hnone, heq⟩
  · obtain ⟨u', us', hmap, -, hspecial⟩ := exists_expansion he
    rw [heq, hmap] at h
    injection h with hu
    rw [hu, List.mem_cons, not_or] at hspecial
    refine ⟨?_, fun hdot => absurd (congrArg Char.toNat hdot) hspecial.1⟩
    rw [Bool.eq_false_iff]
    exact fun hmark => hspecial.2 (List.contains_iff_mem.1 hmark)
  · rw [heq] at h
    injection h with hu
    -- Nothing moves to one of these letters, so such a letter would stand for itself.
    have hstays : u.toNat ∈ 0x130 :: markedCapitals → upperShifts.apply c = c := by
      intro hmem
      rw [← hu] at hmem
      exact ShiftTable.apply_eq_self_of_avoids (TablesFit.scalar tablesFit)
        (TablesFit.upperEnds tablesFit) (TablesFit.upperAvoids tablesFit _ hmem)
    constructor
    · rw [Bool.eq_false_iff]
      intro hmark
      have hmem : u.toNat ∈ markedCapitals := List.contains_iff_mem.1 hmark
      have hself : c = u := by rw [← hu, hstays (List.mem_cons_of_mem _ hmem)]
      have hsome := TablesFit.marked tablesFit _ hmem
      rw [← hself, hnone] at hsome
      cases hsome
    · intro hdot
      have hmem : u.toNat ∈ 0x130 :: markedCapitals := by
        rw [hdot]
        exact List.mem_cons_self
      rw [← hdot, ← hu, hstays hmem]

/-- What is no letter of ASCII comes into upper case only from itself. -/
theorem eq_of_mem_upper {c s : Char} (hascii : s.toNat < 0x80) (hsign : s.isAlpha = false)
    (h : s ∈ upper c) : c = s := by
  have hletter : isAlphabetic s = false := by rw [isAlphabetic_ascii hascii, hsign]
  cases halpha : isAlphabetic c with
  | false =>
      rw [upper_of_not_alphabetic halpha] at h
      exact (List.mem_singleton.1 h).symm
  | true =>
      rcases upper_cases c with ⟨e, he, -, heq⟩ | ⟨-, heq⟩
      · rw [heq] at h
        obtain ⟨n, hn, hchar⟩ := List.mem_map.1 h
        have hcontains := (contains_expansion he hn).2
        rw [hchar, hletter] at hcontains
        split at hcontains
        · -- Combining marks are not in ASCII.
          rw [CodeSet.contains_eq_holds, CodeSet.holds_iff] at hcontains
          obtain ⟨range, hrange, hfirst, -⟩ := hcontains
          rw [combiningMarks, List.mem_singleton] at hrange
          rw [hrange] at hfirst
          omega
        · cases hcontains
      · rw [heq, List.mem_singleton] at h
        have hmoved := isAlphabetic_upperShift halpha
        rw [← h, hletter] at hmoved
        cases hmoved

/-! ## Lower case -/

theorem lower_dottedI : lower dottedI = ['i', Char.ofNat 0x307] := rfl

/-- Every other character has one character as its lower case. -/
theorem lower_of_ne_dottedI {c : Char} (h : c ≠ dottedI) : lower c = [lowerShifts.apply c] := by
  have hne : (c.toNat == 0x130) = false := by
    rw [beq_eq_false_iff_ne]
    intro heq
    exact h (by rw [← Char.ofNat_toNat c, heq]; rfl)
  rw [lower, lowerExpansions, List.lookup_cons, hne]
  rfl

theorem isAlphabetic_dottedI : isAlphabetic dottedI = true := by decide

theorem lower_of_not_alphabetic {c : Char} (h : isAlphabetic c = false) : lower c = [c] := by
  have hne : c ≠ dottedI := by
    rintro rfl
    rw [isAlphabetic_dottedI] at h
    cases h
  rw [lower_of_ne_dottedI hne,
    ShiftTable.apply_of_not_contains (TablesFit.lowerStarts tablesFit) h]

theorem exists_lower {c : Char} (h : isAlphabetic c = true) (hne : c ≠ dottedI) :
    ∃ l, lower c = [l] ∧ isAlphabetic l = true :=
  ⟨_, lower_of_ne_dottedI hne,
    ShiftTable.contains_apply (TablesFit.scalar tablesFit) (TablesFit.lowerEnds tablesFit) h⟩

/-- What is no letter of ASCII comes into lower case only from itself. -/
theorem eq_of_mem_lower {c s : Char} (hascii : s.toNat < 0x80) (hsign : s.isAlpha = false)
    (h : s ∈ lower c) : c = s := by
  by_cases hdot : c = dottedI
  · rw [hdot, lower_dottedI, List.mem_cons, List.mem_singleton] at h
    rcases h with rfl | rfl
    · cases hsign
    · exact absurd hascii (by decide)
  · cases halpha : isAlphabetic c with
    | false =>
        rw [lower_of_not_alphabetic halpha] at h
        exact (List.mem_singleton.1 h).symm
    | true =>
        obtain ⟨l, hlower, hl⟩ := exists_lower halpha hdot
        rw [hlower, List.mem_singleton] at h
        rw [← h, isAlphabetic_ascii hascii, hsign] at hl
        cases hl

/-- The capital I with a dot is not in lower case. -/
theorem dottedI_not_mem_lower (c : Char) : dottedI ∉ lower c := by
  intro hmem
  by_cases hne : c = dottedI
  · rw [hne, lower_dottedI] at hmem
    exact absurd hmem (by decide)
  · rw [lower_of_ne_dottedI hne, List.mem_singleton] at hmem
    have havoids : lowerShifts.avoids (lowerShifts.apply c).toNat = true := by
      rw [← hmem]
      exact TablesFit.lowerAvoids tablesFit
    have hself := ShiftTable.apply_eq_self_of_avoids (TablesFit.scalar tablesFit)
      (TablesFit.lowerEnds tablesFit) havoids
    exact hne (by rw [hmem, hself])

end DataAccess.Unicode

namespace DataAccess.Go

open DataAccess.Unicode

/-! ## Characters of identifiers -/

theorem isIdentifierPart_of_isAlphabetic {c : Char} (h : isAlphabetic c = true) :
    isIdentifierPart c = true := by
  simp [isIdentifierPart, h]

theorem isIdentifierPart_ascii {c : Char} (h : c.toNat < 0x80) :
    isIdentifierPart c = (c.isAlphanum || c == '_') := by
  rw [isIdentifierPart, isAlphabetic_ascii h, isNumeric_ascii h, Char.isAlphanum]

/-- A word in ASCII letters has the shape of an identifier. -/
theorem identifierShape_of_isAlpha {cs : List Char} (hne : cs ≠ [])
    (h : cs.all Char.isAlpha = true) : identifierShape cs = true := by
  have hletter : ∀ c ∈ cs, isAlphabetic c = true := fun c hc =>
    isAlphabetic_of_isAlpha (List.all_eq_true.1 h c hc)
  cases cs with
  | nil => exact absurd rfl hne
  | cons c cs =>
      have hparts : cs.all isIdentifierPart = true := List.all_eq_true.2 fun d hd =>
        isIdentifierPart_of_isAlphabetic (hletter d (List.mem_cons_of_mem c hd))
      rw [identifierShape, isIdentifierStart, hletter c List.mem_cons_self, hparts]
      rfl

theorem not_part_combiningMark {c : Char} (h : combiningMarks.contains c = true) :
    isIdentifierPart c = false := by
  have hne : c ≠ '_' := by
    rintro rfl
    exact absurd h (by decide)
  have hletter : isAlphabetic c = false :=
    CodeSet.not_contains_of_apart (TablesFit.marks tablesFit) h
  have hdigit : isNumeric c = false :=
    CodeSet.not_contains_of_apart (TablesFit.marks' tablesFit) h
  simp [isIdentifierPart, hletter, hdigit, hne]

/-- The upper case of a character of an identifier can stand in an identifier, unless it needs a
combining mark. -/
theorem all_part_upper {c : Char} (h : isIdentifierPart c = true) :
    (upper c).all isIdentifierPart = !needsMark c := by
  rcases upper_cases c with ⟨e, he, hc, heq⟩ | ⟨hnone, heq⟩
  · have hmark : needsMark c = e.2.any combiningMarks.holds := by
      have hplain := TablesFit.plainly tablesFit e he
      rw [expandsPlainly, Bool.and_eq_true, beq_iff_eq] at hplain
      rw [needsMark, ← hc, hplain.1]
    have hparts : ∀ n ∈ e.2, isIdentifierPart (Char.ofNat n) = !combiningMarks.holds n := by
      intro n hn
      have hcontains := (contains_expansion he hn).2
      split at hcontains
      · next hholds => rw [not_part_combiningMark hcontains, hholds]; rfl
      · next hholds => simp [isIdentifierPart_of_isAlphabetic hcontains, hholds]
    rw [heq, hmark, List.all_map, List.not_any_eq_all_not, Bool.eq_iff_iff, List.all_eq_true,
      List.all_eq_true]
    exact forall₂_congr fun n hn => by rw [Function.comp_apply, hparts n hn]
  · have hmark : needsMark c = false := by
      rw [Bool.eq_false_iff]
      intro hmark
      have hsome := TablesFit.marked tablesFit _ (List.contains_iff_mem.1 hmark)
      rw [hnone] at hsome
      cases hsome
    rw [hmark]
    cases halpha : isAlphabetic c with
    | false => simp [upper_of_not_alphabetic halpha, h]
    | true =>
        simp [heq, isIdentifierPart_of_isAlphabetic (isAlphabetic_upperShift halpha)]

/-- An identifier does not start with white space. -/
theorem not_isBlank_of_isIdentifierStart {c : Char} (h : isIdentifierStart c = true) :
    isBlank c = false := by
  rw [Bool.eq_false_iff]
  intro hblank
  have halpha : isAlphabetic c = false :=
    CodeSet.not_contains_of_apart (TablesFit.blank tablesFit) hblank
  rw [isIdentifierStart, halpha, Bool.false_or, beq_iff_eq] at h
  rw [h] at hblank
  exact absurd hblank (by decide)

end DataAccess.Go
