import DataAccess.Proofs.ConstantGroups
import DataAccess.Proofs.TextBytes
import Mathlib.Data.List.Induction

set_option autoImplicit false

/-! # Interpreted string literals

A Go string is a sequence of bytes. An interpreted literal gives them by characters and by escapes,
some of which are numbers of bytes or characters to the base 8 or 16 (`element?`). It is read
element by element up to the quote that closes it (`interpreted?`).

The main result is that a quoted text is read as the bytes of the text, whatever follows it, that
its quotes are escaped but for the one that closes it, and that it stays what it is when the source
around it is indented (`quoted_text_survives`). -/

namespace DataAccess.Text

/-! ## Lines under indentation -/

/-- The lines of a text, as they stand between line feeds. -/
def linesBetween (cs : List Char) : List (List Char) := splitBy (· == '\n') cs

theorem mem_linesBetween {cs line : List Char} (h : line ∈ linesBetween cs) {c : Char}
    (hc : c ∈ line) : c ∈ cs ∧ c ≠ '\n' := by
  have hsplit := mem_splitBy.1 ⟨line, h, hc⟩
  exact ⟨hsplit.1, by simpa using hsplit.2⟩

theorem linesBetween_intercalate {ls : List (List Char)} (hne : ls ≠ [])
    (h : ∀ l ∈ ls, '\n' ∉ l) : linesBetween (List.intercalate ['\n'] ls) = ls := by
  have hline {l : List Char} (hl : '\n' ∉ l) : splitBy (· == '\n') l = [l] := by
    apply splitBy_of_none
    intro c hc
    rw [beq_eq_false_iff_ne]
    rintro rfl
    exact hl hc
  induction ls with
  | nil => exact absurd rfl hne
  | cons l ls ih =>
      obtain ⟨hl, hls⟩ := List.forall_mem_cons.1 h
      cases ls with
      | nil =>
          rw [List.intercalate_singleton]
          exact hline hl
      | cons k ls =>
          have hsplit : linesBetween (l ++ '\n' :: List.intercalate ['\n'] (k :: ls)) = _ :=
            splitBy_append (by decide) _ _
          rw [List.intercalate_cons_cons, List.append_assoc, List.singleton_append, hsplit,
            hline hl]
          exact congrArg (l :: ·) (ih (List.cons_ne_nil _ _) hls)

theorem mem_closeLines {pieces : List (List Char)} {line : List Char}
    (h : line ∈ closeLines pieces) : ∃ piece ∈ pieces, line ⊆ piece := by
  induction pieces using closeLines.induct with
  | case1 => cases h
  | case2 piece hpiece => simp [closeLines, hpiece] at h
  | case3 piece hpiece =>
      refine ⟨piece, List.mem_cons_self, ?_⟩
      have hline : line = piece := by simpa [closeLines, hpiece] using h
      rw [hline]
      exact List.Subset.refl _
  | case4 piece next rest ih =>
      rcases List.mem_cons.1 h with rfl | h
      · exact ⟨piece, List.mem_cons_self, dropReturn_subset piece⟩
      · obtain ⟨other, hother, hsubset⟩ := ih h
        exact ⟨other, List.mem_cons_of_mem _ hother, hsubset⟩

/-- Without carriage returns a line that is not empty keeps its number and what stands in it. -/
theorem getElem?_closeLines {pieces : List (List Char)} (h : ∀ piece ∈ pieces, '\r' ∉ piece)
    {line : List Char} (hline : line ≠ []) {k : Nat} (hk : pieces[k]? = some line) :
    (closeLines pieces)[k]? = some line := by
  induction pieces using closeLines.induct generalizing k with
  | case1 => cases hk
  | case2 piece hpiece =>
      cases k with
      | zero =>
          have hempty : piece = [] := by simpa using hpiece
          simp [hempty, hline.symm] at hk
      | succ k => cases hk
  | case3 piece hpiece =>
      unfold closeLines
      rw [if_neg hpiece]
      exact hk
  | case4 piece next rest ih =>
      obtain ⟨hpiece, hrest⟩ := List.forall_mem_cons.1 h
      unfold closeLines
      cases k with
      | zero => simpa [dropReturn_of_not_mem hpiece] using hk
      | succ k => exact ih hrest hk

/-- A line moved right by so many tabs, unless it is empty. -/
def movedLine (depth : Nat) (line : List Char) : List Char :=
  if line = [] then [] else List.replicate depth '\t' ++ line

theorem toList_indent_eq (depth : Nat) (text : String) : (indent depth text).toList =
    List.intercalate ['\n'] ((lineChars text.toList).map (movedLine depth)) := by
  have hline (line : List Char) :
      (indentLine depth (String.ofList line)).toList = movedLine depth line := by
    unfold indentLine movedLine
    by_cases h : line = [] <;> simp [h]
  rw [indent, lines, String.toList_intercalate, List.map_map, List.map_map]
  simp only [Function.comp_def, hline]
  rfl

theorem mem_movedLine {depth : Nat} {line : List Char} {c : Char} (h : c ∈ movedLine depth line) :
    c = '\t' ∨ c ∈ line := by
  unfold movedLine at h
  split_ifs at h with hempty
  · cases h
  · rcases List.mem_append.1 h with h | h
    · exact .inl (List.eq_of_mem_replicate h)
    · exact .inr h

theorem mem_lineChars {cs line : List Char} (h : line ∈ lineChars cs) {c : Char} (hc : c ∈ line) :
    c ∈ cs ∧ c ≠ '\n' := by
  obtain ⟨piece, hpiece, hsubset⟩ := mem_closeLines h
  exact mem_linesBetween hpiece (hsubset hc)

theorem linesBetween_indent (depth : Nat) {text : String} (h : lineChars text.toList ≠ []) :
    linesBetween (indent depth text).toList = (lineChars text.toList).map (movedLine depth) := by
  rw [toList_indent_eq]
  apply linesBetween_intercalate (by simpa using h)
  intro l hl hfeed
  obtain ⟨line, hline, rfl⟩ := List.mem_map.1 hl
  rcases mem_movedLine hfeed with htab | hmem
  · exact absurd htab (by decide)
  · exact (mem_lineChars hline hmem).2 rfl

/-- Indentation brings no carriage return into a text. -/
theorem return_not_mem_indent {text : String} (h : '\r' ∉ text.toList) (depth : Nat) :
    '\r' ∉ (indent depth text).toList := by
  intro hmem
  by_cases hempty : lineChars text.toList = []
  · simp [toList_indent_eq, hempty] at hmem
  · obtain ⟨l, hl, hreturn⟩ : ∃ l ∈ linesBetween (indent depth text).toList, '\r' ∈ l :=
      mem_splitBy.2 ⟨hmem, by decide⟩
    rw [linesBetween_indent depth hempty] at hl
    obtain ⟨line, hline, rfl⟩ := List.mem_map.1 hl
    rcases mem_movedLine hreturn with htab | hreturn
    · exact absurd htab (by decide)
    · exact h (mem_lineChars hline hreturn).1

/-- A line that is not empty keeps its number and moves right by the tabs. -/
theorem getElem?_indent {text : String} (h : '\r' ∉ text.toList) {k : Nat} {line : List Char}
    (hline : line ≠ []) (hk : (linesBetween text.toList)[k]? = some line) (depth : Nat) :
    (linesBetween (indent depth text).toList)[k]? =
      some (List.replicate depth '\t' ++ line) := by
  have hkept : (lineChars text.toList)[k]? = some line := by
    refine getElem?_closeLines (fun piece hpiece hreturn => ?_) hline hk
    exact h (mem_linesBetween hpiece hreturn).1
  have hne : lineChars text.toList ≠ [] := by
    intro hempty
    rw [hempty] at hkept
    cases hkept
  rw [linesBetween_indent depth hne, List.getElem?_map, hkept, Option.map_some, movedLine,
    if_neg hline]

/-- Nested blocks are indented again and again. -/
theorem getElem?_indent_iterate {text : String} (h : '\r' ∉ text.toList) {k : Nat}
    {line : List Char} (hline : line ≠ []) (hk : (linesBetween text.toList)[k]? = some line)
    (depth n : Nat) :
    (linesBetween ((indent depth)^[n] text).toList)[k]? =
      some (List.replicate (n * depth) '\t' ++ line) := by
  -- What one step needs, that there are no carriage returns, it also leaves behind.
  have hall : '\r' ∉ ((indent depth)^[n] text).toList ∧
      (linesBetween ((indent depth)^[n] text).toList)[k]? =
        some (List.replicate (n * depth) '\t' ++ line) := by
    induction n with
    | zero => simpa using ⟨h, hk⟩
    | succ n ih =>
        obtain ⟨hreturn, hmoved⟩ := ih
        rw [Function.iterate_succ_apply']
        refine ⟨return_not_mem_indent hreturn depth, ?_⟩
        rw [getElem?_indent hreturn (by simp [hline]) hmoved depth, ← List.append_assoc,
          List.replicate_append_replicate, Nat.succ_mul, Nat.add_comm depth]
  exact hall.2

end DataAccess.Text

namespace DataAccess.Go

/-! ## Elements of a literal -/

/-- The number in the next digits of a text, so many of them and to a base, and what follows. -/
def digits? (base : Nat) : Nat → Nat → List Char → Option (Nat × List Char)
  | 0, value, cs => some (value, cs)
  | _ + 1, _, [] => none
  | count + 1, value, c :: cs =>
    match hexValue? c with
    | some digit => if digit < base then digits? base count (base * value + digit) cs else none
    | none => none

/-- A number that is a byte. -/
def byteOf? (n : Nat) : Option (List UInt8) := if n < 256 then some [UInt8.ofNat n] else none

/-- A number that is a character, as the bytes of the character. -/
def charOf? (n : Nat) : Option (List UInt8) :=
  if n.isValidChar then some (String.utf8EncodeChar (Char.ofNat n)) else none

/-- An escape that gives a number. -/
def numeric? (base count : Nat) (bytes? : Nat → Option (List UInt8)) (cs : List Char) :
    Option (List UInt8 × List Char) :=
  (digits? base count 0 cs).bind fun (n, rest) => (bytes? n).map (·, rest)

/-- An escape behind its backslash: the bytes it stands for, and what follows. Three octal digits
need no letter before them. -/
def escape? : List Char → Option (List UInt8 × List Char)
  | [] => none
  | c :: cs =>
    if c = 'x' then numeric? 16 2 byteOf? cs
    else if c = 'u' then numeric? 16 4 charOf? cs
    else if c = 'U' then numeric? 16 8 charOf? cs
    else match escaped? c with
      | some d => some (String.utf8EncodeChar d, cs)
      | none => numeric? 8 3 byteOf? (c :: cs)

/-- The next element of an interpreted literal: the bytes it stands for, and what follows. A line
feed is none, nor is the closing quote. -/
def element? : List Char → Option (List UInt8 × List Char)
  | [] => none
  | c :: cs =>
    if c = '\"' ∨ c = '\n' then none
    else if c = '\\' then escape? cs
    else some (String.utf8EncodeChar c, cs)

theorem length_of_digits? {base count value n : Nat} {cs rest : List Char}
    (h : digits? base count value cs = some (n, rest)) : rest.length + count = cs.length := by
  induction count generalizing value cs with
  | zero =>
      cases h
      rfl
  | succ count ih =>
      cases cs with
      | nil => cases h
      | cons c cs =>
          unfold digits? at h
          split at h
          · split_ifs at h
            have hlength := ih h
            simp only [List.length_cons]
            omega
          · cases h

theorem length_of_numeric? {base count : Nat} {bytes? : Nat → Option (List UInt8)}
    {cs rest : List Char} {bs : List UInt8} (h : numeric? base count bytes? cs = some (bs, rest)) :
    rest.length + count = cs.length := by
  unfold numeric? at h
  obtain ⟨⟨n, rest'⟩, hnumber, hbytes⟩ := Option.bind_eq_some_iff.1 h
  obtain ⟨bs', -, heq⟩ := Option.map_eq_some_iff.1 hbytes
  cases heq
  exact length_of_digits? hnumber

theorem length_of_escape? {cs rest : List Char} {bs : List UInt8}
    (h : escape? cs = some (bs, rest)) : rest.length < cs.length := by
  cases cs with
  | nil => cases h
  | cons c cs =>
      rw [escape?] at h
      simp only [List.length_cons]
      split_ifs at h
      · have := length_of_numeric? h
        omega
      · have := length_of_numeric? h
        omega
      · have := length_of_numeric? h
        omega
      · split at h
        · cases h
          omega
        · have hlength := length_of_numeric? h
          rw [List.length_cons] at hlength
          omega

theorem length_of_element? {cs rest : List Char} {bs : List UInt8}
    (h : element? cs = some (bs, rest)) : rest.length < cs.length := by
  cases cs with
  | nil => cases h
  | cons c cs =>
      rw [element?] at h
      simp only [List.length_cons]
      split_ifs at h
      · have := length_of_escape? h
        omega
      · cases h
        omega

/-- An interpreted literal behind its opening quote: the bytes it stands for, and what follows its
closing quote. -/
def interpreted? (cs : List Char) : Option (List UInt8 × List Char) :=
  match cs with
  | [] => none
  | c :: cs =>
    if c = '\"' then some ([], cs)
    else match _h : element? (c :: cs) with
      | none => none
      | some (bs, rest) => (interpreted? rest).map fun p => (bs ++ p.1, p.2)
termination_by cs.length
decreasing_by exact length_of_element? ‹_›

/-- The interpreted literal at the front of a source. -/
def literal? : List Char → Option (List UInt8 × List Char)
  | [] => none
  | c :: cs => if c = '\"' then interpreted? cs else none

/-! ## Quoted texts are read back -/

theorem interpreted?_quote (rest : List Char) : interpreted? ('\"' :: rest) = some ([], rest) := by
  rw [interpreted?, if_pos rfl]

/-- The first element is read on its own. -/
theorem interpreted?_of_element? {cs rest : List Char} {bs : List UInt8}
    (h : element? cs = some (bs, rest)) :
    interpreted? cs = (interpreted? rest).map fun p => (bs ++ p.1, p.2) := by
  cases cs with
  | nil => cases h
  | cons c cs =>
      have hquote : c ≠ '\"' := by
        rintro rfl
        cases h
      rw [interpreted?, if_neg hquote]
      split
      · next hnone => rw [h] at hnone; cases hnone
      · next bs' rest' hsome =>
          rw [h] at hsome
          cases hsome
          rfl

theorem element?_short {e c : Char} (hnumber : e ≠ 'x' ∧ e ≠ 'u' ∧ e ≠ 'U')
    (h : escaped? e = some c) (rest : List Char) :
    element? ('\\' :: e :: rest) = some (String.utf8EncodeChar c, rest) := by
  obtain ⟨hx, hu, hU⟩ := hnumber
  rw [element?, if_neg (by decide), if_pos rfl, escape?, if_neg hx, if_neg hu, if_neg hU, h]

theorem utf8EncodeChar_of_lt {c : Char} (h : c.toNat < 0x80) :
    String.utf8EncodeChar c = [UInt8.ofNat c.toNat] := by
  unfold String.utf8EncodeChar
  exact if_pos (Nat.le_of_lt_succ h)

/-- Two hexadecimal digits are a byte. -/
theorem element?_hex {n : Nat} (h : n < 256) (rest : List Char) :
    element? ('\\' :: 'x' :: Nat.digitChar (n / 16) :: Nat.digitChar (n % 16) :: rest) =
      some ([UInt8.ofNat n], rest) := by
  have hhigh := hexValue?_digitChar (n / 16) (by omega)
  have hlow := hexValue?_digitChar (n % 16) (by omega)
  have hhigh' : n / 16 < 16 := by omega
  have hlow' : n % 16 < 16 := by omega
  have hdigits : 16 * (n / 16) + n % 16 = n := Nat.div_add_mod n 16
  rw [element?, if_neg (by decide), if_pos rfl, escape?, if_pos rfl]
  simp [numeric?, digits?, hhigh, hlow, hhigh', hlow', hdigits, byteOf?, h]

/-- An escaped character is one element, whatever follows it. -/
theorem element?_escapeChar (c : Char) (rest : List Char) :
    element? (escapeChar c ++ rest) = some (String.utf8EncodeChar c, rest) := by
  unfold escapeChar
  split_ifs with hquote hback hfeed hreturn htab hcontrol
  · rw [hquote]; exact element?_short (by decide) rfl rest
  · rw [hback]; exact element?_short (by decide) rfl rest
  · rw [hfeed]; exact element?_short (by decide) rfl rest
  · rw [hreturn]; exact element?_short (by decide) rfl rest
  · rw [htab]; exact element?_short (by decide) rfl rest
  · rw [utf8EncodeChar_of_lt (by omega)]
    exact element?_hex (by omega) rest
  · rw [List.singleton_append, element?, if_neg (by simp [hquote, hfeed]), if_neg hback]

theorem interpreted?_escapeChars (cs rest : List Char) :
    interpreted? (cs.flatMap escapeChar ++ '\"' :: rest) =
      some (cs.flatMap String.utf8EncodeChar, rest) := by
  induction cs with
  | nil => exact interpreted?_quote rest
  | cons c cs ih =>
      rw [List.flatMap_cons, List.append_assoc,
        interpreted?_of_element? (element?_escapeChar c _), ih]
      rfl

/-- **A quoted text is read back**, and reading stops behind it. -/
theorem literal?_quote (s : String) (rest : List Char) :
    literal? ((quote s).toList ++ rest) = some (Text.bytes s, rest) := by
  rw [toList_quote, List.cons_append, literal?, if_pos rfl, List.append_assoc, Text.bytes_eq]
  exact interpreted?_escapeChars s.toList rest

/-! ## Escaped quotes -/

/-- A character that stands behind these is escaped: right before it is an odd number of
backslashes. -/
def EscapedBehind (before : List Char) : Prop :=
  (before.reverse.takeWhile (· == '\\')).length % 2 = 1

/-- Whether a backslash is open at the end of a text. -/
def opensEscape (before : List Char) : Bool :=
  before.foldl (fun isOpen c => !isOpen && c == '\\') false

theorem escapedBehind_iff {before : List Char} :
    EscapedBehind before ↔ opensEscape before = true := by
  unfold EscapedBehind opensEscape
  induction before using List.reverseRecOn with
  | nil => simp
  | append_singleton before c ih =>
      rw [List.reverse_concat, List.foldl_concat, List.takeWhile_cons]
      by_cases hc : c = '\\'
      · -- One more backslash closes the one before it, or opens an escape if that was closed.
        simp only [hc, beq_self_eq_true, if_true, List.length_cons, Bool.and_true,
          Bool.not_eq_true', ← Bool.not_eq_true, ← ih]
        omega
      · simp [hc]

/-- An escaped character leaves nothing open. -/
theorem opensEscape_escapeChar (c : Char) (before : List Char) :
    opensEscape (escapeChar c ++ before) = opensEscape before := by
  have hdigit : ∀ n < 16, (Nat.digitChar n == '\\') = false := by decide
  have hclosed : (escapeChar c).foldl (fun isOpen c => !isOpen && c == '\\') false = false := by
    unfold escapeChar
    split_ifs with hquote hback hfeed hreturn htab hcontrol
    · rfl
    · rfl
    · rfl
    · rfl
    · rfl
    · simp [hdigit (c.toNat % 16) (by omega)]
    · simp [hback]
  unfold opensEscape
  rw [List.foldl_append, hclosed]

theorem eq_quote_of_mem {c : Char} (h : '\"' ∈ escapeChar c) : c = '\"' := by
  have hdigit : ∀ n < 16, '\"' ≠ Nat.digitChar n := by decide
  by_contra hquote
  unfold escapeChar at h
  rw [if_neg hquote] at h
  split_ifs at h with hback hfeed hreturn htab hcontrol
  · simp at h
  · simp at h
  · simp at h
  · simp at h
  · simp [hdigit (c.toNat / 16) (by omega), hdigit (c.toNat % 16) (by omega)] at h
  · exact hquote (List.mem_singleton.1 h).symm

/-- A quote in an escaped character stands behind the backslash. -/
theorem opensEscape_of_quote_mem {c : Char} {before after : List Char}
    (h : escapeChar c = before ++ '\"' :: after) : opensEscape before = true := by
  have hc : c = '\"' := eq_quote_of_mem (by simp [h])
  have hchars : ['\\', '\"'] = before ++ '\"' :: after := by
    rw [← h, hc]
    rfl
  rcases before with _ | ⟨d, _ | ⟨e, before⟩⟩
  · simp at hchars
  · obtain ⟨rfl, -⟩ := List.cons.inj hchars
    rfl
  · simp at hchars

/-- Every quote between the outer ones is escaped. -/
theorem opensEscape_of_quote {cs before after : List Char}
    (h : cs.flatMap escapeChar = before ++ '\"' :: after) : opensEscape before = true := by
  induction cs generalizing before with
  | nil => simp at h
  | cons c cs ih =>
      rw [List.flatMap_cons] at h
      rcases List.append_eq_append_iff.1 h with ⟨behind, rfl, hcs⟩ | ⟨mid, hc, hmid⟩
      · -- The quote stands behind the first character.
        rw [opensEscape_escapeChar]
        exact ih hcs
      · cases mid with
        | nil =>
            rw [List.append_nil] at hc
            rw [← hc, ← List.append_nil (escapeChar c), opensEscape_escapeChar]
            exact ih (show _ = [] ++ '\"' :: after from hmid.symm)
        | cons d mid =>
            cases hmid
            exact opensEscape_of_quote_mem hc

theorem opensEscape_escapeChars (cs : List Char) : opensEscape (cs.flatMap escapeChar) = false := by
  induction cs with
  | nil => rfl
  | cons c cs ih => rw [List.flatMap_cons, opensEscape_escapeChar, ih]

/-- Of the quotes behind the opening one, all are escaped but the last. -/
theorem escapedBehind_quote_iff {s : String} {before after : List Char}
    (h : (quote s).toList = '\"' :: (before ++ '\"' :: after)) :
    EscapedBehind before ↔ after ≠ [] := by
  rw [toList_quote, List.cons.injEq] at h
  rw [escapedBehind_iff]
  rcases List.eq_nil_or_concat after with rfl | ⟨after', c, rfl⟩
  · have hbody : s.toList.flatMap escapeChar = before := List.append_cancel_right h.2
    simp [← hbody, opensEscape_escapeChars]
  · have hsplit : s.toList.flatMap escapeChar ++ ['\"'] =
        (before ++ '\"' :: after') ++ [c] := by
      rw [h.2]
      simp
    have hbody := (List.append_inj' hsplit rfl).1
    simp [opensEscape_of_quote hbody]

/-- **Quoted texts survive.** A quoted text is read as the bytes of the text, whatever follows it.
The quote that closes it is the first one behind the opening quote that is not escaped. It holds no
line feed and no carriage return. So in a source without carriage returns, where the quoted text
stands in some line, it stands in the same line after the source was indented any number of times,
to any depth, with the same characters around it and the tabs before them. -/
theorem quoted_text_survives (s : String) :
    (∀ rest, literal? ((quote s).toList ++ rest) = some (Text.bytes s, rest)) ∧
    (∀ before after, (quote s).toList = '\"' :: (before ++ '\"' :: after) →
      (EscapedBehind before ↔ after ≠ [])) ∧
    '\n' ∉ (quote s).toList ∧ '\r' ∉ (quote s).toList ∧
    ∀ (source : String) (line : Nat) (before after : List Char), '\r' ∉ source.toList →
      (Text.linesBetween source.toList)[line]? = some (before ++ (quote s).toList ++ after) →
      ∀ depth times : Nat,
        (Text.linesBetween ((Text.indent depth)^[times] source).toList)[line]? =
          some (List.replicate (times * depth) '\t' ++ before ++ (quote s).toList ++ after) := by
  refine ⟨literal?_quote s, fun before after => escapedBehind_quote_iff, (not_mem_quote s).1,
    (not_mem_quote s).2, ?_⟩
  intro source line before after hreturn hline depth times
  have hne : before ++ (quote s).toList ++ after ≠ [] := by
    rw [toList_quote]
    simp
  have hmoved := Text.getElem?_indent_iterate hreturn hne hline depth times
  simpa only [List.append_assoc] using hmoved

/-- A text that needs every kind of escape, with digits behind a number. -/
def awkwardText : String := "\"\\\n\r\t\x1bf0 é"

/-- A source that returns the text. -/
def awkwardSource : String := "func f() string \x7b\n\treturn " ++ quote awkwardText ++ "\n\x7d"

theorem awkwardText_survives :
    '\r' ∉ awkwardSource.toList ∧
    (Text.linesBetween awkwardSource.toList)[1]? =
      some ("\treturn ".toList ++ (quote awkwardText).toList ++ []) ∧
    (Text.linesBetween ((Text.indent 2)^[3] awkwardSource).toList)[1]? =
      some (List.replicate 6 '\t' ++ "\treturn ".toList ++ (quote awkwardText).toList ++ []) := by
  have hreturn : '\r' ∉ awkwardSource.toList := by decide +kernel
  have hline : (Text.linesBetween awkwardSource.toList)[1]? =
      some ("\treturn ".toList ++ (quote awkwardText).toList ++ []) := by decide +kernel
  obtain ⟨-, -, -, -, hsurvives⟩ := quoted_text_survives awkwardText
  exact ⟨hreturn, hline, hsurvives awkwardSource 1 _ [] hreturn hline 2 3⟩

end DataAccess.Go
