import DataAccess.Go.Declaration
import DataAccess.Proofs.GoTokens

set_option autoImplicit false

/-! # Constants in Go source

A group of constants is laid out line by line, and the layout does not know about literals. So a
text between back quotes that has several lines is indented along with the rest, and a text alone
is not. What a literal stands for after all that is read from its tokens.

The main result is that of a group of constants all names and texts are read back, and each text is
the one that was written exactly if it is `Preserved` (`exists_reads_group`). -/

namespace DataAccess.Text

/-! ## Indentation -/

theorem dropReturn_append (cs ds : List Char) (d : Char) :
    dropReturn (cs ++ d :: ds) = cs ++ dropReturn (d :: ds) := by
  induction cs with
  | nil => rfl
  | cons c cs ih =>
      cases cs with
      | nil => rfl
      | cons e cs =>
          rw [List.cons_append, List.cons_append, dropReturn, ← List.cons_append, ih]
          rfl

theorem dropReturn_cons {c : Char} (hc : c ≠ '\r') (cs : List Char) :
    dropReturn (c :: cs) = c :: dropReturn cs := by
  cases cs with
  | nil => simp [dropReturn, hc]
  | cons d cs => rfl

theorem dropReturn_concat {c : Char} (hc : c ≠ '\r') (cs : List Char) :
    dropReturn (cs ++ [c]) = cs ++ [c] := by
  rw [dropReturn_append, dropReturn_cons hc, dropReturn]

theorem dropReturn_of_not_mem {cs : List Char} (h : '\r' ∉ cs) : dropReturn cs = cs := by
  induction cs with
  | nil => rfl
  | cons c cs ih =>
      rw [dropReturn_cons (fun hc => h (hc ▸ List.mem_cons_self)),
        ih fun hcs => h (List.mem_cons_of_mem _ hcs)]

theorem dropReturn_subset (cs : List Char) : dropReturn cs ⊆ cs := by
  intro c hc
  induction cs using dropReturn.induct with
  | case1 => exact hc
  | case2 => simp [dropReturn] at hc
  | case3 d hd => simpa [dropReturn, hd] using hc
  | case4 d e cs ih =>
      rcases List.mem_cons.1 hc with rfl | hc
      · exact List.mem_cons_self
      · exact List.mem_cons_of_mem _ (ih hc)

/-- A line moved right by a tab; it has lost a carriage return at its end. -/
def indentedLine (line : List Char) : List Char :=
  if dropReturn line = [] then [] else '\t' :: dropReturn line

/-- Every line of a text moved right by a tab. -/
def indented (cs : List Char) : List Char :=
  List.intercalate ['\n'] ((splitBy (· == '\n') cs).map indentedLine)

theorem intercalate_append {α : Type} (separator : List α) {ls ms : List (List α)} (hls : ls ≠ [])
    (hms : ms ≠ []) :
    List.intercalate separator (ls ++ ms) =
      List.intercalate separator ls ++ separator ++ List.intercalate separator ms := by
  induction ls with
  | nil => exact absurd rfl hls
  | cons l ls ih =>
      cases ls with
      | nil => rw [List.singleton_append, List.intercalate_cons_of_ne_nil hms]; simp
      | cons k ls =>
          rw [List.cons_append, List.intercalate_cons_of_ne_nil (by simp), ih (by simp),
            List.intercalate_cons_cons]
          simp only [List.append_assoc]

/-- Both sides of a line feed are indented on their own. -/
theorem indented_newline (cs ds : List Char) :
    indented (cs ++ '\n' :: ds) = indented cs ++ '\n' :: indented ds := by
  have hsplit : splitBy (· == '\n') (cs ++ '\n' :: ds) = _ := splitBy_append (by decide) cs ds
  have hne (es : List Char) : (splitBy (· == '\n') es).map indentedLine ≠ [] := by
    simpa using splitBy_ne_nil _ es
  rw [indented, hsplit, List.map_append, intercalate_append _ (hne cs) (hne ds)]
  simp [indented]

theorem indented_feed (cs ds : List Char) :
    indented (cs ++ ['\n'] ++ ds) = indented cs ++ ['\n'] ++ indented ds := by
  simpa using indented_newline cs ds

theorem indented_feeds (cs ds : List Char) :
    indented (cs ++ ['\n', '\n'] ++ ds) = indented cs ++ ['\n', '\n'] ++ indented ds := by
  have hempty : indented ('\n' :: ds) = '\n' :: indented ds := indented_newline [] ds
  simpa [hempty] using indented_newline cs ('\n' :: ds)

theorem indented_line {cs : List Char} (h : '\n' ∉ cs) : indented cs = indentedLine cs := by
  have hnone : ∀ c ∈ cs, (c == '\n') = false := by
    intro c hc
    rw [beq_eq_false_iff_ne]
    rintro rfl
    exact h hc
  rw [indented, splitBy_of_none hnone, List.map_singleton, List.intercalate_singleton]

theorem indentedLine_concat {c : Char} (hc : c ≠ '\r') (cs : List Char) :
    indentedLine (cs ++ [c]) = '\t' :: (cs ++ [c]) := by
  rw [indentedLine, dropReturn_concat hc, if_neg (by simp)]

/-- Texts between separators that indentation leaves alone. -/
theorem indented_intercalate {separator : List Char}
    (h : ∀ cs ds, indented (cs ++ separator ++ ds) = indented cs ++ separator ++ indented ds)
    (ls : List (List Char)) :
    indented (List.intercalate separator ls) = List.intercalate separator (ls.map indented) := by
  induction ls with
  | nil => rfl
  | cons l ls ih =>
      cases ls with
      | nil => simp
      | cons k ls =>
          rw [List.intercalate_cons_cons, h, ih]
          simp [List.intercalate_cons_cons]

theorem mem_indentedLine {c : Char} {line : List Char} (h : c ∈ indentedLine line) :
    c ∈ line ∨ c = '\t' := by
  unfold indentedLine at h
  split_ifs at h
  · cases h
  · rcases List.mem_cons.1 h with rfl | h
    · exact .inr rfl
    · exact .inl (dropReturn_subset line h)

theorem length_indentedLine {line : List Char} (h : '\r' ∉ line) :
    line.length ≤ (indentedLine line).length := by
  rw [indentedLine, dropReturn_of_not_mem h]
  split_ifs with hempty <;> simp [hempty]

/-- A text that ends within a line. -/
def EndsInLine (cs : List Char) : Prop := ∃ c, cs.getLast? = some c ∧ c ≠ '\n' ∧ c ≠ '\r'

theorem endsInLine_concat {c : Char} (hfeed : c ≠ '\n') (hreturn : c ≠ '\r') (cs : List Char) :
    EndsInLine (cs ++ [c]) :=
  ⟨c, List.getLast?_concat, hfeed, hreturn⟩

theorem EndsInLine.append {ds : List Char} (h : EndsInLine ds) (cs : List Char) :
    EndsInLine (cs ++ ds) := by
  obtain ⟨c, hlast, hc⟩ := h
  exact ⟨c, by rw [List.getLast?_append, hlast, Option.some_or], hc⟩

theorem EndsInLine.intercalate {α : Type} {separator : List Char} {source : α → List Char}
    {as : List α} (hne : as ≠ []) (h : ∀ a ∈ as, EndsInLine (source a)) :
    EndsInLine (List.intercalate separator (as.map source)) := by
  induction as with
  | nil => exact absurd rfl hne
  | cons a as ih =>
      obtain ⟨ha, has⟩ := List.forall_mem_cons.1 h
      cases as with
      | nil => simpa using ha
      | cons b as =>
          rw [List.map_cons, List.map_cons, List.intercalate_cons_cons]
          exact (ih (by simp) has).append _

/-- The last piece of a text that ends with something else than a separator. -/
theorem splitBy_concat {p : Char → Bool} {c : Char} (hc : p c = false) (cs : List Char) :
    ∃ pieces last, splitBy p (cs ++ [c]) = pieces ++ [last ++ [c]] := by
  induction cs with
  | nil => exact ⟨[], [], by simp [splitBy, hc]⟩
  | cons d cs ih =>
      obtain ⟨pieces, last, hsplit⟩ := ih
      rw [List.cons_append, splitBy, hsplit]
      split_ifs with hd
      · exact ⟨[] :: pieces, last, rfl⟩
      · cases pieces with
        | nil => exact ⟨[], d :: last, rfl⟩
        | cons piece pieces => exact ⟨(d :: piece) :: pieces, last, rfl⟩

theorem closeLines_concat (pieces : List (List Char)) {last : List Char} (h : last ≠ []) :
    closeLines (pieces ++ [last]) = pieces.map dropReturn ++ [last] := by
  induction pieces with
  | nil => simp [closeLines, h]
  | cons piece pieces ih =>
      cases pieces with
      | nil => simp [closeLines, h]
      | cons next pieces =>
          rw [List.cons_append, List.cons_append, closeLines, ← List.cons_append, ih]
          rfl

theorem toList_indent {text : String} (h : EndsInLine text.toList) :
    (indent 1 text).toList = indented text.toList := by
  obtain ⟨c, hlast?, hfeed, hreturn⟩ := h
  obtain ⟨cs, htext⟩ := List.getLast?_eq_some_iff.1 hlast?
  obtain ⟨pieces, last, hsplit⟩ := splitBy_concat (p := (· == '\n')) (by simpa using hfeed) cs
  have hline (line : List Char) : (indentLine 1 (String.ofList (dropReturn line))).toList =
      indentedLine line := by
    unfold indentLine indentedLine
    by_cases h : dropReturn line = [] <;> simp [h]
  -- Nothing is taken from the last line, since it does not end in a carriage return.
  have hlast := hline (last ++ [c])
  rw [dropReturn_concat hreturn] at hlast
  rw [indent, lines, lineChars, indented, htext, hsplit, closeLines_concat _ (by simp),
    String.toList_intercalate]
  simp only [List.map_append, List.map_map, List.map_singleton, Function.comp_def, hline, hlast]
  rfl

end DataAccess.Text

namespace DataAccess.Go

open DataAccess.Text

/-! ## Raw literals under indentation -/

theorem filter_return_eq_self_iff {cs : List Char} :
    cs.filter (· ≠ '\r') = cs ↔ '\r' ∉ cs := by
  rw [List.filter_eq_self]
  constructor
  · intro h hmem
    simpa using h _ hmem
  · intro h c hc
    have hne : c ≠ '\r' := by
      rintro rfl
      exact h hc
    simpa using hne

/-- What indentation makes of a text that does not stay in one line: there are new tabs, and nothing
is lost but carriage returns. -/
structure Grown (text body : List Char) : Prop where
  chars : ∀ c ∈ body, c ∈ text ∨ c = '\t' ∨ c = '\n'
  longer : '\r' ∉ text → text.length < body.length

namespace Grown

variable {text body : List Char}

theorem not_mem (h : Grown text body) {c : Char} (hc : c ∉ text) (htab : c ≠ '\t')
    (hfeed : c ≠ '\n') : c ∉ body := by
  intro hmem
  rcases h.chars c hmem with h | h | h
  · exact hc h
  · exact htab h
  · exact hfeed h

/-- The text does not come back, with carriage returns or without. -/
theorem filter_ne (h : Grown text body) : body.filter (· ≠ '\r') ≠ text := by
  intro hsame
  have hnone : '\r' ∉ text := by
    rw [← hsame]
    simp
  -- Without carriage returns nothing is dropped, so the text must have become longer.
  have hkept := filter_return_eq_self_iff.2 (h.not_mem hnone (by decide) (by decide))
  have hlonger := h.longer hnone
  rw [← hsame, hkept] at hlonger
  omega

/-- One more line in front, which has not become shorter. -/
theorem line (h : Grown text body) {line start : List Char}
    (hchars : ∀ c ∈ start, c ∈ line ∨ c = '\t')
    (hlength : '\r' ∉ line → line.length ≤ start.length) :
    Grown (line ++ '\n' :: text) (start ++ '\n' :: body) := by
  constructor
  · intro c hc
    rcases List.mem_append.1 hc with hc | hc
    · rcases hchars c hc with hc | hc <;> simp [hc]
    · rcases List.mem_cons.1 hc with rfl | hc
      · simp
      · rcases h.chars c hc with hc | hc | hc <;> simp [hc]
  · intro hnone
    have hstart := hlength fun hmem => hnone (List.mem_append_left _ hmem)
    have hrest := h.longer fun hmem => hnone (by simp [hmem])
    simp only [List.length_append, List.length_cons]
    omega

end Grown

/-- From the beginning of a line to the end of a raw literal, every line gets a tab. -/
theorem exists_indented_tail (text : List Char) :
    ∃ body, indented (text ++ ['\x60']) = body ++ ['\x60'] ∧ Grown text body := by
  -- By the length of the text: behind its first line the same holds of the rest.
  induction hlength : text.length using Nat.strong_induction_on generalizing text with
  | _ n ih =>
    by_cases hfeed : '\n' ∈ text
    · obtain ⟨line, rest, rfl, hline⟩ := List.eq_append_cons_of_mem hfeed
      have hshorter : rest.length < n := by simp at hlength; omega
      obtain ⟨body, hbody, hgrown⟩ := ih _ hshorter rest rfl
      refine ⟨indentedLine line ++ '\n' :: body, ?_,
        hgrown.line (fun _ => mem_indentedLine) length_indentedLine⟩
      rw [List.append_assoc, List.cons_append, indented_newline, hbody, indented_line hline]
      simp
    · refine ⟨'\t' :: text, ?_, ?_, ?_⟩
      · rw [indented_line (by simpa using hfeed), indentedLine_concat (by decide), List.cons_append]
      · intro c hc
        rcases List.mem_cons.1 hc with rfl | hc <;> simp_all
      · simp

/-- A raw literal behind the beginning of a line. Its text is the same if it has but one line, and
there is no carriage return to lose. -/
theorem exists_indented_raw (start : List Char) {text : List Char} (hstart : '\n' ∉ start)
    (hquote : '\x60' ∉ text) :
    ∃ body, indented (start ++ '\x60' :: (text ++ ['\x60'])) =
        '\t' :: (start ++ '\x60' :: (body ++ ['\x60'])) ∧ '\x60' ∉ body ∧
      (body.filter (· ≠ '\r') = text ↔ '\r' ∉ text ∧ '\n' ∉ text) := by
  by_cases hfeed : '\n' ∈ text
  · obtain ⟨line, rest, rfl, hline⟩ := List.eq_append_cons_of_mem hfeed
    obtain ⟨body, hbody, htail⟩ := exists_indented_tail rest
    have hgrown : Grown (line ++ '\n' :: rest) (dropReturn line ++ '\n' :: body) :=
      htail.line (fun c hc => .inl (dropReturn_subset line hc))
        fun hnone => (congrArg List.length (dropReturn_of_not_mem hnone)).ge
    -- Only the first line keeps its place, since the literal starts in it.
    have hsource : start ++ '\x60' :: (line ++ '\n' :: rest ++ ['\x60']) =
        start ++ '\x60' :: line ++ '\n' :: (rest ++ ['\x60']) := by simp
    have hfirst : indentedLine (start ++ '\x60' :: line) =
        '\t' :: (start ++ '\x60' :: dropReturn line) := by
      rw [indentedLine, dropReturn_append, dropReturn_cons (by decide), if_neg (by simp)]
    refine ⟨dropReturn line ++ '\n' :: body, ?_, hgrown.not_mem hquote (by decide) (by decide),
      fun hsame => absurd hsame hgrown.filter_ne, fun h => absurd hfeed h.2⟩
    rw [hsource, indented_newline, hbody, indented_line (by simp [hstart, hline]), hfirst]
    simp
  · have hline : '\n' ∉ start ++ '\x60' :: (text ++ ['\x60']) := by simp [hstart, hfeed]
    have hsource : start ++ '\x60' :: (text ++ ['\x60']) =
        (start ++ '\x60' :: text) ++ ['\x60'] := by simp
    refine ⟨text, ?_, hquote, ?_⟩
    · rw [indented_line hline, hsource, indentedLine_concat (by decide)]
    · rw [filter_return_eq_self_iff]
      exact ⟨fun h => ⟨h, hfeed⟩, fun h => h.1⟩

/-! ## Constants -/

/-- A constant that is a text, given by its name and the text. -/
def textConst (c : String × String) : Value := { name := c.1, value := .raw c.2 }

/-- Whether the text of a constant comes back when its source is read. Between back quotes it loses
carriage returns, and if it stands in a group of constants, line feeds are followed by a tab. -/
def Preserved (grouped : Prop) (text : String) : Prop :=
  '\x60' ∈ text.toList ∨ ('\r' ∉ text.toList ∧ (grouped → '\n' ∉ text.toList))

instance {grouped : Prop} [Decidable grouped] (text : String) :
    Decidable (Preserved grouped text) := inferInstanceAs (Decidable (_ ∨ _))

/-- The tokens of a constant behind the keyword. -/
def constTokens (name value : String) : List Token := [.word name, .sign '=', .text value]

theorem toList_binding (c : String × String) :
    (textConst c).binding.toList =
      c.1.toList ++ ([' ', '=', ' '] ++ (Literal.raw c.2).render.toList) := by
  have hbinding : (textConst c).binding = c.1 ++ "" ++ " = " ++ (Literal.raw c.2).render := rfl
  rw [hbinding]
  simp

theorem reads_binding {name : String} (hname : isIdentifier name = true) {literal : List Char}
    {value : String} (hliteral : Reads literal [.text value]) :
    Reads (name.toList ++ ([' ', '=', ' '] ++ literal)) (constTokens name value) := by
  have hsign : Reads [' ', '=', ' '] [.sign '='] := by decide +kernel
  exact Reads.name hname (by decide) (hsign.append hliteral)

theorem render_raw_of_mem {text : String} (h : '\x60' ∈ text.toList) :
    (Literal.raw text).render = quote text := by
  rw [Literal.render, if_pos (by simpa using h)]

theorem toList_raw_of_not_mem {text : String} (h : '\x60' ∉ text.toList) :
    (Literal.raw text).render.toList = '\x60' :: (text.toList ++ ['\x60']) := by
  rw [Literal.render, if_neg (by simpa using h)]
  simp

/-- A constant alone. -/
theorem exists_reads_alone {c : String × String} (hname : isIdentifier c.1 = true) :
    ∃ value, Reads (textConst c).binding.toList (constTokens c.1 value) ∧
      (value = c.2 ↔ Preserved False c.2) := by
  rw [toList_binding]
  by_cases hquote : '\x60' ∈ c.2.toList
  · rw [render_raw_of_mem hquote]
    exact ⟨c.2, reads_binding hname (reads_quote c.2), by simp [Preserved, hquote]⟩
  · rw [toList_raw_of_not_mem hquote]
    refine ⟨_, reads_binding hname (reads_raw hquote), ?_⟩
    rw [← String.toList_inj, String.toList_ofList, filter_return_eq_self_iff]
    simp [Preserved, hquote]

theorem not_mem_escapeChar {c d : Char} (h : c ∈ escapeChar d) : c ≠ '\n' ∧ c ≠ '\r' := by
  have hdigit : ∀ n < 16, Nat.digitChar n ≠ '\n' ∧ Nat.digitChar n ≠ '\r' := by decide
  unfold escapeChar at h
  split_ifs at h with hquote hback hfeed hreturn htab hcontrol <;>
    simp only [List.mem_cons, List.not_mem_nil, or_false] at h
  · rcases h with rfl | rfl <;> decide
  · rcases h with rfl | rfl <;> decide
  · rcases h with rfl | rfl <;> decide
  · rcases h with rfl | rfl <;> decide
  · rcases h with rfl | rfl <;> decide
  · rcases h with rfl | rfl | rfl | rfl
    · decide
    · decide
    · exact hdigit _ (by omega)
    · exact hdigit _ (by omega)
  · rw [h]
    exact ⟨hfeed, hreturn⟩

/-- An interpreted literal stands in one line. -/
theorem not_mem_quote (s : String) : '\n' ∉ (quote s).toList ∧ '\r' ∉ (quote s).toList := by
  have hmem (c : Char) (hne : c ≠ '\"') (h : c ∈ (quote s).toList) : c ≠ '\n' ∧ c ≠ '\r' := by
    obtain ⟨d, -, hd⟩ : ∃ d ∈ s.toList, c ∈ escapeChar d := by simpa [quote, hne] using h
    exact not_mem_escapeChar hd
  exact ⟨fun h => (hmem _ (by decide) h).1 rfl, fun h => (hmem _ (by decide) h).2 rfl⟩

theorem endsInLine_quote (s : String) : EndsInLine (quote s).toList := by
  rw [toList_quote]
  exact endsInLine_concat (by decide) (by decide) ('\"' :: _)

theorem endsInLine_binding (c : String × String) : EndsInLine (textConst c).binding.toList := by
  rw [toList_binding]
  refine EndsInLine.append (EndsInLine.append ?_ _) _
  by_cases hquote : '\x60' ∈ c.2.toList
  · rw [render_raw_of_mem hquote]
    exact endsInLine_quote c.2
  · rw [toList_raw_of_not_mem hquote]
    exact endsInLine_concat (by decide) (by decide) ('\x60' :: _)

theorem newline_not_mem_of_isIdentifier {s : String} (h : isIdentifier s = true) :
    '\n' ∉ s.toList := by
  intro hmem
  have hparts := all_part_of_identifierShape (identifierShape_of_isIdentifier h)
  have hpart := List.all_eq_true.1 hparts _ hmem
  rw [isIdentifierPart_ascii (by decide)] at hpart
  exact absurd hpart (by decide)

/-- A constant that is indented. -/
theorem exists_reads_indented {c : String × String} (hname : isIdentifier c.1 = true) :
    ∃ value, Reads (indented (textConst c).binding.toList) (constTokens c.1 value) ∧
      (value = c.2 ↔ Preserved True c.2) := by
  have htab : Reads ['\t'] [] := by decide +kernel
  have hfeed := newline_not_mem_of_isIdentifier hname
  rw [toList_binding]
  by_cases hquote : '\x60' ∈ c.2.toList
  · rw [render_raw_of_mem hquote]
    have hline : '\n' ∉ c.1.toList ++ ([' ', '=', ' '] ++ (quote c.2).toList) := by
      simp [hfeed, (not_mem_quote c.2).1]
    have hchars : c.1.toList ++ ([' ', '=', ' '] ++ (quote c.2).toList) =
        (c.1.toList ++ ([' ', '=', ' '] ++ '\"' :: c.2.toList.flatMap escapeChar)) ++ ['\"'] := by
      simp [quote]
    rw [indented_line hline, hchars, indentedLine_concat (by decide), ← hchars]
    exact ⟨c.2, htab.append (reads_binding hname (reads_quote c.2)), by simp [Preserved, hquote]⟩
  · rw [toList_raw_of_not_mem hquote, ← List.append_assoc]
    obtain ⟨body, hbody, hend, hsame⟩ :=
      exists_indented_raw (c.1.toList ++ [' ', '=', ' ']) (by simp [hfeed]) hquote
    rw [hbody, List.append_assoc]
    refine ⟨_, htab.append (reads_binding hname (reads_raw hend)), ?_⟩
    rw [← String.toList_inj, String.toList_ofList, hsame]
    simp [Preserved, hquote]

/-! ## Groups -/

/-- The constants with their texts, as far as they can be read. The flag says that a group is
open. -/
def constants : Bool → List Token → List (String × String)
  | true, .word name :: .sign '=' :: .text value :: rest => (name, value) :: constants true rest
  | true, .sign ')' :: rest => constants false rest
  | true, _ => []
  | false, .word "const" :: .sign '(' :: rest => constants true rest
  | false, .word "const" :: .word name :: .sign '=' :: .text value :: rest =>
    (name, value) :: constants false rest
  | false, _ :: rest => constants false rest
  | false, [] => []

theorem constants_group (cs : List (String × String)) (rest : List Token) :
    constants true (cs.flatMap (fun c => constTokens c.1 c.2) ++ .sign ')' :: rest) =
      cs ++ constants false rest := by
  have hstep (c : String × String) (ts : List Token) :
      constants true (constTokens c.1 c.2 ++ ts) = c :: constants true ts := rfl
  induction cs with
  | nil => rfl
  | cons c cs ih => rw [List.flatMap_cons, List.append_assoc, hstep, ih, List.cons_append]

theorem Value.group_of_one_lt {keyword : String} {vs : List Value} (h : 1 < vs.length) :
    Value.group keyword vs = keyword ++ " (\n" ++
      indent 1 (String.intercalate "\n" (vs.map fun v => docText v.doc ++ v.binding)) ++ "\n)" := by
  match vs, h with
  | _ :: _ :: _, _ => rfl

/-- What the layout of a group makes of its constants: they stand between parentheses, each
indented. -/
theorem toList_group {cs : List (String × String)} (h : 1 < cs.length) :
    (Value.group "const" (cs.map textConst)).toList =
      "const (\n".toList ++
        List.intercalate ['\n'] (cs.map fun c => indented (textConst c).binding.toList) ++
        "\n)".toList := by
  have htexts : (String.intercalate "\n"
      ((cs.map textConst).map fun v => docText v.doc ++ v.binding)).toList =
      List.intercalate ['\n'] (cs.map fun c => (textConst c).binding.toList) := by
    have hdoc (c : String × String) : docText (textConst c).doc = "" := rfl
    rw [String.toList_intercalate]
    simp [Function.comp_def, hdoc]
  have hends : EndsInLine (List.intercalate ['\n']
      (cs.map fun c => (textConst c).binding.toList)) :=
    EndsInLine.intercalate (List.ne_nil_of_length_pos (by omega)) fun c _ => endsInLine_binding c
  rw [Value.group_of_one_lt (by simpa using h), String.toList_append, String.toList_append,
    toList_indent (htexts ▸ hends), htexts, indented_intercalate indented_feed, List.map_map]
  simp [Function.comp_def]

/-- Of a group of constants all names and texts are read. -/
theorem exists_reads_group {cs : List (String × String)} (hne : cs ≠ [])
    (hnames : ∀ c ∈ cs, isIdentifier c.1 = true) :
    ∃ (value : String × String → String) (ts : List Token),
      Reads (Value.group "const" (cs.map textConst)).toList ts ∧
      (∀ rest, constants false (ts ++ rest) =
        cs.map (fun c => (c.1, value c)) ++ constants false rest) ∧
      ∀ c ∈ cs, value c = c.2 ↔ Preserved (1 < cs.length) c.2 := by
  by_cases hlength : 1 < cs.length
  · -- Several constants stand between parentheses, each indented.
    have hvalues : ∀ c ∈ cs, ∃ value,
        Reads (indented (textConst c).binding.toList) (constTokens c.1 value) ∧
          (value = c.2 ↔ Preserved True c.2) :=
      fun c hc => exists_reads_indented (hnames c hc)
    choose! value hvalue using hvalues
    have hopen : Reads "const (\n".toList [.word "const", .sign '('] := by decide +kernel
    have hclose : Reads "\n)".toList [.sign ')'] := by decide +kernel
    have hfeed : Reads ['\n'] [] := by decide +kernel
    have hreads := (hopen.append (hfeed.intercalate fun c hc => (hvalue c hc).1)).append hclose
    rw [← toList_group hlength] at hreads
    refine ⟨value, _, hreads, fun rest => ?_, fun c hc => ?_⟩
    · have hgroup := constants_group (cs.map fun c => (c.1, value c)) rest
      rw [List.flatMap_map] at hgroup
      rw [← hgroup]
      simp [constants]
    · rw [(hvalue c hc).2]
      simp [hlength]
  · -- A constant alone stays in its place.
    obtain ⟨c, rfl⟩ : ∃ c, cs = [c] := by
      have hpos := List.length_pos_of_ne_nil hne
      exact List.length_eq_one_iff.1 (by omega)
    obtain ⟨value, hreads, hsame⟩ := exists_reads_alone (hnames c List.mem_cons_self)
    have hword : Reads "const ".toList [.word "const"] := by decide +kernel
    have htext : (Value.group "const" [textConst c]).toList =
        "const ".toList ++ (textConst c).binding.toList := by
      have hgroup : Value.group "const" [textConst c] =
          "" ++ "const" ++ " " ++ (textConst c).binding := rfl
      rw [hgroup]
      simp
    refine ⟨fun _ => value, _, htext ▸ hword.append hreads, fun rest => rfl, ?_⟩
    intro d hd
    rw [List.mem_singleton.1 hd, hsame]
    simp

end DataAccess.Go
