import DataAccess.Go.Literal
import DataAccess.Proofs.ExportedNames
import DataAccess.Proofs.Scanners

set_option autoImplicit false

/-! # The tokens of Go source

Go source is read by a scanner (`Reading.step`) into words, texts and signs (`tokens`). A string
literal becomes the text it stands for: the escapes of an interpreted literal are undone, and a raw
literal is taken as it is, except that its carriage returns are dropped.

A piece of source that leaves nothing open has tokens of its own, whatever follows (`Reads`). Every
interpreted literal is such a piece, and its text is the one that was quoted (`reads_quote`); a raw
literal is one if no back quote stands in it, and its text has lost the carriage returns
(`reads_raw`). -/

namespace DataAccess.Go

open Text (prepend scan)

inductive Token where
  /-- Letters, digits and underscores: a name, a keyword or a number. -/
  | word (w : String)
  /-- A string literal, as the text it stands for. -/
  | text (s : String)
  | rune
  | sign (c : Char)
  /-- A literal that is not one. -/
  | illegal
  deriving DecidableEq

/-- The characters of words. They are those that identifiers of the compiler have: the alphabetic
and the numeric ones. Go itself knows fewer, the letters (category L) and the decimal digits
(category Nd). Among those of ASCII they are told apart without a table. -/
def isWordPart (c : Char) : Bool :=
  if c.toNat < 0x80 then c.isAlphanum || c == '_' else isIdentifierPart c

theorem isWordPart_eq : isWordPart = isIdentifierPart := by
  funext c
  unfold isWordPart
  split_ifs with h
  · rw [isIdentifierPart_ascii h]
  · rfl

/-- The character that a backslash and a letter stand for. -/
def escaped? (c : Char) : Option Char :=
  [('\"', '\"'), ('\\', '\\'), ('n', '\n'), ('r', '\r'), ('t', '\t'), ('a', '\x07'), ('b', '\x08'),
   ('f', '\x0c'), ('v', '\x0b')].lookup c

/-- The value of a hexadecimal digit. -/
def hexValue? (c : Char) : Option Nat := "0123456789abcdef".toList.idxOf? c.toLower

/-- What is being read; its characters so far stand last first. -/
inductive Reading where
  | nothing
  | word (read : List Char)
  /-- Behind a slash that may start a comment. -/
  | slash
  | lineComment
  /-- In a comment between `/*` and `*/`, possibly behind its last star. -/
  | comment (star : Bool)
  | rune (escaping : Bool)
  | text (read : List Char)
  /-- Behind a backslash in an interpreted literal. -/
  | escape (read : List Char)
  /-- Behind `\x` in an interpreted literal, possibly after the first digit. -/
  | hex (read : List Char) (high : Option Nat)
  | raw (read : List Char)
  deriving DecidableEq

namespace Reading

/-- What has been read if the source ends here. -/
def close : Reading → List Token
  | nothing | lineComment => []
  | word cs => [.word (String.ofList cs.reverse)]
  | slash => [.sign '/']
  | _ => [.illegal]

/-- Starts with a character. -/
def start (c : Char) : List Token × Reading :=
  if isWordPart c then ([], .word [c])
  else if c = '\"' then ([], .text [])
  else if c = '\x60' then ([], .raw [])
  else if c = '\x27' then ([], .rune false)
  else if c = '/' then ([], .slash)
  else if c = ' ' ∨ c = '\t' ∨ c = '\n' ∨ c = '\r' then ([], .nothing)
  else ([.sign c], .nothing)

/-- Ends what is being read and starts with the next character. -/
def turn (r : Reading) (c : Char) : List Token × Reading := prepend r.close (start c)

/-- Reads one character. Of the escapes that give a number, only `\x` below 128 is known. -/
def step (r : Reading) (c : Char) : List Token × Reading :=
  match r with
  | nothing => r.turn c
  | word cs => if isWordPart c then ([], .word (c :: cs)) else r.turn c
  | slash =>
    if c = '/' then ([], .lineComment) else if c = '*' then ([], .comment false) else r.turn c
  | lineComment => ([], if c = '\n' then .nothing else .lineComment)
  | comment star => ([], if star && c == '/' then .nothing else .comment (c == '*'))
  | rune escaping =>
    if escaping then ([], .rune false)
    else if c = '\x27' then ([.rune], .nothing)
    else ([], .rune (c == '\\'))
  | text cs =>
    if c = '\"' then ([.text (String.ofList cs.reverse)], .nothing)
    else if c = '\\' then ([], .escape cs)
    else if c = '\n' then ([.illegal], .nothing)
    else ([], .text (c :: cs))
  | escape cs =>
    if c = 'x' then ([], .hex cs none)
    else (escaped? c).elim ([.illegal], .nothing) fun d => ([], .text (d :: cs))
  | hex cs high =>
    match high, hexValue? c with
    | none, some n => ([], .hex cs (some n))
    | some m, some n =>
      if 16 * m + n < 0x80 then ([], .text (Char.ofNat (16 * m + n) :: cs))
      else ([.illegal], .nothing)
    | _, none => ([.illegal], .nothing)
  | raw cs =>
    if c = '\x60' then ([.text (String.ofList cs.reverse)], .nothing)
    else ([], .raw (if c = '\r' then cs else c :: cs))

theorem scan_word {cs : List Char} (read : List Char) (h : cs.all isWordPart = true) :
    scan step (.word read) cs = ([], .word (cs.reverse ++ read)) :=
  Text.scan_while Reading.word read fun c hc read => by simp [step, List.all_eq_true.1 h c hc]

theorem scan_raw {cs : List Char} (h : '\x60' ∉ cs) :
    scan step (.raw []) cs = ([], .raw (cs.filter (· ≠ '\r')).reverse) := by
  have hkept : scan step (.raw []) cs = ([], .raw ((cs.reverse ++ []).filter (· ≠ '\r'))) := by
    refine Text.scan_while (fun read => raw (read.filter (· ≠ '\r'))) [] fun c hc read => ?_
    have hne : c ≠ '\x60' := fun heq => h (heq ▸ hc)
    by_cases hr : c = '\r' <;> simp [step, hne, hr]
  simpa using hkept

end Reading

/-! ## Pieces of source -/

/-- The tokens of a source. -/
def tokens (cs : List Char) : List Token :=
  (scan Reading.step .nothing cs).1 ++ (scan Reading.step .nothing cs).2.close

/-- A piece of source that has these tokens, whatever follows it. -/
abbrev Reads (cs : List Char) (ts : List Token) : Prop :=
  scan Reading.step .nothing cs = (ts, .nothing)

section Reads

variable {cs ds : List Char} {ts us : List Token}

theorem reads_nil : Reads [] [] := rfl

theorem Reads.append (hcs : Reads cs ts) (hds : Reads ds us) : Reads (cs ++ ds) (ts ++ us) := by
  rw [Reads, Text.scan_append_of_eq hcs, hds, Text.prepend_mk]

theorem Reads.tokens_append (hcs : Reads cs ts) (ds : List Char) :
    tokens (cs ++ ds) = ts ++ tokens ds := by
  rw [tokens, Text.scan_append_of_eq hcs, Text.fst_prepend, Text.snd_prepend, tokens,
    List.append_assoc]

/-- A word and what follows it. -/
theorem Reads.word {w : List Char} {d : Char} (hne : w ≠ []) (hw : w.all isWordPart = true)
    (hd : isWordPart d = false) (hds : Reads (d :: ds) us) :
    Reads (w ++ d :: ds) (.word (String.ofList w) :: us) := by
  obtain ⟨c, cs, rfl⟩ := List.exists_cons_of_ne_nil hne
  rw [List.all_cons, Bool.and_eq_true] at hw
  have hopen : scan Reading.step .nothing (c :: cs) = ([], .word (c :: cs).reverse) := by
    simp [Reading.step, Reading.turn, Reading.start, Reading.close, hw.1,
      Reading.scan_word [c] hw.2]
  -- The character behind the word is read as if nothing stood before it.
  have hturn : Reading.step (.word (c :: cs).reverse) d =
      prepend [.word (String.ofList (c :: cs))] (Reading.step .nothing d) := by
    simp [Reading.step, Reading.turn, Reading.close, hd]
  rw [Reads, Text.scan_append_of_eq hopen, Text.scan_of_step hturn, hds]
  rfl

theorem Reads.name {s : String} {d : Char} (hs : isIdentifier s = true)
    (hd : isWordPart d = false) (hds : Reads (d :: ds) us) :
    Reads (s.toList ++ d :: ds) (.word s :: us) := by
  have hshape := identifierShape_of_isIdentifier hs
  have hne : s.toList ≠ [] := by
    intro hempty
    rw [hempty] at hshape
    cases hshape
  have hparts : s.toList.all isWordPart = true := by
    rw [isWordPart_eq]
    exact all_part_of_identifierShape hshape
  have hword := Reads.word hne hparts hd hds
  rwa [String.ofList_toList] at hword

/-- Pieces of source between separators without tokens. -/
theorem Reads.intercalate {α : Type} {separator : List Char} (hsep : Reads separator [])
    {items : List α} {source : α → List Char} {reading : α → List Token}
    (h : ∀ a ∈ items, Reads (source a) (reading a)) :
    Reads (List.intercalate separator (items.map source)) (items.flatMap reading) := by
  induction items with
  | nil => exact reads_nil
  | cons a items ih =>
      obtain ⟨ha, hitems⟩ := List.forall_mem_cons.1 h
      cases items with
      | nil => simpa using ha
      | cons b items =>
          rw [List.map_cons, List.map_cons, List.intercalate_cons_cons, ← List.map_cons,
            List.flatMap_cons]
          simpa using (ha.append hsep).append (ih hitems)

end Reads

/-! ## Literals -/

theorem hexValue?_digitChar : ∀ n < 16, hexValue? (Nat.digitChar n) = some n := by decide

/-- An escaped character is read back. -/
theorem scan_escapeChar (read : List Char) (c : Char) :
    scan Reading.step (.text read) (escapeChar c) = ([], .text (c :: read)) := by
  unfold escapeChar
  split_ifs with hquote hback hfeed hreturn htab hcontrol
  · rw [hquote]; rfl
  · rw [hback]; rfl
  · rw [hfeed]; rfl
  · rw [hreturn]; rfl
  · rw [htab]; rfl
  · -- A control is written by its number, in two hexadecimal digits.
    have hdigits : 16 * (c.toNat / 16) + c.toNat % 16 = c.toNat := Nat.div_add_mod _ _
    have hhigh := hexValue?_digitChar (c.toNat / 16) (by omega)
    have hlow := hexValue?_digitChar (c.toNat % 16) (by omega)
    have hsmall : c.toNat < 0x80 := by omega
    simp [Reading.step, hhigh, hlow, hdigits, hsmall, Char.ofNat_toNat]
  · simp [Reading.step, hquote, hback, hfeed]

theorem scan_escapeChars (read cs : List Char) :
    scan Reading.step (.text read) (cs.flatMap escapeChar) = ([], .text (cs.reverse ++ read)) :=
  Text.scan_flatMap Reading.text _ read fun c _ read => scan_escapeChar read c

theorem toList_quote (s : String) :
    (quote s).toList = '\"' :: (s.toList.flatMap escapeChar ++ ['\"']) := by
  simp [quote]

/-- A quoted text is read back, whatever its characters are. -/
theorem reads_quote (s : String) : Reads (quote s).toList [.text s] := by
  have hopen : Reading.step .nothing '\"' = ([], .text []) := by decide +kernel
  rw [Reads, toList_quote, Text.scan_cons, hopen, Text.scan_append_of_eq (scan_escapeChars [] _)]
  simp [Reading.step]

/-- A text between back quotes loses its carriage returns. -/
theorem reads_raw {cs : List Char} (h : '\x60' ∉ cs) :
    Reads ('\x60' :: (cs ++ ['\x60'])) [.text (String.ofList (cs.filter (· ≠ '\r')))] := by
  have hopen : Reading.step .nothing '\x60' = ([], .raw []) := by decide +kernel
  rw [Reads, Text.scan_cons, hopen, Text.scan_append_of_eq (Reading.scan_raw h)]
  simp [Reading.step]

end DataAccess.Go
