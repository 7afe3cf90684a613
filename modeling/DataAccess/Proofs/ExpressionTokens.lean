import DataAccess.Proofs.ExpressionGrammar
import DataAccess.Proofs.GoTokens

set_option autoImplicit false

/-! # The tokens of expressions

A scanner cuts an expression into names, numbers, string literals and signs (`lexemes?`). Each of
them is as long as possible: a sign goes on as long as some sign of Go starts with it, so `--` is
one sign and `&&` is another, and a point behind digits belongs to the number. Of numbers, decimal
ones without a point are read.

A piece of source has lexemes of its own in front of every character that does not go on with its
last one (`Scanned.append`). A text is read as the expression that its lexemes spell (`term?`). Some
pieces cannot start an expression, whatever follows them (`Misplaced`). -/

namespace DataAccess.Go

open Text (prepend scan)

/-- An identifier, be it the blank one. -/
def isName (s : String) : Bool := identifierShape s.toList && !keywords.contains s

/-- The operators and the punctuation of Go, except those with a slash, which may start a
comment. -/
def signs : List (List Char) :=
  ["+", "-", "*", "%", "&", "|", "^", "<<", ">>", "&^", "+=", "-=", "*=", "%=", "&=", "|=", "^=",
    "<<=", ">>=", "&^=", "&&", "||", "<-", "++", "--", "==", "<", ">", "=", "!", "~", "!=", "<=",
    ">=", ":=", "...", "(", ")", "[", "]", "\x7b", "\x7d", ",", ";", ".", ":"].map String.toList

/-- The operator that a sign spells. -/
def BinaryOp.ofSign? : String → Option BinaryOp
  | "||" => some .or
  | "&&" => some .and
  | "==" => some .eq
  | "!=" => some .ne
  | "<" => some .lt
  | "<=" => some .le
  | ">" => some .gt
  | ">=" => some .ge
  | "+" => some .add
  | "-" => some .sub
  | _ => none

/-- The lexeme of a sign. -/
def lexemeOf (sign : String) : Lexeme :=
  match sign with
  | "&" => .ampersand
  | "*" => .star
  | "!" => .bang
  | "(" => .open
  | ")" => .close
  | "[" => .openIndex
  | "]" => .closeIndex
  | "." => .dot
  | "..." => .dots
  | "," => .joint .comma
  | _ => (BinaryOp.ofSign? sign).elim (.other sign) fun op => .joint (.operator op)

/-- The number with these digits, which start with zero only if it is all there is. -/
def number? (digits : List Char) : Option Nat :=
  if Nat.toDigits 10 (Nat.ofDigitChars 10 digits 0) = digits then
    some (Nat.ofDigitChars 10 digits 0)
  else none

/-- What is being read, with its characters so far. -/
inductive Scan where
  | nothing
  /-- A word; a number if it starts with a digit. -/
  | word (number : Bool) (read : List Char)
  | sign (read : List Char)
  /-- An interpreted string literal, possibly behind a backslash. -/
  | text (read : List Char) (escaping : Bool)
  | raw (read : List Char)
  /-- A string literal that is complete. -/
  | literal (read : List Char)
  /-- Behind something that is no lexeme. -/
  | failed
  deriving DecidableEq

namespace Scan

/-- Whether a character goes on with what is being read. -/
def takes : Scan → Char → Bool
  | word number _, c => isWordPart c || number && c == '.'
  | sign read, c => signs.any fun s => (read ++ [c]).isPrefixOf s
  | text _ _, c => c != '\n'
  | raw _, _ => true
  | failed, _ => true
  | _, _ => false

def push : Scan → Char → Scan
  | nothing, _ => nothing
  | word number read, c => word number (read ++ [c])
  | sign read, c => sign (read ++ [c])
  | text read escaping, c =>
    if c == '\"' && !escaping then literal (read ++ [c])
    else text (read ++ [c]) (c == '\\' && !escaping)
  | raw read, c => if c = '\x60' then literal (read ++ [c]) else raw (read ++ [c])
  | literal read, _ => literal read
  | failed, _ => failed

/-- The lexemes if what is being read ends here. -/
def close : Scan → Option (List Lexeme)
  | nothing => some []
  | word false read =>
    if isName (String.ofList read) then some [.name (String.ofList read)] else none
  | word true read => (number? read).map fun n => [.number n]
  | sign read => if signs.contains read then some [lexemeOf (String.ofList read)] else none
  | literal read => some [.text (String.ofList read)]
  | _ => none

/-- Starts with a character. -/
def start (c : Char) : Scan :=
  if c = ' ' then nothing
  else if c.isDigit then word true [c]
  else if isWordPart c then word false [c]
  else if c = '\"' then text [c] false
  else if c = '\x60' then raw [c]
  else if (sign []).takes c then sign [c]
  else failed

/-- Reads one character: it goes on with what is being read, or ends it and starts with something
else. -/
def step (p : Scan) (c : Char) : List Lexeme × Scan :=
  if p.takes c then ([], p.push c) else p.close.elim ([], failed) fun ls => (ls, start c)

/-- The lexemes of characters behind what is being read, with the one that ends in them. -/
def lexemes? (p : Scan) (cs : List Char) : Option (List Lexeme) :=
  (scan step p cs).2.close.map ((scan step p cs).1 ++ ·)

end Scan

/-- The lexemes of a text. -/
def lexemes? (text : String) : Option (List Lexeme) := Scan.nothing.lexemes? text.toList

/-- Reads a text as one expression. -/
def term? (text : String) : Option Term := (lexemes? text).bind termOf?

/-- A text is read as the expression that its lexemes spell. -/
theorem term?_eq_some_iff {text : String} {t : Term} :
    term? text = some t ↔ ∃ ls, lexemes? text = some ls ∧ Spells 1 ls t := by
  rw [term?, Option.bind_eq_some_iff]
  exact exists_congr fun ls => and_congr_right fun _ => termOf?_eq_some_iff

example : term? "a + b[k]" =
    some (.binary .add (.name "a") (.index (.name "b") (.name "k"))) := by
  decide +kernel

/-! ## Reading piece by piece -/

namespace Scan

theorem lexemes?_append (p : Scan) (cs ds : List Char) :
    p.lexemes? (cs ++ ds) =
      ((scan step p cs).2.lexemes? ds).map ((scan step p cs).1 ++ ·) := by
  simp [lexemes?, Text.scan_append, Function.comp_def]

/-- What is being read ends in front of a character that does not go on with it. -/
theorem step_of_not_takes {p : Scan} {d : Char} {ls : List Lexeme} (hclose : p.close = some ls)
    (hd : p.takes d = false) : p.step d = prepend ls (step nothing d) := by
  have hstart : step nothing d = ([], start d) := rfl
  rw [hstart, step, hd, hclose]
  simp

theorem scan_word {number : Bool} {cs : List Char} (read : List Char)
    (h : ∀ c ∈ cs, isWordPart c = true) :
    scan step (word number read) cs = ([], word number (read ++ cs)) := by
  have hkept : scan step (word number (read ++ [])) cs =
      ([], word number (read ++ (cs.reverse ++ []).reverse)) :=
    Text.scan_while (fun more => word number (read ++ more.reverse)) [] fun c hc more => by
      simp [step, takes, push, h c hc]
  simpa using hkept

end Scan

/-- A piece of source has these lexemes if it ends here, and the last of them is being read. -/
def Scanned (cs : List Char) (ls : List Lexeme) (p : Scan) : Prop :=
  ∃ ms ns, scan Scan.step .nothing cs = (ms, p) ∧ p.close = some ns ∧ ms ++ ns = ls

section Scanned

variable {cs ds : List Char} {ls ms : List Lexeme} {p q : Scan} {d : Char}

theorem Scanned.lexemes? (h : Scanned cs ls p) : Scan.nothing.lexemes? cs = some ls := by
  obtain ⟨ms, ns, hscan, hclose, rfl⟩ := h
  simp [Scan.lexemes?, hscan, hclose]

theorem lexemes?_eq_some_iff {text : String} :
    lexemes? text = some ls ↔ ∃ p, Scanned text.toList ls p := by
  constructor
  · intro h
    obtain ⟨ns, hclose, heq⟩ := Option.map_eq_some_iff.1 h
    exact ⟨_, _, ns, rfl, hclose, heq⟩
  · rintro ⟨p, h⟩
    exact h.lexemes?

theorem term?_eq_some_iff_scanned {text : String} {t : Term} :
    term? text = some t ↔ ∃ ls p, Scanned text.toList ls p ∧ Spells 1 ls t := by
  simp only [term?_eq_some_iff, lexemes?_eq_some_iff, exists_and_right]

theorem Scanned.scan_append (h : Scanned cs ls p) (hd : p.takes d = false) (ds : List Char) :
    scan Scan.step .nothing (cs ++ d :: ds) = prepend ls (scan Scan.step .nothing (d :: ds)) := by
  obtain ⟨ms, ns, hscan, hclose, rfl⟩ := h
  rw [Text.scan_append_of_eq hscan, Text.scan_of_step (Scan.step_of_not_takes hclose hd),
    Text.prepend_prepend]

/-- What follows does not change the lexemes of a piece, unless it goes on with the last one. -/
theorem Scanned.append (h : Scanned cs ls p) (h' : Scanned (d :: ds) ms q)
    (hd : p.takes d = false) : Scanned (cs ++ d :: ds) (ls ++ ms) q := by
  obtain ⟨us, vs, hscan, hclose, rfl⟩ := h'
  refine ⟨ls ++ us, vs, ?_, hclose, List.append_assoc _ _ _⟩
  rw [h.scan_append hd, hscan, Text.prepend_mk]

theorem Scanned.lexemes?_append (h : Scanned cs ls p) (hd : p.takes d = false) (ds : List Char) :
    Scan.nothing.lexemes? (cs ++ d :: ds) = (Scan.nothing.lexemes? (d :: ds)).map (ls ++ ·) := by
  simp [Scan.lexemes?, h.scan_append hd, Function.comp_def]

end Scanned

/-! ## Where lexemes end -/

/-- The characters that never go on with a word, a number or a sign. -/
def parts (c : Char) : Bool :=
  !isWordPart c && c != '.' && signs.all fun s => !s.tail.contains c

/-- The signs that no longer sign starts with. -/
def wholeSign (read : List Char) : Bool :=
  signs.all fun s => !read.isPrefixOf s || s.length == read.length

theorem Scan.takes_of_parts {p : Scan} {ls : List Lexeme} (hclose : p.close = some ls) {d : Char}
    (hd : parts d = true) : p.takes d = false := by
  simp only [parts, Bool.and_eq_true, Bool.not_eq_true', bne_iff_ne] at hd
  obtain ⟨⟨hword, hpoint⟩, hsign⟩ := hd
  cases p with
  | nothing => rfl
  | word number read => simp [Scan.takes, hword, hpoint]
  | sign read =>
      have hread : read ∈ signs := by
        by_contra hnot
        simp [Scan.close, hnot] at hclose
      -- A sign is not empty, so what goes on with it is in the tail of a sign.
      obtain ⟨c, cs, rfl⟩ : ∃ c cs, read = c :: cs := by
        refine List.exists_cons_of_ne_nil ?_
        rintro rfl
        exact absurd hread (by decide)
      refine List.any_eq_false.2 fun s hs hstarts => ?_
      obtain ⟨rest, rfl⟩ := List.isPrefixOf_iff_prefix.1 hstarts
      have htail := List.all_eq_true.1 hsign _ hs
      simp at htail
  | text | raw | failed => cases hclose
  | literal read => rfl

theorem Scan.takes_of_wholeSign {read : List Char} (h : wholeSign read = true) (d : Char) :
    (Scan.sign read).takes d = false := by
  refine List.any_eq_false.2 fun s hs hstarts => ?_
  obtain ⟨rest, rfl⟩ := List.isPrefixOf_iff_prefix.1 hstarts
  have hread : read.isPrefixOf (read ++ [d] ++ rest) = true := by
    rw [List.isPrefixOf_iff_prefix, List.append_assoc]
    exact List.prefix_append _ _
  have hlength := List.all_eq_true.1 h _ hs
  rw [hread] at hlength
  simp at hlength

/-- No part of a word goes on with a sign. -/
theorem Scan.takes_sign_of_isWordPart {c : Char} (h : isWordPart c = true) (read : List Char) :
    (Scan.sign read).takes c = false := by
  have hnone : (signs.all fun s => s.all fun d => !isWordPart d) = true := by decide +kernel
  refine List.any_eq_false.2 fun s hs hstarts => ?_
  obtain ⟨rest, rfl⟩ := List.isPrefixOf_iff_prefix.1 hstarts
  have hc := List.all_eq_true.1 (List.all_eq_true.1 hnone _ hs) c (by simp)
  rw [h] at hc
  cases hc

section Pieces

variable {cs ds : List Char} {ls ms : List Lexeme} {p q : Scan} {d : Char}

theorem Scanned.takes_of_parts (h : Scanned cs ls p) (hd : parts d = true) : p.takes d = false := by
  obtain ⟨_, _, _, hclose, _⟩ := h
  exact Scan.takes_of_parts hclose hd

/-- A blank ends every lexeme and is none itself. -/
theorem Scanned.behind_blank (hcs : Scanned cs ls p) (hds : Scanned ds ms q) :
    Scanned (cs ++ ' ' :: ds) (ls ++ ms) q := by
  obtain ⟨us, vs, hscan, hclose, rfl⟩ := hds
  have hblank : scan Scan.step .nothing (' ' :: ds) = scan Scan.step .nothing ds := by
    simp [Scan.step, Scan.takes, Scan.close, Scan.start]
  have hds : Scanned (' ' :: ds) (us ++ vs) q := ⟨us, vs, hblank.trans hscan, hclose, rfl⟩
  exact hcs.append hds (hcs.takes_of_parts (by decide))

/-- A piece between two brackets, the first of which no longer sign starts with. -/
theorem Scanned.enclosed {l r : Char} {u v : Lexeme} (hl : Scanned [l] [u] (.sign [l]))
    (hwhole : wholeSign [l] = true) (hr : Scanned [r] [v] (.sign [r])) (hparts : parts r = true)
    (h : Scanned cs ls p) : Scanned (l :: (cs ++ [r])) (u :: (ls ++ [v])) (.sign [r]) := by
  have hinner := h.append hr (h.takes_of_parts hparts)
  obtain ⟨d, ds, hchars⟩ : ∃ d ds, cs ++ [r] = d :: ds := List.exists_cons_of_ne_nil (by simp)
  rw [hchars] at hinner ⊢
  exact hl.append hinner (Scan.takes_of_wholeSign hwhole d)

theorem scanned_open : Scanned ['('] [.open] (.sign ['(']) :=
  ⟨[], [.open], by decide, by decide, rfl⟩

theorem Scanned.parens (h : Scanned cs ls p) :
    Scanned ('(' :: (cs ++ [')'])) (.open :: (ls ++ [.close])) (.sign [')']) :=
  scanned_open.enclosed (by decide) ⟨[], [.close], by decide, by decide, rfl⟩ (by decide) h

theorem Scanned.index (h : Scanned cs ls p) :
    Scanned ('[' :: (cs ++ [']'])) (.openIndex :: (ls ++ [.closeIndex])) (.sign [']']) := by
  have hopen : Scanned ['['] [.openIndex] (.sign ['[']) :=
    ⟨[], [.openIndex], by decide, by decide, rfl⟩
  exact hopen.enclosed (by decide) ⟨[], [.closeIndex], by decide, by decide, rfl⟩ (by decide) h

end Pieces

theorem toNat_of_isDigit {c : Char} (h : c.isDigit = true) : 48 ≤ c.toNat ∧ c.toNat ≤ 57 := by
  simpa [Char.isDigit, UInt32.le_iff_toNat_le] using h

theorem isWordPart_of_isDigit {c : Char} (h : c.isDigit = true) : isWordPart c = true := by
  have hascii : c.toNat < 0x80 := by
    have := toNat_of_isDigit h
    omega
  simp [isWordPart, hascii, Char.isAlphanum, h]

theorem isIdentifierStart_of_isDigit {c : Char} (h : c.isDigit = true) :
    isIdentifierStart c = false := by
  have hbounds := toNat_of_isDigit h
  have hascii : c.toNat < 0x80 := by omega
  have hletter : c.isAlpha = false := by
    have hdigits : ∀ n < 58, 48 ≤ n → (Char.ofNat n).isAlpha = false := by decide
    have hdigit := hdigits c.toNat (by omega) hbounds.1
    rwa [Char.ofNat_toNat] at hdigit
  have hscore : c ≠ '_' := by
    rintro rfl
    cases h
  simp [isIdentifierStart, Unicode.isAlphabetic_ascii hascii, hletter, hscore]

/-- A name starts with a letter or an underscore and goes on with parts of words. -/
theorem exists_cons_of_isName {s : String} (h : isName s = true) :
    ∃ c cs, s.toList = c :: cs ∧ c.isDigit = false ∧ ∀ d ∈ c :: cs, isWordPart d = true := by
  have hshape : identifierShape s.toList = true := by
    rw [isName, Bool.and_eq_true] at h
    exact h.1
  have hparts := List.all_eq_true.1 (all_part_of_identifierShape hshape)
  cases hchars : s.toList with
  | nil =>
      rw [hchars] at hshape
      cases hshape
  | cons c cs =>
      rw [hchars] at hshape hparts
      refine ⟨c, cs, rfl, ?_, fun d hd => by rw [isWordPart_eq]; exact hparts d hd⟩
      rw [identifierShape, Bool.and_eq_true] at hshape
      cases hdigit : c.isDigit with
      | false => rfl
      | true => rw [isIdentifierStart_of_isDigit hdigit] at hshape; cases hshape.1

theorem scanned_name {s : String} (h : isName s = true) :
    Scanned s.toList [.name s] (.word false s.toList) := by
  obtain ⟨c, cs, hchars, hdigit, hparts⟩ := exists_cons_of_isName h
  obtain ⟨hc, hcs⟩ := List.forall_mem_cons.1 hparts
  refine ⟨[], [.name s], ?_, ?_, rfl⟩
  · have hstart : Scan.nothing.step c = ([], .word false [c]) := by
      have hblank : c ≠ ' ' := by
        rintro rfl
        exact absurd hc (by decide)
      simp [Scan.step, Scan.takes, Scan.close, Scan.start, hblank, hdigit, hc]
    rw [hchars, Text.scan_cons, hstart, Scan.scan_word [c] hcs]
    rfl
  · rw [Scan.close, String.ofList_toList, if_pos h]

theorem number?_toDigits (n : Nat) : number? (Nat.toDigits 10 n) = some n := by
  rw [number?, Nat.ofDigitChars_ten_toDigits, if_pos rfl]

theorem scanned_number (n : Nat) :
    Scanned (Nat.toDigits 10 n) [.number n] (.word true (Nat.toDigits 10 n)) := by
  have hdigits : ∀ c ∈ Nat.toDigits 10 n, c.isDigit = true := fun c =>
    Nat.isDigit_of_mem_toDigits (by decide) (by decide)
  refine ⟨[], [.number n], ?_, ?_, rfl⟩
  · obtain ⟨c, cs, hchars⟩ := List.exists_cons_of_ne_nil (Nat.toDigits_ne_nil (n := n) (b := 10))
    rw [hchars] at hdigits ⊢
    obtain ⟨hc, hcs⟩ := List.forall_mem_cons.1 hdigits
    have hstart : Scan.nothing.step c = ([], .word true [c]) := by
      have hblank : c ≠ ' ' := by
        rintro rfl
        exact absurd hc (by decide)
      simp [Scan.step, Scan.takes, Scan.close, Scan.start, hblank, hc]
    rw [Text.scan_cons, hstart,
      Scan.scan_word [c] fun d hd => isWordPart_of_isDigit (hcs d hd)]
    rfl
  · rw [Scan.close, number?_toDigits]
    rfl

theorem scanned_operator (op : BinaryOp) :
    Scanned op.symbol.toList [.joint (.operator op)] (.sign op.symbol.toList) := by
  refine ⟨[], [.joint (.operator op)], ?_, ?_, rfl⟩ <;> cases op <;> decide

/-- The sign of a unary operator, which is one character. -/
def UnaryOp.char : UnaryOp → Char
  | addressOf => '&'
  | deref => '*'
  | not => '!'
  | neg => '-'

theorem UnaryOp.toList_symbol (op : UnaryOp) : op.symbol.toList = [op.char] := by
  cases op <;> rfl

theorem scanned_unary (op : UnaryOp) : Scanned [op.char] [op.lexeme] (.sign [op.char]) := by
  refine ⟨[], [op.lexeme], ?_, ?_, rfl⟩ <;> cases op <;> decide

/-! ## Pieces that cannot start an expression -/

/-- Whatever follows, the lexemes do not stand where they may stand. -/
def Misplaced (cs : List Char) : Prop :=
  ∀ rest ls, Scan.nothing.lexemes? (cs ++ rest) = some ls → placed true ls = none

section Misplaced

variable {cs ds : List Char} {ls : List Lexeme} {p : Scan} {d : Char}

theorem Misplaced.append (h : Misplaced cs) (ds : List Char) : Misplaced (cs ++ ds) := by
  intro rest ls hls
  rw [List.append_assoc] at hls
  exact h _ ls hls

/-- A piece in front of one that cannot start an expression does not help, if an expression is
still to come behind it. -/
theorem Misplaced.behind (h : Misplaced (d :: ds)) (hcs : Scanned cs ls p)
    (hd : p.takes d = false) (hls : placed true ls = some true) : Misplaced (cs ++ d :: ds) := by
  intro rest ms hms
  rw [List.append_assoc, List.cons_append, hcs.lexemes?_append hd] at hms
  obtain ⟨ns, hns, rfl⟩ := Option.map_eq_some_iff.1 hms
  rw [placed_append, hls]
  exact h rest ns hns

theorem Misplaced.blank (h : Misplaced cs) : Misplaced (' ' :: cs) := by
  intro rest ls hls
  refine h rest ls ?_
  simpa [Scan.lexemes?, Scan.step, Scan.takes, Scan.close, Scan.start] using hls

theorem Misplaced.term?_eq_none {text : String} (h : Misplaced text.toList) :
    term? text = none := by
  refine Option.eq_none_iff_forall_not_mem.2 fun t ht => ?_
  obtain ⟨ls, hls, hspells⟩ := term?_eq_some_iff.1 ht
  have hplaced := h [] ls (by rwa [List.append_nil])
  rw [hspells.placed] at hplaced
  cases hplaced

/-- A sign that has no place in front of an expression, and that no longer sign starts with. -/
theorem misplaced_sign {read : List Char}
    (hscan : scan Scan.step .nothing read = ([], .sign read))
    (hsign : read ∈ signs) (hwhole : wholeSign read = true)
    (hfollow : (lexemeOf (String.ofList read)).follow true = none) : Misplaced read := by
  intro rest ls hls
  have hscanned : Scanned read [lexemeOf (String.ofList read)] (.sign read) :=
    ⟨[], _, hscan, by simp [Scan.close, hsign], rfl⟩
  obtain ⟨ms, rfl⟩ : ∃ ms, ls = lexemeOf (String.ofList read) :: ms := by
    cases rest with
    | nil =>
        rw [List.append_nil, hscanned.lexemes?] at hls
        exact ⟨[], (Option.some.inj hls).symm⟩
    | cons d rest =>
        rw [hscanned.lexemes?_append (Scan.takes_of_wholeSign hwhole d)] at hls
        obtain ⟨ms, -, rfl⟩ := Option.map_eq_some_iff.1 hls
        exact ⟨ms, rfl⟩
  rw [placed_cons, hfollow]
  rfl

/-- Numbers have no points. -/
theorem number?_of_point {read : List Char} (h : '.' ∈ read) : number? read = none := by
  rw [number?, if_neg]
  intro hdigits
  rw [← hdigits] at h
  exact absurd (Nat.isDigit_of_mem_toDigits (by decide) (by decide) h) (by decide)

/-- Behind something that is no lexeme nothing is read. -/
theorem Scan.lexemes?_failed (cs : List Char) : failed.lexemes? cs = none := by
  have hfailed : scan step failed cs = ([], failed) :=
    Text.scan_while (fun _ => failed) [] fun _ _ _ => rfl
  simp [lexemes?, hfailed, close]

/-- What is being read behind a point in a number has no lexemes, whatever follows. -/
theorem Scan.lexemes?_point {read : List Char} (h : '.' ∈ read) (cs : List Char) :
    (word true read).lexemes? cs = none := by
  induction cs generalizing read with
  | nil => simp [lexemes?, close, number?_of_point h]
  | cons c cs ih =>
      have hstep := lexemes?_append (word true read) [c] cs
      rw [List.singleton_append] at hstep
      by_cases htakes : (word true read).takes c = true
      · simp [hstep, step, htakes, push, ih (List.mem_append_left [c] h)]
      · simp [hstep, step, htakes, close, number?_of_point h, lexemes?_failed]

/-- A point behind a number cannot start an expression with it. -/
theorem Scanned.misplaced_point {read : List Char} (h : Scanned cs ls (.word true read)) :
    Misplaced (cs ++ ['.']) := by
  intro rest ms hms
  obtain ⟨us, vs, hscan, -, -⟩ := h
  have hpoint : scan Scan.step (.word true read) ['.'] = ([], .word true (read ++ ['.'])) := by
    simp [Scan.step, Scan.takes, Scan.push]
  have hnone := Scan.lexemes?_point (List.mem_append_right read (List.mem_singleton_self '.')) rest
  rw [List.append_assoc, Scan.lexemes?_append, hscan, Scan.lexemes?_append, hpoint, hnone] at hms
  cases hms

end Misplaced

end DataAccess.Go
