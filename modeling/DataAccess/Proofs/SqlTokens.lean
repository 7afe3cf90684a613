import DataAccess.Proofs.Letters
import DataAccess.Proofs.Scanners
import DataAccess.Sql.Dialect
import DataAccess.Sql.Identifier

set_option autoImplicit false

/-! # The tokens of an SQL condition

A condition is read in two steps, and this is the first: its characters are cut into tokens by a
scanner (`Lexer.step`). Keywords are in upper case. A placeholder without a number takes the next
one that is free, so the scanner counts them.

`Lexes next cs ts next'` says that the characters are cut into the tokens `ts` when they are
followed by a character that cannot belong to the last of them; such pieces can be put one after the
other (`Lexes.append`). A quoted name (`lexes_quote`), a placeholder (`lexes_placeholder`) and a
word (`lexes_word`) are pieces of this kind. -/

namespace DataAccess.Sql

open Text (prepend scan)

/-- The keywords of conditions. -/
inductive Keyword where
  | where
  | and
  | or
  | not
  | between
  | like
  | ilike
  | is
  | in
  | select
  | from
  | any
  deriving DecidableEq

namespace Keyword

def spelling : Keyword → String
  | .where => "WHERE"
  | .and => "AND"
  | .or => "OR"
  | .not => "NOT"
  | .between => "BETWEEN"
  | .like => "LIKE"
  | .ilike => "ILIKE"
  | .is => "IS"
  | .in => "IN"
  | .select => "SELECT"
  | .from => "FROM"
  | .any => "ANY"

/-- All keywords. -/
def all : List Keyword :=
  [.where, .and, .or, .not, .between, .like, .ilike, .is, .in, .select, .from, .any]

/-- The keyword a word spells. -/
def ofWord? (w : String) : Option Keyword := all.find? fun k => k.spelling == w

end Keyword

/-- The signs of conditions. -/
inductive Sign where
  | eq
  | ne
  | lt
  | le
  | gt
  | ge
  | open
  | close
  deriving DecidableEq

/-- A token. -/
inductive Token where
  | keyword (k : Keyword)
  /-- A bare word that is no keyword. -/
  | word (w : String)
  /-- A name in double quotes, without them. -/
  | quoted (name : String)
  | number (n : Nat)
  /-- A placeholder with its number. -/
  | slot (n : Nat)
  | sign (s : Sign)
  deriving DecidableEq

/-- The characters a bare word may start with. -/
def isWordStart (c : Char) : Bool := c.isAlpha || c == '_'

/-- The characters a bare word may go on with. -/
def isWordPart (c : Char) : Bool := c.isAlphanum || c == '_'

/-- Whether the characters form a bare word. -/
def isWord : List Char → Bool
  | [] => false
  | c :: cs => isWordStart c && cs.all isWordPart

/-- The token of a bare word. -/
def wordToken (w : String) : Token :=
  match Keyword.ofWord? w with
  | some k => .keyword k
  | none => .word w

/-! ## The scanner -/

/-- The token that is being read; its characters so far stand last first. -/
inductive Mode where
  | idle
  | word (read : List Char)
  | number (read : List Char)
  | slot (read : List Char)
  | quoted (read : List Char)
  /-- Behind a double quote that ends the name unless another one follows. -/
  | closing (read : List Char)
  | less
  | greater
  /-- Behind something that starts no token. -/
  | failed
  deriving DecidableEq

/-- What is being read, and the number of the next placeholder without a number. -/
structure Lexer where
  mode : Mode
  next : Nat
  deriving DecidableEq

namespace Lexer

/-- The value of decimal digits that stand last first. -/
def digits (read : List Char) : Nat := Nat.ofDigitChars 10 read.reverse 0

/-- Ends the token that is being read; an open quote cannot end. -/
def flush (l : Lexer) : Option (List Token × Nat) :=
  match l.mode with
  | .idle => some ([], l.next)
  | .word cs => some ([wordToken (String.ofList cs.reverse)], l.next)
  | .number cs => some ([.number (digits cs)], l.next)
  | .slot [] => none
  | .slot cs => some ([.slot (digits cs)], max l.next (digits cs + 1))
  | .quoted _ => none
  | .closing cs => some ([.quoted (String.ofList cs.reverse)], l.next)
  | .less => some ([.sign .lt], l.next)
  | .greater => some ([.sign .gt], l.next)
  | .failed => none

/-- Starts a token. -/
def start (next : Nat) (c : Char) : List Token × Lexer :=
  if c = ' ' then ([], ⟨.idle, next⟩)
  else if c = '(' then ([.sign .open], ⟨.idle, next⟩)
  else if c = ')' then ([.sign .close], ⟨.idle, next⟩)
  else if c = '=' then ([.sign .eq], ⟨.idle, next⟩)
  else if c = '<' then ([], ⟨.less, next⟩)
  else if c = '>' then ([], ⟨.greater, next⟩)
  else if c = '?' then ([.slot next], ⟨.idle, next + 1⟩)
  else if c = '$' then ([], ⟨.slot [], next⟩)
  else if c = '\"' then ([], ⟨.quoted [], next⟩)
  else if c.isDigit then ([], ⟨.number [c], next⟩)
  else if isWordStart c then ([], ⟨.word [c], next⟩)
  else ([], ⟨.failed, next⟩)

/-- Ends the token that is being read and starts one with the next character. -/
def turn (l : Lexer) (c : Char) : List Token × Lexer :=
  l.flush.elim ([], ⟨.failed, l.next⟩) fun p => prepend p.1 (start p.2 c)

/-- Reads one character: it goes on with the token that is being read, or ends it. -/
def step (l : Lexer) (c : Char) : List Token × Lexer :=
  match l.mode with
  | .idle => l.turn c
  | .word cs => if isWordPart c then ([], ⟨.word (c :: cs), l.next⟩) else l.turn c
  | .number cs => if c.isDigit then ([], ⟨.number (c :: cs), l.next⟩) else l.turn c
  | .slot cs => if c.isDigit then ([], ⟨.slot (c :: cs), l.next⟩) else l.turn c
  | .quoted cs =>
    if c = '\"' then ([], ⟨.closing cs, l.next⟩) else ([], ⟨.quoted (c :: cs), l.next⟩)
  | .closing cs => if c = '\"' then ([], ⟨.quoted (c :: cs), l.next⟩) else l.turn c
  | .less =>
    if c = '=' then ([.sign .le], ⟨.idle, l.next⟩)
    else if c = '>' then ([.sign .ne], ⟨.idle, l.next⟩)
    else l.turn c
  | .greater => if c = '=' then ([.sign .ge], ⟨.idle, l.next⟩) else l.turn c
  | .failed => ([], l)

end Lexer

/-- The tokens of a text whose placeholders without a number are counted from `next` on. -/
def tokens? (next : Nat) (text : String) : Option (List Token) :=
  (scan Lexer.step ⟨.idle, next⟩ text.toList).2.flush.map fun p =>
    (scan Lexer.step ⟨.idle, next⟩ text.toList).1 ++ p.1

/-! ## Pieces of text -/

/-- The characters that end every token but a quoted name. -/
def isBreak (c : Char) : Bool := !(isWordPart c || c == '\"' || c == '=' || c == '>')

/-- Whether the first character ends the token before it. -/
def breaks : List Char → Bool
  | [] => false
  | c :: _ => isBreak c

namespace Lexer

/-- A character that ends every token ends the one that is being read. -/
theorem step_of_isBreak {l : Lexer} {c : Char} {ts : List Token} {n : Nat} (hc : isBreak c = true)
    (hl : l.flush = some (ts, n)) : l.step c = l.turn c := by
  obtain ⟨hword, hquote, heq, hgt⟩ :
      isWordPart c = false ∧ c ≠ '\"' ∧ c ≠ '=' ∧ c ≠ '>' := by
    simpa [isBreak, and_assoc] using hc
  have hdigit : c.isDigit = false := by
    simp only [isWordPart, Char.isAlphanum, Bool.or_eq_false_iff] at hword
    exact hword.1.2
  -- Only an open quote goes on with such a character, and an open quote cannot be flushed.
  obtain ⟨mode, next⟩ := l
  cases mode <;> simp_all [step, flush]

/-- So it is read as from the beginning. -/
theorem step_eq_prepend {l : Lexer} {c : Char} {ts : List Token} {n : Nat} (hc : isBreak c = true)
    (hl : l.flush = some (ts, n)) : l.step c = prepend ts (step ⟨.idle, n⟩ c) := by
  rw [step_of_isBreak hc hl, turn, hl]
  rfl

/-- A word goes on as long as its characters do. -/
theorem scan_word (cs read : List Char) (next : Nat) (h : cs.all isWordPart = true) :
    scan step ⟨.word read, next⟩ cs = ([], ⟨.word (cs.reverse ++ read), next⟩) :=
  Text.scan_while (fun read => (⟨.word read, next⟩ : Lexer)) read fun c hc read => by
    simp [step, List.all_eq_true.1 h c hc]

/-- The number of a placeholder goes on as long as its digits do. -/
theorem scan_slot (cs read : List Char) (next : Nat) (h : ∀ c ∈ cs, c.isDigit = true) :
    scan step ⟨.slot read, next⟩ cs = ([], ⟨.slot (cs.reverse ++ read), next⟩) :=
  Text.scan_while (fun read => (⟨.slot read, next⟩ : Lexer)) read fun c hc read => by
    simp [step, h c hc]

/-- The characters of a name, with quotes doubled, are read back one by one. -/
theorem scan_quoteChars (cs read : List Char) (next : Nat) :
    scan step ⟨.quoted read, next⟩ (cs.flatMap quoteChar) =
      ([], ⟨.quoted (cs.reverse ++ read), next⟩) := by
  refine Text.scan_flatMap (fun read => (⟨.quoted read, next⟩ : Lexer)) _ read fun c _ read => ?_
  by_cases hc : c = '\"' <;> simp [quoteChar, hc, step]

end Lexer

/-- The characters are cut into the tokens, whatever follows. -/
abbrev Closes (next : Nat) (cs : List Char) (ts : List Token) (next' : Nat) : Prop :=
  scan Lexer.step ⟨.idle, next⟩ cs = (ts, ⟨.idle, next'⟩)

/-- The characters are cut into the tokens once the last token is ended. -/
def Lexes (next : Nat) (cs : List Char) (ts : List Token) (next' : Nat) : Prop :=
  ∃ us l vs, scan Lexer.step ⟨.idle, next⟩ cs = (us, l) ∧ l.flush = some (vs, next') ∧ ts = us ++ vs

theorem Closes.lexes {next next' : Nat} {cs : List Char} {ts : List Token}
    (h : Closes next cs ts next') : Lexes next cs ts next' :=
  ⟨ts, ⟨.idle, next'⟩, [], h, rfl, by simp⟩

theorem Closes.append {next m next' : Nat} {cs ds : List Char} {ts us : List Token}
    (h : Closes next cs ts m) (h' : Closes m ds us next') :
    Closes next (cs ++ ds) (ts ++ us) next' := by
  rw [Closes, Text.scan_append_of_eq h, h', Text.prepend_mk]

theorem Closes.append_lexes {next m next' : Nat} {cs ds : List Char} {ts us : List Token}
    (h : Closes next cs ts m) (h' : Lexes m ds us next') :
    Lexes next (cs ++ ds) (ts ++ us) next' := by
  obtain ⟨us', l, vs, hscan, hflush, rfl⟩ := h'
  refine ⟨ts ++ us', l, vs, ?_, hflush, by simp⟩
  rw [Text.scan_append_of_eq h, hscan, Text.prepend_mk]

/-- Reading on behind a piece is reading from the beginning, if the next character ends tokens. -/
theorem Lexes.scan_append {next m : Nat} {cs ds : List Char} {ts : List Token}
    (h : Lexes next cs ts m) (hb : breaks ds = true) :
    scan Lexer.step ⟨.idle, next⟩ (cs ++ ds) = prepend ts (scan Lexer.step ⟨.idle, m⟩ ds) := by
  obtain ⟨us, l, vs, hscan, hflush, rfl⟩ := h
  cases ds with
  | nil => exact absurd hb (by decide)
  | cons c ds =>
      rw [Text.scan_append_of_eq hscan,
        Text.scan_of_step (Lexer.step_eq_prepend hb hflush), Text.prepend_prepend]

theorem Lexes.append {next m next' : Nat} {cs ds : List Char} {ts us : List Token}
    (h : Lexes next cs ts m) (h' : Lexes m ds us next') (hb : breaks ds = true) :
    Lexes next (cs ++ ds) (ts ++ us) next' := by
  obtain ⟨us', l, vs, hscan, hflush, rfl⟩ := h'
  refine ⟨ts ++ us', l, vs, ?_, hflush, by simp⟩
  rw [h.scan_append hb, hscan, Text.prepend_mk]

theorem Lexes.append_closes {next m next' : Nat} {cs ds : List Char} {ts us : List Token}
    (h : Lexes next cs ts m) (h' : Closes m ds us next') (hb : breaks ds = true) :
    Closes next (cs ++ ds) (ts ++ us) next' := by
  rw [Closes, h.scan_append hb, h', Text.prepend_mk]

theorem Lexes.tokens? {next next' : Nat} {text : String} {ts : List Token}
    (h : Lexes next text.toList ts next') : Sql.tokens? next text = some ts := by
  obtain ⟨us, l, vs, hscan, hflush, rfl⟩ := h
  rw [Sql.tokens?, hscan]
  simp [hflush]

/-! ## Words, names and placeholders -/

theorem Lexer.start_of_isWordStart {next : Nat} {c : Char} (h : isWordStart c = true) :
    start next c = ([], ⟨.word [c], next⟩) := by
  have hne : ∀ e, isWordStart e = false → c ≠ e := by
    rintro e he rfl
    rw [he] at h
    cases h
  have hdigit : c.isDigit = false := by
    cases hd : c.isDigit with
    | false => rfl
    | true =>
        simp only [isWordStart, Bool.or_eq_true, beq_iff_eq, Unicode.isAlpha_iff_toNat] at h
        rw [Char.isDigit_iff_toNat] at hd
        rcases h with (h | h) | rfl
        · exact absurd (Nat.le_trans h.1 hd.2) (by decide)
        · exact absurd (Nat.le_trans h.1 hd.2) (by decide)
        · exact absurd hd (by decide)
  rw [start, if_neg (hne ' ' (by decide)), if_neg (hne '(' (by decide)),
    if_neg (hne ')' (by decide)), if_neg (hne '=' (by decide)), if_neg (hne '<' (by decide)),
    if_neg (hne '>' (by decide)), if_neg (hne '?' (by decide)), if_neg (hne '$' (by decide)),
    if_neg (hne '\"' (by decide)), hdigit, if_neg (by decide), if_pos h]

/-- A word is one token. -/
theorem lexes_word (next : Nat) (w : String) (h : isWord w.toList = true) :
    Lexes next w.toList [wordToken w] next := by
  cases hw : w.toList with
  | nil => rw [hw] at h; exact absurd h (by decide)
  | cons c cs =>
      rw [hw, isWord, Bool.and_eq_true] at h
      refine ⟨[], ⟨.word (cs.reverse ++ [c]), next⟩, [wordToken w], ?_, ?_, rfl⟩
      · simp [Lexer.step, Lexer.turn, Lexer.flush, Lexer.start_of_isWordStart h.1,
          Lexer.scan_word cs [c] next h.2]
      · have hback : String.ofList (cs.reverse ++ [c]).reverse = w := by
          rw [List.reverse_append, List.reverse_reverse, List.reverse_singleton,
            List.singleton_append, ← hw, String.ofList_toList]
        show some ([wordToken (String.ofList (cs.reverse ++ [c]).reverse)], next) = _
        rw [hback]

/-- A plain name is a bare word. -/
theorem isWord_of_isPlain {cs : List Char} (h : isPlain cs = true) : isWord cs = true := by
  cases cs with
  | nil => exact h
  | cons c cs =>
      have hlower : ∀ {e : Char}, e.isLower = true → e.isAlpha = true := fun he =>
        (Bool.or_eq_true _ _).mpr (.inr he)
      simp only [isPlain, isPlainStart, isPlainPart, isWord, isWordStart, isWordPart,
        Char.isAlphanum, Bool.and_eq_true, Bool.or_eq_true, List.all_eq_true] at h ⊢
      refine ⟨?_, fun e he => ?_⟩
      · rcases h.1 with hc | hc
        · exact .inl (hlower hc)
        · exact .inr hc
      · rcases h.2 e he with (hc | hc) | hc
        · exact .inl (.inl (hlower hc))
        · exact .inl (.inr hc)
        · exact .inr hc

/-- A plain name is no keyword: those are in upper case. -/
theorem Keyword.ofWord?_of_isPlain {w : String} (h : isPlain w.toList = true) :
    Keyword.ofWord? w = none := by
  rw [Keyword.ofWord?, List.find?_eq_none]
  intro k _ hk
  rw [beq_iff_eq] at hk
  subst hk
  cases k <;> exact absurd h (by decide)

/-- The token of a name as a statement writes it. -/
def nameToken (name : String) : Token :=
  if isPlain name.toList && !reservedWords.contains name then .word name else .quoted name

/-- A name is one token, whatever its characters are. -/
theorem lexes_quote (next : Nat) (name : String) :
    Lexes next (quote name).toList [nameToken name] next := by
  by_cases h : (isPlain name.toList && !reservedWords.contains name) = true
  · rw [quote, if_pos h, nameToken, if_pos h]
    have hplain : isPlain name.toList = true := (Bool.and_eq_true _ _ ▸ h).1
    have hword := lexes_word next name (isWord_of_isPlain hplain)
    rwa [wordToken, Keyword.ofWord?_of_isPlain hplain] at hword
  · -- Between the quotes the machine stays in one mode until the quote that is not doubled.
    rw [quote, if_neg h, nameToken, if_neg h]
    refine ⟨[], ⟨.closing name.toList.reverse, next⟩, [.quoted name], ?_, ?_, rfl⟩
    · have hopen : scan Lexer.step ⟨.idle, next⟩ "\"".toList = ([], ⟨.quoted [], next⟩) := rfl
      have hclose : scan Lexer.step ⟨.quoted name.toList.reverse, next⟩ "\"".toList =
          ([], ⟨.closing name.toList.reverse, next⟩) := rfl
      rw [String.toList_append, String.toList_append, List.append_assoc,
        Text.scan_append_of_eq hopen, String.toList_ofList,
        Text.scan_append_of_eq (Lexer.scan_quoteChars name.toList [] next),
        List.append_nil, hclose]
      rfl
    · show some ([Token.quoted (String.ofList name.toList.reverse.reverse)], next) = _
      rw [List.reverse_reverse, String.ofList_toList]

/-- Numbers are written with decimal digits. -/
theorem toList_toString (n : Nat) : (toString n).toList = Nat.toDigits 10 n := by
  rw [Nat.toString_eq_repr, Nat.toList_repr]

theorem isDigit_of_mem_toString {n : Nat} {c : Char} (h : c ∈ (toString n).toList) :
    c.isDigit = true :=
  Nat.isDigit_of_mem_toDigits (by decide) (by decide) (toList_toString n ▸ h)

/-- A placeholder is one token with the number that it stands for. -/
theorem lexes_placeholder (d : Dialect) (next : Nat) :
    Lexes next (d.placeholder next).toList [.slot next] (next + 1) := by
  cases d with
  | sqlite =>
      have hsign : Closes next "?".toList [.slot next] (next + 1) := rfl
      exact hsign.lexes
  | postgres =>
      have hvalue : Lexer.digits (toString next).toList.reverse = next := by
        rw [Lexer.digits, List.reverse_reverse, toList_toString, Nat.ofDigitChars_ten_toDigits]
      refine ⟨[], ⟨.slot (toString next).toList.reverse, next⟩, [.slot next], ?_, ?_, rfl⟩
      · have hopen : scan Lexer.step ⟨.idle, next⟩ "$".toList = ([], ⟨.slot [], next⟩) := rfl
        rw [Dialect.placeholder, String.toList_append, Text.scan_append_of_eq hopen,
          Lexer.scan_slot _ [] next fun _ => isDigit_of_mem_toString]
        simp
      · cases hds : (toString next).toList.reverse with
        | nil =>
            rw [toList_toString] at hds
            exact absurd (List.reverse_eq_nil_iff.1 hds) Nat.toDigits_ne_nil
        | cons c cs =>
            rw [hds] at hvalue
            simp [Lexer.flush, hvalue]

end DataAccess.Sql
