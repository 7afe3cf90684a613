import DataAccess.Sql.Identifier
import Mathlib.Logic.Function.Basic

set_option autoImplicit false

/-! # Names as tokens

A statement writes the names of columns, tables and schemas with `quote`. Here they are read back
from the front of a text, as SQL reads an identifier: a bare one is as long as possible, and one in
double quotes ends with the first double quote that is not doubled (`readName?`).

Whatever its characters are, a name is read back, and the reader stops right behind it
(`readName?_quote`). So neither a table (`readTable?_qualified`) nor a list of columns
(`readNames?_quoteAll`) can be read as anything else than the names it was made of, and different
names are written differently (`names_are_tokens`). -/

namespace DataAccess.Sql

/-! ## Reading a name -/

/-- The characters a bare identifier may start with. -/
def isBareStart (c : Char) : Bool := 'a' ≤ c && c ≤ 'z' || c == '_'

/-- The characters a bare identifier may go on with. -/
def isBarePart (c : Char) : Bool := 'a' ≤ c && c ≤ 'z' || '0' ≤ c && c ≤ '9' || c == '_'

/-- Reads what follows the opening double quote: the characters of the name and the rest behind the
closing quote. With `closing`, a double quote has just been read, which ends the name unless another
one follows. -/
def readQuoted? : Bool → List Char → Option (List Char × List Char)
  | false, [] => none
  | true, [] => some ([], [])
  | false, c :: cs =>
    if c = '\"' then readQuoted? true cs else (readQuoted? false cs).map fun p => (c :: p.1, p.2)
  | true, c :: cs =>
    if c = '\"' then (readQuoted? false cs).map fun p => (c :: p.1, p.2) else some ([], c :: cs)

/-- Reads an identifier from the front of a text. -/
def readName? : List Char → Option (String × List Char)
  | [] => none
  | c :: cs =>
    if c = '\"' then (readQuoted? false cs).map fun p => (String.ofList p.1, p.2)
    else if isBareStart c then
      some (String.ofList (c :: cs.takeWhile isBarePart), cs.dropWhile isBarePart)
    else none

/-- A text that does not go on with a name that stands before it. -/
def EndsName (text : List Char) : Prop := ∀ c ∈ text.head?, isBarePart c = false ∧ c ≠ '\"'

theorem endsName_cons {c : Char} (h : isBarePart c = false ∧ c ≠ '\"') (cs : List Char) :
    EndsName (c :: cs) := by
  rintro _ hc
  obtain rfl : c = _ := by simpa using hc
  exact h

/-- A bare identifier. -/
def IsBare (name : String) : Prop :=
  ∃ c cs, name.toList = c :: cs ∧ isBareStart c = true ∧ ∀ e ∈ cs, isBarePart e = true

theorem isBareStart_eq : isBareStart = isPlainStart := rfl

theorem isBarePart_eq : isBarePart = isPlainPart := rfl

theorem isPlain_iff {name : String} : isPlain name.toList = true ↔ IsBare name := by
  unfold IsBare
  cases name.toList with
  | nil => simp [isPlain]
  | cons c cs =>
      rw [isPlain, Bool.and_eq_true, List.all_eq_true, ← isBareStart_eq, ← isBarePart_eq]
      constructor
      · exact fun h => ⟨c, cs, rfl, h⟩
      · rintro ⟨_, _, heq, h⟩
        obtain ⟨rfl, rfl⟩ := List.cons.inj heq
        exact h

/-- A name is written as it is, or between double quotes. -/
theorem quote_cases (name : String) :
    (quote name = name ∧ IsBare name ∧ name ∉ reservedWords) ∨
      ((quote name).toList = '\"' :: (name.toList.flatMap quoteChar ++ ['\"']) ∧
        ¬(IsBare name ∧ name ∉ reservedWords)) := by
  have hiff : (isPlain name.toList && !reservedWords.contains name) = true ↔
      IsBare name ∧ name ∉ reservedWords := by
    rw [Bool.and_eq_true, isPlain_iff]
    simp
  by_cases h : (isPlain name.toList && !reservedWords.contains name) = true
  · exact .inl ⟨by rw [quote, if_pos h], hiff.1 h⟩
  · exact .inr ⟨by rw [quote, if_neg h]; simp, mt hiff.2 h⟩

theorem length_le_flatMap_quoteChar (cs : List Char) :
    cs.length ≤ (cs.flatMap quoteChar).length := by
  induction cs with
  | nil => exact Nat.le_refl 0
  | cons c cs ih =>
      have hone : 1 ≤ (quoteChar c).length := by
        unfold quoteChar
        split <;> simp
      rw [List.flatMap_cons, List.length_append, List.length_cons]
      omega

/-- Only a bare identifier that is not reserved goes without quotes. -/
theorem quote_eq_self_iff {name : String} :
    quote name = name ↔ IsBare name ∧ name ∉ reservedWords := by
  rcases quote_cases name with ⟨hquote, hbare⟩ | ⟨hquote, hbare⟩
  · exact iff_of_true hquote hbare
  · -- Quotes make the text longer than the name.
    refine iff_of_false (fun heq => ?_) hbare
    have hlength := congrArg List.length hquote
    have hle := length_le_flatMap_quoteChar name.toList
    rw [heq, List.length_cons, List.length_append] at hlength
    simp only [List.length_singleton] at hlength
    omega

section Read

variable {rest : List Char}

/-- Between the quotes every character is read back, the doubled ones once. -/
theorem readQuoted?_quoteChars (h : EndsName rest) (name : List Char) :
    readQuoted? false (name.flatMap quoteChar ++ '\"' :: rest) = some (name, rest) := by
  induction name with
  | nil =>
      cases rest with
      | nil => rfl
      | cons c cs =>
          have hc : c ≠ '\"' := (h c rfl).2
          simp [readQuoted?, hc]
  | cons c name ih =>
      rw [List.flatMap_cons, List.append_assoc]
      by_cases hc : c = '\"'
      · simp [quoteChar, hc, readQuoted?, ih]
      · simp [quoteChar, hc, readQuoted?, ih]

theorem takeWhile_append_rest {cs : List Char} (hcs : ∀ c ∈ cs, isBarePart c = true)
    (h : EndsName rest) : (cs ++ rest).takeWhile isBarePart = cs ∧
      (cs ++ rest).dropWhile isBarePart = rest := by
  rw [List.takeWhile_append_of_pos hcs, List.dropWhile_append_of_pos hcs]
  cases rest with
  | nil => simp
  | cons c cs => simp [(h c rfl).1]

/-- A name is read back with exactly its own characters. -/
theorem readName?_quote (h : EndsName rest) (name : String) :
    readName? ((quote name).toList ++ rest) = some (name, rest) := by
  rcases quote_cases name with ⟨hquote, ⟨c, cs, hname, hc, hcs⟩, -⟩ | ⟨hquote, -⟩
  · have hne : c ≠ '\"' := by
      rintro rfl
      exact absurd hc (by decide)
    obtain ⟨htake, hdrop⟩ := takeWhile_append_rest hcs h
    rw [hquote, hname, List.cons_append, readName?, if_neg hne, if_pos hc, htake, hdrop, ← hname,
      String.ofList_toList]
  · rw [hquote, List.cons_append, readName?, if_pos rfl, List.append_assoc, List.singleton_append,
      readQuoted?_quoteChars h, Option.map_some, String.ofList_toList]

end Read

theorem quote_injective : Function.Injective quote := by
  intro a b h
  have hend : EndsName [] := by simp [EndsName]
  have hread := readName?_quote hend a
  rw [h, readName?_quote hend b] at hread
  simpa using hread.symm

/-! ## Tables and lists -/

/-- Reads a table with the schema that qualifies it. -/
def readTable? (cs : List Char) : Option ((Option String × String) × List Char) :=
  match readName? cs with
  | some (schema, '.' :: rest) => (readName? rest).map fun p => ((some schema, p.1), p.2)
  | some (table, rest) => some ((none, table), rest)
  | none => none

theorem readTable?_qualified {rest : List Char} (h : EndsName rest) (hdot : rest.head? ≠ some '.')
    (schema : Option String) (table : String) :
    readTable? ((qualified schema table).toList ++ rest) = some ((schema, table), rest) := by
  cases schema with
  | none =>
      rw [qualified, readTable?, readName?_quote h]
      cases rest with
      | nil => rfl
      | cons c rest =>
          have hc : c ≠ '.' := by simpa using hdot
          simp [hc]
  | some s =>
      have hend : EndsName ('.' :: ((quote table).toList ++ rest)) := endsName_cons (by decide) _
      have hchars : (qualified (some s) table).toList ++ rest =
          (quote s).toList ++ '.' :: ((quote table).toList ++ rest) := by
        simp [qualified]
      rw [hchars, readTable?, readName?_quote hend]
      simp only [readName?_quote h, Option.map_some]

/-- Reads a number of names with a comma and a blank between neighbours. -/
def readNames? : Nat → List Char → Option (List String × List Char)
  | 0, cs => some ([], cs)
  | 1, cs => (readName? cs).map fun p => ([p.1], p.2)
  | n + 2, cs => match readName? cs with
    | some (name, ',' :: ' ' :: rest) => (readNames? (n + 1) rest).map fun p => (name :: p.1, p.2)
    | _ => none

theorem readNames?_quoteAll {rest : List Char} (h : EndsName rest) (names : List String) :
    readNames? names.length ((quoteAll names).toList ++ rest) = some (names, rest) := by
  match names with
  | [] => simp [quoteAll, readNames?]
  | [name] => simp [quoteAll, readNames?, readName?_quote h]
  | name :: name' :: names =>
      have hend : ∀ cs, EndsName (',' :: cs) := endsName_cons (by decide)
      have hchars : (quoteAll (name :: name' :: names)).toList ++ rest =
          (quote name).toList ++ ',' :: ' ' :: ((quoteAll (name' :: names)).toList ++ rest) := by
        simp [quoteAll, String.intercalate_cons_cons]
      have hrest := readNames?_quoteAll h (name' :: names)
      rw [hchars, List.length_cons, List.length_cons, readNames?, readName?_quote (hend _)]
      simp only [List.length_cons] at hrest
      simp only [hrest, Option.map_some]

/-- **Names are tokens.** Whatever characters a name has, the reader of identifiers reads it back
from the front of a text and stops right behind it, if the text does not go on with a character of
names. A name that is written without quotes is a bare identifier and not reserved; every other one
stands between double quotes. So different names are written differently, and what follows a name,
be it alone, in a table or in a list, is never read as a part of it or the other way round. -/
theorem names_are_tokens :
    (∀ (name : String) (rest : List Char), EndsName rest →
      readName? ((quote name).toList ++ rest) = some (name, rest)) ∧
    (∀ name, quote name = name ↔ IsBare name ∧ name ∉ reservedWords) ∧
    (∀ name, quote name ≠ name → ∃ inner, (quote name).toList = '\"' :: inner ++ ['\"']) ∧
    Function.Injective quote ∧
    (∀ (schema : Option String) (table : String) (rest : List Char), EndsName rest →
      rest.head? ≠ some '.' →
        readTable? ((qualified schema table).toList ++ rest) = some ((schema, table), rest)) ∧
    ∀ (names : List String) (rest : List Char), EndsName rest →
      readNames? names.length ((quoteAll names).toList ++ rest) = some (names, rest) := by
  refine ⟨fun name rest h => readName?_quote h name, fun _ => quote_eq_self_iff, ?_,
    quote_injective, fun schema table rest h hdot => readTable?_qualified h hdot schema table,
    fun names rest h => readNames?_quoteAll h names⟩
  intro name hne
  rcases quote_cases name with ⟨hquote, -⟩ | ⟨hquote, -⟩
  · exact absurd hquote hne
  · exact ⟨name.toList.flatMap quoteChar, hquote⟩

/-- A name that would end its own token if its quotes were not doubled. -/
def oddName : String := "\"a\", b\"\""

theorem oddName_read : EndsName ", c".toList ∧
    readName? ((quote oddName).toList ++ ", c".toList) = some (oddName, ", c".toList) ∧
    readTable? ((qualified (some oddName) "").toList ++ ", c".toList) =
      some ((some oddName, ""), ", c".toList) ∧
    readNames? 3 ((quoteAll ["", oddName, "b"]).toList ++ ", c".toList) =
      some (["", oddName, "b"], ", c".toList) := by
  have hend : EndsName ", c".toList := endsName_cons (by decide) _
  obtain ⟨hname, -, -, -, htable, hnames⟩ := names_are_tokens
  exact ⟨hend, hname _ _ hend, htable _ _ _ hend (by decide), hnames ["", oddName, "b"] _ hend⟩

end DataAccess.Sql
