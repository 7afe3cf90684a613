set_option autoImplicit false

/-! # Scanners

A scanner reads a text one character at a time. Its state is what is being read, and each step gives
out what the character has made complete (`scan`).

A text that was read first only changes the state in which the next one is read (`scan_append`). A
character that ends what is being read is read as from the state behind that (`scan_of_step`). What
goes on character by character is kept in the state, the last one first (`scan_while`), also if each
of its characters is written as several ones (`scan_flatMap`). What leads back to the same state can
be repeated (`scan_loop`). -/

namespace DataAccess.Text

variable {σ τ : Type}

/-- Puts what was complete before in front of what is read. -/
def prepend (ts : List τ) : List τ × σ → List τ × σ
  | (us, s) => (ts ++ us, s)

/-- Reads characters: what is complete, and what is still being read. -/
def scan (step : σ → Char → List τ × σ) : σ → List Char → List τ × σ
  | s, [] => ([], s)
  | s, c :: cs => match step s c with
    | (ts, s) => prepend ts (scan step s cs)

@[simp] theorem fst_prepend (ts : List τ) (p : List τ × σ) : (prepend ts p).1 = ts ++ p.1 := rfl

@[simp] theorem snd_prepend (ts : List τ) (p : List τ × σ) : (prepend ts p).2 = p.2 := rfl

@[simp] theorem prepend_mk (ts us : List τ) (s : σ) : prepend ts (us, s) = (ts ++ us, s) := rfl

@[simp] theorem prepend_nil (p : List τ × σ) : prepend [] p = p := rfl

@[simp] theorem prepend_prepend (ts us : List τ) (p : List τ × σ) :
    prepend ts (prepend us p) = prepend (ts ++ us) p := by
  obtain ⟨vs, s⟩ := p
  rw [prepend_mk, prepend_mk, prepend_mk, List.append_assoc]

section Scan

variable {step : σ → Char → List τ × σ} {s s' : σ} {c : Char} {cs : List Char} {ts : List τ}

@[simp] theorem scan_nil (s : σ) : scan step s [] = ([], s) := rfl

@[simp] theorem scan_cons (s : σ) (c : Char) (cs : List Char) :
    scan step s (c :: cs) = prepend (step s c).1 (scan step (step s c).2 cs) := rfl

theorem scan_append (s : σ) (cs ds : List Char) :
    scan step s (cs ++ ds) = prepend (scan step s cs).1 (scan step (scan step s cs).2 ds) := by
  induction cs generalizing s with
  | nil => rfl
  | cons c cs ih =>
      rw [List.cons_append, scan_cons, ih, prepend_prepend, scan_cons, fst_prepend, snd_prepend]

theorem scan_append_of_eq (h : scan step s cs = (ts, s')) (ds : List Char) :
    scan step s (cs ++ ds) = prepend ts (scan step s' ds) := by
  rw [scan_append, h]

/-- If the first character is read as in another state, so is the text. -/
theorem scan_of_step (h : step s c = prepend ts (step s' c)) (cs : List Char) :
    scan step s (c :: cs) = prepend ts (scan step s' (c :: cs)) := by
  rw [scan_cons, scan_cons, h, prepend_prepend]
  rfl

/-- What leads back to a state is given out again and again. -/
theorem scan_loop {α : Type} {written : α → List Char} {made : α → List τ} {as : List α}
    (h : ∀ a ∈ as, scan step s (written a) = (made a, s)) :
    scan step s (as.flatMap written) = (as.flatMap made, s) := by
  induction as with
  | nil => rfl
  | cons a as ih =>
      obtain ⟨ha, has⟩ := List.forall_mem_cons.1 h
      rw [List.flatMap_cons, scan_append_of_eq ha, ih has, prepend_mk, List.flatMap_cons]

/-- Characters that are each written as several ones are kept one by one. -/
theorem scan_flatMap (kept : List Char → σ) (written : Char → List Char) (read : List Char)
    (h : ∀ c ∈ cs, ∀ read, scan step (kept read) (written c) = ([], kept (c :: read))) :
    scan step (kept read) (cs.flatMap written) = ([], kept (cs.reverse ++ read)) := by
  induction cs generalizing read with
  | nil => rfl
  | cons c cs ih =>
      obtain ⟨hc, hcs⟩ := List.forall_mem_cons.1 h
      rw [List.flatMap_cons, scan_append_of_eq (hc read), ih _ hcs, prepend_nil,
        List.reverse_cons, List.append_assoc, List.singleton_append]

theorem scan_while (kept : List Char → σ) (read : List Char)
    (h : ∀ c ∈ cs, ∀ read, step (kept read) c = ([], kept (c :: read))) :
    scan step (kept read) cs = ([], kept (cs.reverse ++ read)) := by
  have hsingle : scan step (kept read) (cs.flatMap fun c => [c]) =
      ([], kept (cs.reverse ++ read)) := by
    refine scan_flatMap kept _ read fun c hc read => ?_
    rw [scan_cons, h c hc]
    rfl
  rwa [List.flatMap_singleton'] at hsingle

end Scan

end DataAccess.Text
