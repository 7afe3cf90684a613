import DataAccess.Go.Node.Directives

set_option autoImplicit false

/-! # Directives put on nodes one after the other

A node gets its directives in steps, each of which may set any of them (`Node.direct`). A step goes
back to the capture that the node has, so its outcome depends on all steps before.

A step is refused for exactly one reason, the two sides of a capture before the mode of a call
(`direct_eq_error_iff`). Otherwise it replaces what it sets and keeps the rest
(`direct_eq_ok_iff`). The check looks at what is on the node after the step. So the last step of a
history decides: a call which does not run at once never has a capture or a handler, whatever steps
came before (`Node.Built.later`). -/

namespace DataAccess.Go

/-- The call that a shape is, if it does not run at once. -/
def Shape.laterCall? : Shape → Option Call
  | .call c => if c.mode = .immediate then none else some c
  | _ => none

namespace Directives

variable (d : Directives) (n : Node)

/-- The variables to assign, those of the node if the step does not set any. -/
def assigned? : Option (List String) := d.assign.or n.capture.assigned?

/-- The variables to define, those of the node if the step does not set any. -/
def defined? : Option (List String) := d.define.or n.capture.defined?

/-- The handler, that of the node if the step does not set one. -/
def handler? : Option Handler := d.onError.or n.handler

/-- What a step can be refused for. -/
inductive Refused : CompileError → Prop where
  | bothSides {as ds : List String} (hassign : d.assigned? n = some as)
      (hdefine : d.defined? n = some ds) : Refused (.conflictingCapture as ds)
  | result {c : Call} (hlater : n.shape.laterCall? = some c)
      (hone : (d.assigned? n).isSome ≠ (d.defined? n).isSome) :
      Refused (.conflictingCallMode c.callee.render
        ("a " ++ c.mode.keyword ++ " call has no result to capture"))
  | error {c : Call} (hlater : n.shape.laterCall? = some c) (hassign : d.assigned? n = none)
      (hdefine : d.defined? n = none) (hhandler : (d.handler? n).isSome) :
      Refused (.conflictingCallMode c.callee.render
        ("a " ++ c.mode.keyword ++ " call has no error to handle"))

/-- A node differs from another one by the directives of a step only: what the step sets is
replaced, and everything else is kept. -/
structure PutOn (n' : Node) : Prop where
  shape : n'.shape = n.shape
  assigned : ∀ names ∈ d.assign, n'.capture = .assign names
  defined : ∀ names ∈ d.define, n'.capture = .define names
  captured : d.assign = none → d.define = none → n'.capture = n.capture
  handler : n'.handler = d.onError.or n.handler
  cleanup : n'.cleanup = d.cleanup.or n.cleanup

end Directives

/-! ## One step -/

theorem Shape.check_eq_ok_iff {s : Shape} {capture : Capture} {handler : Option Handler} :
    s.check capture handler = .ok () ↔
      (s.laterCall?.isSome → capture = .discard ∧ handler = none) := by
  cases s with
  | call c =>
      rw [Shape.check, Call.check, Shape.laterCall?]
      by_cases hmode : c.mode = .immediate
      · simp [hmode]
      · by_cases hcapture : capture = .discard <;> cases handler <;> simp [hmode, hcapture]
  | _ => simp [Shape.check, Shape.laterCall?]

theorem Shape.check_eq_error_iff {s : Shape} {capture : Capture} {handler : Option Handler}
    {e : CompileError} : s.check capture handler = .error e ↔
      ∃ c, s.laterCall? = some c ∧
        ((capture ≠ .discard ∧ e = .conflictingCallMode c.callee.render
            ("a " ++ c.mode.keyword ++ " call has no result to capture")) ∨
          (capture = .discard ∧ handler.isSome ∧ e = .conflictingCallMode c.callee.render
            ("a " ++ c.mode.keyword ++ " call has no error to handle"))) := by
  cases s with
  | call c =>
      rw [Shape.check, Call.check, Shape.laterCall?]
      by_cases hmode : c.mode = .immediate
      · simp [hmode]
      · by_cases hcapture : capture = .discard <;> cases handler <;>
          simp [hmode, hcapture, eq_comm]
  | _ => simp [Shape.check, Shape.laterCall?]

theorem Capture.ofSides_eq_error_iff {a d : Option (List String)} {e : CompileError} :
    Capture.ofSides a d = .error e ↔
      ∃ as ds, a = some as ∧ d = some ds ∧ e = .conflictingCapture as ds := by
  cases a <;> cases d <;> simp [Capture.ofSides, eq_comm]

theorem Capture.ofSides_eq_ok_iff {a d : Option (List String)} {capture : Capture} :
    Capture.ofSides a d = .ok capture ↔
      (a = none ∨ d = none) ∧ capture.assigned? = a ∧ capture.defined? = d := by
  cases a <;> cases d <;> cases capture <;>
    simp [Capture.ofSides, Capture.assigned?, Capture.defined?, eq_comm]

theorem Capture.eq_of_sides {c c' : Capture} (ha : c.assigned? = c'.assigned?)
    (hd : c.defined? = c'.defined?) : c = c' := by
  cases c <;> cases c' <;> simp_all [Capture.assigned?, Capture.defined?]

theorem Capture.eq_discard_iff {c : Capture} :
    c = .discard ↔ c.assigned? = none ∧ c.defined? = none := by
  cases c <;> simp [Capture.assigned?, Capture.defined?]

theorem Capture.side_eq_none (c : Capture) : c.assigned? = none ∨ c.defined? = none := by
  cases c <;> simp [Capture.assigned?, Capture.defined?]

/-- Joined sides give a capture that is replaced as a whole, or kept if no side is set. -/
theorem Capture.sides_eq_iff {a d : Option (List String)} {old c : Capture}
    (h : a.or old.assigned? = none ∨ d.or old.defined? = none) :
    (c.assigned? = a.or old.assigned? ∧ c.defined? = d.or old.defined?) ↔
      (∀ names ∈ a, c = .assign names) ∧ (∀ names ∈ d, c = .define names) ∧
        (a = none → d = none → c = old) := by
  cases a <;> cases d <;> cases old <;> cases c <;>
    simp_all [Capture.assigned?, Capture.defined?]

theorem Directives.PutOn.sides {d : Directives} {n n' : Node} (h : d.PutOn n n')
    (hside : d.assigned? n = none ∨ d.defined? n = none) :
    n'.capture.assigned? = d.assigned? n ∧ n'.capture.defined? = d.defined? n :=
  (Capture.sides_eq_iff hside).2 ⟨h.assigned, h.defined, h.captured⟩

namespace Node

variable {n n' : Node} {d : Directives}

/-- A step joins the sides of the capture, then checks the shape. -/
theorem direct_eq (n : Node) (d : Directives) :
    n.direct d = (Capture.ofSides (d.assigned? n) (d.defined? n)).bind fun capture =>
      (n.shape.check capture (d.handler? n)).bind fun _ =>
        .ok ⟨n.shape, capture, d.handler? n, d.cleanup.or n.cleanup⟩ := by
  simp only [direct, Option.orElse_eq_orElse, Option.orElse_eq_or]
  rfl

theorem direct_of_capture {capture : Capture}
    (h : Capture.ofSides (d.assigned? n) (d.defined? n) = .ok capture) :
    n.direct d = (n.shape.check capture (d.handler? n)).bind fun _ =>
      .ok ⟨n.shape, capture, d.handler? n, d.cleanup.or n.cleanup⟩ := by
  rw [direct_eq, h]
  rfl

/-- The reasons for which a step is refused are those given, and only one of them applies. -/
theorem direct_eq_error_iff {e : CompileError} : n.direct d = .error e ↔ d.Refused n e := by
  cases hsides : Capture.ofSides (d.assigned? n) (d.defined? n) with
  | error e' =>
      obtain ⟨as, ds, hassign, hdefine, rfl⟩ := Capture.ofSides_eq_error_iff.1 hsides
      have hdirect : n.direct d = .error (.conflictingCapture as ds) := by
        rw [direct_eq, hsides]
        rfl
      rw [hdirect]
      constructor
      · intro h
        cases h
        exact .bothSides hassign hdefine
      · intro h
        cases h with
        | bothSides ha hd => simp_all
        | result _ hone => simp [hassign, hdefine] at hone
        | error _ ha => simp [hassign] at ha
  | ok capture =>
      obtain ⟨hside, hassign, hdefine⟩ := Capture.ofSides_eq_ok_iff.1 hsides
      have hdirect : n.direct d = .error e ↔ n.shape.check capture (d.handler? n) = .error e := by
        rw [direct_of_capture hsides]
        cases n.shape.check capture (d.handler? n) <;> simp [Except.bind]
      rw [hdirect, Shape.check_eq_error_iff, ne_eq, Capture.eq_discard_iff, hassign, hdefine]
      constructor
      · rintro ⟨c, hlater, ⟨hcapture, rfl⟩ | ⟨⟨ha, hd⟩, hhandler, rfl⟩⟩
        · refine .result hlater ?_
          rcases hside with hside | hside <;> simp_all
        · exact .error hlater ha hd hhandler
      · intro h
        cases h with
        | bothSides ha hd => simp [ha, hd] at hside
        | result hlater hone =>
            refine ⟨_, hlater, .inl ⟨?_, rfl⟩⟩
            rintro ⟨ha, hd⟩
            simp [ha, hd] at hone
        | error hlater ha hd hhandler => exact ⟨_, hlater, .inr ⟨⟨ha, hd⟩, hhandler, rfl⟩⟩

/-- A step that is not refused puts its directives on the node. -/
theorem direct_eq_ok_iff : n.direct d = .ok n' ↔
    (d.assigned? n = none ∨ d.defined? n = none) ∧
    (n.shape.laterCall?.isSome →
      (d.assigned? n = none ∧ d.defined? n = none) ∧ d.handler? n = none) ∧
    d.PutOn n n' := by
  cases hsides : Capture.ofSides (d.assigned? n) (d.defined? n) with
  | error e =>
      obtain ⟨as, ds, hassign, hdefine, rfl⟩ := Capture.ofSides_eq_error_iff.1 hsides
      rw [direct_eq_error_iff.2 (.bothSides hassign hdefine)]
      simp [hassign, hdefine]
  | ok capture =>
      obtain ⟨hside, hassign, hdefine⟩ := Capture.ofSides_eq_ok_iff.1 hsides
      have hdirect : n.direct d = .ok n' ↔ n.shape.check capture (d.handler? n) = .ok () ∧
          n' = ⟨n.shape, capture, d.handler? n, d.cleanup.or n.cleanup⟩ := by
        rw [direct_of_capture hsides]
        cases n.shape.check capture (d.handler? n) <;> simp [Except.bind, eq_comm]
      rw [hdirect, Shape.check_eq_ok_iff, Capture.eq_discard_iff, hassign, hdefine]
      have hput : d.PutOn n n' ↔
          n' = ⟨n.shape, capture, d.handler? n, d.cleanup.or n.cleanup⟩ := by
        constructor
        · intro h
          obtain ⟨ha, hd⟩ := h.sides hside
          cases n' with
          | mk shape' capture' handler' cleanup' =>
              obtain rfl : capture' = capture :=
                Capture.eq_of_sides (ha.trans hassign.symm) (hd.trans hdefine.symm)
              obtain rfl : shape' = n.shape := h.shape
              obtain rfl : handler' = d.handler? n := h.handler
              obtain rfl : cleanup' = d.cleanup.or n.cleanup := h.cleanup
              rfl
        · rintro rfl
          obtain ⟨ha, hd, hkept⟩ := (Capture.sides_eq_iff hside).1 ⟨hassign, hdefine⟩
          exact ⟨rfl, ha, hd, hkept, rfl, rfl⟩
      rw [hput]
      exact ⟨fun ⟨hlater, heq⟩ => ⟨hside, hlater, heq⟩, fun ⟨_, hlater, heq⟩ => ⟨hlater, heq⟩⟩

/-! ## Any number of steps -/

/-- The nodes that are made of a shape by putting directives on them. -/
inductive Built : Node → Prop where
  | ofShape (s : Shape) : Built (.ofShape s)
  | direct {n n' : Node} {d : Directives} (h : Built n) (hstep : n.direct d = .ok n') : Built n'

/-- A call that does not run at once never gets a capture or a handler. -/
theorem Built.later (h : n.Built) (hlater : n.shape.laterCall?.isSome) :
    n.capture = .discard ∧ n.handler = none := by
  cases h with
  | ofShape s => exact ⟨rfl, rfl⟩
  | @direct n₀ _ d _ hstep =>
      -- The step checks what is on the node after it, so nothing is needed of the steps before.
      obtain ⟨hside, hchecked, hput⟩ := direct_eq_ok_iff.1 hstep
      rw [hput.shape] at hlater
      obtain ⟨⟨hassign, hdefine⟩, hhandler⟩ := hchecked hlater
      obtain ⟨ha, hd⟩ := hput.sides hside
      exact ⟨Capture.eq_discard_iff.2 ⟨ha.trans hassign, hd.trans hdefine⟩,
        hput.handler.trans hhandler⟩

/-- A step that sets nothing leaves the node as it is. -/
theorem Built.direct_nothing (h : n.Built) : n.direct {} = .ok n := by
  refine direct_eq_ok_iff.2 ⟨n.capture.side_eq_none, fun hlater => ?_, ?_⟩
  · obtain ⟨hcapture, hhandler⟩ := h.later hlater
    exact ⟨Capture.eq_discard_iff.1 hcapture, hhandler⟩
  · exact ⟨rfl, fun _ hnames => (nomatch hnames), fun _ hnames => (nomatch hnames),
      fun _ _ => rfl, rfl, rfl⟩

/-- A step fails exactly if the capture has two sides, or a call that does not run at once is left
with a capture or a handler. -/
theorem direct_fails_iff : (∃ e, n.direct d = .error e) ↔
    ((d.assigned? n).isSome ∧ (d.defined? n).isSome) ∨
      (n.shape.laterCall?.isSome ∧
        ((d.assigned? n).isSome ∨ (d.defined? n).isSome ∨ (d.handler? n).isSome)) := by
  simp only [direct_eq_error_iff]
  constructor
  · rintro ⟨e, he⟩
    cases he with
    | bothSides hassign hdefine => simp [hassign, hdefine]
    | result hlater hone =>
        refine .inr ⟨Option.isSome_of_eq_some hlater, ?_⟩
        cases hassign : d.assigned? n <;> cases hdefine : d.defined? n <;> simp_all
    | error hlater _ _ hhandler =>
        exact .inr ⟨Option.isSome_of_eq_some hlater, .inr (.inr hhandler)⟩
  · intro h
    cases hassign : d.assigned? n <;> cases hdefine : d.defined? n
    case some.some => exact ⟨_, .bothSides hassign hdefine⟩
    case none.none =>
        simp only [hassign, hdefine, Option.isSome_none, Bool.false_eq_true, false_and,
          false_or] at h
        obtain ⟨c, hlater⟩ := Option.isSome_iff_exists.1 h.1
        exact ⟨_, .error hlater hassign hdefine h.2⟩
    all_goals
      obtain ⟨c, hlater⟩ : ∃ c, n.shape.laterCall? = some c := by
        simpa [hassign, hdefine, Option.isSome_iff_exists] using h
      exact ⟨_, .result hlater (by simp [hassign, hdefine])⟩

/-- **Directives stay consistent.** However directives were put on a node, it has neither a capture
nor a handler if it is a call that does not run at once. A step fails exactly if both sides of the
capture are set after it, or if it would leave such a call with a capture or a handler; what it
reports is fixed, two sides first. A step that succeeds replaces the directives that it sets and
keeps the shape and all other directives. A step that sets nothing gives back the node. -/
theorem directives_consistent (h : n.Built) :
    (n.shape.laterCall?.isSome → n.capture = .discard ∧ n.handler = none) ∧
    (∀ d : Directives, (∃ e, n.direct d = .error e) ↔
      ((d.assigned? n).isSome ∧ (d.defined? n).isSome) ∨
        (n.shape.laterCall?.isSome ∧
          ((d.assigned? n).isSome ∨ (d.defined? n).isSome ∨ (d.handler? n).isSome))) ∧
    (∀ (d : Directives) (e : CompileError), n.direct d = .error e ↔ d.Refused n e) ∧
    (∀ (d : Directives) (n' : Node), n.direct d = .ok n' → d.PutOn n n') ∧
    n.direct {} = .ok n :=
  ⟨h.later, fun _ => direct_fails_iff, fun _ _ => direct_eq_error_iff,
    fun _ _ hstep => (direct_eq_ok_iff.1 hstep).2.2, h.direct_nothing⟩

/-- A call that runs when the function ends. -/
def closeRows : Call := ⟨.method (.ident "rows") "Close", [], false, .defer, none⟩

/-- The call after a step that gave it a cleanup. -/
def closedLater : Node := ⟨.call closeRows, .discard, none, some (.function "cancel" [])⟩

theorem closedLater_consistent : closedLater.Built ∧
    closedLater.capture = .discard ∧ closedLater.handler = none ∧
    closedLater.direct { define := some ["err"] } = .error (.conflictingCallMode "rows.Close"
      "a defer call has no result to capture") ∧
    closedLater.direct { assign := some ["a"], define := some ["b"], onError := some (.err []) } =
      .error (.conflictingCapture ["a"] ["b"]) ∧
    closedLater.direct {} = .ok closedLater := by
  have hstep : (Node.ofShape closedLater.shape).direct { cleanup := closedLater.cleanup } =
      .ok closedLater := rfl
  have hbuilt : closedLater.Built := .direct (.ofShape _) hstep
  obtain ⟨hlater, -, hrefused, -, hnothing⟩ := directives_consistent hbuilt
  refine ⟨hbuilt, (hlater rfl).1, (hlater rfl).2, ?_, ?_, hnothing⟩
  · have hone : (Directives.assigned? { define := some ["err"] } closedLater).isSome ≠
        (Directives.defined? { define := some ["err"] } closedLater).isSome := by decide
    have hcall : closedLater.shape.laterCall? = some closeRows := rfl
    exact (hrefused _ _).2 (.result hcall hone)
  · exact (hrefused _ _).2 (.bothSides rfl rfl)

end Node

end DataAccess.Go
