import Mathlib.Logic.Function.Iterate
import Preflight.Proofs.Terminal.LineEditor

/-!
This module contains the course that the reading of a command line takes, from one key and one
redrawing of the row to the next, whatever happens on the input and on the output.
-/

namespace Preflight

namespace LineEditor

/--
A point in the reading of a command line: the row is about to be redrawn behind something else, or
it is shown and a key is waited for, or the line is about to be left, or the reading is over.
-/
inductive Point where
  | drawing (state : State) (before : Text) (console : Console)
  | waiting (state : State) (console : Console)
  | leaving (result : Except ReadError Text) (console : Console)
  | done (result : Except ReadError Text) (console : Console)

def Point.start (console : Console) : Point :=
  .drawing .start [] { console with reader := console.reader.resetDecoder }

def respond (state : State) (console : Console) : Reaction → Point
  | .ignored => .waiting state console
  | .redrawn state before => .drawing state before console
  | .finished text => .leaving (.ok text) console
  | .ended => .leaving (.error .ended) console

def next (editor : LineEditor) : Point → Point
  | .drawing state before console =>
    match console.output.emit (before ++ editor.drawing state) with
    | (.ok (), output) => .waiting state { console with output := output }
    | (.error error, output) => .done (.error error) { console with output := output }
  | .waiting state console =>
    match console.reader.readKey with
    | (.error error, reader) => .done (.error error) { console with reader := reader }
    | (.ok (byte, decoded), reader) =>
      respond state { console with reader := reader } (editor.react state byte decoded)
  | .leaving result console =>
    match console.output.emit ['\r', '\n'] with
    | (.ok (), output) => .done result { console with output := output }
    | (.error error, output) => .done (.error error) { console with output := output }
  | .done result console => .done result console

def course (editor : LineEditor) (console : Console) (n : Nat) : Point :=
  editor.next^[n] (.start console)

variable {editor : LineEditor}

inductive Step (editor : LineEditor) : Point → Point → Prop where
  | drawn {state before console output}
    (hemit : console.output.emit (before ++ editor.drawing state) = (.ok (), output)) :
    Step editor (.drawing state before console) (.waiting state { console with output := output })
  | drawFailed {state before console error output}
    (hemit : console.output.emit (before ++ editor.drawing state) = (.error error, output)) :
    Step editor (.drawing state before console)
      (.done (.error error) { console with output := output })
  | read {state console byte decoded reader}
    (hread : console.reader.readKey = (.ok (byte, decoded), reader)) :
    Step editor (.waiting state console)
      (respond state { console with reader := reader } (editor.react state byte decoded))
  | readFailed {state console error reader}
    (hread : console.reader.readKey = (.error error, reader)) :
    Step editor (.waiting state console) (.done (.error error) { console with reader := reader })
  | left {result console output} (hemit : console.output.emit ['\r', '\n'] = (.ok (), output)) :
    Step editor (.leaving result console) (.done result { console with output := output })
  | leaveFailed {result console error output}
    (hemit : console.output.emit ['\r', '\n'] = (.error error, output)) :
    Step editor (.leaving result console) (.done (.error error) { console with output := output })
  | done {result console} : Step editor (.done result console) (.done result console)

theorem step_next (point : Point) : editor.Step point (editor.next point) := by
  cases point with
  | drawing state before console =>
    rw [next]
    split
    · next hemit => exact .drawn hemit
    · next hemit => exact .drawFailed hemit
  | waiting state console =>
    rw [next]
    split
    · next hread => exact .readFailed hread
    · next hread => exact .read hread
  | leaving result console =>
    rw [next]
    split
    · next hemit => exact .left hemit
    · next hemit => exact .leaveFailed hemit
  | done result console => exact .done

section outcome

def outcome (editor : LineEditor) : Point → Except ReadError Text × Console
  | .drawing state before console =>
    match console.output.emit (before ++ editor.drawing state) with
    | (.ok (), output) => editor.edit state { console with output := output }
    | (.error error, output) => (.error error, { console with output := output })
  | .waiting state console => editor.edit state console
  | .leaving result console =>
    match console.output.emit ['\r', '\n'] with
    | (.ok (), output) => (result, { console with output := output })
    | (.error error, output) => (.error error, { console with output := output })
  | .done result console => (result, console)

theorem Step.outcome_eq {point point' : Point} (h : editor.Step point point') :
    editor.outcome point = editor.outcome point' := by
  cases h with
  | drawn hemit => simp only [outcome, hemit]
  | drawFailed hemit => simp only [outcome, hemit]
  | @read state console byte decoded reader hread =>
    rw [outcome, edit_eq, hread, resume]
    cases editor.react state byte decoded <;> rfl
  | readFailed hread => rw [outcome, edit_eq, hread, resume, outcome]
  | left hemit => simp only [outcome, hemit]
  | leaveFailed hemit => simp only [outcome, hemit]
  | done => rfl

theorem outcome_iterate (point : Point) (n : Nat) :
    editor.outcome (editor.next^[n] point) = editor.outcome point := by
  induction n with
  | zero => rfl
  | succ n ih =>
    rw [Function.iterate_succ_apply', ← ih]
    exact (step_next _).outcome_eq.symm

def Point.remaining : Point → Nat
  | .drawing _ _ console => 2 * console.reader.script.length + 2
  | .waiting _ console => 2 * console.reader.script.length + 1
  | .leaving _ _ => 1
  | .done _ _ => 0

theorem Step.remaining_lt {point point' : Point} (h : editor.Step point point') :
    point'.remaining < point.remaining ∨ ∃ result after, point = .done result after := by
  cases h with
  | drawn hemit => exact .inl (Nat.lt_succ_self _)
  | drawFailed hemit => exact .inl (Nat.succ_pos _)
  | @read state console byte decoded reader hread =>
    have hlt := Reader.length_readKey_lt hread
    left
    cases editor.react state byte decoded <;> simp only [respond, Point.remaining] <;> omega
  | readFailed hread => exact .inl (Nat.succ_pos _)
  | left hemit => exact .inl Nat.one_pos
  | leaveFailed hemit => exact .inl Nat.one_pos
  | done => exact .inr ⟨_, _, rfl⟩

theorem exists_iterate_eq_done (editor : LineEditor) (point : Point) :
    ∃ n result after, editor.next^[n] point = .done result after := by
  have hstep : editor.Step point (editor.next point) := step_next point
  rcases hstep.remaining_lt with hlt | ⟨result, after, rfl⟩
  · obtain ⟨n, result, after, heq⟩ := exists_iterate_eq_done editor (editor.next point)
    exact ⟨n + 1, result, after, heq⟩
  · exact ⟨0, result, after, rfl⟩
termination_by point.remaining

theorem outcome_start (console : Console) :
    editor.outcome (.start console) = editor.readLine console := by
  unfold outcome Point.start readLine
  rfl

theorem readLine_of_course {n : Nat} {result : Except ReadError Text} {after : Console}
    (h : editor.course console n = .done result after) :
    editor.readLine console = (result, after) := by
  rw [← outcome_start, ← outcome_iterate _ n]
  exact congrArg editor.outcome h

theorem exists_course_eq_done (editor : LineEditor) (console : Console) :
    ∃ n, editor.course console n =
      .done (editor.readLine console).1 (editor.readLine console).2 := by
  obtain ⟨n, result, after, heq⟩ := exists_iterate_eq_done editor (.start console)
  exact ⟨n, by rw [readLine_of_course heq]; exact heq⟩

end outcome

end LineEditor

end Preflight
