import Preflight.Proofs.Style.Strip
import Preflight.Proofs.Terminal.LineEditor.Typed

/-!
This module contains that the row which is being edited is what a terminal shows, with the cursor at
its position, whatever has been shown before.
-/

namespace Preflight

/--
A row of a terminal that is as wide as it needs to be: what stands in it, the column of the cursor,
and what has been read of an escape sequence.
-/
structure Screen where
  row : Text
  column : Nat
  sequence : Option Text
  deriving DecidableEq, Repr

namespace Screen

def blank : Screen := ⟨[], 0, none⟩

def print (screen : Screen) (c : Char) : Screen :=
  { screen with
    row := (screen.row.rightpad (screen.column + 1) ' ').set screen.column c
    column := screen.column + 1 }

def execute (screen : Screen) (parameters : Text) (last : Char) : Screen :=
  match parameters, last with
  | ['[', '2'], 'K' => { screen with row := [] }
  | ['[', '2'], 'J' => { screen with row := [] }
  | ['[', '1', ';', '1'], 'H' => { screen with column := 0 }
  | '[' :: digits, 'D' => { screen with column := screen.column - (Word.number? digits).getD 0 }
  | _, _ => screen

/--
Take one character of an output. An escape sequence goes on up to a letter, a new one may begin
before that, and a carriage return and a line feed have their effect in the middle of one, too.
-/
def put (screen : Screen) (c : Char) : Screen :=
  if c = '\r' then { screen with column := 0 }
  else if c = '\n' then { screen with row := [] }
  else if c = '\x1b' then { screen with sequence := some [] }
  else
    match screen.sequence with
    | none => screen.print c
    | some parameters =>
      if Word.isLetter c then { screen with sequence := none }.execute parameters c
      else { screen with sequence := some (parameters ++ [c]) }

def after (screen : Screen) (t : Text) : Screen := t.foldl put screen

variable {t : Text}

theorem after_append (screen : Screen) (s t : Text) :
    screen.after (s ++ t) = (screen.after s).after t := List.foldl_append

theorem after_cons (screen : Screen) (c : Char) (t : Text) :
    screen.after (c :: t) = (screen.put c).after t := rfl

theorem put_of_le {c : Char} (h : 0x20 ≤ c.toNat) (screen : Screen) :
    screen.put c =
      match screen.sequence with
      | none => screen.print c
      | some parameters =>
        if Word.isLetter c then { screen with sequence := none }.execute parameters c
        else { screen with sequence := some (parameters ++ [c]) } := by
  have hne : ∀ d : Char, d.toNat < 0x20 → c ≠ d := by
    rintro d hd rfl
    omega
  unfold put
  rw [if_neg (hne _ (by decide)), if_neg (hne _ (by decide)), if_neg (hne _ (by decide))]

theorem after_of_isPrintable (row : Text) (h : ∀ c ∈ t, 0x20 ≤ c.toNat) :
    after ⟨row, row.length, none⟩ t = ⟨row ++ t, (row ++ t).length, none⟩ := by
  induction t generalizing row with
  | nil => simp [after]
  | cons c t ih =>
    rw [List.forall_mem_cons] at h
    have hprint : print ⟨row, row.length, none⟩ c = ⟨row ++ [c], (row ++ [c]).length, none⟩ := by
      simp [print, List.rightpad]
    rw [after_cons, put_of_le h.1]
    dsimp only
    rw [hprint, ih _ h.2, List.append_assoc]
    rfl

section sequence

variable (row : Text) (column : Nat)

theorem after_escape (h : ∀ c ∈ t, 0x20 ≤ c.toNat ∧ Word.isLetter c = false) {last : Char}
    (hlast : 0x20 ≤ last.toNat ∧ Word.isLetter last = true) :
    after ⟨row, column, none⟩ ('\x1b' :: t ++ [last]) = execute ⟨row, column, none⟩ t last := by
  have hread : ∀ read, after ⟨row, column, some read⟩ (t ++ [last]) =
      execute ⟨row, column, none⟩ (read ++ t) last := by
    induction t with
    | nil =>
      intro read
      rw [List.nil_append, List.append_nil, after_cons, put_of_le hlast.1]
      dsimp only
      rw [if_pos hlast.2]
      rfl
    | cons c t ih =>
      intro read
      rw [List.forall_mem_cons] at h
      rw [List.cons_append, after_cons, put_of_le h.1.1]
      dsimp only
      rw [h.1.2, if_neg Bool.false_ne_true, ih h.2, List.append_assoc]
      rfl
  exact hread []

theorem number?_decimal (n : Nat) : Word.number? (Text.decimal n) = some n := by
  have hvalue : (Text.decimal n).foldl (fun n c => n * 10 + (c.toNat - 0x30)) 0 = n := by
    unfold Text.decimal
    induction n using Text.numeral.induct 10 with
    | case1 n hn ih =>
      have hlast := Nat.toNat_digitChar_of_lt_ten (Nat.mod_lt n (by decide : 0 < 10))
      rw [Text.numeral, dif_pos hn, List.foldl_append, ih, List.foldl_cons, List.foldl_nil, hlast]
      omega
    | case2 n hn =>
      have hlast := Nat.toNat_digitChar_of_lt_ten (by omega : n < 10)
      rw [Text.numeral, dif_neg hn, List.foldl_cons, List.foldl_nil, hlast]
      omega
  have hdigits : (Text.decimal n).all Word.isDigit = true := by
    rw [List.all_eq_true]
    intro c hc
    have := Text.isDigit_of_mem_decimal hc
    grind [Char.isDigit, Word.isDigit, Char.le_def]
  rw [Word.number?, if_pos hdigits, hvalue]

theorem after_left (n : Nat) :
    after ⟨row, column, none⟩ (Cursor.left n).sequence = ⟨row, column - n, none⟩ := by
  have hparameters : ∀ c ∈ '[' :: Text.decimal n, 0x20 ≤ c.toNat ∧ Word.isLetter c = false := by
    rw [List.forall_mem_cons]
    refine ⟨by decide, fun c hc => ⟨?_, Style.isLetter_of_mem_decimal hc⟩⟩
    have hdigit := Text.isDigit_of_mem_decimal hc
    unfold Char.isDigit at hdigit
    rw [Bool.and_eq_true, decide_eq_true_eq] at hdigit
    exact Nat.le_trans (by decide) (UInt32.le_iff_toNat_le.1 hdigit.1)
  have hleft : (Cursor.left n).sequence = '\x1b' :: ('[' :: Text.decimal n) ++ ['D'] := rfl
  rw [hleft, after_escape row column hparameters (by decide)]
  simp [execute, number?_decimal]

end sequence

theorem after_clearLine (screen : Screen) :
    screen.after ('\r' :: Cursor.clearLine.sequence) = blank := rfl

end Screen

namespace LineEditor

def promptBefore (editor : LineEditor) (state : State) : Text :=
  if state.committed = [] then editor.prompt else editor.continuation

section prompt

variable {editor : LineEditor} (hprompt : ∀ c ∈ editor.prompt, 0x20 ≤ c.toNat)
  (hcontinuation : ∀ c ∈ editor.continuation, 0x20 ≤ c.toNat)
include hprompt hcontinuation

theorem after_drawing {state : State} (hproper : state.IsProper) (screen : Screen) :
    screen.after (editor.drawing state) =
      ⟨editor.promptBefore state ++ state.row,
        (editor.promptBefore state ++ state.row).length -
          min (state.row.length - state.cursor) maxMove, none⟩ := by
  have hshown : (if state.continued then editor.continuation else editor.prompt) =
      editor.promptBefore state := by
    unfold promptBefore
    by_cases hcontinued : state.continued = true
    · rw [if_pos hcontinued, if_neg (hproper.continued_iff.1 hcontinued)]
    · rw [if_neg hcontinued, if_pos (not_not.1 (mt hproper.continued_iff.2 hcontinued))]
  have hprintable : ∀ c ∈ editor.promptBefore state ++ state.row, 0x20 ≤ c.toNat := by
    rw [List.forall_mem_append]
    refine ⟨?_, hproper.isPrintable⟩
    unfold promptBefore
    split
    · exact hprompt
    · exact hcontinuation
  have hrow := Screen.after_of_isPrintable [] hprintable
  unfold drawing
  dsimp only
  rw [hshown, List.append_assoc _ (editor.promptBefore state), Screen.after_append,
    Screen.after_append, Screen.after_clearLine, Screen.blank]
  rw [List.nil_append, List.length_nil] at hrow
  rw [hrow]
  split
  · exact Screen.after_left _ _ _
  · next hback => simp [Screen.after, Nat.eq_zero_of_not_pos hback]

theorem showsRow_course (console : Console) :
    (∀ n state current, editor.course console n = .waiting state current →
      ∃ shown, current.output.written = console.output.written ++ shown ∧
        ∀ screen : Screen, (screen.after shown).row = editor.promptBefore state ++ state.row ∧
          (state.row.length - state.cursor ≤ 0xFFFF →
            (screen.after shown).column = (editor.promptBefore state).length + state.cursor)) ∧
    (∃ n, editor.course console n =
      .done (editor.readLine console).1 (editor.readLine console).2) ∧
    ∀ text after, editor.readLine console = (.ok text, after) →
      ∃ shown, after.output.written = console.output.written ++ shown ++ ['\r', '\n'] := by
  refine ⟨?_, exists_course_eq_done editor console, fun text after h => (isRead_of_readLine h).2⟩
  intro n state current hwaiting
  have hcourse := isOnCourse_course editor console n
  rw [hwaiting] at hcourse
  cases hcourse with
  | waiting htyped hshown =>
    obtain ⟨shown, hshown⟩ := hshown
    refine ⟨shown ++ editor.drawing state, by rw [hshown, List.append_assoc], fun screen => ?_⟩
    rw [Screen.after_append, after_drawing hprompt hcontinuation htyped.isProper]
    refine ⟨rfl, fun hback => ?_⟩
    have hcursor := htyped.isProper.isSound.cursor_le
    dsimp only
    rw [maxMove, Nat.min_eq_left hback, List.length_append]
    omega

end prompt

def cleared : List InputItem :=
  ([0x5C, 0x0A, 0x61, 0x62, 0x1B, 0x5B, 0x44, 0x0C] : List UInt8).map .byte

theorem showsRow_course_cleared :
    (∀ c ∈ ['$', ' '], 0x20 ≤ c.toNat) ∧ (∀ c ∈ ['>', ' '], 0x20 ≤ c.toNat) ∧
      ∃ current, (ofPrompt ['$', ' ']).course ⟨.ofScript cleared, .working⟩ 15 =
          .waiting ⟨['\\', '\n'], ['a', 'b'], 1, [], true⟩ current ∧
        (Screen.blank.after current.output.written).row = ['>', ' ', 'a', 'b'] ∧
        (Screen.blank.after current.output.written).column = 3 := by
  have hprompt : ∀ c ∈ ['$', ' '], 0x20 ≤ c.toNat := by simp
  have hcontinuation : ∀ c ∈ ['>', ' '], 0x20 ≤ c.toNat := by simp
  have hwaiting : (ofPrompt ['$', ' ']).course ⟨.ofScript cleared, .working⟩ 15 =
      .waiting ⟨['\\', '\n'], ['a', 'b'], 1, [], true⟩ _ := rfl
  obtain ⟨shown, hshown, hscreen⟩ := (@showsRow_course (ofPrompt ['$', ' ']) hprompt hcontinuation
    ⟨.ofScript cleared, .working⟩).1 _ _ _ hwaiting
  obtain ⟨hrow, hcolumn⟩ := hscreen .blank
  refine ⟨hprompt, hcontinuation, _, hwaiting, ?_, ?_⟩
  · rw [hshown]
    exact hrow
  · rw [hshown]
    exact hcolumn (by decide)

end LineEditor

end Preflight
