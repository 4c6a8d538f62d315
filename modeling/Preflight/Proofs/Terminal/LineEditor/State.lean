import Preflight.Proofs.Text.Backslashes
import Preflight.Proofs.Text.Parts
import Preflight.Terminal.LineEditor

/-!
This module contains what becomes of the state of the line editor when bytes of characters are added
to it.
-/

namespace Preflight

namespace LineEditor

namespace State

def pushBytes (state : State) (bytes : List UInt8) : State :=
  bytes.foldl (fun state byte => (state.pushByte byte).1) state

@[simp]
theorem pushBytes_nil (state : State) : state.pushBytes [] = state := rfl

theorem pushBytes_cons (state : State) (byte : UInt8) (bytes : List UInt8) :
    state.pushBytes (byte :: bytes) = (state.pushByte byte).1.pushBytes bytes := rfl

theorem pushBytes_append (state : State) (bytes more : List UInt8) :
    state.pushBytes (bytes ++ more) = (state.pushBytes bytes).pushBytes more :=
  List.foldl_append

def complete (state : State) : State := { state with incomplete := [] }

@[simp]
theorem incomplete_complete (state : State) : state.complete.incomplete = [] := rfl

@[simp]
theorem committed_complete (state : State) : state.complete.committed = state.committed := rfl

@[simp]
theorem row_complete (state : State) : state.complete.row = state.row := rfl

@[simp]
theorem committed_insert (state : State) (c : Char) :
    (state.insert c).committed = state.committed := rfl

@[simp]
theorem incomplete_insert (state : State) (c : Char) :
    (state.insert c).incomplete = state.incomplete := rfl

section pushByte

variable {state : State} {lead byte : UInt8} {tails rest : List UInt8} {c : Char}

theorem pushByte_of_char (h : state.incomplete ++ [byte] = lead :: tails)
    (hscan : Utf8.scan lead tails = .char c rest) :
    state.pushByte byte = (state.complete.insert c, none) := by
  unfold pushByte
  rw [h]
  dsimp only
  rw [hscan]
  rfl

theorem pushByte_of_truncated (h : state.incomplete ++ [byte] = lead :: tails)
    (hscan : Utf8.scan lead tails = .truncated) :
    state.pushByte byte = ({ state with incomplete := lead :: tails }, none) := by
  unfold pushByte
  rw [h]
  dsimp only
  rw [hscan]

theorem pushByte_of_malformed (h : state.incomplete ++ [byte] = lead :: tails)
    (hscan : Utf8.scan lead tails = .malformed rest) :
    state.pushByte byte = (state.complete, some (lead :: tails)) := by
  unfold pushByte
  rw [h]
  dsimp only
  rw [hscan]
  rfl

end pushByte

theorem pushBytes_of_scan (state : State) {lead : UInt8} {tails : List UInt8}
    (hstate : state.incomplete = lead :: tails) (htails : Utf8.scan lead tails = .truncated)
    (bytes : List UInt8) :
    match Utf8.scan lead (tails ++ bytes) with
    | .char c rest =>
      ∃ taken, bytes = taken ++ rest ∧ state.pushBytes taken = state.complete.insert c
    | .truncated => state.pushBytes bytes = { state with incomplete := lead :: (tails ++ bytes) }
    | .malformed rest =>
      ∃ taken byte more, bytes = taken ++ byte :: more ∧ rest = byte :: more ∧
        state.pushBytes (taken ++ [byte]) = state.complete := by
  induction bytes generalizing tails state with
  | nil =>
    rw [List.append_nil, htails]
    dsimp only
    rw [pushBytes_nil, ← hstate]
  | cons byte bytes ih =>
    have happend : tails ++ byte :: bytes = (tails ++ [byte]) ++ bytes := by simp
    have hincomplete : state.incomplete ++ [byte] = lead :: (tails ++ [byte]) := by simp [hstate]
    rcases Utf8.scan_concat htails byte with h | ⟨c, h⟩ | h
    · have hpush := pushByte_of_truncated hincomplete h
      specialize ih (state.pushByte byte).1 (by rw [hpush]) h
      rw [happend]
      cases hscan : Utf8.scan lead ((tails ++ [byte]) ++ bytes) with
      | char c rest =>
        rw [hscan] at ih
        obtain ⟨taken, rfl, hpushed⟩ := ih
        refine ⟨byte :: taken, rfl, ?_⟩
        rw [pushBytes_cons, hpushed, hpush]
        rfl
      | truncated =>
        rw [hscan] at ih
        dsimp only at ih ⊢
        rw [pushBytes_cons, ih, hpush]
      | malformed rest =>
        rw [hscan] at ih
        obtain ⟨taken, last, more, rfl, rfl, hpushed⟩ := ih
        refine ⟨byte :: taken, last, more, rfl, rfl, ?_⟩
        rw [List.cons_append, pushBytes_cons, hpushed, hpush]
        rfl
    · rw [happend, Utf8.scan_append_of_char h]
      exact ⟨[byte], rfl, by rw [pushBytes_cons, pushByte_of_char hincomplete h, pushBytes_nil]⟩
    · rw [happend, Utf8.scan_append_of_malformed h]
      refine ⟨[], byte, bytes, rfl, rfl, ?_⟩
      rw [List.nil_append, pushBytes_cons, pushByte_of_malformed hincomplete h, pushBytes_nil]

theorem complete_eq {state : State} (h : state.incomplete = []) : state.complete = state := by
  unfold complete
  rw [← h]

theorem insert_at_end {state : State} (h : state.cursor = state.row.length) (c : Char) :
    state.insert c =
      { state with row := state.row ++ [c], cursor := (state.row ++ [c]).length } := by
  simp [insert, h]

theorem pushByte_of_lead?_eq_none {state : State} {byte : UInt8}
    (hincomplete : state.incomplete = []) (h : Utf8.lead? byte = none) :
    (state.pushByte byte).1 = state := by
  have happend : state.incomplete ++ [byte] = [byte] := by simp [hincomplete]
  rw [pushByte_of_malformed happend (Utf8.scan_of_lead?_eq_none h []), complete_eq hincomplete]

theorem pushBytes_of_isTail {state : State} {bytes : List UInt8}
    (hincomplete : state.incomplete = []) (h : ∀ b ∈ bytes, Utf8.IsTail b) :
    state.pushBytes bytes = state := by
  induction bytes with
  | nil => rfl
  | cons b bytes ih =>
    simp only [List.mem_cons, forall_eq_or_imp] at h
    rw [pushBytes_cons, pushByte_of_lead?_eq_none hincomplete (Utf8.lead?_of_isTail h.1)]
    apply ih h.2

theorem pushBytes_cons_of_scan {state : State} (h : state.incomplete = []) (b : UInt8)
    (bytes : List UInt8) :
    match Utf8.scan b bytes with
    | .char c rest => ∃ taken, bytes = taken ++ rest ∧ state.pushBytes (b :: taken) = state.insert c
    | .truncated => state.pushBytes (b :: bytes) = { state with incomplete := b :: bytes }
    | .malformed rest =>
      Utf8.lead? b = none ∧ rest = bytes ∧ state.pushBytes [b] = state ∨
        Utf8.lead? b ≠ none ∧ ∃ taken byte more, bytes = taken ++ byte :: more ∧
          rest = byte :: more ∧ state.pushBytes (b :: (taken ++ [byte])) = state := by
  have hincomplete : state.incomplete ++ [b] = [b] := by simp [h]
  rcases Utf8.scan_nil b with ⟨hfirst, hlead⟩ | ⟨c, hfirst⟩ | hlead
  · have hpush := pushByte_of_truncated hincomplete hfirst
    have hrest := pushBytes_of_scan (state.pushByte b).1 (by rw [hpush]) hfirst bytes
    have hcomplete : (state.pushByte b).1.complete = state := by
      rw [hpush, ← complete_eq h]
      rfl
    rw [List.nil_append, hcomplete] at hrest
    cases hscan : Utf8.scan b bytes with
    | char c rest =>
      rw [hscan] at hrest
      exact hrest
    | truncated =>
      rw [hscan] at hrest
      dsimp only at hrest ⊢
      rw [pushBytes_cons, hrest, hpush]
    | malformed rest =>
      rw [hscan] at hrest
      right
      exact ⟨hlead, hrest⟩
  · have hscan := Utf8.scan_append_of_char hfirst bytes
    rw [List.nil_append] at hscan
    rw [hscan]
    refine ⟨[], rfl, ?_⟩
    rw [pushBytes_cons, pushByte_of_char hincomplete hfirst, complete_eq h, pushBytes_nil]
  · have hfirst := Utf8.scan_of_lead?_eq_none hlead []
    rw [Utf8.scan_of_lead?_eq_none hlead]
    left
    refine ⟨hlead, rfl, ?_⟩
    rw [pushBytes_cons, pushByte_of_malformed hincomplete hfirst, complete_eq h, pushBytes_nil]

theorem pushBytes_encodeChar {state : State} (h : state.incomplete = []) (c : Char) :
    state.pushBytes (Utf8.encodeChar c) = state.insert c := by
  obtain ⟨b, bytes, heq, hscan⟩ := Utf8.scan_encodeChar c []
  rw [List.append_nil] at heq
  have htaken := pushBytes_cons_of_scan h b bytes
  rw [hscan] at htaken
  obtain ⟨taken, rfl, hpush⟩ := htaken
  rw [heq, List.append_nil, hpush]

theorem isContinued_iff (state : State) :
    state.isContinued = true ↔ Odd (Text.backslashesAtEnd state.row) := by
  simp [isContinued, Text.backslashesAtEnd, List.rtakeWhile, Nat.odd_iff]

structure IsSound (state : State) : Prop where
  cursor_le : state.cursor ≤ state.row.length
  isOpen : state.incomplete = [] ∨
    ∃ lead tails, state.incomplete = lead :: tails ∧ Utf8.scan lead tails = .truncated

section IsSound

variable {state : State} (h : state.IsSound)
include h

theorem IsSound.complete : state.complete.IsSound := ⟨h.cursor_le, .inl rfl⟩

theorem IsSound.length_insert (c : Char) :
    (state.insert c).row.length = state.row.length + 1 := by
  simp [State.insert, List.length_insertIdx, h.cursor_le]

theorem IsSound.insert (c : Char) : (state.insert c).IsSound := by
  constructor
  · rw [h.length_insert]
    apply Nat.succ_le_succ h.cursor_le
  · exact h.isOpen

theorem IsSound.pushByte_cases (byte : UInt8) :
    (∃ c, (state.pushByte byte).1 = state.complete.insert c) ∨
      (∃ lead tails, state.incomplete ++ [byte] = lead :: tails ∧
        Utf8.scan lead tails = .truncated ∧
        (state.pushByte byte).1 = { state with incomplete := lead :: tails }) ∨
      (state.pushByte byte).1 = state.complete ∧
        (state.incomplete = [] → Utf8.lead? byte = none) := by
  rcases h.isOpen with hincomplete | ⟨lead, tails, hincomplete, htails⟩
  · have happend : state.incomplete ++ [byte] = [byte] := by simp [hincomplete]
    rcases Utf8.scan_nil byte with ⟨hscan, _⟩ | ⟨c, hscan⟩ | hlead
    · right
      left
      exact ⟨byte, [], happend, hscan, by rw [pushByte_of_truncated happend hscan]⟩
    · left
      exact ⟨c, by rw [pushByte_of_char happend hscan]⟩
    · right
      right
      rw [pushByte_of_malformed happend (Utf8.scan_of_lead?_eq_none hlead [])]
      exact ⟨rfl, fun _ => hlead⟩
  · have happend : state.incomplete ++ [byte] = lead :: (tails ++ [byte]) := by simp [hincomplete]
    rcases Utf8.scan_concat htails byte with hscan | ⟨c, hscan⟩ | hscan
    · right
      left
      exact ⟨lead, _, happend, hscan, by rw [pushByte_of_truncated happend hscan]⟩
    · left
      exact ⟨c, by rw [pushByte_of_char happend hscan]⟩
    · right
      right
      rw [pushByte_of_malformed happend hscan]
      simp [hincomplete]

theorem IsSound.pushByte_of_ascii {byte : UInt8} (hbyte : byte.toNat < 0x80) :
    (state.pushByte byte).1 =
      if state.incomplete = [] then state.insert (Char.ofNat byte.toNat) else state.complete := by
  rcases h.isOpen with hincomplete | ⟨lead, tails, hincomplete, htails⟩
  · have happend : state.incomplete ++ [byte] = [byte] := by simp [hincomplete]
    rw [pushByte_of_char happend (Utf8.scan_of_ascii hbyte []), if_pos hincomplete]
    rw [complete_eq hincomplete]
  · have happend : state.incomplete ++ [byte] = lead :: (tails ++ [byte]) := by simp [hincomplete]
    have hscan := Utf8.scan_append_cons hbyte lead tails []
    rw [htails] at hscan
    rw [pushByte_of_malformed happend hscan, if_neg]
    simp [hincomplete]

theorem IsSound.pushByte (byte : UInt8) : (state.pushByte byte).1.IsSound := by
  rcases h.pushByte_cases byte with ⟨c, heq⟩ | ⟨lead, tails, _, hscan, heq⟩ | ⟨heq, _⟩
  · rw [heq]
    apply h.complete.insert
  · rw [heq]
    exact ⟨h.cursor_le, .inr ⟨lead, tails, rfl, hscan⟩⟩
  · rw [heq]
    apply h.complete

theorem IsSound.pushBytes (bytes : List UInt8) : (state.pushBytes bytes).IsSound := by
  induction bytes generalizing state with
  | nil => exact h
  | cons byte bytes ih =>
    rw [pushBytes_cons]
    apply ih (h.pushByte byte)

theorem IsSound.press (key : Key) : (state.press key).IsSound := by
  have hcursor := h.cursor_le
  cases key with
  | backspace =>
    unfold State.press
    dsimp only
    split
    · refine ⟨?_, h.isOpen⟩
      dsimp only
      rw [List.length_eraseIdx_of_lt]
      · omega
      · omega
    · exact h
  | delete =>
    unfold State.press
    dsimp only
    split
    · next hlt =>
      refine ⟨?_, h.isOpen⟩
      dsimp only
      rw [List.length_eraseIdx_of_lt hlt]
      omega
    · exact h
  | arrowLeft =>
    refine ⟨?_, h.isOpen⟩
    simp only [State.press]
    omega
  | arrowRight => exact ⟨Nat.min_le_right _ _, h.isOpen⟩
  | home => exact ⟨Nat.zero_le _, h.isOpen⟩
  | end_ => exact ⟨Nat.le_refl _, h.isOpen⟩
  | _ => exact h

theorem IsSound.nextRow : state.nextRow.IsSound := ⟨Nat.zero_le _, h.isOpen⟩

end IsSound

theorem isSound_start : start.IsSound := ⟨Nat.zero_le _, .inl rfl⟩

end State

end LineEditor

end Preflight
