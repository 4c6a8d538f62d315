import Preflight.Proofs.Terminal.LineEditor

/-!
This module contains which characters of a text are lost while it is typed if there are bytes among
its bytes that belong to no character.
-/

namespace Preflight

namespace LineEditor

open Utf8 (Part parts)

/--
The characters that the editor keeps of the parts of a byte sequence. With a character that is broken
off it drops the byte that breaks it off, so that the part with this byte is lost as well.
-/
def kept : List Part → Text
  | [] => []
  | .char c :: ps => c :: kept ps
  | .stray :: ps => kept ps
  | [.broken] => []
  | .broken :: _ :: ps => kept ps

def brokenAtEnd (ps : List Part) : Nat := (ps.rtakeWhile (· == .broken)).length

def AreIntact (ps : List Part) : Prop :=
  ∀ front c back, ps = front ++ .char c :: back → Even (brokenAtEnd front)

section AreIntact

variable {block ps : List Part}

theorem even_brokenAtEnd_append (h : Even (brokenAtEnd block)) :
    Even (brokenAtEnd (block ++ ps)) ↔ Even (brokenAtEnd ps) := by
  unfold brokenAtEnd List.rtakeWhile at *
  rw [List.reverse_append, List.takeWhile_append]
  split
  · next hall =>
    rw [List.length_reverse] at h hall
    simp [hall, h, Nat.even_add]
  · rfl

theorem areIntact_append (h : Even (brokenAtEnd block)) :
    AreIntact (block ++ ps) ↔ AreIntact block ∧ AreIntact ps := by
  constructor
  · intro hintact
    constructor
    · rintro front c back rfl
      apply hintact front c (back ++ ps)
      simp
    · rintro front c back rfl
      rw [← even_brokenAtEnd_append h]
      apply hintact (block ++ front) c back
      simp
  · rintro ⟨hblock, hps⟩ front c back heq
    rw [List.append_eq_append_iff] at heq
    rcases heq with ⟨front', rfl, hsplit⟩ | ⟨rest, hfront, hsplit⟩
    · rw [even_brokenAtEnd_append h]
      apply hps front' c back hsplit
    · cases rest with
      | nil =>
        rw [List.append_nil] at hfront
        rwa [← hfront]
      | cons part rest =>
        rw [List.cons_append, List.cons.injEq] at hsplit
        rw [← hsplit.1] at hfront
        apply hblock front c rest hfront

theorem areIntact_of_forall_notMem (h : ∀ c, .char c ∉ ps) : AreIntact ps := by
  rintro front c back rfl
  exact absurd (by simp) (h c)

theorem areIntact_cons_char (c : Char) : AreIntact (.char c :: ps) ↔ AreIntact ps := by
  have hintact : AreIntact [.char c] := by
    intro front d back heq
    cases front with
    | nil => decide
    | cons part front => simp at heq
  have happend := @areIntact_append [.char c] ps (by simp [brokenAtEnd, List.rtakeWhile])
  simpa [hintact] using happend

theorem areIntact_append_of_forall_notMem (hlost : ∀ c, .char c ∉ block)
    (h : Even (brokenAtEnd block)) : AreIntact (block ++ ps) ↔ AreIntact ps := by
  rw [areIntact_append h]
  simp [areIntact_of_forall_notMem hlost]

end AreIntact

theorem kept_sublist (ps : List Part) : (kept ps).Sublist (ps.filterMap Part.char?) := by
  fun_induction kept ps with
  | case1 => simp
  | case2 c ps ih => simpa using ih
  | case3 ps ih => simpa [List.filterMap_cons] using ih
  | case4 => simp
  | case5 part ps ih =>
    cases part with
    | char c => simpa [List.filterMap_cons] using ih.cons c
    | stray => simpa [List.filterMap_cons] using ih
    | broken => simpa [List.filterMap_cons] using ih

theorem kept_eq_iff (ps : List Part) :
    kept ps = ps.filterMap Part.char? ↔ AreIntact ps := by
  fun_induction kept ps with
  | case1 => simp [AreIntact]
  | case2 c ps ih => simp [areIntact_cons_char, ih]
  | case3 ps ih =>
    have hstray : AreIntact (.stray :: ps) ↔ AreIntact ps :=
      @areIntact_append_of_forall_notMem [.stray] ps (by simp) (by decide)
    simpa [List.filterMap_cons, hstray] using ih
  | case4 => simp [areIntact_of_forall_notMem]
  | case5 part ps ih =>
    cases part with
    | char c =>
      -- The character is lost, and there are not enough others to make up for it.
      have hlength := (kept_sublist ps).length_le
      constructor
      · intro heq
        have := congrArg List.length heq
        simp [List.filterMap_cons] at this
        omega
      · intro hintact
        have := hintact [.broken] c ps rfl
        contradiction
    | stray =>
      have hstray : AreIntact (.broken :: .stray :: ps) ↔ AreIntact ps :=
        @areIntact_append_of_forall_notMem [.broken, .stray] ps (by simp) (by decide)
      simpa [List.filterMap_cons, hstray] using ih
    | broken =>
      have hbroken : AreIntact (.broken :: .broken :: ps) ↔ AreIntact ps :=
        @areIntact_append_of_forall_notMem [.broken, .broken] ps (by simp) (by decide)
      simpa [List.filterMap_cons, hbroken] using ih

namespace State

def append (state : State) (t : Text) : State :=
  { state with row := state.row ++ t, cursor := (state.row ++ t).length }

variable {state : State}

theorem append_nil (h : state.cursor = state.row.length) : state.append [] = state := by
  simp [append, ← h]

theorem append_cons (c : Char) (t : Text) : state.append (c :: t) = (state.append [c]).append t := by
  simp [append]

theorem exists_rest_of_lost (h : state.incomplete = []) (byte : UInt8) (more : List UInt8) :
    ∃ rest, rest.length ≤ more.length ∧
      kept (.broken :: parts (byte :: more)) = kept (parts rest) ∧
      state.pushBytes more = state.pushBytes rest := by
  obtain ⟨part, tails, rest, hparts, rfl, htails⟩ := Utf8.exists_parts_cons byte more
  refine ⟨rest, by simp, ?_, ?_⟩
  · rw [hparts, kept]
  · rw [pushBytes_append, pushBytes_of_isTail h htails]

theorem exists_pushBytes_eq (hincomplete : state.incomplete = [])
    (hcursor : state.cursor = state.row.length) (bytes : List UInt8) :
    ∃ incomplete, state.pushBytes bytes =
      { state.append (kept (parts bytes)) with incomplete := incomplete } := by
  -- Not along the parts, as two of them are used up where a character is broken off.
  induction hlength : bytes.length using Nat.strong_induction_on generalizing state bytes with
  | _ n ih =>
    cases bytes with
    | nil =>
      refine ⟨[], ?_⟩
      rw [Utf8.parts_nil, kept, append_nil hcursor]
      apply (complete_eq hincomplete).symm
    | cons b bytes =>
      have hpush := pushBytes_cons_of_scan hincomplete b bytes
      cases hscan : Utf8.scan b bytes with
      | char c rest =>
        rw [hscan] at hpush
        obtain ⟨taken, rfl, hpush⟩ := hpush
        have hinsert : state.insert c = state.append [c] := insert_at_end hcursor c
        obtain ⟨incomplete, hrest⟩ := @ih rest.length (by simp at hlength; omega)
          (state.append [c]) hincomplete rfl rest rfl
        refine ⟨incomplete, ?_⟩
        rw [← List.cons_append, pushBytes_append, hpush, hinsert, hrest]
        rw [List.cons_append, Utf8.parts_cons_of_char hscan, kept, ← append_cons]
      | truncated =>
        rw [hscan] at hpush
        refine ⟨b :: bytes, ?_⟩
        rw [hpush, Utf8.parts_cons_of_truncated hscan, kept, append_nil hcursor]
      | malformed rest =>
        rw [hscan] at hpush
        rw [Utf8.parts_cons_of_malformed hscan]
        rcases hpush with ⟨hlead, rfl, hpush⟩ | ⟨hlead, taken, byte, more, rfl, rfl, hpush⟩
        · obtain ⟨incomplete, hrest⟩ := ih rest.length (by simp at hlength; omega)
            hincomplete hcursor rest rfl
          refine ⟨incomplete, ?_⟩
          rw [← List.singleton_append, pushBytes_append, hpush, hrest]
          simp [hlead, kept]
        · obtain ⟨rest, hle, hkept, hrest⟩ := exists_rest_of_lost hincomplete byte more
          obtain ⟨incomplete, hpushed⟩ := ih rest.length (by simp at hlength; omega)
            hincomplete hcursor rest rfl
          have hsplit : b :: (taken ++ byte :: more) = b :: (taken ++ [byte]) ++ more := by simp
          refine ⟨incomplete, ?_⟩
          rw [hsplit, pushBytes_append, hpush, hrest, hpushed]
          rw [if_pos (Option.isSome_iff_ne_none.2 hlead), hkept]

end State

theorem lineOf_concat_enter_iff (editor : LineEditor) (decoder : Decoder) {output : Output}
    (houtput : output.IsWorking) {bytes : List UInt8} (htext : ∀ byte ∈ bytes, IsTextByte byte)
    (heven : Even (Text.backslashesAtEnd (Utf8.wellFormed bytes))) :
    editor.lineOf decoder output (bytes ++ [0x0D]) = .ok (Utf8.wellFormed bytes) ↔
      AreIntact (parts bytes) := by
  obtain ⟨incomplete, hpush⟩ := @State.exists_pushBytes_eq .start rfl rfl bytes
  have hfollow : editor.follow .start bytes = .ok ⟨State.start.pushBytes bytes, .ground⟩ :=
    follow_text htext
  rw [lineOf_eq houtput, follow_append, hfollow, hpush, ← kept_eq_iff]
  rw [← Utf8.wellFormed_eq_filterMap_parts]
  change conclude (editor.follow ⟨_, .ground⟩ [0x0D]) = _ ↔ _
  rw [follow_enter (.inl rfl)]
  constructor
  · intro h
    split at h
    · contradiction
    · simpa [conclude, State.append, State.start] using h
  · intro h
    rw [if_neg]
    · simp [conclude, State.append, State.start, h]
    · simpa [State.append, State.start, h] using heven

def strayBetween : List UInt8 := [0x61, 0xFF, 0x62]

theorem parts_strayBetween : parts strayBetween = [.char 'a', .stray, .char 'b'] := by
  have hstray : Utf8.scan 0xFF [0x62] = .malformed [0x62] := rfl
  unfold strayBetween
  rw [Utf8.parts_cons_of_char (Utf8.scan_of_ascii (by decide) _)]
  rw [Utf8.parts_cons_of_malformed hstray]
  rw [Utf8.parts_cons_of_char (Utf8.scan_of_ascii (by decide) _), Utf8.parts_nil]
  rfl

theorem lineOf_strayBetween_iff :
    Output.working.IsWorking ∧ (∀ byte ∈ strayBetween, IsTextByte byte) ∧
      Even (Text.backslashesAtEnd (Utf8.wellFormed strayBetween)) ∧
      ((ofPrompt ['$', ' ']).lineOf .ground .working (strayBetween ++ [0x0D]) =
          .ok (Utf8.wellFormed strayBetween) ↔
        AreIntact (parts strayBetween)) := by
  have htext : ∀ byte ∈ strayBetween, IsTextByte byte := by
    simp [strayBetween, IsTextByte]
  have heven : Even (Text.backslashesAtEnd (Utf8.wellFormed strayBetween)) := by
    rw [Utf8.wellFormed_eq_filterMap_parts, parts_strayBetween]
    decide
  exact ⟨⟨rfl, rfl⟩, htext, heven, lineOf_concat_enter_iff _ _ ⟨rfl, rfl⟩ htext heven⟩

def brokenOff : List UInt8 := [0xC3, 0x61]

theorem parts_brokenOff : parts brokenOff = [.broken, .char 'a'] := by
  have hbroken : Utf8.scan 0xC3 [0x61] = .malformed [0x61] := rfl
  unfold brokenOff
  rw [Utf8.parts_cons_of_malformed hbroken]
  rw [Utf8.parts_cons_of_char (Utf8.scan_of_ascii (by decide) _), Utf8.parts_nil]
  rfl

theorem lineOf_brokenOff :
    (∀ byte ∈ brokenOff, IsTextByte byte) ∧ Utf8.wellFormed brokenOff = ['a'] ∧
      Even (Text.backslashesAtEnd ['a']) ∧
      (ofPrompt ['$', ' ']).lineOf .ground .working (brokenOff ++ [0x0D]) = .ok [] := by
  refine ⟨by simp [brokenOff, IsTextByte], ?_, by decide, ?_⟩
  · rw [Utf8.wellFormed_eq_filterMap_parts, parts_brokenOff]
    rfl
  · rw [lineOf_eq ⟨rfl, rfl⟩]
    rfl

end LineEditor

end Preflight
