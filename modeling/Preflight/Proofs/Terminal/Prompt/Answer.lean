import Preflight.Proofs.Style.Rendition
import Preflight.Proofs.Terminal.LineEditor
import Preflight.Proofs.Terminal.Prompt

/-!
This module contains what a question takes off the input before it is answered, and what is shown
of the answer.
-/

namespace Preflight

def InputItem.byte? : InputItem → Option UInt8
  | byte b => some b
  | _ => none

theorem Decoder.of_feed_eq_enter {decoder : Decoder} {byte : UInt8} {modifiers : Modifiers}
    (h : (decoder.feed byte).2 = .event ⟨.enter, modifiers⟩) :
    decoder = .ground ∧ (byte = 0x0D ∨ byte = 0x0A) := by
  cases decoder with
  | ground =>
    refine ⟨rfl, ?_⟩
    unfold feed singleKey? at h
    grind
  | escape =>
    unfold feed at h
    grind
  | sequence first second semicolon =>
    -- The last byte of a sequence may stand for a key, but never for Enter.
    have hne := finalKey?_ne_enter first byte
    unfold feed at h
    grind

namespace Output

theorem emit_of_isWorking {output : Output} (h : output.IsWorking) (t : Text) :
    output.emit t =
      (.ok (), { output with written := output.written ++ t, flushes := output.flushes + 1 }) := by
  obtain ⟨hflush, hafter⟩ := h
  simp [emit, write, flush, isBroken, hflush, hafter]

end Output

namespace Reader

theorem exists_of_await_eq_ok {script rest : List InputItem} {flag flag' : Bool} {byte : UInt8}
    (h : await script flag = (.ok byte, rest, flag')) :
    ∃ skipped, script = skipped ++ .byte byte :: rest ∧
      skipped.filterMap InputItem.byte? = [] ∧ byte ≠ ctrlC := by
  fun_induction await script flag with
  | case1 => simp at h
  | case2 flag b script =>
    refine ⟨[], ?_⟩
    split at h
    · simp at h
    · simp_all
  | case3 flag script ih =>
    obtain ⟨skipped, rfl, hskipped, hbyte⟩ := ih h
    exact ⟨.flag :: skipped, rfl, hskipped, hbyte⟩
  | case4 => simp at h
  | case5 raises script flag hflag ih =>
    obtain ⟨skipped, rfl, hskipped, hbyte⟩ := ih h
    exact ⟨.cut raises :: skipped, rfl, hskipped, hbyte⟩
  | case6 => simp at h
  | case7 error script flag hretried hflag ih =>
    obtain ⟨skipped, rfl, hskipped, hbyte⟩ := ih h
    exact ⟨.failure error :: skipped, rfl, hskipped, hbyte⟩
  | case8 => simp at h
  | case9 => simp at h

theorem exists_of_readKey_eq_ok {reader next : Reader} {byte : UInt8} {decoded : Decoded}
    (h : reader.readKey = (.ok (byte, decoded), next)) :
    ∃ skipped, reader.script = skipped ++ .byte byte :: next.script ∧
      skipped.filterMap InputItem.byte? = [] ∧ byte ≠ ctrlC ∧
      reader.decoder.feed byte = (next.decoder, decoded) := by
  unfold readKey at h
  split at h
  · next read after hread =>
    simp only [Prod.mk.injEq, Except.ok.injEq] at h
    obtain ⟨⟨rfl, rfl⟩, rfl⟩ := h
    unfold readByte at hread
    split at hread
    · simp at hread
    · split at hread
      · simp at hread
      · next result script flag _ hawait =>
        simp only [Prod.mk.injEq] at hread
        obtain ⟨rfl, rfl⟩ := hread
        obtain ⟨skipped, hscript, hskipped, hbyte⟩ := exists_of_await_eq_ok hawait
        exact ⟨skipped, hscript, hskipped, hbyte, rfl⟩
  · simp at h

end Reader

namespace Prompt

def IsEnter (byte : UInt8) : Prop := byte = 0x0D ∨ byte = 0x0A

def IsOption (options : List Char) (byte : UInt8) : Prop :=
  byte < 0x80 ∧ Char.ofNat byte.toNat ∈ options

/--
Whether a question is still open after some bytes: Ctrl-C is not among them, and wherever one of
them comes outside of an escape sequence it is neither Enter nor Ctrl-D nor an option.
-/
structure LeavesOpen (options : List Char) (bytes : List UInt8) : Prop where
  notMem : Reader.ctrlC ∉ bytes
  undecided : ∀ front byte back, bytes = front ++ byte :: back →
    Decoder.ground.after front = .ground →
      ¬IsEnter byte ∧ byte ≠ ctrlD ∧ ¬IsOption options byte

structure IsAnswered (options : List Char) (bytes : List UInt8) (last : UInt8) (c : Char) :
    Prop where
  mem : c ∈ options
  leavesOpen : LeavesOpen options bytes
  isLast : IsEnter last ∧ Decoder.ground.after bytes = .ground ∧ options.head? = some c ∨
    last < 0x80 ∧ last.toNat = c.toNat

inductive IsTag : Option Color → Text → Prop where
  | plain : IsTag none "ask".toList
  | colored (color : Color) :
    IsTag (some color) (color.ink ++ "ask".toList ++ Style.rendition [0, 0, 0])

inductive IsQuestion (manner : Manner) (message : Text) : List Char → Text → Prop where
  | intro {tag : Text} (htag : IsTag manner.tagColor tag) (first : Char) (others : List Char) :
    IsQuestion manner message (first :: others)
      (tag ++ ": ".toList ++ message ++ " [".toList
        ++ ['/'].intercalate ([first.toUpper] :: others.map fun c => [c]) ++ "] ".toList)

section question

theorem capitalize_eq_toUpper (c : Char) : capitalize c = c.toUpper := by
  by_cases hc : 'a' ≤ c ∧ c ≤ 'z'
  · have hall : ∀ n < 0x7B, capitalize (Char.ofNat n) = (Char.ofNat n).toUpper := by decide
    have hlt : c.toNat < 0x7B := Nat.lt_succ_of_le hc.2
    have hupper := hall c.toNat hlt
    rwa [Char.ofNat_toNat] at hupper
  · have hval : ¬('a'.val ≤ c.val ∧ c.val ≤ 'z'.val) := hc
    unfold capitalize Char.toUpper
    rw [if_neg hc, dif_neg hval]

theorem choices_eq_intercalate (first : Char) (others : List Char) :
    choices (first :: others) = ['/'].intercalate ([first.toUpper] :: others.map fun c => [c]) := by
  rw [Text.intercalate_cons, List.flatMap_map, ← capitalize_eq_toUpper]
  rfl

theorem isQuestion_question (manner : Manner) (message : Text) (first : Char)
    (others : List Char) :
    IsQuestion manner message (first :: others) (question manner message (first :: others)) := by
  unfold question
  rw [choices_eq_intercalate]
  refine .intro ?_ first others
  cases manner.tagColor with
  | none => exact .plain
  | some color =>
    dsimp only
    rw [Color.paint, color.foreground_eq_ink, Style.reset_eq]
    exact .colored color

end question

section reply

variable {first : Char} {options : List Char} {byte : UInt8}

theorem toNat_ofNat_of_lt (h : byte < 0x80) : (Char.ofNat byte.toNat).toNat = byte.toNat := by
  have hlt := UInt8.lt_iff_toNat_lt.1 h
  apply Utf8.toNat_ofNat_of_isValidChar
  exact .inl (Nat.lt_trans hlt (by decide))

theorem undecided_of_reply_eq_ignored (hcontrol : ∀ c ∈ options, 0x20 ≤ c.toNat ∧ c.toNat ≠ 0x7F)
    (h : reply first options byte (Decoder.ground.feed byte).2 = .ignored) :
    ¬IsEnter byte ∧ byte ≠ ctrlD ∧ ¬IsOption options byte := by
  refine ⟨?_, ?_, ?_⟩
  · rintro (rfl | rfl)
    · contradiction
    · contradiction
  · rintro rfl
    contradiction
  · rintro ⟨hascii, hmem⟩
    -- An option that is no control character is text for the decoder, and no key.
    obtain ⟨hlow, hdelete⟩ := hcontrol _ hmem
    rw [toNat_ofNat_of_lt hascii] at hlow hdelete
    have htext : LineEditor.IsTextByte byte :=
      ⟨UInt8.le_iff_toNat_le.2 hlow, mt (congrArg UInt8.toNat) hdelete⟩
    have hctrlD : byte ≠ ctrlD := by
      rintro rfl
      contradiction
    rw [LineEditor.feed_ground_of_isTextByte htext] at h
    unfold reply at h
    dsimp only at h
    rw [if_neg hctrlD, if_pos ⟨hascii, hmem⟩] at h
    contradiction

theorem of_reply_eq_answer {decoder : Decoder} {c : Char}
    (h : reply first options byte (decoder.feed byte).2 = .answer c) :
    IsEnter byte ∧ decoder = .ground ∧ c = first ∨
      byte < 0x80 ∧ byte.toNat = c.toNat ∧ c ∈ options := by
  unfold reply at h
  split at h
  · next modifiers henter =>
    obtain ⟨hground, hbyte⟩ := Decoder.of_feed_eq_enter henter
    exact .inl ⟨hbyte, hground, (Reply.answer.inj h).symm⟩
  · contradiction
  · contradiction
  · split at h
    · contradiction
    · dsimp only at h
      split at h
      · next hoption =>
        obtain rfl := Reply.answer.inj h
        exact .inr ⟨hoption.1, (toNat_ofNat_of_lt hoption.1).symm, hoption.2⟩
      · contradiction

end reply

section awaitAnswer

variable {first : Char} {options : List Char}

def AreIgnored (first : Char) (options : List Char) (decoder : Decoder) (bytes : List UInt8) :
    Prop :=
  ∀ front byte back, bytes = front ++ byte :: back →
    byte ≠ Reader.ctrlC ∧
      reply first options byte ((decoder.after front).feed byte).2 = .ignored

theorem AreIgnored.cons {decoder : Decoder} {byte : UInt8} {bytes : List UInt8}
    (hbyte : byte ≠ Reader.ctrlC)
    (hreply : reply first options byte (decoder.feed byte).2 = .ignored)
    (h : AreIgnored first options (decoder.feed byte).1 bytes) :
    AreIgnored first options decoder (byte :: bytes) := by
  intro front other back heq
  cases front with
  | nil =>
    obtain ⟨rfl, rfl⟩ := List.cons.inj heq
    exact ⟨hbyte, hreply⟩
  | cons next front =>
    obtain ⟨rfl, rfl⟩ := List.cons.inj heq
    exact h front other back rfl

theorem exists_of_awaitAnswer_eq_ok {reader after : Reader} {c : Char}
    (h : awaitAnswer first options reader = (.ok c, after)) :
    ∃ taken last, reader.script = taken ++ .byte last :: after.script ∧
      AreIgnored first options reader.decoder (taken.filterMap InputItem.byte?) ∧
      reply first options last
        ((reader.decoder.after (taken.filterMap InputItem.byte?)).feed last).2 = .answer c := by
  fun_induction awaitAnswer first options reader with
  | case1 => simp at h
  | case2 reader byte decoded next hread _ c' hreply =>
    simp only [Prod.mk.injEq, Except.ok.injEq] at h
    obtain ⟨rfl, rfl⟩ := h
    obtain ⟨skipped, hscript, hskipped, -, hfeed⟩ := Reader.exists_of_readKey_eq_ok hread
    refine ⟨skipped, byte, hscript, ?_, ?_⟩
    · rw [hskipped]
      intro front other back heq
      simp at heq
    · rw [hskipped]
      change reply first options byte (reader.decoder.feed byte).2 = _
      rw [hfeed]
      exact hreply
  | case3 => simp at h
  | case4 reader byte decoded next hread _ hreply ih =>
    obtain ⟨skipped, hscript, hskipped, hbyte, hfeed⟩ := Reader.exists_of_readKey_eq_ok hread
    obtain ⟨taken, last, hrest, hignored, hlast⟩ := ih h
    -- The byte is ignored, and the question goes on in the state that it leaves the decoder in.
    have hbytes : (skipped ++ .byte byte :: taken).filterMap InputItem.byte? =
        byte :: taken.filterMap InputItem.byte? := by
      rw [List.filterMap_append, hskipped]
      rfl
    refine ⟨skipped ++ .byte byte :: taken, last, ?_, ?_, ?_⟩
    · rw [hscript, hrest]
      simp
    · rw [hbytes]
      apply AreIgnored.cons hbyte
      · rw [hfeed]
        exact hreply
      · rw [hfeed]
        exact hignored
    · rw [hbytes, Decoder.after, List.foldl_cons, hfeed]
      exact hlast

end awaitAnswer

section confirm

variable {manner : Manner} {message : Text} {first : Char} {options others : List Char}
  {console : Console}

theorem confirm_eq (houtput : console.output.IsWorking) :
    ∃ asked, asked.IsWorking ∧
      asked.written = console.output.written ++ question manner message (first :: others) ∧
      confirm manner message (first :: others) console =
        match awaitAnswer first (first :: others) console.reader.resetDecoder with
        | (.error error, reader) => (.error error, ⟨reader, asked⟩)
        | (.ok c, reader) =>
          (.ok c, ⟨reader, if manner.echo then (asked.emit [c, '\n']).2 else asked⟩) := by
  have hemit := Output.emit_of_isWorking houtput (question manner message (first :: others))
  generalize hasked : { console.output with
    written := console.output.written ++ question manner message (first :: others),
    flushes := console.output.flushes + 1 } = asked at hemit
  have hworking : asked.IsWorking := hasked ▸ houtput
  refine ⟨asked, hworking, congrArg Output.written hasked.symm, ?_⟩
  unfold confirm
  dsimp only
  rw [hemit]
  obtain ⟨result, reader⟩ := awaitAnswer first (first :: others) console.reader.resetDecoder
  cases result with
  | error error => rfl
  | ok c =>
    dsimp only
    rw [Output.emit_of_isWorking hworking]
    cases manner.echo with
    | true => rfl
    | false => rfl

theorem isAnswered_of_awaitAnswer {reader after : Reader} {c : Char}
    (hcontrol : ∀ c ∈ first :: others, 0x20 ≤ c.toNat ∧ c.toNat ≠ 0x7F)
    (hground : reader.decoder = .ground)
    (h : awaitAnswer first (first :: others) reader = (.ok c, after)) :
    ∃ taken last, reader.script = taken ++ .byte last :: after.script ∧
      IsAnswered (first :: others) (taken.filterMap InputItem.byte?) last c := by
  obtain ⟨taken, last, hscript, hignored, hlast⟩ := exists_of_awaitAnswer_eq_ok h
  rw [hground] at hignored hlast
  refine ⟨taken, last, hscript, ?_, ⟨?_, ?_⟩, ?_⟩
  · rcases of_reply_eq_answer hlast with ⟨-, -, rfl⟩ | ⟨-, -, hmem⟩
    · exact List.mem_cons_self
    · exact hmem
  · intro hmem
    obtain ⟨front, back, heq⟩ := List.append_of_mem hmem
    exact (hignored front _ back heq).1 rfl
  · intro front byte back heq hfront
    have hreply := (hignored front byte back heq).2
    rw [hfront] at hreply
    exact undecided_of_reply_eq_ignored hcontrol hreply
  · rcases of_reply_eq_answer hlast with ⟨henter, hafter, rfl⟩ | ⟨hascii, heq, -⟩
    · exact .inl ⟨henter, hafter, rfl⟩
    · exact .inr ⟨hascii, heq⟩

/--
A question is answered with one of its options and takes nothing off the input behind the byte that
answers it. Nothing but the answer is shown behind the question, and nothing at all if the input
ends, fails or is interrupted.
-/
theorem isAnswered_confirm (hoptions : options ≠ [])
    (hcontrol : ∀ c ∈ options, 0x20 ≤ c.toNat ∧ c.toNat ≠ 0x7F)
    (houtput : console.output.IsWorking) :
    (∀ c after, confirm manner message options console = (.ok c, after) →
      (∃ taken last, console.reader.script = taken ++ .byte last :: after.reader.script ∧
        IsAnswered options (taken.filterMap InputItem.byte?) last c) ∧
      ∃ question, IsQuestion manner message options question ∧
        after.output.written = console.output.written ++ question ++
          if manner.echo then [c, '\n'] else []) ∧
    (∀ error after, confirm manner message options console = (.error error, after) →
      ∃ question, IsQuestion manner message options question ∧
        after.output.written = console.output.written ++ question) := by
  obtain ⟨first, others, rfl⟩ := List.exists_cons_of_ne_nil hoptions
  obtain ⟨asked, hworking, hasked, hconfirm⟩ :=
    @confirm_eq manner message first others console houtput
  have hquestion := isQuestion_question manner message first others
  rw [hconfirm]
  cases hawait : awaitAnswer first (first :: others) console.reader.resetDecoder with
  | mk result reader =>
    cases result with
    | error error =>
      constructor
      · intro c after h
        simp at h
      · intro error' after h
        obtain ⟨-, rfl⟩ := Prod.mk.inj h
        exact ⟨_, hquestion, hasked⟩
    | ok c =>
      constructor
      · intro c' after h
        obtain ⟨heq, rfl⟩ := Prod.mk.inj h
        obtain rfl := Except.ok.inj heq
        have hanswered := isAnswered_of_awaitAnswer hcontrol (by rfl) hawait
        refine ⟨hanswered, _, hquestion, ?_⟩
        rw [← hasked]
        dsimp only
        split
        · rw [Output.emit_of_isWorking hworking]
        · rw [List.append_nil]
      · intro error after h
        simp at h

end confirm

def answeredTwice : List InputItem :=
  [.byte 0x1B, .byte 0x5B, .byte 0x41, .cut false, .flag, .byte 0x6E, .byte 0x79]

theorem isAnswered_confirm_answeredTwice :
    ['y', '[', 'n'] ≠ [] ∧ (∀ c ∈ ['y', '[', 'n'], 0x20 ≤ c.toNat ∧ c.toNat ≠ 0x7F) ∧
      Output.working.IsWorking ∧
      ∃ taken last, answeredTwice = taken ++ .byte last :: [.byte 0x79] ∧
        IsAnswered ['y', '[', 'n'] (taken.filterMap InputItem.byte?) last 'n' ∧
        (confirm ⟨true, some (Color.rgb 38 139 210)⟩ "ok?".toList ['y', '[', 'n']
            ⟨.ofScript answeredTwice, .working⟩).2.output.written =
          "\x1b[38;2;38;139;210mask\x1b[0;0;0m: ok? [Y/[/n] n\n".toList := by
  have hcontrol : ∀ c ∈ ['y', '[', 'n'], 0x20 ≤ c.toNat ∧ c.toNat ≠ 0x7F := by
    simp only [List.forall_mem_cons]
    exact ⟨⟨by decide, by decide⟩, ⟨by decide, by decide⟩, ⟨by decide, by decide⟩,
      List.forall_mem_nil _⟩
  have hawait : awaitAnswer 'y' ['y', '[', 'n'] (Reader.ofScript answeredTwice) =
      (.ok 'n', ⟨[.byte 0x79], true, .ground⟩) := by
    rw [awaitAnswer_eq]
    change awaitAnswer _ _ ⟨answeredTwice.drop 1, false, .escape⟩ = _
    rw [awaitAnswer_eq]
    change awaitAnswer _ _ ⟨answeredTwice.drop 2, false, .sequence 0 0 false⟩ = _
    rw [awaitAnswer_eq]
    change awaitAnswer _ _ ⟨answeredTwice.drop 3, false, .ground⟩ = _
    rw [awaitAnswer_eq]
    rfl
  obtain ⟨asked, _, _, hconfirm⟩ :=
    @confirm_eq ⟨true, some (Color.rgb 38 139 210)⟩ "ok?".toList 'y' ['[', 'n']
      ⟨.ofScript answeredTwice, .working⟩ ⟨rfl, rfl⟩
  have hreset : (Reader.ofScript answeredTwice).resetDecoder = Reader.ofScript answeredTwice := rfl
  rw [hreset, hawait] at hconfirm
  obtain ⟨⟨taken, last, hscript, hanswered⟩, _, ⟨htag, _, _⟩, hwritten⟩ :=
    (isAnswered_confirm (by simp) hcontrol ⟨rfl, rfl⟩).1 _ _ hconfirm
  refine ⟨by simp, hcontrol, ⟨rfl, rfl⟩, taken, last, hscript, hanswered, ?_⟩
  cases htag
  rw [hconfirm]
  exact hwritten

end Prompt

end Preflight
