import Mathlib.Data.List.TakeWhile
import Preflight.Proofs.Terminal.Keyboard

/-!
This module contains that the decoder cuts what it is fed into single bytes and escape sequences in
the only way there is, and what it makes of each of them. Keys and modifiers depend on the numbers
that are written in a sequence, however long these are.
-/

namespace Preflight

theorem find?_eq_of_iff {α : Type} {l : List α} {p : α → Bool} {found : Option α}
    (hmem : ∀ a, a ∈ l) (h : ∀ a, found = some a ↔ p a = true) : l.find? p = found := by
  cases found with
  | none =>
    rw [List.find?_eq_none]
    intro a _ ha
    simpa using (h a).2 ha
  | some a =>
    cases hfind : l.find? p with
    | none =>
      rw [List.find?_eq_none] at hfind
      exact absurd ((h a).1 rfl) (hfind a (hmem a))
    | some b => exact ((h b).2 (List.find?_some hfind)).symm

namespace Modifiers

def all : List Modifiers :=
  [⟨false, false, false⟩, ⟨true, false, false⟩, ⟨false, true, false⟩, ⟨true, true, false⟩,
    ⟨false, false, true⟩, ⟨true, false, true⟩, ⟨false, true, true⟩, ⟨true, true, true⟩]

def code (modifiers : Modifiers) : Nat :=
  1 + modifiers.shift.toNat + 2 * modifiers.alt.toNat + 4 * modifiers.ctrl.toNat

def ofNumber (n : Nat) : Modifiers := (all.find? (·.code = n)).getD none

theorem ofCode_eq_ofNumber (n : Nat) : ofCode n = ofNumber n := by
  by_cases hle : n ≤ 8
  · have hall : ∀ m ≤ 8, ofCode m = ofNumber m := by decide
    exact hall n hle
  · have hall : ∀ modifiers ∈ all, modifiers.code ≤ 8 := by decide
    have hfind : all.find? (·.code = n) = Option.none := by
      rw [List.find?_eq_none]
      intro modifiers hmem
      have := hall modifiers hmem
      simp only [decide_eq_true_eq]
      omega
    unfold ofCode ofNumber
    rw [if_neg (by omega), hfind, Option.getD_none]

theorem ofCode_min (n : Nat) : ofCode (min n Decoder.maxParameter) = ofNumber n := by
  unfold Decoder.maxParameter
  by_cases hle : n ≤ 0xFFFFFFFF
  · rw [Nat.min_eq_left hle, ofCode_eq_ofNumber]
  · rw [Nat.min_eq_right (by omega), ← ofCode_eq_ofNumber]
    unfold ofCode
    rw [if_neg (by omega), if_neg (by omega)]

end Modifiers

namespace Key

def all : List Key :=
  [unknown, enter, tab, backspace, arrowUp, arrowDown, arrowLeft, arrowRight, home, end_, pageUp,
    pageDown, insert, delete]

theorem mem_all (key : Key) : key ∈ all := by
  cases key <;> decide

def singles : Key → List UInt8
  | enter => [0x0D, 0x0A]
  | tab => [0x09]
  | backspace => [0x7F]
  | _ => []

theorem singleKey?_eq (byte : UInt8) :
    Decoder.singleKey? byte = all.find? fun key => byte ∈ key.singles := by
  apply Eq.symm
  apply find?_eq_of_iff mem_all
  intro key
  unfold Decoder.singleKey?
  cases key <;> grind [singles]

theorem finalKey?_eq_some_iff {first : Nat} {final : UInt8} {key : Key} :
    Decoder.finalKey? first final = some key ↔
      key.letter? = some final ∨ final = 0x7E ∧ key.number? = some first := by
  unfold Decoder.finalKey?
  cases key <;> grind [letter?, number?]

theorem number?_eq_some_min_iff (key : Key) (n : Nat) :
    key.number? = some (min n Decoder.maxParameter) ↔ key.number? = some n := by
  unfold Decoder.maxParameter
  cases key <;> simp only [number?, Option.some.injEq, reduceCtorEq] <;> omega

theorem finalKey?_min_eq {parameters : List UInt8} {final : UInt8}
    (h : parameters.all Decoder.isParameter = true) :
    Decoder.finalKey?
        (min (Decoder.decimalValue 0 (parameters.takeWhile (· ≠ 0x3B))) Decoder.maxParameter) final =
      all.find? fun key => key.IsSentAs parameters final := by
  apply Eq.symm
  apply find?_eq_of_iff mem_all
  intro key
  rw [finalKey?_eq_some_iff, number?_eq_some_min_iff, decide_eq_true_eq]
  unfold IsSentAs
  rw [and_iff_right h]

end Key

namespace Decoder

def secondNumber (parameters : List UInt8) : Nat :=
  decimalValue 0 ((parameters.dropWhile (· ≠ 0x3B)).filter (· ≠ 0x3B))

def answers (decoder : Decoder) : List UInt8 → List (Decoded × Bool)
  | [] => []
  | byte :: bytes =>
    ((decoder.feed byte).2, (decoder.feed byte).1.isPending) ::
      answers (decoder.feed byte).1 bytes

@[simp]
theorem after_nil (decoder : Decoder) : decoder.after [] = decoder := rfl

@[simp]
theorem after_cons (decoder : Decoder) (byte : UInt8) (bytes : List UInt8) :
    decoder.after (byte :: bytes) = (decoder.feed byte).1.after bytes := rfl

theorem after_append (decoder : Decoder) (front back : List UInt8) :
    decoder.after (front ++ back) = (decoder.after front).after back := List.foldl_append

theorem answers_singleton (decoder : Decoder) (byte : UInt8) :
    decoder.answers [byte] = [((decoder.feed byte).2, (decoder.feed byte).1.isPending)] := rfl

theorem answers_append (decoder : Decoder) (front back : List UInt8) :
    decoder.answers (front ++ back) =
      decoder.answers front ++ (decoder.after front).answers back := by
  induction front generalizing decoder with
  | nil => rfl
  | cons byte front ih =>
    rw [List.cons_append, answers, answers, ih, after_cons, List.cons_append]

theorem isDigit_of_isParameter {byte : UInt8} (h : isParameter byte = true) (hne : byte ≠ 0x3B) :
    0x30 ≤ byte ∧ byte ≤ 0x39 := by
  unfold isParameter at h
  simp_all

theorem feed_digit_of_semicolon (first second : Nat) {byte : UInt8}
    (h : 0x30 ≤ byte ∧ byte ≤ 0x39) :
    (sequence first second true).feed byte =
      (sequence first (pushDigit second (byte.toNat - 0x30)) true, .pending) := by
  unfold feed
  simp only [h, and_self, if_true]

section parameters

variable {parameters : List UInt8} (h : parameters.all isParameter = true)
include h

theorem answers_parameters (first second : Nat) (semicolon : Bool) :
    (sequence first second semicolon).answers parameters =
      parameters.map fun _ => (.pending, true) := by
  induction parameters generalizing first second semicolon with
  | nil => rfl
  | cons byte parameters ih =>
    rw [List.all_cons, Bool.and_eq_true] at h
    obtain ⟨first', second', semicolon', hfeed, _⟩ := feed_parameter first second semicolon h.1
    rw [answers, hfeed, ih h.2]
    rfl

theorem after_parameters_of_semicolon (first number : Nat) :
    (sequence first (min number maxParameter) true).after parameters =
      sequence first (min (decimalValue number (parameters.filter (· ≠ 0x3B))) maxParameter)
        true := by
  induction parameters generalizing number with
  | nil => rfl
  | cons byte parameters ih =>
    rw [List.all_cons, Bool.and_eq_true] at h
    rw [after_cons]
    by_cases hsemicolon : byte = 0x3B
    · rw [hsemicolon, feed_semicolon, ih h.2]
      rfl
    · rw [feed_digit_of_semicolon _ _ (isDigit_of_isParameter h.1 hsemicolon), pushDigit_min,
        ih h.2, List.filter_cons_of_pos (by simpa using hsemicolon)]
      rfl

theorem after_parameters (number : Nat) :
    (sequence (min number maxParameter) 0 false).after parameters =
      sequence (min (decimalValue number (parameters.takeWhile (· ≠ 0x3B))) maxParameter)
        (min (secondNumber parameters) maxParameter) (parameters.contains 0x3B) := by
  induction parameters generalizing number with
  | nil => rfl
  | cons byte parameters ih =>
    rw [List.all_cons, Bool.and_eq_true] at h
    rw [after_cons]
    by_cases hsemicolon : byte = 0x3B
    · have hzero : sequence (min number maxParameter) 0 true =
          sequence (min number maxParameter) (min 0 maxParameter) true := by
        rw [Nat.zero_min]
      rw [hsemicolon, feed_semicolon, hzero, after_parameters_of_semicolon h.2]
      rfl
    · have hdigit := isDigit_of_isParameter h.1 hsemicolon
      rw [feed_digit _ _ hdigit, pushDigit_min, ih h.2]
      simp [secondNumber, decimalValue, hsemicolon, Ne.symm hsemicolon]

end parameters

end Decoder

inductive KeyCode where
  | single (byte : UInt8) (ne : byte ≠ 0x1B)
  | escape (sequence : EscapeSequence)

namespace KeyCode

def bytes : KeyCode → List UInt8
  | single byte _ => [byte]
  | escape sequence => sequence.bytes

/--
The key that was pressed, with the modifiers that were held. Escape sequences with a number in them
that stands for no modifiers have none, just like those without such a number.
-/
def event? : KeyCode → Option KeyEvent
  | single byte _ => (Key.all.find? fun key => byte ∈ key.singles).map (⟨·, .none⟩)
  | escape (.alt _ _) => some ⟨.unknown, ⟨false, true, false⟩⟩
  | escape (.control parameters final _ _) =>
    (Key.all.find? fun key => key.IsSentAs parameters final).map
      (⟨·, .ofNumber (Decoder.secondNumber parameters)⟩)

def decoded (code : KeyCode) : Decoded :=
  match code.event? with
  | some event => .event event
  | none => .unrecognized

def answers (code : KeyCode) : List (Decoded × Bool) :=
  code.bytes.dropLast.map (fun _ => (.pending, true)) ++ [(code.decoded, false)]

theorem feed_single {byte : UInt8} (ne : byte ≠ 0x1B) :
    Decoder.ground.feed byte = (.ground, decoded (single byte ne)) := by
  unfold Decoder.feed decoded event?
  dsimp only
  rw [if_neg ne, Key.singleKey?_eq]
  cases Key.all.find? fun key => byte ∈ key.singles with
  | none => rfl
  | some key => rfl

theorem ofCode_secondNumber (parameters : List UInt8) :
    Modifiers.ofCode
        (if parameters.contains 0x3B then
          min (Decoder.secondNumber parameters) Decoder.maxParameter
        else 1) =
      .ofNumber (Decoder.secondNumber parameters) := by
  split
  · rw [Modifiers.ofCode_min]
  · next h =>
    have hnone : parameters.dropWhile (· ≠ 0x3B) = [] := by
      rw [List.dropWhile_eq_nil_iff]
      rintro byte hmem
      rw [List.contains_iff_mem] at h
      simp only [decide_eq_true_eq]
      rintro rfl
      exact h hmem
    unfold Decoder.secondNumber
    rw [hnone]
    rfl

theorem feed_control {parameters : List UInt8} {final : UInt8}
    (areParameters : parameters.all Decoder.isParameter = true)
    (isFinal : Decoder.isParameter final = false) :
    ((Decoder.sequence 0 0 false).after parameters).feed final =
      (.ground, decoded (escape (.control parameters final areParameters isFinal))) := by
  have hafter := Decoder.after_parameters areParameters 0
  rw [Nat.zero_min] at hafter
  rw [hafter, Decoder.feed_final _ _ _ isFinal, Key.finalKey?_min_eq areParameters,
    ofCode_secondNumber]
  unfold decoded event?
  dsimp only
  cases Key.all.find? fun key => key.IsSentAs parameters final with
  | none => rfl
  | some key => rfl

theorem answers_bytes (code : KeyCode) :
    Decoder.ground.answers code.bytes = code.answers ∧
      Decoder.ground.after code.bytes = .ground := by
  cases code with
  | single byte ne =>
    unfold bytes Decoder.answers
    rw [Decoder.after_cons, feed_single ne]
    exact ⟨rfl, rfl⟩
  | escape sequence =>
    cases sequence with
    | alt byte ne =>
      have hstart : Decoder.ground.feed 0x1B = (.escape, .pending) := rfl
      unfold bytes EscapeSequence.bytes
      rw [Decoder.answers, hstart, Decoder.answers, Decoder.after_cons, hstart, Decoder.after_cons,
        Decoder.feed_escape ne]
      exact ⟨rfl, rfl⟩
    | control parameters final areParameters isFinal =>
      have hstart : Decoder.ground.after [0x1B, 0x5B] = .sequence 0 0 false := rfl
      have hfinal := feed_control areParameters isFinal
      have hbytes : bytes (escape (.control parameters final areParameters isFinal)) =
          [0x1B, 0x5B] ++ (parameters ++ [final]) := rfl
      constructor
      · rw [answers, hbytes, Decoder.answers_append, hstart, Decoder.answers_append,
          Decoder.answers_parameters areParameters, Decoder.answers_singleton, hfinal,
          ← List.append_assoc, ← List.append_assoc, List.dropLast_concat, List.map_append]
        rfl
      · rw [hbytes, Decoder.after_append, hstart, Decoder.after_append, Decoder.after_cons, hfinal,
          Decoder.after_nil]

theorem answers_flatMap_bytes (codes : List KeyCode) :
    Decoder.ground.answers (codes.flatMap bytes) = codes.flatMap answers ∧
      Decoder.ground.after (codes.flatMap bytes) = .ground := by
  induction codes with
  | nil => exact ⟨rfl, rfl⟩
  | cons code codes ih =>
    obtain ⟨hanswers, hafter⟩ := answers_bytes code
    rw [List.flatMap_cons, List.flatMap_cons, Decoder.answers_append, Decoder.after_append,
      hanswers, hafter]
    exact ⟨congrArg _ ih.1, ih.2⟩

inductive IsIncomplete : List UInt8 → Prop
  | nil : IsIncomplete []
  | escape : IsIncomplete [0x1B]
  | control (parameters : List UInt8) (h : parameters.all Decoder.isParameter = true) :
    IsIncomplete (0x1B :: 0x5B :: parameters)

structure IsSplit (bytes : List UInt8) (codes : List KeyCode) (rest : List UInt8) : Prop where
  bytes_eq : codes.flatMap KeyCode.bytes ++ rest = bytes
  isIncomplete : IsIncomplete rest

theorem IsIncomplete.answers_eq {rest : List UInt8} (h : IsIncomplete rest) :
    Decoder.ground.answers rest = rest.map fun _ => (.pending, true) := by
  cases h with
  | nil => rfl
  | escape => rfl
  | control parameters h =>
    have hstart : Decoder.ground.after [0x1B, 0x5B] = .sequence 0 0 false := rfl
    have hbytes : 0x1B :: 0x5B :: parameters = [0x1B, 0x5B] ++ parameters := rfl
    rw [hbytes, Decoder.answers_append, hstart, Decoder.answers_parameters h, List.map_append]
    rfl

theorem isIncomplete_or_exists (bytes : List UInt8) :
    IsIncomplete bytes ∨ ∃ (code : KeyCode) (rest : List UInt8), bytes = code.bytes ++ rest := by
  match bytes with
  | [] => exact .inl .nil
  | byte :: bytes =>
    by_cases hescape : byte = 0x1B
    · subst hescape
      match bytes with
      | [] => exact .inl .escape
      | second :: bytes =>
        by_cases hbracket : second = 0x5B
        · subst hbracket
          have hparameters : (bytes.takeWhile Decoder.isParameter).all Decoder.isParameter = true :=
            List.all_takeWhile
          have hbytes := List.takeWhile_append_dropWhile (p := Decoder.isParameter) (l := bytes)
          cases hrest : bytes.dropWhile Decoder.isParameter with
          | nil =>
            rw [hrest, List.append_nil] at hbytes
            rw [hbytes] at hparameters
            exact .inl (.control bytes hparameters)
          | cons final rest =>
            have hfinal : Decoder.isParameter final = false := by
              have := List.head_dropWhile_not Decoder.isParameter (l := bytes) (by simp [hrest])
              simpa [hrest] using this
            rw [hrest] at hbytes
            refine .inr ⟨.escape (.control _ final hparameters hfinal), rest, ?_⟩
            simp [KeyCode.bytes, EscapeSequence.bytes, hbytes]
        · exact .inr ⟨.escape (.alt second hbracket), bytes, rfl⟩
    · exact .inr ⟨.single byte hescape, bytes, rfl⟩

theorem bytes_ne_nil (code : KeyCode) : code.bytes ≠ [] := by
  cases code with
  | single byte ne => exact List.cons_ne_nil _ _
  | escape sequence => cases sequence <;> exact List.cons_ne_nil _ _

theorem exists_isSplit (bytes : List UInt8) : ∃ codes rest, IsSplit bytes codes rest := by
  rcases isIncomplete_or_exists bytes with h | ⟨code, back, heq⟩
  · exact ⟨[], bytes, rfl, h⟩
  · have hlt : back.length < bytes.length := by
      have := List.length_pos_iff.2 code.bytes_ne_nil
      rw [heq, List.length_append]
      omega
    obtain ⟨codes, rest, hback, h⟩ := exists_isSplit back
    refine ⟨code :: codes, rest, ?_, h⟩
    rw [heq, ← hback, List.flatMap_cons, List.append_assoc]
termination_by bytes.length

theorem takeWhile_append_cons {parameters : List UInt8} {final : UInt8} {back : List UInt8}
    (areParameters : parameters.all Decoder.isParameter = true)
    (isFinal : Decoder.isParameter final = false) :
    (parameters ++ final :: back).takeWhile Decoder.isParameter = parameters := by
  rw [List.takeWhile_append_of_pos (List.all_eq_true.1 areParameters), List.takeWhile_cons_of_neg,
    List.append_nil]
  rw [isFinal]
  exact Bool.false_ne_true

theorem eq_of_bytes_append_eq {code code' : KeyCode} {back back' : List UInt8}
    (h : code.bytes ++ back = code'.bytes ++ back') : code = code' ∧ back = back' := by
  cases code with
  | single byte ne =>
    cases code' with
    | single byte' ne' => simpa [KeyCode.bytes] using h
    | escape sequence' => cases sequence' <;> simp [KeyCode.bytes, EscapeSequence.bytes, ne] at h
  | escape sequence =>
    cases sequence with
    | alt byte ne =>
      cases code' with
      | single byte' ne' => simp [KeyCode.bytes, EscapeSequence.bytes, Ne.symm ne'] at h
      | escape sequence' =>
        cases sequence' with
        | alt byte' ne' => simpa [KeyCode.bytes, EscapeSequence.bytes] using h
        | control parameters' final' areParameters' isFinal' =>
          simp [KeyCode.bytes, EscapeSequence.bytes, ne] at h
    | control parameters final areParameters isFinal =>
      cases code' with
      | single byte' ne' => simp [KeyCode.bytes, EscapeSequence.bytes, Ne.symm ne'] at h
      | escape sequence' =>
        cases sequence' with
        | alt byte' ne' => simp [KeyCode.bytes, EscapeSequence.bytes, Ne.symm ne'] at h
        | control parameters' final' areParameters' isFinal' =>
          have hbytes : parameters ++ final :: back = parameters' ++ final' :: back' := by
            simpa [KeyCode.bytes, EscapeSequence.bytes] using h
          have hparameters := congrArg (List.takeWhile Decoder.isParameter) hbytes
          rw [takeWhile_append_cons areParameters isFinal,
            takeWhile_append_cons areParameters' isFinal'] at hparameters
          subst hparameters
          simpa using hbytes

theorem not_isIncomplete_bytes_append (code : KeyCode) (back : List UInt8) :
    ¬IsIncomplete (code.bytes ++ back) := by
  intro h
  cases code with
  | single byte ne =>
    cases h with
    | escape => exact ne rfl
    | control parameters h => exact ne rfl
  | escape sequence =>
    cases sequence with
    | alt byte ne =>
      cases h with
      | control parameters h => exact ne rfl
    | control parameters final areParameters isFinal =>
      generalize hbytes : bytes _ ++ back = bytes at h
      cases h with
      | nil => cases hbytes
      | escape => cases hbytes
      | control parameters' h =>
        have heq : parameters ++ final :: back = parameters' := by
          simpa [KeyCode.bytes, EscapeSequence.bytes] using hbytes
        rw [← heq] at h
        simp [isFinal] at h

theorem IsSplit.unique {bytes : List UInt8} {codes codes' : List KeyCode} {rest rest' : List UInt8}
    (h : IsSplit bytes codes rest) (h' : IsSplit bytes codes' rest') :
    codes' = codes ∧ rest' = rest := by
  obtain ⟨rfl, hrest⟩ := h
  obtain ⟨heq, hrest'⟩ := h'
  induction codes generalizing codes' with
  | nil =>
    cases codes' with
    | nil => exact ⟨rfl, heq⟩
    | cons code' codes' =>
      rw [List.flatMap_cons, List.append_assoc] at heq
      rw [List.flatMap_nil, List.nil_append] at heq
      rw [← heq] at hrest
      exact absurd hrest (not_isIncomplete_bytes_append _ _)
  | cons code codes ih =>
    rw [List.flatMap_cons, List.append_assoc] at heq
    cases codes' with
    | nil =>
      rw [List.flatMap_nil, List.nil_append] at heq
      rw [heq] at hrest'
      exact absurd hrest' (not_isIncomplete_bytes_append _ _)
    | cons code' codes' =>
      rw [List.flatMap_cons, List.append_assoc] at heq
      obtain ⟨rfl, hback⟩ := eq_of_bytes_append_eq heq
      obtain ⟨rfl, rfl⟩ := ih hback
      exact ⟨rfl, rfl⟩

/--
There is one way to split bytes into key codes and the beginning of another one, and the decoder
finds it: it answers that it is pending as long as a key code is not complete, and with what the key
code stands for when it is.
-/
theorem existsUnique_split (bytes : List UInt8) :
    ∃ codes rest, IsSplit bytes codes rest ∧
      (∀ codes' rest', IsSplit bytes codes' rest' → codes' = codes ∧ rest' = rest) ∧
      Decoder.ground.answers bytes =
        codes.flatMap KeyCode.answers ++ rest.map fun _ => (.pending, true) := by
  obtain ⟨codes, rest, hsplit⟩ := exists_isSplit bytes
  refine ⟨codes, rest, hsplit, fun _ _ => hsplit.unique, ?_⟩
  obtain ⟨hanswers, hafter⟩ := answers_flatMap_bytes codes
  rw [← hsplit.bytes_eq, Decoder.answers_append, hanswers, hafter, hsplit.isIncomplete.answers_eq]

-- A number that would be cut down to the 3 of Delete in 32 bits.
example :
    (escape (.control [0x34, 0x32, 0x39, 0x34, 0x39, 0x36, 0x37, 0x32, 0x39, 0x39] 0x7E rfl
      rfl)).decoded = .unrecognized := by decide

end KeyCode

end Preflight
