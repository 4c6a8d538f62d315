import Preflight.Proofs.Text.Utf8

/-!
This module contains the decoding of UTF-8 byte by byte, and what becomes of bytes that are not
well-formed: bytes that start no character, and characters that are broken off.
-/

namespace Preflight

namespace Utf8

section scanTails

variable {bits tails low high : Nat} {bytes rest : Bytes} {c : Char}

theorem scanTails_append_of_char (h : scanTails bits tails low high bytes = .char c rest)
    (more : Bytes) : scanTails bits tails low high (bytes ++ more) = .char c (rest ++ more) := by
  fun_induction scanTails bits tails low high bytes with
  | case1 bits low high bytes =>
    cases h
    apply scanTails_zero
  | case2 => contradiction
  | case3 bits low high tails byte bytes hrange ih =>
    rw [List.cons_append, scanTails, if_pos hrange]
    apply ih h
  | case4 => contradiction

theorem scanTails_append_of_malformed (h : scanTails bits tails low high bytes = .malformed rest)
    (more : Bytes) : scanTails bits tails low high (bytes ++ more) = .malformed (rest ++ more) := by
  fun_induction scanTails bits tails low high bytes with
  | case1 => contradiction
  | case2 => contradiction
  | case3 bits low high tails byte bytes hrange ih =>
    rw [List.cons_append, scanTails, if_pos hrange]
    apply ih h
  | case4 bits low high tails byte bytes hrange =>
    cases h
    rw [List.cons_append, scanTails, if_neg hrange]

theorem scanTails_concat (h : scanTails bits tails low high bytes = .truncated) (byte : UInt8) :
    scanTails bits tails low high (bytes ++ [byte]) = .truncated ∨
      (∃ c, scanTails bits tails low high (bytes ++ [byte]) = .char c []) ∨
        scanTails bits tails low high (bytes ++ [byte]) = .malformed [byte] := by
  fun_induction scanTails bits tails low high bytes with
  | case1 => contradiction
  | case2 bits low high tails =>
    rw [List.nil_append, scanTails]
    split
    · cases tails with
      | zero =>
        right
        left
        exact ⟨_, scanTails_zero _ _ _ _⟩
      | succ tails =>
        left
        rw [scanTails]
    · simp
  | case3 bits low high tails first bytes hrange ih =>
    rw [List.cons_append, scanTails, if_pos hrange]
    apply ih h
  | case4 => contradiction

end scanTails

section scan

variable {b : UInt8} {bytes rest : Bytes} {c : Char}

theorem scan_append_of_char (h : scan b bytes = .char c rest) (more : Bytes) :
    scan b (bytes ++ more) = .char c (rest ++ more) := by
  unfold scan at *
  split at h
  · apply scanTails_append_of_char h
  · contradiction

theorem scan_append_of_malformed (h : scan b bytes = .malformed rest) (more : Bytes) :
    scan b (bytes ++ more) = .malformed (rest ++ more) := by
  unfold scan at *
  split at h
  · apply scanTails_append_of_malformed h
  · cases h
    rfl

theorem scan_concat (h : scan b bytes = .truncated) (byte : UInt8) :
    scan b (bytes ++ [byte]) = .truncated ∨ (∃ c, scan b (bytes ++ [byte]) = .char c []) ∨
      scan b (bytes ++ [byte]) = .malformed [byte] := by
  unfold scan at *
  split at h
  · apply scanTails_concat h
  · contradiction

theorem scan_of_lead?_eq_none (h : lead? b = none) (bytes : Bytes) :
    scan b bytes = .malformed bytes := by
  unfold scan
  rw [h]

theorem scan_nil (b : UInt8) :
    scan b [] = .truncated ∧ lead? b ≠ none ∨ (∃ c, scan b [] = .char c []) ∨ lead? b = none := by
  unfold scan
  split
  · next lead hlead =>
    obtain ⟨bits, tails, low, high⟩ := lead
    cases tails with
    | zero => simp [scanTails]
    | succ tails => simp [scanTails, hlead]
  · next hlead => simp [hlead]

end scan

def IsTail (b : UInt8) : Prop := 0x80 ≤ b.toNat ∧ b.toNat ≤ 0xBF

theorem lead?_of_isTail {b : UInt8} (h : IsTail b) : lead? b = none := by
  unfold IsTail at h
  unfold lead?
  dsimp only
  rw [if_neg (by omega), if_pos (by omega)]

theorem range_of_lead?_eq_some {b : UInt8} {lead : Lead} (h : lead? b = some lead) :
    0x80 ≤ lead.low ∧ lead.low ≤ lead.high ∧ lead.high ≤ 0xBF := by
  unfold lead? at h
  dsimp only at h
  repeat' split at h
  all_goals
    first
    | contradiction
    | injection h with h
      subst h
      simp

theorem isTail_of_scanTails_eq_truncated {bits tails low high : Nat} {bytes : Bytes}
    (h : scanTails bits tails low high bytes = .truncated) (hlow : 0x80 ≤ low)
    (hhigh : high ≤ 0xBF) : ∀ b ∈ bytes, IsTail b := by
  fun_induction scanTails bits tails low high bytes with
  | case1 => contradiction
  | case2 => simp
  | case3 bits low high tails byte bytes hrange ih =>
    have hbyte : IsTail byte := by
      unfold IsTail
      omega
    simpa [hbyte] using ih h (by omega) (by omega)
  | case4 => contradiction

theorem exists_tails_of_scanTails {bits tails low high : Nat} {bytes rest : Bytes}
    (h : (∃ c, scanTails bits tails low high bytes = .char c rest) ∨
      scanTails bits tails low high bytes = .malformed rest)
    (hlow : 0x80 ≤ low) (hhigh : high ≤ 0xBF) :
    ∃ tails, bytes = tails ++ rest ∧ ∀ b ∈ tails, IsTail b := by
  fun_induction scanTails bits tails low high bytes with
  | case1 bits low high bytes =>
    obtain rfl : bytes = rest := by simpa using h
    exact ⟨[], by simp⟩
  | case2 => simp at h
  | case3 bits low high tails byte bytes hrange ih =>
    have hbyte : IsTail byte := by
      unfold IsTail
      omega
    obtain ⟨tails, rfl, htails⟩ := ih h (by omega) (by omega)
    exact ⟨byte :: tails, by simp, by simpa [hbyte] using htails⟩
  | case4 bits low high tails byte bytes hrange =>
    obtain rfl : byte :: bytes = rest := by simpa using h
    exact ⟨[], by simp⟩

theorem length_of_scanTails_eq_char {bits tails low high : Nat} {bytes rest : Bytes} {c : Char}
    (h : scanTails bits tails low high bytes = .char c rest) :
    bytes.length = tails + rest.length := by
  fun_induction scanTails bits tails low high bytes with
  | case1 bits low high bytes =>
    cases h
    simp
  | case2 => contradiction
  | case3 bits low high tails byte bytes hrange ih =>
    have := ih h
    simp
    omega
  | case4 => contradiction

theorem exists_scanTails_eq_char (bits tails low high : Nat) (hlow : low ≤ high)
    (hhigh : high ≤ 0xBF) : ∃ bytes c, scanTails bits tails low high bytes = .char c [] := by
  induction tails generalizing bits low high with
  | zero => exact ⟨[], _, scanTails_zero _ _ _ _⟩
  | succ tails ih =>
    obtain ⟨bytes, c, h⟩ := ih (bits * 0x40 + (low - 0x80)) 0x80 0xBF (by omega) (by omega)
    refine ⟨UInt8.ofNat low :: bytes, c, ?_⟩
    rw [scanTails, toNat_ofNat_of_lt (by omega), if_pos ⟨Nat.le_refl _, hlow⟩]
    apply h

theorem exists_scanTails_append_eq_char {bits tails low high : Nat} {bytes : Bytes}
    (h : scanTails bits tails low high bytes = .truncated) (hlow : low ≤ high)
    (hhigh : high ≤ 0xBF) :
    ∃ more c, scanTails bits tails low high (bytes ++ more) = .char c [] := by
  fun_induction scanTails bits tails low high bytes with
  | case1 => contradiction
  | case2 bits low high tails => apply exists_scanTails_eq_char bits (tails + 1) low high hlow hhigh
  | case3 bits low high tails byte bytes hrange ih =>
    obtain ⟨more, c, hmore⟩ := ih h (by omega) (by omega)
    refine ⟨more, c, ?_⟩
    rw [List.cons_append, scanTails, if_pos hrange]
    apply hmore
  | case4 => contradiction

section tails

variable {b : UInt8} {bytes rest : Bytes}

theorem exists_scan_append_eq_char (h : scan b bytes = .truncated) :
    ∃ more c, scan b (bytes ++ more) = .char c [] := by
  unfold scan at *
  split at h
  · next lead hlead =>
    have := range_of_lead?_eq_some hlead
    apply exists_scanTails_append_eq_char h
    · omega
    · omega
  · contradiction

theorem length_eq_of_scan_eq_char {more rest' : Bytes} {c d : Char}
    (h : scan b bytes = .char c rest) (h' : scan b more = .char d rest') :
    bytes.length + rest'.length = more.length + rest.length := by
  unfold scan at h h'
  split at h
  · next lead hlead =>
    rw [hlead] at h'
    have := length_of_scanTails_eq_char h
    have := length_of_scanTails_eq_char h'
    omega
  · contradiction

theorem isTail_of_scan_eq_truncated (h : scan b bytes = .truncated) : ∀ b ∈ bytes, IsTail b := by
  unfold scan at h
  split at h
  · next lead hlead =>
    have := range_of_lead?_eq_some hlead
    apply isTail_of_scanTails_eq_truncated h
    · omega
    · omega
  · contradiction

theorem exists_tails_of_scan
    (h : (∃ c, scan b bytes = .char c rest) ∨ scan b bytes = .malformed rest) :
    ∃ tails, bytes = tails ++ rest ∧ ∀ b ∈ tails, IsTail b := by
  unfold scan at h
  split at h
  · next lead hlead =>
    have := range_of_lead?_eq_some hlead
    apply exists_tails_of_scanTails h
    · omega
    · omega
  · obtain rfl : bytes = rest := by simpa using h
    exact ⟨[], by simp⟩

end tails

/--
A maximal part of a byte sequence that is a character or contains none: a stray byte that starts no
character, or the beginning of a character that is broken off.
-/
inductive Part where
  | char (c : Char)
  | stray
  | broken
  deriving DecidableEq, Repr

namespace Part

def char? : Part → Option Char
  | char c => some c
  | stray => none
  | broken => none

@[simp]
theorem char?_char (c : Char) : (char c).char? = some c := rfl

@[simp]
theorem char?_stray : stray.char? = none := rfl

@[simp]
theorem char?_broken : broken.char? = none := rfl

end Part

def parts (bytes : Bytes) : List Part :=
  match bytes with
  | [] => []
  | b :: bytes =>
    match h : scan b bytes with
    | .char c rest =>
      have := length_le_of_scan_eq_char h
      .char c :: parts rest
    | .truncated => [.broken]
    | .malformed rest =>
      have := length_le_of_scan_eq_malformed h
      (if (lead? b).isSome then .broken else .stray) :: parts rest
termination_by bytes.length
decreasing_by all_goals simp only [List.length_cons]; omega

section parts

variable {b : UInt8} {bytes rest : Bytes} {c : Char}

@[simp]
theorem parts_nil : parts [] = [] := by
  rw [parts]

theorem parts_cons_of_char (h : scan b bytes = .char c rest) :
    parts (b :: bytes) = .char c :: parts rest := by
  rw [parts]
  split
  · simp_all
  · simp_all
  · simp_all

theorem parts_cons_of_truncated (h : scan b bytes = .truncated) :
    parts (b :: bytes) = [.broken] := by
  rw [parts]
  split
  · simp_all
  · simp_all
  · simp_all

theorem parts_cons_of_malformed (h : scan b bytes = .malformed rest) :
    parts (b :: bytes) = (if (lead? b).isSome then .broken else .stray) :: parts rest := by
  rw [parts]
  split
  · simp_all
  · simp_all
  · simp_all

theorem exists_parts_cons (b : UInt8) (bytes : Bytes) :
    ∃ part tails rest, parts (b :: bytes) = part :: parts rest ∧ bytes = tails ++ rest ∧
      ∀ b ∈ tails, IsTail b := by
  cases h : scan b bytes with
  | char c rest =>
    obtain ⟨tails, heq, htails⟩ := exists_tails_of_scan (.inl ⟨c, h⟩)
    exact ⟨.char c, tails, rest, parts_cons_of_char h, heq, htails⟩
  | truncated =>
    refine ⟨.broken, bytes, [], ?_, by simp, isTail_of_scan_eq_truncated h⟩
    rw [parts_cons_of_truncated h, parts_nil]
  | malformed rest =>
    obtain ⟨tails, heq, htails⟩ := exists_tails_of_scan (.inr h)
    exact ⟨_, tails, rest, parts_cons_of_malformed h, heq, htails⟩

theorem pieces_eq_map_parts (bytes : Bytes) : pieces bytes = (parts bytes).map Part.char? := by
  fun_induction pieces bytes with
  | case1 => simp
  | case2 b bytes c rest h _ ih => simp [parts_cons_of_char h, Part.char?, ih]
  | case3 b bytes h => simp [parts_cons_of_truncated h, Part.char?]
  | case4 b bytes rest h _ ih =>
    rw [parts_cons_of_malformed h, List.map_cons, ih]
    split
    · rfl
    · rfl

theorem wellFormed_eq_filterMap_parts (bytes : Bytes) :
    wellFormed bytes = (parts bytes).filterMap Part.char? := by
  unfold wellFormed
  rw [pieces_eq_map_parts, List.filterMap_map]
  rfl

end parts

end Utf8

end Preflight
