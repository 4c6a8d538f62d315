import Preflight.Text.Utf8

/-!
This module contains that decoding is the inverse of encoding, and that both can be done piece by
piece between the ASCII characters of a text.
-/

namespace Preflight

namespace Utf8

theorem toNat_ofNat_of_lt {n : Nat} (h : n < 0x100) : (UInt8.ofNat n).toNat = n := by
  rw [UInt8.toNat_ofNat']
  omega

section lead

variable {n : Nat}

theorem lead?_ascii (h : n < 0x80) : lead? (UInt8.ofNat n) = some ⟨n, 0, 0x80, 0xBF⟩ := by
  unfold lead?
  rw [toNat_ofNat_of_lt (by omega)]
  simp only [h, if_true]

theorem lead?_two (hlow : 2 ≤ n) (hhigh : n < 0x20) :
    lead? (UInt8.ofNat (0xC0 + n)) = some ⟨n, 1, 0x80, 0xBF⟩ := by
  unfold lead?
  rw [toNat_ofNat_of_lt (by omega)]
  dsimp only
  rw [if_neg (by omega), if_neg (by omega), if_pos (by omega), Nat.add_sub_cancel_left]

theorem lead?_three (h : n < 0x10) :
    lead? (UInt8.ofNat (0xE0 + n)) =
      some ⟨n, 2, if n = 0 then 0xA0 else 0x80, if n = 0xD then 0x9F else 0xBF⟩ := by
  unfold lead?
  rw [toNat_ofNat_of_lt (by omega)]
  dsimp only
  rw [if_neg (by omega), if_neg (by omega), if_neg (by omega)]
  by_cases hzero : n = 0
  · subst hzero
    rfl
  · by_cases hsurrogate : n = 0xD
    · subst hsurrogate
      rfl
    · rw [if_neg (by omega), if_neg (by omega), if_pos (by omega), Nat.add_sub_cancel_left]
      rw [if_neg hzero, if_neg hsurrogate]

theorem lead?_four (h : n < 5) :
    lead? (UInt8.ofNat (0xF0 + n)) =
      some ⟨n, 3, if n = 0 then 0x90 else 0x80, if n = 4 then 0x8F else 0xBF⟩ := by
  unfold lead?
  rw [toNat_ofNat_of_lt (by omega)]
  dsimp only
  rw [if_neg (by omega), if_neg (by omega), if_neg (by omega), if_neg (by omega)]
  rw [if_neg (by omega), if_neg (by omega)]
  by_cases hzero : n = 0
  · subst hzero
    rfl
  · by_cases hlast : n = 4
    · subst hlast
      rfl
    · rw [if_neg (by omega), if_pos (by omega), Nat.add_sub_cancel_left]
      rw [if_neg hzero, if_neg hlast]

end lead

theorem scanTails_continuation {bits tails low high n : Nat} (hlow : low ≤ 0x80 + n)
    (hhigh : 0x80 + n ≤ high) (hn : n < 0x40) (rest : Bytes) :
    scanTails bits (tails + 1) low high (UInt8.ofNat (0x80 + n) :: rest) =
      scanTails (bits * 0x40 + n) tails 0x80 0xBF rest := by
  rw [scanTails, toNat_ofNat_of_lt (by omega), if_pos ⟨hlow, hhigh⟩, Nat.add_sub_cancel_left]

theorem scanTails_zero (bits low high : Nat) (rest : Bytes) :
    scanTails bits 0 low high rest = .char (Char.ofNat bits) rest := by
  rw [scanTails]

theorem scan_encodeChar (c : Char) (rest : Bytes) :
    ∃ b bytes, encodeChar c ++ rest = b :: bytes ∧ scan b bytes = .char c rest := by
  have hvalid : c.toNat < 0xD800 ∨ 0xDFFF < c.toNat ∧ c.toNat < 0x110000 := c.valid
  have hc : Char.ofNat c.toNat = c := Char.ofNat_toNat c
  unfold encodeChar
  dsimp only
  -- One case for each number of bytes, in which the tails put the value together again.
  split
  · next h =>
    rw [List.cons_append, List.nil_append]
    refine ⟨_, _, rfl, ?_⟩
    unfold scan
    rw [lead?_ascii h]
    dsimp only
    rw [scanTails_zero, hc]
  · split
    · next h =>
      rw [List.cons_append, List.cons_append, List.nil_append]
      refine ⟨_, _, rfl, ?_⟩
      unfold scan
      rw [lead?_two (by omega) (by omega)]
      dsimp only
      have hvalue : c.toNat / 0x40 * 0x40 + c.toNat % 0x40 = c.toNat := by omega
      rw [scanTails_continuation (by omega) (by omega) (by omega), scanTails_zero, hvalue, hc]
    · split
      · next h =>
        rw [List.cons_append, List.cons_append, List.cons_append, List.nil_append]
        refine ⟨_, _, rfl, ?_⟩
        unfold scan
        rw [lead?_three (by omega)]
        dsimp only
        have hvalue : (c.toNat / 0x1000 * 0x40 + c.toNat / 0x40 % 0x40) * 0x40 + c.toNat % 0x40 =
            c.toNat := by omega
        rw [scanTails_continuation (by split <;> omega) (by split <;> omega) (by omega)]
        rw [scanTails_continuation (by omega) (by omega) (by omega), scanTails_zero, hvalue, hc]
      · rw [List.cons_append, List.cons_append, List.cons_append, List.cons_append]
        rw [List.nil_append]
        refine ⟨_, _, rfl, ?_⟩
        unfold scan
        rw [lead?_four (by omega)]
        dsimp only
        have hvalue : ((c.toNat / 0x40000 * 0x40 + c.toNat / 0x1000 % 0x40) * 0x40 +
            c.toNat / 0x40 % 0x40) * 0x40 + c.toNat % 0x40 = c.toNat := by omega
        rw [scanTails_continuation (by split <;> omega) (by split <;> omega) (by omega)]
        rw [scanTails_continuation (by omega) (by omega) (by omega)]
        rw [scanTails_continuation (by omega) (by omega) (by omega), scanTails_zero, hvalue, hc]

theorem pieces_cons_of_char {b : UInt8} {bytes rest : Bytes} {c : Char}
    (h : scan b bytes = .char c rest) : pieces (b :: bytes) = some c :: pieces rest := by
  rw [pieces]
  split
  · next heq =>
    rw [h] at heq
    cases heq
    rfl
  · next heq =>
    rw [h] at heq
    contradiction
  · next heq =>
    rw [h] at heq
    contradiction

theorem pieces_encodeChar_append (c : Char) (rest : Bytes) :
    pieces (encodeChar c ++ rest) = some c :: pieces rest := by
  obtain ⟨b, bytes, heq, hscan⟩ := scan_encodeChar c rest
  rw [heq, pieces_cons_of_char hscan]

theorem pieces_encode (t : Text) : pieces (encode t) = t.map some := by
  induction t with
  | nil => rw [encode_nil, pieces, List.map_nil]
  | cons c t ih =>
    have hcons : encode (c :: t) = encodeChar c ++ encode t := rfl
    rw [hcons, pieces_encodeChar_append, ih, List.map_cons]

@[simp]
theorem decodeLossy_encode (t : Text) : decodeLossy (encode t) = t := by
  unfold decodeLossy
  rw [pieces_encode, List.map_map]
  exact List.map_id t

theorem pieces_cons_of_malformed {b : UInt8} {bytes rest : Bytes}
    (h : scan b bytes = .malformed rest) : pieces (b :: bytes) = none :: pieces rest := by
  rw [pieces]
  split
  · next heq =>
    rw [h] at heq
    contradiction
  · next heq =>
    rw [h] at heq
    contradiction
  · next heq =>
    rw [h] at heq
    cases heq
    rfl

theorem lead?_eq_some {b : UInt8} {lead : Lead} (h : lead? b = some lead) :
    0x80 ≤ lead.low ∧
      (lead.tails = 0 ∧ lead.bits = b.toNat ∧ b.toNat < 0x80 ∨
        0 < lead.tails ∧ 2 ≤ lead.bits ∨
        1 < lead.tails ∧ (0 < lead.bits ∨ 0x90 ≤ lead.low)) := by
  unfold lead? at h
  dsimp only at h
  repeat' split at h
  all_goals
    first
    | contradiction
    | injection h with h
      subst h
      dsimp only
      omega

section ascii

variable {b : UInt8} (hb : b.toNat < 0x80)
include hb

theorem scanTails_append_cons {bits tails low high : Nat} (hlow : 0x80 ≤ low)
    (bytes rest : Bytes) :
    scanTails bits tails low high (bytes ++ b :: rest) =
      match scanTails bits tails low high bytes with
      | .char c remaining => .char c (remaining ++ b :: rest)
      | .truncated => .malformed (b :: rest)
      | .malformed remaining => .malformed (remaining ++ b :: rest) := by
  fun_induction scanTails bits tails low high bytes with
  | case1 bits low high bytes => rw [scanTails_zero]
  | case2 bits low high tails =>
    rw [List.nil_append, scanTails, if_neg]
    omega
  | case3 bits low high tails byte bytes hrange ih =>
    rw [List.cons_append, scanTails, if_pos hrange, ih (by omega)]
  | case4 bits low high tails byte bytes hrange =>
    rw [List.cons_append, scanTails, if_neg hrange]
    rfl

theorem scan_append_cons (byte : UInt8) (bytes rest : Bytes) :
    scan byte (bytes ++ b :: rest) =
      match scan byte bytes with
      | .char c remaining => .char c (remaining ++ b :: rest)
      | .truncated => .malformed (b :: rest)
      | .malformed remaining => .malformed (remaining ++ b :: rest) := by
  unfold scan
  cases hlead : lead? byte with
  | none => rfl
  | some lead => exact scanTails_append_cons hb (lead?_eq_some hlead).1 bytes rest

theorem lead?_of_ascii : lead? b = some ⟨b.toNat, 0, 0x80, 0xBF⟩ := by
  have hlead := lead?_ascii hb
  rwa [UInt8.ofNat_toNat] at hlead

theorem scan_of_ascii (rest : Bytes) : scan b rest = .char (Char.ofNat b.toNat) rest := by
  unfold scan
  rw [lead?_of_ascii hb]
  apply scanTails_zero

theorem pieces_cons_of_ascii (rest : Bytes) :
    pieces (b :: rest) = some (Char.ofNat b.toNat) :: pieces rest := by
  apply pieces_cons_of_char
  apply scan_of_ascii hb

theorem pieces_append_cons (bytes rest : Bytes) :
    pieces (bytes ++ b :: rest) = pieces bytes ++ some (Char.ofNat b.toNat) :: pieces rest := by
  fun_induction pieces bytes with
  | case1 => exact pieces_cons_of_ascii hb rest
  | case2 byte bytes c remaining hscan _ ih =>
    have happend := scan_append_cons hb byte bytes rest
    rw [hscan] at happend
    rw [List.cons_append, pieces_cons_of_char happend, ih]
    rfl
  | case3 byte bytes hscan =>
    -- What breaks off at the end is one broken piece, and so it is in front of the character.
    have happend := scan_append_cons hb byte bytes rest
    rw [hscan] at happend
    rw [List.cons_append, pieces_cons_of_malformed happend, pieces_cons_of_ascii hb]
    rfl
  | case4 byte bytes remaining hscan _ ih =>
    have happend := scan_append_cons hb byte bytes rest
    rw [hscan] at happend
    rw [List.cons_append, pieces_cons_of_malformed happend, ih]
    rfl

theorem decodeLossy_append_cons (bytes rest : Bytes) :
    decodeLossy (bytes ++ b :: rest) =
      decodeLossy bytes ++ Char.ofNat b.toNat :: decodeLossy rest := by
  unfold decodeLossy
  rw [pieces_append_cons hb, List.map_append, List.map_cons]
  rfl

end ascii

theorem le_of_scanTails {bits tails low high : Nat} {bytes rest : Bytes} {c : Char}
    (h : scanTails bits tails low high bytes = .char c rest) :
    ∃ value, bits ≤ value ∧ (0 < tails → bits * 0x40 ≤ value) ∧ c = Char.ofNat value := by
  fun_induction scanTails bits tails low high bytes with
  | case1 bits low high bytes =>
    injection h with h
    refine ⟨bits, ?_, ?_, h.symm⟩
    · omega
    · omega
  | case2 bits low high tails => contradiction
  | case3 bits low high tails byte bytes hrange ih =>
    obtain ⟨value, hvalue, _, hc⟩ := ih h
    refine ⟨value, ?_, ?_, hc⟩
    · omega
    · omega
  | case4 bits low high tails byte bytes hrange => contradiction

theorem toNat_ofNat_of_isValidChar {n : Nat} (h : n.isValidChar) : (Char.ofNat n).toNat = n := by
  have heq : Char.ofNat n = Char.ofNatAux n h := dif_pos h
  rw [heq]
  rfl

theorem toNat_ofNat_eq_or (n : Nat) : (Char.ofNat n).toNat = n ∨ (Char.ofNat n).toNat = 0 := by
  by_cases hvalid : n.isValidChar
  · left
    apply toNat_ofNat_of_isValidChar hvalid
  · have heq : Char.ofNat n = '\x00' := dif_neg hvalid
    right
    rw [heq]
    rfl

theorem le_toNat_of_scanTails {bits tails low high : Nat} {bytes rest : Bytes} {c : Char}
    (h : scanTails bits tails low high bytes = .char c rest) (hpos : 0 < c.toNat)
    (htails : 0 < tails) (hbits : 2 ≤ bits) : 0x80 ≤ c.toNat := by
  obtain ⟨value, _, hvalue, rfl⟩ := le_of_scanTails h
  have := toNat_ofNat_eq_or value
  omega

theorem toNat_eq_of_scan_eq_char {b : UInt8} {bytes rest : Bytes} {c : Char}
    (h : scan b bytes = .char c rest) (hpos : 0 < c.toNat) (hc : c.toNat < 0x80) :
    b.toNat = c.toNat := by
  unfold scan at h
  split at h
  · next lead hlead =>
    obtain ⟨bits, tails, low, high⟩ := lead
    obtain ⟨hlow, ⟨rfl, rfl, hb⟩ | ⟨htails, hbits⟩ | ⟨htails, hfirst⟩⟩ := lead?_eq_some hlead
    all_goals dsimp only at *
    · rw [scanTails_zero] at h
      injection h with h
      subst h
      have := toNat_ofNat_eq_or b.toNat
      omega
    · have := le_toNat_of_scanTails h hpos htails hbits
      omega
    · -- The lead byte itself may stand for next to nothing, but then there are two more bytes.
      obtain ⟨tails, rfl⟩ := Nat.exists_eq_add_of_lt htails
      cases bytes with
      | nil => contradiction
      | cons byte bytes =>
        rw [scanTails] at h
        split at h
        · next hrange =>
          have := le_toNat_of_scanTails h hpos (by omega) (by omega)
          omega
        · contradiction
  · contradiction

theorem suffix_of_scanTails {bits tails low high : Nat} {bytes rest : Bytes}
    (h : (∃ c, scanTails bits tails low high bytes = .char c rest) ∨
      scanTails bits tails low high bytes = .malformed rest) : rest <:+ bytes := by
  fun_induction scanTails bits tails low high bytes with
  | case1 bits low high bytes =>
    rcases h with ⟨c, h⟩ | h
    · cases h
      exact List.suffix_refl _
    · contradiction
  | case2 bits low high tails => simp at h
  | case3 bits low high tails byte bytes hrange ih =>
    exact List.IsSuffix.trans (ih h) (List.suffix_cons byte bytes)
  | case4 bits low high tails byte bytes hrange =>
    rcases h with ⟨c, h⟩ | h
    · contradiction
    · cases h
      exact List.suffix_refl _

theorem suffix_of_scan {b : UInt8} {bytes rest : Bytes}
    (h : (∃ c, scan b bytes = .char c rest) ∨ scan b bytes = .malformed rest) :
    rest <:+ bytes := by
  unfold scan at h
  split at h
  · exact suffix_of_scanTails h
  · rcases h with ⟨c, h⟩ | h
    · contradiction
    · cases h
      exact List.suffix_refl _

theorem mem_of_some_mem_pieces {bytes : Bytes} {c : Char} (h : some c ∈ pieces bytes)
    (hpos : 0 < c.toNat) (hc : c.toNat < 0x80) : UInt8.ofNat c.toNat ∈ bytes := by
  fun_induction pieces bytes with
  | case1 => contradiction
  | case2 byte bytes d remaining hscan _ ih =>
    rcases List.mem_cons.1 h with heq | h
    · injection heq with heq
      subst heq
      rw [← toNat_eq_of_scan_eq_char hscan hpos hc, UInt8.ofNat_toNat]
      exact List.mem_cons_self
    · apply List.mem_cons_of_mem
      apply (suffix_of_scan (.inl ⟨d, hscan⟩)).subset
      exact ih h
  | case3 byte bytes hscan => simp at h
  | case4 byte bytes remaining hscan _ ih =>
    apply List.mem_cons_of_mem
    apply (suffix_of_scan (.inr hscan)).subset
    apply ih
    simpa using h

theorem mem_of_mem_decodeLossy {bytes : Bytes} {c : Char} (h : c ∈ decodeLossy bytes)
    (hpos : 0 < c.toNat) (hc : c.toNat < 0x80) : UInt8.ofNat c.toNat ∈ bytes := by
  unfold decodeLossy at h
  rw [List.mem_map] at h
  obtain ⟨piece, hpiece, heq⟩ := h
  cases piece with
  | some d =>
    rw [Option.getD_some] at heq
    subst heq
    exact mem_of_some_mem_pieces hpiece hpos hc
  | none =>
    rw [Option.getD_none] at heq
    subst heq
    contradiction

theorem mem_encodeChar {b : UInt8} {c : Char} (h : b ∈ encodeChar c) (hb : b.toNat < 0x80) :
    b.toNat = c.toNat := by
  have hvalid : c.toNat < 0xD800 ∨ 0xDFFF < c.toNat ∧ c.toNat < 0x110000 := c.valid
  -- All bytes of a sequence of several bytes lie above the ASCII characters.
  have hmany : ∀ n, b = UInt8.ofNat n → 0x80 ≤ n → n < 0x100 → False := by
    intro n heq hlow hhigh
    rw [heq, toNat_ofNat_of_lt hhigh] at hb
    omega
  unfold encodeChar at h
  dsimp only at h
  split at h
  · rw [List.mem_singleton] at h
    rw [h, toNat_ofNat_of_lt]
    omega
  · exfalso
    split at h
    · simp only [List.mem_cons, List.not_mem_nil, or_false] at h
      rcases h with h | h
      all_goals exact hmany _ h (by omega) (by omega)
    · split at h
      · simp only [List.mem_cons, List.not_mem_nil, or_false] at h
        rcases h with h | h | h
        all_goals exact hmany _ h (by omega) (by omega)
      · simp only [List.mem_cons, List.not_mem_nil, or_false] at h
        rcases h with h | h | h | h
        all_goals exact hmany _ h (by omega) (by omega)

theorem mem_of_mem_encode {b : UInt8} {t : Text} (h : b ∈ encode t) (hb : b.toNat < 0x80) :
    Char.ofNat b.toNat ∈ t := by
  unfold encode at h
  rw [List.mem_flatMap] at h
  obtain ⟨c, hc, hmem⟩ := h
  rw [mem_encodeChar hmem hb, Char.ofNat_toNat]
  exact hc

end Utf8

end Preflight
