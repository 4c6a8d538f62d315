import Preflight.Proofs.Text.Utf8

/-!
This module contains that encoding is the inverse of decoding: well-formed bytes are the encoding of
the text that they are decoded to, and of no other.
-/

namespace Preflight

namespace Utf8

section decode

variable {b : UInt8} {bytes rest : Bytes} {c : Char}

theorem ofNat_eq_of_toNat_eq {n : Nat} (h : b.toNat = n) : UInt8.ofNat n = b := by
  rw [← h, UInt8.ofNat_toNat]

theorem exists_of_scanTails_succ {bits tails low high : Nat}
    (h : scanTails bits (tails + 1) low high bytes = .char c rest) :
    ∃ b more, bytes = b :: more ∧ low ≤ b.toNat ∧ b.toNat ≤ high ∧
      scanTails (bits * 0x40 + (b.toNat - 0x80)) tails 0x80 0xBF more = .char c rest := by
  cases bytes with
  | nil => contradiction
  | cons b more =>
    rw [scanTails] at h
    split at h
    · next hrange => exact ⟨b, more, rfl, hrange.1, hrange.2, h⟩
    · contradiction

theorem of_scanTails_zero {bits low high : Nat}
    (h : scanTails bits 0 low high bytes = .char c rest) : c = Char.ofNat bits ∧ rest = bytes := by
  rw [scanTails_zero] at h
  cases h
  exact ⟨rfl, rfl⟩

theorem lead?_cases {lead : Lead} (h : lead? b = some lead) :
    b.toNat < 0x80 ∧ lead = ⟨b.toNat, 0, 0x80, 0xBF⟩ ∨
      (∃ n, 2 ≤ n ∧ n < 0x20 ∧ b.toNat = 0xC0 + n ∧ lead = ⟨n, 1, 0x80, 0xBF⟩) ∨
      (∃ n, n < 0x10 ∧ b.toNat = 0xE0 + n ∧
        lead = ⟨n, 2, if n = 0 then 0xA0 else 0x80, if n = 0xD then 0x9F else 0xBF⟩) ∨
      ∃ n, n < 5 ∧ b.toNat = 0xF0 + n ∧
        lead = ⟨n, 3, if n = 0 then 0x90 else 0x80, if n = 4 then 0x8F else 0xBF⟩ := by
  have hlead : ∀ n other, b.toNat = n → lead? (UInt8.ofNat n) = some other → lead = other := by
    intro n other hn hother
    rw [ofNat_eq_of_toNat_eq hn, h] at hother
    exact Option.some.inj hother
  by_cases hone : b.toNat < 0x80
  · exact .inl ⟨hone, hlead _ _ rfl (lead?_ascii hone)⟩
  · by_cases htwo : 0xC2 ≤ b.toNat ∧ b.toNat < 0xE0
    · right
      left
      refine ⟨b.toNat - 0xC0, by omega, by omega, by omega, ?_⟩
      exact hlead _ _ (by omega) (lead?_two (by omega) (by omega))
    · by_cases hthree : 0xE0 ≤ b.toNat ∧ b.toNat < 0xF0
      · right
        right
        left
        refine ⟨b.toNat - 0xE0, by omega, by omega, ?_⟩
        exact hlead _ _ (by omega) (lead?_three (by omega))
      · by_cases hfour : 0xF0 ≤ b.toNat ∧ b.toNat < 0xF5
        · right
          right
          right
          refine ⟨b.toNat - 0xF0, by omega, by omega, ?_⟩
          exact hlead _ _ (by omega) (lead?_four (by omega))
        · exfalso
          unfold lead? at h
          grind

section value

variable {n : Nat}

theorem encodeChar_ofNat_two (hlow : 0x80 ≤ n) (hhigh : n < 0x800) :
    encodeChar (Char.ofNat n) = [UInt8.ofNat (0xC0 + n / 0x40), UInt8.ofNat (0x80 + n % 0x40)] := by
  have hvalid : n.isValidChar := .inl (by omega)
  unfold encodeChar
  dsimp only
  rw [toNat_ofNat_of_isValidChar hvalid, if_neg (by omega), if_pos hhigh]

theorem encodeChar_ofNat_three (hlow : 0x800 ≤ n) (hhigh : n < 0x10000) (hvalid : n.isValidChar) :
    encodeChar (Char.ofNat n) =
      [UInt8.ofNat (0xE0 + n / 0x1000), UInt8.ofNat (0x80 + n / 0x40 % 0x40),
        UInt8.ofNat (0x80 + n % 0x40)] := by
  unfold encodeChar
  dsimp only
  rw [toNat_ofNat_of_isValidChar hvalid, if_neg (by omega), if_neg (by omega), if_pos hhigh]

theorem encodeChar_ofNat_four (hlow : 0x10000 ≤ n) (hvalid : n.isValidChar) :
    encodeChar (Char.ofNat n) =
      [UInt8.ofNat (0xF0 + n / 0x40000), UInt8.ofNat (0x80 + n / 0x1000 % 0x40),
        UInt8.ofNat (0x80 + n / 0x40 % 0x40), UInt8.ofNat (0x80 + n % 0x40)] := by
  unfold encodeChar
  dsimp only
  rw [toNat_ofNat_of_isValidChar hvalid, if_neg (by omega), if_neg (by omega), if_neg (by omega)]

end value

theorem encodeChar_append_of_scan (h : scan b bytes = .char c rest) :
    encodeChar c ++ rest = b :: bytes := by
  unfold scan at h
  split at h
  · next lead hlead =>
    rcases lead?_cases hlead with
      ⟨hb, rfl⟩ | ⟨n, hlow, hhigh, hb, rfl⟩ | ⟨n, hn, hb, rfl⟩ | ⟨n, hn, hb, rfl⟩
    all_goals dsimp only at h
    · obtain ⟨hc, hrest⟩ := of_scanTails_zero h
      rw [hc, hrest]
      have hvalid : b.toNat.isValidChar := .inl (by omega)
      unfold encodeChar
      dsimp only
      rw [toNat_ofNat_of_isValidChar hvalid, if_pos hb, UInt8.ofNat_toNat]
      rfl
    · obtain ⟨b₁, more, rfl, hlow₁, hhigh₁, h⟩ := exists_of_scanTails_succ h
      obtain ⟨hc, hrest⟩ := of_scanTails_zero h
      rw [hc, hrest]
      have hfirst : b.toNat = 0xC0 + (n * 0x40 + (b₁.toNat - 0x80)) / 0x40 := by omega
      have hsecond : b₁.toNat = 0x80 + (n * 0x40 + (b₁.toNat - 0x80)) % 0x40 := by omega
      rw [encodeChar_ofNat_two (by omega) (by omega)]
      rw [ofNat_eq_of_toNat_eq hfirst, ofNat_eq_of_toNat_eq hsecond]
      rfl
    · obtain ⟨b₁, more, rfl, hlow₁, hhigh₁, h⟩ := exists_of_scanTails_succ h
      obtain ⟨b₂, more, rfl, hlow₂, hhigh₂, h⟩ := exists_of_scanTails_succ h
      obtain ⟨hc, hrest⟩ := of_scanTails_zero h
      rw [hc, hrest]
      -- Overlong forms and surrogates are ruled out by the range of the byte behind the first one.
      have hrange : 0x80 ≤ b₁.toNat ∧ b₁.toNat ≤ 0xBF ∧ (n = 0 → 0xA0 ≤ b₁.toNat) ∧
          (n = 0xD → b₁.toNat ≤ 0x9F) := by
        grind
      generalize hvalue : (n * 0x40 + (b₁.toNat - 0x80)) * 0x40 + (b₂.toNat - 0x80) = value
      have hfirst : b.toNat = 0xE0 + value / 0x1000 := by omega
      have hsecond : b₁.toNat = 0x80 + value / 0x40 % 0x40 := by omega
      have hthird : b₂.toNat = 0x80 + value % 0x40 := by omega
      have hvalid : value.isValidChar := by
        unfold Nat.isValidChar
        omega
      rw [encodeChar_ofNat_three (by omega) (by omega) hvalid]
      rw [ofNat_eq_of_toNat_eq hfirst, ofNat_eq_of_toNat_eq hsecond, ofNat_eq_of_toNat_eq hthird]
      rfl
    · obtain ⟨b₁, more, rfl, hlow₁, hhigh₁, h⟩ := exists_of_scanTails_succ h
      obtain ⟨b₂, more, rfl, hlow₂, hhigh₂, h⟩ := exists_of_scanTails_succ h
      obtain ⟨b₃, more, rfl, hlow₃, hhigh₃, h⟩ := exists_of_scanTails_succ h
      obtain ⟨hc, hrest⟩ := of_scanTails_zero h
      rw [hc, hrest]
      have hrange : 0x80 ≤ b₁.toNat ∧ b₁.toNat ≤ 0xBF ∧ (n = 0 → 0x90 ≤ b₁.toNat) ∧
          (n = 4 → b₁.toNat ≤ 0x8F) := by
        grind
      generalize hvalue : ((n * 0x40 + (b₁.toNat - 0x80)) * 0x40 + (b₂.toNat - 0x80)) * 0x40 +
        (b₃.toNat - 0x80) = value
      have hfirst : b.toNat = 0xF0 + value / 0x40000 := by omega
      have hsecond : b₁.toNat = 0x80 + value / 0x1000 % 0x40 := by omega
      have hthird : b₂.toNat = 0x80 + value / 0x40 % 0x40 := by omega
      have hfourth : b₃.toNat = 0x80 + value % 0x40 := by omega
      have hvalid : value.isValidChar := by
        unfold Nat.isValidChar
        omega
      rw [encodeChar_ofNat_four (by omega) hvalid]
      rw [ofNat_eq_of_toNat_eq hfirst, ofNat_eq_of_toNat_eq hsecond, ofNat_eq_of_toNat_eq hthird,
        ofNat_eq_of_toNat_eq hfourth]
      rfl
  · contradiction

theorem exists_of_mapM_cons {pieces : List (Option Char)} {t : Text}
    (h : (some c :: pieces).mapM id = some t) :
    ∃ rest, pieces.mapM id = some rest ∧ t = c :: rest := by
  rw [List.mapM_cons] at h
  cases hrest : pieces.mapM id with
  | none =>
    rw [hrest] at h
    contradiction
  | some rest =>
    rw [hrest] at h
    cases h
    exact ⟨rest, rfl, rfl⟩

theorem decode?_eq_some_iff {t : Text} : decode? bytes = some t ↔ bytes = encode t := by
  unfold decode?
  constructor
  · intro h
    fun_induction pieces bytes generalizing t with
    | case1 =>
      cases h
      rfl
    | case2 b bytes c rest hscan _ ih =>
      obtain ⟨t, ht, rfl⟩ := exists_of_mapM_cons h
      rw [← encodeChar_append_of_scan hscan, ih ht]
      rfl
    | case3 b bytes hscan => simp at h
    | case4 b bytes rest hscan _ ih => simp at h
  · rintro rfl
    rw [pieces_encode]
    induction t with
    | nil => rfl
    | cons c t ih =>
      rw [List.map_cons, List.mapM_cons, ih]
      rfl

end decode

end Utf8

end Preflight
