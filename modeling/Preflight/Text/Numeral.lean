import Preflight.Text.Blank

/-!
This module contains the written form of natural numbers in a base from two to sixteen, and the
values of single digits.
-/

namespace Preflight

namespace Text

def numeral (base n : Nat) : Text :=
  if _h : 1 < base ∧ base ≤ n then
    numeral base (n / base) ++ [Nat.digitChar (n % base)]
  else
    [Nat.digitChar n]
termination_by n
decreasing_by exact Nat.div_lt_self (by omega) (by omega)

def decimal (n : Nat) : Text := numeral 10 n

def hexadecimal (n : Nat) : Text := numeral 16 n

def signedDecimal : Int → Text
  | .ofNat n => decimal n
  | .negSucc n => '-' :: decimal (n + 1)

def padLeft (fill : Char) (width : Nat) (t : Text) : Text :=
  List.replicate (width - t.length) fill ++ t

def hexDigit? (c : Char) : Option Nat :=
  if '0' ≤ c ∧ c ≤ '9' then some (c.toNat - 0x30)
  else if 'a' ≤ c ∧ c ≤ 'f' then some (c.toNat - 0x61 + 10)
  else if 'A' ≤ c ∧ c ≤ 'F' then some (c.toNat - 0x41 + 10)
  else none

def hexByte? (t : Text) : Option UInt8 :=
  let digits := if t.head? = some '+' then t.tail else t
  if digits.isEmpty then none
  else
    (digits.foldlM (fun n c => do
      let next := n * 16 + (← hexDigit? c)
      if next < 0x100 then some next else none) 0).map UInt8.ofNat

def charOfNumber? (n : Nat) : Option Char :=
  if n.isValidChar then some (Char.ofNat n) else none

theorem lt_of_hexDigit?_eq_some {c : Char} {n : Nat} (h : hexDigit? c = some n) :
    c.toNat < 0x80 ∧ n < 16 := by
  have hle : ∀ low high : Char, low ≤ c ∧ c ≤ high → low.toNat ≤ c.toNat ∧ c.toNat ≤ high.toNat :=
    fun _ _ h => h
  unfold hexDigit? at h
  split at h
  · next hrange =>
    have hrange := hle _ _ hrange
    simp at hrange h
    omega
  · split at h
    · next hrange =>
      have hrange := hle _ _ hrange
      simp at hrange h
      omega
    · split at h
      · next hrange =>
        have hrange := hle _ _ hrange
        simp at hrange h
        omega
      · contradiction

theorem hexByte?_pair {high low : Char} {m n : Nat} (hhigh : hexDigit? high = some m)
    (hlow : hexDigit? low = some n) : hexByte? [high, low] = some (UInt8.ofNat (m * 16 + n)) := by
  have hplus : high ≠ '+' := by
    rintro rfl
    contradiction
  have hm := (lt_of_hexDigit?_eq_some hhigh).2
  have hn := (lt_of_hexDigit?_eq_some hlow).2
  have hfirst : m < 256 := by omega
  have hboth : m * 16 + n < 256 := by omega
  simp [hexByte?, hplus, hhigh, hlow, hfirst, hboth]

theorem numeral_ne_nil (base n : Nat) : numeral base n ≠ [] := by
  unfold numeral
  split <;> simp

theorem length_numeral_le {base m n : Nat} (h : m ≤ n) :
    (numeral base m).length ≤ (numeral base n).length := by
  induction n using numeral.induct base generalizing m with
  | case1 n hn ih =>
    rw [numeral.eq_def base n, dif_pos hn, numeral.eq_def base m, List.length_append]
    split
    · rw [List.length_append]
      exact Nat.add_le_add_right (ih (Nat.div_le_div_right h)) 1
    · exact Nat.le_add_left 1 _
  | case2 n hn =>
    rw [numeral.eq_def base n, dif_neg hn, numeral.eq_def base m, dif_neg (by omega)]
    exact Nat.le_refl 1

theorem isDigit_of_mem_decimal {n : Nat} {c : Char} (h : c ∈ decimal n) : c.isDigit = true := by
  unfold decimal at h
  induction n using numeral.induct 10 with
  | case1 n hn ih =>
    rw [numeral, dif_pos hn, List.mem_append, List.mem_singleton] at h
    obtain h | rfl := h
    · exact ih h
    · rw [Nat.isDigit_digitChar]
      exact decide_eq_true (Nat.mod_lt n (by decide))
  | case2 n hn =>
    rw [numeral, dif_neg hn, List.mem_singleton] at h
    rw [h, Nat.isDigit_digitChar]
    exact decide_eq_true (by omega)

theorem length_padLeft (fill : Char) (width : Nat) (t : Text) :
    (padLeft fill width t).length = max width t.length := by
  simp only [padLeft, List.length_append, List.length_replicate]
  omega

end Text

end Preflight
