import Mathlib.Data.List.Forall2
import Preflight.Text.Quoted

/-!
This module contains that numerals and quoted texts can be read back: where one of them ends can be
told from what is written, and so can what it stands for.
-/

namespace Preflight

namespace Text

variable {c d : Char} {s t x y : Text}

theorem eq_of_append_cons_eq (hx : c ∉ x) (hy : c ∉ y) (h : x ++ c :: s = y ++ c :: t) :
    x = y ∧ s = t := by
  induction x generalizing y with
  | nil =>
    cases y with
    | nil => exact ⟨rfl, List.tail_eq_of_cons_eq h⟩
    | cons d y => exact absurd (List.mem_cons.2 (.inl (List.head_eq_of_cons_eq h))) hy
  | cons d x ih =>
    cases y with
    | nil => exact absurd (List.mem_cons.2 (.inl (List.head_eq_of_cons_eq h).symm)) hx
    | cons e y =>
      obtain ⟨hde, htail⟩ := List.cons_eq_cons.1 h
      obtain ⟨rfl, rfl⟩ := ih (List.not_mem_of_not_mem_cons hx) (List.not_mem_of_not_mem_cons hy)
        htail
      exact ⟨by rw [hde], rfl⟩

theorem notMem_numeral (hc : ∀ digit, Nat.digitChar digit ≠ c) (base n : Nat) :
    c ∉ numeral base n := by
  induction n using numeral.induct base with
  | case1 n hn ih =>
    rw [numeral, dif_pos hn, List.mem_append, List.mem_singleton, not_or]
    exact ⟨ih, (hc _).symm⟩
  | case2 n hn =>
    rw [numeral, dif_neg hn, List.mem_singleton]
    exact (hc n).symm

theorem eq_of_digitChar_eq {m n : Nat} (hm : m < 16) (hn : n < 16)
    (h : Nat.digitChar m = Nat.digitChar n) : m = n := by
  have hall : ∀ m < 16, ∀ n < 16, Nat.digitChar m = Nat.digitChar n → m = n := by decide
  exact hall m hm n hn h

theorem eq_of_numeral_eq {base m n : Nat} (hbase : 1 < base) (hbase' : base ≤ 16)
    (h : numeral base m = numeral base n) : m = n := by
  induction m using numeral.induct base generalizing n with
  | case1 m hm ih =>
    rw [numeral.eq_def base m, dif_pos hm, numeral.eq_def base n] at h
    split at h
    · obtain ⟨hfront, hlast⟩ := List.append_inj' h rfl
      have hmod := eq_of_digitChar_eq (Nat.lt_of_lt_of_le (Nat.mod_lt m (by omega)) hbase')
        (Nat.lt_of_lt_of_le (Nat.mod_lt n (by omega)) hbase') (List.head_eq_of_cons_eq hlast)
      rw [← Nat.div_add_mod m base, ← Nat.div_add_mod n base, ih hfront, hmod]
    · -- One digit is not as many as at least two.
      have hne := numeral_ne_nil base (m / base)
      exact absurd (List.append_eq_singleton_iff.1 h) (by simp [hne])
  | case2 m hm =>
    rw [numeral.eq_def base m, dif_neg hm, numeral.eq_def base n] at h
    split at h
    · have hne := numeral_ne_nil base (n / base)
      exact absurd (List.append_eq_singleton_iff.1 h.symm) (by simp [hne])
    · next hn =>
      exact eq_of_digitChar_eq (by omega) (by omega) (List.head_eq_of_cons_eq h)

theorem numeral_eq_toDigits {base : Nat} (hbase : 1 < base) (n : Nat) :
    numeral base n = Nat.toDigits base n := by
  induction n using numeral.induct base with
  | case1 n hn ih => rw [numeral, dif_pos hn, ih, Nat.toDigits_of_base_le hn.1 hn.2]
  | case2 n hn => rw [numeral, dif_neg hn, Nat.toDigits_of_lt_base (by omega)]

theorem decimal_eq_toDigits (n : Nat) : decimal n = Nat.toDigits 10 n :=
  numeral_eq_toDigits (by decide) n

theorem hexadecimal_eq_toDigits (n : Nat) : hexadecimal n = Nat.toDigits 16 n :=
  numeral_eq_toDigits (by decide) n

theorem intercalate_cons (separator t : Text) (ts : List Text) :
    separator.intercalate (t :: ts) = t ++ ts.flatMap (separator ++ ·) := by
  induction ts generalizing t with
  | nil => rw [List.intercalate_singleton, List.flatMap_nil, List.append_nil]
  | cons next ts ih =>
    rw [List.intercalate_cons_cons, ih, List.flatMap_cons, List.append_assoc, List.append_assoc]

def ofLetter? : Char → Option Char
  | '0' => some '\x00'
  | 't' => some '\t'
  | 'r' => some '\r'
  | 'n' => some '\n'
  | '\\' => some '\\'
  | '"' => some '"'
  | _ => none

inductive IsShownAs (c : Char) : Text → Prop where
  | letter {letter : Char} (h : ofLetter? letter = some c) : IsShownAs c ['\\', letter]
  | plain (hletter : ∀ letter, ofLetter? letter ≠ some c) (hprinted : isPrinted c = true) :
    IsShownAs c [c]
  | number (hletter : ∀ letter, ofLetter? letter ≠ some c) (hprinted : isPrinted c = false) :
    IsShownAs c (['\\', 'u', '\x7b'] ++ Nat.toDigits 16 c.toNat ++ ['\x7d'])

inductive IsQuoted (t : Text) : Text → Prop where
  | intro {parts : List Text} (h : List.Forall₂ IsShownAs t parts) :
    IsQuoted t ('"' :: parts.flatten ++ ['"'])

theorem escapeChar_of_ofLetter?_ne (h : ∀ letter, ofLetter? letter ≠ some c) :
    escapeChar c = if isPrinted c then [c] else
      ['\\', 'u', '\x7b'] ++ hexadecimal c.toNat ++ ['\x7d'] := by
  have hne : ∀ letter d, ofLetter? letter = some d → c ≠ d := by
    rintro letter d hletter rfl
    exact h letter hletter
  unfold escapeChar
  rw [if_neg (hne '0' _ rfl), if_neg (hne 't' _ rfl), if_neg (hne 'r' _ rfl),
    if_neg (hne 'n' _ rfl), if_neg (hne '\\' _ rfl), if_neg (hne '"' _ rfl)]

theorem isShownAs_iff : IsShownAs c s ↔ s = escapeChar c := by
  constructor
  · intro h
    cases h with
    | letter h =>
      unfold ofLetter? at h
      split at h <;> first | contradiction | (obtain rfl := Option.some.inj h; rfl)
    | plain hletter hprinted => rw [escapeChar_of_ofLetter?_ne hletter, if_pos hprinted]
    | number hletter hprinted =>
      rw [escapeChar_of_ofLetter?_ne hletter, if_neg (by simp [hprinted]), hexadecimal_eq_toDigits]
  · rintro rfl
    by_cases hletter : ∃ letter, ofLetter? letter = some c
    · obtain ⟨letter, hletter⟩ := hletter
      have hc := hletter
      unfold ofLetter? at hc
      split at hc <;>
        first | contradiction | (obtain rfl := Option.some.inj hc; exact .letter hletter)
    · rw [not_exists] at hletter
      rw [escapeChar_of_ofLetter?_ne hletter, hexadecimal_eq_toDigits]
      split
      · next hprinted => exact .plain hletter hprinted
      · next hprinted => exact .number hletter (Bool.eq_false_iff.2 hprinted)

theorem isQuoted_iff : IsQuoted t s ↔ s = quote t := by
  unfold quote
  rw [List.flatMap_def]
  constructor
  · rintro ⟨h⟩
    congr
    induction h with
    | nil => rfl
    | cons hc _ ih => rw [List.map_cons, ← isShownAs_iff.1 hc, ← ih]
  · rintro rfl
    exact .intro (List.forall₂_map_right_iff.2 (List.forall₂_same.2 fun c _ => isShownAs_iff.2 rfl))

theorem isQuoted_quote (t : Text) : IsQuoted t (quote t) := isQuoted_iff.2 rfl

theorem eq_of_toDigits_append_eq {m n : Nat}
    (h : Nat.toDigits 16 m ++ '\x7d' :: x = Nat.toDigits 16 n ++ '\x7d' :: y) : m = n ∧ x = y := by
  rw [← hexadecimal_eq_toDigits, ← hexadecimal_eq_toDigits] at h
  have hbrace : ∀ digit, Nat.digitChar digit ≠ '\x7d' := fun _ => Nat.digitChar_ne _ (by decide)
  obtain ⟨hnumeral, hrest⟩ :=
    eq_of_append_cons_eq (notMem_numeral hbrace 16 m) (notMem_numeral hbrace 16 n) h
  exact ⟨eq_of_numeral_eq (by decide) (by decide) hnumeral, hrest⟩

theorem IsShownAs.ne_of_plain (h : ∀ letter, ofLetter? letter ≠ some c) : c ≠ '\\' ∧ c ≠ '"' := by
  constructor
  · rintro rfl
    exact h '\\' rfl
  · rintro rfl
    exact h '"' rfl

theorem IsShownAs.eq_of_append_eq (hs : IsShownAs c s) (ht : IsShownAs d t)
    (h : s ++ x = t ++ y) : c = d ∧ x = y := by
  cases hs with
  | plain hplain _ =>
    have hbackslash := (ne_of_plain hplain).1
    cases ht with
    | plain => exact List.cons_eq_cons.1 h
    | letter => exact absurd (List.head_eq_of_cons_eq h) hbackslash
    | number => exact absurd (List.head_eq_of_cons_eq h) hbackslash
  | letter hletter =>
    cases ht with
    | plain hplain _ => exact absurd (List.head_eq_of_cons_eq h).symm (ne_of_plain hplain).1
    | letter hletter' =>
      simp only [List.cons_append, List.nil_append, List.cons.injEq, true_and] at h
      obtain ⟨rfl, hrest⟩ := h
      exact ⟨Option.some.inj (hletter.symm.trans hletter'), hrest⟩
    | number =>
      simp only [List.cons_append, List.nil_append, List.cons.injEq, true_and] at h
      obtain ⟨rfl, _⟩ := h
      contradiction
  | number =>
    cases ht with
    | plain hplain _ => exact absurd (List.head_eq_of_cons_eq h).symm (ne_of_plain hplain).1
    | letter hletter =>
      simp only [List.cons_append, List.nil_append, List.cons.injEq, true_and] at h
      obtain ⟨rfl, _⟩ := h
      contradiction
    | number =>
      simp only [List.cons_append, List.nil_append, List.cons.injEq, true_and,
        List.append_assoc] at h
      obtain ⟨hnumber, hrest⟩ := eq_of_toDigits_append_eq h
      exact ⟨Char.toNat_inj.1 hnumber, hrest⟩

theorem IsShownAs.append_ne_quote_cons (h : IsShownAs c s) : s ++ x ≠ '"' :: y := by
  intro heq
  cases h with
  | plain hplain _ => exact (ne_of_plain hplain).2 (List.head_eq_of_cons_eq heq)
  | letter => exact absurd (List.head_eq_of_cons_eq heq) (by decide)
  | number => exact absurd (List.head_eq_of_cons_eq heq) (by decide)

/--
A quoted text ends at the first quote that is not written with a backslash, and it is the only text
that is quoted in this way.
-/
theorem eq_of_quote_append_eq (h : quote s ++ x = quote t ++ y) : s = t ∧ x = y := by
  simp only [quote, List.cons_append, List.append_assoc, List.nil_append, List.cons.injEq,
    true_and] at h
  have hshown : ∀ c, IsShownAs c (escapeChar c) := fun c => isShownAs_iff.2 rfl
  induction s generalizing t with
  | nil =>
    cases t with
    | nil => exact ⟨rfl, List.tail_eq_of_cons_eq h⟩
    | cons d t =>
      rw [List.flatMap_cons, List.append_assoc] at h
      exact absurd h.symm (hshown d).append_ne_quote_cons
  | cons c s ih =>
    rw [List.flatMap_cons, List.append_assoc] at h
    cases t with
    | nil => exact absurd h (hshown c).append_ne_quote_cons
    | cons d t =>
      rw [List.flatMap_cons, List.append_assoc] at h
      obtain ⟨rfl, htail⟩ := (hshown c).eq_of_append_eq (hshown d) h
      obtain ⟨rfl, hrest⟩ := ih htail
      exact ⟨rfl, hrest⟩

end Text

end Preflight
