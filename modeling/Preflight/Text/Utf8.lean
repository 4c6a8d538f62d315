import Preflight.Text.Blank

/-!
This module contains UTF-8: the encoding of characters as bytes, and a decoder that finds the first
character of a byte sequence or the maximal ill-formed part in front of it.

A lead byte fixes how many continuation bytes follow and the range of the first of them. With that
range neither overlong forms nor surrogates are ever accepted, so every accepted sequence denotes
a character.
-/

namespace Preflight

namespace Utf8

abbrev Bytes := List UInt8

def encodeChar (c : Char) : Bytes :=
  let n := c.toNat
  if n < 0x80 then
    [UInt8.ofNat n]
  else if n < 0x800 then
    [UInt8.ofNat (0xC0 + n / 0x40), UInt8.ofNat (0x80 + n % 0x40)]
  else if n < 0x10000 then
    [UInt8.ofNat (0xE0 + n / 0x1000), UInt8.ofNat (0x80 + n / 0x40 % 0x40),
      UInt8.ofNat (0x80 + n % 0x40)]
  else
    [UInt8.ofNat (0xF0 + n / 0x40000), UInt8.ofNat (0x80 + n / 0x1000 % 0x40),
      UInt8.ofNat (0x80 + n / 0x40 % 0x40), UInt8.ofNat (0x80 + n % 0x40)]

def encode (t : Text) : Bytes := t.flatMap encodeChar

def ofString (s : String) : Bytes := encode s.toList

@[simp]
theorem encode_nil : encode [] = [] := rfl

@[simp]
theorem encode_append (s t : Text) : encode (s ++ t) = encode s ++ encode t := by
  simp [encode]

structure Lead where
  bits : Nat
  tails : Nat
  low : Nat
  high : Nat

/--
The promise of a lead byte. Continuation bytes, and the bytes that could only start an overlong
form or a value above the last character, are no lead bytes.
-/
def lead? (b : UInt8) : Option Lead :=
  let n := b.toNat
  if n < 0x80 then some ⟨n, 0, 0x80, 0xBF⟩
  else if n < 0xC2 then none
  else if n < 0xE0 then some ⟨n - 0xC0, 1, 0x80, 0xBF⟩
  else if n = 0xE0 then some ⟨0, 2, 0xA0, 0xBF⟩
  else if n = 0xED then some ⟨0xD, 2, 0x80, 0x9F⟩
  else if n < 0xF0 then some ⟨n - 0xE0, 2, 0x80, 0xBF⟩
  else if n = 0xF0 then some ⟨0, 3, 0x90, 0xBF⟩
  else if n < 0xF4 then some ⟨n - 0xF0, 3, 0x80, 0xBF⟩
  else if n = 0xF4 then some ⟨4, 3, 0x80, 0x8F⟩
  else none

inductive Scan where
  | char (c : Char) (rest : Bytes)
  -- The sequence ends within a character.
  | truncated
  -- A maximal part that no character can contain comes first.
  | malformed (rest : Bytes)
  deriving DecidableEq, Repr

def scanTails (bits tails low high : Nat) (bytes : Bytes) : Scan :=
  match tails, bytes with
  | 0, bytes => .char (Char.ofNat bits) bytes
  | _ + 1, [] => .truncated
  | tails + 1, b :: rest =>
    if low ≤ b.toNat ∧ b.toNat ≤ high then
      scanTails (bits * 0x40 + (b.toNat - 0x80)) tails 0x80 0xBF rest
    else
      .malformed (b :: rest)

def scan (b : UInt8) (rest : Bytes) : Scan :=
  match lead? b with
  | some lead => scanTails lead.bits lead.tails lead.low lead.high rest
  | none => .malformed rest

theorem length_le_of_scanTails_eq_char {bits tails low high : Nat} {bytes rest : Bytes} {c : Char}
    (h : scanTails bits tails low high bytes = .char c rest) : rest.length ≤ bytes.length := by
  fun_induction scanTails bits tails low high bytes with
  | case1 => simp_all
  | case2 => simp at h
  | case3 _ _ _ _ _ _ _ ih => exact Nat.le_succ_of_le (ih h)
  | case4 => simp at h

theorem length_le_of_scanTails_eq_malformed {bits tails low high : Nat} {bytes rest : Bytes}
    (h : scanTails bits tails low high bytes = .malformed rest) : rest.length ≤ bytes.length := by
  fun_induction scanTails bits tails low high bytes with
  | case1 => simp at h
  | case2 => simp at h
  | case3 _ _ _ _ _ _ _ ih => exact Nat.le_succ_of_le (ih h)
  | case4 => simp_all

theorem length_le_of_scan_eq_char {b : UInt8} {bytes rest : Bytes} {c : Char}
    (h : scan b bytes = .char c rest) : rest.length ≤ bytes.length := by
  unfold scan at h
  split at h
  · exact length_le_of_scanTails_eq_char h
  · simp at h

theorem length_le_of_scan_eq_malformed {b : UInt8} {bytes rest : Bytes}
    (h : scan b bytes = .malformed rest) : rest.length ≤ bytes.length := by
  unfold scan at h
  split at h
  · exact length_le_of_scanTails_eq_malformed h
  · simp_all

def pieces (bytes : Bytes) : List (Option Char) :=
  match bytes with
  | [] => []
  | b :: bytes =>
    match h : scan b bytes with
    | .char c rest =>
      have := length_le_of_scan_eq_char h
      some c :: pieces rest
    | .truncated => [none]
    | .malformed rest =>
      have := length_le_of_scan_eq_malformed h
      none :: pieces rest
termination_by bytes.length
decreasing_by all_goals simp only [List.length_cons]; omega

def decode? (bytes : Bytes) : Option Text := (pieces bytes).mapM id

def size (t : Text) : Nat := (encode t).length

def splitAt? : Text → Nat → Option (Text × Text)
  | [], place => if place = 0 then some ([], []) else none
  | c :: cs, place =>
    if place = 0 then some ([], c :: cs)
    else if (encodeChar c).length ≤ place then
      (splitAt? cs (place - (encodeChar c).length)).map fun (front, back) => (c :: front, back)
    else none

def slice? (start stop : Nat) (t : Text) : Option Text := do
  let (front, _) ← splitAt? t stop
  let (_, part) ← splitAt? front start
  return part

def decodeLossy (bytes : Bytes) : Text := (pieces bytes).map (·.getD '\ufffd')

def wellFormed (bytes : Bytes) : Text := (pieces bytes).filterMap id

@[simp]
theorem size_nil : size [] = 0 := rfl

theorem size_cons (c : Char) (t : Text) : size (c :: t) = (encodeChar c).length + size t := by
  simp [size, encode]

theorem length_encodeChar_pos (c : Char) : 0 < (encodeChar c).length := by
  unfold encodeChar
  dsimp only
  split
  · exact Nat.zero_lt_succ _
  · split
    · exact Nat.zero_lt_succ _
    · split <;> exact Nat.zero_lt_succ _

theorem length_encodeChar_of_ascii {c : Char} (h : c.toNat < 0x80) : (encodeChar c).length = 1 := by
  unfold encodeChar
  rw [if_pos h]
  rfl

theorem size_of_ascii {t : Text} (h : ∀ c ∈ t, c.toNat < 0x80) : size t = t.length := by
  induction t with
  | nil => rfl
  | cons c t ih =>
    rw [List.forall_mem_cons] at h
    rw [size_cons, length_encodeChar_of_ascii h.1, ih h.2, List.length_cons, Nat.add_comm]

theorem splitAt?_append (s t : Text) : splitAt? (s ++ t) (size s) = some (s, t) := by
  induction s with
  | nil => cases t <;> rfl
  | cons c s ih =>
    have hpos := length_encodeChar_pos c
    rw [List.cons_append, splitAt?, size_cons, if_neg (by omega), if_pos (Nat.le_add_right _ _),
      Nat.add_sub_cancel_left, ih]
    rfl

theorem slice?_append (front part back : Text) :
    slice? (size front) (size (front ++ part)) (front ++ part ++ back) = some part := by
  unfold slice?
  rw [splitAt?_append]
  change (splitAt? (front ++ part) (size front)).bind _ = _
  rw [splitAt?_append]
  rfl

theorem slice?_of_ascii {front part back : Text}
    (h : ∀ c ∈ front ++ part ++ back, c.toNat < 0x80) :
    slice? front.length (front.length + part.length) (front ++ part ++ back) = some part := by
  have hfront := (List.forall_mem_append.1 h).1
  rw [← List.length_append, ← size_of_ascii hfront,
    ← size_of_ascii (List.forall_mem_append.1 hfront).1]
  exact slice?_append front part back

end Utf8

end Preflight
