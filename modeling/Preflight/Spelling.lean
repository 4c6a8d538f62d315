import Preflight.Text.Blank

/-!
This module contains the distance between two spellings: the least number of edits that turn one into
the other, where an edit inserts, deletes or replaces one character or exchanges two neighbours, and
no character takes part in two edits.

The distances between the beginnings of two spellings are a table with a row for each beginning of
the longer one. A row depends on no more than the two rows in front of it.
-/

namespace Preflight

namespace Spelling

structure Rows (width : Nat) where
  before : Vector Nat width
  previous : Vector Nat width
  current : Vector Nat width

namespace Rows

def start (width : Nat) : Rows width := ⟨.replicate width 0, .range width, .replicate width 0⟩

def put {width : Nat} (rows : Rows width) (j distance : Nat) (h : j < width) : Rows width :=
  { rows with current := rows.current.set j distance }

def rotate {width : Nat} (rows : Rows width) : Rows width :=
  ⟨rows.previous, rows.current, rows.before⟩

variable (long short : Array Char)

def cell (rows : Rows (short.size + 1)) (i j : Nat) (hi : i < long.size) (hj : j < short.size) :
    Nat :=
  let delete := rows.previous[j + 1] + 1
  let insert := rows.current[j] + 1
  let keepOrReplace := rows.previous[j] + if long[i] = short[j] then 0 else 1
  let least := min (min delete insert) keepOrReplace
  if _ : 0 < i ∧ 0 < j then
    if long[i] = short[j - 1] ∧ long[i - 1] = short[j] then min least (rows.before[j - 1] + 1)
    else least
  else least

def fill (i : Nat) (hi : i < long.size) (rows : Rows (short.size + 1)) :
    (j : Nat) → j ≤ short.size → Rows (short.size + 1)
  | 0, _ => rows.put 0 (i + 1) (Nat.zero_lt_succ _)
  | j + 1, hj =>
    let filled := fill i hi rows j (Nat.le_of_succ_le hj)
    filled.put (j + 1) (cell long short filled i j hi hj) (Nat.succ_lt_succ hj)

def after : (i : Nat) → i ≤ long.size → Rows (short.size + 1)
  | 0, _ => start _
  | i + 1, hi =>
    (fill long short i hi (after i (Nat.le_of_succ_le hi)) short.size (Nat.le_refl _)).rotate

end Rows

def distanceToShorter (long short : Array Char) : Nat :=
  if short.isEmpty then long.size
  else (Rows.after long short long.size (Nat.le_refl _)).previous[short.size]

def distance (a b : Text) : Nat :=
  if b.length ≤ a.length then distanceToShorter a.toArray b.toArray
  else distanceToShorter b.toArray a.toArray

end Spelling

end Preflight
