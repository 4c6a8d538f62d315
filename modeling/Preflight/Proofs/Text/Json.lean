import Mathlib.Data.List.Forall2
import Preflight.Proofs.Text.Quoted
import Preflight.Text.Json

/-!
This module contains what the JSON documents are that structured values are printed as: each element
of a list or a record has a line of its own, and the lines of the elements are indented by two
spaces.
-/

namespace Preflight

namespace Json

def letters : List (Char × Char) :=
  [('"', '"'), ('\\', '\\'), ('b', '\x08'), ('f', '\x0c'), ('n', '\n'), ('r', '\r'), ('t', '\t')]

inductive IsEscaped (c : Char) : Text → Prop where
  | letter {letter : Char} (h : (letter, c) ∈ letters) : IsEscaped c ['\\', letter]
  | number (hletters : c ∉ letters.map Prod.snd) (hcontrol : c.toNat < 0x20) {zeros : Nat}
    (hzeros : zeros + (Nat.toDigits 16 c.toNat).length = 4) :
    IsEscaped c (['\\', 'u'] ++ List.replicate zeros '0' ++ Nat.toDigits 16 c.toNat)
  | plain (hletters : c ∉ letters.map Prod.snd) (hcontrol : 0x20 ≤ c.toNat) : IsEscaped c [c]

inductive IsQuoted (t : Text) : Text → Prop where
  | intro {parts : List Text} (h : List.Forall₂ IsEscaped t parts) :
    IsQuoted t ('"' :: parts.flatten ++ ['"'])

def indented (spaces : Nat) (t : Text) : Text :=
  t.flatMap fun c => if c = '\n' then '\n' :: List.replicate spaces ' ' else [c]

/--
What a value is written as. The lines of its elements are those that these have on their own, but
further to the right.
-/
inductive IsPretty : Json → Text → Prop where
  | text {t s : Text} (h : IsQuoted t s) : IsPretty (.text t) s
  | number (n : Nat) : IsPretty (.number n) (Nat.toDigits 10 n)
  | flag (b : Bool) : IsPretty (.flag b) (if b then "true".toList else "false".toList)
  | noValues : IsPretty (.list []) ['[', ']']
  | list {values : List Json} {texts : List Text} (hne : values ≠ [])
    (h : List.Forall₂ IsPretty values texts) :
    IsPretty (.list values)
      ('[' :: indented 2 ('\n' :: [',', '\n'].intercalate texts) ++ ['\n', ']'])
  | noMembers : IsPretty (.record []) ['\x7b', '\x7d']
  | record {members : List (Text × Json)} {names texts : List Text} (hne : members ≠ [])
    (hnames : List.Forall₂ IsQuoted (members.map Prod.fst) names)
    (h : List.Forall₂ IsPretty (members.map Prod.snd) texts) :
    IsPretty (.record members)
      ('\x7b' :: indented 2 ('\n' :: [',', '\n'].intercalate
          (names.zipWith (fun name t => name ++ [':', ' '] ++ t) texts)) ++ ['\n', '\x7d'])

theorem isEscaped_escapeChar (c : Char) : IsEscaped c (escapeChar c) := by
  unfold escapeChar
  repeat' split
  -- Seven characters have a letter of their own.
  iterate 7
    next h =>
    subst h
    exact .letter (by decide)
  · next hcontrol =>
    rw [Text.hexadecimal_eq_toDigits, Text.padLeft, ← List.append_assoc]
    have hlength : ∀ n < 0x20, (Nat.toDigits 16 n).length ≤ 4 := by decide
    refine .number ?_ hcontrol (Nat.sub_add_cancel (hlength _ hcontrol))
    simp_all [letters]
  · next hcontrol =>
    refine .plain ?_ (Nat.not_lt.1 hcontrol)
    simp_all [letters]

theorem isQuoted_quote (t : Text) : IsQuoted t (quote t) := by
  unfold quote
  rw [List.flatMap_def]
  exact .intro (List.forall₂_map_right_iff.2 (List.forall₂_same.2 fun c _ => isEscaped_escapeChar c))

section indented

variable (spaces : Nat)

theorem indented_append (s t : Text) :
    indented spaces (s ++ t) = indented spaces s ++ indented spaces t :=
  List.flatMap_append

theorem indented_cons_of_ne {c : Char} (h : c ≠ '\n') (t : Text) :
    indented spaces (c :: t) = c :: indented spaces t := by
  unfold indented
  rw [List.flatMap_cons, if_neg h, List.singleton_append]

theorem indented_newline_cons (t : Text) :
    indented spaces ('\n' :: t) =
      '\n' :: List.replicate spaces ' ' ++ indented spaces t := rfl

theorem indented_of_notMem {t : Text} (h : '\n' ∉ t) : indented spaces t = t := by
  induction t with
  | nil => rfl
  | cons c t ih =>
    rw [List.mem_cons, not_or] at h
    rw [indented_cons_of_ne _ (Ne.symm h.1), ih h.2]

theorem indented_zero (t : Text) : indented 0 t = t := by
  induction t with
  | nil => rfl
  | cons c t ih =>
    by_cases hc : c = '\n'
    · rw [hc, indented_newline_cons, ih]
      rfl
    · rw [indented_cons_of_ne _ hc, ih]

theorem indented_indented (t : Text) :
    indented spaces (indented 2 t) = indented (spaces + 2) t := by
  induction t with
  | nil => rfl
  | cons c t ih =>
    by_cases hc : c = '\n'
    · rw [hc, indented_newline_cons, indented_newline_cons, indented_append, ih]
      simp [indented_newline_cons, indented_of_notMem, List.replicate_succ']
    · rw [indented_cons_of_ne _ hc, indented_cons_of_ne _ hc, indented_cons_of_ne _ hc, ih]

end indented

theorem notMem_toDigits {base : Nat} (hbase : 1 < base) (n : Nat) :
    '\n' ∉ Nat.toDigits base n := by
  rw [← Text.numeral_eq_toDigits hbase]
  exact Text.notMem_numeral (fun _ => Nat.digitChar_ne '\n' (by decide)) base n

theorem IsEscaped.notMem {c : Char} {s : Text} (h : IsEscaped c s) : '\n' ∉ s := by
  cases h with
  | letter hletter =>
    have hne : ∀ pair ∈ letters, '\n' ∉ ['\\', pair.1] := by decide
    exact hne _ hletter
  | number hletters hcontrol hzeros =>
    have hdigits := notMem_toDigits (by decide : 1 < 16) c.toNat
    simp [hdigits, List.mem_replicate]
  | plain hletters hcontrol =>
    rw [List.mem_singleton]
    rintro rfl
    contradiction

theorem notMem_quote (t : Text) : '\n' ∉ quote t := by
  unfold quote
  simp [(isEscaped_escapeChar _).notMem]

theorem indented_elements (depth : Nat) (opening closing : Char) (hopening : opening ≠ '\n')
    (hclosing : closing ≠ '\n') (t : Text) (ts : List Text) :
    indented (2 * depth) (opening :: indented 2 ('\n' :: [',', '\n'].intercalate (t :: ts))
        ++ ['\n', closing]) =
      opening :: newline (depth + 1) ++ indented (2 * (depth + 1)) t
        ++ indented (2 * (depth + 1)) (ts.flatMap ([',', '\n'] ++ ·)) ++ newline depth
        ++ [closing] := by
  rw [Text.intercalate_cons, List.cons_append, indented_cons_of_ne _ hopening, indented_append,
    indented_indented, indented_newline_cons, indented_append, indented_newline_cons,
    indented_cons_of_ne _ hclosing]
  simp [newline, Nat.mul_succ, indented]

theorem indented_element (depth : Nat) (t : Text) (ts : List Text) :
    indented (2 * depth) ((t :: ts).flatMap ([',', '\n'] ++ ·)) =
      ',' :: newline depth ++ indented (2 * depth) t
        ++ indented (2 * depth) (ts.flatMap ([',', '\n'] ++ ·)) := by
  rw [List.flatMap_cons, indented_append, indented_append, indented_cons_of_ne _ (by decide),
    indented_newline_cons]
  simp [newline, indented]

theorem indented_member (depth : Nat) (name t : Text) :
    indented (2 * depth) (quote name ++ [':', ' '] ++ t) =
      quote name ++ [':', ' '] ++ indented (2 * depth) t := by
  rw [indented_append, indented_append, indented_of_notMem _ (notMem_quote name)]
  rfl

mutual

theorem exists_isPretty : ∀ value : Json, ∃ t, IsPretty value t ∧
    ∀ depth, print depth value = indented (2 * depth) t
  | .text t => by
    refine ⟨_, .text (isQuoted_quote t), fun depth => ?_⟩
    rw [print, indented_of_notMem _ (notMem_quote t)]
  | .number n => by
    refine ⟨_, .number n, fun depth => ?_⟩
    rw [print, Text.decimal_eq_toDigits, indented_of_notMem _ (notMem_toDigits (by decide) n)]
  | .flag b => ⟨_, .flag b, fun depth => by cases b <;> rfl⟩
  | .list [] => ⟨_, .noValues, fun depth => rfl⟩
  | .list (value :: values) => by
    obtain ⟨t, ht, hprint⟩ := exists_isPretty value
    obtain ⟨ts, hts, hprints⟩ := exists_arePretty values
    refine ⟨_, .list (List.cons_ne_nil _ _) (.cons ht hts), fun depth => ?_⟩
    rw [print, hprint, hprints, indented_elements depth _ _ (by decide) (by decide)]
  | .record [] => ⟨_, .noMembers, fun depth => rfl⟩
  | .record ((name, value) :: members) => by
    obtain ⟨t, ht, hprint⟩ := exists_isPretty value
    obtain ⟨names, ts, hnames, hts, hprints⟩ := exists_areMembers members
    refine ⟨_, .record (List.cons_ne_nil _ _) (.cons (isQuoted_quote name) hnames) (.cons ht hts),
      fun depth => ?_⟩
    rw [print, hprint, hprints, List.zipWith_cons_cons,
      indented_elements depth _ _ (by decide) (by decide), indented_member]
    simp

theorem exists_arePretty : ∀ values : List Json, ∃ ts, List.Forall₂ IsPretty values ts ∧
    ∀ depth, printValues depth values = indented (2 * depth) (ts.flatMap ([',', '\n'] ++ ·))
  | [] => ⟨[], .nil, fun depth => rfl⟩
  | value :: values => by
    obtain ⟨t, ht, hprint⟩ := exists_isPretty value
    obtain ⟨ts, hts, hprints⟩ := exists_arePretty values
    refine ⟨_, .cons ht hts, fun depth => ?_⟩
    rw [printValues, hprint, hprints, indented_element]

theorem exists_areMembers : ∀ members : List (Text × Json), ∃ names ts,
    List.Forall₂ IsQuoted (members.map Prod.fst) names ∧
    List.Forall₂ IsPretty (members.map Prod.snd) ts ∧
    ∀ depth, printMembers depth members = indented (2 * depth)
      ((names.zipWith (fun name t => name ++ [':', ' '] ++ t) ts).flatMap ([',', '\n'] ++ ·))
  | [] => ⟨[], [], .nil, .nil, fun depth => rfl⟩
  | (name, value) :: members => by
    obtain ⟨t, ht, hprint⟩ := exists_isPretty value
    obtain ⟨names, ts, hnames, hts, hprints⟩ := exists_areMembers members
    refine ⟨_, _, .cons (isQuoted_quote name) hnames, .cons ht hts, fun depth => ?_⟩
    rw [printMembers, hprint, hprints, List.zipWith_cons_cons, indented_element, indented_member]
    simp

end

theorem exists_pretty_eq (value : Json) : ∃ t, IsPretty value t ∧ value.pretty = t ++ ['\n'] := by
  obtain ⟨t, ht, hprint⟩ := exists_isPretty value
  refine ⟨t, ht, ?_⟩
  unfold pretty
  rw [hprint 0, Nat.mul_zero, indented_zero]

end Json

end Preflight
