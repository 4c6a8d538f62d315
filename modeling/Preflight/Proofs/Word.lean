import Preflight.Word

/-!
This module contains what putting backslashes into a word does to it, and how taking them away again
acts on parts of a word.
-/

namespace Preflight

namespace Word

inductive IsEscapeOf : Text → Text → Prop where
  | nil : IsEscapeOf [] []
  | plain {c : Char} {s t : Text} (hc : c ≠ '\\') (h : IsEscapeOf s t) :
    IsEscapeOf (c :: s) (c :: t)
  | escaped (c : Char) {s t : Text} (h : IsEscapeOf s t) : IsEscapeOf (c :: s) ('\\' :: c :: t)

def escapeWhere (p : Char → Bool) (t : Text) : Text :=
  t.flatMap fun c => if p c then ['\\', c] else [c]

theorem copyUnescaped_cons {c : Char} (hc : c ≠ '\\') (t : Text) :
    copyUnescaped (c :: t) = c :: copyUnescaped t := by
  rw [copyUnescaped.eq_def]
  split
  · contradiction
  · simp_all
  · simp_all
  · simp_all

theorem copyUnescaped_of_not_mem {t : Text} (h : '\\' ∉ t) : copyUnescaped t = t := by
  induction t with
  | nil => rfl
  | cons c t ih =>
    simp only [List.mem_cons, not_or] at h
    rw [copyUnescaped_cons (Ne.symm h.1), ih h.2]

theorem unescape_eq_copyUnescaped (t : Text) : unescape t = copyUnescaped t := by
  unfold unescape
  split
  · rfl
  · next h => rw [copyUnescaped_of_not_mem (mt List.contains_iff_mem.2 h)]

@[simp]
theorem unescape_nil : unescape [] = [] := rfl

@[simp]
theorem unescape_backslash_cons (c : Char) (t : Text) :
    unescape ('\\' :: c :: t) = c :: unescape t := by
  rw [unescape_eq_copyUnescaped, unescape_eq_copyUnescaped, copyUnescaped]

theorem unescape_cons {c : Char} (hc : c ≠ '\\') (t : Text) :
    unescape (c :: t) = c :: unescape t := by
  rw [unescape_eq_copyUnescaped, unescape_eq_copyUnescaped, copyUnescaped_cons hc]

theorem IsEscapeOf.unescape_eq {s t : Text} (h : IsEscapeOf s t) : unescape t = s := by
  induction h with
  | nil => rfl
  | plain hc _ ih => rw [unescape_cons hc, ih]
  | escaped c _ ih => rw [unescape_backslash_cons, ih]

@[simp]
theorem escapeWhere_nil (p : Char → Bool) : escapeWhere p [] = [] := rfl

theorem escapeWhere_cons_of_pos {p : Char → Bool} {c : Char} (hc : p c = true) (t : Text) :
    escapeWhere p (c :: t) = '\\' :: c :: escapeWhere p t := by
  simp [escapeWhere, hc]

theorem escapeWhere_cons_of_neg {p : Char → Bool} {c : Char} (hc : p c = false) (t : Text) :
    escapeWhere p (c :: t) = c :: escapeWhere p t := by
  simp [escapeWhere, hc]

theorem isEscapeOf_escapeWhere {p : Char → Bool} (hp : p '\\' = true) (t : Text) :
    IsEscapeOf t (escapeWhere p t) := by
  induction t with
  | nil => exact .nil
  | cons c t ih =>
    cases hc : p c with
    | true =>
      rw [escapeWhere_cons_of_pos hc]
      exact .escaped c ih
    | false =>
      rw [escapeWhere_cons_of_neg hc]
      apply IsEscapeOf.plain
      · rintro rfl
        simp_all
      · exact ih

theorem unescape_escapeWhere {p : Char → Bool} (hp : p '\\' = true) (t : Text) :
    unescape (escapeWhere p t) = t :=
  (isEscapeOf_escapeWhere hp t).unescape_eq

theorem mem_escapeWhere {p : Char → Bool} {t : Text} {c : Char} (h : c ∈ escapeWhere p t) :
    c = '\\' ∨ c ∈ t := by
  unfold escapeWhere at h
  rw [List.mem_flatMap] at h
  obtain ⟨d, hd, hc⟩ := h
  split at hc
  · simp only [List.mem_cons, List.not_mem_nil, or_false] at hc
    rcases hc with rfl | rfl
    · exact .inl rfl
    · exact .inr hd
  · simp only [List.mem_singleton] at hc
    exact .inr (hc ▸ hd)

theorem unescape_eq_self_of_not_mem {t : Text} (h : '\\' ∉ t) : unescape t = t :=
  if_neg (mt List.contains_iff_mem.1 h)

theorem length_unescape_le (t : Text) : (unescape t).length ≤ t.length := by
  rw [unescape_eq_copyUnescaped]
  fun_induction copyUnescaped t with
  | case1 => simp
  | case2 => simp
  | case3 c cs ih =>
    simp only [List.length_cons]
    omega
  | case4 c cs _ _ ih =>
    simp only [List.length_cons]
    omega

theorem length_unescape_lt_of_mem {t : Text} (h : '\\' ∈ t) :
    (unescape t).length < t.length := by
  rw [unescape_eq_copyUnescaped]
  fun_induction copyUnescaped t with
  | case1 => simp at h
  | case2 => simp
  | case3 c cs =>
    have := length_unescape_le cs
    rw [unescape_eq_copyUnescaped] at this
    simp only [List.length_cons]
    omega
  | case4 c cs _ hc ih =>
    have hne : '\\' ≠ c := by
      rintro rfl
      cases cs <;> simp_all
    have := ih ((List.mem_cons.1 h).resolve_left hne)
    simpa using this

theorem unescape_eq_self_iff {t : Text} : unescape t = t ↔ '\\' ∉ t := by
  constructor
  · intro heq hmem
    have := length_unescape_lt_of_mem hmem
    rw [heq] at this
    omega
  · exact unescape_eq_self_of_not_mem

theorem unescape_append_cons {c : Char} (hc : c ≠ '\\') (s t : Text) :
    unescape (s ++ c :: t) = unescape s ++ c :: unescape t := by
  simp only [unescape_eq_copyUnescaped]
  fun_induction copyUnescaped s with
  | case1 => simp [copyUnescaped_cons hc]
  | case2 => simp [copyUnescaped]
  | case3 d ds ih => simp [copyUnescaped, ih]
  | case4 d ds hd _ ih =>
    have hne : d ≠ '\\' := by
      rintro rfl
      cases ds <;> simp_all
    rw [List.cons_append, copyUnescaped_cons hne, ih]
    rfl

theorem mem_of_mem_unescape {t : Text} {c : Char} (h : c ∈ unescape t) : c ∈ t := by
  rw [unescape_eq_copyUnescaped] at h
  fun_induction copyUnescaped t with
  | case1 => exact h
  | case2 => contradiction
  | case3 d ds ih =>
    rw [List.mem_cons] at h
    rcases h with rfl | h
    · simp
    · simp [ih h]
  | case4 d ds _ _ ih =>
    rw [List.mem_cons] at h
    rcases h with rfl | h
    · exact List.mem_cons_self
    · exact List.mem_cons_of_mem d (ih h)

theorem isLocal_of_not_mem {t : Text} (h : '/' ∉ t) : isLocal t = false := by
  unfold isLocal
  split
  · simp at h
  · rfl

theorem areCommandChars_of_mem {slashes escaped : Bool} {t : Text}
    (h : areCommandChars slashes escaped t = true) {c : Char} (hc : c ∈ t) :
    (isCommandChar c || c == '/' || isReserved c) = true := by
  induction t generalizing escaped with
  | nil => simp at hc
  | cons d t ih =>
    unfold areCommandChars at h
    rw [Bool.and_eq_true] at h
    rcases List.mem_cons.1 hc with rfl | hc
    · have hfirst := h.1
      simp only [Bool.or_eq_true, Bool.and_eq_true] at hfirst ⊢
      exact hfirst.imp (Or.imp_right And.right) And.right
    · exact ih h.2 hc

theorem isCommandBody_of_mem {slashes : Bool} {t : Text} (h : isCommandBody slashes t = true)
    {c : Char} (hc : c ∈ t) : (isCommandChar c || c == '/' || isReserved c) = true := by
  unfold isCommandBody at h
  split at h
  · contradiction
  · rw [Bool.and_eq_true] at h
    exact areCommandChars_of_mem h.2 hc

theorem isCommand_of_mem {t : Text} (h : isCommand t = true) {c : Char} (hc : c ∈ t) :
    (isCommandChar c || c == '/' || isReserved c) = true := by
  unfold isCommand at h
  split at h
  · simp only [List.mem_cons] at hc
    rcases hc with rfl | rfl | hc
    · decide
    · decide
    · exact isCommandBody_of_mem h hc
  · exact isCommandBody_of_mem h hc

theorem ne_nil_of_isCommand {t : Text} (h : isCommand t = true) : t ≠ [] := by
  rintro rfl
  contradiction

theorem ne_of_isCommand {t : Text} (h : isCommand t = true) {c : Char} (hc : c ∈ t) :
    c ≠ '=' ∧ c ≠ '\n' ∧ c ≠ '\r' ∧ c ≠ '\x1b' := by
  have hchar := isCommand_of_mem h hc
  refine ⟨?_, ?_, ?_, ?_⟩ <;>
  · rintro rfl
    revert hchar
    decide

end Word

end Preflight
