import Preflight.Proofs.Location
import Preflight.Proofs.Text.Lines

/-!
This module contains what is read from a place in a text on, and which places a text has: those that
the locations of its characters lead to.
-/

namespace Preflight

namespace Text

def behindLines? : Nat → Text → Option Text
  | 0, t => some t
  | _ + 1, [] => none
  | lines + 1, c :: t => behindLines? (if c = '\n' then lines else lines + 1) t

def behindColumns? : Nat → Text → Option Text
  | 0, t => some t
  | _ + 1, [] => none
  | columns + 1, c :: t => if c = '\n' then none else behindColumns? columns t

def readFrom? (loc : Location) (t : Text) : Option Text :=
  (behindLines? loc.line t).bind (behindColumns? loc.column)

def StandsAt (t : Text) (loc : Location) (piece : Text) : Prop :=
  ∃ rest, readFrom? loc t = some rest ∧ piece <+: rest

theorem behindColumns?_eq_some_iff {columns : Nat} {t rest : Text} :
    behindColumns? columns t = some rest ↔
      ∃ front, t = front ++ rest ∧ front.length = columns ∧ '\n' ∉ front := by
  fun_induction behindColumns? columns t with
  | case1 t =>
    constructor
    · intro h
      exact ⟨[], Option.some.inj h, rfl, List.not_mem_nil⟩
    · rintro ⟨front, rfl, hlength, -⟩
      rw [List.length_eq_zero_iff.1 hlength, List.nil_append]
  | case2 columns =>
    constructor
    · intro h
      contradiction
    · rintro ⟨front, hfront, hlength, -⟩
      rw [(List.append_eq_nil_iff.1 hfront.symm).1] at hlength
      contradiction
  | case3 columns t =>
    constructor
    · intro h
      contradiction
    · rintro ⟨front, hfront, hlength, hnot⟩
      cases front with
      | nil => contradiction
      | cons c front =>
        rw [← (List.cons.inj hfront).1] at hnot
        exact absurd List.mem_cons_self hnot
  | case4 columns c t hc ih =>
    rw [ih]
    constructor
    · rintro ⟨front, rfl, rfl, hnot⟩
      exact ⟨c :: front, rfl, rfl, by simp [hnot, Ne.symm hc]⟩
    · rintro ⟨front, hfront, hlength, hnot⟩
      cases front with
      | nil => contradiction
      | cons d front =>
        obtain ⟨rfl, rfl⟩ := List.cons.inj hfront
        exact ⟨front, rfl, Nat.succ.inj hlength, fun hmem => hnot (List.mem_cons_of_mem _ hmem)⟩

theorem lastLine_eq_nil_iff {t : Text} :
    lastLine t = [] ↔ ∀ h : t ≠ [], t.getLast h = '\n' := by
  unfold lastLine
  rw [List.rtakeWhile_eq_nil_iff]
  simp

theorem lastLine_cons_eq_nil_iff {c : Char} {t : Text} :
    lastLine (c :: t) = [] ↔ lastLine t = [] ∧ (t = [] → c = '\n') := by
  rw [lastLine_eq_nil_iff, lastLine_eq_nil_iff]
  cases t <;> simp

theorem lineBreaks_cons (c : Char) (t : Text) :
    lineBreaks (c :: t) = lineBreaks t + if c = '\n' then 1 else 0 := by
  unfold lineBreaks
  rw [List.count_cons]
  simp

theorem behindLines?_eq_some_iff {lines : Nat} {t rest : Text} :
    behindLines? lines t = some rest ↔
      ∃ front, t = front ++ rest ∧ lineBreaks front = lines ∧ lastLine front = [] := by
  fun_induction behindLines? lines t with
  | case1 t =>
    constructor
    · intro h
      exact ⟨[], Option.some.inj h, rfl, rfl⟩
    · rintro ⟨front, rfl, hbreaks, hlast⟩
      obtain rfl : front = [] := by
        by_contra hne
        have hmem := List.getLast_mem hne
        rw [lastLine_eq_nil_iff.1 hlast hne] at hmem
        exact List.count_eq_zero.1 hbreaks hmem
      rfl
  | case2 lines =>
    constructor
    · intro h
      contradiction
    · rintro ⟨front, hfront, hbreaks, -⟩
      rw [(List.append_eq_nil_iff.1 hfront.symm).1] at hbreaks
      contradiction
  | case3 lines c t ih =>
    rw [ih]
    constructor
    · rintro ⟨front, rfl, hbreaks, hlast⟩
      refine ⟨c :: front, rfl, ?_, lastLine_cons_eq_nil_iff.2 ⟨hlast, ?_⟩⟩
      · rw [lineBreaks_cons, hbreaks]
        split <;> rfl
      · rintro rfl
        by_contra hc
        rw [if_neg hc] at hbreaks
        contradiction
    · rintro ⟨front, hfront, hbreaks, hlast⟩
      cases front with
      | nil => contradiction
      | cons d front =>
        obtain ⟨rfl, rfl⟩ := List.cons.inj hfront
        refine ⟨front, rfl, ?_, (lastLine_cons_eq_nil_iff.1 hlast).1⟩
        rw [lineBreaks_cons] at hbreaks
        split at hbreaks <;> simp_all

theorem newline_notMem_lastLine (t : Text) : '\n' ∉ lastLine t := by
  intro hmem
  have := List.mem_rtakeWhile_imp hmem
  contradiction

theorem exists_eq_append_lastLine (t : Text) :
    ∃ ended, t = ended ++ lastLine t ∧ lineBreaks ended = lineBreaks t ∧ lastLine ended = [] := by
  have hsplit : t.rdropWhile (· != '\n') ++ lastLine t = t := List.rdropWhile_append_rtakeWhile
  have hbreaks := lineBreaks_append (t.rdropWhile (· != '\n')) (newline_notMem_lastLine t)
  rw [hsplit] at hbreaks
  refine ⟨t.rdropWhile (· != '\n'), hsplit.symm, hbreaks.symm, lastLine_eq_nil_iff.2 fun hne => ?_⟩
  simpa using List.rdropWhile_last_not _ _ hne

theorem readFrom?_eq_some_iff {loc : Location} {t rest : Text} :
    readFrom? loc t = some rest ↔
      ∃ before, t = before ++ rest ∧ loc = Location.start.after before := by
  unfold readFrom?
  rw [Option.bind_eq_some_iff]
  constructor
  · rintro ⟨behind, hlines, hcolumns⟩
    obtain ⟨ended, rfl, hbreaks, hlast⟩ := behindLines?_eq_some_iff.1 hlines
    obtain ⟨front, rfl, hlength, hnot⟩ := behindColumns?_eq_some_iff.1 hcolumns
    refine ⟨ended ++ front, (List.append_assoc _ _ _).symm, ?_⟩
    rw [Location.start_after, lineBreaks_append _ hnot, lastLine_append _ hnot, hbreaks, hlast]
    rw [List.nil_append, hlength]
  · rintro ⟨before, rfl, rfl⟩
    obtain ⟨ended, hbefore, hbreaks, hlast⟩ := exists_eq_append_lastLine before
    refine ⟨lastLine before ++ rest, behindLines?_eq_some_iff.2 ⟨ended, ?_, ?_, hlast⟩,
      behindColumns?_eq_some_iff.2 ⟨lastLine before, rfl, ?_, newline_notMem_lastLine before⟩⟩
    · rw [← List.append_assoc, ← hbefore]
    · rw [Location.start_after, hbreaks]
    · rw [Location.start_after]

theorem standsAt_iff {t piece : Text} {loc : Location} :
    StandsAt t loc piece ↔
      ∃ before after, t = before ++ piece ++ after ∧ loc = Location.start.after before := by
  unfold StandsAt
  simp only [readFrom?_eq_some_iff]
  constructor
  · rintro ⟨_, ⟨before, rfl, rfl⟩, after, rfl⟩
    exact ⟨before, after, (List.append_assoc _ _ _).symm, rfl⟩
  · rintro ⟨before, after, rfl, rfl⟩
    exact ⟨piece ++ after, ⟨before, List.append_assoc _ _ _, rfl⟩, List.prefix_append _ _⟩

theorem not_standsAt_of_length_lt {before stretch rest piece : Text} {column : Nat}
    (hstretch : '\n' ∉ stretch) (h : (lastLine (before ++ stretch)).length < column) :
    ¬ StandsAt (before ++ stretch ++ '\n' :: rest) ⟨lineBreaks before, column⟩ piece := by
  rw [standsAt_iff]
  rintro ⟨front, after, htext, hloc⟩
  rw [List.append_assoc front] at htext
  rcases List.append_eq_append_iff.1 htext with ⟨more, rfl, hmore⟩ | ⟨more, hfront, -⟩
  · cases more with
    | nil =>
      rw [List.append_nil, Location.start_after] at hloc
      exact Nat.ne_of_gt h (congrArg Location.column hloc)
    | cons c more =>
      -- The place is behind the line feed, so it is on a later line.
      obtain ⟨rfl, -⟩ := List.cons.inj hmore
      have hbreaks := congrArg Location.line hloc
      rw [Location.start_after] at hbreaks
      unfold lineBreaks at hbreaks
      simp only [List.count_append, List.count_cons_self] at hbreaks
      omega
  · have hnot := Location.not_isBefore_after (Location.start.after front) more
    rw [← Location.after_append, ← hfront, ← hloc, Location.start_after] at hnot
    rw [lineBreaks_append _ hstretch, Location.not_isBefore_iff] at hnot
    dsimp only at hnot
    omega

end Text

end Preflight
