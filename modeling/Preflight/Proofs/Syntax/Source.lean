import Preflight.Proofs.Syntax.Shape
import Preflight.Proofs.Text.Position
import Preflight.Proofs.Token.Slice

/-!
This module contains where the nodes of a syntax tree say that their texts stand, and which of them
are right: all but the values of options whose keys go over the end of a line.
-/

namespace Preflight

namespace Tree

def FollowsBrokenKey (tree : Tree) (id : Nat) : Prop :=
  ∃ parent key entry, tree.children parent = [key, id] ∧ tree.entry? key = some entry ∧
    entry.kind = .identifier ∧ '\n' ∈ entry.text

end Tree

namespace Parser

section step

variable {state : State} {token : Token} {clause : Clause}

theorem source_of_assignment? (h : assignment? token = some clause) :
    clause.text = token.text ∧ clause.source = token.source := by
  unfold assignment? at h
  split at h
  · split at h
    · split at h
      · rw [← Option.some.inj h]
        exact ⟨rfl, rfl⟩
      · contradiction
    · contradiction
  · contradiction

theorem source_of_command? (h : command? token = some clause) :
    clause.text = token.text ∧ clause.source = token.source := by
  unfold command? at h
  split at h
  · rw [← Option.some.inj h]
    exact ⟨rfl, rfl⟩
  · contradiction

theorem source_of_argument? (h : argument? token = some clause) :
    clause.text = token.text ∧ clause.source = token.source := by
  unfold argument? at h
  split at h
  · rw [← Option.some.inj h]
    exact ⟨rfl, rfl⟩
  · contradiction

theorem source_of_step (h : (step state token).2.clause? = some clause) :
    clause.text = token.text ∧ clause.source = token.source := by
  rcases cases_of_step h with h | h | rfl | h
  · exact source_of_assignment? h
  · exact source_of_command? h
  · exact ⟨rfl, rfl⟩
  · exact source_of_argument? h

end step

theorem exists_token_of_mem_clausesFrom {state : State} {tokens : List Token} {clause : Clause}
    (h : clause ∈ clausesFrom state tokens) :
    ∃ token ∈ tokens, clause.text = token.text ∧ clause.source = token.source := by
  induction tokens generalizing state with
  | nil => simp at h
  | cons token tokens ih =>
    rw [clausesFrom_cons, List.mem_append, Option.mem_toList] at h
    rcases h with h | h
    · exact ⟨token, List.mem_cons_self, source_of_step h⟩
    · obtain ⟨other, hother, heq⟩ := ih h
      exact ⟨other, List.mem_cons_of_mem token hother, heq⟩

end Parser

theorem tokens_lex_of_tokenize_eq_ok {t : Text} {tokens : List Token}
    (h : tokenize t = .ok tokens) : (lex t).tokens = tokens := by
  unfold tokenize at h
  split at h
  · contradiction
  · next heq =>
    rw [heq]
    exact Except.ok.inj h

theorem Text.standsAt_of_mem_lex {t : Text} {token : Token} (h : token ∈ (lex t).tokens) :
    StandsAt t token.source token.text := by
  obtain ⟨cut, hcut, rfl⟩ := Cut.exists_isProper t
  unfold lex at h
  rw [Cut.lexFrom_text hcut, Cut.tokens_eq_map_slices] at h
  obtain ⟨slice, hslice, rfl⟩ := List.mem_map.1 h
  obtain ⟨after, htext⟩ := Cut.isPrefix_of_mem_slices hcut hslice
  exact standsAt_iff.2 ⟨slice.before, after, htext.symm, slice.source_eq⟩

theorem Text.standsAt_of_mem_clauses {t : Text} {clause : Clause}
    (h : clause ∈ clauses (lex t).tokens) : StandsAt t clause.source clause.text := by
  rw [clauses_eq_clausesFrom] at h
  obtain ⟨token, htoken, htext, hsource⟩ := Parser.exists_token_of_mem_clausesFrom h
  rw [htext, hsource]
  exact standsAt_of_mem_lex htoken

theorem Text.standsAt_offset_iff {before key value after : Text} {c : Char} (hc : c ≠ '\n')
    (hfits : (before ++ (key ++ c :: value) ++ after).length ≤ Location.lastColumn) :
    StandsAt (before ++ (key ++ c :: value) ++ after)
      ((Location.start.after before).offset (key.length + 1)) value ↔ '\n' ∉ key := by
  have hoffset : (Location.start.after before).offset (key.length + 1) =
      ⟨lineBreaks before, (lastLine before).length + (key.length + 1)⟩ := by
    have hlast : (lastLine before).length ≤ before.length :=
      (List.rtakeWhile_suffix _ before).length_le
    simp only [List.length_append, List.length_cons] at hfits
    rw [Location.start_after]
    unfold Location.offset
    dsimp only
    rw [Nat.min_eq_left (by omega)]
  rw [hoffset]
  constructor
  · intro h hmem
    obtain ⟨stretch, rest, rfl, hstretch⟩ := List.eq_append_cons_of_mem hmem
    have hnot := @not_standsAt_of_length_lt before stretch (rest ++ c :: value ++ after) value
      ((lastLine before).length + ((stretch ++ '\n' :: rest).length + 1)) hstretch
    simp only [lastLine_append _ hstretch, List.length_append, List.length_cons,
      List.append_assoc, List.cons_append] at h hnot
    exact hnot (by omega) h
  · intro hmem
    have hstretch : '\n' ∉ key ++ [c] := by simp [hmem, Ne.symm hc]
    refine standsAt_iff.2 ⟨before ++ (key ++ [c]), after, by simp, ?_⟩
    rw [Location.start_after, lineBreaks_append _ hstretch, lastLine_append _ hstretch]
    simp

namespace Tree

section node

variable {tree : Tree} {clauses : List Clause} (h : tree.Represents clauses)
  (harena : tree.IsArena)

theorem Shows.exists_halves {top id : Nat} {clause : Clause} (h : tree.Shows top clause)
    (hproper : clause.IsProper) (hid : id ∈ tree.children top) :
    ∃ kind key value, tree.HasHalves top clause.source kind key value ∧
      clause.text = key ++ '=' :: value := by
  cases clause with
  | assignment text source name value => exact ⟨_, name, value, h.2, hproper.2.symm⟩
  | command text source =>
    rw [h.2] at hid
    contradiction
  | argument text source split =>
    cases split with
    | none =>
      rw [h.2] at hid
      contradiction
    | some halves => exact ⟨_, halves.1, halves.2, h.2, hproper.2.symm⟩

include harena

theorem eq_of_mem_children {id parent other : Nat} (hid : id ∈ tree.children parent)
    (hother : id ∈ tree.children other) : parent = other := by
  rw [harena.mem_children_iff] at hid hother
  rw [hid] at hother
  exact Option.some.inj hother

include h in
theorem not_followsBrokenKey_of_mem_children_root {id : Nat} (hid : id ∈ tree.children root) :
    ¬ tree.FollowsBrokenKey id := by
  rintro ⟨parent, key, entry, hchildren, hkey, hkind, -⟩
  obtain rfl := eq_of_mem_children harena hid (by simp [hchildren] : id ∈ tree.children parent)
  obtain ⟨clause, _, hshows⟩ :=
    exists_mem_of_forall₂ h.children (by simp [hchildren] : key ∈ tree.children root)
  obtain ⟨other, hother, hclause⟩ := hshows.entry?
  rw [hkey, Option.some.injEq] at hother
  rw [← hother, hkind] at hclause
  cases clause <;> contradiction

theorem followsBrokenKey_iff_of_halves {top k v : Nat} {source : Location} {key : Text}
    (hchildren : tree.children top = [k, v])
    (hk : tree.entry? k = some ⟨.identifier, key, source, false⟩) :
    ¬ tree.FollowsBrokenKey k ∧ (tree.FollowsBrokenKey v ↔ '\n' ∈ key) := by
  have hlt := harena.pairwise_children top
  rw [hchildren, List.pairwise_pair] at hlt
  constructor
  · rintro ⟨parent, first, entry, hpair, -⟩
    obtain rfl := eq_of_mem_children harena (by simp [hchildren] : k ∈ tree.children top)
      (by simp [hpair] : k ∈ tree.children parent)
    rw [hchildren] at hpair
    simp only [List.cons.injEq, and_true] at hpair
    omega
  · constructor
    · rintro ⟨parent, first, entry, hpair, hentry, -, hbroken⟩
      obtain rfl := eq_of_mem_children harena (by simp [hchildren] : v ∈ tree.children top)
        (by simp [hpair] : v ∈ tree.children parent)
      rw [hchildren] at hpair
      rw [← (List.cons.inj hpair).1, hk, Option.some.injEq] at hentry
      rwa [← hentry] at hbroken
    · intro hbroken
      exact ⟨top, k, _, hchildren, hk, rfl, hbroken⟩

end node

end Tree

/--
If the lexer has nothing against a text, every node but the root stands where it says, unless it is
the value of a key that goes over the end of a line: that is looked for on the line where the key
starts, as many columns further to the right as the key has characters on all of its lines.
-/
theorem standsAt_source_iff {t : Text} {tokens : List Token} (ht : t.length ≤ Location.lastColumn)
    (hok : tokenize t = .ok tokens) {id : Nat} {entry : Entry} (hid : id ≠ Tree.root)
    (hentry : Tree.entry? (parse tokens) id = some entry) :
    Text.StandsAt t entry.source entry.text ↔ ¬ (parse tokens).FollowsBrokenKey id := by
  have hrepresents := Tree.represents_parse tokens
  have harena := Tree.isArena_parse tokens
  have hstands : ∀ clause ∈ clauses tokens, Text.StandsAt t clause.source clause.text := by
    rw [← tokens_lex_of_tokenize_eq_ok hok]
    exact fun clause => Text.standsAt_of_mem_clauses
  have hmem := List.mem_range.2 (Tree.lt_size_of_entry?_eq_some hentry)
  rw [← Tree.isPreorder_parse tokens, List.mem_cons, List.mem_flatMap] at hmem
  obtain ⟨top, htop, hmem⟩ := hmem.resolve_left hid
  obtain ⟨clause, hclause, hshows⟩ := Tree.exists_mem_of_forall₂ hrepresents.children htop
  rcases List.mem_cons.1 hmem with rfl | hmem
  · obtain ⟨corrected, hshown⟩ := hshows.exists_entry
    rw [hentry, Option.some.injEq] at hshown
    rw [hshown]
    exact iff_of_true (hstands clause hclause)
      (Tree.not_followsBrokenKey_of_mem_children_root hrepresents harena htop)
  · have hproper : clause.IsProper :=
      Parser.isProper_of_mem_clausesFrom (clauses_eq_clausesFrom tokens ▸ hclause)
    obtain ⟨kind, key, value, ⟨k, v, hchildren, hk, hv⟩, htext⟩ := hshows.exists_halves hproper hmem
    obtain ⟨hfirst, hsecond⟩ := Tree.followsBrokenKey_iff_of_halves harena hchildren hk
    obtain ⟨before, after, rfl, hsource⟩ := Text.standsAt_iff.1 (hstands clause hclause)
    rw [htext] at ht ⊢
    rw [hchildren, List.mem_pair] at hmem
    rcases hmem with rfl | rfl
    · rw [hentry, Option.some.injEq] at hk
      rw [hk]
      refine iff_of_true (Text.standsAt_iff.2 ⟨before, '=' :: value ++ after, ?_, hsource⟩) hfirst
      simp
    · rw [hentry, Option.some.injEq] at hv
      rw [hv, hsecond, hsource]
      exact Text.standsAt_offset_iff (by decide) ht

def brokenKey : Text := ['l', 's', ' ', 'a', '\\', '\n', 'b', '=', 'c']

theorem tokenize_brokenKey :
    tokenize brokenKey =
      .ok [⟨.word, ['l', 's'], ⟨0, 0⟩⟩, ⟨.word, ['a', '\\', '\n', 'b', '=', 'c'], ⟨0, 3⟩⟩] := by
  have hcut : (Cut.cons [] (.word ['l', 's']) (.cons [' ']
      (.word ['a', '\\', '\n', 'b', '=', 'c']) (.nil []))).IsProper := by
    decide
  exact Cut.tokenize_text hcut

theorem standsAt_source_iff_brokenKey :
    ∃ tokens entry, brokenKey.length ≤ Location.lastColumn ∧ tokenize brokenKey = .ok tokens ∧
      4 ≠ Tree.root ∧ Tree.entry? (parse tokens) 4 = some entry ∧
      (Text.StandsAt brokenKey entry.source entry.text ↔
        ¬ (parse tokens).FollowsBrokenKey 4) :=
  ⟨_, _, by decide, tokenize_brokenKey, by decide, rfl,
    standsAt_source_iff (by decide) tokenize_brokenKey (by decide) rfl⟩

theorem not_standsAt_brokenKey :
    ∃ tokens, tokenize brokenKey = .ok tokens ∧ Text.StandsAt brokenKey ⟨1, 2⟩ ['c'] ∧
      Tree.entry? (parse tokens) 4 = some ⟨.parameter, ['c'], ⟨0, 8⟩, false⟩ ∧
      ¬ Text.StandsAt brokenKey ⟨0, 8⟩ ['c'] := by
  refine ⟨_, tokenize_brokenKey, ⟨['c'], rfl, List.prefix_refl _⟩, rfl, ?_⟩
  rintro ⟨rest, hrest, -⟩
  contradiction

end Preflight
