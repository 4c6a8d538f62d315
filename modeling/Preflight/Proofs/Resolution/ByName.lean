import Preflight.Proofs.Plan
import Preflight.Proofs.ProgramIndex
import Preflight.Proofs.Resolution
import Preflight.Proofs.Word

/-!
This module contains what becomes of a command that is the name of a program, from the search for
the program to the plan.
-/

namespace Preflight

namespace Resolver

def nameQuestion (typed name : Text) : Text :=
  "command '".toList ++ typed ++ "' doesn't exist, do you mean '".toList ++ name ++ "'?".toList

/--
The name that a command is resolved to: what it stands for if there is such a program, else the name
that is suggested, if there is consent to that.
-/
inductive Names (resolver : Resolver) (consents : Text → Prop) (typed : Text) : Text → Prop where
  | known (h : resolver.index.contains (Word.unescape typed) = true) :
    Names resolver consents typed (Word.unescape typed)
  | accepted {candidate : Candidate}
    (hunknown : resolver.index.contains (Word.unescape typed) = false)
    (hsuggested : resolver.suggestCommand? (Word.unescape typed) = some candidate)
    (hyes : consents (nameQuestion typed candidate.name)) :
    Names resolver consents typed candidate.name

end Resolver

namespace Resolution

variable {resolver : Resolver} {command : Entry}

theorem contains_of_ofName_eq_found (h : ofName resolver command = .found) :
    resolver.index.contains (Word.unescape command.text) = true := by
  unfold ofName at h
  dsimp only at h
  split at h
  · assumption
  · split at h <;> contradiction

theorem ofName_eq_asks {question replacement : Text} {obstacle : Option Failure}
    {declined : Failure}
    (h : ofName resolver command = .asks question replacement obstacle declined) :
    resolver.index.contains (Word.unescape command.text) = false ∧
      ∃ candidate, resolver.suggestCommand? (Word.unescape command.text) = some candidate ∧
        question = Resolver.nameQuestion command.text candidate.name ∧
        replacement = candidate.name := by
  unfold ofName at h
  dsimp only at h
  split at h
  · contradiction
  · next hunknown =>
    split at h
    · contradiction
    · next candidate hsuggested =>
      injection h with hquestion hreplacement
      exact ⟨Bool.eq_false_iff.2 hunknown, candidate, hsuggested, hquestion.symm, hreplacement.symm⟩

end Resolution

section plan

variable {σ : Type} {resolver : Resolver}
  {confirm : Text → List Char → StateM σ (Except ReadError Char)} {s : σ} {tokens : List Token}
  {tree : Tree} {typed : Text} {source : Location}

theorem plan_of_resolve_name (h : .command typed source ∈ clauses tokens)
    (hlocal : Word.isLocal typed = false) (hnames : ∀ entry ∈ resolver.index.entries, '/' ∉ entry.1)
    (hok : (resolve resolver confirm (parse tokens) s).1 = .ok tree) :
    ∃ name path, resolver.Names (Consents confirm s) typed name ∧
      resolver.index.get? name = some path ∧
      ((∃ plan, Plan.ofTree tree resolver.index = .ok plan ∧ plan.path = path ∧
          plan.arguments.head? = some name) ↔
        resolver.index.contains (Word.unescape typed) = true ∨ '\\' ∉ name) := by
  obtain ⟨before, after, text, corrected, hrepresents, hbefore, hafter, hcases⟩ :=
    exists_represents_of_resolve h hok
  rw [Resolution.ofCommand_of_not_isLocal hlocal] at hcases
  rcases hcases with ⟨hfound, rfl⟩ | ⟨question, declined, hasks, hyes⟩
  · have hknown := Resolution.contains_of_ofName_eq_found hfound
    obtain ⟨path, hpath⟩ := ProgramIndex.exists_get?_of_contains hknown
    refine ⟨Word.unescape text, path, .known hknown, hpath, ?_⟩
    rw [Plan.exists_ofTree_iff hrepresents hbefore hafter hlocal hpath]
    simp [hknown]
  · -- The name that was accepted is the text of the command from here on.
    obtain ⟨hunknown, candidate, hsuggested, rfl, rfl⟩ := Resolution.ofName_eq_asks hasks
    have hmem := ProgramIndex.mem_entries_of_closest? hsuggested
    obtain ⟨path, hpath⟩ := ProgramIndex.exists_get?_of_mem_entries hmem
    refine ⟨candidate.name, path, .accepted hunknown hsuggested hyes, hpath, ?_⟩
    have hnotLocal := Word.isLocal_of_not_mem (hnames _ hmem)
    rw [Plan.exists_ofTree_iff hrepresents hbefore hafter hnotLocal hpath]
    rw [Word.unescape_eq_self_iff, hunknown]
    simp

end plan

namespace Resolver

def knowsBackslash : Resolver :=
  ⟨⟨[(['a', '\\', 'b'], [0x2F, 0x78]), (['a', 'b'], [0x2F, 0x79])]⟩, [0x2F], 2, .empty⟩

end Resolver

def typo : List Token := [⟨.word, ['a', 'c', 'b'], .start⟩]

theorem plan_of_resolve_typo :
    ∃ tree name path,
      (resolve (m := StateM Unit) Resolver.knowsBackslash (fun _ _ => pure (.ok 'y'))
        (parse typo) ()).1 = .ok tree ∧
      Resolver.knowsBackslash.Names (Consents (σ := Unit) (fun _ _ => pure (.ok 'y')) ())
        ['a', 'c', 'b'] name ∧
      Resolver.knowsBackslash.index.get? name = some path ∧
      ((∃ plan, Plan.ofTree tree Resolver.knowsBackslash.index = .ok plan ∧ plan.path = path ∧
          plan.arguments.head? = some name) ↔
        Resolver.knowsBackslash.index.contains ['a', 'c', 'b'] = true ∨ '\\' ∉ name) := by
  refine ⟨(parse typo).setText 1 ['a', '\\', 'b'], ?_⟩
  have hok : (resolve (m := StateM Unit) Resolver.knowsBackslash (fun _ _ => pure (.ok 'y'))
      (parse typo) ()).1 = .ok ((parse typo).setText 1 ['a', '\\', 'b']) := rfl
  have hmem : .command ['a', 'c', 'b'] .start ∈ clauses typo := by decide
  obtain ⟨name, path, h⟩ := plan_of_resolve_name hmem rfl (by decide) hok
  exact ⟨name, path, hok, h⟩

theorem plan_of_accepted_backslash :
    ∃ tree,
      Resolver.knowsBackslash.suggestCommand? ['a', 'c', 'b'] =
        some ⟨['a', '\\', 'b'], [0x2F, 0x78], 1⟩ ∧
      (resolve (m := StateM Unit) Resolver.knowsBackslash (fun _ _ => pure (.ok 'y'))
        (parse typo) ()).1 = .ok tree ∧
      Plan.ofTree tree Resolver.knowsBackslash.index = .ok ⟨[0x2F, 0x79], [['a', 'b']], []⟩ :=
  ⟨(parse typo).setText 1 ['a', '\\', 'b'], rfl, rfl, rfl⟩

end Preflight
