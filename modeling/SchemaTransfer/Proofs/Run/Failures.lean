import SchemaTransfer.Proofs.Run.Effects

/-!
# What runs fail with

Failures come in kinds: those of a file, those of a cluster, and those that the program has words of
its own for. A run fails with failures of one kind only if each of its parts does.
-/
namespace SchemaTransfer

namespace Failure

/-- A file could not be reached, or what it holds is malformed. -/
def isFileError : Failure → Bool
  | access _ | decode _ => true
  | _ => false

/-- A cluster could not be reached, or what it gave is malformed or makes no definition. -/
def isClusterError : Failure → Bool
  | access _ | decode _ | definition _ => true
  | _ => false

/-- Nothing can be done without credentials. -/
def isCredentials : Failure → Bool
  | credentials _ => true
  | _ => false

/-- The program has a class of its own for the failure. -/
def isOwn (e : Failure) : Bool := e.isReported || e.isCredentials

theorem isReported_of_isFileError {e : Failure} (h : e.isFileError) : e.isReported := by
  cases e <;> first | rfl | cases h

theorem not_isFileError_of_not_isReported {e : Failure} (h : e.isReported = false) :
    e.isFileError = false := by
  cases e <;> first | rfl | cases h

end Failure

namespace Run

variable {ε α β : Type} {p q : ε → Prop} {x : Run ε α} {w v : World}

/-- Whatever the run fails with, in whatever world, is of one kind. -/
def FailsWith (p : ε → Prop) (x : Run ε α) : Prop := ∀ w e, (x w).1 = .error e → p e

theorem FailsWith.next {e : ε} (h : FailsWith p x) (hx : x w = (.error e, v)) : p e :=
  h w e (congrArg Prod.fst hx)

theorem FailsWith.mono (h : FailsWith p x) (hpq : ∀ e, p e → q e) : FailsWith q x :=
  fun w e he => hpq e (h w e he)

theorem failsWith_pure (a : α) : FailsWith p (Pure.pure a : Run ε α) := fun _ _ h => nomatch h

theorem failsWith_note (e : Event) : FailsWith p (note e : Run ε Unit) := fun _ _ h => nomatch h

theorem failsWith_fail {e : ε} (h : p e) : FailsWith p (fail e : Run ε α) := by
  intro w e' he
  cases he
  exact h

theorem failsWith_ofExcept {r : Except ε α} (h : ∀ e, r = .error e → p e) :
    FailsWith p (ofExcept r) := by
  cases r with
  | error e => exact failsWith_fail (h e rfl)
  | ok a => exact failsWith_pure a

theorem failsWith_bind {f : α → Run ε β} (hx : FailsWith p x) (hf : ∀ a, FailsWith p (f a)) :
    FailsWith p (x >>= f) := by
  intro w e he
  rw [bind_apply] at he
  rcases hxw : x w with ⟨e' | a, v⟩
  · rw [hxw] at he
    cases he
    exact hx.next hxw
  · rw [hxw] at he
    exact hf a v e he

theorem composes_failsWith : Composes fun _ (x : Run ε _) => FailsWith p x :=
  ⟨failsWith_pure, failsWith_bind⟩

/-- How the whole ends depends on how its last part does. -/
theorem ensuring_result (x : Run ε α) (last : Run ε Unit) (w : World) :
    (x.ensuring last w).1 = match (last (x w).2).1 with
      | .ok () => (x w).1
      | .error e => .error e := by
  rw [ensuring]
  dsimp only
  rcases last (x w).2 with ⟨_ | _, _⟩ <;> rfl

theorem failsWith_ensuring {last : Run ε Unit} (hx : FailsWith p x) (hlast : FailsWith p last) :
    FailsWith p (x.ensuring last) := by
  intro w e he
  rw [ensuring_result] at he
  cases hl : (last (x w).2).1 with
  | error e' =>
    rw [hl] at he
    cases he
    exact hlast _ e hl
  | ok =>
    rw [hl] at he
    exact hx w e he

end Run

end SchemaTransfer
