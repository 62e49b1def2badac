import SchemaTransfer.Run.World

/-!
# Runs that succeed

What a run that ended in a value has gone through: each of its parts succeeded, one after another,
in the world that the part before it left. A run that failed has got as far as to one of its parts.
-/
namespace SchemaTransfer.Run

variable {ε ε' α β : Type} {w w' : World}

instance : LawfulMonad (Run ε) :=
  LawfulMonad.mk' (Run ε)
    (fun x => by
      funext w
      show (x >>= fun a => pure a) w = x w
      rw [bind_apply]
      rcases x w with ⟨_ | _, _⟩ <;> rfl)
    (fun _ _ => rfl)
    (fun x f g => by
      funext w
      rw [bind_apply, bind_apply, bind_apply]
      rcases x w with ⟨_ | _, _⟩ <;> rfl)

theorem bind_eq_ok {x : Run ε α} {f : α → Run ε β} {b : β} :
    (x >>= f) w = (.ok b, w') ↔ ∃ a v, x w = (.ok a, v) ∧ f a v = (.ok b, w') := by
  rw [bind_apply]
  rcases x w with ⟨_ | a, v⟩
  · simp
  · constructor
    · exact fun h => ⟨a, v, rfl, h⟩
    · rintro ⟨_, _, hx, h⟩
      cases hx
      exact h

theorem bind_eq_error {x : Run ε α} {f : α → Run ε β} {e : ε} :
    (x >>= f) w = (.error e, w') ↔
      x w = (.error e, w') ∨ ∃ a v, x w = (.ok a, v) ∧ f a v = (.error e, w') := by
  rw [bind_apply]
  rcases x w with ⟨_ | a, v⟩
  · simp
  · constructor
    · exact fun h => Or.inr ⟨a, v, rfl, h⟩
    · rintro (hx | ⟨_, _, hx, h⟩)
      · cases hx
      · cases hx
        exact h

theorem pure_eq_ok {a b : α} :
    (Pure.pure a : Run ε α) w = (.ok b, w') ↔ a = b ∧ w = w' := by
  simp [pure_apply]

theorem ofExcept_eq_ok {x : Except ε α} {a : α} :
    ofExcept x w = (.ok a, w') ↔ x = .ok a ∧ w = w' := by
  cases x with
  | error e => exact ⟨fun h => (nomatch h), fun ⟨h, _⟩ => (nomatch h)⟩
  | ok b => rw [Except.ok.injEq]; exact pure_eq_ok

theorem ofExcept_result (x : Except ε α) (w : World) : (ofExcept x w).1 = x := by
  cases x <;> rfl

/-- In no world does the run end in a value. -/
def Fails (x : Run ε α) : Prop := ∀ w, ∃ e, (x w).1 = .error e

/-- A failure that is only put into other words is still a failure. -/
theorem recover_eq_ok_of_fails {x : Run ε α} {f : ε → Run ε' α} (hf : ∀ e, Fails (f e)) {a : α} :
    x.recover f w = (.ok a, w') ↔ x w = (.ok a, w') := by
  rw [recover]
  rcases x w with ⟨e | b, v⟩
  · obtain ⟨e', he⟩ := hf e v
    constructor
    · intro h
      have hrecovered : f e v = (.ok a, w') := h
      rw [hrecovered] at he
      cases he
    · intro h
      cases h
  · constructor
    · intro h
      cases h
      rfl
    · intro h
      cases h
      rfl

theorem recover_eq_ok {x : Run ε α} {f : ε → ε'} {a : α} :
    x.recover (fun e => fail (f e)) w = (.ok a, w') ↔ x w = (.ok a, w') :=
  recover_eq_ok_of_fails fun e _ => ⟨f e, rfl⟩

theorem ensuring_eq_ok {x : Run ε α} {last : Run ε Unit} {a : α} :
    x.ensuring last w = (.ok a, w') ↔ ∃ v, x w = (.ok a, v) ∧ last v = (.ok (), w') := by
  rw [ensuring]
  rcases x w with ⟨r, v⟩
  dsimp only
  constructor
  · intro h
    rcases hl : last v with ⟨_ | _, v'⟩
    · rw [hl] at h
      cases h
    · rw [hl] at h
      cases h
      exact ⟨v, rfl, hl⟩
  · rintro ⟨_, hx, hl⟩
    cases hx
    rw [hl]

end SchemaTransfer.Run
