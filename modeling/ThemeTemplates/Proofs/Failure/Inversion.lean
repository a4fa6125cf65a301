/-!
# Steps that may fail

What the result of some steps tells of each of them. A step that succeeds has a value to go on with;
an error is that of the first step that fails.
-/

namespace ThemeTemplates.Except

variable {ε ε' α β γ : Type}

theorem bind_eq_ok_iff {first : Except ε α} {next : α → Except ε β} {b : β} :
    (first >>= next) = .ok b ↔ ∃ a, first = .ok a ∧ next a = .ok b := by
  cases first <;> simp [bind, Except.bind]

theorem bind_eq_error_iff {first : Except ε α} {next : α → Except ε β} {error : ε} :
    (first >>= next) = .error error ↔
      first = .error error ∨ ∃ a, first = .ok a ∧ next a = .error error := by
  cases first <;> simp [bind, Except.bind]

theorem bind_pure_eq_map (first : Except ε α) (next : α → β) :
    (first >>= fun a => pure (next a)) = first.map next := by
  cases first <;> rfl

theorem bind_pure_eq_ok_iff {first : Except ε α} {next : α → β} {b : β} :
    (first >>= fun a => pure (next a)) = .ok b ↔ ∃ a, first = .ok a ∧ next a = b := by
  cases first <;> simp [bind, Except.bind, pure, Except.pure]

theorem map_map (f : β → γ) (g : α → β) (first : Except ε α) :
    (first.map g).map f = first.map (f ∘ g) := by
  cases first <;> rfl

theorem mapError_eq_ok_iff {f : ε → ε'} {first : Except ε α} {a : α} :
    first.mapError f = .ok a ↔ first = .ok a := by
  cases first with
  | ok value => exact ⟨fun eq => by cases eq; rfl, fun eq => by cases eq; rfl⟩
  | error inner => exact ⟨nofun, nofun⟩

theorem mapError_eq_error_iff {f : ε → ε'} {first : Except ε α} {error : ε'} :
    first.mapError f = .error error ↔ ∃ inner, first = .error inner ∧ f inner = error := by
  cases first with
  | ok value => exact ⟨nofun, nofun⟩
  | error inner =>
      constructor
      · rintro ⟨⟩
        exact ⟨inner, rfl, rfl⟩
      · rintro ⟨_, ⟨⟩, rfl⟩
        rfl

end ThemeTemplates.Except
