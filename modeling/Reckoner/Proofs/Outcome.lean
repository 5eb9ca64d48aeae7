/-!
# Outcomes of staged computations

A computation in stages fails as soon as one of them does. These lemmas take it apart.
-/

namespace Reckoner

variable {α β ε : Type} {first : Except ε α}

@[simp] theorem ok_bind (found : α) (next : α → Except ε β) : (Except.ok found >>= next) = next found := rfl

@[simp] theorem pure_eq_ok (found : α) : (pure found : Except ε α) = .ok found := rfl

@[simp] theorem throw_eq_error (fault : ε) : (throw fault : Except ε α) = .error fault := rfl

theorem bind_eq_ok {next : α → Except ε β} {result : β} :
    first >>= next = .ok result ↔ ∃ found, first = .ok found ∧ next found = .ok result := by
  cases first with
  | error fault => exact ⟨fun run => (nomatch run), fun ⟨_, found, _⟩ => (nomatch found)⟩
  | ok found => exact ⟨fun run => ⟨found, rfl, run⟩, fun ⟨_, same, run⟩ => by cases same; exact run⟩

theorem bind_eq_error {next : α → Except ε β} {fault : ε} :
    first >>= next = .error fault ↔
      first = .error fault ∨ ∃ found, first = .ok found ∧ next found = .error fault := by
  cases first with
  | error other =>
    constructor
    · intro run
      cases run
      exact .inl rfl
    · rintro (same | ⟨_, found, _⟩)
      · cases same
        rfl
      · cases found
  | ok found =>
    constructor
    · exact fun run => .inr ⟨found, rfl, run⟩
    · rintro (same | ⟨_, same, run⟩)
      · cases same
      · cases same
        exact run

end Reckoner
