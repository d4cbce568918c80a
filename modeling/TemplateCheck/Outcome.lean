/-!
This module contains when a computation that may fail, made of smaller ones, succeeds and when it
fails.
-/

namespace TemplateCheck

namespace Outcome

variable {ε α β : Type}

theorem bind_eq_ok_iff {x : Except ε α} {f : α → Except ε β} {b : β} :
    x >>= f = .ok b ↔ ∃ a, x = .ok a ∧ f a = .ok b := by
  cases x with
  | error e => simp [bind, Except.bind]
  | ok a => simp [bind, Except.bind]

theorem map_eq_ok_iff {x : Except ε α} {f : α → β} {b : β} :
    x.map f = .ok b ↔ ∃ a, x = .ok a ∧ f a = b := by
  cases x with
  | error e => simp [Except.map]
  | ok a => simp [Except.map]

theorem bind_eq_error_iff {x : Except ε α} {f : α → Except ε β} {e : ε} :
    x >>= f = .error e ↔ x = .error e ∨ ∃ a, x = .ok a ∧ f a = .error e := by
  cases x with
  | error e => simp [bind, Except.bind]
  | ok a => simp [bind, Except.bind]

theorem map_eq_error_iff {x : Except ε α} {f : α → β} {e : ε} :
    x.map f = .error e ↔ x = .error e := by
  cases x with
  | error e => simp [Except.map]
  | ok a => simp [Except.map]

theorem mapError_eq_ok_iff {ε' : Type} {x : Except ε α} {f : ε → ε'} {a : α} :
    x.mapError f = .ok a ↔ x = .ok a := by
  cases x with
  | error e => exact ⟨nofun, nofun⟩
  | ok b =>
    constructor
    . intro h
      cases h
      rfl
    . intro h
      cases h
      rfl

theorem mapError_eq_error_iff {ε' : Type} {x : Except ε α} {f : ε → ε'}
    (hf : ∀ e e', f e = f e' → e = e') {e : ε} : x.mapError f = .error (f e) ↔ x = .error e := by
  cases x with
  | error e' =>
    constructor
    . intro h
      rw [hf e' e (Except.error.inj h)]
    . intro h
      cases h
      rfl
  | ok a => exact ⟨nofun, nofun⟩

theorem exists_mapError_eq_error_iff {ε' : Type} {x : Except ε α} {f : ε → ε'} :
    (∃ e, x.mapError f = .error e) ↔ ∃ e, x = .error e := by
  cases x with
  | error e => exact ⟨fun _ => ⟨e, rfl⟩, fun _ => ⟨f e, rfl⟩⟩
  | ok a => exact ⟨nofun, nofun⟩

theorem exists_map_ok {rs : List (Except ε α)} (h : ∀ r ∈ rs, ∀ e, r ≠ .error e) :
    ∃ xs : List α, rs = xs.map .ok := by
  induction rs with
  | nil => exact ⟨[], rfl⟩
  | cons r rs ih =>
    rw [List.forall_mem_cons] at h
    obtain ⟨xs, hxs⟩ := ih h.2
    cases r with
    | error e => exact absurd rfl (h.1 e)
    | ok x => exact ⟨x :: xs, by rw [hxs]; rfl⟩

end Outcome

end TemplateCheck
