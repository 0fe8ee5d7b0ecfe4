import PureSimdjson.Retry

/-!
# What a ladder sees

A ladder may see a part of its state only, and a part only of what it returns may matter.  Then it
goes the same way from any two states that look the same.
-/
namespace Retry

variable {υ σ ε α η κ γ β : Type}

/-- How a ladder ends, as far as it matters. -/
def Exit.map (g : α → β) : Exit υ ε α κ → Exit υ ε β κ
  | .success a => .success (g a)
  | .stopped u n e => .stopped u n e
  | .interrupted c => .interrupted c
  | .exhausted last => .exhausted last

/-- The ladder sees `f` of its state, and `g` of what it returns matters. -/
structure Sees (L : Ladder υ σ ε α η κ) (f : σ → γ) (g : α → β) : Prop where
  pause : ∀ (u : υ) (n : Nat) (hint : η) {s s' : σ}, f s = f s' →
    (L.pause u n hint s).1 = (L.pause u n hint s').1 ∧
      f (L.pause u n hint s).2 = f (L.pause u n hint s').2
  check : ∀ {s s' : σ}, f s = f s' → L.check s = L.check s'
  attempt : ∀ (u : υ) (n : Nat) {s s' : σ}, f s = f s' →
    (L.attempt u n s).1.map g = (L.attempt u n s').1.map g ∧
      f (L.attempt u n s).2 = f (L.attempt u n s').2

/-- Two climbs look the same. -/
def Climb.Alike (f : σ → γ) (g : α → β) (v w : Climb υ σ ε α η κ) : Prop :=
  v.exit.map g = w.exit.map g ∧ f v.state = f w.state

/-- A climb that has its end from one of two that look the same looks as that from the other. -/
theorem Climb.Alike.after {f : σ → γ} {g : α → β} {v w : Climb υ σ ε α η κ} (h : v.Alike f g w)
    (evs evs' : List (Event υ σ ε α η κ)) :
    Climb.Alike f g ⟨evs, v.exit, v.state⟩ ⟨evs', w.exit, w.state⟩ := h

variable {L : Ladder υ σ ε α η κ} {f : σ → γ} {g : α → β} {s s' : σ}

theorem Sees.rest (hL : Sees L f g) (u : υ) (n : Nat) (hint : η) (h : f s = f s') :
    (L.rest u n hint s).2.1 = (L.rest u n hint s').2.1 ∧
      f (L.rest u n hint s).2.2 = f (L.rest u n hint s').2.2 := by
  rw [Ladder.rest, Ladder.rest]
  split
  · exact ⟨rfl, h⟩
  · exact hL.pause u n hint h

/-- **A visit to a source looks the same from states that look the same.** -/
theorem Sees.visit (hL : Sees L f g) (u : υ) (left n : Nat) (hint : η)
    (last : Option (υ × Nat × ε)) (h : f s = f s') :
    (L.visit u left n hint last s).Alike f g (L.visit u left n hint last s') := by
  induction left generalizing n hint last s s' with
  | zero => exact ⟨rfl, h⟩
  | succ left ih =>
    rw [Ladder.visit, Ladder.visit]
    obtain ⟨hslept, hrested⟩ := hL.rest u n hint h
    generalize L.rest u n hint s = r at hslept hrested ⊢
    generalize L.rest u n hint s' = r' at hslept hrested ⊢
    obtain ⟨rest, interrupted, t⟩ := r
    obtain ⟨rest', interrupted', t'⟩ := r'
    obtain rfl : interrupted = interrupted' := hslept
    have ht : f t = f t' := hrested
    cases interrupted with
    | some c => exact ⟨rfl, ht⟩
    | none =>
      dsimp only
      rw [← hL.check ht]
      cases L.check t with
      | some c => exact ⟨rfl, ht⟩
      | none =>
        dsimp only
        obtain ⟨hresult, hafter⟩ := hL.attempt u n ht
        generalize L.attempt u n t = r at hresult hafter ⊢
        generalize L.attempt u n t' = r' at hresult hafter ⊢
        obtain ⟨result, t⟩ := r
        obtain ⟨result', t'⟩ := r'
        cases result with
        | ok a =>
          cases result' with
          | ok b => exact ⟨congrArg Exit.success (Except.ok.inj hresult), hafter⟩
          | error e => cases hresult
        | error e =>
          cases result' with
          | ok b => cases hresult
          | error e' =>
            obtain rfl : e = e' := Except.error.inj hresult
            dsimp only
            cases L.verdict e with
            | stop => exact ⟨rfl, hafter⟩
            | giveUp => exact ⟨rfl, hafter⟩
            | again hint' => exact (ih (n + 1) hint' (some (u, n, e)) hafter).after _ _

/-- **A climb looks the same from states that look the same.** -/
theorem Sees.climb (hL : Sees L f g) (us : List υ) (last : Option (υ × Nat × ε))
    (h : f s = f s') : (L.climb us last s).Alike f g (L.climb us last s') := by
  induction us generalizing last s s' with
  | nil => exact ⟨rfl, h⟩
  | cons u us ih =>
    rw [Ladder.climb, Ladder.climb]
    obtain ⟨hexit, hstate⟩ := hL.visit u L.limit 0 L.noHint last h
    generalize L.visit u L.limit 0 L.noHint last s = v at hexit hstate ⊢
    generalize L.visit u L.limit 0 L.noHint last s' = w at hexit hstate ⊢
    obtain ⟨evs, x, t⟩ := v
    obtain ⟨evs', x', t'⟩ := w
    cases x with
    | exhausted last =>
      cases x' with
      | exhausted last' =>
        obtain rfl : last = last' := Exit.exhausted.inj hexit
        exact (ih last hstate).after _ _
      | _ => cases hexit
    | _ => cases x' <;> first | exact ⟨hexit, hstate⟩ | cases hexit

end Retry
