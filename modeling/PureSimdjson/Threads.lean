import PureSimdjson.Runs

/-!
# Threads over a shared state

Each thread has a local state, and all threads share one.  A step is taken by one thread,
on the shared state and its own local state.  An *outline* says what holds of the shared
state between steps and what each thread can rely on where it is.  It stands if a step
keeps both for the thread that takes it, and disturbs nothing that another thread relies
on.  What stands in an outline holds along every run, whatever the schedule
(`Outline.run`).
-/
namespace Threads

open Runs

/-- What the threads share, and what each has of its own. -/
structure Config (T σ θ : Type) where
  shared : σ
  own : T → θ

variable {T σ θ α : Type}

/-- One thread takes a step, and the others stay where they are. -/
inductive Moves [DecidableEq T] (step : T → σ → θ → α → σ → θ → Prop) :
    Config T σ θ → T × α → Config T σ θ → Prop where
  | move {s s' : σ} {own : T → θ} {t : T} {x' : θ} {a : α} (taken : step t s (own t) a s' x') :
      Moves step ⟨s, own⟩ (t, a) ⟨s', Function.update own t x'⟩

/-- What an outline says of a configuration. -/
structure Holds (I : σ → Prop) (A : T → σ → θ → Prop) (c : Config T σ θ) : Prop where
  shared : I c.shared
  own : ∀ t, A t c.shared (c.own t)

/-- **An outline stands.**  A step keeps what is said of the shared state and of the thread
that takes it, and what any other thread relies on. -/
structure Outline (step : T → σ → θ → α → σ → θ → Prop) (I : σ → Prop)
    (A : T → σ → θ → Prop) : Prop where
  keeps : ∀ {t : T} {s s' : σ} {x x' : θ} {a : α}, I s → A t s x → step t s x a s' x' →
    I s' ∧ A t s' x'
  stable : ∀ {t t' : T} {s s' : σ} {x x' y : θ} {a : α}, t' ≠ t → I s → A t s x →
    step t s x a s' x' → A t' s y → A t' s' y

variable {step : T → σ → θ → α → σ → θ → Prop} {I : σ → Prop} {A : T → σ → θ → Prop}
  [DecidableEq T]

theorem Outline.move (h : Outline step I A) {c c' : Config T σ θ} {l : T × α}
    (hc : Holds I A c) (hmove : Moves step c l c') : Holds I A c' := by
  cases hmove with
  | @move s s' own t x' a taken =>
    obtain ⟨hshared, hown⟩ := h.keeps hc.shared (hc.own t) taken
    refine ⟨hshared, fun t' => ?_⟩
    show A t' s' (Function.update own t x' t')
    by_cases heq : t' = t
    · rw [heq, Function.update_self]
      exact hown
    · rw [Function.update_of_ne heq]
      exact h.stable heq hc.shared (hc.own t) taken (hc.own t')

/-- What an outline says holds at the end of every run. -/
theorem Outline.run (h : Outline step I A) {c c' : Config T σ θ} {ls : List (T × α)}
    (hrun : Run (Moves step) c ls c') (hc : Holds I A c) : Holds I A c' :=
  hrun.invariant (fun _ _ _ hc hmove => h.move hc hmove) hc

/-- What is true of every step that is taken where the outline holds is true of every step
of a run. -/
theorem Outline.labels (h : Outline step I A) {P : T → α → Prop}
    (hstep : ∀ {t : T} {s s' : σ} {x x' : θ} {a : α}, I s → A t s x → step t s x a s' x' → P t a)
    {c c' : Config T σ θ} {ls : List (T × α)} (hrun : Run (Moves step) c ls c')
    (hc : Holds I A c) : ∀ l ∈ ls, P l.1 l.2 := by
  induction hrun with
  | nil _ =>
    intro l hl
    cases hl
  | cons hmove _ ih =>
    intro l hl
    rcases List.mem_cons.mp hl with rfl | hl
    · cases hmove with
      | move taken => exact hstep hc.shared (hc.own _) taken
    · exact ih (h.move hc hmove) l hl

/-- While only others move, a thread stays where it is. -/
theorem own_of_others {c c' : Config T σ θ} {t : T} {ls : List (T × α)}
    (hrun : Run (Moves step) c ls c') (hothers : ∀ l ∈ ls, l.1 ≠ t) : c'.own t = c.own t := by
  induction hrun with
  | nil _ => rfl
  | @cons c₁ c₂ c₃ l ls hmove _ ih =>
    rw [ih fun l hl => hothers l (List.mem_cons_of_mem _ hl)]
    cases hmove with
    | move taken => exact Function.update_of_ne (Ne.symm (hothers _ List.mem_cons_self)) _ _

/-- A run of one thread alone. -/
inductive Alone (step : T → σ → θ → α → σ → θ → Prop) (t : T) :
    σ → θ → List α → σ → θ → Prop where
  | nil (s : σ) (x : θ) : Alone step t s x [] s x
  | cons {s s' s'' : σ} {x x' x'' : θ} {a : α} {as : List α} :
      step t s x a s' x' → Alone step t s' x' as s'' x'' → Alone step t s x (a :: as) s'' x''

/-- What one thread can do alone it can do among others. -/
theorem Alone.run {t : T} {s s' : σ} {x x' : θ} {as : List α} (h : Alone step t s x as s' x')
    {own : T → θ} (hown : own t = x) :
    Run (Moves step) ⟨s, own⟩ (as.map (t, ·)) ⟨s', Function.update own t x'⟩ := by
  induction h generalizing own with
  | nil s x =>
    rw [← hown, Function.update_eq_self]
    exact .nil _
  | @cons s₁ s₂ s₃ x₁ x₂ x₃ a as htaken _ ih =>
    have hlater := ih (Function.update_self t x₂ own)
    rw [Function.update_idem] at hlater
    exact .cons (.move (hown ▸ htaken)) hlater

/-! ## Locks

A lock is who holds it, if anyone does. -/

/-- What a step of a thread may do to a lock. -/
inductive LockStep (t : T) : Option T → Option T → Prop where
  | keep (lock : Option T) : LockStep t lock lock
  | acquire : LockStep t none (some t)
  | release : LockStep t (some t) none

omit [DecidableEq T] in
/-- **A lock that another thread holds stays with it.** -/
theorem LockStep.other {t t' : T} {lock lock' : Option T} (h : LockStep t lock lock')
    (hne : t' ≠ t) : lock' = some t' ↔ lock = some t' := by
  cases h with
  | keep _ => exact Iff.rfl
  | acquire =>
    exact ⟨(fun heq => absurd (Option.some.inj heq).symm hne), (fun heq => by cases heq)⟩
  | release =>
    exact ⟨(fun heq => by cases heq), (fun heq => absurd (Option.some.inj heq).symm hne)⟩

/-! ## Counting threads -/

/-- There are `n` threads where `P` holds. -/
def Counts (P : θ → Prop) (own : T → θ) (n : Nat) : Prop :=
  ∃ S : Finset T, (∀ t, t ∈ S ↔ P (own t)) ∧ S.card = n

section
variable {P : θ → Prop} {own : T → θ} {n : Nat} {t : T} {x' : θ}

omit [DecidableEq T] in
theorem Counts.none (h : ∀ t, ¬ P (own t)) : Counts P own 0 :=
  ⟨∅, fun t => ⟨fun ht => absurd ht (Finset.notMem_empty t), fun ht => absurd ht (h t)⟩, rfl⟩

omit [DecidableEq T] in
theorem Counts.pos (h : Counts P own n) (ht : P (own t)) : 0 < n := by
  obtain ⟨S, hS, rfl⟩ := h
  exact Finset.card_pos.mpr ⟨t, (hS t).mpr ht⟩

theorem Counts.keep (h : Counts P own n) (hx : P x' ↔ P (own t)) :
    Counts P (Function.update own t x') n := by
  obtain ⟨S, hS, rfl⟩ := h
  refine ⟨S, fun t' => ?_, rfl⟩
  by_cases heq : t' = t
  · rw [heq, Function.update_self, hS, hx]
  · rw [Function.update_of_ne heq, hS]

/-- One more thread is there. -/
theorem Counts.enter (h : Counts P own n) (hbefore : ¬ P (own t)) (hafter : P x') :
    Counts P (Function.update own t x') (n + 1) := by
  obtain ⟨S, hS, rfl⟩ := h
  have hfresh : t ∉ S := fun ht => hbefore ((hS t).mp ht)
  refine ⟨insert t S, fun t' => ?_, Finset.card_insert_of_notMem hfresh⟩
  rw [Finset.mem_insert]
  by_cases heq : t' = t
  · rw [heq, Function.update_self]
    exact ⟨fun _ => hafter, fun _ => Or.inl rfl⟩
  · rw [Function.update_of_ne heq, hS]
    exact ⟨fun h => h.resolve_left heq, Or.inr⟩

/-- One thread has gone. -/
theorem Counts.leave (h : Counts P own (n + 1)) (hbefore : P (own t)) (hafter : ¬ P x') :
    Counts P (Function.update own t x') n := by
  obtain ⟨S, hS, hcard⟩ := h
  have hmem : t ∈ S := (hS t).mpr hbefore
  refine ⟨S.erase t, fun t' => ?_, ?_⟩
  · rw [Finset.mem_erase]
    by_cases heq : t' = t
    · rw [heq, Function.update_self]
      exact ⟨fun h => absurd rfl h.1, fun h => absurd h hafter⟩
    · rw [Function.update_of_ne heq, hS]
      exact ⟨And.right, fun h => ⟨heq, h⟩⟩
  · rw [Finset.card_erase_of_mem hmem, hcard]
    omega

end

end Threads
