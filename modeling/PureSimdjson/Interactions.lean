import PureSimdjson.Replies

/-!
# Programs among others

A program makes calls, one after the other, and each call decides how it goes on.  The system
makes the calls, and between any two of them others move it.  A contract says what a program
leaves behind if something holds at its start; what it says between the calls has to be stable,
that is, none of the others' moves may end it.

In a session somebody runs one such program after the other.  If each of them answers what a
machine answers, a whole session does (`Turns.answers_eq`).
-/
namespace Interactions

open Runs

/-- A program that makes calls `i`, gets `b` back, and ends in an `a`. -/
inductive Program (ι β α : Type) where
  | done (a : α)
  | call (i : ι) (next : β → Program ι β α)

section
variable {ι β α γ : Type}

def Program.bind : Program ι β α → (α → Program ι β γ) → Program ι β γ
  | .done a, f => f a
  | .call i next, f => .call i fun b => (next b).bind f

instance : Monad (Program ι β) where
  pure := .done
  bind := .bind

/-- A program that makes one call. -/
def Program.once (i : ι) : Program ι β β := .call i .done

@[simp] theorem Program.pure_eq (a : α) : (pure a : Program ι β α) = .done a := rfl

@[simp] theorem Program.done_bind (a : α) (f : α → Program ι β γ) :
    (Program.done a >>= f) = f a := rfl

@[simp] theorem Program.once_bind (i : ι) (f : β → Program ι β γ) :
    (Program.once i >>= f) = .call i f := rfl

end

section
variable {σ ι β α γ : Type}

/-- How a program goes: `own` makes its calls, and `other` moves the system in between. -/
inductive Plays (own : σ → ι → β → σ → Prop) (other : σ → σ → Prop) :
    Program ι β α → σ → α → σ → Prop where
  | done (a : α) (s : σ) : Plays own other (.done a) s a s
  | call {i : ι} {next : β → Program ι β α} {b : β} {s s' t : σ} {a : α} (made : own s i b s')
      (rest : Plays own other (next b) s' a t) : Plays own other (.call i next) s a t
  | other {p : Program ι β α} {s s' t : σ} {a : α} (moved : other s s')
      (rest : Plays own other p s' a t) : Plays own other p s a t

variable {own : σ → ι → β → σ → Prop} {other : σ → σ → Prop}

/-- What is played of a sequence is played of its parts. -/
theorem Plays.of_bind {p : Program ι β α} {f : α → Program ι β γ} {s t : σ} {c : γ}
    (h : Plays own other (p >>= f) s c t) :
    ∃ a s', Plays own other p s a s' ∧ Plays own other (f a) s' c t := by
  generalize hq : p >>= f = q at h
  induction h generalizing p with
  | done c s =>
    cases p with
    | done a => exact ⟨a, s, .done a s, by rw [← Program.done_bind a f, hq]; exact .done c s⟩
    | call i next => cases hq
  | @call i next b s s' t c made rest ih =>
    cases p with
    | done a => exact ⟨a, s, .done a s, by rw [← Program.done_bind a f, hq]; exact .call made rest⟩
    | call i' next' =>
      cases hq
      obtain ⟨a, s₁, hplayed, hrest⟩ := ih rfl
      exact ⟨a, s₁, .call made hplayed, hrest⟩
  | other moved _ ih =>
    obtain ⟨a, s₁, hplayed, hrest⟩ := ih hq
    exact ⟨a, s₁, .other moved hplayed, hrest⟩

/-- The others do not end it. -/
def Stable (other : σ → σ → Prop) (P : σ → Prop) : Prop := ∀ s s', P s → other s s' → P s'

variable (own other) in
/-- **A contract**: where `P` holds at the start, the program ends with `Q`. -/
def Ensures (P : σ → Prop) (p : Program ι β α) (Q : α → σ → Prop) : Prop :=
  ∀ s a t, P s → Plays own other p s a t → Q a t

/-- What a program comes to when nobody else moves. -/
def Program.play (perform : σ → ι → β × σ) : Program ι β α → σ → α × σ
  | .done a, s => (a, s)
  | .call i next, s => (next (perform s i).1).play perform (perform s i).2

theorem Program.plays {perform : σ → ι → β × σ}
    (hperform : ∀ s i, own s i (perform s i).1 (perform s i).2) (p : Program ι β α) (s : σ) :
    Plays own other p s (p.play perform s).1 (p.play perform s).2 := by
  induction p generalizing s with
  | done a => exact .done a s
  | call i next ih => exact .call (hperform s i) (ih _ _)

variable {P : σ → Prop} {Q : α → σ → Prop}

theorem ensures_done {a : α} (hP : Stable other P) (h : ∀ s, P s → Q a s) :
    Ensures own other P (.done a) Q := by
  intro s b t hs hplays
  generalize hp : Program.done a = p at hplays
  induction hplays with
  | done b s =>
    cases hp
    exact h s hs
  | call _ _ _ => cases hp
  | other moved _ ih => exact ih (hP _ _ hs moved) hp

/-- A call, and then the rest of the program. -/
theorem ensures_call {i : ι} {next : β → Program ι β α} (hP : Stable other P)
    {M : β → σ → Prop} (hcall : ∀ s b s', P s → own s i b s' → M b s')
    (hnext : ∀ b, Ensures own other (M b) (next b) Q) :
    Ensures own other P (.call i next) Q := by
  intro s a t hs hplays
  generalize hp : Program.call i next = p at hplays
  induction hplays with
  | done _ _ => cases hp
  | call made rest _ =>
    cases hp
    exact hnext _ _ _ _ (hcall _ _ _ hs made) rest
  | other moved _ ih => exact ih (hP _ _ hs moved) hp

theorem Ensures.bind {p : Program ι β α} {f : α → Program ι β γ} {M : α → σ → Prop}
    {Q : γ → σ → Prop} (hp : Ensures own other P p M)
    (hf : ∀ a, Ensures own other (M a) (f a) Q) : Ensures own other P (p >>= f) Q := by
  intro s c t hs hplays
  obtain ⟨a, s', hplayed, hrest⟩ := hplays.of_bind
  exact hf a _ _ _ (hp _ _ _ hs hplayed) hrest

theorem Ensures.strengthen {p : Program ι β α} {P' : σ → Prop} (h : Ensures own other P p Q)
    (hP : ∀ s, P' s → P s) : Ensures own other P' p Q :=
  fun s a t hs hplays => h s a t (hP s hs) hplays

/-- The state at the start may be taken as given. -/
theorem ensures_from {p : Program ι β α}
    (h : ∀ s, P s → Ensures own other (fun s' => s' = s) p Q) : Ensures own other P p Q :=
  fun s a t hs hplays => h s hs s a t rfl hplays

theorem ensures_of_and {φ : Prop} {p : Program ι β α} (h : φ → Ensures own other P p Q) :
    Ensures own other (fun s => φ ∧ P s) p Q :=
  fun s a t hs hplays => h hs.1 s a t hs.2 hplays

theorem ensures_of_or {P' : σ → Prop} {p : Program ι β α} (h : Ensures own other P p Q)
    (h' : Ensures own other P' p Q) : Ensures own other (fun s => P s ∨ P' s) p Q :=
  fun s a t hs hplays => hs.elim (h s a t · hplays) (h' s a t · hplays)

theorem ensures_of_exists {ξ : Type} {P : ξ → σ → Prop} {p : Program ι β α}
    (h : ∀ x, Ensures own other (P x) p Q) : Ensures own other (fun s => ∃ x, P x s) p Q := by
  rintro s a t ⟨x, hs⟩ hplays
  exact h x s a t hs hplays

/-- A call that can return one thing only. -/
theorem ensures_call_eq {i : ι} {next : β → Program ι β α} {b : β} (hP : Stable other P)
    {R : σ → Prop} (hcall : ∀ s b' s', P s → own s i b' s' → b' = b ∧ R s')
    (hnext : Ensures own other R (next b) Q) : Ensures own other P (.call i next) Q := by
  refine ensures_call hP hcall fun b' => ensures_of_and ?_
  rintro rfl
  exact hnext

end

/-! ## Sessions -/

section
variable {σ ι β κ κ' ν τ : Type}

/-- A session: somebody who has `c` gives a command and gets an answer, or others move. -/
inductive Turns (own : σ → ι → β → σ → Prop) (other : κ → σ → σ → Prop)
    (perform : κ → κ' → Program ι β (ν × κ)) : σ × κ → Option (κ' × ν) → σ × κ → Prop where
  | turn {s s' : σ} {c c' : κ} {command : κ'} {answer : ν}
      (played : Plays own (other c) (perform c command) s (answer, c') s') :
      Turns own other perform (s, c) (some (command, answer)) (s', c')
  | other {s s' : σ} {c : κ} (moved : other c s s') : Turns own other perform (s, c) none (s', c)

variable {own : σ → ι → β → σ → Prop} {other : κ → σ → σ → Prop}
  {perform : κ → κ' → Program ι β (ν × κ)} {machine : τ → κ' → ν × τ}

/-- **A session answers as the machine does**, if every one of its programs does. -/
theorem Turns.answers_eq {J : κ → τ → σ → Prop} (hstable : ∀ c t, Stable (other c) (J c t))
    (hperform : ∀ c t command, Ensures own (other c) (J c t) (perform c command) fun result s =>
      result.1 = (machine t command).1 ∧ J result.2 (machine t command).2 s)
    {s s' : σ × κ} {steps : List (Option (κ' × ν))} (h : Run (Turns own other perform) s steps s')
    {t : τ} (hs : J s.2 t s.1) :
    answers id steps = replies machine t (questions id steps) := by
  refine h.answers_eq (J := fun s t => J s.2 t s.1) ?_ ?_ hs
  · intro s l s' t hJ hstep hshow
    cases hstep with
    | turn _ => cases hshow
    | other moved => exact hstable _ _ _ _ hJ moved
  · intro s l s' t command answer hJ hstep hshow
    cases hstep with
    | turn played =>
      cases hshow
      exact hperform _ _ _ _ _ _ hJ played
    | other _ => cases hshow

end

end Interactions
