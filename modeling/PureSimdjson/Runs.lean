import Mathlib

/-!
# Labelled runs

A system is a relation `step s l s'`: from `s`, the move `l` can lead to `s'`.  A
run is a finite chain of moves.  What one move preserves, a run preserves
(`Run.invariant`).  A partial function from states and moves to states runs by
folding it over the moves (`run_of_foldlM`).
-/
namespace Runs

variable {σ ℓ : Type} {step : σ → ℓ → σ → Prop}

/-- `ls` are the moves, in order, of a run from the first state to the second. -/
inductive Run (step : σ → ℓ → σ → Prop) : σ → List ℓ → σ → Prop where
  | nil (s : σ) : Run step s [] s
  | cons {s s' s'' : σ} {l : ℓ} {ls : List ℓ} :
      step s l s' → Run step s' ls s'' → Run step s (l :: ls) s''

theorem Run.invariant {I : σ → Prop} (hstep : ∀ s l s', I s → step s l s' → I s')
    {s s' : σ} {ls : List ℓ} (hr : Run step s ls s') (hs : I s) : I s' := by
  induction hr with
  | nil s => exact hs
  | cons hl _ ih => exact ih (hstep _ _ _ hs hl)

theorem Run.append {s s' s'' : σ} {ls ls' : List ℓ} (h : Run step s ls s')
    (h' : Run step s' ls' s'') : Run step s (ls ++ ls') s'' := by
  induction h with
  | nil _ => exact h'
  | cons hl _ ih => exact .cons hl (ih h')

theorem Run.snoc {s s' s'' : σ} {l : ℓ} {ls : List ℓ} (h : Run step s ls s')
    (hl : step s' l s'') : Run step s (ls ++ [l]) s'' :=
  h.append (.cons hl (.nil _))

/-- A run stays one if each of its moves is one of another system. -/
theorem Run.mono {step' : σ → ℓ → σ → Prop} {s s' : σ} {ls : List ℓ} (h : Run step s ls s')
    (hstep : ∀ s l s', l ∈ ls → step s l s' → step' s l s') : Run step' s ls s' := by
  induction h with
  | nil s => exact .nil s
  | cons hl _ ih =>
    exact .cons (hstep _ _ _ List.mem_cons_self hl)
      (ih fun s l s' hmem => hstep s l s' (List.mem_cons_of_mem _ hmem))

/-- What one move preserves, given the moves so far, a run preserves. -/
theorem Run.history {J : List ℓ → σ → Prop}
    (hstep : ∀ ls s l s', J ls s → step s l s' → J (ls ++ [l]) s') {s s' : σ} {ls : List ℓ}
    (h : Run step s ls s') {before : List ℓ} (hs : J before s) : J (before ++ ls) s' := by
  induction h generalizing before with
  | nil _ => simpa using hs
  | @cons s₁ s₂ s₃ l ls hl _ ih =>
    have hnext : J (before ++ [l]) s₂ := hstep _ _ _ _ hs hl
    simpa using ih hnext

/-- Every move of a list is such as it should be after the moves before it. -/
def Each (P : List ℓ → ℓ → Prop) (ls : List ℓ) : Prop :=
  ∀ before l after, ls = before ++ l :: after → P before l

theorem Each.init {P : List ℓ → ℓ → Prop} {ls : List ℓ} {l : ℓ} (h : Each P (ls ++ [l])) :
    Each P ls := fun before l' after heq => h before l' (after ++ [l]) (by simp [heq])

theorem Each.last {P : List ℓ → ℓ → Prop} {ls : List ℓ} {l : ℓ} (h : Each P (ls ++ [l])) :
    P ls l := h ls l [] rfl

theorem Each.snoc {P : List ℓ → ℓ → Prop} {ls : List ℓ} {l : ℓ} (h : Each P ls) (hl : P ls l) :
    Each P (ls ++ [l]) := by
  intro before l' after heq
  rcases List.eq_nil_or_concat after with rfl | ⟨rest, last, rfl⟩
  · obtain ⟨rfl, hlast⟩ := List.append_inj' heq rfl
    obtain rfl := List.singleton_inj.mp hlast
    exact hl
  · have hinit : ls ++ [l] = (before ++ l' :: rest) ++ [last] := by
      rw [heq, List.concat_eq_append, List.append_assoc, List.cons_append]
    exact h before l' rest (List.append_inj' hinit rfl).1

/-- A run of some moves and then some more passes through a state between them. -/
theorem Run.split {s s'' : σ} : ∀ {ls ls' : List ℓ}, Run step s (ls ++ ls') s'' →
    ∃ s', Run step s ls s' ∧ Run step s' ls' s''
  | [], _, h => ⟨s, .nil s, h⟩
  | l :: ls, ls', h => by
      cases h with
      | cons hl hrest =>
        obtain ⟨s', hfirst, hlast⟩ := Run.split hrest
        exact ⟨s', .cons hl hfirst, hlast⟩

/-- The state before a move of a run, and the one after it. -/
theorem Run.at_move {s s'' : σ} {before after : List ℓ} {l : ℓ}
    (h : Run step s (before ++ l :: after) s'') :
    ∃ s₁ s₂, Run step s before s₁ ∧ step s₁ l s₂ ∧ Run step s₂ after s'' := by
  obtain ⟨s₁, hbefore, hrest⟩ := h.split
  cases hrest with
  | cons hl hafter => exact ⟨s₁, _, hbefore, hl, hafter⟩

/-- What is true of every move from a state where `I` holds is true of the moves of a run as
long as they keep `I`; only the moves in `E` may end it. -/
theorem Run.labels_until {I : σ → Prop} {E P : ℓ → Prop}
    (hstep : ∀ s l s', I s → step s l s' → P l ∧ (¬ E l → I s')) {s s' : σ} {ls : List ℓ}
    (h : Run step s ls s') (hs : I s) (hls : ∀ l ∈ ls, ¬ E l) : ∀ l ∈ ls, P l := by
  induction h with
  | nil _ =>
    intro l hl
    cases hl
  | @cons s₁ s₂ s₃ l ls hl _ ih =>
    obtain ⟨hp, hnext⟩ := hstep _ _ _ hs hl
    intro l' hl'
    rcases List.mem_cons.mp hl' with rfl | hl'
    · exact hp
    · exact ih (hnext (hls _ List.mem_cons_self)) (fun l hl => hls l (List.mem_cons_of_mem _ hl))
        l' hl'

/-- Folding a partial step function over the moves is a run. -/
theorem run_of_foldlM {f : σ → ℓ → Option σ} {ls : List ℓ} {s s' : σ}
    (h : ls.foldlM f s = some s') : Run (fun t l t' => f t l = some t') s ls s' := by
  induction ls generalizing s with
  | nil =>
    cases h
    exact .nil _
  | cons l ls ih =>
    rw [List.foldlM_cons] at h
    obtain ⟨t, ht, hrest⟩ := Option.bind_eq_some_iff.mp h
    exact .cons ht (ih hrest)

/-! ## One caller among others -/

variable {ι β : Type} {other : σ → σ → Prop} {call : σ → ι → β → σ → ι → Prop}

/-- A caller makes calls, each with what the one before left it, and others act in
between.  `rs` are the results of its calls, in order. -/
inductive Threaded (other : σ → σ → Prop) (call : σ → ι → β → σ → ι → Prop) :
    σ → ι → List β → σ → ι → Prop where
  | nil (s : σ) (i : ι) : Threaded other call s i [] s i
  | other {s s' s'' : σ} {i i' : ι} {rs : List β} :
      other s s' → Threaded other call s' i rs s'' i' → Threaded other call s i rs s'' i'
  | call {s s' s'' : σ} {i i' i'' : ι} {r : β} {rs : List β} :
      call s i r s' i' → Threaded other call s' i' rs s'' i'' →
        Threaded other call s i (r :: rs) s'' i''

/-- If others do not disturb the caller, and its `n`-th call does what it should, then
all its calls do, whatever happens in between. -/
theorem Threaded.results {J : Nat → σ → ι → Prop} {expected : Nat → β}
    (hother : ∀ n s i s', J n s i → other s s' → J n s' i)
    (hcall : ∀ n s i r s' i', J n s i → call s i r s' i' → r = expected n ∧ J (n + 1) s' i')
    {s s' : σ} {i i' : ι} {rs : List β} (h : Threaded other call s i rs s' i') {n : Nat}
    (hs : J n s i) : ∀ k (hk : k < rs.length), rs[k] = expected (n + k) := by
  induction h generalizing n with
  | nil s i =>
    intro k hk
    simp at hk
  | other hstep _ ih => exact ih (hother _ _ _ _ hs hstep)
  | call hstep _ ih =>
    obtain ⟨rfl, hnext⟩ := hcall _ _ _ _ _ _ hs hstep
    intro k hk
    cases k with
    | zero => rfl
    | succ k =>
      rw [List.getElem_cons_succ, ih hnext k (by simpa using hk)]
      congr 1
      omega

end Runs
