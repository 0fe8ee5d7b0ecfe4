import PureSimdjson.Runs

/-!
# Systems that answer

Some moves of a system answer a question, and others are none of the asker's business.  A
machine answers each question from a state of its own and goes to the next.  If the system
stands to the machine's state in a relation that every silent move keeps, and every answer is the
machine's and leads to its next state, then over a whole run the answers are those the machine
gives to the same questions.
-/
namespace Runs

variable {σ τ ℓ ι β : Type}

/-- What a machine answers to questions, one after the other. -/
def replies (machine : τ → ι → β × τ) : τ → List ι → List β
  | _, [] => []
  | t, i :: is => (machine t i).1 :: replies machine (machine t i).2 is

/-- The questions of a run. -/
def questions (shows : ℓ → Option (ι × β)) (ls : List ℓ) : List ι :=
  (ls.filterMap shows).map Prod.fst

/-- The answers of a run. -/
def answers (shows : ℓ → Option (ι × β)) (ls : List ℓ) : List β :=
  (ls.filterMap shows).map Prod.snd

variable {step : σ → ℓ → σ → Prop} {shows : ℓ → Option (ι × β)} {machine : τ → ι → β × τ}

/-- **A run answers as the machine does**, if every move does. -/
theorem Run.answers_eq {J : σ → τ → Prop}
    (hsilent : ∀ s l s' t, J s t → step s l s' → shows l = none → J s' t)
    (hshown : ∀ s l s' t i b, J s t → step s l s' → shows l = some (i, b) →
      b = (machine t i).1 ∧ J s' (machine t i).2)
    {s s' : σ} {ls : List ℓ} (h : Run step s ls s') {t : τ} (hs : J s t) :
    answers shows ls = replies machine t (questions shows ls) := by
  induction h generalizing t with
  | nil s => rfl
  | @cons s₁ s₂ s₃ l ls hl _ ih =>
    cases hshow : shows l with
    | none =>
      rw [answers, questions, List.filterMap_cons_none hshow]
      exact ih (hsilent _ _ _ _ hs hl hshow)
    | some shown =>
      obtain ⟨i, b⟩ := shown
      obtain ⟨rfl, hnext⟩ := hshown _ _ _ _ _ _ hs hl hshow
      rw [answers, questions, List.filterMap_cons_some hshow, List.map_cons, List.map_cons, replies]
      exact congrArg ((machine t i).1 :: ·) (ih hnext)

end Runs
