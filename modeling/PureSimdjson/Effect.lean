import Mathlib

/-!
# Weakest preconditions of fallible state transformers

A call that takes a lock, changes a table and may return early with a status is
an `EStateM ε σ α`: it answers `ok` or `error`, and the state it leaves behind
survives an error.  `wp m Q E s` says what such a call guarantees from `s`: the
postcondition `Q` if it succeeds, `E` if it fails.

The equations below push `wp` through the constructs programs are written with,
so a proof about a program reads its text from the first statement to the last
and stops exactly where an unknown call is made; `wp_mono` plugs in what is known
of that call.  `zoom` runs a program on a part of a larger state.
-/
namespace Effect

variable {ε σ τ α β : Type}

/-- What `m` guarantees from `s`: `Q` on success, `E` on failure. -/
def wp (m : EStateM ε σ α) (Q : α → σ → Prop) (E : ε → σ → Prop) (s : σ) : Prop :=
  match m.run s with
  | .ok a s' => Q a s'
  | .error e s' => E e s'

variable {Q : α → σ → Prop} {E : ε → σ → Prop} {s : σ}

theorem wp_ok {m : EStateM ε σ α} {a : α} {s' : σ} (h : wp m Q E s)
    (hr : m.run s = .ok a s') : Q a s' := by
  simpa only [wp, hr] using h

theorem wp_error {m : EStateM ε σ α} {e : ε} {s' : σ} (h : wp m Q E s)
    (hr : m.run s = .error e s') : E e s' := by
  simpa only [wp, hr] using h

theorem wp_of_run_ok {m : EStateM ε σ α} {a : α} {t : σ} (hr : m.run s = .ok a t)
    (h : Q a t) : wp m Q E s := by
  simpa only [wp, hr] using h

theorem wp_of_run_error {m : EStateM ε σ α} {e : ε} {t : σ} (hr : m.run s = .error e t)
    (h : E e t) : wp m Q E s := by
  simpa only [wp, hr] using h

/-- Guaranteeing one outcome is having it. -/
theorem run_eq_ok {m : EStateM ε σ α} {a : α} {t : σ}
    (h : wp m (fun b u => b = a ∧ u = t) (fun _ _ => False) s) : m.run s = .ok a t := by
  cases hr : m.run s with
  | ok b u =>
    obtain ⟨rfl, rfl⟩ := wp_ok h hr
    rfl
  | error e u => exact (wp_error h hr).elim

theorem run_eq_error {m : EStateM ε σ α} {e : ε} {t : σ}
    (h : wp m (fun _ _ => False) (fun d u => d = e ∧ u = t) s) : m.run s = .error e t := by
  cases hr : m.run s with
  | ok b u => exact (wp_ok h hr).elim
  | error d u =>
    obtain ⟨rfl, rfl⟩ := wp_error h hr
    rfl

/-- A call that cannot fail returns something right. -/
theorem exists_run_ok {m : EStateM ε σ α} (h : wp m Q (fun _ _ => False) s) :
    ∃ a t, m.run s = .ok a t ∧ Q a t := by
  cases hr : m.run s with
  | ok a t => exact ⟨a, t, rfl, wp_ok h hr⟩
  | error e t => exact (wp_error h hr).elim

/-- A call that cannot succeed fails in the way it may. -/
theorem exists_run_error {m : EStateM ε σ α} (h : wp m (fun _ _ => False) E s) :
    ∃ e t, m.run s = .error e t ∧ E e t := by
  cases hr : m.run s with
  | ok a t => exact (wp_ok h hr).elim
  | error e t => exact ⟨e, t, rfl, wp_error h hr⟩

theorem wp_mono {m : EStateM ε σ α} {Q' : α → σ → Prop} {E' : ε → σ → Prop}
    (h : wp m Q E s) (hQ : ∀ a s', Q a s' → Q' a s') (hE : ∀ e s', E e s' → E' e s') :
    wp m Q' E' s := by
  unfold wp at h ⊢
  split at h
  · exact hQ _ _ h
  · exact hE _ _ h

/-- Nothing needs to be known of a call whose every outcome will do. -/
theorem wp_of_forall {m : EStateM ε σ α} (hQ : ∀ a s', Q a s') (hE : ∀ e s', E e s') :
    wp m Q E s := by
  unfold wp
  split
  · exact hQ _ _
  · exact hE _ _

/-- Two guarantees of one call hold together. -/
theorem wp_and {m : EStateM ε σ α} {Q' : α → σ → Prop} {E' : ε → σ → Prop}
    (h : wp m Q E s) (h' : wp m Q' E' s) :
    wp m (fun a t => Q a t ∧ Q' a t) (fun e t => E e t ∧ E' e t) s := by
  unfold wp at h h' ⊢
  cases hr : m.run s with
  | ok a t => rw [hr] at h h'; exact ⟨h, h'⟩
  | error e t => rw [hr] at h h'; exact ⟨h, h'⟩

/-! ## The constructs of a program -/

@[simp] theorem wp_pure (a : α) : wp (pure a : EStateM ε σ α) Q E s ↔ Q a s := Iff.rfl

@[simp] theorem wp_throw (e : ε) : wp (throw e : EStateM ε σ α) Q E s ↔ E e s := Iff.rfl

@[simp] theorem wp_bind (m : EStateM ε σ β) (f : β → EStateM ε σ α) :
    wp (m >>= f) Q E s ↔ wp m (fun b => wp (f b) Q E) E s := by
  simp only [wp, EStateM.run, bind, EStateM.bind]
  cases m s <;> exact Iff.rfl

@[simp] theorem wp_map (m : EStateM ε σ β) (f : β → α) :
    wp (f <$> m) Q E s ↔ wp m (fun b => Q (f b)) E s := by
  simp only [wp, EStateM.run, Functor.map, EStateM.map]
  cases m s <;> exact Iff.rfl

@[simp] theorem wp_get {Q : σ → σ → Prop} : wp (get : EStateM ε σ σ) Q E s ↔ Q s s := Iff.rfl

@[simp] theorem wp_set {Q : PUnit → σ → Prop} (t : σ) :
    wp (set t : EStateM ε σ PUnit) Q E s ↔ Q ⟨⟩ t := Iff.rfl

@[simp] theorem wp_modify {Q : PUnit → σ → Prop} (f : σ → σ) :
    wp (modify f : EStateM ε σ PUnit) Q E s ↔ Q ⟨⟩ (f s) := Iff.rfl

@[simp] theorem wp_modifyGet (f : σ → α × σ) :
    wp (modifyGet f : EStateM ε σ α) Q E s ↔ Q (f s).1 (f s).2 := Iff.rfl

/-- A handler starts from the state the failure left behind. -/
@[simp] theorem wp_tryCatch (m : EStateM ε σ α) (h : ε → EStateM ε σ α) :
    wp (tryCatch m h) Q E s ↔ wp m Q (fun e => wp (h e) Q E) s := by
  simp only [wp, EStateM.run, tryCatch, tryCatchThe, MonadExceptOf.tryCatch, EStateM.tryCatch]
  cases m s <;> exact Iff.rfl

/-- The branch a test takes is the one whose guarantee is owed. -/
theorem wp_ite {c : Prop} [Decidable c] (m m' : EStateM ε σ α) :
    wp (if c then m else m') Q E s ↔ (c → wp m Q E s) ∧ (¬ c → wp m' Q E s) := by
  by_cases h : c <;> simp [h]

/-! ## Answers and parts of the state -/

/-- Returning early with `e` unless `c` holds. -/
def require (c : Prop) [Decidable c] (e : ε) : EStateM ε σ Unit :=
  if c then pure () else throw e

@[simp] theorem wp_require {Q : Unit → σ → Prop} (c : Prop) [Decidable c] (e : ε) :
    wp (require c e : EStateM ε σ Unit) Q E s ↔ (c → Q () s) ∧ (¬ c → E e s) := by
  rw [require, wp_ite, wp_pure, wp_throw]

@[simp] theorem wp_ofExcept_ok (a : α) :
    wp (ofExcept (.ok a) : EStateM ε σ α) Q E s ↔ Q a s := Iff.rfl

@[simp] theorem wp_ofExcept_error (e : ε) :
    wp (ofExcept (.error e) : EStateM ε σ α) Q E s ↔ E e s := Iff.rfl

theorem wp_ofExcept (x : Except ε α) :
    wp (ofExcept x : EStateM ε σ α) Q E s ↔
      (∀ a, x = .ok a → Q a s) ∧ ∀ e, x = .error e → E e s := by
  cases x <;> simp

/-- Run `m` on the part of the state `focus` selects, and put what it leaves
there back, also when it fails. -/
def zoom (focus : σ → τ) (put : σ → τ → σ) (m : EStateM ε τ α) : EStateM ε σ α := fun s =>
  match m.run (focus s) with
  | .ok a t => .ok a (put s t)
  | .error e t => .error e (put s t)

@[simp] theorem wp_zoom (focus : σ → τ) (put : σ → τ → σ) (m : EStateM ε τ α) :
    wp (zoom focus put m) Q E s ↔
      wp m (fun a t => Q a (put s t)) (fun e t => E e (put s t)) (focus s) := by
  simp only [wp, zoom, EStateM.run]
  cases m (focus s) <;> exact Iff.rfl

/-! ## What a call cannot undo

A preorder on states that every step of a program respects is respected by the
program, however it ends. -/

/-- Every outcome of `m` is related to the state `m` started from. -/
def Keeps (R : σ → σ → Prop) (m : EStateM ε σ α) : Prop :=
  ∀ s, wp m (fun _ => R s) (fun _ => R s) s

namespace Keeps
variable {R : σ → σ → Prop}

section
variable [Std.Refl R]

theorem pure (a : α) : Keeps R (Pure.pure a : EStateM ε σ α) := fun s => Std.Refl.refl s

theorem throw (e : ε) : Keeps R (MonadExcept.throw e : EStateM ε σ α) :=
  fun s => Std.Refl.refl s

theorem get : Keeps R (MonadState.get : EStateM ε σ σ) := fun s => Std.Refl.refl s

theorem require (c : Prop) [Decidable c] (e : ε) :
    Keeps R (Effect.require c e : EStateM ε σ Unit) := by
  intro s
  rw [wp_require]
  exact ⟨fun _ => Std.Refl.refl s, fun _ => Std.Refl.refl s⟩

theorem ofExcept (x : Except ε α) : Keeps R (MonadExcept.ofExcept x : EStateM ε σ α) := by
  intro s
  rw [wp_ofExcept]
  exact ⟨fun _ _ => Std.Refl.refl s, fun _ _ => Std.Refl.refl s⟩

end

theorem bind [IsTrans σ R] {m : EStateM ε σ β} {f : β → EStateM ε σ α} (hm : Keeps R m)
    (hf : ∀ b, Keeps R (f b)) : Keeps R (m >>= f) := by
  intro s
  rw [wp_bind]
  refine wp_mono (hm s) (fun b t ht => ?_) fun _ _ h => h
  exact wp_mono (hf b t) (fun _ _ h => IsTrans.trans _ _ _ ht h)
    fun _ _ h => IsTrans.trans _ _ _ ht h

theorem map {m : EStateM ε σ β} (f : β → α) (hm : Keeps R m) : Keeps R (f <$> m) := by
  intro s
  rw [wp_map]
  exact hm s

theorem tryCatch [IsTrans σ R] {m : EStateM ε σ α} {f : ε → EStateM ε σ α} (hm : Keeps R m)
    (hf : ∀ e, Keeps R (f e)) : Keeps R (MonadExcept.tryCatch m f) := by
  intro s
  rw [wp_tryCatch]
  refine wp_mono (hm s) (fun _ _ h => h) fun e t ht => ?_
  exact wp_mono (hf e t) (fun _ _ h => IsTrans.trans _ _ _ ht h)
    fun _ _ h => IsTrans.trans _ _ _ ht h

/-- A program on a part of the state, if the rest does not matter. -/
theorem zoom {S : τ → τ → Prop} {focus : σ → τ} {put : σ → τ → σ} {m : EStateM ε τ α}
    (hput : ∀ s t, S (focus s) t → R s (put s t)) (hm : Keeps S m) :
    Keeps R (Effect.zoom focus put m) := by
  intro s
  rw [wp_zoom]
  exact wp_mono (hm _) (fun _ _ h => hput s _ h) fun _ _ h => hput s _ h

theorem ite {c : Prop} [Decidable c] {m m' : EStateM ε σ α} (hm : Keeps R m)
    (hm' : Keeps R m') : Keeps R (if c then m else m') := by
  split
  · exact hm
  · exact hm'

theorem mapM [Std.Refl R] [IsTrans σ R] {f : β → EStateM ε σ α} (hf : ∀ b, Keeps R (f b))
    (bs : List β) : Keeps R (bs.mapM f) := by
  induction bs with
  | nil => exact Keeps.pure []
  | cons b bs ih =>
    rw [List.mapM_cons]
    exact (hf b).bind fun _ => ih.bind fun _ => Keeps.pure _

end Keeps

/-! ## What a call maintains

Where `I` holds before, `I` holds after, however the program ends; and if it returns,
what it returns is right whatever the state. -/

/-- `m` maintains `I`, and its result satisfies `Q`. -/
def Maintains (I : σ → Prop) (m : EStateM ε σ α) (Q : α → Prop) : Prop :=
  ∀ s, I s → wp m (fun a t => I t ∧ Q a) (fun _ => I) s

namespace Maintains
variable {I : σ → Prop} {Q : α → Prop} {R : β → Prop}

theorem mono {m : EStateM ε σ α} {Q' : α → Prop} (h : Maintains I m Q) (hQ : ∀ a, Q a → Q' a) :
    Maintains I m Q' :=
  fun s hs => wp_mono (h s hs) (fun a _ ha => ⟨ha.1, hQ a ha.2⟩) fun _ _ => id

theorem pure {a : α} (h : Q a) : Maintains I (Pure.pure a : EStateM ε σ α) Q :=
  fun _ hs => ⟨hs, h⟩

theorem throw (e : ε) : Maintains I (MonadExcept.throw e : EStateM ε σ α) Q := fun _ hs => hs

theorem bind {m : EStateM ε σ β} {f : β → EStateM ε σ α} (hm : Maintains I m R)
    (hf : ∀ b, R b → Maintains I (f b) Q) : Maintains I (m >>= f) Q := by
  intro s hs
  rw [wp_bind]
  exact wp_mono (hm s hs) (fun b t ht => hf b ht.2 t ht.1) fun _ _ => id

theorem map {m : EStateM ε σ β} {f : β → α} (hm : Maintains I m fun b => Q (f b)) :
    Maintains I (f <$> m) Q := by
  intro s hs
  rw [wp_map]
  exact hm s hs

theorem require (c : Prop) [Decidable c] (e : ε) :
    Maintains I (Effect.require c e : EStateM ε σ Unit) fun _ => c := by
  intro s hs
  rw [wp_require]
  exact ⟨fun hc => ⟨hs, hc⟩, fun _ => hs⟩

theorem ofExcept (x : Except ε α) :
    Maintains I (MonadExcept.ofExcept x : EStateM ε σ α) fun a => x = .ok a := by
  intro s hs
  rw [wp_ofExcept]
  exact ⟨fun _ ha => ⟨hs, ha⟩, fun _ _ => hs⟩

theorem ite {c : Prop} [Decidable c] {m m' : EStateM ε σ α} (hm : c → Maintains I m Q)
    (hm' : ¬ c → Maintains I m' Q) : Maintains I (if c then m else m') Q := by
  split
  · exact hm ‹_›
  · exact hm' ‹_›

theorem tryCatch {m : EStateM ε σ α} {f : ε → EStateM ε σ α} (hm : Maintains I m Q)
    (hf : ∀ e, Maintains I (f e) Q) : Maintains I (MonadExcept.tryCatch m f) Q := by
  intro s hs
  rw [wp_tryCatch]
  exact wp_mono (hm s hs) (fun _ _ => id) fun e t ht => hf e t ht

theorem mapM {f : β → EStateM ε σ α} {bs : List β} (hf : ∀ b ∈ bs, Maintains I (f b) Q) :
    Maintains I (bs.mapM f) fun as => ∀ a ∈ as, Q a := by
  induction bs with
  | nil => exact Maintains.pure (List.forall_mem_nil _)
  | cons b bs ih =>
    rw [List.mapM_cons]
    refine (hf b List.mem_cons_self).bind fun a ha => ?_
    refine (ih fun b hb => hf b (List.mem_cons_of_mem _ hb)).bind fun as has => ?_
    exact Maintains.pure (List.forall_mem_cons.mpr ⟨ha, has⟩)

/-- A program on a part of the state maintains what its part owes to the whole. -/
theorem zoom {J : τ → Prop} {focus : σ → τ} {put : σ → τ → σ} {m : EStateM ε τ α}
    (hfocus : ∀ s, I s → J (focus s)) (hput : ∀ s t, I s → J t → I (put s t))
    (hm : Maintains J m Q) : Maintains I (Effect.zoom focus put m) Q := by
  intro s hs
  rw [wp_zoom]
  exact wp_mono (hm _ (hfocus s hs)) (fun a t ht => ⟨hput s t hs ht.1, ht.2⟩)
    fun _ t ht => hput s t hs ht

end Maintains

/-! ## Two programs side by side

From related states the two programs end alike: both succeed with related results, or both
fail with the same error, and again the states are related. -/

variable {σ' β' α' : Type}

/-- The two outcomes are alike. -/
inductive SameOutcome (R : σ → σ' → Prop) (S : α → α' → Prop) :
    EStateM.Result ε σ α → EStateM.Result ε σ' α' → Prop where
  | ok {a : α} {a' : α'} {s : σ} {s' : σ'} : S a a' → R s s' →
      SameOutcome R S (.ok a s) (.ok a' s')
  | error {e : ε} {s : σ} {s' : σ'} : R s s' → SameOutcome R S (.error e s) (.error e s')

/-- From related states, the two programs have outcomes that are alike. -/
def Alike (R : σ → σ' → Prop) (S : α → α' → Prop) (m : EStateM ε σ α) (m' : EStateM ε σ' α') :
    Prop :=
  ∀ s s', R s s' → SameOutcome R S (m.run s) (m'.run s')

namespace Alike
variable {R : σ → σ' → Prop} {S : α → α' → Prop} {T : β → β' → Prop}

theorem pure {a : α} {a' : α'} (h : S a a') :
    Alike R S (Pure.pure a : EStateM ε σ α) (Pure.pure a' : EStateM ε σ' α') :=
  fun _ _ hs => .ok h hs

theorem throw (e : ε) :
    Alike R S (MonadExcept.throw e : EStateM ε σ α) (MonadExcept.throw e : EStateM ε σ' α') :=
  fun _ _ hs => .error hs

theorem ofExcept (x : Except ε α) :
    Alike R Eq (MonadExcept.ofExcept x : EStateM ε σ α) (MonadExcept.ofExcept x) := by
  cases x with
  | ok a => exact pure rfl
  | error e => exact throw e

theorem change {f : σ → σ} {f' : σ' → σ'} (h : ∀ s s', R s s' → R (f s) (f' s')) :
    Alike R Eq (modify f : EStateM ε σ PUnit) (modify f') :=
  fun s s' hs => .ok rfl (h s s' hs)

theorem bind {m : EStateM ε σ β} {m' : EStateM ε σ' β'} {f : β → EStateM ε σ α}
    {f' : β' → EStateM ε σ' α'} (hm : Alike R T m m')
    (hf : ∀ b b', T b b' → Alike R S (f b) (f' b')) : Alike R S (m >>= f) (m' >>= f') := by
  intro s s' hs
  have hfirst := hm s s' hs
  show SameOutcome R S (EStateM.bind m f s) (EStateM.bind m' f' s')
  rw [EStateM.bind, EStateM.bind]
  rw [EStateM.run, EStateM.run] at hfirst
  cases hrun : m s with
  | ok b t =>
    rw [hrun] at hfirst
    cases hrun' : m' s' with
    | ok b' t' =>
      rw [hrun'] at hfirst
      obtain ⟨hb, ht⟩ | _ := hfirst
      exact hf b b' hb t t' ht
    | error e' t' =>
      rw [hrun'] at hfirst
      cases hfirst
  | error e t =>
    rw [hrun] at hfirst
    cases hrun' : m' s' with
    | ok b' t' =>
      rw [hrun'] at hfirst
      cases hfirst
    | error e' t' =>
      rw [hrun'] at hfirst
      obtain _ | ht := hfirst
      exact .error ht

/-- The two programs take the same branch. -/
theorem ite {c : Prop} [Decidable c] {m₁ m₂ : EStateM ε σ α} {m₁' m₂' : EStateM ε σ' α'}
    (h₁ : Alike R S m₁ m₁') (h₂ : Alike R S m₂ m₂') :
    Alike R S (if c then m₁ else m₂) (if c then m₁' else m₂') := by
  split
  · exact h₁
  · exact h₂

theorem tryCatch {m : EStateM ε σ α} {m' : EStateM ε σ' α'} {f : ε → EStateM ε σ α}
    {f' : ε → EStateM ε σ' α'} (hm : Alike R S m m') (hf : ∀ e, Alike R S (f e) (f' e)) :
    Alike R S (MonadExcept.tryCatch m f) (MonadExcept.tryCatch m' f') := by
  intro s s' hs
  have hfirst := hm s s' hs
  show SameOutcome R S (EStateM.tryCatch m f s) (EStateM.tryCatch m' f' s')
  rw [EStateM.tryCatch, EStateM.tryCatch]
  rw [EStateM.run, EStateM.run] at hfirst
  cases hrun : m s with
  | ok a t =>
    rw [hrun] at hfirst
    cases hrun' : m' s' with
    | ok a' t' => rwa [hrun'] at hfirst
    | error e' t' =>
      rw [hrun'] at hfirst
      cases hfirst
  | error e t =>
    rw [hrun] at hfirst
    cases hrun' : m' s' with
    | ok a' t' =>
      rw [hrun'] at hfirst
      cases hfirst
    | error e' t' =>
      rw [hrun'] at hfirst
      obtain _ | ht := hfirst
      exact hf e t t' ht

end Alike

/-! ## Pure outcomes -/

theorem except_ok_bind (a : α) (k : α → Except ε β) : (Except.ok a >>= k) = k a := rfl

end Effect
