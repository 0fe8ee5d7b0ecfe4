import PureSimdjson.Runs

/-!
# Generational slot tables

A table hands out references as a slot index together with the slot's
*generation*.  Freeing a slot moves it to the next generation, so a reference
taken before the free no longer matches.  A slot is filled with the generation it
was left at, and a slot that never existed starts at a fixed generation.

The library speaks of any entry type `α` that carries its generation
(`gen : α → γ`), any successor `next` and any start.  `Step` lists the only ways a
table may change, labelled with the slot a free empties; from it follow the two
facts every user of such a table wants: what holds of the start and is kept by
`next` holds of every generation (`Step.generations`), and a slot's generation is
the `next`-iterate of what it was, once for each free (`generationAt_of_run`).
-/
namespace SlotTable
open Runs

variable {γ α : Type}

/-- A slot of the table. -/
inductive Slot (γ α : Type) where
  | vacant (generation : γ)
  | occupied (entry : α)
  deriving DecidableEq, Repr

variable (gen : α → γ)

/-- The generation a slot is at, free or not. -/
def Slot.generation : Slot γ α → γ
  | .vacant g => g
  | .occupied e => gen e

/-- The entry a reference names: the slot is occupied at the very generation. -/
def live [DecidableEq γ] (t : List (Slot γ α)) (index : Nat) (g : γ) : Option α :=
  match t[index]? with
  | some (.occupied e) => if gen e = g then some e else none
  | _ => none

/-- The lowest free slot and the generation it was left at. -/
def firstVacant : List (Slot γ α) → Option (Nat × γ)
  | [] => none
  | .vacant g :: _ => some (0, g)
  | .occupied _ :: t => (firstVacant t).map fun p => (p.1 + 1, p.2)

/-- The generation slot `index` is at, if the table has it. -/
def generationAt (t : List (Slot γ α)) (index : Nat) : Option γ :=
  (t[index]?).map (Slot.generation gen)

theorem firstVacant_some : ∀ {t : List (Slot γ α)} {i : Nat} {g : γ},
    firstVacant t = some (i, g) → t[i]? = some (.vacant g)
  | .vacant g :: t, i, g', h => by
      simp only [firstVacant, Option.some.injEq, Prod.mk.injEq] at h
      obtain ⟨rfl, rfl⟩ := h
      rfl
  | .occupied e :: t, i, g', h => by
      simp only [firstVacant, Option.map_eq_some_iff, Prod.mk.injEq] at h
      obtain ⟨⟨j, g⟩, hj, rfl, rfl⟩ := h
      simpa using firstVacant_some hj

/-! ## What a reference names -/

section Live
variable {gen} [DecidableEq γ] {t : List (Slot γ α)} {i j : Nat} {g : γ} {e : α}

theorem live_eq_some : live gen t i g = some e ↔ t[i]? = some (.occupied e) ∧ gen e = g := by
  unfold live
  split
  · rename_i e' h'
    constructor
    · intro h
      split at h
      · rename_i hg
        cases h
        exact ⟨h', hg⟩
      · cases h
    · rintro ⟨h, hg⟩
      rw [h'] at h
      cases h
      exact if_pos hg
  · rename_i hn
    exact ⟨nofun, fun h => absurd h.1 (hn e)⟩

/-- Writing another slot changes nothing a reference to this one names. -/
theorem live_set_ne (h : i ≠ j) (s : Slot γ α) : live gen (t.set i s) j g = live gen t j g := by
  unfold live
  rw [List.getElem?_set_ne h]

theorem live_set_occupied (hi : i < t.length) (e : α) :
    live gen (t.set i (.occupied e)) i g = if gen e = g then some e else none := by
  unfold live
  rw [List.getElem?_set_self hi]

theorem live_set_vacant (g' : γ) : live gen (t.set i (.vacant g')) i g = none := by
  unfold live
  by_cases hi : i < t.length
  · rw [List.getElem?_set_self hi]
  · rw [List.getElem?_eq_none (by rw [List.length_set]; omega)]

theorem live_append_left (hi : i < t.length) (u : List (Slot γ α)) :
    live gen (t ++ u) i g = live gen t i g := by
  unfold live
  rw [List.getElem?_append_left hi]

theorem live_append_self (e : α) :
    live gen (t ++ [.occupied e]) t.length g = if gen e = g then some e else none := by
  unfold live
  simp

/-- A reference to a free slot, or past the end, names nothing. -/
theorem live_eq_none_of_vacant {g' : γ} (h : t[i]? = some (.vacant g')) :
    live gen t i g = none := by
  unfold live
  rw [h]

theorem live_eq_none_of_le (h : t.length ≤ i) : live gen t i g = none := by
  unfold live
  rw [List.getElem?_eq_none h]

end Live

/-! ## The ways a table changes -/

variable (next : γ → γ) (start : γ)

/-- One change of a table.  The label is the slot the change frees, if any. -/
inductive Step : List (Slot γ α) → Option Nat → List (Slot γ α) → Prop where
  | keep (t : List (Slot γ α)) : Step t none t
  | update {t : List (Slot γ α)} {i : Nat} {e e' : α} :
      t[i]? = some (.occupied e) → gen e' = gen e → Step t none (t.set i (.occupied e'))
  | fill {t : List (Slot γ α)} {i : Nat} {e : α} :
      t[i]? = some (.vacant (gen e)) → Step t none (t.set i (.occupied e))
  | push {t : List (Slot γ α)} {e : α} :
      gen e = start → Step t none (t ++ [.occupied e])
  | free {t : List (Slot γ α)} {i : Nat} {e : α} :
      t[i]? = some (.occupied e) → Step t (some i) (t.set i (.vacant (next (gen e))))

variable {gen next start}

/-- The entry `e` was put into the free slot `index`, or into a new one. -/
def Filled (gen : α → γ) (start : γ) (t : List (Slot γ α)) (index : Nat) (e : α)
    (t' : List (Slot γ α)) : Prop :=
  t[index]? = some (.vacant (gen e)) ∧ t' = t.set index (.occupied e) ∨
    index = t.length ∧ gen e = start ∧ t' = t ++ [.occupied e]

section Filled
variable {t t' : List (Slot γ α)} {i j : Nat} {e : α}

theorem Filled.step (h : Filled gen start t i e t') : Step gen next start t none t' := by
  rcases h with ⟨hi, rfl⟩ | ⟨-, he, rfl⟩
  · exact .fill hi
  · exact .push he

/-- Before, nothing was in the slot. -/
theorem Filled.live_before [DecidableEq γ] (h : Filled gen start t i e t') (g : γ) :
    live gen t i g = none := by
  rcases h with ⟨hi, -⟩ | ⟨rfl, -, -⟩
  · exact live_eq_none_of_vacant hi
  · exact live_eq_none_of_le (Nat.le_refl _)

/-- Afterwards `e` is in the slot, and every other slot is as it was. -/
theorem Filled.live [DecidableEq γ] (h : Filled gen start t i e t') (j : Nat) (g : γ) :
    live gen t' j g =
      if i = j then if gen e = g then some e else none else SlotTable.live gen t j g := by
  by_cases hij : i = j
  · subst hij
    rw [if_pos rfl]
    rcases h with ⟨hi, rfl⟩ | ⟨rfl, -, rfl⟩
    · exact live_set_occupied (List.getElem?_eq_some_iff.mp hi).1 e
    · exact live_append_self e
  · rw [if_neg hij]
    rcases h with ⟨-, rfl⟩ | ⟨rfl, -, rfl⟩
    · exact live_set_ne hij _
    · rcases Nat.lt_or_gt_of_ne hij with hlt | hlt
      · rw [live_eq_none_of_le (Nat.le_of_lt hlt), live_eq_none_of_le]
        rw [List.length_append, List.length_singleton]
        exact hlt
      · exact live_append_left hlt _

/-- What is there afterwards is `e`, or was there before. -/
theorem Filled.occupied [DecidableEq γ] (h : Filled gen start t i e t') {e' : α}
    (hj : t'[j]? = some (.occupied e')) : j = i ∧ e' = e ∨ j ≠ i ∧ t[j]? = some (.occupied e') := by
  have hlive : SlotTable.live gen t' j (gen e') = some e' := live_eq_some.mpr ⟨hj, rfl⟩
  rw [h.live] at hlive
  split at hlive
  · rename_i hij
    rw [Option.ite_none_right_eq_some] at hlive
    exact Or.inl ⟨hij.symm, (Option.some.inj hlive.2).symm⟩
  · rename_i hij
    exact Or.inr ⟨Ne.symm hij, (live_eq_some.mp hlive).1⟩

/-- The same of a table one of whose slots is overwritten. -/
theorem set_occupied {a : Slot γ α} (hi : t[i]? = some a) {e' : α}
    (hj : (t.set i (.occupied e))[j]? = some (.occupied e')) :
    j = i ∧ e' = e ∨ j ≠ i ∧ t[j]? = some (.occupied e') := by
  by_cases hij : j = i
  · subst hij
    rw [List.getElem?_set_self (List.getElem?_eq_some_iff.mp hi).1] at hj
    cases hj
    exact Or.inl ⟨rfl, rfl⟩
  · rw [List.getElem?_set_ne (Ne.symm hij)] at hj
    exact Or.inr ⟨hij, hj⟩

/-- What is there after a slot was cleared was there before, elsewhere. -/
theorem set_vacant {a : Slot γ α} (hi : t[i]? = some a) {g : γ} {e' : α}
    (hj : (t.set i (.vacant g))[j]? = some (.occupied e')) :
    j ≠ i ∧ t[j]? = some (.occupied e') := by
  by_cases hij : j = i
  · subst hij
    rw [List.getElem?_set_self (List.getElem?_eq_some_iff.mp hi).1] at hj
    cases hj
  · rw [List.getElem?_set_ne (Ne.symm hij)] at hj
    exact ⟨hij, hj⟩

end Filled

/-- What holds of the start and is kept by `next` holds of every generation. -/
theorem Step.generations {G : γ → Prop} (hstart : G start) (hnext : ∀ g, G g → G (next g))
    {t t' : List (Slot γ α)} {l : Option Nat} (h : Step gen next start t l t')
    (hG : ∀ s ∈ t, G (s.generation gen)) : ∀ s ∈ t', G (s.generation gen) := by
  have hat {i : Nat} {s : Slot γ α} (hi : t[i]? = some s) : G (s.generation gen) :=
    hG s (List.mem_of_getElem? hi)
  intro s hs
  cases h with
  | keep => exact hG s hs
  | update hi he =>
    rcases List.mem_or_eq_of_mem_set hs with hs | rfl
    · exact hG s hs
    · exact (congrArg G he).mpr (hat hi)
  | @fill i e hi =>
    rcases List.mem_or_eq_of_mem_set hs with hs | rfl
    · exact hG s hs
    · exact hat (s := .vacant (gen e)) hi
  | push he =>
    rcases List.mem_append.mp hs with hs | hs
    · exact hG s hs
    · rw [List.mem_singleton.mp hs]
      exact (congrArg G he).mpr hstart
  | free hi =>
    rcases List.mem_or_eq_of_mem_set hs with hs | rfl
    · exact hG s hs
    · exact hnext _ (hat hi)

/-- **One change moves a slot's generation only by freeing it.** -/
theorem Step.generationAt {t t' : List (Slot γ α)} {l : Option Nat}
    (h : Step gen next start t l t') {i : Nat} {g : γ} (hi : generationAt gen t i = some g) :
    generationAt gen t' i = some (if l = some i then next g else g) := by
  have hlt : i < t.length := by
    by_contra hn
    simp [SlotTable.generationAt, List.getElem?_eq_none (Nat.not_lt.mp hn)] at hi
  have other {k : Nat} {s : Slot γ α} (hk : k ≠ i) :
      SlotTable.generationAt gen (t.set k s) i = some g := by
    rw [SlotTable.generationAt, List.getElem?_set_ne hk]
    exact hi
  have same {s : Slot γ α} (g' : γ) (hs : s.generation gen = g') :
      SlotTable.generationAt gen (t.set i s) i = some g' := by
    rw [SlotTable.generationAt, List.getElem?_set_self hlt, Option.map_some, hs]
  have here {s : Slot γ α} (hs : t[i]? = some s) : s.generation gen = g := by
    rw [SlotTable.generationAt, hs] at hi
    exact Option.some.inj hi
  cases h with
  | keep => simpa using hi
  | @update k e e' hk he =>
    rw [if_neg (by simp)]
    by_cases hki : k = i
    · subst hki
      exact same g (he.trans (here hk))
    · exact other hki
  | @fill k e hk =>
    rw [if_neg (by simp)]
    by_cases hki : k = i
    · subst hki
      exact same g (here (s := .vacant (gen e)) hk)
    · exact other hki
  | push he =>
    rw [if_neg (by simp), SlotTable.generationAt, List.getElem?_append_left hlt]
    exact hi
  | @free k e hk =>
    by_cases hki : k = i
    · subst hki
      rw [if_pos rfl]
      exact same (next g) (congrArg next (here hk))
    · rw [if_neg (by simpa using hki)]
      exact other hki

/-- **A slot's generation counts its frees.**  Over any run of changes the
generation of slot `i` is the `next`-iterate of what it was, once for each label
that frees `i`. -/
theorem generationAt_of_run {t t' : List (Slot γ α)} {ls : List (Option Nat)}
    (hr : Run (Step gen next start) t ls t') {i : Nat} {g : γ}
    (hi : generationAt gen t i = some g) :
    generationAt gen t' i = some (next^[ls.count (some i)] g) := by
  induction hr generalizing g with
  | nil t => simpa using hi
  | @cons t t₁ t' l ls hl _ ih =>
    rw [ih (hl.generationAt hi), List.count_cons]
    by_cases hli : l = some i
    · simp [hli]
    · simp [hli]

end SlotTable
