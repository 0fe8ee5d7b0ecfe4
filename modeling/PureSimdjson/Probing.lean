import Mathlib

/-!
# Probing for something free

An allocator that steps from place to place until it finds one that is not taken, and
gives up after a fixed number of probes.  Where the probes go through a set of places
and through each of them once, giving up means that the set is full.
-/
namespace Probing

variable {α : Type}

/-- The first place from `a` on that is not taken, among the first `attempts`. -/
def search (taken : α → Prop) [DecidablePred taken] (next : α → α) :
    (attempts : Nat) → (a : α) → Option α
  | 0, _ => none
  | attempts + 1, a => if taken a then search taken next attempts (next a) else some a

section
variable {taken : α → Prop} [DecidablePred taken] {next : α → α}

/-- **What is found is free**, and all that was probed before it is taken. -/
theorem search_eq_some_iff {attempts : Nat} {a b : α} :
    search taken next attempts a = some b ↔
      ∃ k < attempts, b = next^[k] a ∧ ¬ taken b ∧ ∀ j < k, taken (next^[j] a) := by
  induction attempts generalizing a with
  | zero => simp [search]
  | succ attempts ih =>
    rw [search]
    split
    · rename_i htaken
      rw [ih]
      constructor
      · rintro ⟨k, hk, hb, hfree, hbefore⟩
        refine ⟨k + 1, by omega, hb, hfree, fun j hj => ?_⟩
        rcases j with _ | j
        · exact htaken
        · exact hbefore j (by omega)
      · rintro ⟨k, hk, hb, hfree, hbefore⟩
        rcases k with _ | k
        · rw [hb] at hfree
          exact absurd htaken hfree
        · exact ⟨k, by omega, hb, hfree, fun j hj => hbefore (j + 1) (by omega)⟩
    · rename_i hfree
      constructor
      · intro h
        obtain rfl := Option.some.inj h
        exact ⟨0, by omega, rfl, hfree, fun j hj => by omega⟩
      · rintro ⟨k, -, hb, -, hbefore⟩
        rcases k with _ | k
        · rw [hb]
          rfl
        · exact absurd (hbefore 0 (by omega)) hfree

theorem search_eq_none_iff {attempts : Nat} {a : α} :
    search taken next attempts a = none ↔ ∀ k < attempts, taken (next^[k] a) := by
  induction attempts generalizing a with
  | zero => simp [search]
  | succ attempts ih =>
    rw [search]
    split
    · rename_i htaken
      rw [ih]
      constructor
      · intro h k hk
        rcases k with _ | k
        · exact htaken
        · exact h k (by omega)
      · intro h k hk
        exact h (k + 1) (by omega)
    · rename_i hfree
      constructor
      · intro h
        cases h
      · intro h
        exact absurd (h 0 (by omega)) hfree

end

/-! ## Going through a set -/

/-- The first `n` places from `a` on are those of `S`, each once. -/
def Tours (next : α → α) (n : Nat) (a : α) (S : Set α) : Prop :=
  Set.BijOn (fun k => next^[k] a) (Set.Iio n) S

namespace Tours
variable {next : α → α} {n : Nat} {a : α} {S : Set α} (h : Tours next n a S)
include h

theorem mem {k : Nat} (hk : k < n) : next^[k] a ∈ S := h.mapsTo hk

theorem exists_eq {b : α} (hb : b ∈ S) : ∃ k < n, next^[k] a = b := h.surjOn hb

/-- **A search that goes through the set fails exactly when the set is full.** -/
theorem search_eq_none_iff {taken : α → Prop} [DecidablePred taken] :
    search taken next n a = none ↔ ∀ b ∈ S, taken b := by
  rw [Probing.search_eq_none_iff]
  constructor
  · intro hall b hb
    obtain ⟨k, hk, rfl⟩ := h.exists_eq hb
    exact hall k hk
  · intro hfull k hk
    exact hfull _ (h.mem hk)

/-- The places of the tour as a finite set. -/
theorem card_image [DecidableEq α] :
    ((Finset.range n).image fun k => next^[k] a).card = n := by
  have hinj : Set.InjOn (fun k => next^[k] a) (Finset.range n) := by
    rw [Finset.coe_range]
    exact h.injOn
  rw [Finset.card_image_of_injOn hinj, Finset.card_range]

/-- Where all of the set is taken, as many places are taken as the search has probes. -/
theorem le_card [DecidableEq α] {used : Finset α} (hfull : ∀ b ∈ S, b ∈ used) :
    n ≤ used.card := by
  have hsub : (Finset.range n).image (fun k => next^[k] a) ⊆ used := by
    intro b hb
    obtain ⟨k, hk, rfl⟩ := Finset.mem_image.mp hb
    exact hfull _ (h.mem (Finset.mem_range.mp hk))
  have := Finset.card_le_card hsub
  rwa [h.card_image] at this

/-- **Counting tells that the set is full**, if only places of the set are taken. -/
theorem full_of_le_card [DecidableEq α] {used : Finset α} (hused : ∀ b ∈ used, b ∈ S)
    (hle : n ≤ used.card) {b : α} (hb : b ∈ S) : b ∈ used := by
  have hsub : used ⊆ (Finset.range n).image fun k => next^[k] a := by
    intro c hc
    obtain ⟨k, hk, hkc⟩ := h.exists_eq (hused c hc)
    exact Finset.mem_image.mpr ⟨k, Finset.mem_range.mpr hk, hkc⟩
  have hcard := h.card_image
  rw [Finset.eq_of_subset_of_card_le hsub (by omega)]
  obtain ⟨k, hk, rfl⟩ := h.exists_eq hb
  exact Finset.mem_image_of_mem _ (Finset.mem_range.mpr hk)

end Tours

end Probing
