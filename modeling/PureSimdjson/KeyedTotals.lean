import Mathlib

/-!
# Totals over keyed records

A table keeps one record for each key, and a counter beside it is meant to be a
total over the records.  These are the totals: what inserting a new key and erasing
an old one do to them, and what bounds the total size of blocks that do not overlap.
-/
namespace KeyedTotals

universe u v

section
variable {α : Type u} {β : Type v}

/-- The total of `f` over the records of a table. -/
def total (f : α → β → ℕ) (m : AList fun _ : α => β) : ℕ :=
  (m.entries.map fun e => f e.1 e.2).sum

@[simp] theorem total_empty (f : α → β → ℕ) : total f (∅ : AList fun _ : α => β) = 0 := rfl

variable [DecidableEq α] {f g : α → β → ℕ} {m : AList fun _ : α => β} {k : α} {v : β}

/-- A new key adds its own share. -/
theorem total_insert (hk : k ∉ m) : total f (m.insert k v) = f k v + total f m := by
  unfold total
  rw [AList.entries_insert_of_notMem hk, List.map_cons, List.sum_cons]

theorem perm_insert_erase (h : m.lookup k = some v) :
    m.entries.Perm ((m.erase k).insert k v).entries := by
  refine List.lookup_ext m.nodupKeys ((m.erase k).insert k v).nodupKeys fun x y => ?_
  change y ∈ m.lookup x ↔ y ∈ ((m.erase k).insert k v).lookup x
  by_cases hx : x = k
  · subst hx
    rw [AList.lookup_insert, h]
  · rw [AList.lookup_insert_ne hx, AList.lookup_erase_ne hx]

/-- An erased key takes its share away. -/
theorem total_erase (h : m.lookup k = some v) : f k v + total f (m.erase k) = total f m := by
  have hnot : k ∉ m.erase k := by
    rw [AList.mem_erase]
    exact fun hk => hk.1 rfl
  rw [← total_insert hnot]
  exact (((perm_insert_erase h).map fun e => f e.1 e.2).sum_eq).symm

theorem le_total (h : m.lookup k = some v) : f k v ≤ total f m := by
  rw [← total_erase h]
  exact Nat.le_add_right _ _

theorem mem_entries_iff {e : Sigma fun _ : α => β} :
    e ∈ m.entries ↔ m.lookup e.1 = some e.2 :=
  (AList.mem_lookup_iff (s := m)).symm

theorem total_mono (h : ∀ k v, m.lookup k = some v → f k v ≤ g k v) : total f m ≤ total g m := by
  unfold total
  refine List.sum_le_sum fun e he => ?_
  exact h e.1 e.2 (mem_entries_iff.mp he)

theorem total_congr (h : ∀ k v, m.lookup k = some v → f k v = g k v) :
    total f m = total g m :=
  Nat.le_antisymm (total_mono fun k v hv => (h k v hv).le) (total_mono fun k v hv => (h k v hv).ge)

theorem total_eq_zero_iff : total f m = 0 ↔ ∀ k v, m.lookup k = some v → f k v = 0 := by
  refine ⟨fun h k v hv => ?_, fun h => ?_⟩
  · have := le_total (f := f) hv
    omega
  · rw [total_congr (g := fun _ _ => 0) h, total]
    simp

end

/-! ## Blocks that do not overlap -/

/-- Two ranges of addresses share none. -/
def Apart (p n q l : ℕ) : Prop :=
  p + n ≤ q ∨ q + l ≤ p

theorem Apart.symm {p n q l : ℕ} (h : Apart p n q l) : Apart q l p n :=
  Or.symm h

instance (p n q l : ℕ) : Decidable (Apart p n q l) :=
  inferInstanceAs (Decidable (_ ∨ _))

section
variable {β : Type v} (size : β → ℕ)

/-- The addresses of the blocks of a list. -/
def covered : List (Sigma fun _ : ℕ => β) → Finset ℕ
  | [] => ∅
  | b :: bs => Finset.Ico b.1 (b.1 + size b.2) ∪ covered bs

theorem mem_covered {bs : List (Sigma fun _ : ℕ => β)} {x : ℕ} :
    x ∈ covered size bs ↔ ∃ b ∈ bs, b.1 ≤ x ∧ x < b.1 + size b.2 := by
  induction bs with
  | nil => simp [covered]
  | cons b bs ih => simp [covered, ih]

theorem card_covered {bs : List (Sigma fun _ : ℕ => β)}
    (h : bs.Pairwise fun b c => Apart b.1 (size b.2) c.1 (size c.2)) :
    (covered size bs).card = (bs.map fun b => size b.2).sum := by
  induction bs with
  | nil => rfl
  | cons b bs ih =>
    obtain ⟨hb, hbs⟩ := List.pairwise_cons.mp h
    have hdisj : Disjoint (Finset.Ico b.1 (b.1 + size b.2)) (covered size bs) := by
      rw [Finset.disjoint_left]
      intro x hx hx'
      obtain ⟨c, hc, hle, hlt⟩ := (mem_covered size).mp hx'
      rw [Finset.mem_Ico] at hx
      rcases hb c hc with h | h <;> omega
    rw [covered, Finset.card_union_of_disjoint hdisj, ih hbs, Nat.card_Ico, List.map_cons,
      List.sum_cons]
    omega

/-- **Blocks that do not overlap and lie between `lo` and `hi` have no more than
`hi - lo` addresses in all.** -/
theorem total_size_le {m : AList fun _ : ℕ => β} (lo hi : ℕ)
    (hin : ∀ p v, m.lookup p = some v → lo ≤ p ∧ p + size v ≤ hi)
    (hapart : ∀ p v q w, m.lookup p = some v → m.lookup q = some w → p ≠ q →
      Apart p (size v) q (size w)) :
    total (fun _ v => size v) m ≤ hi - lo := by
  have hpairwise :
      m.entries.Pairwise fun b c => Apart b.1 (size b.2) c.1 (size c.2) := by
    have hkeys : m.entries.Pairwise fun b c => b.1 ≠ c.1 := m.nodupKeys.pairwise_ne
    refine hkeys.imp_of_mem fun hb hc hne => ?_
    exact hapart _ _ _ _ (mem_entries_iff.mp hb) (mem_entries_iff.mp hc) hne
  have hsub : covered size m.entries ⊆ Finset.Ico lo hi := by
    intro x hx
    obtain ⟨b, hb, hle, hlt⟩ := (mem_covered size).mp hx
    have hrange := hin b.1 b.2 (mem_entries_iff.mp hb)
    rw [Finset.mem_Ico]
    omega
  rw [total, ← card_covered size hpairwise, ← Nat.card_Ico]
  exact Finset.card_le_card hsub

end

end KeyedTotals
