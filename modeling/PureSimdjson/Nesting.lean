import PureSimdjson.Values

/-!
# Nesting levels and widths of a document

Two walks of the bridge bound how deep they go, and one of them also bounds how
many children it counts.  This module states in terms of the document alone what
such walks meet: a container so many levels down, a value so many levels down,
and a value that is reached before any child counter is exhausted.
-/
namespace PureSimdjson

namespace Json

/-- The values directly under a value. -/
def children : Json → List Json
  | .array items => items
  | .object fields => fields.map Prod.snd
  | _ => []

/-- Is the value an array or an object? -/
def isContainer : Json → Bool
  | .array _ => true
  | .object _ => true
  | _ => false

/-- `std::numeric_limits<uint32_t>::max()`: the most children a container may have. -/
def maxChildren : Nat := 2 ^ 32 - 1

/-- No container of the document has more than `maxChildren` children. -/
inductive Narrow : Json → Prop where
  | intro {v : Json} (length : v.children.length ≤ maxChildren)
      (children : ∀ c ∈ v.children, Narrow c) : Narrow v

/-- Some container stands `n` levels below the root. -/
inductive NestsTo : Nat → Json → Prop where
  | here {v : Json} (h : v.isContainer) : NestsTo 0 v
  | child {n : Nat} {v c : Json} (mem : c ∈ v.children) (h : NestsTo n c) : NestsTo (n + 1) v

/-- **Some value stands `n` levels below the root, and in document order no
container gets more than `maxChildren` children before it.** -/
inductive Reaches : Nat → Json → Prop where
  | here (v : Json) : Reaches 0 v
  | child {n : Nat} {v c : Json} {before after : List Json}
      (split : v.children = before ++ c :: after) (length : before.length ≤ maxChildren)
      (narrow : ∀ u ∈ before, u.Narrow) (h : Reaches n c) : Reaches (n + 1) v

theorem narrow_iff {v : Json} :
    v.Narrow ↔ v.children.length ≤ maxChildren ∧ ∀ c ∈ v.children, c.Narrow :=
  ⟨fun ⟨length, children⟩ => ⟨length, children⟩, fun h => ⟨h.1, h.2⟩⟩

theorem nestsTo_zero {v : Json} : v.NestsTo 0 ↔ v.isContainer :=
  ⟨fun h => by cases h; assumption, .here⟩

theorem nestsTo_succ {n : Nat} {v : Json} :
    v.NestsTo (n + 1) ↔ ∃ c ∈ v.children, c.NestsTo n :=
  ⟨fun h => by cases h with | child mem h => exact ⟨_, mem, h⟩, fun ⟨_, mem, h⟩ => .child mem h⟩

/-! ## The same for a run of children -/

/-- What `Reaches` says of the children still to come, when `count` are behind. -/
def ReachesFrom (count n : Nat) (cs : List Json) : Prop :=
  ∃ before c after, cs = before ++ c :: after ∧ count + before.length ≤ maxChildren ∧
    (∀ u ∈ before, u.Narrow) ∧ c.Reaches n

theorem reaches_succ {n : Nat} {v : Json} : v.Reaches (n + 1) ↔ ReachesFrom 0 n v.children := by
  constructor
  · intro h
    cases h with
    | child split length narrow h =>
      exact ⟨_, _, _, split, by simpa using length, narrow, h⟩
  · rintro ⟨before, c, after, split, length, narrow, h⟩
    exact .child split (by simpa using length) narrow h

theorem not_reachesFrom_nil (count n : Nat) : ¬ ReachesFrom count n [] := by
  rintro ⟨before, c, after, split, _⟩
  simp at split

/-- The next child is the one reached, or it is narrow and a later one is. -/
theorem reachesFrom_cons {count n : Nat} {c : Json} {cs : List Json}
    (hcount : count ≤ maxChildren) :
    ReachesFrom count n (c :: cs) ↔
      c.Reaches n ∨ c.Narrow ∧ ReachesFrom (count + 1) n cs := by
  constructor
  · rintro ⟨before, d, after, split, length, narrow, h⟩
    cases before with
    | nil =>
      obtain ⟨rfl, rfl⟩ := List.cons.inj split
      exact Or.inl h
    | cons u before =>
      obtain ⟨rfl, rfl⟩ := List.cons.inj split
      refine Or.inr ⟨narrow c List.mem_cons_self, before, d, after, rfl, ?_, ?_, h⟩
      · rw [List.length_cons] at length
        omega
      · exact fun u hu => narrow u (List.mem_cons_of_mem c hu)
  · rintro (h | ⟨hnarrow, before, d, after, rfl, length, narrow, h⟩)
    · exact ⟨[], c, cs, rfl, hcount, nofun, h⟩
    · refine ⟨c :: before, d, after, rfl, ?_, ?_, h⟩
      · rw [List.length_cons]
        omega
      · intro u hu
        rcases List.mem_cons.mp hu with rfl | hu
        · exact hnarrow
        · exact narrow u hu

theorem not_reachesFrom_of_full {count n : Nat} {cs : List Json} (h : maxChildren < count) :
    ¬ ReachesFrom count n cs := by
  rintro ⟨before, c, after, _, length, _⟩
  omega

/-- A value reached `n + 1` levels down is below a container `n` levels down. -/
theorem Reaches.nestsTo {n : Nat} {v : Json} (h : v.Reaches (n + 1)) : v.NestsTo n := by
  induction n generalizing v with
  | zero =>
    obtain ⟨before, c, after, split, _⟩ := reaches_succ.mp h
    rw [nestsTo_zero]
    cases v <;> simp [children, isContainer] at split ⊢
  | succ n ih =>
    obtain ⟨before, c, after, split, _, _, h⟩ := reaches_succ.mp h
    exact .child (by rw [split]; simp) (ih h)

end Json

end PureSimdjson
