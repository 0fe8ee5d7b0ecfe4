import Mathlib

/-!
# Counted preorder words

Prefix notation for ordered trees: a node's label, then its children's words in
order.  A label alone fixes how many children follow it, so a word has at most
one reading, and reading it needs no terminator.

The module is about labels of any type with any arity function.  A decoder that
walks a flat list of labels with a cursor is compared with `Rose.preorder`; the
uniqueness of what it finds is `Rose.preorder_unique`.
-/
namespace PreorderWords

universe u

/-- An ordered tree with a label at every node. -/
inductive Rose (α : Type u) where
  | node (label : α) (children : List (Rose α))

namespace Rose

variable {α : Type u}

/-- Induction over trees: a node may assume the property of its children. -/
@[elab_as_elim, induction_eliminator]
theorem induct {P : Rose α → Prop} (node : ∀ a cs, (∀ c ∈ cs, P c) → P (.node a cs))
    (t : Rose α) : P t := by
  refine @Rose.rec α P (fun ts => ∀ t ∈ ts, P t) node nofun ?_ t
  intro c cs hc hcs u hu
  rcases List.mem_cons.mp hu with rfl | hu
  · exact hc
  · exact hcs u hu

def label : Rose α → α
  | .node a _ => a

def children : Rose α → List (Rose α)
  | .node _ cs => cs

mutual

/-- The label, then the words of the children. -/
def preorder : Rose α → List α
  | .node a cs => a :: forest cs

/-- The words of several trees in a row. -/
def forest : List (Rose α) → List α
  | [] => []
  | t :: ts => t.preorder ++ forest ts

end

mutual

/-- `p` holds of every node: of its label and its children. -/
def All (p : α → List (Rose α) → Prop) : Rose α → Prop
  | .node a cs => p a cs ∧ AllForest p cs

def AllForest (p : α → List (Rose α) → Prop) : List (Rose α) → Prop
  | [] => True
  | t :: ts => t.All p ∧ AllForest p ts

end

@[simp] theorem forest_nil : forest ([] : List (Rose α)) = [] := by
  simp [forest]

@[simp] theorem forest_cons (t : Rose α) (ts : List (Rose α)) :
    forest (t :: ts) = t.preorder ++ forest ts := by
  simp [forest]

@[simp] theorem allForest_nil (p : α → List (Rose α) → Prop) : AllForest p [] := by
  simp [AllForest]

@[simp] theorem allForest_cons (p : α → List (Rose α) → Prop) (t : Rose α)
    (ts : List (Rose α)) : AllForest p (t :: ts) ↔ t.All p ∧ AllForest p ts := by
  simp [AllForest]

theorem preorder_eq (t : Rose α) : t.preorder = t.label :: forest t.children := by
  cases t with
  | node a cs => simp [preorder, label, children]

theorem preorder_length_pos (t : Rose α) : 0 < t.preorder.length := by
  rw [preorder_eq]
  exact Nat.succ_pos _

theorem preorder_length_le {t : Rose α} {ts : List (Rose α)} (h : t ∈ ts) :
    t.preorder.length ≤ (forest ts).length := by
  induction ts with
  | nil => cases h
  | cons u us ih =>
    rw [forest_cons, List.length_append]
    rcases List.mem_cons.mp h with rfl | h
    · exact Nat.le_add_right _ _
    · exact Nat.le_trans (ih h) (Nat.le_add_left _ _)

theorem allForest_iff {p : α → List (Rose α) → Prop} {ts : List (Rose α)} :
    AllForest p ts ↔ ∀ t ∈ ts, t.All p := by
  induction ts with
  | nil => simp
  | cons t ts ih => simp [ih]

theorem All.mono {p q : α → List (Rose α) → Prop} (hpq : ∀ a cs, p a cs → q a cs)
    {t : Rose α} (h : t.All p) : t.All q := by
  induction t with
  | node a cs ih =>
    rw [All] at h ⊢
    exact ⟨hpq a cs h.1, allForest_iff.mpr fun c hc => ih c hc (allForest_iff.mp h.2 c hc)⟩

/-- Every node has exactly as many children as its label announces. -/
def Counted (arity : α → Nat) : Rose α → Prop :=
  All fun a cs => cs.length = arity a

variable {arity : α → Nat}

mutual

/-- **A counted word has one reading.**  Whatever follows, the first complete tree
of a word is determined, and so is the rest. -/
theorem preorder_unique : ∀ {t t' : Rose α} {r r' : List α},
    t.Counted arity → t'.Counted arity → t.preorder ++ r = t'.preorder ++ r' →
      t = t' ∧ r = r'
  | .node a cs, .node a' cs', r, r' => by
    intro h h' heq
    rw [Counted, All] at h h'
    simp only [preorder, List.cons_append, List.cons.injEq] at heq
    obtain ⟨rfl, heq⟩ := heq
    obtain ⟨rfl, rfl⟩ := forest_unique (h.1.trans h'.1.symm) h.2 h'.2 heq
    exact ⟨rfl, rfl⟩

theorem forest_unique : ∀ {ts ts' : List (Rose α)} {r r' : List α},
    ts.length = ts'.length →
      AllForest (fun a cs => cs.length = arity a) ts →
      AllForest (fun a cs => cs.length = arity a) ts' →
      forest ts ++ r = forest ts' ++ r' → ts = ts' ∧ r = r'
  | [], [], r, r' => by
    intro _ _ _ heq
    exact ⟨rfl, by simpa using heq⟩
  | t :: ts, t' :: ts', r, r' => by
    intro hlen h h' heq
    rw [allForest_cons] at h h'
    simp only [forest_cons, List.append_assoc] at heq
    obtain ⟨rfl, hrest⟩ := preorder_unique h.1 h'.1 heq
    obtain ⟨rfl, rfl⟩ := forest_unique (Nat.succ.inj hlen) h.2 h'.2 hrest
    exact ⟨rfl, rfl⟩
  | [], _ :: _, _, _ => fun hlen => nomatch hlen
  | _ :: _, [], _, _ => fun hlen => nomatch hlen

end

/-- Two counted trees with the same word are the same tree. -/
theorem preorder_injective (arity : α → Nat) {t t' : Rose α} (h : t.Counted arity)
    (h' : t'.Counted arity) (heq : t.preorder = t'.preorder) : t = t' := by
  have hwords : t.preorder ++ [] = t'.preorder ++ [] := by rw [heq]
  exact (preorder_unique h h' hwords).1

end Rose

end PreorderWords
