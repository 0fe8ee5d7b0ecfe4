import PureSimdjson.Values

/-!
# Where things stand on the tape

A parsed document lies on a tape of words, in document order, its root at index 1.  An
atom, a string and a big integer take one word, another number two, and a container
its children between an opening and a closing word; an object's child is a key, which
is a string, and then a value.

`Json.elements` lists what starts where.  The facts about it are what reading a tape
by index rests on: an element's span holds everything under it, a container's children
follow each other without a gap, and an index starts at most one element.
-/
namespace PureSimdjson

mutual

/-- How many words a value takes. -/
def Json.width : Json → Nat
  | .null => 1
  | .bool _ => 1
  | .int64 _ => 2
  | .uint64 _ => 2
  | .double _ => 2
  | .string _ => 1
  | .bigint _ => 1
  | .array items => 2 + Json.itemsWidth items
  | .object fields => 2 + Json.fieldsWidth fields

def Json.itemsWidth : List Json → Nat
  | [] => 0
  | v :: vs => v.width + Json.itemsWidth vs

def Json.fieldsWidth : List (Bytes × Json) → Nat
  | [] => 0
  | (_, v) :: fields => 1 + v.width + Json.fieldsWidth fields

end

mutual

/-- Everything that starts on the tape of a value that starts at `i`: the value, and
for a container its children, keys, and what is under them. -/
def Json.elements (i : Nat) : Json → List (Nat × Json)
  | .null => [(i, .null)]
  | .bool b => [(i, .bool b)]
  | .int64 n => [(i, .int64 n)]
  | .uint64 n => [(i, .uint64 n)]
  | .double bits => [(i, .double bits)]
  | .string bytes => [(i, .string bytes)]
  | .bigint digits => [(i, .bigint digits)]
  | .array items => (i, .array items) :: Json.itemsElements (i + 1) items
  | .object fields => (i, .object fields) :: Json.fieldsElements (i + 1) fields

def Json.itemsElements (i : Nat) : List Json → List (Nat × Json)
  | [] => []
  | v :: vs => v.elements i ++ Json.itemsElements (i + v.width) vs

def Json.fieldsElements (i : Nat) : List (Bytes × Json) → List (Nat × Json)
  | [] => []
  | (key, v) :: fields =>
    (i, .string key) :: v.elements (i + 1) ++ Json.fieldsElements (i + 1 + v.width) fields

end

namespace Json

theorem width_pos (v : Json) : 0 < v.width := by
  cases v <;> simp only [width] <;> omega

/-! ## Children follow each other -/

theorem itemsWidth_append (vs ws : List Json) :
    itemsWidth (vs ++ ws) = itemsWidth vs + itemsWidth ws := by
  induction vs with
  | nil => simp [itemsWidth]
  | cons v vs ih => simp only [List.cons_append, itemsWidth, ih]; omega

theorem fieldsWidth_append (fs gs : List (Bytes × Json)) :
    fieldsWidth (fs ++ gs) = fieldsWidth fs + fieldsWidth gs := by
  induction fs with
  | nil => simp [fieldsWidth]
  | cons f fs ih => simp only [List.cons_append, fieldsWidth, ih]; omega

theorem itemsElements_append (i : Nat) (vs ws : List Json) :
    itemsElements i (vs ++ ws) = itemsElements i vs ++ itemsElements (i + itemsWidth vs) ws := by
  induction vs generalizing i with
  | nil => simp [itemsElements, itemsWidth]
  | cons v vs ih =>
    simp only [List.cons_append, itemsElements, itemsWidth, ih, List.append_assoc, Nat.add_assoc]

theorem fieldsElements_append (i : Nat) (fs gs : List (Bytes × Json)) :
    fieldsElements i (fs ++ gs) =
      fieldsElements i fs ++ fieldsElements (i + fieldsWidth fs) gs := by
  induction fs generalizing i with
  | nil => simp [fieldsElements, fieldsWidth]
  | cons f fs ih =>
    simp only [List.cons_append, fieldsElements, fieldsWidth, ih, List.append_assoc,
      Nat.add_assoc]

theorem mem_elements_self (i : Nat) (v : Json) : (i, v) ∈ v.elements i := by
  cases v <;> simp [elements]

/-- The item after `before` starts where they end. -/
theorem mem_elements_item {i : Nat} {before after : List Json} (v : Json) :
    (i + 1 + itemsWidth before, v) ∈ (Json.array (before ++ v :: after)).elements i := by
  rw [elements, itemsElements_append, itemsElements]
  exact List.mem_cons_of_mem _ (List.mem_append_right _
    (List.mem_append_left _ (mem_elements_self _ v)))

/-- The key after `before` starts where they end. -/
theorem mem_elements_key {i : Nat} {before after : List (Bytes × Json)} (key : Bytes) (v : Json) :
    (i + 1 + fieldsWidth before, .string key) ∈
      (Json.object (before ++ (key, v) :: after)).elements i := by
  rw [elements, fieldsElements_append, fieldsElements]
  exact List.mem_cons_of_mem _ (List.mem_append_right _
    (List.mem_append_left _ List.mem_cons_self))

/-- The value follows its key, which takes one word. -/
theorem mem_elements_value {i : Nat} {before after : List (Bytes × Json)} (key : Bytes)
    (v : Json) :
    (i + 1 + fieldsWidth before + 1, v) ∈
      (Json.object (before ++ (key, v) :: after)).elements i := by
  rw [elements, fieldsElements_append, fieldsElements]
  exact List.mem_cons_of_mem _ (List.mem_append_right _ (List.mem_append_left _
    (List.mem_cons_of_mem _ (mem_elements_self _ v))))

/-! ## Spans -/

/-- What starts among the items starts in one of them. -/
theorem mem_itemsElements {i j : Nat} {u : Json} {vs : List Json}
    (h : (j, u) ∈ itemsElements i vs) :
    ∃ before v after, vs = before ++ v :: after ∧ (j, u) ∈ v.elements (i + itemsWidth before) := by
  induction vs generalizing i with
  | nil => simp [itemsElements] at h
  | cons v vs ih =>
    rw [itemsElements, List.mem_append] at h
    rcases h with h | h
    · exact ⟨[], v, vs, rfl, h⟩
    · obtain ⟨before, w, after, rfl, hmem⟩ := ih h
      refine ⟨v :: before, w, after, rfl, ?_⟩
      rwa [itemsWidth, ← Nat.add_assoc]

/-- What starts among the fields is a key, or starts in one of their values. -/
theorem mem_fieldsElements {i j : Nat} {u : Json} {fs : List (Bytes × Json)}
    (h : (j, u) ∈ fieldsElements i fs) :
    ∃ before key v after, fs = before ++ (key, v) :: after ∧
      (j = i + fieldsWidth before ∧ u = .string key ∨
        (j, u) ∈ v.elements (i + fieldsWidth before + 1)) := by
  induction fs generalizing i with
  | nil => simp [fieldsElements] at h
  | cons f fs ih =>
    obtain ⟨key, v⟩ := f
    rw [fieldsElements, List.mem_append, List.mem_cons, Prod.mk.injEq] at h
    rcases h with (⟨rfl, rfl⟩ | h) | h
    · exact ⟨[], key, v, fs, rfl, Or.inl ⟨rfl, rfl⟩⟩
    · exact ⟨[], key, v, fs, rfl, Or.inr h⟩
    · obtain ⟨before, key', w, after, rfl, hmem⟩ := ih h
      refine ⟨(key, v) :: before, key', w, after, rfl, ?_⟩
      have hw : i + fieldsWidth ((key, v) :: before) = i + 1 + v.width + fieldsWidth before := by
        rw [fieldsWidth]
        omega
      rwa [hw]

/-- **An element lies within the span of what it is under.** -/
theorem span_of_mem_elements {v : Json} :
    ∀ {i j u}, (j, u) ∈ v.elements i → i ≤ j ∧ j + u.width ≤ i + v.width := by
  induction v with
  | null | bool | int64 | uint64 | double | string | bigint =>
    intro i j u h
    simp only [elements, List.mem_singleton, Prod.mk.injEq] at h
    obtain ⟨rfl, rfl⟩ := h
    exact ⟨Nat.le_refl _, Nat.le_refl _⟩
  | array items ih =>
    intro i j u h
    rw [elements, List.mem_cons, Prod.mk.injEq] at h
    rcases h with ⟨rfl, rfl⟩ | h
    · exact ⟨Nat.le_refl _, Nat.le_refl _⟩
    · obtain ⟨before, v, after, rfl, hmem⟩ := mem_itemsElements h
      have := ih v (by simp) hmem
      rw [width, itemsWidth_append, itemsWidth]
      omega
  | object fields ih =>
    intro i j u h
    rw [elements, List.mem_cons, Prod.mk.injEq] at h
    rcases h with ⟨rfl, rfl⟩ | h
    · exact ⟨Nat.le_refl _, Nat.le_refl _⟩
    · obtain ⟨before, key, v, after, rfl, hmem⟩ := mem_fieldsElements h
      rw [width, fieldsWidth_append, fieldsWidth]
      rcases hmem with ⟨rfl, rfl⟩ | hmem
      · rw [width]
        omega
      · have := ih key v (by simp) hmem
        omega

/-- What is under an element of `v` is under `v`. -/
theorem mem_elements_trans {v : Json} :
    ∀ {i j u k w}, (j, u) ∈ v.elements i → (k, w) ∈ u.elements j → (k, w) ∈ v.elements i := by
  induction v with
  | null | bool | int64 | uint64 | double | string | bigint =>
    intro i j u k w h h'
    simp only [elements, List.mem_singleton, Prod.mk.injEq] at h
    obtain ⟨rfl, rfl⟩ := h
    exact h'
  | array items ih =>
    intro i j u k w h h'
    rw [elements, List.mem_cons, Prod.mk.injEq] at h
    rcases h with ⟨rfl, rfl⟩ | h
    · exact h'
    · obtain ⟨before, v, after, rfl, hmem⟩ := mem_itemsElements h
      have := ih v (by simp) hmem h'
      rw [elements, itemsElements_append, itemsElements]
      exact List.mem_cons_of_mem _ (List.mem_append_right _ (List.mem_append_left _ this))
  | object fields ih =>
    intro i j u k w h h'
    rw [elements, List.mem_cons, Prod.mk.injEq] at h
    rcases h with ⟨rfl, rfl⟩ | h
    · exact h'
    · obtain ⟨before, key, v, after, rfl, hmem⟩ := mem_fieldsElements h
      rw [elements, fieldsElements_append, fieldsElements]
      refine List.mem_cons_of_mem _ (List.mem_append_right _ (List.mem_append_left _ ?_))
      rcases hmem with ⟨rfl, rfl⟩ | hmem
      · rw [elements, List.mem_singleton] at h'
        rw [h']
        exact List.mem_cons_self
      · exact List.mem_cons_of_mem _ (ih key v (by simp) hmem h')

/-! ## An index starts at most one element -/

theorem span_of_mem_itemsElements {i j : Nat} {u : Json} {vs : List Json}
    (h : (j, u) ∈ itemsElements i vs) : i ≤ j ∧ j < i + itemsWidth vs := by
  obtain ⟨before, v, after, rfl, hmem⟩ := mem_itemsElements h
  have hspan := span_of_mem_elements hmem
  have hpos := u.width_pos
  rw [itemsWidth_append, itemsWidth]
  omega

theorem span_of_mem_fieldsElements {i j : Nat} {u : Json} {fs : List (Bytes × Json)}
    (h : (j, u) ∈ fieldsElements i fs) : i ≤ j ∧ j < i + fieldsWidth fs := by
  obtain ⟨before, key, v, after, rfl, hmem⟩ := mem_fieldsElements h
  rw [fieldsWidth_append, fieldsWidth]
  rcases hmem with ⟨rfl, rfl⟩ | hmem
  · omega
  · have hspan := span_of_mem_elements hmem
    have hpos := u.width_pos
    omega

/-- The elements are listed by ascending index. -/
theorem elements_pairwise (v : Json) :
    ∀ i, (v.elements i).Pairwise fun a b => a.1 < b.1 := by
  induction v with
  | null | bool | int64 | uint64 | double | string | bigint =>
    intro i
    exact List.pairwise_singleton _ _
  | array items ih =>
    intro i
    rw [elements, List.pairwise_cons]
    refine ⟨fun a ha => (span_of_mem_itemsElements ha).1, ?_⟩
    generalize i + 1 = k
    induction items generalizing k with
    | nil => exact List.Pairwise.nil
    | cons v vs ihs =>
      rw [itemsElements, List.pairwise_append]
      refine ⟨ih v List.mem_cons_self _, ihs (fun w hw => ih w (List.mem_cons_of_mem _ hw)) _, ?_⟩
      intro a ha b hb
      have := (span_of_mem_elements ha).2
      have := (span_of_mem_itemsElements hb).1
      have := a.2.width_pos
      omega
  | object fields ih =>
    intro i
    rw [elements, List.pairwise_cons]
    refine ⟨fun a ha => (span_of_mem_fieldsElements ha).1, ?_⟩
    generalize i + 1 = k
    induction fields generalizing k with
    | nil => exact List.Pairwise.nil
    | cons f fs ihs =>
      obtain ⟨key, v⟩ := f
      rw [fieldsElements, List.cons_append, List.pairwise_cons, List.pairwise_append]
      refine ⟨?_, ih key v List.mem_cons_self _,
        ihs (fun key w hw => ih key w (List.mem_cons_of_mem _ hw)) _, ?_⟩
      · intro a ha
        rcases List.mem_append.mp ha with ha | ha
        · exact (span_of_mem_elements ha).1
        · have := (span_of_mem_fieldsElements ha).1
          omega
      · intro a ha b hb
        have := (span_of_mem_elements ha).2
        have := (span_of_mem_fieldsElements hb).1
        have := a.2.width_pos
        omega

theorem elements_unique {v u u' : Json} {i j : Nat} (h : (j, u) ∈ v.elements i)
    (h' : (j, u') ∈ v.elements i) : u = u' := by
  have hnodup : ((v.elements i).map Prod.fst).Nodup := by
    rw [List.Nodup, List.pairwise_map]
    exact (elements_pairwise v i).imp Nat.ne_of_lt
  exact (Prod.mk.injEq ..).mp (List.inj_on_of_nodup_map hnodup h h' rfl) |>.2

/-! ## Documents -/

/-- `u` starts at index `j` of the tape of the document `root`. -/
def At (root : Json) (j : Nat) (u : Json) : Prop := (j, u) ∈ root.elements 1

/-- Every element lies after the root word and before the closing one. -/
theorem At.range {root u : Json} {j : Nat} (h : root.At j u) :
    1 ≤ j ∧ j + u.width ≤ 1 + root.width :=
  span_of_mem_elements h

theorem At.lt {root u : Json} {j : Nat} (h : root.At j u) : j < 1 + root.width := by
  have := h.range
  have := u.width_pos
  omega

theorem at_root (root : Json) : root.At 1 root := mem_elements_self 1 root

theorem At.item {root v : Json} {j : Nat} {before after : List Json}
    (h : root.At j (.array (before ++ v :: after))) : root.At (j + 1 + itemsWidth before) v :=
  mem_elements_trans h (mem_elements_item v)

theorem At.key {root v : Json} {j : Nat} {key : Bytes} {before after : List (Bytes × Json)}
    (h : root.At j (.object (before ++ (key, v) :: after))) :
    root.At (j + 1 + fieldsWidth before) (.string key) :=
  mem_elements_trans h (mem_elements_key key v)

theorem At.value {root v : Json} {j : Nat} {key : Bytes} {before after : List (Bytes × Json)}
    (h : root.At j (.object (before ++ (key, v) :: after))) :
    root.At (j + 1 + fieldsWidth before + 1) v :=
  mem_elements_trans h (mem_elements_value key v)

/-- The element that starts at an index, if one does. -/
def at? (root : Json) (j : Nat) : Option Json :=
  ((root.elements 1).find? fun e => e.1 = j).map Prod.snd

theorem at?_eq_some {root u : Json} {j : Nat} : root.at? j = some u ↔ root.At j u := by
  unfold at? At
  constructor
  · intro h
    obtain ⟨⟨k, w⟩, hfind, rfl⟩ := Option.map_eq_some_iff.mp h
    have hk : k = j := by simpa using List.find?_some hfind
    exact hk ▸ List.mem_of_find?_eq_some hfind
  · intro h
    have hsome : ((root.elements 1).find? fun e => e.1 = j).isSome :=
      List.find?_isSome.mpr ⟨(j, u), h, by simp⟩
    obtain ⟨⟨k, w⟩, hfind⟩ := Option.isSome_iff_exists.mp hsome
    have hk : k = j := by simpa using List.find?_some hfind
    have hw := List.mem_of_find?_eq_some hfind
    rw [hfind, Option.map_some, elements_unique h (hk ▸ hw)]

/-! ## Direct children -/

/-- The items of an array, with where each of them starts. -/
def placedItems (i : Nat) : List Json → List (Nat × Json)
  | [] => []
  | v :: vs => (i, v) :: placedItems (i + v.width) vs

/-- The values of an object, with where each of them starts. -/
def placedFields (i : Nat) : List (Bytes × Json) → List (Nat × Json)
  | [] => []
  | (_, v) :: fields => (i + 1, v) :: placedFields (i + 1 + v.width) fields

/-- The direct children of a value that starts at `j`, in document order. -/
def placedChildren (j : Nat) : Json → List (Nat × Json)
  | .array items => placedItems (j + 1) items
  | .object fields => placedFields (j + 1) fields
  | _ => []

theorem length_placedItems (i : Nat) (vs : List Json) : (placedItems i vs).length = vs.length := by
  induction vs generalizing i with
  | nil => rfl
  | cons v vs ih => rw [placedItems, List.length_cons, List.length_cons, ih]

theorem mem_itemsElements_of_placedItems {i : Nat} {vs : List Json} {c : Nat × Json}
    (h : c ∈ placedItems i vs) : c ∈ itemsElements i vs := by
  induction vs generalizing i with
  | nil => cases h
  | cons v vs ih =>
    rw [itemsElements, List.mem_append]
    rcases List.mem_cons.mp h with rfl | h
    · exact Or.inl (mem_elements_self i v)
    · exact Or.inr (ih h)

theorem mem_fieldsElements_of_placedFields {i : Nat} {fs : List (Bytes × Json)} {c : Nat × Json}
    (h : c ∈ placedFields i fs) : c ∈ fieldsElements i fs := by
  induction fs generalizing i with
  | nil => cases h
  | cons f fs ih =>
    obtain ⟨key, v⟩ := f
    rw [fieldsElements, List.mem_append]
    rcases List.mem_cons.mp h with rfl | h
    · exact Or.inl (List.mem_cons_of_mem _ (mem_elements_self (i + 1) v))
    · exact Or.inr (ih h)

/-- A child is under its container. -/
theorem mem_elements_of_placedChildren {u : Json} {j : Nat} {c : Nat × Json}
    (h : c ∈ u.placedChildren j) :
    c ∈ u.elements j := by
  cases u with
  | array items => exact List.mem_cons_of_mem _ (mem_itemsElements_of_placedItems h)
  | object fields => exact List.mem_cons_of_mem _ (mem_fieldsElements_of_placedFields h)
  | _ => cases h

/-- A child ends before the next one starts. -/
theorem placedChildren_apart (u : Json) (j : Nat) :
    (u.placedChildren j).Pairwise fun a b => a.1 + a.2.width ≤ b.1 := by
  cases u with
  | array items =>
    rw [placedChildren]
    generalize j + 1 = i
    induction items generalizing i with
    | nil => exact List.Pairwise.nil
    | cons v vs ih =>
      refine List.pairwise_cons.mpr ⟨fun c hc => ?_, ih _⟩
      exact (span_of_mem_itemsElements (mem_itemsElements_of_placedItems hc)).1
  | object fields =>
    rw [placedChildren]
    generalize j + 1 = i
    induction fields generalizing i with
    | nil => exact List.Pairwise.nil
    | cons f fs ih =>
      refine List.pairwise_cons.mpr ⟨fun c hc => ?_, ih _⟩
      have hafter := (span_of_mem_fieldsElements (mem_fieldsElements_of_placedFields hc)).1
      dsimp only
      omega
  | _ => exact List.Pairwise.nil

/-- The direct children of the element at an index. -/
def childrenAt (root : Json) (j : Nat) : List (Nat × Json) :=
  match root.at? j with
  | some u => u.placedChildren j
  | none => []

theorem At.childrenAt {root u : Json} {j : Nat} (h : root.At j u) :
    root.childrenAt j = u.placedChildren j := by
  rw [Json.childrenAt, at?_eq_some.mpr h]

end Json

end PureSimdjson
