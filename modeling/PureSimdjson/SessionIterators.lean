import PureSimdjson.AccessorWalk
import PureSimdjson.SessionLookups

/-!
# What the iterators of an open document return

An iterator that a caller holds names a lease of the document, and stands before the children it
has not returned yet.  It returns the first of them and then stands before the others; what it
returns stands for the child.  An iterator that is over, or that could not be made, has nothing to
do with the document any more.
-/
namespace PureSimdjson.Elements

open Effect Json Runs

/-! ## Where an iterator stands -/

/-- The iterator names a lease of the document. -/
structure Leases (doc : UInt64) (tag : Nat) (entry : DocEntry) (iter : Iter) : Prop where
  doc_eq : iter.doc = doc
  reserved_eq : iter.reserved = 0
  tag_eq : iter.tag = tag
  lease : entry.iterLeases.lookup iter.index = some ⟨iter.state0, iter.state1, tag⟩

/-- Between the two words are these items of an array, its last ones. -/
def ItemsAhead (root : Json) (state0 state1 : Nat) (after : List Json) : Prop :=
  ∃ container before, root.At container (.array (before ++ after)) ∧
    state0 = container + 1 + itemsWidth before ∧
    state1 = container + 1 + itemsWidth (before ++ after)

/-- Between the two words are these fields of an object, its last ones. -/
def FieldsAhead (root : Json) (state0 state1 : Nat) (after : List (Bytes × Json)) : Prop :=
  ∃ container before, root.At container (.object (before ++ after)) ∧
    state0 = container + 1 + fieldsWidth before ∧
    state1 = container + 1 + fieldsWidth (before ++ after)

/-- The first item, and what is ahead after it. -/
theorem ItemsAhead.next {root v : Json} {state0 state1 : Nat} {rest : List Json}
    (h : ItemsAhead root state0 state1 (v :: rest)) :
    root.At state0 v ∧ ItemsAhead root (state0 + v.width) state1 rest := by
  obtain ⟨container, before, hat, rfl, rfl⟩ := h
  refine ⟨hat.item, container, before ++ [v], ?_, ?_, ?_⟩
  · rwa [List.append_assoc]
  · simp only [itemsWidth_append, itemsWidth, Nat.add_zero, Nat.add_assoc]
  · rw [List.append_assoc]
    rfl

/-- The first key with its value, and what is ahead after them. -/
theorem FieldsAhead.next {root v : Json} {key : Bytes} {state0 state1 : Nat}
    {rest : List (Bytes × Json)} (h : FieldsAhead root state0 state1 ((key, v) :: rest)) :
    root.At state0 (.string key) ∧ root.At (state0 + 1) v ∧
      FieldsAhead root (state0 + 1 + v.width) state1 rest := by
  obtain ⟨container, before, hat, rfl, rfl⟩ := h
  refine ⟨hat.key, hat.value, container, before ++ [(key, v)], ?_, ?_, ?_⟩
  · rwa [List.append_assoc]
  · simp only [fieldsWidth_append, fieldsWidth, Nat.add_zero, Nat.add_assoc]
  · rw [List.append_assoc]
    rfl

/-- The cursor is neither over nor broken. -/
def Cursor.Active {α : Type} (it : Cursor α) : Prop := it.done = false ∧ it.err = none

/-- What an iterator of either kind keeps of its way. -/
structure Way where
  doc : Option Doc
  iter : Iter
  done : Bool
  err : Option AccessError

def ArrayIter.way (it : ArrayIter) : Way := ⟨it.doc, it.iter, it.done, it.err⟩

def ObjectIter.way (it : ObjectIter) : Way := ⟨it.doc, it.iter, it.done, it.err⟩

/-- The iterator is neither over nor broken. -/
def Way.Going (way : Way) : Prop := way.done = false ∧ way.err = none

def Way.through (way : Way) (doc : Doc) : Way :=
  { way with doc := way.doc.map fun _ => doc }

/-- What `Array.Iter` and `Object.Iter` make of what the library has made. -/
def Way.made (doc : Option Doc) : Except AccessError Iter → Way
  | .error err => ⟨doc, ⟨0, 0, 0, 0, 0, 0⟩, false, some err⟩
  | .ok iter => ⟨doc, iter, false, none⟩

/-- The iterator is the cursor: as long as it is active and the document has an entry, it names
a lease and stands before what the cursor has not returned yet. -/
structure Iterates {α : Type} (doc : UInt64) (tag : Nat) (Ahead : Nat → Nat → List α → Prop)
    (entry : Option DocEntry) (way : Way) (cursor : Cursor α) : Prop where
  bound : way.doc.isSome
  done_eq : way.done = cursor.done
  err_eq : way.err = cursor.err
  leases : ∀ e ∈ entry, cursor.Active → Leases doc tag e way.iter
  ahead : ∀ e ∈ entry, cursor.Active → Ahead way.iter.state0 way.iter.state1 cursor.rest

structure ArrayIter.Is (root : Json) (doc : UInt64) (entry : Option DocEntry) (it : ArrayIter)
    (cursor : Cursor Json) : Prop where
  iterates : Iterates doc arrayIterTag (ItemsAhead root) entry it.way cursor
  current : it.currentValue.Is root doc entry cursor.current

structure ObjectIter.Is (root : Json) (doc : UInt64) (entry : Option DocEntry) (it : ObjectIter)
    (cursor : Cursor (Bytes × Json)) : Prop where
  iterates : Iterates doc objectIterTag (FieldsAhead root) entry it.way cursor
  current : it.currentValue.Is root doc entry (cursor.current.map Prod.snd)
  key_eq : it.currentKey = (cursor.current.map Prod.fst).getD []

theorem Element.Is.through {root : Json} {doc : UInt64} {entry : Option DocEntry}
    {element : Element} {x : Option Json} (h : element.Is root doc entry x) (d : Doc) :
    (element.through d).Is root doc entry x := by
  cases x with
  | none =>
    have hnone : element.doc = none := h
    rw [Element.Is, Element.through, hnone]
    rfl
  | some u => exact ⟨by simpa [Element.through] using h.1, h.2⟩

theorem Iterates.through {α : Type} {doc : UInt64} {tag : Nat} {Ahead : Nat → Nat → List α → Prop}
    {entry : Option DocEntry} {way : Way} {cursor : Cursor α}
    (h : Iterates doc tag Ahead entry way cursor) (d : Doc) :
    Iterates doc tag Ahead entry (way.through d) cursor :=
  { h with bound := by simpa [Way.through] using h.bound }

theorem ArrayIter.Is.through {root : Json} {doc : UInt64} {entry : Option DocEntry}
    {it : ArrayIter} {cursor : Cursor Json} (h : it.Is root doc entry cursor) (d : Doc) :
    (it.through d).Is root doc entry cursor :=
  ⟨h.iterates.through d, h.current.through d⟩

theorem ObjectIter.Is.through {root : Json} {doc : UInt64} {entry : Option DocEntry}
    {it : ObjectIter} {cursor : Cursor (Bytes × Json)} (h : it.Is root doc entry cursor) (d : Doc) :
    (it.through d).Is root doc entry cursor :=
  ⟨h.iterates.through d, h.current.through d, h.key_eq⟩

/-! ## Later -/

/-- The entry that the document has later, if it has one still, follows the one it had. -/
def Later (kept : Set UInt32) (entry entry' : Option DocEntry) : Prop :=
  ∀ e' ∈ entry', ∃ e ∈ entry, Follows kept e e'

section
variable {root u : Json} {doc : UInt64} {entry entry' : Option DocEntry} {kept : Set UInt32}
  {tag : Nat} {iter : Iter}

theorem Later.of_follows {e e' : DocEntry} (h : Follows kept e e') :
    Later kept (some e) (some e') := by
  rintro _ ⟨⟩
  exact ⟨e, rfl, h⟩

theorem Later.refl (kept : Set UInt32) (entry : Option DocEntry) : Later kept entry entry :=
  fun e' he' => ⟨e', he', .refl _ _⟩

theorem Later.none : Later kept entry none := fun _ h => by cases h

theorem Element.Is.later {element : Element} {x : Option Json} (h : element.Is root doc entry x)
    (hlater : Later kept entry entry') : element.Is root doc entry' x := by
  cases x with
  | none => exact h
  | some u =>
    refine ⟨h.1, fun e' he' => ?_⟩
    obtain ⟨e, he, hfollows⟩ := hlater e' he'
    obtain ⟨j, hnames⟩ := h.2 e he
    exact ⟨j, hnames.follows hfollows⟩

theorem Leases.follows {e e' : DocEntry} (h : Leases doc tag e iter) (hfollows : Follows kept e e')
    (hkept : iter.index ∈ kept) : Leases doc tag e' iter :=
  { h with lease := hfollows.leases _ hkept _ h.lease }

theorem Iterates.later {α : Type} {Ahead : Nat → Nat → List α → Prop} {way : Way}
    {cursor : Cursor α} (h : Iterates doc tag Ahead entry way cursor)
    (hlater : Later kept entry entry') (hkept : cursor.Active → way.iter.index ∈ kept) :
    Iterates doc tag Ahead entry' way cursor := by
  refine { h with leases := fun e' he' hactive => ?_, ahead := fun e' he' hactive => ?_ }
  · obtain ⟨e, he, hfollows⟩ := hlater e' he'
    exact (h.leases e he hactive).follows hfollows (hkept hactive)
  · obtain ⟨e, he, -⟩ := hlater e' he'
    exact h.ahead e he hactive

theorem ArrayIter.Is.later {it : ArrayIter} {cursor : Cursor Json} (h : it.Is root doc entry cursor)
    (hlater : Later kept entry entry') (hkept : cursor.Active → it.way.iter.index ∈ kept) :
    it.Is root doc entry' cursor :=
  ⟨h.iterates.later hlater hkept, h.current.later hlater⟩

theorem ObjectIter.Is.later {it : ObjectIter} {cursor : Cursor (Bytes × Json)}
    (h : it.Is root doc entry cursor) (hlater : Later kept entry entry')
    (hkept : cursor.Active → it.way.iter.index ∈ kept) : it.Is root doc entry' cursor :=
  ⟨h.iterates.later hlater hkept, h.current.later hlater, h.key_eq⟩

/-- An iterator that could not be made. -/
theorem iterates_broken {α : Type} {Ahead : Nat → Nat → List α → Prop} {d : Option Doc}
    (hbound : d.isSome) (err : AccessError) :
    Iterates doc tag Ahead entry (.made d (.error err)) (.broken err) where
  bound := hbound
  done_eq := rfl
  err_eq := rfl
  leases _ _ hactive := by cases hactive.2
  ahead _ _ hactive := by cases hactive.2

/-- An iterator that is over. -/
theorem iterates_over {α : Type} {Ahead : Nat → Nat → List α → Prop} {d : Option Doc}
    (hbound : d.isSome) (err : Option AccessError) (cursor : Cursor α) :
    Iterates doc tag Ahead entry ⟨d, iter, true, err⟩ (cursor.over err) where
  bound := hbound
  done_eq := rfl
  err_eq := rfl
  leases _ _ hactive := by cases hactive.1
  ahead _ _ hactive := by cases hactive.1

end

/-! ## Either kind -/

/-- A kind of iterators: what one keeps of its way, and when it is a cursor. -/
structure IterKind (root : Json) (doc : UInt64) (I α : Type) where
  tag : Nat
  Ahead : Nat → Nat → List α → Prop
  way : I → Way
  through : I → Doc → I
  finish : I → Option AccessError → I
  Is : Option DocEntry → I → Cursor α → Prop
  way_through : ∀ it d, way (through it d) = (way it).through d
  way_finish : ∀ it err, way (finish it err) = { way it with done := true, err := err }
  iterates : ∀ {entry it cursor}, Is entry it cursor →
    Iterates doc tag Ahead entry (way it) cursor
  later : ∀ {kept entry entry' it cursor}, Is entry it cursor → Later kept entry entry' →
    (cursor.Active → (way it).iter.index ∈ kept) → Is entry' it cursor
  is_through : ∀ {entry it cursor}, Is entry it cursor → ∀ d, Is entry (through it d) cursor
  is_finish : ∀ {entry it err} {cursor : Cursor α}, (way it).doc.isSome →
    Is entry (finish it err) (cursor.over err)

def arrayKind (root : Json) (doc : UInt64) : IterKind root doc ArrayIter Json where
  tag := arrayIterTag
  Ahead := ItemsAhead root
  way := ArrayIter.way
  through := ArrayIter.through
  finish := ArrayIter.over
  Is := ArrayIter.Is root doc
  way_through _ _ := rfl
  way_finish _ _ := rfl
  iterates := ArrayIter.Is.iterates
  later := ArrayIter.Is.later
  is_through := ArrayIter.Is.through
  is_finish hbound := ⟨iterates_over hbound _ _, rfl⟩

def objectKind (root : Json) (doc : UInt64) : IterKind root doc ObjectIter (Bytes × Json) where
  tag := objectIterTag
  Ahead := FieldsAhead root
  way := ObjectIter.way
  through := ObjectIter.through
  finish := ObjectIter.over
  Is := ObjectIter.Is root doc
  way_through _ _ := rfl
  way_finish _ _ := rfl
  iterates := ObjectIter.Is.iterates
  later := ObjectIter.Is.later
  is_through := ObjectIter.Is.through
  is_finish hbound := ⟨iterates_over hbound _ _, rfl, rfl⟩

section
variable {doc : UInt64} {entry : Option DocEntry} {α : Type} {tag : Nat}
  {Ahead : Nat → Nat → List α → Prop} {way : Way} {cursor : Cursor α}

theorem Iterates.going (h : Iterates doc tag Ahead entry way cursor) :
    way.Going ↔ cursor.Active := by
  rw [Way.Going, h.done_eq, h.err_eq, Cursor.Active]

theorem Iterates.doc_eq (h : Iterates doc tag Ahead entry way cursor) (d : Doc) :
    (way.through d).doc = some d := by
  obtain ⟨bound, hbound⟩ := Option.isSome_iff_exists.mp h.bound
  rw [Way.through, hbound]
  rfl

theorem Way.going_iff : way.Going ↔ ¬ (way.done = true ∨ way.err.isSome = true) := by
  simp [Way.Going]

theorem Cursor.active_iff : cursor.Active ↔ ¬ (cursor.done = true ∨ cursor.err.isSome = true) := by
  simp [Cursor.Active]

theorem Cursor.next_over (h : ¬ cursor.Active) (closed : Bool) :
    cursor.next closed = (false, cursor) :=
  if_pos (not_not.mp (mt Cursor.active_iff.mpr h))

theorem Cursor.next_closed (h : cursor.Active) :
    cursor.next true = (false, cursor.over (some .closed)) := by
  rw [Cursor.next, if_neg (Cursor.active_iff.mp h), if_pos rfl]

end

/-! ## An iterator that does nothing -/

section
variable {W I α : Type} {root : Json} {doc : UInt64} {entry : Option DocEntry}
  {K : IterKind root doc I α} {next : I → GoM W (Bool × I)}

/-- How a function that moves iterators of the kind starts. -/
structure IterKind.Starts (K : IterKind root doc I α) (next : I → GoM W (Bool × I)) : Prop where
  stopped : ∀ it, ¬ (K.way it).Going → next it = pure (false, it)
  unusable : ∀ it err, (K.way it).Going → usableIteratorBindings (K.way it).doc = .error err →
    next it = pure (false, K.finish it (some err))

theorem ArrayIter.starts (native : Native W) :
    (arrayKind root doc).Starts (ArrayIter.next native) where
  stopped it hover := if_pos (not_not.mp (mt Way.going_iff.mpr hover))
  unusable it err hgoing herr := by
    refine (if_neg (Way.going_iff.mp hgoing)).trans ?_
    have herr : usableIteratorBindings it.doc = .error err := herr
    rw [herr]
    rfl

theorem ObjectIter.starts (native : Native W) :
    (objectKind root doc).Starts (ObjectIter.next native) where
  stopped it hover := if_pos (not_not.mp (mt Way.going_iff.mpr hover))
  unusable it err hgoing herr := by
    refine (if_neg (Way.going_iff.mp hgoing)).trans ?_
    have herr : usableIteratorBindings it.doc = .error err := herr
    rw [herr]
    rfl

/-- **An iterator that is over, or whose document is closed**, makes no call. -/
theorem IterKind.Starts.idle (h : K.Starts next) {it : I} {cursor : Cursor α} {closed : Bool}
    (his : K.Is entry it cursor) (hidle : cursor.Active → closed = true) :
    ∃ it', next (K.through it ⟨true, closed⟩) = pure ((cursor.next closed).1, it') ∧
      K.Is entry it' (cursor.next closed).2 ∧
      ((K.way it').Going → (K.way it).Going ∧ (K.way it').iter.index = (K.way it).iter.index) := by
  have hgoing := (K.iterates his).going
  have hway := K.way_through it ⟨true, closed⟩
  by_cases hactive : cursor.Active
  · obtain rfl := hidle hactive
    have hunusable : usableIteratorBindings (K.way (K.through it ⟨true, true⟩)).doc =
        .error .closed := by
      rw [hway, (K.iterates his).doc_eq]
      rfl
    rw [Cursor.next_closed hactive,
      h.unusable _ _ (hway ▸ hgoing.mpr hactive) hunusable]
    refine ⟨_, rfl, K.is_finish (K.iterates (K.is_through his _)).bound, fun hgoing' => ?_⟩
    rw [K.way_finish] at hgoing'
    cases hgoing'.1
  · rw [Cursor.next_over hactive, h.stopped _ (hway ▸ mt hgoing.mp hactive)]
    refine ⟨_, rfl, K.is_through his _, fun hgoing' => ?_⟩
    rw [hway] at hgoing' ⊢
    exact ⟨hgoing', rfl⟩

end

/-! ## A new iterator -/

section
variable {W : Type} {sj : Simdjson W} {base : Native W} {tape : W → Nat → Option Json}
  {blocks : W → Set Nat} {root u : Json} {slot : UInt32} {entry : DocEntry} {s : Runtime W}
  {view : ValueView} {j : Nat} {tag : Nat} {iter : Iter}

/-- **An iterator is made while ids remain**, of a lease that the document did not have. -/
theorem wp_newIter_open (hsj : sj.Faithful base.memory tape)
    (h : Open sj base tape root view.doc slot s entry) (hn : Names root view.doc entry view u j)
    (kind : ValueKind) (hkind : u.kindCode = kind.code) {width : Nat}
    {read : ElementRead (Nat × Nat)}
    (hread : readElement sj (sj.document s.native entry.nativePtr) s.native entry.nativePtr j read =
      pure (j + 1, j + 1 + width)) {new : Option ValueView → RuntimeM W Iter}
    (hnew : new (some view) = withResolvedView (some view) fun jsonIndex doc => do
      requireKind (bridge sj base) kind jsonIndex
      let (state0, state1) ← onDoc (nativeIterBounds (bridge sj base) read · jsonIndex)
      let leaseId ← allocLease tag state0 state1
      pure ⟨doc, state0, state1, leaseId, tag, 0⟩) :
    wp (newIter kind new ⟨openDoc, view⟩)
      (fun result s' => result = .error (.status .internal) ∧
          leaseIds ≤ entry.iterLeases.keys.length ∨
        entry.iterLeases.keys.length < leaseIds ∧ ∃ iter, result = .ok iter ∧
          iter.index ∉ entry.iterLeases ∧ iter.state0 = j + 1 ∧ iter.state1 = j + 1 + width ∧
          ∀ entry', Open sj base tape root view.doc slot s' entry' →
            Leases view.doc tag entry' iter)
      (fun _ _ => False) s := by
  have hright : ¬ view.kindHint ≠ kind.code := not_not.mpr (hn.kindHint_eq.trans hkind)
  rw [newIter, usableDoc_open]
  dsimp only
  rw [if_neg hright, wp_bind, wp_binding, hnew,
    wp_withResolvedView_of_resolves (hn.resolves h.live)]
  refine wp_mono (wp_iterNew_entry hsj h.root_eq hn.at_eq hkind hread) ?_ ?_
  · rintro ⟨doc, state0, state1, leaseId, tag', reserved⟩ ⟨entry', w⟩ ⟨hroom, rfl, hiter, hleased⟩
    cases hiter
    refine Or.inr ⟨hroom, _, rfl, hleased.free, rfl, rfl, fun entry₁ hopen => ?_⟩
    have hgeneration : entry'.generation = entry.generation := by
      obtain rfl := hleased.entry_eq
      rfl
    have hlive : DocLive (s.registry.setDoc (slotIndex slot) (.occupied entry')) view.doc slot
        entry' := h.live.set_self rfl hgeneration
    obtain rfl := hopen.live.unique hlive
    refine ⟨rfl, rfl, rfl, ?_⟩
    obtain rfl := hleased.entry_eq
    exact AList.lookup_insert _
  · rintro rc - ⟨rfl, -, hfull⟩
    exact Or.inl ⟨rfl, Nat.not_lt.mp hfull⟩

/-- What is made of the lease goes through all the children. -/
theorem wp_newIter_cursor (hsj : sj.Faithful base.memory tape)
    (h : Open sj base tape root view.doc slot s entry) (hn : Names root view.doc entry view u j)
    (kind : ValueKind) (hkind : u.kindCode = kind.code) {width : Nat}
    {read : ElementRead (Nat × Nat)}
    (hread : readElement sj (sj.document s.native entry.nativePtr) s.native entry.nativePtr j read =
      pure (j + 1, j + 1 + width)) {new : Option ValueView → RuntimeM W Iter}
    (hnew : new (some view) = withResolvedView (some view) fun jsonIndex doc => do
      requireKind (bridge sj base) kind jsonIndex
      let (state0, state1) ← onDoc (nativeIterBounds (bridge sj base) read · jsonIndex)
      let leaseId ← allocLease tag state0 state1
      pure ⟨doc, state0, state1, leaseId, tag, 0⟩)
    {α : Type} {Ahead : Nat → Nat → List α → Prop} {children : List α}
    (hahead : Ahead (j + 1) (j + 1 + width) children) {p : Plain} (hclosed : p.closed = false) :
    wp (newIter kind new ⟨openDoc, view⟩)
      (fun result s' => ∀ entry', Open sj base tape root view.doc slot s' entry' →
        Iterates view.doc tag Ahead (some entry') (.made openDoc result)
          (p.newCursor (decide (entry.iterLeases.keys.length < leaseIds)) children) ∧
        ((Way.made openDoc result).Going → (Way.made openDoc result).iter.index ∉
          entry.iterLeases))
      (fun _ _ => False) s := by
  refine wp_mono (wp_newIter_open hsj h hn kind hkind hread hnew) ?_ fun _ _ => id
  rw [Plain.newCursor, hclosed, if_neg (by decide)]
  rintro result s' (⟨rfl, hfull⟩ | ⟨hroom, iter, rfl, hfree, h0, h1, hleases⟩) entry' hopen
  · rw [decide_eq_false (Nat.not_lt.mpr hfull), if_neg (by decide)]
    exact ⟨iterates_broken rfl _, fun hgoing => by cases hgoing.2⟩
  · rw [decide_eq_true hroom, if_pos rfl]
    refine ⟨⟨rfl, rfl, rfl, ?_, ?_⟩, fun _ => hfree⟩
    · rintro e ⟨⟩ -
      exact hleases entry' hopen
    · rintro e ⟨⟩ -
      rw [Way.made, h0, h1]
      exact hahead

theorem newCursor_current {α : Type} (p : Plain) (room : Bool) (children : List α) :
    (p.newCursor room children).current = none := by
  rw [Plain.newCursor]
  split
  · rfl
  · split <;> rfl

/-- `Array.Iter`, on an array. -/
theorem wp_arrayIter_open (hsj : sj.Faithful base.memory tape)
    (h : Open sj base tape root view.doc slot s entry) {items : List Json}
    (hn : Names root view.doc entry view (.array items) j) {p : Plain}
    (hclosed : p.closed = false) :
    wp (arrayIter (bridge sj base) ⟨openDoc, view⟩)
      (fun it s' => ∀ entry', Open sj base tape root view.doc slot s' entry' →
        it.Is root view.doc (some entry')
          (p.newCursor (decide (entry.iterLeases.keys.length < leaseIds)) items) ∧
        (it.way.Going → it.way.iter.index ∉ entry.iterLeases))
      (fun _ _ => False) s := by
  have hahead : ItemsAhead root (j + 1) (j + 1 + itemsWidth items) items :=
    ⟨j, [], hn.at_eq, rfl, rfl⟩
  rw [arrayIter, wp_bind]
  refine wp_mono (wp_newIter_cursor hsj h hn .array rfl
    (readElement_arrayIterBounds hsj h.root_eq hn.at_eq) rfl hahead hclosed) ?_ fun _ _ => id
  rintro (err | iter) s' hmade entry' hopen <;>
    exact ⟨⟨(hmade entry' hopen).1, by rw [newCursor_current]; rfl⟩, (hmade entry' hopen).2⟩

/-- `Object.Iter`, on an object. -/
theorem wp_objectIter_open (hsj : sj.Faithful base.memory tape)
    (h : Open sj base tape root view.doc slot s entry) {fields : List (Bytes × Json)}
    (hn : Names root view.doc entry view (.object fields) j) {p : Plain}
    (hclosed : p.closed = false) :
    wp (objectIter (bridge sj base) ⟨openDoc, view⟩)
      (fun it s' => ∀ entry', Open sj base tape root view.doc slot s' entry' →
        it.Is root view.doc (some entry')
          (p.newCursor (decide (entry.iterLeases.keys.length < leaseIds)) fields) ∧
        (it.way.Going → it.way.iter.index ∉ entry.iterLeases))
      (fun _ _ => False) s := by
  have hahead : FieldsAhead root (j + 1) (j + 1 + fieldsWidth fields) fields :=
    ⟨j, [], hn.at_eq, rfl, rfl⟩
  rw [objectIter, wp_bind]
  refine wp_mono (wp_newIter_cursor hsj h hn .object rfl
    (readElement_objectIterBounds hsj h.root_eq hn.at_eq) rfl hahead hclosed) ?_ fun _ _ => id
  rintro (err | iter) s' hmade entry' hopen <;>
    exact ⟨⟨(hmade entry' hopen).1, by rw [newCursor_current]; rfl, by rw [newCursor_current]; rfl⟩,
      (hmade entry' hopen).2⟩

/-! ## The next child -/

/-- What a step of an array iterator leaves of an entry. -/
theorem arrayStep_same (entry : DocEntry) (iter : Iter) (after : List Json) :
    (entry.arrayStep iter after).nativePtr = entry.nativePtr ∧
      (entry.arrayStep iter after).generation = entry.generation := by
  cases after <;> exact ⟨rfl, rfl⟩

theorem objectStep_same (entry : DocEntry) (iter : Iter) (after : List (Bytes × Json)) :
    (entry.objectStep iter after).nativePtr = entry.nativePtr ∧
      (entry.objectStep iter after).generation = entry.generation := by
  rcases after with _ | ⟨⟨key, v⟩, after⟩ <;> exact ⟨rfl, rfl⟩

variable (hbase : Lifecycle base tape (fun _ => True) fun _ => False)
  (hsj : sj.Faithful base.memory tape) (hblocks : Allocates base blocks)
include hbase hsj hblocks

/-- A call of `next` through a lease leaves the entry that its work on the document leaves. -/
theorem wp_advance_open (h : Ready tape blocks root iter.doc slot entry s)
    (hl : Leases iter.doc tag entry iter) (call : Call) {α : Type} {advance : DocM W α}
    {reply : α → Reply}
    (hexec : exec (bridge sj base) call = reply <$> withIterDoc iter tag advance)
    (hfree : ∀ handle, call ≠ .docFree handle) {step : α} {entry' : DocEntry}
    (hadvance : wp advance (fun a e => a = step ∧ e = (entry', s.native)) (fun _ _ => False)
      (entry, s.native))
    (hptr : entry'.nativePtr = entry.nativePtr)
    (hgeneration : entry'.generation = entry.generation) :
    wp (withIterDoc iter tag advance)
      (fun a s' => a = step ∧ Ready tape blocks root iter.doc slot entry' s') (fun _ _ => False)
      s := by
  have hnext : wp (withIterDoc iter tag advance)
      (fun a s' => a = step ∧
        s'.registry.docs = s.registry.docs.set (slotIndex slot) (.occupied entry'))
      (fun _ _ => False) s := by
    rw [wp_withIterDoc_of_lease h.safe hl.reserved_eq hl.tag_eq h.live hl.lease]
    refine wp_mono hadvance ?_ fun _ _ => id
    rintro a e ⟨rfl, rfl⟩
    exact ⟨rfl, rfl⟩
  refine wp_mono (h.call (bridge_tapeSafe hbase hsj) (allocates_bridge sj hblocks) call hexec hfree
    hnext) ?_ fun _ _ h => h.2
  rintro a s' ⟨hstands, rfl, hdocs⟩
  exact ⟨rfl, hstands.wrote h.live hdocs hptr hgeneration⟩

/-- **`ArrayIter.Next` is the cursor's**, and the iterator goes on with the same lease. -/
theorem wp_arrayNext_open {doc : UInt64} {it : ArrayIter} {cursor : Cursor Json}
    (h : Open sj base tape root doc slot s entry) (hit : it.Is root doc (some entry) cursor)
    (hactive : cursor.Active) :
    wp (ArrayIter.next (bridge sj base) (it.through ⟨true, false⟩))
      (fun result s' => ∀ entry', Open sj base tape root doc slot s' entry' →
        result.1 = (cursor.next false).1 ∧
          result.2.Is root doc (some entry') (cursor.next false).2 ∧
          result.2.way.iter.index = it.way.iter.index)
      (fun _ _ => False) s := by
  have hgoing : ¬ ((it.through ⟨true, false⟩).done = true ∨
      (it.through ⟨true, false⟩).err.isSome = true) :=
    Way.going_iff.mp (hit.iterates.going.mpr hactive)
  have hdoc : (it.through ⟨true, false⟩).doc = openDoc := hit.iterates.doc_eq _
  have hl := hit.iterates.leases entry rfl hactive
  have hready := h.ready hbase hsj hblocks
  have hahead := hit.iterates.ahead entry rfl hactive
  obtain ⟨container, before, hat, h0, h1⟩ := id hahead
  obtain rfl := hl.doc_eq
  have hnext := wp_advance_open hbase hsj hblocks hready hl (.arrayIterNext (some it.iter)) rfl
    (fun _ h => by cases h)
    (wp_arrayIterAdvance_entry hsj h.root_eq hready.docOk hat h0 h1 hl.lease)
    (arrayStep_same entry it.iter cursor.rest).1 (arrayStep_same entry it.iter cursor.rest).2
  rw [ArrayIter.next, Cursor.next, if_neg hgoing, if_neg (Cursor.active_iff.mp hactive),
    if_neg (by decide), hdoc, usableIteratorBindings_open]
  dsimp only
  rw [wp_bind, wp_binding]
  refine wp_mono hnext ?_ fun _ _ => False.elim
  rintro step s' ⟨rfl, hready'⟩
  obtain ⟨rest, current, done, err⟩ := cursor
  obtain ⟨rfl, rfl⟩ := hactive
  cases rest with
  | nil => exact fun entry' _ => ⟨rfl, ⟨iterates_over rfl _ _, rfl⟩, rfl⟩
  | cons v rest =>
    intro entry' hopen
    obtain rfl := hopen.live.unique hready'.live
    obtain ⟨hvalue, hrest⟩ := hahead.next
    refine ⟨rfl, ⟨⟨rfl, hit.iterates.done_eq, hit.iterates.err_eq, ?_, ?_⟩, rfl, ?_⟩, rfl⟩
    · rintro e ⟨⟩ -
      exact ⟨rfl, hl.reserved_eq, hl.tag_eq, AList.lookup_insert _⟩
    · rintro e ⟨⟩ -
      exact hrest
    · rintro e ⟨⟩
      exact ⟨it.iter.state0, hready'.names hvalue (Finset.mem_insert_self _ _)⟩

/-- **`ObjectIter.Next` is the cursor's.**  The key is copied before the call returns. -/
theorem wp_objectNext_open {doc : UInt64} {it : ObjectIter} {cursor : Cursor (Bytes × Json)}
    (h : Open sj base tape root doc slot s entry) (hit : it.Is root doc (some entry) cursor)
    (hactive : cursor.Active) :
    wp (ObjectIter.next (bridge sj base) (it.through ⟨true, false⟩))
      (fun result s' => ∀ entry', Open sj base tape root doc slot s' entry' →
        result.1 = (cursor.next false).1 ∧
          result.2.Is root doc (some entry') (cursor.next false).2 ∧
          result.2.way.iter.index = it.way.iter.index)
      (fun _ _ => False) s := by
  have hgoing : ¬ ((it.through ⟨true, false⟩).done = true ∨
      (it.through ⟨true, false⟩).err.isSome = true) :=
    Way.going_iff.mp (hit.iterates.going.mpr hactive)
  have hdoc : (it.through ⟨true, false⟩).doc = openDoc := hit.iterates.doc_eq _
  have hl := hit.iterates.leases entry rfl hactive
  have hready := h.ready hbase hsj hblocks
  have hahead := hit.iterates.ahead entry rfl hactive
  obtain ⟨container, before, hat, h0, h1⟩ := id hahead
  obtain rfl := hl.doc_eq
  have hnext := wp_advance_open hbase hsj hblocks hready hl (.objectIterNext (some it.iter)) rfl
    (fun _ h => by cases h)
    (wp_objectIterAdvance_entry hsj h.root_eq hready.docOk hat h0 h1 hl.lease)
    (objectStep_same entry it.iter cursor.rest).1 (objectStep_same entry it.iter cursor.rest).2
  rw [ObjectIter.next, Cursor.next, if_neg hgoing, if_neg (Cursor.active_iff.mp hactive),
    if_neg (by decide), hdoc, usableIteratorBindings_open]
  dsimp only
  rw [wp_bind, wp_binding]
  refine wp_mono hnext ?_ fun _ _ => False.elim
  rintro step s₁ ⟨rfl, hready₁⟩
  obtain ⟨rest, current, done, err⟩ := cursor
  obtain ⟨rfl, rfl⟩ := hactive
  rcases rest with _ | ⟨⟨key, v⟩, rest⟩
  · exact fun entry' _ => ⟨rfl, ⟨iterates_over rfl _ _, rfl, rfl⟩, rfl⟩
  · obtain ⟨hkeyAt, hvalue, hrest⟩ := hahead.next
    have hkey := hready₁.resolves hkeyAt (Finset.mem_insert_of_mem (Finset.mem_insert_self _ _))
    dsimp only [objectStep]
    rw [if_neg (by decide), wp_bind]
    refine wp_mono (wp_copyString hbase hsj hblocks hready₁ hkey hkeyAt) ?_ fun _ _ => False.elim
    rintro result s' ⟨rfl, hready'⟩
    intro entry' hopen
    obtain rfl := hopen.live.unique hready'.live
    refine ⟨rfl, ⟨⟨rfl, hit.iterates.done_eq, hit.iterates.err_eq, ?_, ?_⟩, ⟨rfl, ?_⟩, rfl⟩, rfl⟩
    · rintro e ⟨⟩ -
      refine ⟨rfl, hl.reserved_eq, hl.tag_eq, ?_⟩
      rw [Iter.moved, ← Nat.add_assoc]
      exact AList.lookup_insert _
    · rintro e ⟨⟩ -
      rw [Iter.moved, ← Nat.add_assoc]
      exact hrest
    · rintro e ⟨⟩
      exact ⟨it.iter.state0 + 1, hready'.names hvalue (Finset.mem_insert_self _ _)⟩

end

end PureSimdjson.Elements
