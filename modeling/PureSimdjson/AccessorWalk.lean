import PureSimdjson.AccessorCalls

/-!
# Two ways to a Go value

An element becomes a Go value through frames, or through a walk with the accessors.  The walk
makes an iterator for each container and none is given back before the document is, so each
container costs a lease id.  What the walk leaves behind is the document as it was, with that
many leases more; and if the ids are gone it stops.
-/
namespace PureSimdjson.Elements

open Effect Json PreorderWords Runs

/-! ## What the walk costs -/

mutual

/-- How many arrays and objects there are in a value. -/
def containers : Json → Nat
  | .array items => 1 + itemsContainers items
  | .object fields => 1 + fieldsContainers fields
  | _ => 0

def itemsContainers : List Json → Nat
  | [] => 0
  | v :: vs => containers v + itemsContainers vs

def fieldsContainers : List (Bytes × Json) → Nat
  | [] => 0
  | (_, v) :: fields => containers v + fieldsContainers fields

end

/-- The ids that leases can have: all but zero. -/
def leaseIds : Nat := 2 ^ 32 - 1

/-- The document has `n` leases more, and those it had hold what they held. -/
structure Grown (n : Nat) (entry entry' : DocEntry) : Prop where
  nativePtr_eq : entry'.nativePtr = entry.nativePtr
  kept : ∀ id lease, entry.iterLeases.lookup id = some lease →
    entry'.iterLeases.lookup id = some lease
  count : entry'.iterLeases.keys.length = entry.iterLeases.keys.length + n
  room : n = 0 ∨ entry'.iterLeases.keys.length ≤ leaseIds

/-- The document has not as many ids left as are asked for. -/
def Lacks (entry : DocEntry) (n : Nat) : Prop :=
  0 < n ∧ leaseIds < entry.iterLeases.keys.length + n

namespace Grown
variable {m n : Nat} {entry entry₁ entry' : DocEntry}

theorem refl (entry : DocEntry) : Grown 0 entry entry :=
  ⟨rfl, fun _ _ => id, rfl, Or.inl rfl⟩

theorem trans (h : Grown m entry entry₁) (h' : Grown n entry₁ entry') :
    Grown (m + n) entry entry' where
  nativePtr_eq := h'.nativePtr_eq.trans h.nativePtr_eq
  kept id lease hlease := h'.kept id lease (h.kept id lease hlease)
  count := by
    have hfirst := h.count
    have hsecond := h'.count
    omega
  room := by
    have hsecond := h'.count
    rcases h.room with hm | hm
    · rcases h'.room with hn | hn
      · exact Or.inl (by omega)
      · exact Or.inr hn
    · rcases h'.room with hn | hn
      · exact Or.inr (by omega)
      · exact Or.inr hn

/-- The iterator's own lease, which the document did not have at first, may move. -/
theorem move (h : Grown n entry entry') {leaseId : UInt32} {lease lease' : IteratorLease}
    (hfree : entry.iterLeases.lookup leaseId = none)
    (hheld : entry'.iterLeases.lookup leaseId = some lease) (indices : Finset Nat) :
    Grown n entry { entry' with
      descendantIndices := indices
      iterLeases := entry'.iterLeases.insert leaseId lease' } := by
  have hmem : leaseId ∈ entry'.iterLeases := AList.lookup_isSome.mp (by rw [hheld]; rfl)
  have hlength : (entry'.iterLeases.insert leaseId lease').keys.length =
      entry'.iterLeases.keys.length := by
    have hpos := List.length_pos_of_mem (AList.mem_keys.mpr hmem)
    rw [AList.keys_insert, List.length_cons, List.length_erase_of_mem (AList.mem_keys.mpr hmem)]
    omega
  refine ⟨h.nativePtr_eq, fun id lease₁ hlease => ?_, ?_, ?_⟩
  · have hne : id ≠ leaseId := by
      rintro rfl
      rw [hfree] at hlease
      cases hlease
    rw [AList.lookup_insert_ne hne]
    exact h.kept id lease₁ hlease
  · exact hlength.trans h.count
  · exact h.room.imp_right fun hle => hlength.trans_le hle

end Grown

/-- A new lease is one more. -/
theorem grown_of_leased {entry entry' : DocEntry} {lease : IteratorLease} {leaseId : UInt32}
    (h : entry.Leased lease leaseId entry') (hroom : entry.iterLeases.keys.length < leaseIds) :
    Grown 1 entry entry' := by
  have hlength : (entry.iterLeases.insert leaseId lease).keys.length =
      entry.iterLeases.keys.length + 1 := by
    rw [AList.keys_insert, List.length_cons,
      List.erase_of_not_mem fun hmem => h.free (AList.mem_keys.mpr hmem)]
  obtain rfl := h.entry_eq
  refine ⟨rfl, fun id lease' hlease => ?_, hlength, Or.inr (hlength.trans_le hroom)⟩
  have hne : id ≠ leaseId := by
    rintro rfl
    exact h.free (AList.lookup_isSome.mp (by rw [hlease]; rfl))
  rw [AList.lookup_insert_ne hne]
  exact hlease

/-! ## Iterators -/

/-- The walk holds an iterator, and has made `n` leases since the entry was `entry₀`. -/
structure Holding {W : Type} (tape : W → Nat → Option Json) (blocks : W → Set Nat) (root : Json)
    (slot : UInt32) (entry₀ : DocEntry) (n tag : Nat) (iter : Iter) (entry : DocEntry)
    (s : Runtime W) : Prop extends Ready tape blocks root iter.doc slot entry s where
  grown : Grown n entry₀ entry
  fresh : entry₀.iterLeases.lookup iter.index = none
  lease : entry.iterLeases.lookup iter.index = some ⟨iter.state0, iter.state1, tag⟩
  tag_eq : iter.tag = tag
  reserved_eq : iter.reserved = 0

section
variable {W : Type} {sj : Simdjson W} {base : Native W} {tape : W → Nat → Option Json}
  {blocks : W → Set Nat} {root u : Json} {slot : UInt32} {entry₀ entry : DocEntry}
  {s : Runtime W} {view : ValueView} {j n tag : Nat} {iter : Iter}

/-- The iterator has moved on, and its lease with it. -/
theorem Holding.moved (h : Holding tape blocks root slot entry₀ n tag iter entry s) {words : Nat}
    {indices : Finset Nat} {next : Nat} (hnext : next = iter.state0 + words) {s' : Runtime W}
    (hready : Ready tape blocks root iter.doc slot { entry with
      descendantIndices := indices
      iterLeases := entry.iterLeases.insert iter.index ⟨next, iter.state1, tag⟩ } s') :
    Holding tape blocks root slot entry₀ n tag (iter.moved words) { entry with
      descendantIndices := indices
      iterLeases := entry.iterLeases.insert iter.index ⟨next, iter.state1, tag⟩ } s' := by
  refine ⟨hready, h.grown.move h.fresh h.lease indices, h.fresh, ?_, h.tag_eq, h.reserved_eq⟩
  rw [hnext]
  exact AList.lookup_insert _

/-- What else the walk makes of the document does not touch the iterator. -/
theorem Holding.grow (h : Holding tape blocks root slot entry₀ n tag iter entry s) {m : Nat}
    {entry' : DocEntry} {s' : Runtime W} (hready : Ready tape blocks root iter.doc slot entry' s')
    (hgrown : Grown m entry entry') :
    Holding tape blocks root slot entry₀ (n + m) tag iter entry' s' :=
  ⟨hready, h.grown.trans hgrown, h.fresh, hgrown.kept _ _ h.lease, h.tag_eq, h.reserved_eq⟩

variable (hbase : Lifecycle base tape (fun _ => True) fun _ => False)
  (hsj : sj.Faithful base.memory tape) (hblocks : Allocates base blocks)
include hbase hsj hblocks

/-- **An iterator is made while ids remain.** -/
theorem wp_newIter (h : Ready tape blocks root view.doc slot entry s)
    (hview : Resolves s view slot entry j) (hat : root.At j u) (hhint : view.kindHint = u.kindCode)
    {kind : ValueKind} (hkind : u.kindCode = kind.code) {width : Nat}
    {read : ElementRead (Nat × Nat)}
    (hread : readElement sj (sj.document s.native entry.nativePtr) s.native entry.nativePtr j read =
      pure (j + 1, j + 1 + width)) {new : Option ValueView → RuntimeM W Iter}
    (hnew : new (some view) = withResolvedView (some view) fun jsonIndex doc => do
      requireKind (bridge sj base) kind jsonIndex
      let (state0, state1) ← onDoc (nativeIterBounds (bridge sj base) read · jsonIndex)
      let leaseId ← allocLease tag state0 state1
      pure ⟨doc, state0, state1, leaseId, tag, 0⟩)
    (call : Call) (hexec : exec (bridge sj base) call = .iter <$> new (some view))
    (hfree : ∀ handle, call ≠ .docFree handle) :
    wp (newIter kind new ⟨openDoc, view⟩)
      (fun result s' => result = .error (.status .internal) ∧
          leaseIds ≤ entry.iterLeases.keys.length ∨
        ∃ iter entry', result = .ok iter ∧ iter.doc = view.doc ∧ iter.state0 = j + 1 ∧
          iter.state1 = j + 1 + width ∧
          Holding tape blocks root slot entry 1 tag iter entry' s')
      (fun _ _ => False) s := by
  have hmade : wp (new (some view))
      (fun iter s' => ∃ entry', entry.iterLeases.keys.length < leaseIds ∧
        iter = ⟨view.doc, j + 1, j + 1 + width, iter.index, tag, 0⟩ ∧
        entry.Leased ⟨j + 1, j + 1 + width, tag⟩ iter.index entry' ∧
        s'.registry.docs = s.registry.docs.set (slotIndex slot) (.occupied entry'))
      (fun rc _ => rc = .internal ∧ leaseIds ≤ entry.iterLeases.keys.length) s := by
    rw [hnew, wp_withResolvedView_of_resolves hview]
    refine wp_mono (wp_iterNew_entry hsj h.root_eq hat hkind hread) ?_ ?_
    · rintro iter ⟨entry', w⟩ ⟨hroom, rfl, hiter, hleased⟩
      exact ⟨entry', hroom, hiter, hleased, rfl⟩
    · rintro rc - ⟨rfl, -, hfull⟩
      exact ⟨rfl, Nat.not_lt.mp hfull⟩
  have hright : ¬ view.kindHint ≠ kind.code := not_not.mpr (hhint.trans hkind)
  rw [newIter, usableDoc_open]
  dsimp only
  rw [if_neg hright, wp_bind, wp_binding]
  refine wp_mono (h.call (bridge_tapeSafe hbase hsj) (allocates_bridge sj hblocks) call hexec hfree
    hmade) ?_ ?_
  · rintro iter s' ⟨hstands, entry', hroom, hiter, hleased, hdocs⟩
    refine Or.inr ⟨iter, entry', rfl, ?_⟩
    have hself : entry'.nativePtr = entry.nativePtr ∧ entry'.generation = entry.generation ∧
        entry'.iterLeases.lookup iter.index = some ⟨j + 1, j + 1 + width, tag⟩ := by
      obtain rfl := hleased.entry_eq
      exact ⟨rfl, rfl, AList.lookup_insert _⟩
    have hready := hstands.wrote h.live hdocs hself.1 hself.2.1
    generalize hindex : iter.index = index at hiter hleased hself
    subst hiter
    exact ⟨rfl, rfl, rfl, hready, grown_of_leased hleased hroom,
      AList.lookup_eq_none.mpr hleased.free, hself.2.2, rfl, rfl⟩
  · rintro rc s' ⟨-, rfl, hfull⟩
    exact Or.inl ⟨rfl, hfull⟩

/-! ## Rounds -/

/-- **A call of `next`** leaves the document with the entry its work on the document leaves. -/
theorem wp_iterNext (h : Holding tape blocks root slot entry₀ n tag iter entry s) (call : Call)
    {α : Type} {advance : DocM W α} {reply : α → Reply}
    (hexec : exec (bridge sj base) call = reply <$> withIterDoc iter tag advance)
    (hfree : ∀ handle, call ≠ .docFree handle) {step : α} {entry' : DocEntry}
    (hadvance : wp advance (fun a e => a = step ∧ e = (entry', s.native)) (fun _ _ => False)
      (entry, s.native))
    (hptr : entry'.nativePtr = entry.nativePtr)
    (hgeneration : entry'.generation = entry.generation) :
    wp (withIterDoc iter tag advance)
      (fun a s' => a = step ∧ Ready tape blocks root iter.doc slot entry' s') (fun _ _ => False)
      s := by
  have hnext : wp (withIterDoc iter tag advance)
      (fun a s' => a = step ∧
        s'.registry.docs = s.registry.docs.set (slotIndex slot) (.occupied entry'))
      (fun _ _ => False) s := by
    rw [wp_withIterDoc_of_lease h.safe h.reserved_eq h.tag_eq h.live h.lease]
    refine wp_mono hadvance ?_ fun _ _ => id
    rintro a e ⟨rfl, rfl⟩
    exact ⟨rfl, rfl⟩
  refine wp_mono (h.call (bridge_tapeSafe hbase hsj) (allocates_bridge sj hblocks) call hexec hfree
    hnext) ?_ fun _ _ h => h.2
  rintro a s' ⟨hstands, rfl, hdocs⟩
  exact ⟨rfl, hstands.wrote h.live hdocs hptr hgeneration⟩

theorem wp_arrayIterNext (h : Holding tape blocks root slot entry₀ n arrayIterTag iter entry s)
    {container : Nat} {before after : List Json}
    (hat : root.At container (.array (before ++ after)))
    (h0 : iter.state0 = container + 1 + itemsWidth before)
    (h1 : iter.state1 = container + 1 + itemsWidth (before ++ after)) :
    wp (arrayIterNext (bridge sj base) (some iter))
      (fun step s' => step = arrayStep iter after ∧
        Ready tape blocks root iter.doc slot (entry.arrayStep iter after) s')
      (fun _ _ => False) s := by
  have hsame : (entry.arrayStep iter after).nativePtr = entry.nativePtr ∧
      (entry.arrayStep iter after).generation = entry.generation := by
    cases after <;> exact ⟨rfl, rfl⟩
  exact wp_iterNext hbase hsj hblocks h (.arrayIterNext (some iter)) rfl (fun _ h => by cases h)
    (wp_arrayIterAdvance_entry hsj h.root_eq h.docOk hat h0 h1 h.lease) hsame.1 hsame.2

theorem wp_objectIterNext (h : Holding tape blocks root slot entry₀ n objectIterTag iter entry s)
    {container : Nat} {before after : List (Bytes × Json)}
    (hat : root.At container (.object (before ++ after)))
    (h0 : iter.state0 = container + 1 + fieldsWidth before)
    (h1 : iter.state1 = container + 1 + fieldsWidth (before ++ after)) :
    wp (objectIterNext (bridge sj base) (some iter))
      (fun step s' => step = objectStep iter after ∧
        Ready tape blocks root iter.doc slot (entry.objectStep iter after) s')
      (fun _ _ => False) s := by
  have hsame : (entry.objectStep iter after).nativePtr = entry.nativePtr ∧
      (entry.objectStep iter after).generation = entry.generation := by
    rcases after with _ | ⟨⟨key, v⟩, after⟩ <;> exact ⟨rfl, rfl⟩
  exact wp_iterNext hbase hsj hblocks h (.objectIterNext (some iter)) rfl (fun _ h => by cases h)
    (wp_objectIterAdvance_entry hsj h.root_eq h.docOk hat h0 h1 h.lease) hsame.1 hsame.2

/-- `ArrayIter.Next` finds the iterator at its end, or moves it past an item. -/
theorem wp_arrayNext (h : Holding tape blocks root slot entry₀ n arrayIterTag iter entry s)
    {container : Nat} {before after : List Json}
    (hat : root.At container (.array (before ++ after)))
    (h0 : iter.state0 = container + 1 + itemsWidth before)
    (h1 : iter.state1 = container + 1 + itemsWidth (before ++ after)) {current : Element}
    {Q : Bool × ArrayIter → Runtime W → Prop} {E : Stop → Runtime W → Prop}
    (hdone : after = [] → ∀ s', Ready tape blocks root iter.doc slot entry s' →
      Q (false, ⟨openDoc, iter, .zero, true, none⟩) s')
    (hmore : ∀ v rest, after = v :: rest → ∀ entry' s',
      Holding tape blocks root slot entry₀ n arrayIterTag (iter.moved v.width) entry' s' →
      Resolves s' (elementView iter.doc iter.state0 v) slot entry' iter.state0 →
      Q (true, ⟨openDoc, iter.moved v.width, ⟨openDoc, elementView iter.doc iter.state0 v⟩,
        false, none⟩) s') :
    wp (ArrayIter.next (bridge sj base) ⟨openDoc, iter, current, false, none⟩) Q E s := by
  rw [ArrayIter.next, if_neg (by simp), usableIteratorBindings_open]
  dsimp only
  rw [wp_bind, wp_binding]
  refine wp_mono (wp_arrayIterNext hbase hsj hblocks h hat h0 h1) ?_ fun _ _ => False.elim
  rintro step s' ⟨rfl, hready⟩
  cases after with
  | nil => exact hdone rfl s' hready
  | cons v rest =>
    refine hmore v rest rfl _ s' (h.moved rfl hready) (hready.resolves ?_ ?_)
    · exact h0 ▸ hat.item
    · exact Finset.mem_insert_self _ _

/-- `ObjectIter.Next` finds the iterator at its end, or reads the key and moves past the
value. -/
theorem wp_objectNext (h : Holding tape blocks root slot entry₀ n objectIterTag iter entry s)
    {container : Nat} {before after : List (Bytes × Json)}
    (hat : root.At container (.object (before ++ after)))
    (h0 : iter.state0 = container + 1 + fieldsWidth before)
    (h1 : iter.state1 = container + 1 + fieldsWidth (before ++ after)) {current : Element}
    {currentKey : Bytes} {Q : Bool × ObjectIter → Runtime W → Prop} {E : Stop → Runtime W → Prop}
    (hdone : after = [] → ∀ s', Ready tape blocks root iter.doc slot entry s' →
      Q (false, ⟨openDoc, iter, .zero, [], true, none⟩) s')
    (hmore : ∀ key v rest, after = (key, v) :: rest → ∀ entry' s',
      Holding tape blocks root slot entry₀ n objectIterTag (iter.moved (1 + v.width)) entry' s' →
      Resolves s' (elementView iter.doc (iter.state0 + 1) v) slot entry' (iter.state0 + 1) →
      Q (true, ⟨openDoc, iter.moved (1 + v.width),
        ⟨openDoc, elementView iter.doc (iter.state0 + 1) v⟩, key, false, none⟩) s') :
    wp (ObjectIter.next (bridge sj base) ⟨openDoc, iter, current, currentKey, false, none⟩) Q E
      s := by
  rw [ObjectIter.next, if_neg (by simp), usableIteratorBindings_open]
  dsimp only
  rw [wp_bind, wp_binding]
  refine wp_mono (wp_objectIterNext hbase hsj hblocks h hat h0 h1) ?_ fun _ _ => False.elim
  rintro step s₁ ⟨rfl, hready⟩
  rcases after with _ | ⟨⟨key, v⟩, rest⟩
  · exact hdone rfl s₁ hready
  · have hkeyAt : root.At iter.state0 (.string key) := h0 ▸ hat.key
    have hkey := hready.resolves hkeyAt (Finset.mem_insert_of_mem (Finset.mem_insert_self _ _))
    dsimp only [objectStep]
    rw [if_neg (by decide), wp_bind]
    refine wp_mono (wp_copyString hbase hsj hblocks hready hkey hkeyAt) ?_ fun _ _ => False.elim
    rintro result s' ⟨rfl, hready'⟩
    refine hmore key v rest rfl _ s' (h.moved (Nat.add_assoc ..) hready') (hready'.resolves ?_ ?_)
    · exact h0 ▸ hat.value
    · exact Finset.mem_insert_self _ _

/-- **What a walk owes for an element**: its Go value, with the document as it was but for the
leases; or it stops, if there are not ids enough for its containers. -/
def Walks (tape : W → Nat → Option Json) (blocks : W → Set Nat) (root : Json) (slot : UInt32)
    (walk : Element → GoM W GoValue) (u : Json) : Prop :=
  ∀ (s : Runtime W) entry view j, Ready tape blocks root view.doc slot entry s →
    Resolves s view slot entry j → root.At j u → view.kindHint = u.kindCode →
    wp (walk ⟨openDoc, view⟩)
      (fun value s' => value = u.toGo ∧ ∃ entry', Ready tape blocks root view.doc slot entry' s' ∧
        Grown (containers u) entry entry')
      (fun stop _ => stop = .error (.status .internal) ∧ Lacks entry (containers u)) s

/-- **The rounds over an array**, from any of its items on. -/
theorem wp_arrayRounds {walk : Element → GoM W GoValue} {container : Nat} {after : List Json} :
    ∀ {before : List Json} {fuel n : Nat} {iter : Iter} {current : Element} {entry : DocEntry}
      {s : Runtime W} {values : List GoValue}, after.length < fuel →
      (∀ v ∈ after, Walks tape blocks root slot walk v) →
      Holding tape blocks root slot entry₀ n arrayIterTag iter entry s →
      root.At container (.array (before ++ after)) →
      iter.state0 = container + 1 + itemsWidth before →
      iter.state1 = container + 1 + itemsWidth (before ++ after) →
      wp (arrayRounds (bridge sj base) walk fuel ⟨openDoc, iter, current, false, none⟩ values)
        (fun result s' => result = values ++ itemsToGo after ∧
          ∃ entry', Ready tape blocks root iter.doc slot entry' s' ∧
            Grown (n + itemsContainers after) entry₀ entry')
        (fun stop _ => stop = .error (.status .internal) ∧
          Lacks entry₀ (n + itemsContainers after)) s := by
  induction after with
  | nil =>
    intro before fuel n iter current entry s values hfuel hwalk h hat h0 h1
    cases fuel with
    | zero => cases hfuel
    | succ fuel =>
      rw [arrayRounds, wp_bind]
      refine wp_arrayNext hbase hsj hblocks h hat h0 h1 (fun _ s' hready => ?_)
        fun _ _ hmore => by cases hmore
      refine ⟨?_, entry, hready, h.grown⟩
      rw [itemsToGo, List.append_nil]
  | cons v after ih =>
    intro before fuel n iter current entry s values hfuel hwalk h hat h0 h1
    cases fuel with
    | zero => cases hfuel
    | succ fuel =>
      rw [arrayRounds, wp_bind]
      refine wp_arrayNext hbase hsj hblocks h hat h0 h1 (fun hdone => by cases hdone) ?_
      rintro v' rest hsplit entry₁ s₁ h₁ hview
      obtain ⟨rfl, rfl⟩ := List.cons.inj hsplit
      have hv : root.At iter.state0 v := h0 ▸ hat.item
      dsimp only
      rw [if_pos rfl, wp_bind]
      refine wp_mono (hwalk v List.mem_cons_self s₁ entry₁ _ _ h₁.toReady hview hv rfl) ?_ ?_
      · rintro value s₂ ⟨rfl, entry₂, hready, hgrown⟩
        have hat' : root.At container (.array ((before ++ [v]) ++ after)) := by
          rwa [List.append_assoc]
        refine wp_mono (ih (by simpa using hfuel) (fun w hw => hwalk w (List.mem_cons_of_mem v hw))
          (h₁.grow hready hgrown) hat' ?_ ?_) ?_ ?_
        · show iter.state0 + v.width = _
          simp only [h0, itemsWidth_append, itemsWidth, Nat.add_zero, Nat.add_assoc]
        · rw [List.append_assoc]
          exact h1
        · rintro result s₃ ⟨rfl, entry₃, hready₃, hgrown₃⟩
          refine ⟨?_, entry₃, hready₃, ?_⟩
          · rw [itemsToGo, List.append_assoc, List.singleton_append]
          · rwa [itemsContainers, ← Nat.add_assoc]
        · rintro stop s₃ ⟨rfl, hfull⟩
          refine ⟨rfl, ?_⟩
          rwa [itemsContainers, ← Nat.add_assoc n]
      · rintro stop s₂ ⟨rfl, hpos, hfull⟩
        have hcount := h₁.grown.count
        rw [itemsContainers]
        exact ⟨rfl, by omega, by omega⟩

/-- **The rounds over an object**, from any of its fields on. -/
theorem wp_objectRounds {walk : Element → GoM W GoValue} {container : Nat}
    {after : List (Bytes × Json)} :
    ∀ {before : List (Bytes × Json)} {fuel n : Nat} {iter : Iter} {current : Element}
      {currentKey : Bytes} {entry : DocEntry} {s : Runtime W} {values : List (Bytes × GoValue)},
      after.length < fuel →
      (∀ key v, (key, v) ∈ after → Walks tape blocks root slot walk v) →
      Holding tape blocks root slot entry₀ n objectIterTag iter entry s →
      root.At container (.object (before ++ after)) →
      iter.state0 = container + 1 + fieldsWidth before →
      iter.state1 = container + 1 + fieldsWidth (before ++ after) →
      wp (objectRounds (bridge sj base) walk fuel ⟨openDoc, iter, current, currentKey, false, none⟩
          values)
        (fun result s' => result = fieldsToGo values after ∧
          ∃ entry', Ready tape blocks root iter.doc slot entry' s' ∧
            Grown (n + fieldsContainers after) entry₀ entry')
        (fun stop _ => stop = .error (.status .internal) ∧
          Lacks entry₀ (n + fieldsContainers after)) s := by
  induction after with
  | nil =>
    intro before fuel n iter current currentKey entry s values hfuel hwalk h hat h0 h1
    cases fuel with
    | zero => cases hfuel
    | succ fuel =>
      rw [objectRounds, wp_bind]
      refine wp_objectNext hbase hsj hblocks h hat h0 h1 (fun _ s' hready => ?_)
        fun _ _ _ hmore => by cases hmore
      refine ⟨?_, entry, hready, h.grown⟩
      rw [fieldsToGo]
  | cons field after ih =>
    intro before fuel n iter current currentKey entry s values hfuel hwalk h hat h0 h1
    obtain ⟨key, v⟩ := field
    cases fuel with
    | zero => cases hfuel
    | succ fuel =>
      rw [objectRounds, wp_bind]
      refine wp_objectNext hbase hsj hblocks h hat h0 h1 (fun hdone => by cases hdone) ?_
      rintro key' v' rest hsplit entry₁ s₁ h₁ hview
      obtain ⟨hfield, rfl⟩ := List.cons.inj hsplit
      obtain ⟨rfl, rfl⟩ := Prod.mk.inj hfield
      have hv : root.At (iter.state0 + 1) v := h0 ▸ hat.value
      dsimp only
      rw [if_pos rfl, wp_bind]
      refine wp_mono (hwalk key v List.mem_cons_self s₁ entry₁ _ _ h₁.toReady hview hv rfl) ?_ ?_
      · rintro value s₂ ⟨rfl, entry₂, hready, hgrown⟩
        have hat' : root.At container (.object ((before ++ [(key, v)]) ++ after)) := by
          rwa [List.append_assoc]
        refine wp_mono (ih (by simpa using hfuel)
          (fun key' w hw => hwalk key' w (List.mem_cons_of_mem _ hw)) (h₁.grow hready hgrown) hat'
          ?_ ?_) ?_ ?_
        · show iter.state0 + (1 + v.width) = _
          simp only [h0, fieldsWidth_append, fieldsWidth, Nat.add_zero, Nat.add_assoc]
        · rw [List.append_assoc]
          exact h1
        · rintro result s₃ ⟨rfl, entry₃, hready₃, hgrown₃⟩
          refine ⟨?_, entry₃, hready₃, ?_⟩
          · rw [fieldsToGo]
          · rwa [fieldsContainers, ← Nat.add_assoc]
        · rintro stop s₃ ⟨rfl, hfull⟩
          refine ⟨rfl, ?_⟩
          rwa [fieldsContainers, ← Nat.add_assoc n]
      · rintro stop s₂ ⟨rfl, hpos, hfull⟩
        have hcount := h₁.grown.count
        rw [fieldsContainers]
        exact ⟨rfl, by omega, by omega⟩

/-! ## The walk -/

omit hbase hsj hblocks in
theorem length_le_itemsWidth (items : List Json) : items.length ≤ itemsWidth items := by
  induction items with
  | nil => exact Nat.zero_le _
  | cons v items ih =>
    have hpos := v.width_pos
    rw [List.length_cons, itemsWidth]
    omega

omit hbase hsj hblocks in
theorem length_le_fieldsWidth (fields : List (Bytes × Json)) :
    fields.length ≤ fieldsWidth fields := by
  induction fields with
  | nil => exact Nat.zero_le _
  | cons field fields ih =>
    obtain ⟨key, v⟩ := field
    rw [List.length_cons, fieldsWidth]
    omega

omit hbase hsj hblocks in
theorem width_le_itemsWidth {items : List Json} {v : Json} (hv : v ∈ items) :
    v.width ≤ itemsWidth items := by
  obtain ⟨before, after, rfl⟩ := List.append_of_mem hv
  rw [itemsWidth_append, itemsWidth]
  omega

omit hbase hsj hblocks in
theorem width_le_fieldsWidth {fields : List (Bytes × Json)} {key : Bytes} {v : Json}
    (hv : (key, v) ∈ fields) : v.width ≤ fieldsWidth fields := by
  obtain ⟨before, after, rfl⟩ := List.append_of_mem hv
  rw [fieldsWidth_append, fieldsWidth]
  omega

omit hbase hsj hblocks in
/-- The walk goes by the hint of the view, which names the kind of the element. -/
theorem wp_walk {fuel : Nat} (hhint : view.kindHint = u.kindCode)
    {Q : GoValue → Runtime W → Prop} {E : Stop → Runtime W → Prop} :
    wp (materializeElementViaAccessors (bridge sj base) (fuel + 1) ⟨openDoc, view⟩) Q E s ↔
      wp (switchKind (bridge sj base) (materializeElementViaAccessors (bridge sj base) fuel) fuel
        ⟨openDoc, view⟩ (mapElementType u.elementType)) Q E s := by
  have hvalid : ¬ view.kindHint = ValueKind.invalid.code := by
    rw [hhint, kindCode]
    generalize u.elementType = type
    cases type <;> decide
  have hkind : valueKind view.kindHint = mapElementType u.elementType := by
    rw [hhint, kindCode, valueKind_code]
  rw [materializeElementViaAccessors, if_neg hvalid, wp_bind, wp_pure, hkind]

omit hbase hsj hblocks in
/-- A walk that needs fuel has some. -/
theorem walks_of_succ {fuel : Nat} (hfuel : u.width ≤ fuel)
    (h : ∀ fuel, u.width ≤ fuel + 1 →
      Walks tape blocks root slot (materializeElementViaAccessors (bridge sj base) (fuel + 1)) u) :
    Walks tape blocks root slot (materializeElementViaAccessors (bridge sj base) fuel) u := by
  have hpos := u.width_pos
  obtain ⟨fuel, rfl⟩ := Nat.exists_eq_succ_of_ne_zero (n := fuel) (by omega)
  exact h fuel hfuel

omit hbase hsj hblocks in
/-- **A scalar is read in one step**, which costs no lease. -/
theorem walks_scalar {fuel : Nat} (hfuel : u.width ≤ fuel) (hnone : containers u = 0)
    (h : ∀ (fuel : Nat) s entry view j, Ready tape blocks root view.doc slot entry s →
      Resolves s view slot entry j → root.At j u → view.kindHint = u.kindCode →
      wp (switchKind (bridge sj base) (materializeElementViaAccessors (bridge sj base) fuel) fuel
          ⟨openDoc, view⟩ (mapElementType u.elementType))
        (fun value s' => value = u.toGo ∧ Ready tape blocks root view.doc slot entry s')
        (fun _ _ => False) s) :
    Walks tape blocks root slot (materializeElementViaAccessors (bridge sj base) fuel) u := by
  refine walks_of_succ hfuel fun fuel _ s entry view j hready hview hat hhint => ?_
  rw [wp_walk hhint]
  refine wp_mono (h fuel s entry view j hready hview hat hhint) ?_ fun _ _ => False.elim
  rintro value s' ⟨rfl, hready'⟩
  exact ⟨rfl, entry, hready', hnone ▸ Grown.refl entry⟩

omit hbase hblocks in
/-- What is read goes into the value. -/
theorem wp_readInto (h : Ready tape blocks root view.doc slot entry s)
    (hview : Resolves s view slot entry j) {α : Type} {read : ElementRead α} {a : α}
    (hread : readElement sj (sj.document s.native entry.nativePtr) s.native entry.nativePtr j read =
      pure a) (into : α → GoValue) :
    wp (into <$> access ⟨openDoc, view⟩ (readView (bridge sj base) read))
      (fun value s' => value = into a ∧ Ready tape blocks root view.doc slot entry s')
      (fun _ _ => False) s := by
  rw [wp_map]
  exact wp_mono (wp_accessRead hsj h hview hread) (fun _ _ h => ⟨congrArg into h.1, h.2⟩)
    fun _ _ => id

/-- **The walk with the accessors** builds the Go value of any element. -/
theorem walks_via_accessors (u : Json) : ∀ {fuel : Nat}, u.width ≤ fuel →
    Walks tape blocks root slot (materializeElementViaAccessors (bridge sj base) fuel) u := by
  induction u with
  | null =>
    refine fun hfuel => walks_scalar hfuel rfl fun fuel s entry view j h hview hat hhint => ?_
    dsimp only [Json.elementType, mapElementType, switchKind]
    rw [wp_bind]
    refine wp_mono (wp_accessRead (a := true) hsj h hview ?_) ?_ fun _ _ => id
    · rw [readElement, (hsj.shows _ _ _ _ _ h.root_eq hat).2]
    · rintro isNull s' ⟨rfl, hready⟩
      exact ⟨rfl, hready⟩
  | bool b =>
    refine fun hfuel => walks_scalar hfuel rfl fun fuel s entry view j h hview hat hhint => ?_
    refine wp_readInto hsj h hview ?_ GoValue.bool
    rw [readElement, (hsj.shows _ _ _ _ _ h.root_eq hat).2]
    rfl
  | int64 n =>
    refine fun hfuel => walks_scalar hfuel rfl fun fuel s entry view j h hview hat hhint => ?_
    refine wp_readInto hsj h hview ?_ GoValue.int64
    rw [readElement, (hsj.shows _ _ _ _ _ h.root_eq hat).2]
    rfl
  | uint64 n =>
    refine fun hfuel => walks_scalar hfuel rfl fun fuel s entry view j h hview hat hhint => ?_
    refine wp_readInto hsj h hview ?_ GoValue.uint64
    rw [readElement, (hsj.shows _ _ _ _ _ h.root_eq hat).2]
    rfl
  | double bits =>
    refine fun hfuel => walks_scalar hfuel rfl fun fuel s entry view j h hview hat hhint => ?_
    dsimp only [Json.elementType, mapElementType, switchKind]
    rw [wp_map]
    exact wp_mono (wp_getFloat64_double hsj h hview hat hhint)
      (fun _ _ h => ⟨congrArg _ h.1, h.2⟩) fun _ _ => id
  | string bytes =>
    refine fun hfuel => walks_scalar hfuel rfl fun fuel s entry view j h hview hat hhint => ?_
    dsimp only [Json.elementType, mapElementType, switchKind]
    rw [wp_map]
    exact wp_mono (wp_copied (wp_copyString hbase hsj hblocks h hview hat))
      (fun _ _ h => ⟨congrArg _ h.1, h.2⟩) fun _ _ => id
  | bigint digits =>
    refine fun hfuel => walks_scalar hfuel rfl fun fuel s entry view j h hview hat hhint => ?_
    dsimp only [Json.elementType, mapElementType, switchKind]
    rw [wp_map]
    exact wp_mono (wp_copied (wp_copyBigInt hbase hsj hblocks h hview hat))
      (fun _ _ h => ⟨congrArg _ h.1, h.2⟩) fun _ _ => id
  | array items ih =>
    refine fun hfuel => walks_of_succ hfuel fun fuel hfuel s entry view j h hview hat hhint => ?_
    have hkind : (Json.array items).kindCode = ValueKind.array.code := rfl
    have hall : root.At j (.array ([] ++ items)) := hat
    have hlength := length_le_itemsWidth items
    rw [Json.width] at hfuel
    rw [wp_walk hhint]
    dsimp only [Json.elementType, mapElementType, switchKind]
    rw [wp_bind, asArray, wp_asKind hkind hhint, wp_bind, arrayIter, wp_bind]
    refine wp_mono (wp_newIter hbase hsj hblocks h hview hat hhint hkind
      (readElement_arrayIterBounds hsj h.root_eq hat) rfl (.arrayIterNew (some view)) rfl
      fun _ h => by cases h) ?_ fun _ _ => False.elim
    rintro result s₁ (⟨rfl, hfull⟩ | ⟨iter, entry₁, rfl, hdoc, h0, h1, hheld⟩)
    · -- the first round finds the error
      obtain ⟨fuel, rfl⟩ := Nat.exists_eq_succ_of_ne_zero (n := fuel) (by omega)
      rw [containers]
      exact ⟨rfl, by omega, by omega⟩
    · have hwalk (v : Json) (hv : v ∈ items) : Walks tape blocks root slot
          (materializeElementViaAccessors (bridge sj base) fuel) v :=
        ih v hv (by have := width_le_itemsWidth hv; omega)
      dsimp only
      rw [wp_pure, wp_bind]
      refine wp_mono (wp_arrayRounds hbase hsj hblocks (by omega) hwalk hheld hall h0 h1) ?_
        fun _ _ => id
      rintro values s' ⟨rfl, entry', hready, hgrown⟩
      rw [hdoc] at hready
      exact ⟨rfl, entry', hready, hgrown⟩
  | object fields ih =>
    refine fun hfuel => walks_of_succ hfuel fun fuel hfuel s entry view j h hview hat hhint => ?_
    have hkind : (Json.object fields).kindCode = ValueKind.object.code := rfl
    have hall : root.At j (.object ([] ++ fields)) := hat
    have hlength := length_le_fieldsWidth fields
    rw [Json.width] at hfuel
    rw [wp_walk hhint]
    dsimp only [Json.elementType, mapElementType, switchKind]
    rw [wp_bind, asObject, wp_asKind hkind hhint, wp_bind, objectIter, wp_bind]
    refine wp_mono (wp_newIter hbase hsj hblocks h hview hat hhint hkind
      (readElement_objectIterBounds hsj h.root_eq hat) rfl (.objectIterNew (some view)) rfl
      fun _ h => by cases h) ?_ fun _ _ => False.elim
    rintro result s₁ (⟨rfl, hfull⟩ | ⟨iter, entry₁, rfl, hdoc, h0, h1, hheld⟩)
    · obtain ⟨fuel, rfl⟩ := Nat.exists_eq_succ_of_ne_zero (n := fuel) (by omega)
      rw [containers]
      exact ⟨rfl, by omega, by omega⟩
    · have hwalk (key : Bytes) (v : Json) (hv : (key, v) ∈ fields) : Walks tape blocks root slot
          (materializeElementViaAccessors (bridge sj base) fuel) v :=
        ih key v hv (by have := width_le_fieldsWidth hv; omega)
      dsimp only
      rw [wp_pure, wp_bind]
      refine wp_mono (wp_objectRounds hbase hsj hblocks (by omega) hwalk hheld hall h0 h1) ?_
        fun _ _ => id
      rintro values s' ⟨rfl, entry', hready, hgrown⟩
      rw [hdoc] at hready
      exact ⟨rfl, entry', hready, hgrown⟩

end

/-! ## Both ways -/

/-- **Of several fields with one key the last is kept.** -/
theorem mapGet_fieldsToGo (fields : List (Bytes × Json)) (entries : List (Bytes × GoValue))
    (key : Bytes) :
    mapGet (fieldsToGo entries fields) key =
      ((fields.filter fun field => field.1 = key).getLast?.map fun field => field.2.toGo).or
        (mapGet entries key) := by
  induction fields generalizing entries with
  | nil => rw [fieldsToGo, List.filter_nil, List.getLast?_nil, Option.map_none, Option.none_or]
  | cons field fields ih =>
    obtain ⟨k, v⟩ := field
    rw [fieldsToGo, ih, mapGet_mapSet]
    by_cases hkey : k = key
    · rw [if_pos hkey, List.filter_cons_of_pos (by simpa using hkey), List.getLast?_cons]
      cases (fields.filter fun field => field.1 = key).getLast? <;> rfl
    · rw [if_neg hkey, List.filter_cons_of_neg (by simpa using hkey)]

section
variable {W : Type} {sj : Simdjson W} {base : Native W} {tape : W → Nat → Option Json}
  {blocks : W → Set Nat} {root u : Json} {slot : UInt32} {entry : DocEntry} {s : Runtime W}
  {view : ValueView} {j : Nat}

/-- **The frames of an element** are those of a tree with its values. -/
theorem materializeBuild_frames (hsj : sj.Faithful base.memory tape)
    (hview : Resolves s view slot entry j) (hroot : tape s.native entry.nativePtr = some root)
    (hat : root.At j u) (hnarrow : u.Narrow) (hlimit : ¬ u.Reaches maxSupportedDepth) :
    ∃ tree, FrameTreeOf (base.memory s.native) .empty u tree ∧
      (materializeBuild (bridge sj base) (some view)).run s = .ok tree.preorder s := by
  have hpushes := appendMaterializeFrame_spec (base.memory s.native)
    (sj.document s.native entry.nativePtr) u j .empty 0 (hsj.shows _ _ _ _ _ hroot hat) []
  have hpushed : wp (appendMaterializeFrame (sj.document s.native entry.nativePtr) j .empty 0)
      (fun _ frames => ∃ tree, FrameTreeOf (base.memory s.native) .empty u tree ∧
        frames = tree.preorder) (fun _ _ => False) [] := by
    refine wp_mono hpushes ?_ ?_
    · rintro - frames ⟨-, -, tree, htree, rfl⟩
      exact ⟨tree, htree, List.nil_append _⟩
    · rintro rc - (⟨-, hdeep⟩ | ⟨-, -, hwide⟩)
      · exact hlimit hdeep
      · exact hwide hnarrow
  obtain ⟨_, frames, happend, tree, htree, rfl⟩ := exists_run_ok hpushed
  have hnonempty : (!tree.preorder.isEmpty) = true := by
    have hpos := tree.preorder_length_pos
    cases hframes : tree.preorder with
    | nil =>
      rw [hframes] at hpos
      cases hpos
    | cons => rfl
  have hread : readElement sj (sj.document s.native entry.nativePtr) s.native entry.nativePtr j
      .materializeBuild = pure tree.preorder := by
    rw [readElement, psimdjsonMaterializeBuild, if_neg Bool.false_ne_true, happend]
    exact if_pos hnonempty
  refine ⟨tree, htree, run_eq_ok ?_⟩
  rw [materializeBuild, wp_withResolvedView_of_resolves hview, wp_onDoc, nativeMaterializeBuild,
    wp_bind]
  refine wp_of_run_ok (bridge_read_run hsj hroot hread) ?_
  rw [wp_orInternal]
  exact ⟨fun _ => ⟨rfl, read_eq hview.live⟩, fun hempty => absurd hnonempty hempty⟩

/-- **The fast materializer equals the accessor materializer.**  From any reachable state, for
any view of an element with its kind, of whatever shape: the element's frames are those of a
tree with a node for each value, each of which counts its children; they decode to the
element's Go value, if the Go heap has the memory that it takes; and that is what the walk with
the accessors builds, unless the document runs out of ids for the walk's iterators, when it builds
nothing and returns an error.  In the value each key has the last field with that key. -/
theorem materializers_agree (hbase : Lifecycle base tape (fun _ => True) fun _ => False)
    (hsj : sj.Faithful base.memory tape) (hblocks : Allocates base blocks)
    (h : Reachable (bridge sj base) s) (hview : Resolves s view slot entry j)
    (hroot : tape s.native entry.nativePtr = some root) (hat : root.At j u)
    (hhint : view.kindHint = u.kindCode) (hnarrow : u.Narrow)
    (hlimit : ¬ u.Reaches maxSupportedDepth) :
    (∃ tree : Rose Frame, Mirrors u tree ∧
      (materializeBuild (bridge sj base) (some view)).run s = .ok tree.preorder s ∧
      ∀ fuel, tree.preorder.length < fuel → ∀ {H : Type} (heap : GoHeap H) (h : H),
        buildAnyFromFrames heap (base.memory s.native) tree.preorder fuel h =
          (heap.grants (requests tree.preorder) h).elim .outOfMemory
            fun h' => .ok (u.toGo, h')) ∧
    (∀ fuel, u.width ≤ fuel →
      let walk := materializeElementViaAccessors (bridge sj base) fuel ⟨openDoc, view⟩
      let enough := containers u = 0 ∨ entry.iterLeases.keys.length + containers u ≤ leaseIds
      (enough → ∃ s', walk.run s = .ok u.toGo s') ∧
      (¬ enough → ∃ s', walk.run s = .error (.error (.status .internal)) s')) ∧
    ∀ fields key, mapGet (fieldsToGo [] fields) key =
      (fields.filter fun field => field.1 = key).getLast?.map fun field => field.2.toGo := by
  refine ⟨?_, fun fuel hfuel => ?_, fun fields key => ?_⟩
  · obtain ⟨tree, htree, hrun⟩ := materializeBuild_frames hsj hview hroot hat hnarrow hlimit
    refine ⟨tree, htree.mirrors, hrun, fun fuel hfuel H heap h => ?_⟩
    rw [← htree.value]
    exact Encodes.decoded heap _ (htree.sized (by decide)) hfuel ⟨htree.ok, rfl⟩ h
  · have hsafe : Safe tape (fun _ => True) s := by
      obtain ⟨w, events, hrun⟩ := h
      exact safe_of_run (bridge_tapeSafe hbase hsj) trivial hrun
    have hready : Ready tape blocks root view.doc slot entry s :=
      ⟨⟨h.sized, ⟨hsafe.docs, hroot⟩, (allocates_bridge sj hblocks).backed h⟩,
        hview.live⟩
    have hwalk := walks_via_accessors hbase hsj hblocks u hfuel s entry view j hready hview hat
      hhint
    intro walk enough
    cases hrun : walk.run s with
    | ok value s' =>
      obtain ⟨rfl, entry', -, hgrown⟩ := wp_ok hwalk hrun
      have hcount := hgrown.count
      refine ⟨fun _ => ⟨s', rfl⟩, fun hfew => absurd ?_ hfew⟩
      exact hgrown.room.imp_right fun hroom => hcount ▸ hroom
    | error stop s' =>
      obtain ⟨rfl, hpos, hfull⟩ := wp_error hwalk hrun
      refine ⟨fun henough => ?_, fun _ => ⟨s', rfl⟩⟩
      rcases henough with hnone | hroom
      · exact absurd hnone (Nat.pos_iff_ne_zero.mp hpos)
      · exact absurd hroom (Nat.not_le.mpr hfull)
  · rw [mapGet_fieldsToGo, mapGet, Option.or_none]

end

/-- The sample's root, both ways. -/
theorem materializers_agree_sample :
    (∃ frames fuel, (materializeBuild sampleNative (some sampleRoot)).run sampleState =
        .ok frames sampleState ∧
      buildAnyFromFrames .unlimited sampleState.native.memory frames fuel () =
        .ok (.map [([97], .slice [.nil, .int64 7]), ([97, 97], .int64 7)], ())) ∧
    ∃ s', (materializeElementViaAccessors sampleNative 11 ⟨openDoc, sampleRoot⟩).run sampleState =
      .ok (.map [([97], .slice [.nil, .int64 7]), ([97, 97], .int64 7)]) s' := by
  have hleaf (v : Json) (hv : v.children = []) : v.Narrow :=
    .intro (by rw [hv]; decide) fun c hc => by rw [hv] at hc; cases hc
  have hnarrow : sampleDocument.Narrow := by
    refine .intro (by decide) fun c hc => ?_
    simp only [sampleDocument, Json.children, List.map_cons, List.map_nil, List.mem_cons,
      List.not_mem_nil, or_false] at hc
    rcases hc with rfl | rfl
    · refine .intro (by decide) fun c hc => hleaf c ?_
      simp only [Json.children, List.mem_cons, List.not_mem_nil, or_false] at hc
      rcases hc with rfl | rfl <;> rfl
    · exact hleaf _ rfl
  have hlimit : ¬ sampleDocument.Reaches maxSupportedDepth := by
    intro hreach
    obtain ⟨c, hc, hone⟩ := nestsTo_succ.mp (Reaches.nestsTo hreach)
    obtain ⟨d, hd, htwo⟩ := nestsTo_succ.mp hone
    obtain ⟨e, he, -⟩ := nestsTo_succ.mp htwo
    simp only [sampleDocument, Json.children, List.map_cons, List.map_nil, List.mem_cons,
      List.not_mem_nil, or_false] at hc
    rcases hc with rfl | rfl
    · simp only [Json.children, List.mem_cons, List.not_mem_nil, or_false] at hd
      rcases hd with rfl | rfl <;> cases he
    · cases hd
  have hat : sampleDocument.At 1 sampleDocument := at_root sampleDocument
  have hgo : sampleDocument.toGo =
      .map [([97], .slice [.nil, .int64 7]), ([97, 97], .int64 7)] := by
    simp [sampleDocument, Json.toGo, fieldsToGo, itemsToGo, mapSet]
  obtain ⟨⟨tree, -, hframes, hbuilt⟩, hwalk, -⟩ :=
    materializers_agree sample_lifecycle sample_faithful sample_allocates sampleState_reachable
      sampleRoot_resolves rfl hat rfl hnarrow hlimit
  rw [hgo] at hbuilt hwalk
  have hdecoded := hbuilt _ (Nat.lt_succ_self _) .unlimited ()
  rw [GoHeap.grants_unlimited] at hdecoded
  refine ⟨⟨_, tree.preorder.length + 1, hframes, hdecoded⟩, ?_⟩
  exact (hwalk 11 (by decide)).1 (Or.inr (by decide))

end PureSimdjson.Elements
