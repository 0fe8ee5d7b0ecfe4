import PureSimdjson.LeaseLinearity

/-!
# Iterating a container

A caller makes an iterator of a container and calls `next` on what the call before gave
it.  Between these calls anyone may make any others, as long as nobody frees the document
or uses the caller's iterator.  The caller gets the children one after the other, and
from then on the end.

The reads are the bridge's, over a simdjson that does its part, so here they succeed.
-/
namespace PureSimdjson

open Effect SlotTable Runs Json

/-! ## What the caller should get -/

/-- The kind an element is reported to be of. -/
def Json.kindCode (u : Json) : Nat := (mapElementType u.elementType).code

/-- The view that names the element at an index. -/
def elementView (doc : UInt64) (j : Nat) (u : Json) : ValueView :=
  ⟨doc, j, descViewTag, u.kindCode, 0⟩

/-- The iterator, that many words further on. -/
def Iter.moved (iter : Iter) (words : Nat) : Iter := { iter with state0 := iter.state0 + words }

/-- What an array iterator returns if `after` are the items it has not returned yet. -/
def arrayStep (iter : Iter) : (after : List Json) → ArrayIterStep
  | [] => ⟨iter, .default, true⟩
  | v :: _ => ⟨iter.moved v.width, elementView iter.doc iter.state0 v, false⟩

/-- What an object iterator returns if `after` are the fields it has not returned yet. -/
def objectStep (iter : Iter) : (after : List (Bytes × Json)) → ObjectIterStep
  | [] => ⟨iter, .default, .default, true⟩
  | (key, v) :: _ => ⟨iter.moved (1 + v.width), elementView iter.doc iter.state0 (.string key),
      elementView iter.doc (iter.state0 + 1) v, false⟩

/-- The entry after that: the item is issued, and the lease has moved past it. -/
def DocEntry.arrayStep (entry : DocEntry) (iter : Iter) : (after : List Json) → DocEntry
  | [] => entry
  | v :: _ => { entry with
      descendantIndices := insert iter.state0 entry.descendantIndices
      iterLeases := entry.iterLeases.insert iter.index
        ⟨iter.state0 + v.width, iter.state1, arrayIterTag⟩ }

/-- The same of an object iterator, which issues the key and the value. -/
def DocEntry.objectStep (entry : DocEntry) (iter : Iter) : (after : List (Bytes × Json)) → DocEntry
  | [] => entry
  | (_, v) :: _ => { entry with
      descendantIndices := insert (iter.state0 + 1) (insert iter.state0 entry.descendantIndices)
      iterLeases := entry.iterLeases.insert iter.index
        ⟨iter.state0 + 1 + v.width, iter.state1, objectIterTag⟩ }

/-! ## Reads that succeed -/

section
variable {W : Type} {sj : Simdjson W} {base : Native W} {tape : W → Nat → Option Json}
  {entry : DocEntry} {w : W} {root u : Json} {j : Nat}

/-- A read of the bridge that succeeds leaves everything as it is. -/
theorem bridge_read_run (hsj : sj.Faithful base.memory tape) {doc : Nat}
    (hroot : tape w doc = some root) {α : Type} {read : ElementRead α} {a : α}
    (hread : readElement sj (sj.document w doc) w doc j read = pure a) :
    ((bridge sj base).read read doc j).run w = .ok a w := by
  have hdoc : doc ≠ 0 := by
    rintro rfl
    rw [hsj.nonnull] at hroot
    cases hroot
  show (bridgeRead sj read doc j).run w = .ok a w
  refine run_eq_ok ?_
  rw [bridgeRead, if_neg hdoc, wp_bind, wp_get, hread, wp_pure]
  exact ⟨rfl, rfl⟩

variable {doc : Nat} (hsj : sj.Faithful base.memory tape) (hroot : tape w doc = some root)
  (hat : root.At j u) (hdoc : entry.nativePtr = doc)
include hsj hroot hat hdoc

theorem wp_readKind {Q : Nat → DocEntry × W → Prop} {E : ErrorCode → DocEntry × W → Prop}
    (h : Q u.kindCode (entry, w)) :
    wp (onDoc ((bridge sj base).read .elementTypeAt · j)) Q E (entry, w) := by
  subst hdoc
  rw [wp_onDoc]
  refine wp_of_run_ok (bridge_read_run hsj hroot ?_) h
  rw [readElement, (hsj.shows w _ root j u hroot hat).type, kindCode]

theorem wp_readAfterIndex {Q : Nat → DocEntry × W → Prop}
    {E : ErrorCode → DocEntry × W → Prop} (h : Q (j + u.width) (entry, w)) :
    wp (onDoc (nativeElementAfterIndex (bridge sj base) · j)) Q E (entry, w) := by
  subst hdoc
  have hpos := u.width_pos
  have hread : readElement sj (sj.document w entry.nativePtr) w entry.nativePtr j
      .elementAfterIndex = pure (j + u.width) := by
    rw [readElement, hsj.after w _ root j u hroot hat]
  rw [wp_onDoc, nativeElementAfterIndex, wp_bind]
  refine wp_of_run_ok (bridge_read_run hsj hroot hread) ?_
  rw [wp_orInternal]
  exact ⟨fun _ => h, fun hzero => absurd (by simp; omega) hzero⟩

/-- An element that is there gets its view. -/
theorem wp_encodeElement (hok : DocOk root entry) {handle : UInt64}
    {Q : ValueView → DocEntry × W → Prop} {E : ErrorCode → DocEntry × W → Prop}
    (h : Q (elementView handle j u)
      ({ entry with descendantIndices := insert j entry.descendantIndices }, w)) :
    wp (encodeDescendantView (bridge sj base) handle j) Q E (entry, w) := by
  have hrange : ¬ (j = 0 ∨ j ≥ entry.rootAfterIndex) := by
    have := hat.range
    have := hat.lt
    rw [hok.rootAfterIndex_eq]
    omega
  rw [encodeDescendantView, wp_bind, wp_getEntry, wp_bind, wp_require]
  refine ⟨fun _ => ?_, fun hn => absurd hrange hn⟩
  rw [wp_bind]
  exact wp_readKind hsj hroot hat hdoc h

/-- A container of the right kind is not refused. -/
theorem wp_requireKind_of_kind {kind : ValueKind} (hkind : u.kindCode = kind.code)
    {Q : Unit → DocEntry × W → Prop} {E : ErrorCode → DocEntry × W → Prop}
    (h : Q () (entry, w)) :
    wp (requireKind (bridge sj base) kind j) Q E (entry, w) := by
  rw [requireKind, wp_bind]
  refine wp_readKind hsj hroot hat hdoc ?_
  rw [wp_require]
  exact ⟨fun _ => h, fun hn => absurd hkind hn⟩

end

/-! ## One call -/

section
variable {W : Type} {sj : Simdjson W} {base : Native W} {tape : W → Nat → Option Json}
  {entry : DocEntry} {w : W} {root : Json} {container : Nat} {iter : Iter}

/-- What a call of `next` leaves behind: the lease holds the state of the struct that was
returned, and the entry is still that of the same document. -/
structure Followed (iter' : Iter) (entry : DocEntry) (w : W) (e : DocEntry × W) : Prop where
  lease : e.1.iterLeases.lookup iter'.index = some ⟨iter'.state0, iter'.state1, iter'.tag⟩
  nativePtr_eq : e.1.nativePtr = entry.nativePtr
  generation_eq : e.1.generation = entry.generation

/-- **An array iterator returns the item it stands on and moves past it**, or stays at
the end. -/
theorem wp_arrayIterAdvance_entry (hsj : sj.Faithful base.memory tape)
    (hroot : tape w entry.nativePtr = some root) (hok : DocOk root entry)
    {before after : List Json} (hat : root.At container (.array (before ++ after)))
    (h0 : iter.state0 = container + 1 + itemsWidth before)
    (h1 : iter.state1 = container + 1 + itemsWidth (before ++ after))
    (hlease : entry.iterLeases.lookup iter.index =
      some ⟨iter.state0, iter.state1, arrayIterTag⟩) :
    wp (arrayIterAdvance (bridge sj base) iter)
      (fun step e => step = arrayStep iter after ∧ e = (entry.arrayStep iter after, w))
      (fun _ _ => False) (entry, w) := by
  rw [arrayIterAdvance, wp_ite]
  cases after with
  | nil =>
    rw [List.append_nil] at h1
    exact ⟨fun _ => ⟨rfl, rfl⟩, fun hne => absurd (h0.trans h1.symm) hne⟩
  | cons v after =>
    rw [itemsWidth_append, itemsWidth] at h1
    have hpos := v.width_pos
    have hv : root.At iter.state0 v := h0 ▸ hat.item
    refine ⟨fun heq => by omega, fun _ => ?_⟩
    rw [wp_bind]
    refine wp_encodeElement hsj hroot hv (by rfl) hok ?_
    rw [wp_bind]
    refine wp_readAfterIndex hsj hroot hv (by rfl) ?_
    rw [wp_bind, wp_require]
    refine ⟨fun _ => ?_, fun hn => absurd (by omega) hn⟩
    rw [wp_bind]
    refine wp_mono (wp_updateLease _ _ hlease) ?_ fun _ _ => False.elim
    rintro - e rfl
    exact ⟨rfl, rfl⟩

theorem wp_arrayIterAdvance_exact (hsj : sj.Faithful base.memory tape)
    (hroot : tape w entry.nativePtr = some root) (hok : DocOk root entry)
    {before after : List Json} (hat : root.At container (.array (before ++ after)))
    (h0 : iter.state0 = container + 1 + itemsWidth before)
    (h1 : iter.state1 = container + 1 + itemsWidth (before ++ after))
    (hlease : entry.iterLeases.lookup iter.index = some ⟨iter.state0, iter.state1, arrayIterTag⟩)
    (htag : iter.tag = arrayIterTag) :
    wp (arrayIterAdvance (bridge sj base) iter)
      (fun step e => Followed step.iter entry w e ∧
        step = arrayStep iter after)
      (fun _ _ => False) (entry, w) := by
  refine wp_mono (wp_arrayIterAdvance_entry hsj hroot hok hat h0 h1 hlease) ?_ fun _ _ => id
  rintro step e ⟨rfl, rfl⟩
  refine ⟨?_, rfl⟩
  cases after with
  | nil => exact ⟨htag ▸ hlease, rfl, rfl⟩
  | cons v after => exact ⟨htag ▸ AList.lookup_insert _, rfl, rfl⟩

/-- **An object iterator returns the key it stands on with its value, and moves past
both**, or stays at the end. -/
theorem wp_objectIterAdvance_entry (hsj : sj.Faithful base.memory tape)
    (hroot : tape w entry.nativePtr = some root) (hok : DocOk root entry)
    {before after : List (Bytes × Json)} (hat : root.At container (.object (before ++ after)))
    (h0 : iter.state0 = container + 1 + fieldsWidth before)
    (h1 : iter.state1 = container + 1 + fieldsWidth (before ++ after))
    (hlease : entry.iterLeases.lookup iter.index =
      some ⟨iter.state0, iter.state1, objectIterTag⟩) :
    wp (objectIterAdvance (bridge sj base) iter)
      (fun step e => step = objectStep iter after ∧ e = (entry.objectStep iter after, w))
      (fun _ _ => False) (entry, w) := by
  rw [objectIterAdvance, wp_ite]
  cases after with
  | nil =>
    rw [List.append_nil] at h1
    exact ⟨fun _ => ⟨rfl, rfl⟩, fun hne => absurd (h0.trans h1.symm) hne⟩
  | cons field after =>
    obtain ⟨key, v⟩ := field
    rw [fieldsWidth_append, fieldsWidth] at h1
    have hpos := v.width_pos
    have hkey : root.At iter.state0 (.string key) := h0 ▸ hat.key
    have hv : root.At (iter.state0 + 1) v := h0 ▸ hat.value
    have hfits := hsj.fits w _ root hroot
    have hlt := hv.lt
    refine ⟨fun heq => by omega, fun _ => ?_⟩
    rw [wp_bind, wp_require]
    refine ⟨fun _ => ?_, fun hn => absurd (by omega) hn⟩
    rw [wp_bind, wp_require]
    refine ⟨fun _ => ?_, fun hn => absurd (by omega) hn⟩
    rw [wp_bind, wp_getEntry, validateIterIndex_ok (by omega) (hok.rootAfterIndex_eq ▸ hlt),
      wp_bind, wp_ofExcept_ok, wp_bind]
    refine wp_readKind hsj hroot hkey (by rfl) ?_
    rw [wp_bind, wp_require]
    refine ⟨fun _ => ?_, fun hn => absurd rfl hn⟩
    rw [wp_bind]
    refine wp_encodeElement hsj hroot hkey (by rfl) hok ?_
    rw [wp_bind]
    refine wp_encodeElement hsj hroot hv (by rfl) (hok.insert hkey) ?_
    rw [wp_bind]
    refine wp_readAfterIndex hsj hroot hv (by rfl) ?_
    rw [wp_bind, wp_require]
    refine ⟨fun _ => ?_, fun hn => absurd (by omega) hn⟩
    rw [wp_bind]
    refine wp_mono (wp_updateLease _ _ hlease) ?_ fun _ _ => False.elim
    rintro - e rfl
    refine ⟨?_, rfl⟩
    rw [objectStep, Iter.moved, Nat.add_assoc]

theorem wp_objectIterAdvance_exact (hsj : sj.Faithful base.memory tape)
    (hroot : tape w entry.nativePtr = some root) (hok : DocOk root entry)
    {before after : List (Bytes × Json)} (hat : root.At container (.object (before ++ after)))
    (h0 : iter.state0 = container + 1 + fieldsWidth before)
    (h1 : iter.state1 = container + 1 + fieldsWidth (before ++ after))
    (hlease : entry.iterLeases.lookup iter.index = some ⟨iter.state0, iter.state1, objectIterTag⟩)
    (htag : iter.tag = objectIterTag) :
    wp (objectIterAdvance (bridge sj base) iter)
      (fun step e => Followed step.iter entry w e ∧
        step = objectStep iter after)
      (fun _ _ => False) (entry, w) := by
  refine wp_mono (wp_objectIterAdvance_entry hsj hroot hok hat h0 h1 hlease) ?_ fun _ _ => id
  rintro step e ⟨rfl, rfl⟩
  refine ⟨?_, rfl⟩
  cases after with
  | nil => exact ⟨htag ▸ hlease, rfl, rfl⟩
  | cons field after =>
    refine ⟨?_, rfl, rfl⟩
    rw [objectStep, Iter.moved, ← Nat.add_assoc, htag]
    exact AList.lookup_insert _

end

/-! ## Making an iterator -/

/-- The view passes all checks, and stands for the element at index `j` of a live
document. -/
structure Resolves {W : Type} (s : Runtime W) (view : ValueView) (slot : UInt32)
    (entry : DocEntry) (j : Nat) : Prop where
  state0_ne : view.state0 ≠ 0
  reserved_eq : view.reserved = 0
  live : DocLive s.registry view.doc slot entry
  index_eq : viewIndex view entry = .ok j

theorem wp_withResolvedView_of_resolves {W α : Type} {s : Runtime W} {view : ValueView}
    {slot : UInt32} {entry : DocEntry} {j : Nat} (h : Resolves s view slot entry j)
    {action : Nat → UInt64 → DocM W α} {Q : α → Runtime W → Prop}
    {E : ErrorCode → Runtime W → Prop} :
    wp (withResolvedView (some view) action) Q E s ↔
      wp (action j view.doc)
        (fun a e => Q a ⟨s.registry.setDoc (slotIndex slot) (.occupied e.1), e.2⟩)
        (fun rc e => E rc ⟨s.registry.setDoc (slotIndex slot) (.occupied e.1), e.2⟩)
        (entry, s.native) := by
  have hfields : ¬ (view.state0 = 0 ∨ view.reserved ≠ 0) := by
    simp [h.state0_ne, h.reserved_eq]
  have hunpack : unpackHandle view.doc = .ok (slotIndex slot, slot, entry.generation) := by
    rw [h.live.handle_eq, unpackHandle_packHandle h.live.slot_ne]
    rfl
  rw [withResolvedView, require, if_pos hfields, wp_bind, wp_pure, wp_bind, hunpack,
    wp_ofExcept_ok, wp_withDoc, h.live.docAt]
  simp only [Option.some.injEq, forall_eq', reduceCtorEq, false_implies, and_true, wp_bind,
    wp_getEntry, h.index_eq, wp_ofExcept_ok]

section
variable {W : Type} {sj : Simdjson W} {base : Native W} {tape : W → Nat → Option Json}
  {entry : DocEntry} {w : W} {root u : Json} {j : Nat}

/-- The words between those of the brackets. -/
theorem readElement_arrayIterBounds (hsj : sj.Faithful base.memory tape)
    (hroot : tape w entry.nativePtr = some root) {items : List Json}
    (hat : root.At j (.array items)) :
    readElement sj (sj.document w entry.nativePtr) w entry.nativePtr j .arrayIterBounds =
      pure (j + 1, j + 1 + itemsWidth items) := by
  have hend : j + (Json.array items).width - 1 = j + 1 + itemsWidth items := by
    rw [Json.width]
    omega
  rw [readElement, hsj.tapeType w _ root j _ hroot hat, hsj.after w _ root j _ hroot hat, hend]
  rfl

theorem readElement_objectIterBounds (hsj : sj.Faithful base.memory tape)
    (hroot : tape w entry.nativePtr = some root) {fields : List (Bytes × Json)}
    (hat : root.At j (.object fields)) :
    readElement sj (sj.document w entry.nativePtr) w entry.nativePtr j .objectIterBounds =
      pure (j + 1, j + 1 + fieldsWidth fields) := by
  have hend : j + (Json.object fields).width - 1 = j + 1 + fieldsWidth fields := by
    rw [Json.width]
    omega
  rw [readElement, hsj.tapeType w _ root j _ hroot hat, hsj.after w _ root j _ hroot hat, hend]
  rfl

/-- **An iterator is made while lease ids remain**, with what the bounds call returned, and
then only. -/
theorem wp_iterNew_entry (hsj : sj.Faithful base.memory tape)
    (hroot : tape w entry.nativePtr = some root) (hat : root.At j u) {kind : ValueKind}
    {tag width : Nat} {read : ElementRead (Nat × Nat)} {handle : UInt64}
    (hkind : u.kindCode = kind.code)
    (hread : readElement sj (sj.document w entry.nativePtr) w entry.nativePtr j read =
      pure (j + 1, j + 1 + width)) :
    wp (do
        requireKind (bridge sj base) kind j
        let (state0, state1) ← onDoc (nativeIterBounds (bridge sj base) read · j)
        let leaseId ← allocLease tag state0 state1
        pure (⟨handle, state0, state1, leaseId, tag, 0⟩ : Iter))
      (fun iter e => entry.iterLeases.keys.length < 2 ^ 32 - 1 ∧ e.2 = w ∧
        iter = ⟨handle, j + 1, j + 1 + width, iter.index, tag, 0⟩ ∧
        entry.Leased ⟨j + 1, j + 1 + width, tag⟩ iter.index e.1)
      (fun rc e => rc = .internal ∧ e = (entry, w) ∧ ¬ entry.iterLeases.keys.length < 2 ^ 32 - 1)
      (entry, w) := by
  rw [wp_bind]
  refine wp_requireKind_of_kind hsj hroot hat rfl hkind ?_
  rw [wp_bind, wp_onDoc, nativeIterBounds, wp_bind]
  refine wp_of_run_ok (bridge_read_run hsj hroot hread) ?_
  rw [wp_orInternal]
  refine ⟨fun _ => ?_, fun hn => absurd (by simp) hn⟩
  dsimp only
  rw [wp_bind, allocLease, wp_bind, wp_getEntry]
  by_cases hroom : entry.iterLeases.keys.length < 2 ^ 32 - 1
  · obtain ⟨leaseId, entry', halloc⟩ :=
      DocEntry.allocIterLease_of_room hroom tag (j + 1) (j + 1 + width)
    rw [halloc, wp_bind, wp_ofExcept_ok]
    exact ⟨hroom, rfl, rfl, DocEntry.allocIterLease_ok halloc⟩
  · rw [DocEntry.allocIterLease, if_pos (Nat.not_lt.mp hroom), wp_bind, wp_ofExcept_error]
    exact ⟨rfl, rfl, hroom⟩

theorem wp_iterNew_exact (hsj : sj.Faithful base.memory tape)
    (hroot : tape w entry.nativePtr = some root) (hat : root.At j u)
    (hroom : entry.iterLeases.keys.length < 2 ^ 32 - 1) {kind : ValueKind} {tag width : Nat}
    {read : ElementRead (Nat × Nat)} {handle : UInt64} (hkind : u.kindCode = kind.code)
    (hread : readElement sj (sj.document w entry.nativePtr) w entry.nativePtr j read =
      pure (j + 1, j + 1 + width)) :
    wp (do
        requireKind (bridge sj base) kind j
        let (state0, state1) ← onDoc (nativeIterBounds (bridge sj base) read · j)
        let leaseId ← allocLease tag state0 state1
        pure (⟨handle, state0, state1, leaseId, tag, 0⟩ : Iter))
      (fun iter e => (∃ leaseId, iter = ⟨handle, j + 1, j + 1 + width, leaseId, tag, 0⟩) ∧
        Followed iter entry w e)
      (fun _ _ => False) (entry, w) := by
  refine wp_mono (wp_iterNew_entry hsj hroot hat hkind hread) ?_ fun _ _ h => h.2.2 hroom
  rintro iter ⟨entry', w'⟩ ⟨-, rfl, hiter, hleased⟩
  refine ⟨⟨_, hiter⟩, ?_⟩
  obtain rfl := hleased.entry_eq
  refine ⟨?_, rfl, rfl⟩
  rw [hiter]
  exact AList.lookup_insert _

end

/-! ## A caller among others -/

section
variable {W : Type} (native : Native W)

/-- Somebody makes any call that neither frees the document nor uses the lease. -/
def Interferes (doc : UInt64) (leaseId : UInt32) (s s' : Runtime W) : Prop :=
  ∃ event, Executes native s event s' ∧ event.mark ≠ .docFreed doc.toUInt32 ∧
    ∀ jsonIndex, event.mark ≠ .delivered doc leaseId jsonIndex

/-- The caller calls `next` with the iterator it has, and keeps what comes back. -/
def Uses {α : Type} (next : Option Iter → RuntimeM W α) (left : α → Iter) (s : Runtime W)
    (iter : Iter) (result : Except ErrorCode α) (s' : Runtime W) (iter' : Iter) : Prop :=
  match result with
  | .ok step => (next (some iter)).run s = .ok step s' ∧ iter' = left step
  | .error rc => (next (some iter)).run s = .error rc s' ∧ iter' = iter

variable {native} {tape : W → Nat → Option Json} {ptr : Nat} {root : Json} {slot : UInt32}
  {s s' : Runtime W} {iter iter' : Iter}

/-- The document at the address is `root`, is registered in the slot, and has a lease that
holds what the iterator carries. -/
structure Stands (tape : W → Nat → Option Json) (ptr : Nat) (root : Json) (slot : UInt32)
    (s : Runtime W) (iter : Iter) : Prop where
  sized : s.registry.Sized
  safe : Safe tape (fun w => tape w ptr = some root) s
  live : ∃ entry, DocLive s.registry iter.doc slot entry ∧ entry.nativePtr = ptr ∧
    entry.iterLeases.lookup iter.index = some ⟨iter.state0, iter.state1, iter.tag⟩

/-- What a call leaves behind, if it does not free the document. -/
theorem Stands.after (hsafe : TapeSafe native tape) (h : Stands tape ptr root slot s iter)
    {event : Event} (hexec : Executes native s event s')
    (hkept : event.mark ≠ .docFreed slot) :
    s'.registry.Sized ∧ Safe tape (fun w => tape w ptr = some root) s' := by
  refine ⟨(moved_of_executes native h.sized hexec).sized h.sized, ?_⟩
  refine hexec.safe hsafe.keeping h.sized h.safe ?_
  -- a document that is freed at this address would be this one
  rintro ⟨reply, hreply⟩ handle slot' entry' hcall hlive' hptr'
  obtain ⟨entry, hlive, hptr, -⟩ := h.live
  have hindex := h.safe.docs.apart _ _ _ _ hlive'.entry_eq hlive.entry_eq (hptr'.trans hptr.symm)
  have hslot := (slotIndex_inj hlive'.slot_ne hlive.slot_ne).mp hindex
  obtain ⟨call, result⟩ := event
  simp only at hcall hreply
  subst hcall hreply
  refine hkept ?_
  rw [Event.mark, hlive'.handle_eq, packHandle_slot, hslot]

/-- **Others do not disturb the caller.** -/
theorem Stands.of_interferes (hsafe : TapeSafe native tape)
    (h : Stands tape ptr root slot s iter) (hother : Interferes native iter.doc iter.index s s') :
    Stands tape ptr root slot s' iter := by
  obtain ⟨event, hexec, hkept, hleft⟩ := hother
  obtain ⟨entry, hlive, rfl, hlease⟩ := h.live
  have hslot : iter.doc.toUInt32 = slot := by rw [hlive.handle_eq, packHandle_slot]
  rw [hslot] at hkept
  obtain ⟨hsized, hsafe'⟩ := h.after hsafe hexec hkept
  have hmoved := moved_of_executes native h.sized hexec
  obtain ⟨entry', hlive', hptr, hleases⟩ := hmoved.leaseStep hlive hkept
  obtain ⟨lease', hlease', hstep⟩ := hleases _ _ hlease
  cases hstep with
  | stays => exact ⟨hsized, hsafe', entry', hlive', hptr, hlease'⟩
  | moves hmark => exact absurd hmark (hleft _)

/-- The entry a call wrote back is live again. -/
theorem Followed.live {entry : DocEntry} {w : W} {e : DocEntry × W}
    (h : Followed iter' entry w e) {registry : Registry} {doc : UInt64}
    (hlive : DocLive registry doc slot entry) :
    ∃ entry', DocLive (registry.setDoc (slotIndex slot) (.occupied e.1)) doc slot entry' ∧
      entry'.nativePtr = entry.nativePtr ∧
      entry'.iterLeases.lookup iter'.index = some ⟨iter'.state0, iter'.state1, iter'.tag⟩ :=
  ⟨e.1, hlive.set_self rfl h.generation_eq, h.nativePtr_eq, h.lease⟩

end

/-! ## The caller's calls -/

theorem arrayStep_doc (iter : Iter) (after : List Json) :
    (arrayStep iter after).iter.doc = iter.doc := by
  cases after <;> rfl

theorem objectStep_doc (iter : Iter) (after : List (Bytes × Json)) :
    (objectStep iter after).iter.doc = iter.doc := by
  rcases after with _ | ⟨⟨key, v⟩, after⟩ <;> rfl

/-- After `n` calls the iterator stands behind `n` items, or behind all. -/
theorem arrayStep_next (first : Iter) (items : List Json) (n : Nat) :
    (arrayStep (first.moved (itemsWidth (items.take n))) (items.drop n)).iter =
      first.moved (itemsWidth (items.take (n + 1))) := by
  rw [List.take_add_one, itemsWidth_append]
  by_cases hn : n < items.length
  · rw [List.drop_eq_getElem_cons hn, List.getElem?_eq_getElem hn]
    simp only [arrayStep, Iter.moved, Option.toList_some, itemsWidth, Nat.add_zero, Nat.add_assoc]
  · rw [List.drop_eq_nil_of_le (by omega), List.getElem?_eq_none (by omega)]
    simp only [arrayStep, Option.toList_none, itemsWidth, Nat.add_zero]

theorem objectStep_next (first : Iter) (fields : List (Bytes × Json)) (n : Nat) :
    (objectStep (first.moved (fieldsWidth (fields.take n))) (fields.drop n)).iter =
      first.moved (fieldsWidth (fields.take (n + 1))) := by
  rw [List.take_add_one, fieldsWidth_append]
  by_cases hn : n < fields.length
  · rw [List.drop_eq_getElem_cons hn, List.getElem?_eq_getElem hn]
    simp only [objectStep, Iter.moved, Option.toList_some, fieldsWidth, Nat.add_zero,
      Nat.add_assoc]
  · rw [List.drop_eq_nil_of_le (by omega), List.getElem?_eq_none (by omega)]
    simp only [objectStep, Option.toList_none, fieldsWidth, Nat.add_zero]

section
variable {W : Type} {native : Native W} {tape : W → Nat → Option Json} {ptr : Nat} {root : Json}
  {slot : UInt32} {s s' : Runtime W} {iter iter' : Iter}

/-- The document is still registered, and the lease holds what the iterator carries. -/
abbrev Registered (ptr : Nat) (slot : UInt32) (doc : UInt64) (iter : Iter) (s : Runtime W) :
    Prop :=
  ∃ entry, DocLive s.registry doc slot entry ∧ entry.nativePtr = ptr ∧
    entry.iterLeases.lookup iter.index = some ⟨iter.state0, iter.state1, iter.tag⟩

/-- A call that can only return `expected` does so, and the caller can go on. -/
theorem Stands.of_uses (hsafe : TapeSafe native tape) (h : Stands tape ptr root slot s iter)
    {α : Type} {next : Option Iter → RuntimeM W α} {left : α → Iter} (call : Call) {tag : Nat}
    {reply : α → Reply} (hexec : exec native call = reply <$> next (some iter))
    (hnext : call.next = some (iter, tag)) {expected : α}
    (hdoc : (left expected).doc = iter.doc)
    (hwp : wp (next (some iter))
      (fun step s' => step = expected ∧ Registered ptr slot iter.doc (left expected) s')
      (fun _ _ => False) s)
    {result : Except ErrorCode α} (huse : Uses next left s iter result s' iter') :
    result = .ok expected ∧ iter' = left expected ∧ Stands tape ptr root slot s' iter' := by
  cases result with
  | error rc => exact (wp_error hwp huse.1).elim
  | ok step =>
    obtain ⟨hrun, rfl⟩ := huse
    obtain ⟨rfl, hlive⟩ := wp_ok hwp hrun
    have hstep : Executes native s (call, .ok (reply step)) s' := by
      rw [Executes, hexec]
      exact run_eq_ok ((wp_map ..).mpr (wp_of_run_ok hrun ⟨rfl, rfl⟩))
    obtain ⟨hsized, hsafe'⟩ := h.after hsafe hstep (mark_next hnext _ _)
    exact ⟨rfl, rfl, hsized, hsafe', hdoc ▸ hlive⟩

variable {sj : Simdjson W} {base : Native W} {container : Nat}

theorem wp_arrayIterNext_exact (hsj : sj.Faithful base.memory tape)
    (h : Stands tape ptr root slot s iter) (hreserved : iter.reserved = 0)
    (htag : iter.tag = arrayIterTag) {before after : List Json}
    (hat : root.At container (.array (before ++ after)))
    (h0 : iter.state0 = container + 1 + itemsWidth before)
    (h1 : iter.state1 = container + 1 + itemsWidth (before ++ after)) :
    wp (arrayIterNext (bridge sj base) (some iter))
      (fun step s' => step = arrayStep iter after ∧
        Registered ptr slot iter.doc (arrayStep iter after).iter s')
      (fun _ _ => False) s := by
  obtain ⟨entry, hlive, rfl, hlease⟩ := h.live
  rw [htag] at hlease
  obtain ⟨root', hroot, hok⟩ := h.safe.docs.entries _ _ hlive.entry_eq
  rw [h.safe.inv] at hroot
  cases hroot
  rw [arrayIterNext, wp_withIterDoc_of_lease h.safe hreserved htag hlive hlease]
  refine wp_mono (wp_arrayIterAdvance_exact hsj h.safe.inv hok hat h0 h1 hlease htag) ?_
    fun _ _ => False.elim
  rintro step e ⟨hfollowed, rfl⟩
  exact ⟨rfl, hfollowed.live hlive⟩

theorem wp_objectIterNext_exact (hsj : sj.Faithful base.memory tape)
    (h : Stands tape ptr root slot s iter) (hreserved : iter.reserved = 0)
    (htag : iter.tag = objectIterTag) {before after : List (Bytes × Json)}
    (hat : root.At container (.object (before ++ after)))
    (h0 : iter.state0 = container + 1 + fieldsWidth before)
    (h1 : iter.state1 = container + 1 + fieldsWidth (before ++ after)) :
    wp (objectIterNext (bridge sj base) (some iter))
      (fun step s' => step = objectStep iter after ∧
        Registered ptr slot iter.doc (objectStep iter after).iter s')
      (fun _ _ => False) s := by
  obtain ⟨entry, hlive, rfl, hlease⟩ := h.live
  rw [htag] at hlease
  obtain ⟨root', hroot, hok⟩ := h.safe.docs.entries _ _ hlive.entry_eq
  rw [h.safe.inv] at hroot
  cases hroot
  rw [objectIterNext, wp_withIterDoc_of_lease h.safe hreserved htag hlive hlease]
  refine wp_mono (wp_objectIterAdvance_exact hsj h.safe.inv hok hat h0 h1 hlease htag) ?_
    fun _ _ => False.elim
  rintro step e ⟨hfollowed, rfl⟩
  exact ⟨rfl, hfollowed.live hlive⟩

/-- **All calls of the caller**, with anything in between: the items in order, then the
end. -/
theorem arrayIterNext_results (hsafe : TapeSafe (bridge sj base) tape)
    (hsj : sj.Faithful base.memory tape) {first : Iter}
    (h : Stands tape ptr root slot s first) (hreserved : first.reserved = 0)
    (htag : first.tag = arrayIterTag) {items : List Json} (hat : root.At container (.array items))
    (h0 : first.state0 = container + 1) (h1 : first.state1 = container + 1 + itemsWidth items)
    {results : List (Except ErrorCode ArrayIterStep)}
    (hrun : Threaded (Interferes (bridge sj base) first.doc first.index)
      (Uses (arrayIterNext (bridge sj base)) ArrayIterStep.iter) s first results s' iter') :
    ∀ k (hk : k < results.length), results[k] =
      .ok (arrayStep (first.moved (itemsWidth (items.take k))) (items.drop k)) := by
  have hother (n : Nat) (s : Runtime W) (iter : Iter) (s' : Runtime W)
      (hs : Stands tape ptr root slot s iter ∧ iter = first.moved (itemsWidth (items.take n)))
      (hother : Interferes (bridge sj base) first.doc first.index s s') :
      Stands tape ptr root slot s' iter ∧ iter = first.moved (itemsWidth (items.take n)) := by
    obtain ⟨hstands, rfl⟩ := hs
    exact ⟨hstands.of_interferes hsafe hother, rfl⟩
  have hcall (n : Nat) (s : Runtime W) (iter : Iter) (result : Except ErrorCode ArrayIterStep)
      (s' : Runtime W) (iter' : Iter)
      (hs : Stands tape ptr root slot s iter ∧ iter = first.moved (itemsWidth (items.take n)))
      (huse : Uses (arrayIterNext (bridge sj base)) ArrayIterStep.iter s iter result s' iter') :
      result = .ok (arrayStep (first.moved (itemsWidth (items.take n))) (items.drop n)) ∧
        Stands tape ptr root slot s' iter' ∧
        iter' = first.moved (itemsWidth (items.take (n + 1))) := by
    obtain ⟨hstands, rfl⟩ := hs
    have hsplit : items.take n ++ items.drop n = items := List.take_append_drop n items
    have hwp := wp_arrayIterNext_exact hsj hstands hreserved htag (hsplit.symm ▸ hat)
      (by rw [Iter.moved, h0]) (by rw [hsplit]; exact h1)
    obtain ⟨hresult, hiter, hstands'⟩ :=
      hstands.of_uses hsafe (.arrayIterNext (some _)) rfl rfl (arrayStep_doc _ _) hwp huse
    exact ⟨hresult, hstands', hiter.trans (arrayStep_next first items n)⟩
  intro k hk
  rw [hrun.results hother hcall (n := 0) ⟨h, rfl⟩ k hk, Nat.zero_add]

theorem objectIterNext_results (hsafe : TapeSafe (bridge sj base) tape)
    (hsj : sj.Faithful base.memory tape) {first : Iter}
    (h : Stands tape ptr root slot s first) (hreserved : first.reserved = 0)
    (htag : first.tag = objectIterTag) {fields : List (Bytes × Json)}
    (hat : root.At container (.object fields)) (h0 : first.state0 = container + 1)
    (h1 : first.state1 = container + 1 + fieldsWidth fields)
    {results : List (Except ErrorCode ObjectIterStep)}
    (hrun : Threaded (Interferes (bridge sj base) first.doc first.index)
      (Uses (objectIterNext (bridge sj base)) ObjectIterStep.iter) s first results s' iter') :
    ∀ k (hk : k < results.length), results[k] =
      .ok (objectStep (first.moved (fieldsWidth (fields.take k))) (fields.drop k)) := by
  have hother (n : Nat) (s : Runtime W) (iter : Iter) (s' : Runtime W)
      (hs : Stands tape ptr root slot s iter ∧ iter = first.moved (fieldsWidth (fields.take n)))
      (hother : Interferes (bridge sj base) first.doc first.index s s') :
      Stands tape ptr root slot s' iter ∧ iter = first.moved (fieldsWidth (fields.take n)) := by
    obtain ⟨hstands, rfl⟩ := hs
    exact ⟨hstands.of_interferes hsafe hother, rfl⟩
  have hcall (n : Nat) (s : Runtime W) (iter : Iter) (result : Except ErrorCode ObjectIterStep)
      (s' : Runtime W) (iter' : Iter)
      (hs : Stands tape ptr root slot s iter ∧ iter = first.moved (fieldsWidth (fields.take n)))
      (huse : Uses (objectIterNext (bridge sj base)) ObjectIterStep.iter s iter result s' iter') :
      result = .ok (objectStep (first.moved (fieldsWidth (fields.take n))) (fields.drop n)) ∧
        Stands tape ptr root slot s' iter' ∧
        iter' = first.moved (fieldsWidth (fields.take (n + 1))) := by
    obtain ⟨hstands, rfl⟩ := hs
    have hsplit : fields.take n ++ fields.drop n = fields := List.take_append_drop n fields
    have hwp := wp_objectIterNext_exact hsj hstands hreserved htag (hsplit.symm ▸ hat)
      (by rw [Iter.moved, h0]) (by rw [hsplit]; exact h1)
    obtain ⟨hresult, hiter, hstands'⟩ :=
      hstands.of_uses hsafe (.objectIterNext (some _)) rfl rfl (objectStep_doc _ _) hwp huse
    exact ⟨hresult, hstands', hiter.trans (objectStep_next first fields n)⟩
  intro k hk
  rw [hrun.results hother hcall (n := 0) ⟨h, rfl⟩ k hk, Nat.zero_add]

end

/-! ## Iteration -/

section
variable {W : Type} {sj : Simdjson W} {base : Native W} {tape : W → Nat → Option Json}

/-- A new iterator stands where it says, once it has been made. -/
theorem stands_of_new {native : Native W} (hsafe : TapeSafe native tape) {s : Runtime W}
    (hsized : s.registry.Sized) (hs : Safe tape (fun _ => True) s) {ptr : Nat} {root : Json}
    (hroot : tape s.native ptr = some root) {slot : UInt32} (call : Call) {new : RuntimeM W Iter}
    (hexec : exec native call = .iter <$> new) (hfree : ∀ handle, call ≠ .docFree handle)
    {doc : UInt64} {state0 state1 tag : Nat}
    (hwp : wp new (fun first s' => (∃ leaseId, first = ⟨doc, state0, state1, leaseId, tag, 0⟩) ∧
      Registered ptr slot doc first s') (fun _ _ => False) s) :
    ∃ leaseId s', new.run s = .ok ⟨doc, state0, state1, leaseId, tag, 0⟩ s' ∧
      Stands tape ptr root slot s' ⟨doc, state0, state1, leaseId, tag, 0⟩ := by
  obtain ⟨first, s', hrun, ⟨leaseId, rfl⟩, hregistered⟩ := exists_run_ok hwp
  have hstep : Executes native s (call, .ok (.iter ⟨doc, state0, state1, leaseId, tag, 0⟩)) s' := by
    rw [Executes, hexec]
    exact run_eq_ok ((wp_map ..).mpr (wp_of_run_ok hrun ⟨rfl, rfl⟩))
  have hsized' := (moved_of_executes native hsized hstep).sized hsized
  have hsafe' : Safe tape (fun w => tape w ptr = some root) s' :=
    hstep.safe hsafe.keeping hsized ⟨hs.docs, hroot⟩
      fun _ handle _ _ hcall => absurd hcall (hfree handle)
  exact ⟨leaseId, s', hrun, hsized', hsafe', hregistered⟩

/-- **Iteration completeness.**  From any reachable state, and for any view that stands
for an array or an object of a live document: while the document has lease ids left, an
iterator is made; and whatever others do in between, the calls of `next` that the caller
threads it through return the children in order, an object's key with its value, and
from then on the end, with the iterator as it was.  None of them fails. -/
theorem iteration_complete (hbase : Lifecycle base tape (fun _ => True) fun _ => False)
    (hsj : sj.Faithful base.memory tape) {s : Runtime W} (h : Reachable (bridge sj base) s)
    {view : ValueView} {slot : UInt32} {entry : DocEntry} {j : Nat} {root : Json}
    (hview : Resolves s view slot entry j) (hroot : tape s.native entry.nativePtr = some root)
    (hroom : entry.iterLeases.keys.length < 2 ^ 32 - 1) :
    (∀ items, root.At j (.array items) → ∃ leaseId s₁,
      let first : Iter := ⟨view.doc, j + 1, j + 1 + itemsWidth items, leaseId, arrayIterTag, 0⟩
      (arrayIterNew (bridge sj base) (some view)).run s = .ok first s₁ ∧
      (∀ k v, items[k]? = some v → root.At (first.moved (itemsWidth (items.take k))).state0 v) ∧
      ∀ results s' iter', Threaded (Interferes (bridge sj base) first.doc first.index)
          (Uses (arrayIterNext (bridge sj base)) ArrayIterStep.iter) s₁ first results s' iter' →
        ∀ k (hk : k < results.length), results[k] =
          .ok (arrayStep (first.moved (itemsWidth (items.take k))) (items.drop k))) ∧
    (∀ fields, root.At j (.object fields) → ∃ leaseId s₁,
      let first : Iter := ⟨view.doc, j + 1, j + 1 + fieldsWidth fields, leaseId, objectIterTag, 0⟩
      (objectIterNew (bridge sj base) (some view)).run s = .ok first s₁ ∧
      (∀ k key v, fields[k]? = some (key, v) →
        root.At (first.moved (fieldsWidth (fields.take k))).state0 (.string key) ∧
        root.At ((first.moved (fieldsWidth (fields.take k))).state0 + 1) v) ∧
      ∀ results s' iter', Threaded (Interferes (bridge sj base) first.doc first.index)
          (Uses (objectIterNext (bridge sj base)) ObjectIterStep.iter) s₁ first results s' iter' →
        ∀ k (hk : k < results.length), results[k] =
          .ok (objectStep (first.moved (fieldsWidth (fields.take k))) (fields.drop k))) := by
  have hsafe := bridge_tapeSafe hbase hsj
  have hs : Safe tape (fun _ => True) s := by
    obtain ⟨w, events, hrun⟩ := h
    exact safe_of_run hsafe trivial hrun
  have hsplit {α : Type} {l : List α} {k : Nat} {a : α} (hk : l[k]? = some a) :
      l.take k ++ a :: l.drop (k + 1) = l := by
    obtain ⟨hlt, rfl⟩ := List.getElem?_eq_some_iff.mp hk
    rw [← List.drop_eq_getElem_cons hlt, List.take_append_drop]
  refine ⟨fun items hat => ?_, fun fields hat => ?_⟩
  · have hwp : wp (arrayIterNew (bridge sj base) (some view))
        (fun first s' => (∃ leaseId, first =
          ⟨view.doc, j + 1, j + 1 + itemsWidth items, leaseId, arrayIterTag, 0⟩) ∧
          Registered entry.nativePtr slot view.doc first s') (fun _ _ => False) s := by
      refine (wp_withResolvedView_of_resolves hview).mpr ?_
      refine wp_mono (wp_iterNew_exact hsj hroot hat hroom rfl
        (readElement_arrayIterBounds hsj hroot hat)) ?_ fun _ _ => False.elim
      rintro first e ⟨hfirst, hfollowed⟩
      exact ⟨hfirst, hfollowed.live hview.live⟩
    obtain ⟨leaseId, s₁, hrun, hstands⟩ :=
      stands_of_new hsafe h.sized hs hroot (.arrayIterNew (some view)) rfl (fun _ => nofun) hwp
    refine ⟨leaseId, s₁, hrun, fun k v hk => ?_, fun results s' iter' hthread => ?_⟩
    · exact At.item (hsplit hk ▸ hat)
    · exact arrayIterNext_results hsafe hsj hstands rfl rfl hat rfl rfl hthread
  · have hwp : wp (objectIterNew (bridge sj base) (some view))
        (fun first s' => (∃ leaseId, first =
          ⟨view.doc, j + 1, j + 1 + fieldsWidth fields, leaseId, objectIterTag, 0⟩) ∧
          Registered entry.nativePtr slot view.doc first s') (fun _ _ => False) s := by
      refine (wp_withResolvedView_of_resolves hview).mpr ?_
      refine wp_mono (wp_iterNew_exact hsj hroot hat hroom rfl
        (readElement_objectIterBounds hsj hroot hat)) ?_ fun _ _ => False.elim
      rintro first e ⟨hfirst, hfollowed⟩
      exact ⟨hfirst, hfollowed.live hview.live⟩
    obtain ⟨leaseId, s₁, hrun, hstands⟩ :=
      stands_of_new hsafe h.sized hs hroot (.objectIterNew (some view)) rfl (fun _ => nofun) hwp
    refine ⟨leaseId, s₁, hrun, fun k key v hk => ?_, fun results s' iter' hthread => ?_⟩
    · exact ⟨At.key (hsplit hk ▸ hat), At.value (hsplit hk ▸ hat)⟩
    · exact objectIterNext_results hsafe hsj hstands rfl rfl hat rfl rfl hthread

end

theorem sampleRoot_resolves : Resolves sampleState sampleRoot 1 sampleEntry 1 where
  state0_ne := by decide
  reserved_eq := rfl
  live := ⟨by decide, rfl, rfl⟩
  index_eq := rfl

/-- The two fields of the sample's root, and then the end, twice. -/
theorem iteration_complete_sample : ∃ s₁ results s' iter',
    (objectIterNew sampleNative (some sampleRoot)).run sampleState = .ok sampleIter s₁ ∧
    Threaded (Interferes sampleNative sampleDoc 1)
      (Uses (objectIterNext sampleNative) ObjectIterStep.iter) s₁ sampleIter results s' iter' ∧
    results.length = 4 ∧
    ∀ k (hk : k < results.length), results[k] = .ok (objectStep
      (sampleIter.moved (fieldsWidth
        ([([97], .array [.null, .int64 7]), ([97, 97], .int64 7)].take k)))
      ([([97], .array [.null, .int64 7]), ([97, 97], .int64 7)].drop k)) := by
  have huse {s s' : Runtime SampleWorld} {iter : Iter} {step : ObjectIterStep}
      (hrun : (objectIterNext sampleNative (some iter)).run s = .ok step s') :
      Uses (objectIterNext sampleNative) ObjectIterStep.iter s iter (.ok step) s' step.iter :=
    ⟨hrun, rfl⟩
  have hrun : ∃ s₁ results s' iter',
      (objectIterNew sampleNative (some sampleRoot)).run sampleState = .ok sampleIter s₁ ∧
      Threaded (Interferes sampleNative sampleDoc 1)
        (Uses (objectIterNext sampleNative) ObjectIterStep.iter) s₁ sampleIter results s' iter' ∧
      results.length = 4 :=
    ⟨_, _, _, _, rfl, .call (huse rfl) (.call (huse rfl) (.call (huse rfl) (.call (huse rfl)
      (.nil _ _)))), rfl⟩
  obtain ⟨s₁, results, s', iter', hfirst, hthread, hlength⟩ := hrun
  obtain ⟨-, hobject⟩ := iteration_complete sample_lifecycle sample_faithful
    sampleState_reachable sampleRoot_resolves rfl (by decide)
  obtain ⟨leaseId, s₂, hnew, -, hall⟩ :=
    hobject [([97], .array [.null, .int64 7]), ([97, 97], .int64 7)] (at_root sampleDocument)
  -- the iterator is made once, so this is the one above
  obtain ⟨hiter, rfl⟩ := EStateM.Result.ok.inj (hnew.symm.trans hfirst)
  obtain rfl : leaseId = 1 := congrArg Iter.index hiter
  exact ⟨_, results, s', iter', hfirst, hthread, hlength, hall results s' iter' hthread⟩

end PureSimdjson
