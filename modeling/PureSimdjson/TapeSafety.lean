import PureSimdjson.Ownership
import PureSimdjson.TapeLayout

/-!
# Every index is the start of an element

A view or an iterator is a plain struct, and the native side takes any index for the
start of an element.  What keeps it from being led astray is what the registry has
recorded: the indices a document has issued, the bounds its leases stand in, and the
end of its root.  `DocOk` says that these are right for the document's tape.

What is relied on of the native side is `Respects`: at the start of an element the
reads that return positions return positions of the same tape.  Nothing is assumed of
a read at any other index, not even that it leaves the process alone.
-/
namespace PureSimdjson

open Effect SlotTable Runs Json

/-! ## What an entry may record -/

/-- The lease stands before, between or after the children of an array. -/
def ArrayLease (root : Json) (lease : IteratorLease) : Prop :=
  ∃ container before after, root.At container (.array (before ++ after)) ∧
    lease.state0 = container + 1 + itemsWidth before ∧
    lease.state1 = container + 1 + itemsWidth (before ++ after)

/-- The lease stands before, between or after the fields of an object. -/
def ObjectLease (root : Json) (lease : IteratorLease) : Prop :=
  ∃ container before after, root.At container (.object (before ++ after)) ∧
    lease.state0 = container + 1 + fieldsWidth before ∧
    lease.state1 = container + 1 + fieldsWidth (before ++ after)

/-- The lease stands at a child boundary of a container of its kind, and ends where
that container does. -/
def LeaseOk (root : Json) (lease : IteratorLease) : Prop :=
  lease.tag = arrayIterTag ∧ ArrayLease root lease ∨
    lease.tag = objectIterTag ∧ ObjectLease root lease

/-- **What the registry records about a document is right** when its tape holds `root`. -/
structure DocOk (root : Json) (entry : DocEntry) : Prop where
  rootAfterIndex_eq : entry.rootAfterIndex = 1 + root.width
  issued : ∀ j ∈ entry.descendantIndices, ∃ u, root.At j u
  leases : ∀ leaseId lease, entry.iterLeases.lookup leaseId = some lease → LeaseOk root lease

theorem LeaseOk.arrayLease {root : Json} {state0 state1 : Nat}
    (h : LeaseOk root ⟨state0, state1, arrayIterTag⟩) :
    ArrayLease root ⟨state0, state1, arrayIterTag⟩ := by
  rcases h with ⟨-, h⟩ | ⟨htag, -⟩
  · exact h
  · exact absurd htag arrayIterTag_ne_objectIterTag

theorem LeaseOk.objectLease {root : Json} {state0 state1 : Nat}
    (h : LeaseOk root ⟨state0, state1, objectIterTag⟩) :
    ObjectLease root ⟨state0, state1, objectIterTag⟩ := by
  rcases h with ⟨htag, -⟩ | ⟨-, h⟩
  · exact absurd htag.symm arrayIterTag_ne_objectIterTag
  · exact h

/-- An array lease that is not at its end stands on an item, and the boundary after the
item is a lease again. -/
theorem ArrayLease.next {root : Json} {state0 state1 tag : Nat}
    (h : ArrayLease root ⟨state0, state1, tag⟩) (hne : state0 ≠ state1) :
    ∃ v, root.At state0 v ∧ ArrayLease root ⟨state0 + v.width, state1, tag⟩ := by
  obtain ⟨container, before, after, hat, rfl, rfl⟩ := h
  cases after with
  | nil => simp at hne
  | cons v after =>
    refine ⟨v, hat.item, container, before ++ [v], after, ?_, ?_, ?_⟩
    · rwa [List.append_assoc]
    · simp only [itemsWidth_append, itemsWidth]
      omega
    · rw [List.append_assoc]
      rfl

/-- An object lease that is not at its end stands on a key, which is followed by its
value, and the boundary after the value is a lease again. -/
theorem ObjectLease.next {root : Json} {state0 state1 tag : Nat}
    (h : ObjectLease root ⟨state0, state1, tag⟩) (hne : state0 ≠ state1) :
    ∃ key v, root.At state0 (.string key) ∧ root.At (state0 + 1) v ∧
      ObjectLease root ⟨state0 + 1 + v.width, state1, tag⟩ := by
  obtain ⟨container, before, after, hat, rfl, rfl⟩ := h
  cases after with
  | nil => simp at hne
  | cons field after =>
    obtain ⟨key, v⟩ := field
    refine ⟨key, v, hat.key, hat.value, container, before ++ [(key, v)], after, ?_, ?_, ?_⟩
    · rwa [List.append_assoc]
    · simp only [fieldsWidth_append, fieldsWidth]
      omega
    · rw [List.append_assoc]
      rfl

namespace DocOk
variable {root : Json} {entry : DocEntry} (hok : DocOk root entry)
include hok

theorem insert {j : Nat} {u : Json} (hat : root.At j u) :
    DocOk root { entry with descendantIndices := insert j entry.descendantIndices } where
  rootAfterIndex_eq := hok.rootAfterIndex_eq
  issued k hk := by
    rcases Finset.mem_insert.mp hk with rfl | hk
    · exact ⟨u, hat⟩
    · exact hok.issued k hk
  leases := hok.leases

theorem setLease {lease : IteratorLease} (hlease : LeaseOk root lease) (leaseId next : UInt32) :
    DocOk root { entry with
      iterLeases := entry.iterLeases.insert leaseId lease, nextIterLease := next } where
  rootAfterIndex_eq := hok.rootAfterIndex_eq
  issued := hok.issued
  leases leaseId' lease' h := by
    by_cases heq : leaseId' = leaseId
    · subst heq
      rw [AList.lookup_insert] at h
      cases h
      exact hlease
    · rw [AList.lookup_insert_ne heq] at h
      exact hok.leases leaseId' lease' h

/-- **A view that is accepted names an element**, whatever its fields say. -/
theorem viewIndex_at {view : ValueView} {j : Nat} (h : viewIndex view entry = .ok j) :
    ∃ u, root.At j u := by
  simp only [viewIndex, validateDescendant] at h
  split at h
  · split at h
    · cases h
    · cases h
      exact ⟨root, at_root root⟩
  · split at h
    · split at h
      · cases h
      · cases h
        exact hok.issued _ (by tauto)
    · cases h

end DocOk

/-! ## What is relied on -/

/-- What a read at the start of `u`, which is at index `j`, may return: positions it
returns are the ones asked for, or at least positions of the same tape. -/
def ReadSafe (root : Json) (j : Nat) (u : Json) : {α : Type} → ElementRead α → α → Prop
  | _, .elementAfterIndex, after => after = j + u.width
  | _, .arrayIterBounds, bounds =>
    ∃ items, u = .array items ∧ bounds = (j + 1, j + 1 + itemsWidth items)
  | _, .objectIterBounds, bounds =>
    ∃ fields, u = .object fields ∧ bounds = (j + 1, j + 1 + fieldsWidth fields)
  | _, .objectGetFieldIndex _, k => ∃ v, root.At k v
  | _, .arrayAtIndex _, k => ∃ v, root.At k v
  | _, .elementAtPointerIndex _, k => ∃ v, root.At k v
  | _, .elementAtPathIndex _, k => ∃ v, root.At k v
  | _, .elementAtPathWildcardIndices _, ks => ∀ k ∈ ks, ∃ v, root.At k v
  | _, _, _ => True

/-- The call leaves the documents of the process alone. -/
def Leaves {W α : Type} (tape : W → Nat → Option Json) (inv : W → Prop) (call : NativeM W α) :
    Prop :=
  ∀ t, Maintains (fun w => tape w = t ∧ inv w) call fun _ => True

/-- Documents come and go as they should, where `tape w doc` is the document at the
native address `doc`: parsing makes one at a new address, freeing removes it, and no
other call touches any.  `inv` is anything else that the calls keep true, as long as no
document at a `kept` address is freed. -/
structure Lifecycle {W : Type} (native : Native W) (tape : W → Nat → Option Json)
    (inv : W → Prop) (kept : Nat → Prop) : Prop where
  parserNew : Leaves tape inv native.parserNew
  parserNewConfigured : ∀ maxCapacity maxDepth,
    Leaves tape inv (native.parserNewConfigured maxCapacity maxDepth)
  parserFree : ∀ parser, Leaves tape inv (native.parserFree parser)
  parserResetDiagnostics : ∀ parser, Leaves tape inv (native.parserResetDiagnostics parser)
  parserGetLastErrorLen : ∀ parser, Leaves tape inv (native.parserGetLastErrorLen parser)
  parserCopyLastError : ∀ parser dst dstCap outWritten,
    Leaves tape inv (native.parserCopyLastError parser dst dstCap outWritten)
  parserGetLastErrorOffset : ∀ parser, Leaves tape inv (native.parserGetLastErrorOffset parser)
  parserGetLastErrorHasOffset : ∀ parser,
    Leaves tape inv (native.parserGetLastErrorHasOffset parser)
  docRoot : ∀ doc, Leaves tape inv (native.docRoot doc)
  elementType : ∀ element, Leaves tape inv (native.elementType element)
  parserParse : ∀ parser input inputLen w, inv w →
    wp (native.parserParse parser input inputLen)
      (fun doc w' => inv w' ∧ ¬ kept doc ∧ tape w doc = none ∧
        ∃ root, tape w' = Function.update (tape w) doc (some root))
      (fun _ w' => inv w' ∧ tape w' = tape w) w
  docFree : ∀ doc w, inv w →
    wp (native.docFree doc)
      (fun _ w' => (¬ kept doc → inv w') ∧ tape w' = Function.update (tape w) doc none)
      (fun _ w' => inv w' ∧ tape w' = tape w) w
  leakBytes : ∀ bytes w, inv w →
    tape (native.leakBytes bytes w).2 = tape w ∧ inv (native.leakBytes bytes w).2
  leakViews : ∀ views w, inv w →
    tape (native.leakViews views w).2 = tape w ∧ inv (native.leakViews views w).2
  dropBytes : ∀ ptr len w, inv w →
    tape (native.dropBytes ptr len w) = tape w ∧ inv (native.dropBytes ptr len w)
  dropViews : ∀ ptr len w, inv w →
    tape (native.dropViews ptr len w) = tape w ∧ inv (native.dropViews ptr len w)

/-- **What the registry relies on**: the life of documents, and that a read at the start
of an element is safe. -/
structure Respects {W : Type} (native : Native W) (tape : W → Nat → Option Json)
    (inv : W → Prop) (kept : Nat → Prop) : Prop extends Lifecycle native tape inv kept where
  read : ∀ {α : Type} (read : ElementRead α) (t : Nat → Option Json) (doc j : Nat) (root u : Json),
    t doc = some root → root.At j u →
      Maintains (fun w => tape w = t ∧ inv w) (native.read read doc j) (ReadSafe root j u read)

/-! ## Calls on one document -/

section
variable {W : Type} {native : Native W} {tape : W → Nat → Option Json} {inv : W → Prop}
  {kept : Nat → Prop} {t : Nat → Option Json} {doc : Nat} {root u : Json} {j : Nat}
  {handle : UInt64}

/-- The entry is right about its document, and the documents are `t`. -/
structure Sound (tape : W → Nat → Option Json) (inv : W → Prop) (t : Nat → Option Json)
    (doc : Nat) (root : Json) (s : DocEntry × W) : Prop where
  nativePtr_eq : s.1.nativePtr = doc
  ok : DocOk root s.1
  tape_eq : tape s.2 = t
  inv : inv s.2

theorem maintains_getEntry : Maintains (Sound tape inv t doc root) getEntry (DocOk root) :=
  fun _ hs => ⟨hs, hs.ok⟩

theorem maintains_modifyEntry {change : DocEntry → DocEntry}
    (hptr : ∀ entry, (change entry).nativePtr = entry.nativePtr)
    (hok : ∀ entry, DocOk root entry → DocOk root (change entry)) :
    Maintains (Sound tape inv t doc root) (modifyEntry change) fun _ => True :=
  fun _ hs => ⟨⟨(hptr _).trans hs.nativePtr_eq, hok _ hs.ok, hs.tape_eq, hs.inv⟩, trivial⟩

theorem maintains_onDoc {α : Type} {call : Nat → NativeM W α} {Q : α → Prop}
    (h : Maintains (fun w => tape w = t ∧ inv w) (call doc) Q) :
    Maintains (Sound tape inv t doc root) (onDoc call) Q := by
  rintro ⟨entry, w⟩ ⟨rfl, hok, htape, hinv⟩
  rw [wp_onDoc]
  refine wp_mono (h w ⟨htape, hinv⟩) ?_ ?_
  · rintro a w' ⟨⟨htape', hinv'⟩, ha⟩
    exact ⟨⟨rfl, hok, htape', hinv'⟩, ha⟩
  · rintro rc w' ⟨htape', hinv'⟩
    exact ⟨rfl, hok, htape', hinv'⟩

/-- A wrapper passes on what the native call found, or fails. -/
theorem maintains_orInternal {σ α : Type} {I : σ → Prop} {Q : α → Prop} {usable : α → Bool}
    {call : EStateM ErrorCode σ α} (h : Maintains I call Q) :
    Maintains I (do orInternal usable (← call)) fun a => Q a ∧ usable a := by
  refine h.bind fun a ha s hs => ?_
  rw [wp_orInternal]
  exact ⟨fun husable => ⟨hs, ha, husable⟩, fun _ => hs⟩

variable (h : Respects native tape inv kept) (ht : t doc = some root) (hat : root.At j u)
include h ht hat

theorem maintains_read {α : Type} (read : ElementRead α) :
    Maintains (Sound tape inv t doc root) (onDoc (native.read read · j))
      (ReadSafe root j u read) :=
  maintains_onDoc (h.read read t doc j root u ht hat)

theorem maintains_readOrInternal {α : Type} (read : ElementRead α) (usable : α → Bool) :
    Maintains (Sound tape inv t doc root)
      (onDoc fun doc => do orInternal usable (← native.read read doc j))
      fun a => ReadSafe root j u read a ∧ usable a :=
  maintains_onDoc (maintains_orInternal (h.read read t doc j root u ht hat))

theorem maintains_requireKind (kind : ValueKind) :
    Maintains (Sound tape inv t doc root) (requireKind native kind j) fun _ => True :=
  (maintains_read h ht hat _).bind fun _ _ => (Maintains.require _ _).mono fun _ _ => trivial

/-- **Only the start of an element is issued.** -/
theorem maintains_encodeDescendantView :
    Maintains (Sound tape inv t doc root) (encodeDescendantView native handle j)
      fun _ => True := by
  refine maintains_getEntry.bind fun entry _ => (Maintains.require _ _).bind fun _ _ => ?_
  refine (maintains_read h ht hat _).bind fun kindHint _ => ?_
  have hmodify : Maintains (Sound tape inv t doc root) (modifyEntry fun entry =>
      { entry with descendantIndices := insert j entry.descendantIndices }) fun _ => True :=
    maintains_modifyEntry (fun _ => rfl) fun _ hok => hok.insert hat
  exact hmodify.bind fun _ _ => Maintains.pure trivial

omit h ht hat in
theorem maintains_updateLease {state0 state1 tag : Nat}
    (hlease : LeaseOk root ⟨state0, state1, tag⟩) (leaseId : UInt32) :
    Maintains (Sound tape inv t doc root) (updateLease leaseId state0 state1 tag)
      fun _ => True := by
  rintro ⟨entry, w⟩ ⟨rfl, hok, htape, hinv⟩
  rw [updateLease, wp_bind, wp_getEntry, wp_bind, wp_ofExcept]
  refine ⟨fun entry' hupdate => ?_, fun _ _ => ⟨rfl, hok, htape, hinv⟩⟩
  rw [DocEntry.updateIterLease] at hupdate
  split at hupdate
  · split at hupdate
    · rename_i htag
      cases hupdate
      refine ⟨⟨rfl, ?_, htape, hinv⟩, trivial⟩
      exact hok.setLease (htag ▸ hlease) leaseId entry.nextIterLease
    · cases hupdate
  · cases hupdate

omit h ht hat in
theorem maintains_allocLease {state0 state1 tag : Nat}
    (hlease : LeaseOk root ⟨state0, state1, tag⟩) :
    Maintains (Sound tape inv t doc root) (allocLease tag state0 state1) fun _ => True := by
  rintro ⟨entry, w⟩ ⟨rfl, hok, htape, hinv⟩
  rw [allocLease, wp_bind, wp_getEntry, wp_bind, wp_ofExcept]
  refine ⟨fun made halloc => ?_, fun _ _ => ⟨rfl, hok, htape, hinv⟩⟩
  obtain ⟨leaseId, entry'⟩ := made
  obtain ⟨-, -, rfl⟩ := DocEntry.allocIterLease_ok halloc
  exact ⟨⟨rfl, hok.setLease hlease leaseId _, htape, hinv⟩, trivial⟩

/-- The lookups that issue the one index they find. -/
theorem maintains_lookup {read : ElementRead Nat}
    (hfound : ∀ k, ReadSafe root j u read k → ∃ v, root.At k v) :
    Maintains (Sound tape inv t doc root)
      (do
        let valueJsonIndex ← onDoc (nativeLookup native read · j)
        encodeDescendantView native handle valueJsonIndex) fun _ => True := by
  refine (maintains_readOrInternal h ht hat read _).bind fun k hk => ?_
  obtain ⟨v, hv⟩ := hfound k hk.1
  exact maintains_encodeDescendantView h ht hv

/-- A new iterator stands before the first child of its container. -/
theorem maintains_iterNew {kind : ValueKind} {read : ElementRead (Nat × Nat)} {tag : Nat}
    (hbounds : ∀ bounds, ReadSafe root j u read bounds →
      LeaseOk root ⟨bounds.1, bounds.2, tag⟩) :
    Maintains (Sound tape inv t doc root)
      (do
        requireKind native kind j
        let (state0, state1) ← onDoc (nativeIterBounds native read · j)
        let leaseId ← allocLease tag state0 state1
        pure (⟨handle, state0, state1, leaseId, tag, 0⟩ : Iter)) fun _ => True := by
  refine (maintains_requireKind h ht hat kind).bind fun _ _ => ?_
  refine (maintains_readOrInternal h ht hat read _).bind fun bounds hsafe => ?_
  exact (maintains_allocLease (hbounds bounds hsafe.1)).bind fun _ _ => Maintains.pure trivial

omit hat in
/-- **An accepted array iterator stays within its array**, and issues an item of it. -/
theorem maintains_arrayIterAdvance {iter : Iter}
    (hlease : LeaseOk root ⟨iter.state0, iter.state1, arrayIterTag⟩) :
    Maintains (Sound tape inv t doc root) (arrayIterAdvance native iter) fun _ => True := by
  refine Maintains.ite (fun _ => Maintains.pure trivial) fun hne => ?_
  obtain ⟨v, hv, hnext⟩ := hlease.arrayLease.next hne
  refine (maintains_encodeDescendantView h ht hv).bind fun value _ => ?_
  refine (maintains_readOrInternal h ht hv .elementAfterIndex _).bind fun next hsafe => ?_
  obtain ⟨rfl, -⟩ := hsafe
  refine (Maintains.require _ _).bind fun _ _ => ?_
  exact (maintains_updateLease (Or.inl ⟨rfl, hnext⟩) _).bind fun _ _ => Maintains.pure trivial

omit hat in
/-- **An accepted object iterator stays within its object**, and issues a key of it and
the value after the key. -/
theorem maintains_objectIterAdvance {iter : Iter}
    (hlease : LeaseOk root ⟨iter.state0, iter.state1, objectIterTag⟩) :
    Maintains (Sound tape inv t doc root) (objectIterAdvance native iter) fun _ => True := by
  refine Maintains.ite (fun _ => Maintains.pure trivial) fun hne => ?_
  obtain ⟨key, v, hkey, hv, hnext⟩ := hlease.objectLease.next hne
  refine (Maintains.require _ _).bind fun _ _ => (Maintains.require _ _).bind fun _ _ => ?_
  refine maintains_getEntry.bind fun entry _ => (Maintains.ofExcept _).bind fun _ _ => ?_
  refine (maintains_read h ht hkey _).bind fun keyKind _ =>
    (Maintains.require _ _).bind fun _ _ => ?_
  refine (maintains_encodeDescendantView h ht hkey).bind fun keyView _ => ?_
  refine (maintains_encodeDescendantView h ht hv).bind fun value _ => ?_
  refine (maintains_readOrInternal h ht hv .elementAfterIndex _).bind fun next hsafe => ?_
  obtain ⟨rfl, -⟩ := hsafe
  refine (Maintains.require _ _).bind fun _ _ => ?_
  exact (maintains_updateLease (Or.inr ⟨rfl, hnext⟩) _).bind fun _ _ => Maintains.pure trivial

end

/-! ## The registry -/

/-- Every document that was there still is, as it was. -/
def Spared (t t' : Nat → Option Json) : Prop :=
  ∀ doc root, t doc = some root → t' doc = some root

theorem Spared.refl (t : Nat → Option Json) : Spared t t := fun _ _ => id

theorem spared_update {t : Nat → Option Json} {doc : Nat} (h : t doc = none) (x : Option Json) :
    Spared t (Function.update t doc x) := by
  intro doc' root hroot
  have hne : doc' ≠ doc := by
    rintro rfl
    rw [h] at hroot
    cases hroot
  rwa [Function.update_of_ne hne]

/-- Every live document has a tape at its native address, no two have the same address,
and what is recorded about each is right. -/
structure SafeDocs (t : Nat → Option Json) (docs : List (Slot UInt32 DocEntry)) : Prop where
  entries : ∀ (i : Nat) (entry : DocEntry), docs[i]? = some (.occupied entry) →
    ∃ root, t entry.nativePtr = some root ∧ DocOk root entry
  apart : ∀ (i i' : Nat) (entry entry' : DocEntry), docs[i]? = some (.occupied entry) →
    docs[i']? = some (.occupied entry') → entry.nativePtr = entry'.nativePtr → i = i'

namespace SafeDocs
variable {t t' : Nat → Option Json} {docs docs' : List (Slot UInt32 DocEntry)} {i : Nat}
  {entry entry' : DocEntry} {root : Json} (hs : SafeDocs t docs)
include hs

theorem spared (h : Spared t t') : SafeDocs t' docs where
  entries i entry hget := by
    obtain ⟨root, hroot, hok⟩ := hs.entries i entry hget
    exact ⟨root, h _ _ hroot, hok⟩
  apart := hs.apart

/-- A document's entry is replaced by one of the same document. -/
theorem set (hget : docs[i]? = some (.occupied entry)) (hroot : t entry.nativePtr = some root)
    (hptr : entry'.nativePtr = entry.nativePtr) (hok : DocOk root entry') :
    SafeDocs t (docs.set i (.occupied entry')) where
  entries k e he := by
    rcases set_occupied hget he with ⟨-, rfl⟩ | ⟨-, he⟩
    · exact ⟨root, hptr ▸ hroot, hok⟩
    · exact hs.entries k e he
  apart k k' e e' he he' heq := by
    -- an entry of the new table has the address of one of the old table in its place
    have hold (k : Nat) (e : DocEntry)
        (he : (docs.set i (.occupied entry'))[k]? = some (.occupied e)) :
        ∃ f, docs[k]? = some (.occupied f) ∧ e.nativePtr = f.nativePtr := by
      rcases set_occupied hget he with ⟨rfl, rfl⟩ | ⟨-, he⟩
      · exact ⟨entry, hget, hptr⟩
      · exact ⟨e, he, rfl⟩
    obtain ⟨f, hf, hptrf⟩ := hold k e he
    obtain ⟨f', hf', hptrf'⟩ := hold k' e' he'
    exact hs.apart k k' f f' hf hf' (hptrf.symm.trans (heq.trans hptrf'))

/-- A new document comes with a tape at an address where there was none. -/
theorem filled {start : UInt32}
    (hfilled : Filled DocEntry.generation start docs i entry docs')
    (hnone : t entry.nativePtr = none) (hok : DocOk root entry) :
    SafeDocs (Function.update t entry.nativePtr (some root)) docs' := by
  have hs' := hs.spared (spared_update hnone (some root))
  have hnew (k : Nat) (e : DocEntry) (he : docs[k]? = some (.occupied e)) :
      e.nativePtr ≠ entry.nativePtr := by
    intro heq
    obtain ⟨root', hroot', -⟩ := hs.entries k e he
    rw [heq, hnone] at hroot'
    cases hroot'
  refine ⟨fun k e he => ?_, fun k k' e e' he he' heq => ?_⟩
  · rcases hfilled.occupied he with ⟨-, rfl⟩ | ⟨-, he⟩
    · exact ⟨root, Function.update_self .., hok⟩
    · exact hs'.entries k e he
  · rcases hfilled.occupied he with ⟨rfl, rfl⟩ | ⟨-, he⟩
    · rcases hfilled.occupied he' with ⟨rfl, -⟩ | ⟨-, he'⟩
      · rfl
      · exact absurd heq.symm (hnew k' e' he')
    · rcases hfilled.occupied he' with ⟨-, rfl⟩ | ⟨-, he'⟩
      · exact absurd heq (hnew k e he)
      · exact hs.apart k k' e e' he he' heq

/-- Freeing a document takes its tape, and no other. -/
theorem vacate (hget : docs[i]? = some (.occupied entry)) (generation : UInt32) :
    SafeDocs (Function.update t entry.nativePtr none) (docs.set i (.vacant generation)) where
  entries k e he := by
    obtain ⟨hne, he⟩ := set_vacant hget he
    have hptr : e.nativePtr ≠ entry.nativePtr := fun heq => hne (hs.apart _ _ _ _ he hget heq)
    obtain ⟨root, hroot, hok⟩ := hs.entries k e he
    exact ⟨root, by rwa [Function.update_of_ne hptr], hok⟩
  apart k k' e e' he he' :=
    hs.apart k k' e e' (set_vacant hget he).2 (set_vacant hget he').2

end SafeDocs

/-- **What holds between calls.** -/
structure Safe {W : Type} (tape : W → Nat → Option Json) (inv : W → Prop) (s : Runtime W) :
    Prop where
  docs : SafeDocs (tape s.native) s.registry.docs
  inv : inv s.native

section
variable {W : Type} {native : Native W} {tape : W → Nat → Option Json} {inv : W → Prop}
  {kept : Nat → Prop}

/-- What is done to parsers and ledgers, or beside the documents, does not matter. -/
theorem Safe.congr {s s' : Runtime W} (hs : Safe tape inv s)
    (hdocs : s'.registry.docs = s.registry.docs) (htape : Spared (tape s.native) (tape s'.native))
    (hinv : inv s'.native) : Safe tape inv s' :=
  ⟨hdocs ▸ hs.docs.spared htape, hinv⟩

/-- Writing back a document's entry, with what the call on it maintained. -/
theorem Safe.setDoc {s : Runtime W} {i : Nat} {entry : DocEntry} {root : Json} {e : DocEntry × W}
    (hs : Safe tape inv s) (hget : s.registry.docs[i]? = some (.occupied entry))
    (hroot : tape s.native entry.nativePtr = some root)
    (he : Sound tape inv (tape s.native) entry.nativePtr root e) :
    Safe tape inv ⟨s.registry.setDoc i (.occupied e.1), e.2⟩ :=
  ⟨he.tape_eq ▸ hs.docs.set hget hroot he.nativePtr_eq he.ok, he.inv⟩

/-- A call through a view maintains safety if its action does on the element the view
names, whichever that is. -/
theorem maintains_withResolvedView {α : Type} {view : Option ValueView}
    {action : Nat → UInt64 → DocM W α}
    (haction : ∀ t doc root j u handle, t doc = some root → root.At j u →
      Maintains (Sound tape inv t doc root) (action j handle) fun _ => True) :
    Maintains (Safe tape inv) (withResolvedView view action) fun _ => True := by
  intro s hs
  refine wp_withResolvedView (fun _ => hs) (fun _ _ => hs) ?_
  intro v slot generation entry j _ _ _ hentry hview
  have hget := (Registry.docAt_eq_some.mp hentry).1
  obtain ⟨root, hroot, hok⟩ := hs.docs.entries _ _ hget
  obtain ⟨u, hat⟩ := hok.viewIndex_at hview
  have hm := haction _ _ root j u v.doc hroot hat (entry, s.native) ⟨rfl, hok, rfl, hs.inv⟩
  exact wp_mono hm (fun a e he => ⟨hs.setDoc hget hroot he.1, trivial⟩)
    fun rc e he => hs.setDoc hget hroot he

/-- A call through an iterator maintains safety if its action does on a lease in the
state the iterator carries. -/
theorem maintains_withIterDoc {α : Type} {iter : Iter} {tag : Nat} {action : DocM W α}
    (haction : ∀ t doc root, t doc = some root → LeaseOk root ⟨iter.state0, iter.state1, tag⟩ →
      Maintains (Sound tape inv t doc root) action fun _ => True) :
    Maintains (Safe tape inv) (withIterDoc iter tag action) fun _ => True := by
  intro s hs
  refine wp_withIterDoc hs ?_
  intro slot generation entry _ _ _ hentry hlease
  have hget := (Registry.docAt_eq_some.mp hentry).1
  obtain ⟨root, hroot, hok⟩ := hs.docs.entries _ _ hget
  have hm := haction _ _ root hroot (hok.leases _ _ hlease) (entry, s.native)
    ⟨rfl, hok, rfl, hs.inv⟩
  exact wp_mono hm (fun a e he => ⟨hs.setDoc hget hroot he.1, trivial⟩)
    fun rc e he => hs.setDoc hget hroot he

theorem maintains_callNative {α : Type} {call : NativeM W α} (hcall : Leaves tape inv call) :
    Maintains (Safe tape inv) (callNative call) fun _ => True := by
  intro s hs
  rw [wp_callNative]
  refine wp_mono (hcall _ s.native ⟨rfl, hs.inv⟩) ?_ ?_
  · rintro a w ⟨⟨htape, hinv⟩, -⟩
    exact ⟨hs.congr rfl (htape ▸ .refl _) hinv, trivial⟩
  · rintro rc w ⟨htape, hinv⟩
    exact hs.congr rfl (htape ▸ .refl _) hinv

theorem maintains_modifyRegistry {change : Registry → Registry}
    (hdocs : ∀ registry, (change registry).docs = registry.docs) :
    Maintains (Safe tape inv) (modifyRegistry change) fun _ => True := by
  intro s hs
  rw [wp_modifyRegistry]
  exact ⟨hs.congr (hdocs _) (.refl _) hs.inv, trivial⟩

theorem maintains_getRegistry : Maintains (Safe tape inv) getRegistry fun _ => True :=
  fun _ hs => ⟨hs, trivial⟩

theorem maintains_lookupParser (index : Nat) (generation : UInt32) :
    Maintains (Safe tape inv) (lookupParser index generation) fun _ => True := by
  intro s hs
  rw [wp_lookupParser]
  exact ⟨fun _ _ => ⟨hs, trivial⟩, fun _ => hs⟩

/-! ## Parsing and freeing -/

variable (h : Respects native tape inv kept)
include h

/-- Freeing a document that the registry never knew spares the others, also when it
fails. -/
theorem wp_cleanup_docFree {t : Nat → Option Json} {doc : Nat} {root : Json} {w : W}
    (hloose : ¬ kept doc) (hnone : t doc = none)
    (htape : tape w = Function.update t doc (some root)) (hinv : inv w)
    {Q : W → Prop} (hQ : ∀ w', inv w' → Spared t (tape w') → Q w')
    {E : ErrorCode → W → Prop} :
    wp (cleanup (native.docFree doc)) (fun _ => Q) E w := by
  rw [wp_cleanup]
  refine wp_mono (h.docFree doc w hinv) ?_ ?_
  · rintro - w' ⟨hinv', htape'⟩
    refine hQ w' (hinv' hloose) ?_
    rw [htape', htape, Function.update_idem]
    exact spared_update hnone none
  · rintro rc w' ⟨hinv', htape'⟩
    refine hQ w' hinv' ?_
    rw [htape', htape]
    exact spared_update hnone (some root)

theorem wp_nativeParserParse (parser : Nat) (input : Bytes) (inputLen : Nat) {w : W}
    (hinv : inv w) :
    wp (nativeParserParse native parser input inputLen)
      (fun parsed w' => inv w' ∧ ¬ kept parsed.docPtr ∧ tape w parsed.docPtr = none ∧
        ∃ root, tape w' = Function.update (tape w) parsed.docPtr (some root))
      (fun _ w' => inv w' ∧ Spared (tape w) (tape w')) w := by
  rw [nativeParserParse, wp_bind]
  refine wp_mono (h.parserParse parser input inputLen w hinv) ?_ ?_
  · rintro doc w₁ ⟨hinv₁, hloose, hnone, root, htape₁⟩
    have hspared : Spared (tape w) (tape w₁) := htape₁ ▸ spared_update hnone (some root)
    rw [wp_bind, wp_orInternal]
    refine ⟨fun _ => ?_, fun _ => ⟨hinv₁, hspared⟩⟩
    rw [wp_bind, wp_tryCatch]
    refine wp_mono (h.docRoot doc _ w₁ ⟨htape₁, hinv₁⟩) ?_ ?_
    · rintro rootPtr w₂ ⟨⟨htape₂, hinv₂⟩, -⟩
      rw [wp_ite]
      refine ⟨fun _ => ?_, fun _ => ⟨hinv₂, hloose, hnone, root, htape₂⟩⟩
      rw [wp_bind]
      exact wp_cleanup_docFree h hloose hnone htape₂ hinv₂ fun w' hinv' hspared' =>
        ⟨hinv', hspared'⟩
    · rintro rc w₂ ⟨htape₂, hinv₂⟩
      rw [wp_bind]
      exact wp_cleanup_docFree h hloose hnone htape₂ hinv₂ fun w' hinv' hspared' =>
        ⟨hinv', hspared'⟩
  · rintro rc w' ⟨hinv', htape'⟩
    exact ⟨hinv', htape' ▸ .refl _⟩

/-- The read that finds the end of the root of a new document. -/
theorem wp_rootAfterIndex {t : Nat → Option Json} {doc : Nat} {root : Json} {w : W}
    (hroot : t doc = some root) (htape : tape w = t) (hinv : inv w) :
    wp (nativeElementAfterIndex native doc rootJsonIndex)
      (fun rootAfterIndex w' => rootAfterIndex = 1 + root.width ∧ tape w' = t ∧ inv w')
      (fun _ w' => tape w' = t ∧ inv w') w := by
  have hread := h.read .elementAfterIndex t doc 1 root root hroot (at_root root)
  refine wp_mono (maintains_orInternal hread w ⟨htape, hinv⟩) ?_ fun _ _ => id
  rintro a w' ⟨⟨htape', hinv'⟩, hsafe, -⟩
  exact ⟨hsafe, htape', hinv'⟩

/-- **Parsing maintains safety**, wherever it fails. -/
theorem wp_parserParse_safe (handle : UInt64) (input : Bytes) {s : Runtime W}
    (hsized : s.registry.Sized) (hs : Safe tape inv s) :
    wp (parserParse native handle input) (fun _ => Safe tape inv) (fun _ => Safe tape inv) s := by
  -- as long as the documents are not touched, it does not matter what happens to the rest
  have hrest {registry' : Registry} {w' : W} (hdocs : registry'.docs = s.registry.docs)
      (hinv' : inv w') (hspared : Spared (tape s.native) (tape w')) :
      Safe tape inv ⟨registry', w'⟩ := hs.congr hdocs hspared hinv'
  rw [parserParse, wp_bind]
  refine wp_unpackHandle (fun slot generation hslot hhandle => ?_) hs
  rw [wp_bind, wp_lookupParser]
  refine ⟨fun entry hentry => ?_, fun _ => hs⟩
  have hlive := ParserLive.of_parserAt hslot hhandle hentry
  obtain ⟨-, rfl⟩ := Registry.parserAt_eq_some.mp hentry
  rw [wp_bind, wp_require]
  refine ⟨fun hidle => ?_, fun _ => hs⟩
  rw [wp_bind, wp_callNative]
  refine wp_mono (h.parserResetDiagnostics entry.nativePtr _ s.native ⟨rfl, hs.inv⟩) ?_ ?_
  swap
  · rintro rc w ⟨htape, hinv⟩
    exact hrest rfl hinv (htape ▸ .refl _)
  rintro - w ⟨⟨htape, hinv⟩, -⟩
  have hsame : Spared (tape s.native) (tape w) := htape ▸ .refl _
  rw [wp_bind, wp_require]
  refine ⟨fun _ => ?_, fun _ => hrest rfl hinv hsame⟩
  rw [wp_bind, wp_modifyRegistry, wp_bind, wp_ofExcept]
  refine ⟨fun padding _ => ?_, fun _ _ => hrest rfl hinv hsame⟩
  rw [wp_bind, wp_require]
  refine ⟨fun _ => ?_, fun _ => hrest rfl hinv hsame⟩
  dsimp only
  generalize paddedInput entry.reusableInput input padding = ownedInput
  rw [wp_bind, wp_tryCatch, wp_callNative]
  refine wp_mono (wp_nativeParserParse h entry.nativePtr ownedInput input.length hinv) ?_ ?_
  swap
  · rintro rc w₁ ⟨hinv₁, hspared⟩
    rw [wp_bind]
    rw [htape] at hspared
    exact hlive.wp_restore [] hidle ownedInput (hrest rfl hinv₁ hspared)
  rintro parsed w₁ ⟨hinv₁, hloose, hnone, root, htape₁⟩
  rw [htape] at hnone htape₁
  -- what follows fails by giving the document up again
  have hdiscard {α : Type} {Q : α → Runtime W → Prop} (rc : ErrorCode) (w' : W) (hinv' : inv w')
      (htape' : tape w' = Function.update (tape s.native) parsed.docPtr (some root)) :
      wp (discardParsed native parsed.docPtr (slotIndex slot) entry.generation ownedInput rc) Q
        (fun _ => Safe tape inv) ⟨refill s.registry slot entry [], w'⟩ := by
    rw [discardParsed, wp_bind, wp_callNative]
    refine wp_cleanup_docFree h hloose hnone htape' hinv' fun w'' hinv'' hspared => ?_
    rw [wp_bind]
    exact hlive.wp_restore [] hidle ownedInput (hrest rfl hinv'' hspared)
  rw [wp_bind, wp_tryCatch, wp_callNative]
  have hroot : Function.update (tape s.native) parsed.docPtr (some root) parsed.docPtr =
      some root :=
    Function.update_self ..
  refine wp_mono (wp_rootAfterIndex h hroot htape₁ hinv₁) ?_ ?_
  swap
  · rintro rc w₂ ⟨htape₂, hinv₂⟩
    exact hdiscard rc w₂ hinv₂ htape₂
  rintro rootAfterIndex w₂ ⟨hafter, htape₂, hinv₂⟩
  rw [wp_bind, wp_getRegistry]
  have hsized' : (refill s.registry slot entry []).Sized :=
    ⟨by simpa [refill, Registry.setParser] using hsized.parsers, hsized.docs⟩
  cases halloc : (refill s.registry slot entry []).allocDoc parsed.docPtr parsed.rootPtr
      rootAfterIndex slot entry.generation ownedInput with
  | error rc =>
    rw [refill] at halloc
    rw [halloc]
    exact hdiscard rc w₂ hinv₂ htape₂
  | ok made =>
    obtain ⟨docHandle, registry'⟩ := made
    obtain ⟨docSlot, generation, hdocSlot, rfl, hfilled, hparsers⟩ :=
      Registry.allocDoc_ok hsized' halloc
    rw [refill] at halloc
    rw [halloc]
    dsimp only
    rw [wp_bind, wp_modifyRegistry]
    refine wp_mono (hlive.wp_occupyParser native hdocSlot hparsers parsed.docPtr w₂) ?_
      (fun _ _ => id)
    rintro - s' ⟨-, rfl⟩
    refine ⟨?_, hinv₂⟩
    rw [htape₂]
    -- nothing has been issued yet, and there are no leases
    refine hs.docs.filled hfilled hnone ⟨hafter, fun _ hj => ?_, fun _ _ hlease => ?_⟩
    · exact absurd hj (Finset.notMem_empty _)
    · rw [AList.lookup_empty] at hlease
      cases hlease

/-- The call frees no document that is to be kept. -/
abbrev Spares (kept : Nat → Prop) (registry : Registry) (call : Call) : Prop :=
  ∀ handle slot entry, call = .docFree handle → DocLive registry handle slot entry →
    ¬ kept entry.nativePtr

/-- **Freeing a document maintains safety**, whether it succeeds or fails. -/
theorem wp_docFree_safe (handle : UInt64) {s : Runtime W} (hs : Safe tape inv s) :
    wp (docFree native handle)
      (fun _ s' => Spares kept s.registry (.docFree handle) → Safe tape inv s')
      (fun _ => Safe tape inv) s := by
  rw [docFree, wp_bind]
  refine wp_unpackHandle (fun docSlot generation hslot hhandle => ?_) hs
  rw [wp_bind, wp_lookupDoc]
  refine ⟨fun doc hdoc => ?_, fun _ => hs⟩
  rw [wp_bind, wp_require]
  refine ⟨fun _ => ?_, fun _ => hs⟩
  rw [wp_bind, wp_lookupParser]
  refine ⟨fun owner howner => ?_, fun _ => hs⟩
  rw [wp_bind, wp_require]
  refine ⟨fun _ => ?_, fun _ => hs⟩
  rw [wp_bind, wp_callNative]
  refine wp_mono (h.docFree doc.nativePtr s.native hs.inv) ?_ ?_
  · rintro - w ⟨hinv, htape⟩
    have hlive := DocLive.of_docAt hslot hhandle hdoc
    have hagain : (s.registry.setDoc (slotIndex docSlot)
        (.vacant (nextDocGeneration generation))).parserAt (doc.ownerSlot - 1).toNat
          doc.ownerGeneration = some owner := howner
    have hget := (Registry.docAt_eq_some.mp hdoc).1
    rw [wp_bind, wp_getRegistry, hdoc, wp_bind, wp_modifyRegistry, wp_bind, wp_getRegistry, hagain,
      wp_modifyRegistry]
    exact fun hspares => ⟨htape ▸ hs.docs.vacate hget _, hinv (hspares _ _ _ rfl hlive)⟩
  · rintro rc w ⟨hinv, htape⟩
    exact hs.congr rfl (htape ▸ .refl _) hinv

/-! ## The other calls -/

omit h in
theorem leaves_modify {f : W → W} (hf : ∀ w, inv w → tape (f w) = tape w ∧ inv (f w)) :
    Leaves tape inv (modify f) := by
  rintro t w ⟨rfl, hinv⟩
  exact ⟨hf w hinv, trivial⟩

omit h in
theorem leaves_modifyGet {α : Type} {f : W → α × W}
    (hf : ∀ w, inv w → tape (f w).2 = tape w ∧ inv (f w).2) : Leaves tape inv (modifyGet f) := by
  rintro t w ⟨rfl, hinv⟩
  exact ⟨hf w hinv, trivial⟩

omit h in
theorem leaves_orInternal {α : Type} {usable : α → Bool} {call : NativeM W α}
    (hcall : Leaves tape inv call) : Leaves tape inv (do orInternal usable (← call)) :=
  fun t => (maintains_orInternal (hcall t)).mono fun _ _ => trivial

omit h in
theorem leaves_cleanup {call : NativeM W Unit} (hcall : Leaves tape inv call) :
    Leaves tape inv (cleanup call) :=
  fun t => (hcall t).tryCatch fun _ => Maintains.pure trivial

theorem maintains_registerParser (nativePtr maxCapacity : Nat) (maxDepth : UInt32) :
    Maintains (Safe tape inv) (registerParser native nativePtr maxCapacity maxDepth)
      fun _ => True := by
  intro s hs
  rw [registerParser, wp_bind, wp_getRegistry]
  cases halloc : s.registry.allocParser nativePtr maxCapacity maxDepth with
  | error rc =>
    exact ((maintains_callNative (leaves_cleanup (h.parserFree nativePtr))).bind
      fun _ _ => Maintains.throw rc) s hs
  | ok made =>
    obtain ⟨handle, registry'⟩ := made
    exact ⟨hs.congr (Registry.allocParser_docs halloc) (.refl _) hs.inv, trivial⟩

theorem maintains_parserNew : Maintains (Safe tape inv) (parserNew native) fun _ => True :=
  (maintains_callNative (leaves_orInternal h.parserNew)).bind fun _ _ =>
    maintains_registerParser h _ _ _

theorem maintains_parserNewConfigured (maxCapacity : Nat) (maxDepth : UInt32) :
    Maintains (Safe tape inv) (parserNewConfigured native maxCapacity maxDepth) fun _ => True :=
  (Maintains.ofExcept _).bind fun _ _ =>
    (maintains_callNative (leaves_orInternal (h.parserNewConfigured _ _))).bind fun _ _ =>
      maintains_registerParser h _ _ _

theorem maintains_parserFree (handle : UInt64) :
    Maintains (Safe tape inv) (parserFree native handle) fun _ => True := by
  refine (Maintains.ofExcept _).bind fun parts _ => ?_
  refine (maintains_lookupParser _ _).bind fun entry _ => (Maintains.require _ _).bind fun _ _ => ?_
  exact (maintains_callNative (h.parserFree _)).bind fun _ _ =>
    maintains_modifyRegistry fun _ => rfl

omit h in
theorem maintains_withParser {α : Type} (handle : UInt64) {call : Nat → NativeM W α}
    (hcall : ∀ parser, Leaves tape inv (call parser)) :
    Maintains (Safe tape inv) (withParser handle call) fun _ => True :=
  maintains_getRegistry.bind fun _ _ => (Maintains.ofExcept _).bind fun _ _ =>
    maintains_callNative (hcall _)

theorem maintains_docRoot (handle : UInt64) :
    Maintains (Safe tape inv) (docRoot native handle) fun _ => True :=
  maintains_getRegistry.bind fun _ _ => (Maintains.ofExcept _).bind fun _ _ =>
    (maintains_callNative (h.elementType _)).bind fun _ _ => Maintains.pure trivial

omit h in
theorem maintains_registerBlock {ledger : Ledger} (hledger : ledger.Apart)
    {drop : Nat → Nat → W → W}
    (hdrop : ∀ ptr len w, inv w → tape (drop ptr len w) = tape w ∧ inv (drop ptr len w))
    (ptr len : Nat) :
    Maintains (Safe tape inv) (registerBlock ledger drop ptr len) fun _ => True := by
  refine maintains_getRegistry.bind fun registry _ => ?_
  refine (maintains_modifyRegistry fun _ => hledger.docs _ _).bind fun _ _ => ?_
  refine Maintains.ite (fun _ => ?_) fun _ => Maintains.pure trivial
  exact (maintains_callNative (leaves_modify (hdrop ptr len))).bind fun _ _ => Maintains.throw _

omit h in
theorem maintains_freeBlock {ledger : Ledger} (hledger : ledger.Apart)
    {drop : Nat → Nat → W → W}
    (hdrop : ∀ ptr len w, inv w → tape (drop ptr len w) = tape w ∧ inv (drop ptr len w))
    (ptr len : Nat) :
    Maintains (Safe tape inv) (freeBlock ledger drop ptr len) fun _ => True := by
  have hset (change : Registry → AList fun _ : Nat => Nat) :
      Maintains (Safe tape inv)
        (modifyRegistry fun registry => ledger.set registry (change registry)) fun _ => True :=
    maintains_modifyRegistry fun _ => hledger.docs _ _
  refine Maintains.ite (fun _ => (Maintains.require _ _).mono fun _ _ => trivial) fun _ => ?_
  refine (Maintains.require _ _).bind fun _ _ => maintains_getRegistry.bind fun registry _ => ?_
  cases (ledger.get registry).lookup ptr with
  | none => exact Maintains.throw _
  | some registeredLen =>
    refine (hset _).bind fun _ _ => Maintains.ite (fun _ => ?_) fun _ => ?_
    · exact maintains_callNative (leaves_modify (hdrop ptr len))
    · exact (hset _).bind fun _ _ => Maintains.throw _

theorem maintains_readView {α : Type} (read : ElementRead α) (view : Option ValueView) :
    Maintains (Safe tape inv) (readView native read view) fun _ => True :=
  maintains_withResolvedView fun _ _ _ _ _ _ ht hat =>
    (maintains_read h ht hat read).mono fun _ _ => trivial

theorem maintains_materializeBuild (view : Option ValueView) :
    Maintains (Safe tape inv) (materializeBuild native view) fun _ => True :=
  maintains_withResolvedView fun _ _ _ _ _ _ ht hat =>
    (maintains_readOrInternal h ht hat .materializeBuild _).mono fun _ _ => trivial

theorem maintains_elementGetFloat64 (view : Option ValueView) :
    Maintains (Safe tape inv) (elementGetFloat64 native view) fun _ => True := by
  refine maintains_withResolvedView fun t doc root j u handle ht hat => ?_
  refine (maintains_read h ht hat _).bind fun kind _ => ?_
  refine Maintains.ite (fun _ => ?_) fun _ => Maintains.ite (fun _ => ?_) fun _ => ?_
  · exact (maintains_read h ht hat _).bind fun _ _ => (Maintains.require _ _).bind fun _ _ =>
      Maintains.pure trivial
  · exact (maintains_read h ht hat _).bind fun _ _ => (Maintains.require _ _).bind fun _ _ =>
      Maintains.pure trivial
  · exact (maintains_read h ht hat _).mono fun _ _ => trivial

theorem maintains_elementGetBytesCopy (getter : ElementRead Span) (view : Option ValueView) :
    Maintains (Safe tape inv) (elementGetBytesCopy native getter view) fun _ => True := by
  have hcopy : Maintains (Safe tape inv) (withResolvedView view fun jsonIndex _ => do
      let borrowed ← onDoc (native.read getter · jsonIndex)
      if borrowed.len = 0 then pure (0, 0)
      else do
        require (borrowed.ptr ≠ 0) .internal
        let ptr ← onDoc fun _ => do
          let bytes := (native.memory (← get)).read borrowed
          modifyGet (native.leakBytes bytes)
        pure (ptr, borrowed.len)) fun _ => True := by
    refine maintains_withResolvedView fun t doc root j u handle ht hat => ?_
    refine (maintains_read h ht hat _).bind fun borrowed _ => ?_
    refine Maintains.ite (fun _ => Maintains.pure trivial) fun _ => ?_
    refine (Maintains.require _ _).bind fun _ _ => ?_
    refine (maintains_onDoc fun w hw => ?_).bind fun ptr (_ : True) => Maintains.pure trivial
    exact leaves_modifyGet (h.leakBytes ((native.memory w).read borrowed)) t w hw
  refine hcopy.bind fun block _ => ?_
  obtain ⟨ptr, len⟩ := block
  exact Maintains.ite (fun _ => Maintains.pure trivial) fun _ =>
    maintains_registerBlock byteLedger_apart h.dropBytes ptr len

theorem maintains_objectGetField (view : Option ValueView) (key : Bytes) :
    Maintains (Safe tape inv) (objectGetField native view key) fun _ => True :=
  maintains_withResolvedView fun _ _ _ _ _ _ ht hat =>
    (maintains_requireKind h ht hat _).bind fun _ _ => maintains_lookup h ht hat fun _ => id

theorem maintains_arrayAt (view : Option ValueView) (index : Nat) :
    Maintains (Safe tape inv) (arrayAt native view index) fun _ => True :=
  maintains_withResolvedView fun _ _ _ _ _ _ ht hat =>
    (maintains_requireKind h ht hat _).bind fun _ _ => maintains_lookup h ht hat fun _ => id

theorem maintains_elementAtPointer (view : Option ValueView) (pointer : Bytes) :
    Maintains (Safe tape inv) (elementAtPointer native view pointer) fun _ => True :=
  maintains_withResolvedView fun _ _ _ _ _ _ ht hat => maintains_lookup h ht hat fun _ => id

theorem maintains_elementAtPath (view : Option ValueView) (path : Bytes) :
    Maintains (Safe tape inv) (elementAtPath native view path) fun _ => True :=
  maintains_withResolvedView fun _ _ _ _ _ _ ht hat => maintains_lookup h ht hat fun _ => id

/-- The size calls. -/
theorem maintains_size {kind : ValueKind} (read : ElementRead Nat) (view : Option ValueView) :
    Maintains (Safe tape inv) (withResolvedView view fun jsonIndex _ => do
      requireKind native kind jsonIndex
      onDoc (native.read read · jsonIndex)) fun _ => True :=
  maintains_withResolvedView fun _ _ _ _ _ _ ht hat =>
    (maintains_requireKind h ht hat _).bind fun _ _ =>
      (maintains_read h ht hat read).mono fun _ _ => trivial

theorem maintains_elementAtPathWildcard (view : Option ValueView) (path : Bytes) :
    Maintains (Safe tape inv) (elementAtPathWildcard native view path) fun _ => True := by
  have hviews : Maintains (Safe tape inv) (withResolvedView view fun jsonIndex doc => do
      let indices ← onDoc (native.read (.elementAtPathWildcardIndices path) · jsonIndex)
      indices.mapM (encodeDescendantView native doc)) fun _ => True := by
    refine maintains_withResolvedView fun t doc root j u handle ht hat => ?_
    refine (maintains_read h ht hat _).bind fun indices hfound => ?_
    have hissue (k : Nat) (hk : k ∈ indices) : Maintains (Sound tape inv t doc root)
        (encodeDescendantView native handle k) fun _ => True := by
      obtain ⟨v, hv⟩ := hfound k hk
      exact maintains_encodeDescendantView h ht hv
    exact (Maintains.mapM hissue).mono fun _ _ => trivial
  refine hviews.bind fun views _ => Maintains.ite (fun _ => Maintains.pure trivial) fun _ => ?_
  exact (maintains_callNative (leaves_modifyGet (h.leakViews views))).bind fun ptr _ =>
    maintains_registerBlock viewLedger_apart h.dropViews ptr _

theorem maintains_arrayIterNew (view : Option ValueView) :
    Maintains (Safe tape inv) (arrayIterNew native view) fun _ => True := by
  refine maintains_withResolvedView fun t doc root j u handle ht hat => ?_
  refine maintains_iterNew h ht hat ?_
  rintro bounds ⟨items, rfl, rfl⟩
  exact Or.inl ⟨rfl, j, [], items, hat, rfl, rfl⟩

theorem maintains_objectIterNew (view : Option ValueView) :
    Maintains (Safe tape inv) (objectIterNew native view) fun _ => True := by
  refine maintains_withResolvedView fun t doc root j u handle ht hat => ?_
  refine maintains_iterNew h ht hat ?_
  rintro bounds ⟨fields, rfl, rfl⟩
  exact Or.inr ⟨rfl, j, [], fields, hat, rfl, rfl⟩

theorem maintains_arrayIterNext (iter : Option Iter) :
    Maintains (Safe tape inv) (arrayIterNext native iter) fun _ => True := by
  cases iter with
  | none => exact Maintains.throw _
  | some iter =>
    exact maintains_withIterDoc fun _ _ _ ht hlease => maintains_arrayIterAdvance h ht hlease

theorem maintains_objectIterNext (iter : Option Iter) :
    Maintains (Safe tape inv) (objectIterNext native iter) fun _ => True := by
  cases iter with
  | none => exact Maintains.throw _
  | some iter =>
    exact maintains_withIterDoc fun _ _ _ ht hlease => maintains_objectIterAdvance h ht hlease

/-- **Every call maintains safety**, with any arguments. -/
theorem wp_exec_safe {s : Runtime W} (hsized : s.registry.Sized) (hs : Safe tape inv s)
    (call : Call) :
    wp (exec native call) (fun _ s' => Spares kept s.registry call → Safe tape inv s')
      (fun _ => Safe tape inv) s := by
  have hmap {α : Type} {m : RuntimeM W α} (f : α → Reply)
      (hm : Maintains (Safe tape inv) m fun _ => True) :
      wp (f <$> m) (fun _ s' => Spares kept s.registry call → Safe tape inv s')
        (fun _ => Safe tape inv) s := by
    rw [wp_map]
    exact wp_mono (hm s hs) (fun _ _ h _ => h.1) fun _ _ h => h
  cases call with
  | parserNew => exact hmap _ (maintains_parserNew h)
  | parserNewConfigured maxCapacity maxDepth => exact hmap _ (maintains_parserNewConfigured h _ _)
  | parserFree handle => exact hmap _ (maintains_parserFree h handle)
  | parserParse handle input =>
    rw [exec, wp_map]
    exact wp_mono (wp_parserParse_safe h handle input hsized hs) (fun _ _ h _ => h) fun _ _ h => h
  | parserLastErrorLen handle => exact hmap _ (maintains_withParser handle h.parserGetLastErrorLen)
  | parserCopyLastError handle dst dstCap outWritten =>
    exact hmap _ (maintains_withParser handle fun _ => h.parserCopyLastError _ _ _ _)
  | parserLastErrorOffset handle =>
    exact hmap _ (maintains_withParser handle h.parserGetLastErrorOffset)
  | parserLastErrorHasOffset handle =>
    exact hmap _ (maintains_withParser handle h.parserGetLastErrorHasOffset)
  | docFree handle =>
    rw [exec, wp_map]
    exact wp_docFree_safe h handle hs
  | docRoot handle => exact hmap _ (maintains_docRoot h handle)
  | elementType view => exact hmap _ (maintains_readView h _ view)
  | elementGetInt64 view => exact hmap _ (maintains_readView h _ view)
  | elementGetUint64 view => exact hmap _ (maintains_readView h _ view)
  | elementGetFloat64 view => exact hmap _ (maintains_elementGetFloat64 h view)
  | elementGetString view => exact hmap _ (maintains_elementGetBytesCopy h _ view)
  | elementGetBigint view => exact hmap _ (maintains_elementGetBytesCopy h _ view)
  | elementGetBool view => exact hmap _ (maintains_readView h _ view)
  | elementIsNull view => exact hmap _ (maintains_readView h _ view)
  | bytesFree ptr len => exact hmap _ (maintains_freeBlock byteLedger_apart h.dropBytes ptr len)
  | valueViewsFree ptr len =>
    exact hmap _ (maintains_freeBlock viewLedger_apart h.dropViews ptr len)
  | arrayIterNew view => exact hmap _ (maintains_arrayIterNew h view)
  | arrayIterNext iter => exact hmap _ (maintains_arrayIterNext h iter)
  | objectIterNew view => exact hmap _ (maintains_objectIterNew h view)
  | objectIterNext iter => exact hmap _ (maintains_objectIterNext h iter)
  | objectGetField view key => exact hmap _ (maintains_objectGetField h view key)
  | arrayAt view index => exact hmap _ (maintains_arrayAt h view index)
  | arrayLen view => exact hmap _ (maintains_size h _ view)
  | objectSize view => exact hmap _ (maintains_size h _ view)
  | elementAtPointer view pointer => exact hmap _ (maintains_elementAtPointer h view pointer)
  | elementAtPath view path => exact hmap _ (maintains_elementAtPath h view path)
  | elementAtPathWildcard view path => exact hmap _ (maintains_elementAtPathWildcard h view path)
  | materializeBuild view => exact hmap _ (maintains_materializeBuild h view)
  | testHoldMaterializeGuard view => exact hmap _ (maintains_readView h _ view)

/-- Safety is kept by an event, unless it frees a document that is to be kept. -/
theorem Executes.safe {s s' : Runtime W} {event : Event} (hexec : Executes native s event s')
    (hsized : s.registry.Sized) (hs : Safe tape inv s)
    (hspares : event.Succeeded → Spares kept s.registry event.1) : Safe tape inv s' := by
  obtain ⟨call, result⟩ := event
  have hcall := wp_exec_safe h hsized hs call
  cases result with
  | ok reply => exact wp_ok hcall hexec (hspares ⟨reply, rfl⟩)
  | error rc => exact wp_error (E := fun _ => Safe tape inv) (e := rc) hcall hexec

end

/-- **Safety holds in every run** from the empty registry. -/
theorem safe_of_run {W : Type} {native : Native W} {tape : W → Nat → Option Json} {inv : W → Prop}
    (h : Respects native tape inv fun _ => False) {w : W} {events : List Event} {s : Runtime W}
    (hinv : inv w) (hrun : Run (Executes native) ⟨Registry.empty, w⟩ events s) :
    Safe tape inv s := by
  have hempty : Safe tape inv (⟨Registry.empty, w⟩ : Runtime W) := by
    refine ⟨⟨fun i entry hget => ?_, fun i i' entry entry' hget => ?_⟩, hinv⟩
    · simp [Registry.empty] at hget
    · simp [Registry.empty] at hget
  have hstep (s : Runtime W) (event : Event) (s' : Runtime W)
      (hs : s.registry.Sized ∧ Safe tape inv s) (hexec : Executes native s event s') :
      s'.registry.Sized ∧ Safe tape inv s' :=
    ⟨(moved_of_executes native hs.1 hexec).sized hs.1,
      hexec.safe h hs.1 hs.2 fun _ _ _ _ _ _ => not_false⟩
  have hsized : Registry.empty.Sized := ⟨by decide, by decide⟩
  exact (hrun.invariant hstep ⟨hsized, hempty⟩).2

end PureSimdjson
