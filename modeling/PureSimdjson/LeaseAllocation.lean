import PureSimdjson.LeaseLinearity

/-!
# Where a lease id comes from

A document hands out its lease ids in a circle and passes over those in use, so an id
is used again once its counter has gone round.  The ids go round without zero: a search
probes each of the others once, finds the first that is free, and fails when there is
none.  No iterator in the table ever loses its lease to a new one.
-/
namespace PureSimdjson

open Effect SlotTable Runs

namespace DocEntry

/-- No lease of the document has the id zero. -/
def NonzeroIds (entry : DocEntry) : Prop := ∀ id ∈ entry.iterLeases, id ≠ 0

/-- Every id is in use. -/
def Exhausted (entry : DocEntry) : Prop := ∀ id, id ≠ 0 → id ∈ entry.iterLeases

/-- Where the next search starts. -/
def firstProbe (entry : DocEntry) : UInt32 :=
  if entry.nextIterLease = 0 then iterLeaseStart else entry.nextIterLease

variable {entry entry' : DocEntry} {lease : IteratorLease} {leaseId : UInt32}
  {tag state0 state1 : Nat}

theorem tours_firstProbe (entry : DocEntry) :
    Probing.Tours PureSimdjson.nextIterLease (2 ^ 32 - 1) entry.firstProbe {id | id ≠ 0} :=
  tours_nextIterLease entry.firstProbe_ne_zero

/-- Counting the leases tells whether an id is left. -/
theorem exhausted_iff (hids : entry.NonzeroIds) :
    entry.Exhausted ↔ 2 ^ 32 - 1 ≤ entry.iterLeases.keys.length := by
  have htours := entry.tours_firstProbe
  have hcard := List.toFinset_card_of_nodup entry.iterLeases.keys_nodup
  have hmem (id : UInt32) : id ∈ entry.iterLeases.keys.toFinset ↔ id ∈ entry.iterLeases :=
    List.mem_toFinset
  constructor
  · intro hfull
    have hle : 2 ^ 32 - 1 ≤ entry.iterLeases.keys.toFinset.card :=
      htours.le_card fun id hid => (hmem id).mpr (hfull id hid)
    omega
  · intro hle id hid
    refine (hmem id).mp (htours.full_of_le_card (fun id' hid' => ?_) (by omega) hid)
    exact hids id' ((hmem id').mp hid')

/-- **Allocation fails exactly when every id is in use.** -/
theorem allocIterLease_eq_error_iff (hids : entry.NonzeroIds) {rc : ErrorCode} :
    entry.allocIterLease tag state0 state1 = .error rc ↔ rc = .internal ∧ entry.Exhausted := by
  constructor
  · intro h
    have hroom : ¬ entry.iterLeases.keys.length < 2 ^ 32 - 1 := by
      intro hroom
      obtain ⟨leaseId, entry', halloc⟩ := allocIterLease_of_room hroom tag state0 state1
      rw [halloc] at h
      cases h
    refine ⟨?_, (exhausted_iff hids).mpr (by omega)⟩
    rw [allocIterLease, if_pos (by omega)] at h
    exact (Except.error.inj h).symm
  · rintro ⟨rfl, hfull⟩
    rw [allocIterLease, if_pos ((exhausted_iff hids).mp hfull)]

/-- Every id probed before the one found is in use. -/
theorem probes_of_allocIterLease
    (h : entry.allocIterLease tag state0 state1 = .ok (leaseId, entry')) :
    ∃ k < 2 ^ 32 - 1, leaseId = PureSimdjson.nextIterLease^[k] entry.firstProbe ∧
      ∀ j < k, PureSimdjson.nextIterLease^[j] entry.firstProbe ∈ entry.iterLeases := by
  rw [allocIterLease] at h
  split at h
  · cases h
  · simp only at h
    split at h
    · rename_i free hfree
      cases h
      rw [freeLease_eq_search, Probing.search_eq_some_iff] at hfree
      obtain ⟨k, hk, hid, -, hbefore⟩ := hfree
      exact ⟨k, hk, hid, hbefore⟩
    · cases h

namespace Leased
variable (h : entry.Leased lease leaseId entry')
include h

theorem lookup_self : entry'.iterLeases.lookup leaseId = some lease := by
  rw [h.entry_eq]
  exact AList.lookup_insert _

theorem lookup_ne {id : UInt32} (hne : id ≠ leaseId) :
    entry'.iterLeases.lookup id = entry.iterLeases.lookup id := by
  rw [h.entry_eq]
  exact AList.lookup_insert_ne hne

theorem nonzeroIds (hids : entry.NonzeroIds) : entry'.NonzeroIds := by
  intro id hid
  rw [h.entry_eq] at hid
  rcases AList.mem_insert _ |>.mp hid with rfl | hid
  · exact h.ne_zero
  · exact hids id hid

end Leased

end DocEntry

/-! ## The call -/

section
variable {W : Type}

/-- **`alloc_iter_lease` fails when every id is in use, and then only**, and leaves the
entry as it was. -/
theorem run_allocLease_of_exhausted {entry : DocEntry} (hids : entry.NonzeroIds)
    (hfull : entry.Exhausted) (tag state0 state1 : Nat) (w : W) :
    (allocLease tag state0 state1).run (entry, w) = .error .internal (entry, w) := by
  refine run_eq_error ?_
  rw [allocLease, wp_bind, wp_getEntry, wp_bind,
    (DocEntry.allocIterLease_eq_error_iff hids).mpr ⟨rfl, hfull⟩, wp_ofExcept_error]
  exact ⟨rfl, rfl⟩

/-- As long as an id is left, the search finds one. -/
theorem run_allocLease_of_not_exhausted {entry : DocEntry} (hids : entry.NonzeroIds)
    (hleft : ¬ entry.Exhausted) (tag state0 state1 : Nat) (w : W) :
    ∃ leaseId entry', (allocLease tag state0 state1).run (entry, w) = .ok leaseId (entry', w) ∧
      entry.allocIterLease tag state0 state1 = .ok (leaseId, entry') := by
  have hroom : entry.iterLeases.keys.length < 2 ^ 32 - 1 := by
    rw [DocEntry.exhausted_iff hids] at hleft
    omega
  obtain ⟨leaseId, entry', halloc⟩ := DocEntry.allocIterLease_of_room hroom tag state0 state1
  refine ⟨leaseId, entry', run_eq_ok ?_, halloc⟩
  rw [allocLease, wp_bind, wp_getEntry, wp_bind, halloc, wp_ofExcept_ok]
  exact ⟨rfl, rfl⟩

end

/-! ## The registry -/

/-- No lease of any document has the id zero. -/
def NonzeroIds (docs : List (Slot UInt32 DocEntry)) : Prop :=
  ∀ (i : Nat) (entry : DocEntry), docs[i]? = some (.occupied entry) → entry.NonzeroIds

namespace NonzeroIds
variable {docs docs' : List (Slot UInt32 DocEntry)} {i : Nat} {entry entry' : DocEntry}
  (h : NonzeroIds docs)
include h

theorem set (hget : docs[i]? = some (.occupied entry)) (hentry' : entry'.NonzeroIds) :
    NonzeroIds (docs.set i (.occupied entry')) := by
  intro k e he
  rcases set_occupied hget he with ⟨-, rfl⟩ | ⟨-, he⟩
  · exact hentry'
  · exact h k e he

theorem vacate (hget : docs[i]? = some (.occupied entry)) (generation : UInt32) :
    NonzeroIds (docs.set i (.vacant generation)) := by
  intro k e he
  exact h k e (set_vacant hget he).2

theorem filled {start : UInt32} (hfilled : Filled DocEntry.generation start docs i entry docs')
    (hentry : entry.NonzeroIds) : NonzeroIds docs' := by
  intro k e he
  rcases hfilled.occupied he with ⟨-, rfl⟩ | ⟨-, he⟩
  · exact hentry
  · exact h k e he

/-- A lease of the document is overwritten. -/
theorem setLease {indices : Finset Nat} {lease lease' : IteratorLease} {leaseId : UInt32}
    (hget : docs[i]? = some (.occupied entry))
    (hlease : entry.iterLeases.lookup leaseId = some lease) :
    NonzeroIds (docs.set i (.occupied { entry with
      descendantIndices := indices
      iterLeases := entry.iterLeases.insert leaseId lease' })) := by
  refine h.set hget fun id hid => h i entry hget id ?_
  rcases (AList.mem_insert _).mp hid with rfl | hid
  · exact AList.lookup_isSome.mp (by rw [hlease]; rfl)
  · exact hid

omit h in
theorem indexed {registry registry' : Registry} (h : NonzeroIds registry.docs)
    (hindexed : Indexed registry registry') : NonzeroIds registry'.docs := by
  rcases hindexed with ⟨-, hdocs⟩ | ⟨-, hentry, -, -, hdocs⟩
  · rwa [hdocs]
  · rw [hdocs]
    exact h.set hentry fun id hid => h _ _ hentry id hid

end NonzeroIds

section
variable {W : Type} (native : Native W)

/-- An iterator was made: its lease is new, and every other lease is what it was. -/
structure Registry.Leased (registry : Registry) (iter : Iter) (registry' : Registry) : Prop where
  ne_zero : iter.index ≠ 0
  free : registry.leaseAt iter.doc iter.index = none
  held : registry'.leaseAt iter.doc iter.index = some ⟨iter.state0, iter.state1, iter.tag⟩
  others : ∀ doc leaseId, doc ≠ iter.doc ∨ leaseId ≠ iter.index →
    registry'.leaseAt doc leaseId = registry.leaseAt doc leaseId

omit native in
/-- A lease of another document stays when a document's entry is replaced. -/
theorem leaseAt_set_of_ne {registry registry' : Registry} {doc doc' : UInt64} {slot : UInt32}
    {entry entry' : DocEntry} (hlive : DocLive registry doc slot entry)
    (hdocs : registry'.docs = registry.docs.set (slotIndex slot) (.occupied entry'))
    (hne : doc' ≠ doc) {leaseId : UInt32} {lease : IteratorLease}
    (h : registry.leaseAt doc' leaseId = some lease) :
    registry'.leaseAt doc' leaseId = some lease := by
  obtain ⟨slot', entry₁, hlive₁, hlease⟩ := leaseAt_eq_some.mp h
  have hslot : slot ≠ slot' := by
    rintro rfl
    have he := hlive.entry_eq.symm.trans hlive₁.entry_eq
    cases he
    exact hne (hlive₁.handle_eq.trans hlive.handle_eq.symm)
  exact leaseAt_eq_some.mpr ⟨slot', entry₁, hlive₁.set_ne hlive.slot_ne hslot hdocs, hlease⟩

/-- What happens to the leases of all documents when one document gets a new one. -/
theorem registryLeased {registry : Registry} {slot : UInt32} {entry entry' : DocEntry}
    {iter : Iter} (hlive : DocLive registry iter.doc slot entry)
    (hleased : entry.Leased ⟨iter.state0, iter.state1, iter.tag⟩ iter.index entry') :
    registry.Leased iter (registry.setDoc (slotIndex slot) (.occupied entry')) := by
  have hlive' : DocLive (registry.setDoc (slotIndex slot) (.occupied entry')) iter.doc slot
      entry' := by
    refine hlive.set_self rfl ?_
    rw [hleased.entry_eq]
  -- the old table is the new one with the old entry put back
  have hback : registry.docs =
      (registry.setDoc (slotIndex slot) (.occupied entry')).docs.set (slotIndex slot)
        (.occupied entry) := by
    rw [Registry.setDoc, List.set_set]
    obtain ⟨hlt, hget⟩ := List.getElem?_eq_some_iff.mp hlive.entry_eq
    rw [← hget, List.set_getElem_self]
  refine ⟨hleased.ne_zero, ?_, ?_, ?_⟩
  · rw [hlive.leaseAt]
    exact AList.lookup_eq_none.mpr hleased.free
  · rw [hlive'.leaseAt, hleased.lookup_self]
  · intro doc leaseId hother
    by_cases hdoc : doc = iter.doc
    · subst hdoc
      have hid : leaseId ≠ iter.index := hother.resolve_left (absurd rfl)
      rw [hlive.leaseAt, hlive'.leaseAt, hleased.lookup_ne hid]
    · refine Option.ext fun lease => ⟨?_, ?_⟩
      · exact leaseAt_set_of_ne hlive' hback hdoc
      · exact leaseAt_set_of_ne hlive rfl hdoc

/-- The reply is an iterator whose lease is the one change to the registry. -/
def MadeIter (registry : Registry) (reply : Reply) (registry' : Registry) : Prop :=
  ∃ iter slot entry entry', reply = .iter iter ∧ DocLive registry iter.doc slot entry ∧
    entry.Leased ⟨iter.state0, iter.state1, iter.tag⟩ iter.index entry' ∧
    registry' = registry.setDoc (slotIndex slot) (.occupied entry')

theorem wp_madeIter {view : Option ValueView} {call : Call} {action : Nat → UInt64 → DocM W Iter}
    (hexec : exec native call = Reply.iter <$> withResolvedView view action)
    (h : ∀ jsonIndex doc e, wp (action jsonIndex doc)
      (fun iter e' => iter.doc = doc ∧
        e.1.Leased ⟨iter.state0, iter.state1, iter.tag⟩ iter.index e'.1)
      (fun _ e' => e'.1 = e.1) e) (s : Runtime W) :
    wp (exec native call) (fun reply s' => MadeIter s.registry reply s'.registry)
      (fun _ s' => s'.registry = s.registry) s := by
  rw [hexec, wp_map]
  refine wp_withResolvedView (fun _ => rfl) (fun _ _ => rfl) ?_
  intro v slot generation entry jsonIndex _ hslot hhandle hentry _
  refine wp_mono (h jsonIndex v.doc _) ?_ ?_
  · rintro iter ⟨entry', w⟩ ⟨hdoc, hleased⟩
    have hlive := DocLive.of_docAt hslot hhandle hentry
    rw [← hdoc] at hlive
    exact ⟨iter, slot, entry, entry', rfl, hlive, hleased, rfl⟩
  · rintro rc ⟨entry', w⟩ rfl
    exact Registry.setDoc_self hentry

/-- What `array_iter_new` and `object_iter_new` owe. -/
theorem wp_exec_iterNew {view : Option ValueView} {call : Call}
    (hcall : call = .arrayIterNew view ∨ call = .objectIterNew view) (s : Runtime W) :
    wp (exec native call) (fun reply s' => MadeIter s.registry reply s'.registry)
      (fun _ s' => s'.registry = s.registry) s := by
  rcases hcall with rfl | rfl
  · exact wp_madeIter native rfl (fun _ _ e => wp_iterNew native _ _ _ _ _ e) s
  · exact wp_madeIter native rfl (fun _ _ e => wp_iterNew native _ _ _ _ _ e) s

/-- **A call that makes an iterator takes no lease away.** -/
theorem leased_of_executes {s s' : Runtime W} {view : Option ValueView} {call : Call} {iter : Iter}
    (hcall : call = .arrayIterNew view ∨ call = .objectIterNew view)
    (h : Executes native s (call, .ok (.iter iter)) s') :
    s.registry.Leased iter s'.registry := by
  obtain ⟨_, slot, entry, entry', hreply, hlive, hleased, hs'⟩ :=
    wp_ok (a := Reply.iter iter) (wp_exec_iterNew native hcall s) h
  cases hreply
  rw [hs']
  exact registryLeased hlive hleased

theorem nonzeroIds_of_madeIter {registry registry' : Registry} {reply : Reply}
    (h : NonzeroIds registry.docs) (hmade : MadeIter registry reply registry') :
    NonzeroIds registry'.docs := by
  obtain ⟨_, slot, entry, entry', -, hlive, hleased, rfl⟩ := hmade
  exact h.set hlive.entry_eq (hleased.nonzeroIds (h _ _ hlive.entry_eq))

/-- Using an iterator only overwrites its own lease. -/
theorem nonzeroIds_withIterDoc {α : Type} {iter : Iter} {tag : Nat} {action : DocM W α}
    {s : Runtime W} (h : NonzeroIds s.registry.docs)
    (haction : ∀ e : DocEntry × W, e.1.iterLeases.lookup iter.index =
        some ⟨iter.state0, iter.state1, tag⟩ →
      wp action (fun _ e' => e' = e ∨ Advanced iter tag e e') (fun _ e' => EntryIndexed e e') e) :
    wp (withIterDoc iter tag action) (fun _ s' => NonzeroIds s'.registry.docs)
      (fun _ s' => NonzeroIds s'.registry.docs) s := by
  refine wp_withIterDoc h ?_
  intro slot generation entry _ hslot hhandle hentry hlease
  have hget := (Registry.docAt_eq_some.mp hentry).1
  refine wp_mono (haction (entry, s.native) hlease) ?_ ?_
  · rintro a e (rfl | ⟨indices, next, _, _, _, he⟩)
    · rwa [Registry.setDoc_self hentry]
    · rw [he]
      exact h.setLease hget hlease
  · rintro rc e ⟨indices, hsub, he⟩
    rw [he]
    exact h.set hget fun id hid => h _ _ hget id hid

/-- **No call gives a lease the id zero.** -/
theorem nonzeroIds_of_executes {s s' : Runtime W} {event : Event} (hsized : s.registry.Sized)
    (h : NonzeroIds s.registry.docs) (hstep : Executes native s event s') :
    NonzeroIds s'.registry.docs := by
  obtain ⟨call, result⟩ := event
  refine hstep.of_wp (P := fun _ s' => NonzeroIds s'.registry.docs) native ?_
  by_cases hreads : call.Reads
  · exact wp_mono (indexes_of_reads native hreads s) (fun _ _ hi => h.indexed hi)
      fun _ _ hi => h.indexed hi
  have hsame {s' : Runtime W} (heq : s'.registry = s.registry) : NonzeroIds s'.registry.docs := by
    rwa [heq]
  have hmade {s' : Runtime W} (heq : s'.registry.docs = s.registry.docs) :
      NonzeroIds s'.registry.docs := by
    rwa [heq]
  cases call with
  | parserNew =>
    rw [exec, wp_map]
    refine wp_mono (wp_parserNew native hsized) ?_ fun _ _ => hsame
    rintro _ s' ⟨_, _, _, _, _, hdocs⟩
    exact hmade hdocs
  | parserNewConfigured maxCapacity maxDepth =>
    rw [exec, wp_map]
    refine wp_mono (wp_parserNewConfigured native _ _ hsized) ?_ fun _ _ => hsame
    rintro _ s' ⟨_, _, _, _, _, hdocs⟩
    exact hmade hdocs
  | parserFree handle =>
    rw [exec, wp_map]
    refine wp_mono (wp_parserFree native handle s) ?_ fun _ _ => hsame
    rintro _ s' ⟨_, _, _, _, hs'⟩
    refine hmade ?_
    rw [hs', Registry.setParser]
  | parserParse handle input =>
    rw [exec, wp_map]
    refine wp_mono (wp_parserParse native handle input hsized) ?_ ?_
    · rintro _ s' ⟨slot, entry, docSlot, doc, _, _, _, hfilled, _, _, hleases, _⟩
      refine h.filled hfilled fun id hid => ?_
      rw [hleases] at hid
      exact absurd hid (AList.notMem_empty id)
    · rintro rc s' (hs' | ⟨slot, entry, input', _, _, hs'⟩)
      · exact hsame hs'
      · refine hmade ?_
        rw [hs', refill, Registry.setParser]
  | docFree handle =>
    rw [exec, wp_map]
    refine wp_mono (wp_docFree native handle s) ?_ fun _ _ => hsame
    rintro _ s' ⟨docSlot, doc, slot, owner, hlive, _, hs'⟩
    rw [hs', release]
    exact h.vacate hlive.entry_eq _
  | arrayIterNew view =>
    exact wp_mono (wp_exec_iterNew native (Or.inl rfl) s)
      (fun _ _ => nonzeroIds_of_madeIter h) fun _ _ => hsame
  | objectIterNew view =>
    exact wp_mono (wp_exec_iterNew native (Or.inr rfl) s)
      (fun _ _ => nonzeroIds_of_madeIter h) fun _ _ => hsame
  | arrayIterNext iter =>
    rw [exec, wp_map]
    rcases iter with _ | iter
    · exact h
    · refine nonzeroIds_withIterDoc h fun e hlease => ?_
      refine wp_mono (wp_arrayIterAdvance native hlease) ?_ fun _ _ => id
      rintro step e' (⟨-, he⟩ | ⟨-, -, hadvanced⟩)
      · exact Or.inl he
      · exact Or.inr hadvanced
  | objectIterNext iter =>
    rw [exec, wp_map]
    rcases iter with _ | iter
    · exact h
    · refine nonzeroIds_withIterDoc h fun e hlease => ?_
      refine wp_mono (wp_objectIterAdvance native hlease) ?_ fun _ _ => id
      rintro step e' (⟨-, he⟩ | ⟨-, -, hadvanced⟩)
      · exact Or.inl he
      · exact Or.inr hadvanced
  | _ => exact absurd trivial hreads

theorem Reachable.nonzeroIds {s : Runtime W} (h : Reachable native s) :
    NonzeroIds s.registry.docs := by
  obtain ⟨w, events, hrun⟩ := h
  refine (hrun.invariant (I := fun s => s.registry.Sized ∧ NonzeroIds s.registry.docs) ?_ ?_).2
  · rintro s event s' ⟨hsized, hids⟩ hstep
    exact ⟨(moved_of_executes native hsized hstep).sized hsized,
      nonzeroIds_of_executes native hsized hids hstep⟩
  · refine ⟨⟨by simp [Registry.empty], by simp [Registry.empty]⟩, ?_⟩
    intro i entry hentry
    simp [Registry.empty] at hentry

/-- **Lease allocation.**  Whatever nonzero ids are in use and wherever the counter
stands: if every id is in use, the call fails and the entry is what it was; if not, the
search ends within `2 ^ 32 - 1` probes at the first id that is free, which is not zero,
and that lease is added and no other touched.  In every reachable state all ids are
nonzero; a call that makes an iterator gives it a lease that nobody had and leaves every
other lease of every document as it is; and a call that fails to leaves the registry as
it is. -/
theorem lease_allocation (native : Native W) :
    (∀ (entry : DocEntry), (∀ id ∈ entry.iterLeases, id ≠ 0) →
      ∀ (tag state0 state1 : Nat) (w : W),
        ((∀ id, id ≠ 0 → id ∈ entry.iterLeases) →
          (allocLease tag state0 state1).run (entry, w) = .error .internal (entry, w)) ∧
        ((∃ id, id ≠ 0 ∧ id ∉ entry.iterLeases) →
          ∃ leaseId entry',
            (allocLease tag state0 state1).run (entry, w) = .ok leaseId (entry', w) ∧
            leaseId ≠ 0 ∧ leaseId ∉ entry.iterLeases ∧
            entry' = { entry with
              iterLeases := entry.iterLeases.insert leaseId ⟨state0, state1, tag⟩
              nextIterLease := nextIterLease leaseId } ∧
            entry'.iterLeases.lookup leaseId = some ⟨state0, state1, tag⟩ ∧
            (∀ id, id ≠ leaseId →
              entry'.iterLeases.lookup id = entry.iterLeases.lookup id) ∧
            ∃ k < 2 ^ 32 - 1, leaseId = nextIterLease^[k] entry.firstProbe ∧
              ∀ j < k, nextIterLease^[j] entry.firstProbe ∈ entry.iterLeases)) ∧
    ∀ s, Reachable native s →
      (∀ (i : Nat) (entry : DocEntry), s.registry.docs[i]? = some (.occupied entry) →
        ∀ id ∈ entry.iterLeases, id ≠ 0) ∧
      ∀ s' view call, call = .arrayIterNew view ∨ call = .objectIterNew view →
        (∀ iter, Executes native s (call, .ok (.iter iter)) s' →
          s.registry.Leased iter s'.registry) ∧
        ∀ rc, Executes native s (call, .error rc) s' → s'.registry = s.registry := by
  refine ⟨fun entry hids tag state0 state1 w => ⟨fun hfull => ?_, ?_⟩, fun s h => ⟨?_, ?_⟩⟩
  · exact run_allocLease_of_exhausted hids hfull tag state0 state1 w
  · rintro ⟨id, hid, hfree⟩
    have hleft : ¬ entry.Exhausted := fun hfull => hfree (hfull id hid)
    obtain ⟨leaseId, entry', hrun, halloc⟩ :=
      run_allocLease_of_not_exhausted hids hleft tag state0 state1 w
    have hleased := DocEntry.allocIterLease_ok halloc
    exact ⟨leaseId, entry', hrun, hleased.ne_zero, hleased.free, hleased.entry_eq,
      hleased.lookup_self, fun _ => hleased.lookup_ne, DocEntry.probes_of_allocIterLease halloc⟩
  · exact h.nonzeroIds
  · intro s' view call hcall
    refine ⟨fun iter hstep => leased_of_executes native hcall hstep, fun rc hstep => ?_⟩
    exact wp_error (e := rc) (wp_exec_iterNew native hcall s) hstep

end

/-- The document with one lease, under the last id, and a counter that stands there. -/
def wrappedEntry : DocEntry :=
  { sampleEntry with
    iterLeases := AList.singleton 4294967295 ⟨3, 6, arrayIterTag⟩
    nextIterLease := 4294967295 }

/-- The search passes over the last id and goes on at the first, and the lease under the
last id stays. -/
theorem lease_allocation_sample : ∃ entry',
    (allocLease objectIterTag 2 7).run (wrappedEntry, SampleWorld.empty) = .ok 1 (entry', .empty) ∧
      entry'.iterLeases.lookup 4294967295 = some ⟨3, 6, arrayIterTag⟩ := by
  have hids : ∀ id ∈ wrappedEntry.iterLeases, id ≠ 0 := by
    intro id hid
    rw [List.mem_singleton.mp hid]
    decide
  obtain ⟨leaseId, entry', hrun, -, -, -, -, hothers, -⟩ :=
    ((lease_allocation sampleNative).1 wrappedEntry hids objectIterTag 2 7 .empty).2
      ⟨1, by decide, by decide⟩
  have hid : leaseId = 1 := by
    have hrun' : ∃ e,
        (allocLease objectIterTag 2 7).run (wrappedEntry, SampleWorld.empty) = .ok 1 e := ⟨_, rfl⟩
    obtain ⟨e, hrun'⟩ := hrun'
    rw [hrun] at hrun'
    cases hrun'
    rfl
  subst hid
  exact ⟨entry', hrun, hothers _ (by decide)⟩

end PureSimdjson
