import PureSimdjson.AccessorCalls

/-!
# A document that stays open

A caller holds on to views and iterators of a document while it and others make calls.  What it
relies on is that the document's entry only grows: as long as no call frees the document, every
index that was issued stays issued, and every lease stays what it is unless a call goes through
that very lease.
-/
namespace PureSimdjson

open Effect SlotTable Runs Json

/-! ## What a call does to an entry -/

/-- The entry of the same document, later.  The leases in `kept` have not moved. -/
structure Follows (kept : Set UInt32) (entry entry' : DocEntry) : Prop where
  nativePtr_eq : entry'.nativePtr = entry.nativePtr
  rootPtr_eq : entry'.rootPtr = entry.rootPtr
  rootAfterIndex_eq : entry'.rootAfterIndex = entry.rootAfterIndex
  indices : entry.descendantIndices ⊆ entry'.descendantIndices
  leases : ∀ id ∈ kept, ∀ lease, entry.iterLeases.lookup id = some lease →
    entry'.iterLeases.lookup id = some lease

theorem Follows.refl (kept : Set UInt32) (entry : DocEntry) : Follows kept entry entry :=
  ⟨rfl, rfl, rfl, Finset.Subset.refl _, fun _ _ _ => id⟩

theorem Follows.trans {kept : Set UInt32} {entry entry₁ entry' : DocEntry}
    (h : Follows kept entry entry₁) (h' : Follows kept entry₁ entry') :
    Follows kept entry entry' where
  nativePtr_eq := h'.nativePtr_eq.trans h.nativePtr_eq
  rootPtr_eq := h'.rootPtr_eq.trans h.rootPtr_eq
  rootAfterIndex_eq := h'.rootAfterIndex_eq.trans h.rootAfterIndex_eq
  indices := h.indices.trans h'.indices
  leases id hid lease hlease := h'.leases id hid lease (h.leases id hid lease hlease)

/-- A view stands for the same element later. -/
theorem Follows.viewIndex {kept : Set UInt32} {entry entry' : DocEntry} {view : ValueView}
    {j : Nat} (h : Follows kept entry entry') (hindex : viewIndex view entry = .ok j) :
    viewIndex view entry' = .ok j := by
  rw [PureSimdjson.viewIndex] at hindex ⊢
  by_cases hroot : view.state1 = rootViewTag
  · rw [if_pos hroot] at hindex ⊢
    rwa [h.rootPtr_eq]
  rw [if_neg hroot] at hindex ⊢
  by_cases hdesc : view.state1 = descViewTag
  · rw [if_pos hdesc, validateDescendant] at hindex ⊢
    rw [h.rootAfterIndex_eq]
    split at hindex
    · cases hindex
    · rename_i hok
      -- what was accepted has been issued, and still is
      refine (if_neg fun hbad => hok ?_).trans hindex
      exact hbad.imp_right fun hbad => hbad.imp_right fun hnot hmem => hnot (h.indices hmem)
  · rw [if_neg hdesc] at hindex
    cases hindex

/-- The event neither frees the document nor goes through a lease in `kept`. -/
structure Harmless (doc : UInt64) (slot : UInt32) (kept : Set UInt32) (event : Event) : Prop where
  notFreed : event.mark ≠ .docFreed slot
  notDelivered : ∀ id ∈ kept, ∀ jsonIndex, event.mark ≠ .delivered doc id jsonIndex

theorem DocLive.unique {registry : Registry} {doc : UInt64} {slot : UInt32}
    {entry entry' : DocEntry} (h : DocLive registry doc slot entry)
    (h' : DocLive registry doc slot entry') : entry = entry' := by
  have heq := h.entry_eq.symm.trans h'.entry_eq
  cases heq
  rfl

/-- What a move does to an entry but for its leases. -/
theorem Moved.entryStep {registry registry' : Registry} {event : Event}
    (hmoved : Moved registry event registry') {doc : UInt64} {slot : UInt32} {entry : DocEntry}
    (hlive : DocLive registry doc slot entry) (hkept : event.mark ≠ .docFreed slot) :
    ∃ entry', DocLive registry' doc slot entry' ∧ entry'.rootPtr = entry.rootPtr ∧
      entry'.rootAfterIndex = entry.rootAfterIndex ∧
      entry.descendantIndices ⊆ entry'.descendantIndices := by
  have hsame (h : DocLive registry' doc slot entry) :
      ∃ entry', DocLive registry' doc slot entry' ∧ entry'.rootPtr = entry.rootPtr ∧
        entry'.rootAfterIndex = entry.rootAfterIndex ∧
        entry.descendantIndices ⊆ entry'.descendantIndices :=
    ⟨entry, h, rfl, rfl, Finset.Subset.refl _⟩
  -- another entry is put into the slot of `entry₁`, which may be this one
  have hset {slot' : UInt32} {entry₁ entry' : DocEntry} (hslot' : slot' ≠ 0)
      (hentry : registry.docs[slotIndex slot']? = some (.occupied entry₁))
      (hdocs : registry'.docs = registry.docs.set (slotIndex slot') (.occupied entry'))
      (hfields : entry'.generation = entry₁.generation ∧ entry'.rootPtr = entry₁.rootPtr ∧
        entry'.rootAfterIndex = entry₁.rootAfterIndex)
      (hindices : entry₁.descendantIndices ⊆ entry'.descendantIndices) :
      ∃ entry', DocLive registry' doc slot entry' ∧ entry'.rootPtr = entry.rootPtr ∧
        entry'.rootAfterIndex = entry.rootAfterIndex ∧
        entry.descendantIndices ⊆ entry'.descendantIndices := by
    by_cases heq : slot' = slot
    · subst heq
      have he := hlive.entry_eq.symm.trans hentry
      cases he
      exact ⟨entry', hlive.set_self hdocs hfields.1, hfields.2.1, hfields.2.2, hindices⟩
    · exact hsame (hlive.set_ne hslot' heq hdocs)
  cases hmoved with
  | refilled _ _ _ _ _ hdocs => exact hsame (hlive.congr hdocs)
  | parserMade _ _ _ _ _ hdocs => exact hsame (hlive.congr hdocs)
  | parserFreed _ _ _ _ _ _ hdocs => exact hsame (hlive.congr hdocs)
  | indexed _ h =>
    cases h with
    | same _ hdocs => exact hsame (hlive.congr hdocs)
    | more hslot' hentry hindices _ hdocs =>
      exact hset hslot' hentry hdocs ⟨rfl, rfl, rfl⟩ hindices
  | @parsed slot' docSlot _ _ _ _ _ hdocSlot _ _ hfilled =>
    have hne : slotIndex docSlot ≠ slotIndex slot := by
      intro heq
      have hfree := hfilled.live_before entry.generation
      have hthere : live DocEntry.generation registry.docs (slotIndex slot) entry.generation =
        some entry := hlive.docAt
      rw [heq, hthere] at hfree
      cases hfree
    have hlive₁ := hfilled.live (slotIndex slot) entry.generation
    rw [if_neg hne] at hlive₁
    exact hsame ⟨hlive.slot_ne, hlive.handle_eq, (live_eq_some.mp (hlive₁.trans hlive.docAt)).1⟩
  | @docFreed slot' docSlot _ _ hmark _ hpaired _ hdocs =>
    have hne : docSlot ≠ slot := by
      rintro rfl
      exact hkept hmark
    exact hsame (hlive.set_ne hpaired.docSlot_ne hne hdocs)
  | leased _ _ hslot' hentry _ _ hdocs =>
    exact hset hslot' hentry hdocs ⟨rfl, rfl, rfl⟩ (Finset.Subset.refl _)
  | advanced _ _ hslot' hentry _ _ hindices _ hdocs =>
    exact hset hslot' hentry hdocs ⟨rfl, rfl, rfl⟩ hindices

/-- **After a harmless event the entry follows.** -/
theorem Moved.follows {registry registry' : Registry} {event : Event}
    (hmoved : Moved registry event registry') {doc : UInt64} {slot : UInt32} {entry : DocEntry}
    {kept : Set UInt32} (hlive : DocLive registry doc slot entry)
    (hharmless : Harmless doc slot kept event) :
    ∃ entry', DocLive registry' doc slot entry' ∧ Follows kept entry entry' := by
  obtain ⟨entry', hlive', hptr, hleases⟩ := hmoved.leaseStep hlive hharmless.notFreed
  obtain ⟨entry₁, hlive₁, hrootPtr, hrootAfterIndex, hindices⟩ :=
    hmoved.entryStep hlive hharmless.notFreed
  obtain rfl := hlive₁.unique hlive'
  refine ⟨entry₁, hlive₁, hptr, hrootPtr, hrootAfterIndex, hindices, fun id hid lease hlease => ?_⟩
  obtain ⟨lease', hlease', hstep⟩ := hleases id lease hlease
  cases hstep with
  | stays => exact hlease'
  | moves hmark => exact absurd hmark (hharmless.notDelivered id hid _)

/-! ## Calls one after the other -/

section
variable {W : Type} (native : Native W) (doc : UInt64) (slot : UInt32) (kept : Set UInt32)

/-- Some harmless calls lead from one state to the other. -/
def Passes (s s' : Runtime W) : Prop :=
  ∃ events, Run (Executes native) s events s' ∧ ∀ event ∈ events, Harmless doc slot kept event

instance : Std.Refl (Passes native doc slot kept) :=
  ⟨fun s => ⟨[], .nil s, fun _ h => by cases h⟩⟩

instance : IsTrans (Runtime W) (Passes native doc slot kept) where
  trans _ _ _ := by
    rintro ⟨events, hrun, hall⟩ ⟨events', hrun', hall'⟩
    exact ⟨events ++ events', hrun.append hrun', List.forall_mem_append.mpr ⟨hall, hall'⟩⟩

variable {native doc slot kept}

theorem Passes.of_executes {s s' : Runtime W} {event : Event} (h : Executes native s event s')
    (hharmless : Harmless doc slot kept event) : Passes native doc slot kept s s' :=
  ⟨[event], .cons h (.nil _), List.forall_mem_singleton.mpr hharmless⟩

/-- A call that is neither `next` nor frees a document is harmless. -/
theorem harmless_of_other {call : Call} (hnext : call.next = none)
    (hfree : ∀ handle, call ≠ .docFree handle) (result : Except ErrorCode Reply) :
    Harmless doc slot kept (call, result) where
  notFreed := by
    intro h
    rw [Event.mark.eq_def] at h
    split at h
    · cases h
    · rename_i hevent
      cases hevent
      exact hfree _ rfl
    · split at h <;> cases h
    · split at h <;> cases h
    · cases h
  notDelivered id _ jsonIndex h := by
    obtain ⟨iter, tag, -, hsome, -⟩ := next_of_delivered h
    rw [hnext] at hsome
    cases hsome

/-- A `next` call goes through its own lease only. -/
theorem harmless_of_next {call : Call} {iter : Iter} {tag : Nat}
    (hnext : call.next = some (iter, tag)) (result : Except ErrorCode Reply) :
    Harmless doc slot {id | id ≠ iter.index} (call, result) where
  notFreed := mark_next hnext result slot
  notDelivered id hid jsonIndex h := by
    obtain ⟨iter', tag', -, hsome, -, hindex, -⟩ := next_of_delivered h
    rw [hnext] at hsome
    cases hsome
    exact hid hindex.symm

/-- A call that is harmless whatever it returns. -/
theorem passes_call {α : Type} {m : RuntimeM W α} {reply : α → Reply} (call : Call)
    (hexec : exec native call = reply <$> m)
    (hharmless : ∀ result, Harmless doc slot kept (call, result)) :
    Keeps (Passes native doc slot kept) m := by
  intro s
  cases hrun : m.run s with
  | ok a s' =>
    have hstep : Executes native s (call, .ok (reply a)) s' := by
      rw [Executes, hexec]
      exact run_eq_ok ((wp_map ..).mpr (wp_of_run_ok hrun ⟨rfl, rfl⟩))
    exact wp_of_run_ok hrun (.of_executes hstep (hharmless _))
  | error rc s' =>
    have hstep : Executes native s (call, .error rc) s' := by
      rw [Executes, hexec]
      exact run_eq_error ((wp_map ..).mpr (wp_of_run_error hrun ⟨rfl, rfl⟩))
    exact wp_of_run_error hrun (.of_executes hstep (hharmless _))

end

/-! ## The document is open -/

section
variable {W : Type} (sj : Simdjson W) (base : Native W) (tape : W → Nat → Option Json)
  (root : Json) (doc : UInt64) (slot : UInt32)

/-- A state that calls lead to, in which the document is registered and is `root`. -/
structure Open (s : Runtime W) (entry : DocEntry) : Prop where
  reachable : Reachable (bridge sj base) s
  live : DocLive s.registry doc slot entry
  root_eq : tape s.native entry.nativePtr = some root

variable {sj base tape root doc slot} {blocks : W → Set Nat} {s s' : Runtime W}
  {entry : DocEntry} {kept : Set UInt32}

theorem Open.safe (hbase : Lifecycle base tape (fun _ => True) fun _ => False)
    (hsj : sj.Faithful base.memory tape) (h : Open sj base tape root doc slot s entry) :
    Safe tape (fun w => tape w entry.nativePtr = some root) s := by
  obtain ⟨w, events, hrun⟩ := h.reachable
  exact ⟨(safe_of_run (bridge_tapeSafe hbase hsj) trivial hrun).docs, h.root_eq⟩

theorem Open.ready (hbase : Lifecycle base tape (fun _ => True) fun _ => False)
    (hsj : sj.Faithful base.memory tape) (hblocks : Allocates base blocks)
    (h : Open sj base tape root doc slot s entry) :
    Elements.Ready tape blocks root doc slot entry s :=
  ⟨⟨h.reachable.sized, h.safe hbase hsj,
    (allocates_bridge sj hblocks).backed h.reachable⟩, h.live⟩

/-- **A harmless event leaves the document open.** -/
theorem Open.executes (hbase : Lifecycle base tape (fun _ => True) fun _ => False)
    (hsj : sj.Faithful base.memory tape) (h : Open sj base tape root doc slot s entry)
    {event : Event} (hexec : Executes (bridge sj base) s event s')
    (hharmless : Harmless doc slot kept event) :
    ∃ entry', Open sj base tape root doc slot s' entry' ∧ Follows kept entry entry' := by
  have hsized := h.reachable.sized
  have hsafe := h.safe hbase hsj
  obtain ⟨w, events, hrun⟩ := h.reachable
  obtain ⟨entry', hlive', hfollows⟩ :=
    (moved_of_executes (bridge sj base) hsized hexec).follows h.live hharmless
  have hsafe' : Safe tape (fun w => tape w entry.nativePtr = some root) s' := by
    refine hexec.safe (bridge_tapeSafe hbase hsj).keeping hsized hsafe ?_
    -- a document that is freed at this address would be this one
    rintro ⟨reply, hreply⟩ handle slot' entry₁ hcall hlive₁ hptr
    have hindex := hsafe.docs.apart _ _ _ _ hlive₁.entry_eq h.live.entry_eq hptr
    have hslot := (slotIndex_inj hlive₁.slot_ne h.live.slot_ne).mp hindex
    obtain ⟨call, result⟩ := event
    simp only at hcall hreply
    subst hcall hreply
    refine hharmless.notFreed ?_
    rw [Event.mark, hlive₁.handle_eq, packHandle_slot, hslot]
  exact ⟨entry', ⟨⟨w, events ++ [event], hrun.snoc hexec⟩, hlive',
    by rw [hfollows.nativePtr_eq]; exact hsafe'.inv⟩, hfollows⟩

/-- **Harmless calls leave the document open.** -/
theorem Open.passes (hbase : Lifecycle base tape (fun _ => True) fun _ => False)
    (hsj : sj.Faithful base.memory tape) (h : Open sj base tape root doc slot s entry)
    (hpasses : Passes (bridge sj base) doc slot kept s s') :
    ∃ entry', Open sj base tape root doc slot s' entry' ∧ Follows kept entry entry' := by
  obtain ⟨events, hrun, hall⟩ := hpasses
  induction hrun generalizing entry with
  | nil s => exact ⟨entry, h, .refl _ _⟩
  | cons hexec _ ih =>
    obtain ⟨hfirst, hrest⟩ := List.forall_mem_cons.mp hall
    obtain ⟨entry₁, hopen₁, hfollows₁⟩ := h.executes hbase hsj hexec hfirst
    obtain ⟨entry', hopen', hfollows'⟩ := ih hopen₁ hrest
    exact ⟨entry', hopen', hfollows₁.trans hfollows'⟩

end

end PureSimdjson
