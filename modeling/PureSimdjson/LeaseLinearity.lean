import PureSimdjson.Freshness
import PureSimdjson.IndexValidity

/-!
# A lease accepts one state

Callers may copy an iterator, go back to an old copy or make one up.  What decides is
the document's lease: a struct is accepted exactly when it carries what the lease holds
at that moment, and using it moves the lease on, so every other copy is left behind.

The range checks of the two `next` calls never refuse what the lease accepts; that is
where safety comes in.
-/
namespace PureSimdjson

open Effect SlotTable Runs Json

/-! ## Leases by name -/

/-- What a lease of a document holds, if the handle names a live document and the id is
one of its leases. -/
def Registry.leaseAt (registry : Registry) (doc : UInt64) (leaseId : UInt32) :
    Option IteratorLease :=
  match registry.docEntry doc with
  | .ok entry => entry.iterLeases.lookup leaseId
  | .error _ => none

section
variable {registry registry' : Registry} {doc : UInt64} {slot slot' : UInt32}
  {entry entry' : DocEntry}

theorem DocLive.leaseAt (hlive : DocLive registry doc slot entry) (leaseId : UInt32) :
    registry.leaseAt doc leaseId = entry.iterLeases.lookup leaseId := by
  rw [Registry.leaseAt, docEntry_eq_ok.mpr ⟨slot, hlive⟩]

theorem leaseAt_eq_some {leaseId : UInt32} {lease : IteratorLease} :
    registry.leaseAt doc leaseId = some lease ↔
      ∃ slot entry, DocLive registry doc slot entry ∧
        entry.iterLeases.lookup leaseId = some lease := by
  constructor
  · intro h
    rw [Registry.leaseAt] at h
    split at h
    · rename_i entry hentry
      obtain ⟨slot, hlive⟩ := docEntry_eq_ok.mp hentry
      exact ⟨slot, entry, hlive, h⟩
    · cases h
  · rintro ⟨slot, entry, hlive, h⟩
    rw [hlive.leaseAt, h]

/-- A document in another slot stays as it is. -/
theorem DocLive.set_ne (hlive : DocLive registry doc slot entry) (hslot' : slot' ≠ 0)
    (hne : slot' ≠ slot) {a : Slot UInt32 DocEntry}
    (hdocs : registry'.docs = registry.docs.set (slotIndex slot') a) :
    DocLive registry' doc slot entry := by
  refine ⟨hlive.slot_ne, hlive.handle_eq, ?_⟩
  have hindex : slotIndex slot' ≠ slotIndex slot := fun h =>
    hne ((slotIndex_inj hslot' hlive.slot_ne).mp h)
  rw [hdocs, List.getElem?_set_ne hindex, hlive.entry_eq]

/-- A document whose entry is replaced is what the entry is replaced by. -/
theorem DocLive.set_self (hlive : DocLive registry doc slot entry)
    (hdocs : registry'.docs = registry.docs.set (slotIndex slot) (.occupied entry'))
    (hgeneration : entry'.generation = entry.generation) :
    DocLive registry' doc slot entry' := by
  refine ⟨hlive.slot_ne, hgeneration ▸ hlive.handle_eq, ?_⟩
  rw [hdocs, List.getElem?_set_self (Registry.lt_of_getElem? hlive.entry_eq)]

theorem DocLive.congr (hlive : DocLive registry doc slot entry)
    (hdocs : registry'.docs = registry.docs) : DocLive registry' doc slot entry :=
  ⟨hlive.slot_ne, hlive.handle_eq, hdocs ▸ hlive.entry_eq⟩

end

/-! ## What a call does to a lease -/

/-- The event leaves the lease as it is, or delivers the child the lease stands on and
moves it on. -/
inductive LeaseStep (event : Event) (doc : UInt64) (leaseId : UInt32) (lease : IteratorLease) :
    IteratorLease → Prop where
  | stays (h : ∀ jsonIndex, event.mark ≠ .delivered doc leaseId jsonIndex) :
      LeaseStep event doc leaseId lease lease
  | moves {next : Nat} (h : event.mark = .delivered doc leaseId lease.state0)
      (hlt : lease.state0 < next) :
      LeaseStep event doc leaseId lease { lease with state0 := next }

/-- **Every move but the document's own free takes each of its leases one step.** -/
theorem Moved.leaseStep {registry registry' : Registry} {event : Event}
    (hmoved : Moved registry event registry') {doc : UInt64} {slot : UInt32} {entry : DocEntry}
    (hlive : DocLive registry doc slot entry) (hkept : event.mark ≠ .docFreed slot) :
    ∃ entry', DocLive registry' doc slot entry' ∧ entry'.nativePtr = entry.nativePtr ∧
      ∀ leaseId lease, entry.iterLeases.lookup leaseId = some lease →
        ∃ lease', entry'.iterLeases.lookup leaseId = some lease' ∧
          LeaseStep event doc leaseId lease lease' := by
  -- the leases are the same, and the event delivers nothing through this document
  have hsame {entry' : DocEntry} (hlive' : DocLive registry' doc slot entry')
      (hsame : entry'.nativePtr = entry.nativePtr ∧ entry'.iterLeases = entry.iterLeases)
      (hmark : ∀ leaseId jsonIndex, event.mark ≠ .delivered doc leaseId jsonIndex) :
      ∃ entry', DocLive registry' doc slot entry' ∧ entry'.nativePtr = entry.nativePtr ∧
        ∀ leaseId lease, entry.iterLeases.lookup leaseId = some lease →
          ∃ lease', entry'.iterLeases.lookup leaseId = some lease' ∧
            LeaseStep event doc leaseId lease lease' :=
    ⟨entry', hlive', hsame.1, fun leaseId lease h =>
      ⟨lease, by rwa [hsame.2], .stays (hmark leaseId)⟩⟩
  have hplain (hmark : event.mark = .plain) (leaseId : UInt32) (jsonIndex : Nat) :
      event.mark ≠ .delivered doc leaseId jsonIndex := by
    rw [hmark]
    intro h
    cases h
  cases hmoved with
  | refilled hmark _ _ _ _ hdocs => exact hsame (hlive.congr hdocs) ⟨rfl, rfl⟩ (hplain hmark)
  | parserMade hmark _ _ _ _ hdocs => exact hsame (hlive.congr hdocs) ⟨rfl, rfl⟩ (hplain hmark)
  | parserFreed hmark _ _ _ _ _ hdocs =>
    refine hsame (hlive.congr hdocs) ⟨rfl, rfl⟩ fun leaseId jsonIndex => ?_
    rw [hmark]
    intro h
    cases h
  | indexed hmark h =>
    cases h with
    | same _ hdocs => exact hsame (hlive.congr hdocs) ⟨rfl, rfl⟩ (hplain hmark)
    | @more slot' entry₁ indices hslot' hentry hindices _ hdocs =>
      by_cases heq : slot' = slot
      · subst heq
        have he := hlive.entry_eq.symm.trans hentry
        cases he
        exact hsame (hlive.set_self hdocs rfl) ⟨rfl, rfl⟩ (hplain hmark)
      · exact hsame (hlive.set_ne hslot' heq hdocs) ⟨rfl, rfl⟩ (hplain hmark)
  | @parsed slot' docSlot entry₁ doc₁ hmark _ _ hdocSlot _ _ hfilled =>
    -- the new document went into a slot that was free, so not into this one
    have hne : docSlot ≠ slot := by
      rintro rfl
      have hfree := hfilled.live_before entry.generation
      have hthere : live DocEntry.generation registry.docs (slotIndex docSlot) entry.generation =
        some entry := hlive.docAt
      rw [hfree] at hthere
      cases hthere
    have hlive' : DocLive registry' doc slot entry := by
      refine ⟨hlive.slot_ne, hlive.handle_eq, ?_⟩
      have hindex : ¬ slotIndex docSlot = slotIndex slot := fun h =>
        hne ((slotIndex_inj hdocSlot hlive.slot_ne).mp h)
      have hlive₁ := hfilled.live (slotIndex slot) entry.generation
      rw [if_neg hindex] at hlive₁
      exact (live_eq_some.mp (hlive₁.trans hlive.docAt)).1
    exact hsame hlive' ⟨rfl, rfl⟩ (hplain hmark)
  | @docFreed slot' docSlot entry₁ doc₁ hmark _ hpaired _ hdocs =>
    have hne : docSlot ≠ slot := by
      rintro rfl
      exact hkept hmark
    refine hsame (hlive.set_ne hpaired.docSlot_ne hne hdocs) ⟨rfl, rfl⟩ fun leaseId jsonIndex => ?_
    rw [hmark]
    intro h
    cases h
  | @leased slot' entry₁ newId next lease₁ hmark _ hslot' hentry hfree _ hdocs =>
    by_cases heq : slot' = slot
    · subst heq
      have he := hlive.entry_eq.symm.trans hentry
      cases he
      refine ⟨_, hlive.set_self hdocs rfl, rfl, fun leaseId lease h => ⟨lease, ?_, .stays ?_⟩⟩
      · -- the new lease took an id that was free
        have hne : leaseId ≠ newId := by
          rintro rfl
          exact hfree (AList.lookup_isSome.mp (by rw [h]; rfl))
        rwa [AList.lookup_insert_ne hne]
      · exact hplain hmark leaseId
    · exact hsame (hlive.set_ne hslot' heq hdocs) ⟨rfl, rfl⟩ (hplain hmark)
  | @advanced slot' movedId entry₁ indices jsonIndex next state1 tag hmark _ hslot' hentry hlease
      hnext _ _ hdocs =>
    by_cases heq : slot' = slot
    · subst heq
      have he := hlive.entry_eq.symm.trans hentry
      cases he
      rw [← hlive.handle_eq] at hmark
      refine ⟨_, hlive.set_self hdocs rfl, rfl, fun leaseId lease h => ?_⟩
      by_cases hid : leaseId = movedId
      · subst hid
        rw [hlease] at h
        cases h
        exact ⟨_, AList.lookup_insert _, .moves hmark hnext.1⟩
      · refine ⟨lease, by rwa [AList.lookup_insert_ne hid], .stays fun k hk => ?_⟩
        rw [hmark] at hk
        cases hk
        exact hid rfl
    · refine hsame (hlive.set_ne hslot' heq hdocs) ⟨rfl, rfl⟩ fun leaseId k hk => ?_
      rw [hmark] at hk
      have hdoc : packHandle slot' entry₁.generation = doc := by
        cases hk
        rfl
      exact heq (packHandle_inj.mp (hdoc.trans hlive.handle_eq)).1

/-- The document a handle names is not freed by any of the events. -/
abbrev Undisturbed (doc : UInt64) (events : List Event) : Prop :=
  ∀ event ∈ events, event.mark ≠ .docFreed doc.toUInt32

section
variable {W : Type} {native : Native W}

end

/-! ## Acceptance -/

/-- A lease that is right about its document is within the range the checks allow. -/
theorem LeaseOk.range {root : Json} {lease : IteratorLease} (h : LeaseOk root lease) :
    0 < lease.state0 ∧ lease.state0 ≤ lease.state1 ∧ lease.state1 < 1 + root.width := by
  rcases h with ⟨-, container, before, after, hat, h0, h1⟩ |
    ⟨-, container, before, after, hat, h0, h1⟩
  · have hend := hat.range.2
    rw [width] at hend
    rw [itemsWidth_append] at h1 hend
    omega
  · have hend := hat.range.2
    rw [width] at hend
    rw [fieldsWidth_append] at h1 hend
    omega

theorem validateIterIndex_ok {index rootAfterIndex : Nat} (hpos : 0 < index)
    (hlt : index < rootAfterIndex) : validateIterIndex index rootAfterIndex = .ok () := by
  rw [validateIterIndex, if_neg]
  omega

section
variable {W : Type} {tape : W → Nat → Option Json} {inv : W → Prop} {s : Runtime W} {iter : Iter}
  {tag : Nat}

/-- A struct that is what its lease holds gets through to the action. -/
theorem wp_withIterDoc_of_lease {α : Type} (hs : Safe tape inv s) (hreserved : iter.reserved = 0)
    (htag : iter.tag = tag) {slot : UInt32} {entry : DocEntry}
    (hlive : DocLive s.registry iter.doc slot entry)
    (hlease : entry.iterLeases.lookup iter.index = some ⟨iter.state0, iter.state1, tag⟩)
    {action : DocM W α} {Q : α → Runtime W → Prop} {E : ErrorCode → Runtime W → Prop} :
    wp (withIterDoc iter tag action) Q E s ↔
      wp action
        (fun a e => Q a ⟨s.registry.setDoc (slotIndex slot) (.occupied e.1), e.2⟩)
        (fun rc e => E rc ⟨s.registry.setDoc (slotIndex slot) (.occupied e.1), e.2⟩)
        (entry, s.native) := by
  obtain ⟨root, hroot, hok⟩ := hs.docs.entries _ _ hlive.entry_eq
  obtain ⟨hpos, hle, hlt⟩ := (hok.leases _ _ hlease).range
  rw [← hok.rootAfterIndex_eq] at hlt
  have hfields : ¬ (iter.reserved ≠ 0 ∨ iter.tag ≠ tag ∨ iter.state0 > iter.state1) := by
    simp only at hle
    omega
  have hindex : (slot - 1).toNat = slotIndex slot := rfl
  rw [withIterDoc, require, if_pos hfields, wp_bind, wp_pure, wp_bind, hlive.handle_eq,
    unpackHandle_packHandle hlive.slot_ne, wp_ofExcept_ok, wp_withDoc, hindex, hlive.docAt]
  simp only [Option.some.injEq, forall_eq', reduceCtorEq, false_implies, and_true, wp_bind,
    wp_getEntry, DocEntry.validateIterLease_ok_iff.mpr hlease, wp_ofExcept_ok,
    validateIterIndex_ok hpos (Nat.lt_of_le_of_lt hle hlt),
    validateIterIndex_ok (Nat.lt_of_lt_of_le hpos hle) hlt]

end

/-! ## Linearity -/

/-- The iterator a `next` call is made with, and the tag it asks for. -/
def Call.next : Call → Option (Iter × Nat)
  | .arrayIterNext (some iter) => some (iter, arrayIterTag)
  | .objectIterNext (some iter) => some (iter, objectIterTag)
  | _ => none

/-- Only a `next` call that succeeds delivers, and through the lease it was given. -/
theorem next_of_delivered {call : Call} {result : Except ErrorCode Reply} {doc : UInt64}
    {leaseId : UInt32} {jsonIndex : Nat}
    (h : Event.mark (call, result) = .delivered doc leaseId jsonIndex) :
    ∃ iter tag reply, call.next = some (iter, tag) ∧ iter.doc = doc ∧ iter.index = leaseId ∧
      result = .ok reply := by
  rw [Event.mark.eq_def] at h
  split at h
  · cases h
  · cases h
  · rename_i iter step hevent
    cases hevent
    split at h
    · cases h
    · cases h
      exact ⟨iter, _, _, rfl, rfl, rfl, rfl⟩
  · rename_i iter step hevent
    cases hevent
    split at h
    · cases h
    · cases h
      exact ⟨iter, _, _, rfl, rfl, rfl, rfl⟩
  · cases h

/-- A `next` call frees nothing. -/
theorem mark_next {call : Call} {iter : Iter} {tag : Nat} (hnext : call.next = some (iter, tag))
    (result : Except ErrorCode Reply) (slot : UInt32) :
    Event.mark (call, result) ≠ .docFreed slot := by
  intro h
  rw [Event.mark.eq_def] at h
  split at h
  · cases h
  · rename_i hevent
    cases hevent
    cases hnext
  · split at h <;> cases h
  · split at h <;> cases h
  · cases h

section
variable {W : Type} {native : Native W} {tape : W → Nat → Option Json} {inv : W → Prop}
  {s s' : Runtime W}

end

end PureSimdjson
