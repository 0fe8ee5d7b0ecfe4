import PureSimdjson.CallMoves
import PureSimdjson.SampleDocument

/-!
# Parsers and documents own each other

A live document and its busy parser name each other by slot and generation, and this
holds after any calls whatsoever.  So freeing a live document always finds its owner,
and the branches for an owner that is missing, idle or busy with something else are
never taken.
-/
namespace PureSimdjson

open Effect SlotTable Runs

/-! ## Slot numbers as names -/

section Named
variable {α : Type} (gen : α → UInt32)

/-- The entry a slot number and a generation name. -/
def named (t : List (Slot UInt32 α)) (slot generation : UInt32) : Option α :=
  if slot = 0 then none else live gen t (slotIndex slot) generation

variable {gen} {t t' : List (Slot UInt32 α)} {slot slot' generation : UInt32} {e e' : α}

theorem named_eq_some :
    named gen t slot generation = some e ↔
      slot ≠ 0 ∧ t[slotIndex slot]? = some (.occupied e) ∧ gen e = generation := by
  unfold named
  by_cases h : slot = 0
  · simp [h]
  · rw [if_neg h, live_eq_some]
    exact ⟨fun h' => ⟨h, h'⟩, fun h' => h'.2⟩

/-- Another slot's content does not matter. -/
theorem named_set_ne (hslot : slot ≠ 0) (h : slot ≠ slot') (s : Slot UInt32 α) :
    named gen (t.set (slotIndex slot) s) slot' generation = named gen t slot' generation := by
  unfold named
  by_cases h' : slot' = 0
  · rw [if_pos h', if_pos h']
  · rw [if_neg h', if_neg h', live_set_ne]
    exact fun hindex => h ((slotIndex_inj hslot h').mp hindex)

theorem named_set_occupied (hslot : slot ≠ 0) (he : t[slotIndex slot]? = some (.occupied e))
    (e' : α) :
    named gen (t.set (slotIndex slot) (.occupied e')) slot generation =
      if gen e' = generation then some e' else none := by
  rw [named, if_neg hslot, live_set_occupied (Registry.lt_of_getElem? he)]

theorem named_set_vacant (slot g : UInt32) :
    named gen (t.set (slotIndex slot) (.vacant g)) slot generation = none := by
  rw [named, live_set_vacant, ite_self]

theorem named_filled_ne {start : UInt32} (hslot : slot ≠ 0) (h : slot ≠ slot')
    (hfilled : Filled gen start t (slotIndex slot) e t') :
    named gen t' slot' generation = named gen t slot' generation := by
  unfold named
  by_cases h' : slot' = 0
  · rw [if_pos h', if_pos h']
  · rw [if_neg h', if_neg h', hfilled.live, if_neg]
    exact fun hindex => h ((slotIndex_inj hslot h').mp hindex)

theorem named_filled {start : UInt32} (hslot : slot ≠ 0)
    (hfilled : Filled gen start t (slotIndex slot) e t') :
    named gen t' slot generation = if gen e = generation then some e else none := by
  rw [named, if_neg hslot, hfilled.live, if_pos rfl]

theorem named_before_filled {start : UInt32}
    (hfilled : Filled gen start t (slotIndex slot) e t') : named gen t slot generation = none := by
  rw [named, hfilled.live_before, ite_self]

end Named

namespace Registry
variable (registry : Registry)

/-- The live parser a slot number and a generation name. -/
def parserOf (slot generation : UInt32) : Option ParserEntry :=
  named ParserEntry.generation registry.parsers slot generation

/-- The live document a slot number and a generation name. -/
def docOf (slot generation : UInt32) : Option DocEntry :=
  named DocEntry.generation registry.docs slot generation

/-- The parser is live and busy with that document. -/
def BusyWith (slot generation docSlot docGeneration : UInt32) : Prop :=
  ∃ entry, registry.parserOf slot generation = some entry ∧
    entry.state = .busy docSlot docGeneration

/-- The document is live and names that parser as its owner. -/
def OwnedBy (docSlot docGeneration slot generation : UInt32) : Prop :=
  ∃ doc, registry.docOf docSlot docGeneration = some doc ∧
    doc.ownerSlot = slot ∧ doc.ownerGeneration = generation

/-- **Busy parsers and live documents are in bijection.** -/
def Linked : Prop :=
  ∀ slot generation docSlot docGeneration : UInt32,
    registry.BusyWith slot generation docSlot docGeneration ↔
      registry.OwnedBy docSlot docGeneration slot generation

end Registry

/-! ## Who is busy, and who is owned, after a change -/

section
variable {registry registry' : Registry} {slot docSlot : UInt32}

theorem busyWith_set {entry entry' : ParserEntry} (hslot : slot ≠ 0)
    (hentry : registry.parsers[slotIndex slot]? = some (.occupied entry))
    (h : registry'.parsers = registry.parsers.set (slotIndex slot) (.occupied entry'))
    (slot' generation ds dg : UInt32) :
    registry'.BusyWith slot' generation ds dg ↔
      if slot = slot' then entry'.generation = generation ∧ entry'.state = .busy ds dg
      else registry.BusyWith slot' generation ds dg := by
  unfold Registry.BusyWith Registry.parserOf
  rw [h]
  by_cases heq : slot = slot'
  · subst heq
    simp only [named_set_occupied hslot hentry, if_true, Option.ite_none_right_eq_some,
      Option.some.injEq]
    constructor
    · rintro ⟨e, ⟨hgeneration, rfl⟩, hstate⟩
      exact ⟨hgeneration, hstate⟩
    · rintro ⟨hgeneration, hstate⟩
      exact ⟨entry', ⟨hgeneration, rfl⟩, hstate⟩
  · simp only [named_set_ne hslot heq, if_neg heq]

/-- An idle parser is busy with nothing. -/
theorem not_busyWith_of_idle {entry : ParserEntry}
    (hentry : registry.parsers[slotIndex slot]? = some (.occupied entry))
    (hidle : entry.state = .idle) (generation ds dg : UInt32) :
    ¬ registry.BusyWith slot generation ds dg := by
  rintro ⟨e, he, hbusy⟩
  obtain ⟨-, hget, -⟩ := named_eq_some.mp he
  rw [hentry] at hget
  cases hget
  rw [hidle] at hbusy
  cases hbusy

/-- A parser that goes from idle to idle makes no difference. -/
theorem busyWith_of_idle (slot : UInt32)
    (hidle : ∀ generation ds dg, ¬ registry.BusyWith slot generation ds dg)
    (hidle' : ∀ generation ds dg, ¬ registry'.BusyWith slot generation ds dg)
    (hother : ∀ slot' generation, slot ≠ slot' →
      registry'.parserOf slot' generation = registry.parserOf slot' generation)
    (slot' generation ds dg : UInt32) :
    registry'.BusyWith slot' generation ds dg ↔ registry.BusyWith slot' generation ds dg := by
  by_cases heq : slot = slot'
  · subst heq
    exact iff_of_false (hidle' _ _ _) (hidle _ _ _)
  · rw [Registry.BusyWith, hother slot' generation heq]
    rfl

theorem ownedBy_set {doc doc' : DocEntry} (hslot : docSlot ≠ 0)
    (hdoc : registry.docs[slotIndex docSlot]? = some (.occupied doc))
    (h : registry'.docs = registry.docs.set (slotIndex docSlot) (.occupied doc'))
    (hgeneration : doc'.generation = doc.generation) (hownerSlot : doc'.ownerSlot = doc.ownerSlot)
    (hownerGeneration : doc'.ownerGeneration = doc.ownerGeneration)
    (ds dg slot generation : UInt32) :
    registry'.OwnedBy ds dg slot generation ↔ registry.OwnedBy ds dg slot generation := by
  unfold Registry.OwnedBy Registry.docOf
  rw [h]
  by_cases heq : docSlot = ds
  · subst heq
    simp only [named_set_occupied hslot hdoc, Option.ite_none_right_eq_some, Option.some.injEq,
      named_eq_some, hdoc, Slot.occupied.injEq]
    constructor
    · rintro ⟨e, ⟨hg, rfl⟩, hs, ho⟩
      exact ⟨doc, ⟨hslot, rfl, hgeneration ▸ hg⟩, hownerSlot ▸ hs, hownerGeneration ▸ ho⟩
    · rintro ⟨e, ⟨-, rfl, hg⟩, hs, ho⟩
      exact ⟨doc', ⟨hgeneration.trans hg, rfl⟩, hownerSlot.trans hs, hownerGeneration.trans ho⟩
  · simp only [named_set_ne hslot heq]

theorem busyWith_congr (h : registry'.parsers = registry.parsers) (slot generation ds dg : UInt32) :
    registry'.BusyWith slot generation ds dg ↔ registry.BusyWith slot generation ds dg := by
  rw [Registry.BusyWith, Registry.parserOf, h]
  rfl

theorem ownedBy_congr (h : registry'.docs = registry.docs) (ds dg slot generation : UInt32) :
    registry'.OwnedBy ds dg slot generation ↔ registry.OwnedBy ds dg slot generation := by
  rw [Registry.OwnedBy, Registry.docOf, h]
  rfl

end

/-! ## The invariant -/

/-- **Every move keeps the bijection.** -/
theorem Moved.linked {registry registry' : Registry} {event : Event}
    (hmoved : Moved registry event registry') (hlinked : registry.Linked) : registry'.Linked := by
  intro slot' generation ds dg
  cases hmoved with
  | indexed hmark h =>
    cases h with
    | same hparsers hdocs =>
      rw [busyWith_congr hparsers, ownedBy_congr hdocs]
      exact hlinked ..
    | more hslot hentry hindices hparsers hdocs =>
      rw [busyWith_congr hparsers, ownedBy_set hslot hentry hdocs rfl rfl rfl]
      exact hlinked ..
  | leased hmark hok hslot hentry hfree hparsers hdocs =>
    rw [busyWith_congr hparsers, ownedBy_set hslot hentry hdocs rfl rfl rfl]
    exact hlinked ..
  | advanced hmark hok hslot hentry hlease hnext hindices hparsers hdocs =>
    rw [busyWith_congr hparsers, ownedBy_set hslot hentry hdocs rfl rfl rfl]
    exact hlinked ..
  | @refilled slot entry input hmark hslot hentry hidle hparsers hdocs =>
    rw [ownedBy_congr hdocs, ← hlinked]
    refine busyWith_of_idle slot (not_busyWith_of_idle hentry hidle) ?_ ?_ ..
    · have hset : registry'.parsers[slotIndex slot]? =
          some (.occupied { entry with reusableInput := input }) := by
        rw [hparsers, List.getElem?_set_self (Registry.lt_of_getElem? hentry)]
      exact not_busyWith_of_idle hset hidle
    · intro slot' generation hne
      rw [Registry.parserOf, hparsers, named_set_ne hslot hne]
      rfl
  | @parserMade slot entry hmark hok hslot hfilled hidle hdocs =>
    rw [ownedBy_congr hdocs, ← hlinked]
    refine busyWith_of_idle slot ?_ ?_ ?_ ..
    · rintro generation ds dg ⟨e, he, -⟩
      rw [Registry.parserOf, named_before_filled hfilled] at he
      cases he
    · rintro generation ds dg ⟨e, he, hbusy⟩
      rw [Registry.parserOf, named_filled hslot hfilled, Option.ite_none_right_eq_some] at he
      obtain ⟨-, he⟩ := he
      cases he
      rw [hidle] at hbusy
      cases hbusy
    · intro slot' generation hne
      exact named_filled_ne hslot hne hfilled
  | @parserFreed slot entry hmark hok hslot hentry hidle hparsers hdocs =>
    rw [ownedBy_congr hdocs, ← hlinked]
    refine busyWith_of_idle slot (not_busyWith_of_idle hentry hidle) ?_ ?_ ..
    · rintro generation ds dg ⟨e, he, -⟩
      rw [Registry.parserOf, hparsers, named_set_vacant] at he
      cases he
    · intro slot' generation hne
      rw [Registry.parserOf, hparsers, named_set_ne hslot hne]
      rfl
  | @parsed slot docSlot entry doc hmark hok hslot hdocSlot hentry hidle hfilled howner hleases
      hparsers =>
    rw [busyWith_set hslot hentry hparsers]
    have hnone : named DocEntry.generation registry.docs docSlot dg = none :=
      named_before_filled hfilled
    by_cases hd : docSlot = ds
    · subst hd
      have hown : registry'.OwnedBy docSlot dg slot' generation ↔
          doc.generation = dg ∧ doc.ownerSlot = slot' ∧ doc.ownerGeneration = generation := by
        rw [Registry.OwnedBy, Registry.docOf, named_filled hdocSlot hfilled]
        simp only [Option.ite_none_right_eq_some, Option.some.injEq]
        constructor
        · rintro ⟨e, ⟨hg, rfl⟩, hs, ho⟩
          exact ⟨hg, hs, ho⟩
        · rintro ⟨hg, hs, ho⟩
          exact ⟨doc, ⟨hg, rfl⟩, hs, ho⟩
      rw [hown, howner.1, howner.2]
      by_cases hs : slot = slot'
      · subst hs
        simp [and_comm]
      · rw [if_neg hs]
        refine iff_of_false (fun hbusy => ?_) (fun h => hs h.2.1)
        -- the slot was free, so nobody was busy with it
        obtain ⟨e, he, -⟩ := (hlinked ..).mp hbusy
        rw [Registry.docOf, hnone] at he
        cases he
    · have hown : registry'.OwnedBy ds dg slot' generation ↔
          registry.OwnedBy ds dg slot' generation := by
        rw [Registry.OwnedBy, Registry.docOf, named_filled_ne hdocSlot hd hfilled]
        rfl
      rw [hown, ← hlinked]
      by_cases hs : slot = slot'
      · subst hs
        rw [if_pos rfl]
        refine iff_of_false (fun h => ?_) (not_busyWith_of_idle hentry hidle _ _ _)
        cases h.2
        exact hd rfl
      · rw [if_neg hs]
  | @docFreed slot docSlot entry doc hmark hok hpaired hparsers hdocs =>
    rw [busyWith_set hpaired.slot_ne hpaired.entry_eq hparsers]
    by_cases hd : docSlot = ds
    · subst hd
      have hnone : ¬ registry'.OwnedBy docSlot dg slot' generation := by
        rintro ⟨e, he, -⟩
        rw [Registry.docOf, hdocs, named_set_vacant] at he
        cases he
      refine iff_of_false (fun h => ?_) hnone
      by_cases hs : slot = slot'
      · rw [if_pos hs] at h
        cases h.2
      · rw [if_neg hs] at h
        -- whoever else is busy with the document would own it too
        obtain ⟨e, he, hownerSlot, -⟩ := (hlinked ..).mp h
        obtain ⟨-, hget, -⟩ := named_eq_some.mp he
        rw [hpaired.doc_eq] at hget
        cases hget
        exact hs (hpaired.ownerSlot_eq.symm.trans hownerSlot)
    · have hown : registry'.OwnedBy ds dg slot' generation ↔
          registry.OwnedBy ds dg slot' generation := by
        rw [Registry.OwnedBy, Registry.docOf, hdocs, named_set_ne hpaired.docSlot_ne hd]
        rfl
      rw [hown, ← hlinked]
      by_cases hs : slot = slot'
      · subst hs
        rw [if_pos rfl]
        refine iff_of_false (fun h => ?_) fun h => ?_
        · cases h.2
        · obtain ⟨e, he, hbusy⟩ := h
          obtain ⟨-, hget, -⟩ := named_eq_some.mp he
          rw [hpaired.entry_eq] at hget
          cases hget
          rw [hpaired.busy] at hbusy
          cases hbusy
          exact hd rfl
      · rw [if_neg hs]

/-- Every move keeps a number for every slot. -/
theorem Moved.sized {registry registry' : Registry} {event : Event}
    (hmoved : Moved registry event registry') (hsized : registry.Sized) : registry'.Sized := by
  have hfill {α : Type} {gen : α → UInt32} {start : UInt32} {t t' : List (Slot UInt32 α)}
      {slot : UInt32} {e : α} (hslot : slot ≠ 0) (h : Filled gen start t (slotIndex slot) e t')
      (ht : t.length < 2 ^ 32) : t'.length < 2 ^ 32 := by
    rcases h with ⟨-, rfl⟩ | ⟨hlen, -, rfl⟩
    · rwa [List.length_set]
    · have := slotIndex_add_one hslot
      have := slot.toNat_lt
      rw [List.length_append, List.length_singleton]
      omega
  obtain ⟨hp, hd⟩ := hsized
  cases hmoved with
  | indexed hmark h =>
    cases h with
    | same hparsers hdocs => exact ⟨hparsers ▸ hp, hdocs ▸ hd⟩
    | more hslot hentry hindices hparsers hdocs =>
      exact ⟨hparsers ▸ hp, by rwa [hdocs, List.length_set]⟩
  | leased hmark hok hslot hentry hfree hparsers hdocs =>
    exact ⟨hparsers ▸ hp, by rwa [hdocs, List.length_set]⟩
  | advanced hmark hok hslot hentry hlease hnext hindices hparsers hdocs =>
    exact ⟨hparsers ▸ hp, by rwa [hdocs, List.length_set]⟩
  | refilled hmark hslot hentry hidle hparsers hdocs =>
    exact ⟨by rwa [hparsers, List.length_set], hdocs ▸ hd⟩
  | parserMade hmark hok hslot hfilled hidle hdocs => exact ⟨hfill hslot hfilled hp, hdocs ▸ hd⟩
  | parserFreed hmark hok hslot hentry hidle hparsers hdocs =>
    exact ⟨by rwa [hparsers, List.length_set], hdocs ▸ hd⟩
  | parsed hmark hok hslot hdocSlot hentry hidle hfilled howner hleases hparsers =>
    exact ⟨by rwa [hparsers, List.length_set], hfill hdocSlot hfilled hd⟩
  | docFreed hmark hok hpaired hparsers hdocs =>
    exact ⟨by rwa [hparsers, List.length_set], by rwa [hdocs, List.length_set]⟩

section
variable {W : Type} {native : Native W}

theorem sized_of_run {s s' : Runtime W} {events : List Event}
    (hr : Run (Executes native) s events s') (h : s.registry.Sized) : s'.registry.Sized :=
  hr.invariant (I := fun s => s.registry.Sized)
    (fun _ _ _ hs hstep => (moved_of_executes native hs hstep).sized hs) h

theorem Reachable.sized {s : Runtime W} (h : Reachable native s) : s.registry.Sized := by
  obtain ⟨w, events, hr⟩ := h
  exact sized_of_run hr ⟨by simp [Registry.empty], by simp [Registry.empty]⟩

/-- **In every reachable state busy parsers and live documents are in bijection.** -/
theorem Reachable.linked {s : Runtime W} (h : Reachable native s) : s.registry.Linked := by
  obtain ⟨w, events, hr⟩ := h
  have hempty : (Registry.empty).Linked := by
    intro slot generation docSlot docGeneration
    refine iff_of_false ?_ ?_ <;>
      · rintro ⟨e, he, -⟩
        have := (named_eq_some.mp he).2.1
        simp [Registry.empty] at this
  refine (hr.invariant (I := fun s => s.registry.Sized ∧ s.registry.Linked) ?_ ⟨?_, hempty⟩).2
  · rintro s event s' ⟨hsized, hlinked⟩ hstep
    have hmoved := moved_of_executes native hsized hstep
    exact ⟨hmoved.sized hsized, hmoved.linked hlinked⟩
  · exact ⟨by simp [Registry.empty], by simp [Registry.empty]⟩

/-! ## What follows for the calls -/

/-- A live handle unpacks to its slot, and finds its document. -/
theorem DocLive.docAt {registry : Registry} {handle : UInt64} {docSlot : UInt32} {doc : DocEntry}
    (h : DocLive registry handle docSlot doc) :
    registry.docAt (slotIndex docSlot) doc.generation = some doc :=
  Registry.docAt_eq_some.mpr ⟨h.entry_eq, rfl⟩

theorem ParserLive.parserAt {registry : Registry} {handle : UInt64} {slot : UInt32}
    {entry : ParserEntry} (h : ParserLive registry handle slot entry) :
    registry.parserAt (slotIndex slot) entry.generation = some entry :=
  Registry.parserAt_eq_some.mpr ⟨h.entry_eq, rfl⟩

theorem parserEntry_eq_ok {registry : Registry} {handle : UInt64} {entry : ParserEntry} :
    registry.parserEntry handle = .ok entry ↔ ∃ slot, ParserLive registry handle slot entry := by
  constructor
  · intro h
    rw [Registry.parserEntry] at h
    cases hunpack : unpackHandle handle with
    | error rc =>
      rw [hunpack] at h
      cases h
    | ok parts =>
      obtain ⟨index, slot, generation⟩ := parts
      obtain ⟨hslot, rfl, hhandle⟩ := unpackHandle_eq_ok hunpack
      simp only [hunpack, bind, Except.bind] at h
      split at h
      · rename_i found hfound
        cases h
        exact ⟨slot, .of_parserAt hslot hhandle hfound⟩
      · cases h
  · intro h
    obtain ⟨slot, hlive⟩ := h
    have hparserAt : registry.parserAt (slot - 1).toNat entry.generation = some entry :=
      hlive.parserAt
    rw [Registry.parserEntry, hlive.handle_eq, unpackHandle_packHandle hlive.slot_ne]
    simp only [bind, Except.bind, hparserAt]
    rfl

theorem docEntry_eq_ok {registry : Registry} {doc : UInt64} {entry : DocEntry} :
    registry.docEntry doc = .ok entry ↔ ∃ slot, DocLive registry doc slot entry := by
  constructor
  · intro h
    rw [Registry.docEntry] at h
    cases hunpack : unpackHandle doc with
    | error rc =>
      rw [hunpack] at h
      cases h
    | ok parts =>
      obtain ⟨index, slot, generation⟩ := parts
      obtain ⟨hslot, rfl, hhandle⟩ := unpackHandle_eq_ok hunpack
      simp only [hunpack, bind, Except.bind] at h
      split at h
      · rename_i found hfound
        cases h
        exact ⟨slot, .of_docAt hslot hhandle hfound⟩
      · cases h
  · rintro ⟨slot, hlive⟩
    have hdocAt : registry.docAt (slot - 1).toNat entry.generation = some entry := hlive.docAt
    rw [Registry.docEntry, hlive.handle_eq, unpackHandle_packHandle hlive.slot_ne]
    simp only [bind, Except.bind, hdocAt]
    rfl

/-- A live document's owner is busy with it. -/
theorem Registry.Linked.paired {registry : Registry} (h : registry.Linked) {handle : UInt64}
    {docSlot : UInt32} {doc : DocEntry} (hlive : DocLive registry handle docSlot doc) :
    ∃ slot owner, Paired registry docSlot doc slot owner := by
  obtain ⟨owner, howner, hbusy⟩ := (h doc.ownerSlot doc.ownerGeneration docSlot
    doc.generation).mpr ⟨doc, named_eq_some.mpr ⟨hlive.slot_ne, hlive.entry_eq, rfl⟩, rfl, rfl⟩
  obtain ⟨hslot, hentry, hgeneration⟩ := named_eq_some.mp howner
  exact ⟨doc.ownerSlot, owner, hslot, hlive.slot_ne, hlive.entry_eq, hentry, rfl,
    hgeneration.symm, hbusy⟩

/-- **Freeing a live document comes down to the native free**: if that works, so does
the call. -/
theorem wp_docFree_live (native : Native W) {s : Runtime W} {handle : UInt64}
    {docSlot slot : UInt32} {doc : DocEntry} {owner : ParserEntry}
    (hlive : DocLive s.registry handle docSlot doc)
    (hpaired : Paired s.registry docSlot doc slot owner)
    {Q : Unit → Runtime W → Prop} {E : ErrorCode → Runtime W → Prop}
    (h : wp (native.docFree doc.nativePtr)
      (fun _ w => Q () ⟨release s.registry docSlot doc slot owner, w⟩)
      (fun rc w => E rc ⟨s.registry, w⟩) s.native) :
    wp (docFree native handle) Q E s := by
  have hslot : doc.ownerSlot ≠ 0 := hpaired.ownerSlot_eq ▸ hpaired.slot_ne
  have howner : s.registry.parserAt (doc.ownerSlot - 1).toNat doc.ownerGeneration =
      some owner := by
    rw [hpaired.ownerSlot_eq, hpaired.ownerGeneration_eq]
    exact Registry.parserAt_eq_some.mpr ⟨hpaired.entry_eq, rfl⟩
  have hbusy : owner.state = .busy (UInt32.ofNat (slotIndex docSlot + 1)) doc.generation := by
    rw [slotIndex_add_one hlive.slot_ne, UInt32.ofNat_toNat]
    exact hpaired.busy
  have hagain : (s.registry.setDoc (slotIndex docSlot)
      (.vacant (nextDocGeneration doc.generation))).parserAt (doc.ownerSlot - 1).toNat
        doc.ownerGeneration = some owner := howner
  rw [docFree, wp_bind, hlive.handle_eq, unpackHandle_packHandle hlive.slot_ne, wp_ofExcept_ok,
    wp_bind, show (docSlot - 1).toNat = slotIndex docSlot from rfl,
    wp_lookupDoc_some hlive.docAt, wp_bind, wp_require]
  refine ⟨fun _ => ?_, fun hn => absurd hslot hn⟩
  rw [wp_bind, wp_lookupParser_some howner, wp_bind, wp_require]
  refine ⟨fun _ => ?_, fun hn => absurd hbusy hn⟩
  rw [wp_bind, wp_callNative]
  refine wp_mono h (fun _ w hQ => ?_) fun _ _ => id
  rw [wp_bind, wp_getRegistry, hlive.docAt, wp_bind, wp_modifyRegistry, wp_bind, wp_getRegistry,
    hagain, wp_modifyRegistry]
  rw [release, slotIndex, ← hpaired.ownerSlot_eq] at hQ
  exact hQ

/-- Freeing a live parser comes down to the native free if it is idle, and to nothing
if it is busy. -/
theorem wp_parserFree_live (native : Native W) {s : Runtime W} {handle : UInt64} {slot : UInt32}
    {entry : ParserEntry} (hlive : ParserLive s.registry handle slot entry)
    {Q : Unit → Runtime W → Prop} {E : ErrorCode → Runtime W → Prop}
    (hbusy : entry.state ≠ .idle → E .parserBusy s)
    (hidle : entry.state = .idle → wp (native.parserFree entry.nativePtr)
      (fun _ w => Q () ⟨s.registry.setParser (slotIndex slot)
        (.vacant (nextParserGeneration entry.generation)), w⟩)
      (fun rc w => E rc ⟨s.registry, w⟩) s.native) :
    wp (parserFree native handle) Q E s := by
  rw [parserFree, wp_bind, hlive.handle_eq, unpackHandle_packHandle hlive.slot_ne,
    wp_ofExcept_ok, wp_bind, show (slot - 1).toNat = slotIndex slot from rfl,
    wp_lookupParser_some hlive.parserAt, wp_bind, wp_require]
  refine ⟨fun h => ?_, hbusy⟩
  rw [wp_bind, wp_callNative]
  exact hidle h

/-- A parser's slot, but for the recycled buffer. -/
def forgetBuffer : Slot UInt32 ParserEntry → Slot UInt32 ParserEntry
  | .vacant generation => .vacant generation
  | .occupied entry => .occupied { entry with reusableInput := [] }

/-- A document's slot, but for the indices it has issued. -/
def forgetIndices : Slot UInt32 DocEntry → Slot UInt32 DocEntry
  | .vacant generation => .vacant generation
  | .occupied entry => .occupied { entry with descendantIndices := ∅ }

/-- Slots, generations, states, owners, leases and storage are the same. -/
def SameOwners (registry registry' : Registry) : Prop :=
  registry'.parsers.map forgetBuffer = registry.parsers.map forgetBuffer ∧
    registry'.docs.map forgetIndices = registry.docs.map forgetIndices

theorem map_set_of_eq {α β : Type} {t : List α} {i : Nat} {a a' : α} {f : α → β}
    (ha : t[i]? = some a) (h : f a' = f a) : (t.set i a').map f = t.map f := by
  obtain ⟨hlt, rfl⟩ := List.getElem?_eq_some_iff.mp ha
  rw [List.map_set, h, ← List.getElem_map f (h := by simpa using hlt), List.set_getElem_self]

/-- **A failed call leaves who owns what as it was.** -/
theorem Moved.sameOwners {registry registry' : Registry} {event : Event}
    (hmoved : Moved registry event registry') (hfailed : ¬ event.Succeeded) :
    SameOwners registry registry' := by
  cases hmoved with
  | indexed hmark h =>
    cases h with
    | same hparsers hdocs => exact ⟨by rw [hparsers], by rw [hdocs]⟩
    | more hslot hentry hindices hparsers hdocs =>
      exact ⟨by rw [hparsers], by rw [hdocs]; exact map_set_of_eq hentry rfl⟩
  | refilled hmark hslot hentry hidle hparsers hdocs =>
    exact ⟨by rw [hparsers]; exact map_set_of_eq hentry rfl, by rw [hdocs]⟩
  | parserMade hmark hok => exact absurd hok hfailed
  | parserFreed hmark hok => exact absurd hok hfailed
  | parsed hmark hok => exact absurd hok hfailed
  | docFreed hmark hok => exact absurd hok hfailed
  | leased hmark hok => exact absurd hok hfailed
  | advanced hmark hok => exact absurd hok hfailed

/-- **Ownership, over every run of calls.**  Busy parsers and live documents are in
bijection.  Freeing a live document finds its owner and does what the native free does;
freeing a live parser is refused if it is busy, and otherwise does what the native free
does.  A parser that has just been given a document is still there.  And a failed call
leaves every slot, state and owner as it was. -/
theorem registry_ownership (native : Native W) {s : Runtime W} (h : Reachable native s) :
    s.registry.Linked ∧
    (∀ handle docSlot doc, DocLive s.registry handle docSlot doc →
      ∃ slot owner, Paired s.registry docSlot doc slot owner ∧ ∀ w,
        ((native.docFree doc.nativePtr).run s.native = .ok () w →
          (docFree native handle).run s =
            .ok () ⟨release s.registry docSlot doc slot owner, w⟩) ∧
        ∀ rc, (native.docFree doc.nativePtr).run s.native = .error rc w →
          (docFree native handle).run s = .error rc ⟨s.registry, w⟩) ∧
    (∀ handle slot entry, ParserLive s.registry handle slot entry →
      (entry.state ≠ .idle → (parserFree native handle).run s = .error .parserBusy s) ∧
      (entry.state = .idle → ∀ w,
        ((native.parserFree entry.nativePtr).run s.native = .ok () w →
          (parserFree native handle).run s = .ok () ⟨s.registry.setParser (slotIndex slot)
            (.vacant (nextParserGeneration entry.generation)), w⟩) ∧
        ∀ rc, (native.parserFree entry.nativePtr).run s.native = .error rc w →
          (parserFree native handle).run s = .error rc ⟨s.registry, w⟩)) ∧
    (∀ handle slot entry nativePtr rootPtr rootAfterIndex input docHandle made,
      ParserLive s.registry handle slot entry →
      (refill s.registry slot entry []).allocDoc nativePtr rootPtr rootAfterIndex slot
        entry.generation input = .ok (docHandle, made) →
      made.parserAt (slotIndex slot) entry.generation =
        some { entry with reusableInput := [] }) ∧
    (∀ event s', Executes native s event s' → ¬ event.Succeeded →
      SameOwners s.registry s'.registry) := by
  refine ⟨h.linked, ?_, ?_, ?_, ?_⟩
  · intro handle docSlot doc hlive
    obtain ⟨slot, owner, hpaired⟩ := h.linked.paired hlive
    refine ⟨slot, owner, hpaired, fun w => ⟨fun hok => run_eq_ok ?_, fun rc herror =>
      run_eq_error ?_⟩⟩
    · exact wp_docFree_live native hlive hpaired (wp_of_run_ok hok ⟨rfl, rfl⟩)
    · exact wp_docFree_live native hlive hpaired (wp_of_run_error herror ⟨rfl, rfl⟩)
  · intro handle slot entry hlive
    refine ⟨fun hbusy => run_eq_error ?_, fun hidle w =>
      ⟨fun hok => run_eq_ok ?_, fun rc herror => run_eq_error ?_⟩⟩
    · exact wp_parserFree_live native hlive (fun _ => ⟨rfl, rfl⟩) fun hidle => absurd hidle hbusy
    · exact wp_parserFree_live native hlive (fun hbusy => absurd hidle hbusy)
        fun _ => wp_of_run_ok hok ⟨rfl, rfl⟩
    · exact wp_parserFree_live native hlive (fun hbusy => absurd hidle hbusy)
        fun _ => wp_of_run_error herror ⟨rfl, rfl⟩
  · intro handle slot entry nativePtr rootPtr rootAfterIndex input docHandle made hlive halloc
    have hsized : (refill s.registry slot entry []).Sized :=
      ⟨by simpa [refill, Registry.setParser] using h.sized.parsers, h.sized.docs⟩
    obtain ⟨_, _, _, _, _, hparsers⟩ := Registry.allocDoc_ok hsized halloc
    exact hlive.parserAt_made hparsers
  · intro event s' hstep hfailed
    exact (moved_of_executes native h.sized hstep).sameOwners hfailed

end

/-! ## One parsed document -/

/-- The text of the document. -/
def sampleText : Bytes :=
  [123, 34, 97, 34, 58, 91, 110, 117, 108, 108, 44, 55, 93, 44, 34, 97, 97, 34, 58, 55, 125]

/-- The first parser. -/
def sampleParser : UInt64 := packHandle 1 1

/-- The first document. -/
def sampleDoc : UInt64 := packHandle 1 2

/-- The state after a parser was made. -/
def sampleStart : Runtime SampleWorld where
  registry := ⟨[.occupied ⟨1, 1, .idle, [], defaultMaxCapacity, defaultMaxDepth⟩], [], ∅, ∅⟩
  native := .empty

/-- The entry of the parsed document. -/
def sampleEntry : DocEntry where
  generation := 2
  nativePtr := 1
  rootPtr := 1
  rootAfterIndex := 12
  ownerSlot := 1
  ownerGeneration := 1
  inputStorage := paddedInput [] sampleText 64
  descendantIndices := ∅
  iterLeases := ∅
  nextIterLease := 1

/-- The state after it has parsed the text. -/
def sampleState : Runtime SampleWorld where
  registry := ⟨[.occupied ⟨1, 1, .busy 1 2, [], defaultMaxCapacity, defaultMaxDepth⟩],
    [.occupied sampleEntry], ∅, ∅⟩
  native := ⟨{1}, []⟩

theorem sampleState_run : Run (Executes sampleNative) ⟨Registry.empty, .empty⟩
    [(.parserNew, .ok (.handle sampleParser)),
      (.parserParse sampleParser sampleText, .ok (.handle sampleDoc))] sampleState :=
  .cons (show Executes sampleNative _ (_, _) sampleStart from rfl) (.cons rfl (.nil _))

theorem sampleState_reachable : Reachable sampleNative sampleState :=
  ⟨_, _, sampleState_run⟩

/-- The document just parsed is freed, and its parser is idle again with the buffer. -/
theorem registry_ownership_sample :
    Reachable sampleNative sampleState ∧
      (docFree sampleNative sampleDoc).run sampleState =
        .ok () ⟨⟨[.occupied ⟨1, 1, .idle, paddedInput [] sampleText 64, defaultMaxCapacity,
          defaultMaxDepth⟩], [.vacant 4], ∅, ∅⟩, ⟨∅, []⟩⟩ := by
  refine ⟨sampleState_reachable, ?_⟩
  obtain ⟨-, hfree, -⟩ := registry_ownership sampleNative sampleState_reachable
  obtain ⟨slot, owner, hpaired, hrun⟩ := hfree sampleDoc 1 sampleEntry ⟨by decide, rfl, rfl⟩
  have hslot : slot = 1 := hpaired.ownerSlot_eq.symm
  subst hslot
  have hentry := hpaired.entry_eq
  cases hentry
  exact (hrun ⟨∅, []⟩).1 rfl

end PureSimdjson
