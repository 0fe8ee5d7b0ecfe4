import PureSimdjson.Calls

/-!
# What a call can do to the registry

Every exported call either leaves the two tables alone but for the indices a document
has issued, or makes one of seven changes: a parser is made or freed, its input buffer
is replaced, a document is parsed or freed, a lease is made or advanced.  `Moved` lists
them, for any native side and any arguments, and every invariant of the registry is
derived from that list alone.

The ledgers of copied blocks are not part of it.
-/
namespace PureSimdjson

open Effect SlotTable Runs

/-! ## Slot numbers -/

/-- The table index of a slot number. -/
def slotIndex (slot : UInt32) : Nat := (slot - 1).toNat

theorem slotIndex_add_one {slot : UInt32} (h : slot ≠ 0) : slotIndex slot + 1 = slot.toNat := by
  have hpos : slot.toNat ≠ 0 := fun h' => h (UInt32.toNat_inj.mp h')
  have hlt := slot.toNat_lt
  rw [slotIndex, UInt32.toNat_sub]
  simp
  omega

theorem slotIndex_inj {slot slot' : UInt32} (h : slot ≠ 0) (h' : slot' ≠ 0) :
    slotIndex slot = slotIndex slot' ↔ slot = slot' := by
  constructor
  · intro heq
    have := slotIndex_add_one h
    have := slotIndex_add_one h'
    exact UInt32.toNat_inj.mp (by omega)
  · rintro rfl
    rfl

/-- Every index below `2 ^ 32 - 1` has a slot number. -/
theorem exists_slot {index : Nat} (h : index + 1 < 2 ^ 32) :
    UInt32.ofNat (index + 1) ≠ 0 ∧ slotIndex (UInt32.ofNat (index + 1)) = index := by
  have hn : (UInt32.ofNat (index + 1)).toNat = index + 1 := UInt32.toNat_ofNat_of_lt' h
  have hne : UInt32.ofNat (index + 1) ≠ 0 := by
    intro h0
    rw [h0] at hn
    cases hn
  have := slotIndex_add_one hne
  exact ⟨hne, by omega⟩

theorem lt_of_not_maxSlotCount {length : Nat} (h : ¬ length ≥ maxSlotCount) :
    length + 1 < 2 ^ 32 := by
  rw [maxSlotCount] at h
  omega

/-- Unpacking accepts the packings of nonzero slots and nothing else. -/
theorem wp_unpackHandle {σ : Type} {Q : Nat × UInt32 × UInt32 → σ → Prop}
    {E : ErrorCode → σ → Prop} {s : σ} {handle : UInt64}
    (hok : ∀ slot generation, slot ≠ 0 → handle = packHandle slot generation →
      Q (slotIndex slot, slot, generation) s)
    (herror : E .invalidHandle s) :
    wp (ofExcept (unpackHandle handle)) Q E s := by
  rw [wp_ofExcept]
  refine ⟨fun parts h => ?_, fun rc h => ?_⟩
  · obtain ⟨index, slot, generation⟩ := parts
    obtain ⟨hslot, rfl, hhandle⟩ := unpackHandle_eq_ok h
    exact hok slot generation hslot hhandle
  · rw [unpackHandle_error h]
    exact herror

/-! ## Events -/

/-- What an event means for the tables. -/
inductive Mark where
  | plain
  | parserFreed (slot : UInt32)
  | docFreed (slot : UInt32)
  | delivered (doc : UInt64) (leaseId : UInt32) (jsonIndex : Nat)
  deriving DecidableEq

/-- The mark of an event can be read off its arguments and its reply. -/
def Event.mark : Event → Mark
  | (.parserFree parser, .ok _) => .parserFreed parser.toUInt32
  | (.docFree doc, .ok _) => .docFreed doc.toUInt32
  | (.arrayIterNext (some iter), .ok (.arrayStep step)) =>
    if step.done then .plain else .delivered iter.doc iter.index step.value.state0
  | (.objectIterNext (some iter), .ok (.objectStep step)) =>
    if step.done then .plain else .delivered iter.doc iter.index step.key.state0
  | _ => .plain

/-- The call succeeded. -/
def Event.Succeeded (event : Event) : Prop := ∃ reply, event.2 = .ok reply

/-! ## Changes -/

/-- Every slot has a number. -/
structure Registry.Sized (registry : Registry) : Prop where
  parsers : registry.parsers.length < 2 ^ 32
  docs : registry.docs.length < 2 ^ 32

/-- A parser was put into slot `slot`. -/
abbrev ParserFilled (registry registry' : Registry) (slot : UInt32) (entry : ParserEntry) : Prop :=
  Filled ParserEntry.generation parserGenerationStart registry.parsers (slotIndex slot) entry
    registry'.parsers

/-- A document was put into slot `slot`. -/
abbrev DocFilled (registry registry' : Registry) (slot : UInt32) (entry : DocEntry) : Prop :=
  Filled DocEntry.generation docGenerationStart registry.docs (slotIndex slot) entry
    registry'.docs

/-- The two tables are the same, but for more issued indices in one document. -/
inductive Indexed (registry registry' : Registry) : Prop where
  | same (hparsers : registry'.parsers = registry.parsers)
      (hdocs : registry'.docs = registry.docs)
  | more {slot : UInt32} {entry : DocEntry} {indices : Finset Nat} (hslot : slot ≠ 0)
      (hentry : registry.docs[slotIndex slot]? = some (.occupied entry))
      (hindices : entry.descendantIndices ⊆ indices)
      (hparsers : registry'.parsers = registry.parsers)
      (hdocs : registry'.docs = registry.docs.set (slotIndex slot)
        (.occupied { entry with descendantIndices := indices }))

/-- A document and a busy parser name each other. -/
structure Paired (registry : Registry) (docSlot : UInt32) (doc : DocEntry) (slot : UInt32)
    (entry : ParserEntry) : Prop where
  slot_ne : slot ≠ 0
  docSlot_ne : docSlot ≠ 0
  doc_eq : registry.docs[slotIndex docSlot]? = some (.occupied doc)
  entry_eq : registry.parsers[slotIndex slot]? = some (.occupied entry)
  ownerSlot_eq : doc.ownerSlot = slot
  ownerGeneration_eq : doc.ownerGeneration = entry.generation
  busy : entry.state = .busy docSlot doc.generation

/-- **What a call can do to the two tables.**  Everything but the first two cases takes
a call that succeeds. -/
inductive Moved (registry : Registry) (event : Event) (registry' : Registry) : Prop where
  | indexed (hmark : event.mark = .plain) (h : Indexed registry registry')
  | refilled {slot : UInt32} {entry : ParserEntry} {input : Bytes} (hmark : event.mark = .plain)
      (hslot : slot ≠ 0) (hentry : registry.parsers[slotIndex slot]? = some (.occupied entry))
      (hidle : entry.state = .idle)
      (hparsers : registry'.parsers = registry.parsers.set (slotIndex slot)
        (.occupied { entry with reusableInput := input }))
      (hdocs : registry'.docs = registry.docs)
  | parserMade {slot : UInt32} {entry : ParserEntry} (hmark : event.mark = .plain)
      (hok : event.Succeeded) (hslot : slot ≠ 0)
      (hfilled : ParserFilled registry registry' slot entry) (hidle : entry.state = .idle)
      (hdocs : registry'.docs = registry.docs)
  | parserFreed {slot : UInt32} {entry : ParserEntry} (hmark : event.mark = .parserFreed slot)
      (hok : event.Succeeded) (hslot : slot ≠ 0)
      (hentry : registry.parsers[slotIndex slot]? = some (.occupied entry))
      (hidle : entry.state = .idle)
      (hparsers : registry'.parsers = registry.parsers.set (slotIndex slot)
        (.vacant (nextParserGeneration entry.generation)))
      (hdocs : registry'.docs = registry.docs)
  | parsed {slot docSlot : UInt32} {entry : ParserEntry} {doc : DocEntry}
      (hmark : event.mark = .plain) (hok : event.Succeeded) (hslot : slot ≠ 0)
      (hdocSlot : docSlot ≠ 0)
      (hentry : registry.parsers[slotIndex slot]? = some (.occupied entry))
      (hidle : entry.state = .idle) (hfilled : DocFilled registry registry' docSlot doc)
      (howner : doc.ownerSlot = slot ∧ doc.ownerGeneration = entry.generation)
      (hleases : doc.iterLeases = ∅)
      (hparsers : registry'.parsers = registry.parsers.set (slotIndex slot)
        (.occupied { entry with
          reusableInput := [], state := .busy docSlot doc.generation }))
  | docFreed {slot docSlot : UInt32} {entry : ParserEntry} {doc : DocEntry}
      (hmark : event.mark = .docFreed docSlot) (hok : event.Succeeded)
      (hpaired : Paired registry docSlot doc slot entry)
      (hparsers : registry'.parsers = registry.parsers.set (slotIndex slot)
        (.occupied { entry with reusableInput := doc.inputStorage, state := .idle }))
      (hdocs : registry'.docs = registry.docs.set (slotIndex docSlot)
        (.vacant (nextDocGeneration doc.generation)))
  | leased {slot : UInt32} {entry : DocEntry} {leaseId next : UInt32} {lease : IteratorLease}
      (hmark : event.mark = .plain) (hok : event.Succeeded) (hslot : slot ≠ 0)
      (hentry : registry.docs[slotIndex slot]? = some (.occupied entry))
      (hfree : leaseId ∉ entry.iterLeases)
      (hparsers : registry'.parsers = registry.parsers)
      (hdocs : registry'.docs = registry.docs.set (slotIndex slot) (.occupied { entry with
        iterLeases := entry.iterLeases.insert leaseId lease, nextIterLease := next }))
  | advanced {slot leaseId : UInt32} {entry : DocEntry} {indices : Finset Nat}
      {jsonIndex next state1 tag : Nat}
      (hmark : event.mark = .delivered (packHandle slot entry.generation) leaseId jsonIndex)
      (hok : event.Succeeded) (hslot : slot ≠ 0)
      (hentry : registry.docs[slotIndex slot]? = some (.occupied entry))
      (hlease : entry.iterLeases.lookup leaseId = some ⟨jsonIndex, state1, tag⟩)
      (hnext : jsonIndex < next ∧ next ≤ state1) (hindices : entry.descendantIndices ⊆ indices)
      (hparsers : registry'.parsers = registry.parsers)
      (hdocs : registry'.docs = registry.docs.set (slotIndex slot) (.occupied { entry with
        descendantIndices := indices
        iterLeases := entry.iterLeases.insert leaseId ⟨next, state1, tag⟩ }))

/-! ## Tables -/

namespace Registry
variable {registry registry' : Registry}

theorem parserAt_eq_some {index : Nat} {generation : UInt32} {entry : ParserEntry} :
    registry.parserAt index generation = some entry ↔
      registry.parsers[index]? = some (.occupied entry) ∧ entry.generation = generation :=
  live_eq_some

theorem docAt_eq_some {index : Nat} {generation : UInt32} {entry : DocEntry} :
    registry.docAt index generation = some entry ↔
      registry.docs[index]? = some (.occupied entry) ∧ entry.generation = generation :=
  live_eq_some

/-- Writing back the entry that is there changes nothing. -/
theorem setDoc_self {index : Nat} {generation : UInt32} {entry : DocEntry}
    (h : registry.docAt index generation = some entry) :
    registry.setDoc index (.occupied entry) = registry := by
  obtain ⟨hentry, -⟩ := docAt_eq_some.mp h
  obtain ⟨hlt, hget⟩ := List.getElem?_eq_some_iff.mp hentry
  rw [setDoc, ← hget, List.set_getElem_self]

theorem lt_of_getElem? {α : Type} {t : List α} {i : Nat} {a : α} (h : t[i]? = some a) :
    i < t.length :=
  (List.getElem?_eq_some_iff.mp h).1

/-- **A new parser is idle, in a slot that was free.** -/
theorem allocParser_ok (hsized : registry.Sized) {nativePtr maxCapacity : Nat}
    {maxDepth : UInt32} {handle : UInt64}
    (h : registry.allocParser nativePtr maxCapacity maxDepth = .ok (handle, registry')) :
    ∃ slot generation, slot ≠ 0 ∧ handle = packHandle slot generation ∧
      ParserFilled registry registry' slot
        { generation, nativePtr, state := .idle, reusableInput := [], maxCapacity, maxDepth } ∧
      registry'.docs = registry.docs := by
  unfold allocParser at h
  simp only at h
  split at h
  · rename_i index generation hvacant
    cases h
    have hat := firstVacant_some hvacant
    have hlt := lt_of_getElem? hat
    have hnumber : index + 1 < 2 ^ 32 := Nat.lt_of_le_of_lt hlt hsized.parsers
    obtain ⟨hne, hindex⟩ := exists_slot hnumber
    refine ⟨UInt32.ofNat (index + 1), _, hne, rfl, Or.inl ⟨?_, ?_⟩, rfl⟩
    · rw [hindex]
      exact hat
    · rw [hindex]
      rfl
  · split at h
    · cases h
    · rename_i hsize
      cases h
      have hnumber : registry.parsers.length + 1 < 2 ^ 32 := lt_of_not_maxSlotCount hsize
      obtain ⟨hne, hindex⟩ := exists_slot hnumber
      exact ⟨UInt32.ofNat (registry.parsers.length + 1), _, hne, rfl,
        Or.inr ⟨hindex, rfl, rfl⟩, rfl⟩

theorem allocParser_docs {nativePtr maxCapacity : Nat} {maxDepth : UInt32} {handle : UInt64}
    (h : registry.allocParser nativePtr maxCapacity maxDepth = .ok (handle, registry')) :
    registry'.docs = registry.docs := by
  unfold allocParser at h
  simp only at h
  split at h
  · cases h
    rfl
  · split at h
    · cases h
    · cases h
      rfl

/-- **A new document has what it was made with, in a slot that was free.** -/
theorem allocDoc_ok (hsized : registry.Sized) {nativePtr rootPtr rootAfterIndex : Nat}
    {ownerSlot ownerGeneration : UInt32} {input : Bytes} {handle : UInt64}
    (h : registry.allocDoc nativePtr rootPtr rootAfterIndex ownerSlot ownerGeneration input =
      .ok (handle, registry')) :
    ∃ slot generation, slot ≠ 0 ∧ handle = packHandle slot generation ∧
      DocFilled registry registry' slot
        { generation, nativePtr, rootPtr, rootAfterIndex, ownerSlot, ownerGeneration,
          inputStorage := input, descendantIndices := ∅, iterLeases := ∅,
          nextIterLease := iterLeaseStart } ∧
      registry'.parsers = registry.parsers := by
  unfold allocDoc at h
  simp only at h
  split at h
  · rename_i index generation hvacant
    cases h
    have hat := firstVacant_some hvacant
    have hlt := lt_of_getElem? hat
    have hnumber : index + 1 < 2 ^ 32 := Nat.lt_of_le_of_lt hlt hsized.docs
    obtain ⟨hne, hindex⟩ := exists_slot hnumber
    refine ⟨UInt32.ofNat (index + 1), _, hne, rfl, Or.inl ⟨?_, ?_⟩, rfl⟩
    · rw [hindex]
      exact hat
    · rw [hindex]
      rfl
  · split at h
    · cases h
    · rename_i hsize
      cases h
      have hnumber : registry.docs.length + 1 < 2 ^ 32 := lt_of_not_maxSlotCount hsize
      obtain ⟨hne, hindex⟩ := exists_slot hnumber
      exact ⟨UInt32.ofNat (registry.docs.length + 1), _, hne, rfl,
        Or.inr ⟨hindex, rfl, rfl⟩, rfl⟩

end Registry

end PureSimdjson
