import PureSimdjson.Abi
import PureSimdjson.Probing
import PureSimdjson.SlotTable

/-!
# The registry

Two slot tables, one of parsers and one of documents, and the ledgers of the
allocations that callers still have to give back.  A handle is a slot number and a
generation packed into one word.  Parser generations start at 1 and document
generations at 2, and both go up by two.

A busy parser names its document and the document names its parser, each by slot
and generation; the two tables are kept in step by `parser_parse` and `doc_free`.
-/
namespace PureSimdjson

open SlotTable

/-! ## Constants -/

/-- `MAX_SLOT_COUNT`. -/
def maxSlotCount : Nat := 2 ^ 32 - 2

/-- `PARSER_GENERATION_START`. -/
def parserGenerationStart : UInt32 := 1

/-- `DOC_GENERATION_START`. -/
def docGenerationStart : UInt32 := 2

/-- `ROOT_JSON_INDEX`. -/
def rootJsonIndex : Nat := 1

/-- `ITER_LEASE_START`. -/
def iterLeaseStart : UInt32 := 1

/-! ## Entries -/

/-- `ParserState`. -/
inductive ParserState where
  | idle
  | busy (docSlot docGeneration : UInt32)
  deriving DecidableEq

/-- `ParserEntry`. -/
structure ParserEntry where
  generation : UInt32
  nativePtr : Nat
  state : ParserState
  reusableInput : List UInt8
  maxCapacity : Nat
  maxDepth : UInt32
  deriving DecidableEq

/-- `IteratorLease`. -/
structure IteratorLease where
  state0 : Nat
  state1 : Nat
  tag : Nat
  deriving DecidableEq

/-- `DocEntry`. -/
structure DocEntry where
  generation : UInt32
  nativePtr : Nat
  rootPtr : Nat
  rootAfterIndex : Nat
  ownerSlot : UInt32
  ownerGeneration : UInt32
  inputStorage : List UInt8
  descendantIndices : Finset Nat
  iterLeases : AList fun _ : UInt32 => IteratorLease
  nextIterLease : UInt32
  deriving DecidableEq

/-- `Registry`. -/
structure Registry where
  parsers : List (Slot UInt32 ParserEntry)
  docs : List (Slot UInt32 DocEntry)
  byteAllocations : AList fun _ : Nat => Nat
  viewArrayAllocations : AList fun _ : Nat => Nat

/-- `Registry::default`. -/
def Registry.empty : Registry := ⟨[], [], ∅, ∅⟩

/-! ## Generations -/

/-- `next_generation`. -/
def nextGeneration (restart current : UInt32) : UInt32 :=
  if current + 2 = 0 then restart else current + 2

/-- `next_parser_generation`. -/
def nextParserGeneration : UInt32 → UInt32 := nextGeneration parserGenerationStart

/-- `next_doc_generation`. -/
def nextDocGeneration : UInt32 → UInt32 := nextGeneration docGenerationStart

/-- `next_iter_lease`. -/
def nextIterLease (current : UInt32) : UInt32 :=
  if current + 1 = 0 then iterLeaseStart else current + 1

/-! ## Tables -/

namespace Registry

variable (registry : Registry)

/-- The parser in slot `index`, if it is occupied at `generation`. -/
def parserAt (index : Nat) (generation : UInt32) : Option ParserEntry :=
  live ParserEntry.generation registry.parsers index generation

/-- The document in slot `index`, if it is occupied at `generation`. -/
def docAt (index : Nat) (generation : UInt32) : Option DocEntry :=
  live DocEntry.generation registry.docs index generation

/-- `Registry::parser_entry`. -/
def parserEntry (handle : UInt64) : Except ErrorCode ParserEntry := do
  let (index, _, generation) ← unpackHandle handle
  match registry.parserAt index generation with
  | some entry => pure entry
  | none => throw .invalidHandle

/-- `Registry::doc_entry`. -/
def docEntry (handle : UInt64) : Except ErrorCode DocEntry := do
  let (index, _, generation) ← unpackHandle handle
  match registry.docAt index generation with
  | some entry => pure entry
  | none => throw .invalidHandle

/-- `registry.parsers[index] = slot`. -/
def setParser (index : Nat) (slot : Slot UInt32 ParserEntry) : Registry :=
  { registry with parsers := registry.parsers.set index slot }

/-- `registry.docs[index] = slot`. -/
def setDoc (index : Nat) (slot : Slot UInt32 DocEntry) : Registry :=
  { registry with docs := registry.docs.set index slot }

/-- `Registry::alloc_parser`: the lowest vacant slot, or a new one. -/
def allocParser (nativePtr maxCapacity : Nat) (maxDepth : UInt32) :
    Except ErrorCode (UInt64 × Registry) :=
  let entry generation : ParserEntry :=
    { generation, nativePtr, state := .idle, reusableInput := [], maxCapacity, maxDepth }
  match firstVacant registry.parsers with
  | some (index, generation) =>
    .ok (packHandle (UInt32.ofNat (index + 1)) generation,
      registry.setParser index (.occupied (entry generation)))
  | none =>
    if registry.parsers.length ≥ maxSlotCount then .error .internal
    else
      .ok (packHandle (UInt32.ofNat (registry.parsers.length + 1)) parserGenerationStart,
        { registry with
          parsers := registry.parsers ++ [.occupied (entry parserGenerationStart)] })

/-- `Registry::alloc_doc`. -/
def allocDoc (nativePtr rootPtr rootAfterIndex : Nat) (ownerSlot ownerGeneration : UInt32)
    (input : List UInt8) : Except ErrorCode (UInt64 × Registry) :=
  let entry generation : DocEntry :=
    { generation, nativePtr, rootPtr, rootAfterIndex, ownerSlot, ownerGeneration,
      inputStorage := input, descendantIndices := ∅, iterLeases := ∅,
      nextIterLease := iterLeaseStart }
  match firstVacant registry.docs with
  | some (index, generation) =>
    .ok (packHandle (UInt32.ofNat (index + 1)) generation,
      registry.setDoc index (.occupied (entry generation)))
  | none =>
    if registry.docs.length ≥ maxSlotCount then .error .internal
    else
      .ok (packHandle (UInt32.ofNat (registry.docs.length + 1)) docGenerationStart,
        { registry with docs := registry.docs ++ [.occupied (entry docGenerationStart)] })

end Registry

/-! ## Leases -/

namespace DocEntry

/-- The search for a lease id that is not taken, from `leaseId` on, at most
`attempts` times. -/
def freeLease (leases : AList fun _ : UInt32 => IteratorLease) :
    (attempts : Nat) → (leaseId : UInt32) → Option UInt32
  | 0, _ => none
  | attempts + 1, leaseId =>
    if leaseId ∈ leases then freeLease leases attempts (PureSimdjson.nextIterLease leaseId)
    else some leaseId

/-- `DocEntry::alloc_iter_lease`: the new lease and the entry that has it. -/
def allocIterLease (entry : DocEntry) (tag state0 state1 : Nat) :
    Except ErrorCode (UInt32 × DocEntry) :=
  if entry.iterLeases.keys.length ≥ 2 ^ 32 - 1 then .error .internal
  else
    let first := if entry.nextIterLease = 0 then iterLeaseStart else entry.nextIterLease
    match freeLease entry.iterLeases (2 ^ 32 - 1) first with
    | some leaseId =>
      .ok (leaseId, { entry with
        iterLeases := entry.iterLeases.insert leaseId ⟨state0, state1, tag⟩
        nextIterLease := PureSimdjson.nextIterLease leaseId })
    | none => .error .internal

theorem freeLease_eq_search (leases : AList fun _ : UInt32 => IteratorLease) (attempts : Nat)
    (leaseId : UInt32) :
    freeLease leases attempts leaseId =
      Probing.search (· ∈ leases) PureSimdjson.nextIterLease attempts leaseId := by
  induction attempts generalizing leaseId with
  | zero => rfl
  | succ attempts ih =>
    rw [freeLease, Probing.search, ih]

theorem freeLease_not_mem {leases : AList fun _ : UInt32 => IteratorLease} {attempts : Nat}
    {leaseId free : UInt32} (h : freeLease leases attempts leaseId = some free) :
    free ∉ leases := by
  rw [freeLease_eq_search, Probing.search_eq_some_iff] at h
  obtain ⟨_, _, _, hfree, _⟩ := h
  exact hfree

/-- The ids go round, leaving out zero. -/
theorem nextIterLease_toNat {leaseId : UInt32} (h : leaseId ≠ 0) :
    (PureSimdjson.nextIterLease leaseId).toNat = leaseId.toNat % (2 ^ 32 - 1) + 1 := by
  have hpos : leaseId.toNat ≠ 0 := fun h' => h (UInt32.toNat_inj.mp h')
  have hlt := leaseId.toNat_lt
  have hadd : (leaseId + 1).toNat = (leaseId.toNat + 1) % 2 ^ 32 := by
    rw [UInt32.toNat_add]
    rfl
  rw [PureSimdjson.nextIterLease]
  split
  · rename_i hzero
    rw [hzero] at hadd
    have : (0 : UInt32).toNat = 0 := rfl
    have : iterLeaseStart.toNat = 1 := rfl
    omega
  · rename_i hne
    have hne' : (leaseId + 1).toNat ≠ 0 := fun h' => hne (UInt32.toNat_inj.mp h')
    omega

/-- The ids the search goes through are the nonzero ones, from where it starts. -/
theorem nextIterLease_iterate {leaseId : UInt32} (h : leaseId ≠ 0) (k : Nat) :
    (PureSimdjson.nextIterLease^[k] leaseId).toNat =
      (leaseId.toNat - 1 + k) % (2 ^ 32 - 1) + 1 := by
  have hpos : leaseId.toNat ≠ 0 := fun h' => h (UInt32.toNat_inj.mp h')
  have hlt := leaseId.toNat_lt
  induction k with
  | zero =>
    rw [Function.iterate_zero, id_eq]
    omega
  | succ k ih =>
    have hne : PureSimdjson.nextIterLease^[k] leaseId ≠ 0 := by
      intro hzero
      rw [hzero] at ih
      have : (0 : UInt32).toNat = 0 := rfl
      omega
    rw [Function.iterate_succ_apply', nextIterLease_toNat hne, ih]
    omega

/-- **The search goes through every nonzero id once**, wherever it starts. -/
theorem tours_nextIterLease {leaseId : UInt32} (h : leaseId ≠ 0) :
    Probing.Tours PureSimdjson.nextIterLease (2 ^ 32 - 1) leaseId {id | id ≠ 0} := by
  have hzero : (0 : UInt32).toNat = 0 := rfl
  refine ⟨?_, ?_, ?_⟩
  · intro k _ hk
    have hnat := congrArg UInt32.toNat hk
    simp only [nextIterLease_iterate h] at hnat
    omega
  · intro k hk k' hk' heq
    rw [Set.mem_Iio] at hk hk'
    have hnat := congrArg UInt32.toNat heq
    simp only [nextIterLease_iterate h] at hnat
    omega
  · intro id hid
    have hpos : id.toNat ≠ 0 := fun h' => hid (UInt32.toNat_inj.mp h')
    have hlt := id.toNat_lt
    have hlt' := leaseId.toNat_lt
    -- as many steps as the two ids are apart on the circle
    refine ⟨(id.toNat + (2 ^ 32 - 1) - leaseId.toNat) % (2 ^ 32 - 1), ?_, ?_⟩
    · rw [Set.mem_Iio]
      exact Nat.mod_lt _ (by omega)
    · refine UInt32.toNat_inj.mp ?_
      simp only [nextIterLease_iterate h]
      have hpos' : leaseId.toNat ≠ 0 := fun h' => h (UInt32.toNat_inj.mp h')
      omega

/-- **As long as fewer leases are held than there are ids, one is free.** -/
theorem freeLease_some {leases : AList fun _ : UInt32 => IteratorLease} {leaseId : UInt32}
    (h : leaseId ≠ 0) (hroom : leases.keys.length < 2 ^ 32 - 1) :
    ∃ free, freeLease leases (2 ^ 32 - 1) leaseId = some free := by
  refine Option.ne_none_iff_exists'.mp fun hnone => ?_
  have htours := tours_nextIterLease h
  rw [freeLease_eq_search, htours.search_eq_none_iff] at hnone
  have hcard : 2 ^ 32 - 1 ≤ leases.keys.toFinset.card :=
    htours.le_card fun id hid => List.mem_toFinset.mpr (hnone id hid)
  have := leases.keys.toFinset_card_le
  omega

/-- A search starts at an id that is not zero. -/
theorem firstProbe_ne_zero (entry : DocEntry) :
    (if entry.nextIterLease = 0 then iterLeaseStart else entry.nextIterLease) ≠ 0 := by
  split
  · decide
  · assumption

/-- `entry'` is `entry` with one more lease, under an id that was free. -/
structure Leased (entry : DocEntry) (lease : IteratorLease) (leaseId : UInt32)
    (entry' : DocEntry) : Prop where
  ne_zero : leaseId ≠ 0
  free : leaseId ∉ entry.iterLeases
  entry_eq : entry' = { entry with
    iterLeases := entry.iterLeases.insert leaseId lease
    nextIterLease := PureSimdjson.nextIterLease leaseId }

/-- **A new lease takes an id that was free**, and starts in the state asked for. -/
theorem allocIterLease_ok {entry entry' : DocEntry} {tag state0 state1 : Nat}
    {leaseId : UInt32} (h : entry.allocIterLease tag state0 state1 = .ok (leaseId, entry')) :
    Leased entry ⟨state0, state1, tag⟩ leaseId entry' := by
  rw [allocIterLease] at h
  split at h
  · cases h
  · simp only at h
    split at h
    · rename_i leaseId' hfree
      cases h
      refine ⟨?_, freeLease_not_mem hfree, rfl⟩
      rw [freeLease_eq_search, Probing.search_eq_some_iff] at hfree
      obtain ⟨k, hk, hid, -⟩ := hfree
      rw [hid]
      exact (tours_nextIterLease entry.firstProbe_ne_zero).mem hk
    · cases h

theorem allocIterLease_of_room {entry : DocEntry}
    (hroom : entry.iterLeases.keys.length < 2 ^ 32 - 1) (tag state0 state1 : Nat) :
    ∃ leaseId entry', entry.allocIterLease tag state0 state1 = .ok (leaseId, entry') := by
  obtain ⟨free, hfree⟩ := freeLease_some entry.firstProbe_ne_zero hroom
  rw [allocIterLease, if_neg (by omega)]
  simp only [hfree]
  exact ⟨_, _, rfl⟩

/-- `DocEntry::validate_iter_lease`. -/
def validateIterLease (entry : DocEntry) (leaseId : UInt32) (state0 state1 tag : Nat) :
    Except ErrorCode Unit :=
  match entry.iterLeases.lookup leaseId with
  | some lease =>
    if lease.state0 = state0 ∧ lease.state1 = state1 ∧ lease.tag = tag then .ok ()
    else .error .invalidHandle
  | none => .error .invalidHandle

theorem validateIterLease_ok_iff {entry : DocEntry} {leaseId : UInt32}
    {state0 state1 tag : Nat} :
    entry.validateIterLease leaseId state0 state1 tag = .ok () ↔
      entry.iterLeases.lookup leaseId = some ⟨state0, state1, tag⟩ := by
  rw [validateIterLease]
  split
  · rename_i lease hlease
    rw [hlease, Option.some.injEq, IteratorLease.mk.injEq]
    split
    · rename_i h
      simpa using h
    · rename_i h
      simpa using h
  · rename_i hnone
    simp [hnone]

/-- `DocEntry::update_iter_lease`. -/
def updateIterLease (entry : DocEntry) (leaseId : UInt32) (state0 state1 tag : Nat) :
    Except ErrorCode DocEntry :=
  match entry.iterLeases.lookup leaseId with
  | some lease =>
    if lease.tag = tag then
      .ok { entry with iterLeases := entry.iterLeases.insert leaseId ⟨state0, state1, lease.tag⟩ }
    else .error .invalidHandle
  | none => .error .invalidHandle

theorem updateIterLease_of_lookup {entry : DocEntry} {leaseId : UInt32} {lease : IteratorLease}
    (h : entry.iterLeases.lookup leaseId = some lease) (state0 state1 : Nat) :
    entry.updateIterLease leaseId state0 state1 lease.tag = .ok { entry with
      iterLeases := entry.iterLeases.insert leaseId ⟨state0, state1, lease.tag⟩ } := by
  rw [updateIterLease, h]
  exact if_pos rfl

end DocEntry

end PureSimdjson
