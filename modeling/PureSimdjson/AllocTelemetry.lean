import PureSimdjson.KeyedTotals
import PureSimdjson.Runs

/-!
# The allocation telemetry

Every C++ allocation of the library goes through `operator new`, which takes a
block from the allocator and records it; `operator delete` removes the record and
gives the block back.  The counters beside the record table count one epoch, and
`reset` starts the next.

Recording takes two steps that another thread can come between: the epoch is read
first, and only then is the mutex taken and the record inserted.  Everything else
is one step under the mutex.  The system here has any number of threads, the
telemetry, and the allocator's live blocks, each with who holds it.
-/
namespace PureSimdjson.AllocTelemetry

open KeyedTotals Runs

/-! ## The telemetry state -/

/-- `AllocationRecord`. -/
structure AllocationRecord where
  size : UInt64
  epoch : UInt64
  usesAlignedFree : Bool
  deriving DecidableEq

/-- `PointerRegistry`: one record for each tracked pointer. -/
abbrev PointerRegistry := AList fun _ : Nat => AllocationRecord

/-- `TelemetryState`. -/
structure TelemetryState where
  liveAllocations : PointerRegistry
  currentEpoch : UInt64
  liveBytes : UInt64
  totalAllocBytes : UInt64
  allocCount : UInt64
  freeCount : UInt64
  untrackedFreeCount : UInt64

/-- The static state a process starts with. -/
def TelemetryState.start : TelemetryState := ⟨∅, 1, 0, 0, 0, 0, 0⟩

/-- `pure_simdjson_native_alloc_stats_t`. -/
structure AllocStats where
  epoch : UInt64
  liveBytes : UInt64
  totalAllocBytes : UInt64
  allocCount : UInt64
  freeCount : UInt64
  untrackedFreeCount : UInt64
  deriving DecidableEq

/-- `kDefaultAlignment`. -/
def kDefaultAlignment : UInt64 := 16

/-- `normalize_size`. -/
def normalizeSize (size : UInt64) : UInt64 :=
  if size = 0 then 1 else size

/-- `normalize_alignment`. -/
def normalizeAlignment (alignment : UInt64) : UInt64 :=
  if alignment < kDefaultAlignment then kDefaultAlignment else alignment

/-- `allocation_uses_aligned_free`. -/
def allocationUsesAlignedFree (alignment : UInt64) : Bool :=
  normalizeAlignment alignment > kDefaultAlignment

theorem normalizeSize_pos (size : UInt64) : 1 ≤ (normalizeSize size).toNat := by
  unfold normalizeSize
  split
  · decide
  · rename_i h
    have : size.toNat ≠ 0 := fun h0 => h (UInt64.toNat_inj.mp h0)
    omega

/-- The part of `record_allocation` before the mutex: the record, stamped with the
epoch of this moment. -/
def stampRecord (state : TelemetryState) (size alignment : UInt64) : AllocationRecord where
  size := normalizeSize size
  epoch := state.currentEpoch
  usesAlignedFree := allocationUsesAlignedFree alignment

/-- `live_allocations.emplace`, which leaves a key that is there alone. -/
def emplace (registry : PointerRegistry) (ptr : Nat) (record : AllocationRecord) :
    PointerRegistry :=
  if ptr ∈ registry then registry else registry.insert ptr record

/-- The part of `record_allocation` under the mutex. -/
def insertRecord (state : TelemetryState) (ptr : Nat) (record : AllocationRecord) :
    TelemetryState :=
  { state with
    liveAllocations := emplace state.liveAllocations ptr record
    liveBytes := state.liveBytes + record.size
    totalAllocBytes := state.totalAllocBytes + record.size
    allocCount := state.allocCount + 1 }

/-- `remove_allocation` of a pointer that is not null, up to the end of the locked
block: the new state and how the block is to be freed. -/
def removeAllocation (state : TelemetryState) (ptr : Nat) (alignment : UInt64) :
    TelemetryState × Bool :=
  match state.liveAllocations.lookup ptr with
  | some record =>
    let counted :=
      if record.epoch = state.currentEpoch then
        { state with
          liveBytes := state.liveBytes - record.size
          freeCount := state.freeCount + 1 }
      else state
    ({ counted with liveAllocations := state.liveAllocations.erase ptr }, record.usesAlignedFree)
  | none =>
    ({ state with untrackedFreeCount := state.untrackedFreeCount + 1 },
      allocationUsesAlignedFree alignment)

/-- Removing a pointer leaves the records of the others. -/
theorem lookup_removeAllocation {state : TelemetryState} {ptr p : Nat} {alignment : UInt64}
    {record : AllocationRecord}
    (h : (removeAllocation state ptr alignment).1.liveAllocations.lookup p = some record) :
    p ≠ ptr ∧ state.liveAllocations.lookup p = some record := by
  unfold removeAllocation at h
  split at h
  · have hpp : p ≠ ptr := by
      rintro rfl
      rw [AList.lookup_erase] at h
      cases h
    exact ⟨hpp, by rwa [AList.lookup_erase_ne hpp] at h⟩
  · rename_i hnone
    refine ⟨?_, h⟩
    rintro rfl
    rw [hnone] at h
    cases h

theorem removeAllocation_currentEpoch (state : TelemetryState) (ptr : Nat) (alignment : UInt64) :
    (removeAllocation state ptr alignment).1.currentEpoch = state.currentEpoch := by
  unfold removeAllocation
  split
  · split <;> rfl
  · rfl

/-- The epoch `reset` moves to: zero is skipped. -/
def nextEpoch (epoch : UInt64) : UInt64 :=
  if epoch + 1 = 0 then 1 else epoch + 1

/-- `reset`. -/
def reset (state : TelemetryState) : TelemetryState where
  liveAllocations := state.liveAllocations
  currentEpoch := nextEpoch state.currentEpoch
  liveBytes := 0
  totalAllocBytes := 0
  allocCount := 0
  freeCount := 0
  untrackedFreeCount := 0

/-- `snapshot` into storage that is not null. -/
def snapshot (state : TelemetryState) : AllocStats where
  epoch := state.currentEpoch
  liveBytes := state.liveBytes
  totalAllocBytes := state.totalAllocBytes
  allocCount := state.allocCount
  freeCount := state.freeCount
  untrackedFreeCount := state.untrackedFreeCount

/-! ## Threads and the allocator -/

/-- Who may use a live block: a thread inside `operator new` or `operator delete`, or
the program, which has been handed it. -/
inductive Holder (T : Type) where
  | program
  | thread (t : T)
  deriving DecidableEq

/-- A live block of the allocator. -/
structure Block (T : Type) where
  size : Nat
  holder : Holder T
  deriving DecidableEq

abbrev Heap (T : Type) := AList fun _ : Nat => Block T

/-- Where a thread stands. -/
inductive ThreadState where
  | idle
  /-- `raw_allocate` has returned a block that is not recorded yet. -/
  | allocated (ptr : Nat) (size alignment : UInt64)
  /-- The record has its epoch; the mutex has not been taken. -/
  | stamped (ptr : Nat) (record : AllocationRecord)
  /-- `raw_deallocate` is next: after a removal, or after recording threw. -/
  | deallocating (ptr : Nat) (usesAlignedFree : Bool)

structure System (T : Type) where
  telemetry : TelemetryState
  heap : Heap T
  threads : T → ThreadState

/-- No allocation yet. -/
def System.start (T : Type) : System T := ⟨.start, ∅, fun _ => .idle⟩

/-- What the allocator may return: a block of the address space that overlaps none
that is still live. -/
def Heap.Fresh {T : Type} (heap : Heap T) (ptr size : Nat) : Prop :=
  1 ≤ ptr ∧ ptr + size ≤ 2 ^ 64 ∧ ptr ∉ heap ∧
    ∀ b ∈ heap.entries, Apart b.1 b.2.size ptr size

instance {T : Type} (heap : Heap T) (ptr size : Nat) : Decidable (heap.Fresh ptr size) :=
  inferInstanceAs (Decidable (_ ∧ _ ∧ _ ∧ _))

/-- One atomic step.  `foreignAllocate` is a block the program gets elsewhere and may
still pass to `operator delete`. -/
inductive Action (T : Type) where
  | rawAllocate (t : T) (size alignment : UInt64) (ptr : Nat)
  | readEpoch (t : T)
  | insertRecord (t : T)
  | recordThrows (t : T)
  | removeAllocation (t : T) (ptr : Nat) (alignment : UInt64)
  | rawDeallocate (t : T)
  | reset
  | snapshot
  | foreignAllocate (ptr size : Nat)

section
variable {T : Type}

/-- What a step does, and `none` where it cannot be taken.  The program only passes
to `operator delete` what it holds. -/
def step [DecidableEq T] (s : System T) : Action T → Option (System T)
  | .rawAllocate t size alignment ptr =>
    match s.threads t with
    | .idle =>
      if s.heap.Fresh ptr (normalizeSize size).toNat then
        some { s with
          heap := s.heap.insert ptr ⟨(normalizeSize size).toNat, .thread t⟩
          threads := Function.update s.threads t (.allocated ptr size alignment) }
      else none
    | _ => none
  | .readEpoch t =>
    match s.threads t with
    | .allocated ptr size alignment =>
      some { s with
        threads := Function.update s.threads t
          (.stamped ptr (stampRecord s.telemetry size alignment)) }
    | _ => none
  | .insertRecord t =>
    match s.threads t with
    | .stamped ptr record =>
      some {
        telemetry := insertRecord s.telemetry ptr record
        heap := s.heap.insert ptr ⟨record.size.toNat, .program⟩
        threads := Function.update s.threads t .idle }
    | _ => none
  | .recordThrows t =>
    match s.threads t with
    | .stamped ptr record =>
      some { s with
        threads := Function.update s.threads t (.deallocating ptr record.usesAlignedFree) }
    | _ => none
  | .removeAllocation t ptr alignment =>
    match s.threads t, s.heap.lookup ptr with
    | .idle, some ⟨size, .program⟩ =>
      let (telemetry, usesAlignedFree) := removeAllocation s.telemetry ptr alignment
      some {
        telemetry := telemetry
        heap := s.heap.insert ptr ⟨size, .thread t⟩
        threads := Function.update s.threads t (.deallocating ptr usesAlignedFree) }
    | _, _ => none
  | .rawDeallocate t =>
    match s.threads t with
    | .deallocating ptr _ =>
      some { s with
        heap := s.heap.erase ptr
        threads := Function.update s.threads t .idle }
    | _ => none
  | .reset => some { s with telemetry := reset s.telemetry }
  | .snapshot => some s
  | .foreignAllocate ptr size =>
    if s.heap.Fresh ptr size then
      some { s with heap := s.heap.insert ptr ⟨size, .program⟩ }
    else none

/-- What each step finds and what it leaves, read off `step`. -/
inductive Moves [DecidableEq T] (s : System T) : Action T → System T → Prop where
  | rawAllocate {t : T} {size alignment : UInt64} {ptr : Nat} (idle : s.threads t = .idle)
      (fresh : s.heap.Fresh ptr (normalizeSize size).toNat) :
      Moves s (.rawAllocate t size alignment ptr) { s with
        heap := s.heap.insert ptr ⟨(normalizeSize size).toNat, .thread t⟩
        threads := Function.update s.threads t (.allocated ptr size alignment) }
  | readEpoch {t : T} {size alignment : UInt64} {ptr : Nat}
      (allocated : s.threads t = .allocated ptr size alignment) :
      Moves s (.readEpoch t) { s with
        threads := Function.update s.threads t
          (.stamped ptr (stampRecord s.telemetry size alignment)) }
  | insertRecord {t : T} {ptr : Nat} {record : AllocationRecord}
      (stamped : s.threads t = .stamped ptr record) :
      Moves s (.insertRecord t) {
        telemetry := insertRecord s.telemetry ptr record
        heap := s.heap.insert ptr ⟨record.size.toNat, .program⟩
        threads := Function.update s.threads t .idle }
  | recordThrows {t : T} {ptr : Nat} {record : AllocationRecord}
      (stamped : s.threads t = .stamped ptr record) :
      Moves s (.recordThrows t) { s with
        threads := Function.update s.threads t (.deallocating ptr record.usesAlignedFree) }
  | removeAllocation {t : T} {ptr size : Nat} {alignment : UInt64} (idle : s.threads t = .idle)
      (held : s.heap.lookup ptr = some ⟨size, .program⟩) :
      Moves s (.removeAllocation t ptr alignment) {
        telemetry := (removeAllocation s.telemetry ptr alignment).1
        heap := s.heap.insert ptr ⟨size, .thread t⟩
        threads := Function.update s.threads t
          (.deallocating ptr (removeAllocation s.telemetry ptr alignment).2) }
  | rawDeallocate {t : T} {ptr : Nat} {usesAlignedFree : Bool}
      (deallocating : s.threads t = .deallocating ptr usesAlignedFree) :
      Moves s (.rawDeallocate t) { s with
        heap := s.heap.erase ptr
        threads := Function.update s.threads t .idle }
  | reset : Moves s .reset { s with telemetry := reset s.telemetry }
  | snapshot : Moves s .snapshot s
  | foreignAllocate {ptr size : Nat} (fresh : s.heap.Fresh ptr size) :
      Moves s (.foreignAllocate ptr size) { s with heap := s.heap.insert ptr ⟨size, .program⟩ }

theorem moves_of_step [DecidableEq T] {s s' : System T} {a : Action T}
    (h : step s a = some s') : Moves s a s' := by
  cases a with
  | rawAllocate t size alignment ptr =>
    simp only [step] at h
    split at h
    · rename_i idle
      split at h
      · rename_i fresh
        cases h
        exact .rawAllocate idle fresh
      · cases h
    · cases h
  | readEpoch t =>
    simp only [step] at h
    split at h
    · rename_i allocated
      cases h
      exact .readEpoch allocated
    · cases h
  | insertRecord t =>
    simp only [step] at h
    split at h
    · rename_i stamped
      cases h
      exact .insertRecord stamped
    · cases h
  | recordThrows t =>
    simp only [step] at h
    split at h
    · rename_i stamped
      cases h
      exact .recordThrows stamped
    · cases h
  | removeAllocation t ptr alignment =>
    simp only [step] at h
    split at h
    · rename_i idle held
      cases h
      exact .removeAllocation idle held
    · cases h
  | rawDeallocate t =>
    simp only [step] at h
    split at h
    · rename_i deallocating
      cases h
      exact .rawDeallocate deallocating
    · cases h
  | reset =>
    cases h
    exact .reset
  | snapshot =>
    cases h
    exact .snapshot
  | foreignAllocate ptr size =>
    simp only [step] at h
    split at h
    · rename_i fresh
      cases h
      exact .foreignAllocate fresh
    · cases h

/-! ## What the threads and the allocator keep -/

/-- The blocks a thread stands on are held by it. -/
def ThreadState.Holds (heap : Heap T) (t : T) : ThreadState → Prop
  | .idle => True
  | .allocated ptr size _ => heap.lookup ptr = some ⟨(normalizeSize size).toNat, .thread t⟩
  | .stamped ptr record => 1 ≤ record.size.toNat ∧
      heap.lookup ptr = some ⟨record.size.toNat, .thread t⟩
  | .deallocating ptr _ => ∃ size, heap.lookup ptr = some ⟨size, .thread t⟩

/-- The live blocks do not overlap, a tracked block is the program's and as long as
its record says, and a thread holds the block it works on. -/
structure Inv (s : System T) : Prop where
  space : ∀ p b, s.heap.lookup p = some b → 1 ≤ p ∧ p + b.size ≤ 2 ^ 64
  apart : ∀ p b q c, s.heap.lookup p = some b → s.heap.lookup q = some c → p ≠ q →
    Apart p b.size q c.size
  tracked : ∀ p r, s.telemetry.liveAllocations.lookup p = some r →
    1 ≤ r.size.toNat ∧ s.heap.lookup p = some ⟨r.size.toNat, .program⟩
  inFlight : ∀ t, (s.threads t).Holds s.heap t

theorem ThreadState.Holds.frame {heap heap' : Heap T} {t : T} {st : ThreadState}
    (h : st.Holds heap t)
    (hkeep : ∀ p size, heap.lookup p = some ⟨size, .thread t⟩ →
      heap'.lookup p = some ⟨size, .thread t⟩) : st.Holds heap' t := by
  cases st with
  | idle => trivial
  | allocated ptr size alignment => exact hkeep _ _ h
  | stamped ptr record => exact ⟨h.1, hkeep _ _ h.2⟩
  | deallocating ptr usesAlignedFree =>
    obtain ⟨size, h⟩ := h
    exact ⟨size, hkeep _ _ h⟩

/-- The threads after one of them has moved on. -/
theorem inFlight_update [DecidableEq T] {heap heap' : Heap T} {threads : T → ThreadState} {t : T}
    {st : ThreadState} (h : ∀ u, (threads u).Holds heap u) (ht : st.Holds heap' t)
    (hkeep : ∀ u, u ≠ t → ∀ p size, heap.lookup p = some ⟨size, .thread u⟩ →
      heap'.lookup p = some ⟨size, .thread u⟩) :
    ∀ u, (Function.update threads t st u).Holds heap' u := by
  intro u
  by_cases hu : u = t
  · subst hu
    rw [Function.update_self]
    exact ht
  · rw [Function.update_of_ne hu]
    exact (h u).frame (hkeep u hu)

/-- A live block passes to another holder. -/
theorem Inv.rehold {s : System T} (hs : Inv s) {ptr size : Nat} {h₀ : Holder T}
    (h₁ : Holder T) (hptr : s.heap.lookup ptr = some ⟨size, h₀⟩) :
    let heap := s.heap.insert ptr ⟨size, h₁⟩
    (∀ p b, heap.lookup p = some b → 1 ≤ p ∧ p + b.size ≤ 2 ^ 64) ∧
      ∀ p b q c, heap.lookup p = some b → heap.lookup q = some c → p ≠ q →
        Apart p b.size q c.size := by
  have hsame : ∀ p b, (s.heap.insert ptr ⟨size, h₁⟩).lookup p = some b →
      ∃ c, s.heap.lookup p = some c ∧ c.size = b.size := by
    intro p b hp
    by_cases hpp : p = ptr
    · subst hpp
      rw [AList.lookup_insert] at hp
      cases hp
      exact ⟨_, hptr, rfl⟩
    · rw [AList.lookup_insert_ne hpp] at hp
      exact ⟨b, hp, rfl⟩
  refine ⟨fun p b hp => ?_, fun p b q c hp hq hne => ?_⟩
  · obtain ⟨b', hb', heq⟩ := hsame p b hp
    exact heq ▸ hs.space p b' hb'
  · obtain ⟨b', hb', hbeq⟩ := hsame p b hp
    obtain ⟨c', hc', hceq⟩ := hsame q c hq
    exact hbeq ▸ hceq ▸ hs.apart p b' q c' hb' hc' hne

/-- The allocator returns a new block. -/
theorem Inv.allocate {s : System T} (hs : Inv s) {ptr size : Nat} (holder : Holder T)
    (hfresh : s.heap.Fresh ptr size) :
    let heap := s.heap.insert ptr ⟨size, holder⟩
    (∀ p b, heap.lookup p = some b → 1 ≤ p ∧ p + b.size ≤ 2 ^ 64) ∧
      ∀ p b q c, heap.lookup p = some b → heap.lookup q = some c → p ≠ q →
        Apart p b.size q c.size := by
  obtain ⟨hpos, hle, hnot, hapart⟩ := hfresh
  refine ⟨fun p b hp => ?_, fun p b q c hp hq hne => ?_⟩
  · by_cases hpp : p = ptr
    · subst hpp
      rw [AList.lookup_insert] at hp
      cases hp
      exact ⟨hpos, hle⟩
    · rw [AList.lookup_insert_ne hpp] at hp
      exact hs.space p b hp
  · have hold : ∀ p b, p ≠ ptr → (s.heap.insert ptr ⟨size, holder⟩).lookup p = some b →
        s.heap.lookup p = some b ∧ Apart p b.size ptr size := by
      intro p b hpp hp
      rw [AList.lookup_insert_ne hpp] at hp
      exact ⟨hp, hapart ⟨p, b⟩ (mem_entries_iff.mpr hp)⟩
    by_cases hpp : p = ptr
    · subst hpp
      rw [AList.lookup_insert] at hp
      cases hp
      exact (hold q c (Ne.symm hne) hq).2.symm
    · by_cases hqp : q = ptr
      · subst hqp
        rw [AList.lookup_insert] at hq
        cases hq
        exact (hold p b hpp hp).2
      · exact hs.apart p b q c (hold p b hpp hp).1 (hold q c hqp hq).1 hne

theorem lookup_insert_fresh {heap : Heap T} {ptr : Nat} {block : Block T} (h : ptr ∉ heap)
    {p : Nat} {b : Block T} (hp : heap.lookup p = some b) :
    (heap.insert ptr block).lookup p = some b := by
  have hne : p ≠ ptr := by
    rintro rfl
    exact h (AList.lookup_isSome.mp (by rw [hp]; rfl))
  rw [AList.lookup_insert_ne hne, hp]

theorem inv_start : Inv (System.start T) where
  space := by simp [System.start]
  apart := by simp [System.start]
  tracked := by simp [System.start, TelemetryState.start]
  inFlight _ := trivial

theorem stamped_holds {state : TelemetryState} {heap : Heap T} {t : T} {ptr : Nat}
    {size alignment : UInt64} (h : (ThreadState.allocated ptr size alignment).Holds heap t) :
    (ThreadState.stamped ptr (stampRecord state size alignment)).Holds heap t :=
  ⟨normalizeSize_pos size, h⟩

theorem emplace_of_held {s : System T} (hs : Inv s) {ptr size : Nat} {t : T}
    (hheld : s.heap.lookup ptr = some ⟨size, .thread t⟩) (record : AllocationRecord) :
    ptr ∉ s.telemetry.liveAllocations ∧
      emplace s.telemetry.liveAllocations ptr record =
        s.telemetry.liveAllocations.insert ptr record := by
  have hnot : ptr ∉ s.telemetry.liveAllocations := by
    intro hmem
    obtain ⟨r, hr⟩ := Option.isSome_iff_exists.mp (AList.lookup_isSome.mpr hmem)
    have hprogram := (hs.tracked ptr r hr).2
    rw [hheld] at hprogram
    cases hprogram
  exact ⟨hnot, if_neg hnot⟩

/-- A held block is not the one another holder has. -/
theorem lookup_insert_other {heap : Heap T} {ptr p size size' : Nat} {h₀ h₁ : Holder T}
    {block : Block T} (hptr : heap.lookup ptr = some ⟨size, h₀⟩)
    (hp : heap.lookup p = some ⟨size', h₁⟩) (hne : h₁ ≠ h₀) :
    (heap.insert ptr block).lookup p = some ⟨size', h₁⟩ := by
  have hpp : p ≠ ptr := by
    rintro rfl
    rw [hptr] at hp
    cases hp
    exact hne rfl
  rw [AList.lookup_insert_ne hpp, hp]

variable [DecidableEq T]

/-- **Every step keeps the invariant**, in time or not. -/
theorem inv_step {s s' : System T} {a : Action T} (hs : Inv s) (h : step s a = some s') :
    Inv s' := by
  cases moves_of_step h with
  | @rawAllocate t size alignment ptr idle fresh =>
    obtain ⟨hspace, hapart⟩ := hs.allocate (.thread t) fresh
    refine ⟨hspace, hapart, fun p r hp => ?_, inFlight_update hs.inFlight ?_ ?_⟩
    · obtain ⟨hpos, hheap⟩ := hs.tracked p r hp
      exact ⟨hpos, lookup_insert_fresh fresh.2.2.1 hheap⟩
    · exact AList.lookup_insert _
    · exact fun u _ p n hp => lookup_insert_fresh fresh.2.2.1 hp
  | @readEpoch t size alignment ptr allocated =>
    refine ⟨hs.space, hs.apart, hs.tracked, inFlight_update hs.inFlight ?_ fun _ _ _ _ h => h⟩
    have hheld := hs.inFlight t
    rw [allocated] at hheld
    exact stamped_holds hheld
  | @insertRecord t ptr record stamped =>
    have hheld := hs.inFlight t
    rw [stamped] at hheld
    obtain ⟨hpos, hheld⟩ := hheld
    obtain ⟨hspace, hapart⟩ := hs.rehold .program hheld
    refine ⟨hspace, hapart, fun p r hp => ?_, inFlight_update hs.inFlight trivial ?_⟩
    · simp only [insertRecord, (emplace_of_held hs hheld record).2] at hp
      by_cases hpp : p = ptr
      · subst hpp
        rw [AList.lookup_insert] at hp ⊢
        cases hp
        exact ⟨hpos, rfl⟩
      · rw [AList.lookup_insert_ne hpp] at hp
        obtain ⟨hpos', hheap⟩ := hs.tracked p r hp
        exact ⟨hpos', by rw [AList.lookup_insert_ne hpp, hheap]⟩
    · exact fun u hu p n hp => lookup_insert_other hheld hp (by simpa using hu)
  | @recordThrows t ptr record stamped =>
    refine ⟨hs.space, hs.apart, hs.tracked, inFlight_update hs.inFlight ?_ fun _ _ _ _ h => h⟩
    have hheld := hs.inFlight t
    rw [stamped] at hheld
    exact ⟨_, hheld.2⟩
  | @removeAllocation t ptr size alignment idle held =>
    obtain ⟨hspace, hapart⟩ := hs.rehold (.thread t) held
    refine ⟨hspace, hapart, fun p r hp => ?_, inFlight_update hs.inFlight ?_ ?_⟩
    · obtain ⟨hpp, hp⟩ := lookup_removeAllocation hp
      obtain ⟨hpos, hheap⟩ := hs.tracked p r hp
      exact ⟨hpos, by rw [AList.lookup_insert_ne hpp, hheap]⟩
    · exact ⟨size, AList.lookup_insert _⟩
    · exact fun u _ p n hp => lookup_insert_other held hp nofun
  | @rawDeallocate t ptr usesAlignedFree deallocating =>
    have hheld := hs.inFlight t
    rw [deallocating] at hheld
    obtain ⟨size, hheld⟩ := hheld
    have hkeep : ∀ p (b : Block T), s.heap.lookup p = some b → b.holder ≠ .thread t →
        (s.heap.erase ptr).lookup p = some b := by
      intro p b hp hne
      rw [AList.lookup_erase_ne, hp]
      rintro rfl
      rw [hheld] at hp
      cases hp
      exact hne rfl
    have hback : ∀ p (b : Block T), (s.heap.erase ptr).lookup p = some b →
        s.heap.lookup p = some b := by
      intro p b hp
      by_cases hpp : p = ptr
      · subst hpp
        rw [AList.lookup_erase] at hp
        cases hp
      · rwa [AList.lookup_erase_ne hpp] at hp
    refine ⟨fun p b hp => hs.space p b (hback p b hp), fun p b q c hp hq =>
      hs.apart p b q c (hback p b hp) (hback q c hq), fun p r hp => ?_,
      inFlight_update hs.inFlight trivial ?_⟩
    · obtain ⟨hpos, hheap⟩ := hs.tracked p r hp
      exact ⟨hpos, hkeep p _ hheap nofun⟩
    · exact fun u hu p n hp => hkeep p _ hp (by simpa using hu)
  | reset => exact ⟨hs.space, hs.apart, hs.tracked, hs.inFlight⟩
  | snapshot => exact hs
  | foreignAllocate fresh =>
    obtain ⟨hspace, hapart⟩ := hs.allocate .program fresh
    refine ⟨hspace, hapart, fun p r hp => ?_, fun u => ?_⟩
    · obtain ⟨hpos, hheap⟩ := hs.tracked p r hp
      exact ⟨hpos, lookup_insert_fresh fresh.2.2.1 hheap⟩
    · exact (hs.inFlight u).frame fun p n hp => lookup_insert_fresh fresh.2.2.1 hp

end

end PureSimdjson.AllocTelemetry
