import PureSimdjson.AllocTelemetry

/-!
# The accounts of the allocation telemetry

What the counters are for: in every state, `live_bytes` should be the total size of
the live records of the current epoch, and `alloc_count` and `free_count` should
differ by their number.

A record that is stamped before a reset and inserted after it is counted in an epoch
it does not carry, and its removal is not; nothing repairs the counters before the
next reset.  The accounts hold exactly as long as that does not happen and the epoch
counter does not come round to the epoch of a live record.
-/
namespace PureSimdjson.AllocTelemetry

open KeyedTotals Runs

section
variable {T : Type}

/-- A record's share of `live_bytes`. -/
def currentBytes (epoch : UInt64) (_ : Nat) (record : AllocationRecord) : Nat :=
  if record.epoch = epoch then record.size.toNat else 0

/-- A record's share of the number of live allocations. -/
def currentCount (epoch : UInt64) (_ : Nat) (record : AllocationRecord) : Nat :=
  if record.epoch = epoch then 1 else 0

/-- **The counters account for the live records of the current epoch**: the bytes are
their sizes, and the difference of the counts, which wraps with them, is their number. -/
structure Accounted (state : TelemetryState) : Prop where
  bytes : state.liveBytes.toNat =
    total (currentBytes state.currentEpoch) state.liveAllocations
  counts : (state.allocCount - state.freeCount).toNat =
    total (currentCount state.currentEpoch) state.liveAllocations

/-- **A step is in time** if a record is inserted in the epoch it is stamped with, and
if a reset does not come back to the epoch of a record that is still live. -/
def InTime (s : System T) : Action T → Prop
  | .insertRecord t => ∀ ptr record, s.threads t = .stamped ptr record →
      record.epoch = s.telemetry.currentEpoch
  | .reset => ∀ ptr record, s.telemetry.liveAllocations.lookup ptr = some record →
      record.epoch ≠ nextEpoch s.telemetry.currentEpoch
  | _ => True

/-- The tracked blocks fit in the address space. -/
theorem Inv.total_size_lt {s : System T} (hs : Inv s) :
    total (fun _ r => r.size.toNat) s.telemetry.liveAllocations < 2 ^ 64 := by
  have hle := total_size_le (fun r : AllocationRecord => r.size.toNat) 1 (2 ^ 64)
    (m := s.telemetry.liveAllocations) (fun p r hp => hs.space p _ (hs.tracked p r hp).2)
    (fun p r q r' hp hq hne => hs.apart p _ q _ (hs.tracked p r hp).2 (hs.tracked q r' hq).2 hne)
  omega

theorem currentBytes_le (epoch : UInt64) (p : Nat) (r : AllocationRecord) :
    currentBytes epoch p r ≤ r.size.toNat := by
  unfold currentBytes
  split <;> omega

theorem currentCount_le {epoch : UInt64} {p : Nat} {r : AllocationRecord}
    (h : 1 ≤ r.size.toNat) : currentCount epoch p r ≤ currentBytes epoch p r := by
  unfold currentCount currentBytes
  split <;> omega

/-- **Inserting a record keeps the accounts iff the record is of the current epoch.** -/
theorem accounted_insertRecord_iff {s s' : System T} (hs : Inv s) (hs' : Inv s')
    (hacc : Accounted s.telemetry) {ptr : Nat} {record : AllocationRecord}
    (hnot : ptr ∉ s.telemetry.liveAllocations) (hpos : 1 ≤ record.size.toNat)
    (htel : s'.telemetry = insertRecord s.telemetry ptr record) :
    Accounted s'.telemetry ↔ record.epoch = s.telemetry.currentEpoch := by
  have hlive : s'.telemetry.liveAllocations =
      s.telemetry.liveAllocations.insert ptr record := by
    rw [htel, insertRecord, emplace, if_neg hnot]
  have hepoch : s'.telemetry.currentEpoch = s.telemetry.currentEpoch := by rw [htel]; rfl
  have hbytes : s'.telemetry.liveBytes = s.telemetry.liveBytes + record.size := by
    rw [htel]; rfl
  have hcounts : s'.telemetry.allocCount - s'.telemetry.freeCount =
      s.telemetry.allocCount - s.telemetry.freeCount + 1 := by
    rw [htel]
    simp only [insertRecord]
    rw [UInt64.sub_eq_add_neg, UInt64.sub_eq_add_neg, UInt64.add_assoc, UInt64.add_assoc,
      UInt64.add_comm 1]
  have hlt := hs'.total_size_lt
  rw [hlive, total_insert hnot] at hlt
  have hle : total (currentBytes s.telemetry.currentEpoch) s.telemetry.liveAllocations ≤
      total (fun _ r => r.size.toNat) s.telemetry.liveAllocations :=
    total_mono fun p r _ => currentBytes_le _ p r
  have hcle : total (currentCount s.telemetry.currentEpoch) s.telemetry.liveAllocations ≤
      total (currentBytes s.telemetry.currentEpoch) s.telemetry.liveAllocations :=
    total_mono fun p r hp => currentCount_le (hs.tracked p r hp).1
  constructor
  · intro hacc'
    by_contra hstale
    have hbytes' := hacc'.bytes
    rw [hlive, hepoch, hbytes, total_insert hnot, UInt64.toNat_add, hacc.bytes,
      currentBytes, if_neg hstale] at hbytes'
    omega
  · intro hcurrent
    refine ⟨?_, ?_⟩
    · rw [hlive, hepoch, hbytes, total_insert hnot, UInt64.toNat_add, hacc.bytes,
        currentBytes, if_pos hcurrent]
      omega
    · rw [hlive, hepoch, hcounts, total_insert hnot, UInt64.toNat_add, hacc.counts,
        currentCount, if_pos hcurrent, UInt64.toNat_one]
      omega

theorem sub_add_one (a b : UInt64) : a - (b + 1) = a - b - 1 := by
  grind

/-- Removing a record of any epoch keeps the accounts. -/
theorem accounted_removeAllocation {s : System T} (hs : Inv s) (hacc : Accounted s.telemetry)
    (ptr : Nat) (alignment : UInt64) :
    Accounted (removeAllocation s.telemetry ptr alignment).1 := by
  unfold removeAllocation
  split
  · rename_i record hrecord
    have hpos := (hs.tracked ptr record hrecord).1
    have hbytes := total_erase (f := currentBytes s.telemetry.currentEpoch) hrecord
    have hcounts := total_erase (f := currentCount s.telemetry.currentEpoch) hrecord
    by_cases hcurrent : record.epoch = s.telemetry.currentEpoch
    · simp only [if_pos hcurrent]
      rw [currentBytes, if_pos hcurrent] at hbytes
      rw [currentCount, if_pos hcurrent] at hcounts
      have hle : record.size ≤ s.telemetry.liveBytes := by
        rw [UInt64.le_iff_toNat_le, hacc.bytes]
        omega
      have hone : 1 ≤ s.telemetry.allocCount - s.telemetry.freeCount := by
        rw [UInt64.le_iff_toNat_le, hacc.counts, UInt64.toNat_one]
        omega
      refine ⟨?_, ?_⟩
      · change (s.telemetry.liveBytes - record.size).toNat =
          total (currentBytes s.telemetry.currentEpoch) (s.telemetry.liveAllocations.erase ptr)
        rw [UInt64.toNat_sub_of_le _ _ hle, hacc.bytes]
        omega
      · change (s.telemetry.allocCount - (s.telemetry.freeCount + 1)).toNat =
          total (currentCount s.telemetry.currentEpoch) (s.telemetry.liveAllocations.erase ptr)
        rw [sub_add_one, UInt64.toNat_sub_of_le _ _ hone, hacc.counts, UInt64.toNat_one]
        omega
    · simp only [if_neg hcurrent]
      rw [currentBytes, if_neg hcurrent, Nat.zero_add] at hbytes
      rw [currentCount, if_neg hcurrent, Nat.zero_add] at hcounts
      exact ⟨by rw [hbytes, hacc.bytes], by rw [hcounts, hacc.counts]⟩
  · exact ⟨hacc.bytes, hacc.counts⟩

/-- **A reset keeps the accounts iff no live record is of the epoch it moves to.** -/
theorem accounted_reset_iff {s : System T} (hs : Inv s) :
    Accounted (reset s.telemetry) ↔ InTime s .reset := by
  constructor
  · intro hacc p r hp hepoch
    have hzero := total_eq_zero_iff.mp hacc.bytes.symm p r hp
    have hpos := (hs.tracked p r hp).1
    have hshare : currentBytes (nextEpoch s.telemetry.currentEpoch) p r = r.size.toNat :=
      if_pos hepoch
    have hsize : r.size.toNat = 0 := hshare.symm.trans hzero
    omega
  · intro htime
    have hbytes : total (currentBytes (nextEpoch s.telemetry.currentEpoch))
        s.telemetry.liveAllocations = 0 :=
      total_eq_zero_iff.mpr fun p r hp => if_neg (htime p r hp)
    have hcounts : total (currentCount (nextEpoch s.telemetry.currentEpoch))
        s.telemetry.liveAllocations = 0 :=
      total_eq_zero_iff.mpr fun p r hp => if_neg (htime p r hp)
    have hnone : ((reset s.telemetry).allocCount - (reset s.telemetry).freeCount).toNat = 0 := by
      simp [reset]
    exact ⟨hbytes.symm, hnone.trans hcounts.symm⟩

variable [DecidableEq T]

/-- **A step keeps the accounts iff it is in time.** -/
theorem accounted_step_iff {s s' : System T} {a : Action T} (hs : Inv s)
    (hacc : Accounted s.telemetry) (h : step s a = some s') :
    Accounted s'.telemetry ↔ InTime s a := by
  have hs' := inv_step hs h
  cases moves_of_step h with
  | @insertRecord t ptr record stamped =>
    have hheld := hs.inFlight t
    rw [stamped] at hheld
    rw [accounted_insertRecord_iff hs hs' hacc (emplace_of_held hs hheld.2 record).1 hheld.1 rfl]
    constructor
    · intro hepoch p r hr
      rw [stamped] at hr
      cases hr
      exact hepoch
    · exact fun htime => htime ptr record stamped
  | @removeAllocation t ptr size alignment idle held =>
    exact iff_of_true (accounted_removeAllocation hs hacc ptr alignment) trivial
  | reset => exact accounted_reset_iff hs
  | rawAllocate => exact iff_of_true hacc trivial
  | readEpoch => exact iff_of_true hacc trivial
  | recordThrows => exact iff_of_true hacc trivial
  | rawDeallocate => exact iff_of_true hacc trivial
  | snapshot => exact iff_of_true hacc trivial
  | foreignAllocate => exact iff_of_true hacc trivial

/-! ## Resets -/

/-- How many of the steps are resets. -/
def resets (as : List (Action T)) : Nat :=
  as.countP fun a => match a with
    | .reset => true
    | _ => false

/-- After `n` resets the epoch is `n + 1`, and no record is of a later one. -/
structure Epochs (n : Nat) (s : System T) : Prop where
  current : s.telemetry.currentEpoch.toNat = n + 1
  recorded : ∀ p r, s.telemetry.liveAllocations.lookup p = some r → r.epoch.toNat ≤ n + 1
  stamped : ∀ t p r, s.threads t = .stamped p r → r.epoch.toNat ≤ n + 1

theorem nextEpoch_toNat {epoch : UInt64} (h : epoch.toNat + 1 < 2 ^ 64) :
    (nextEpoch epoch).toNat = epoch.toNat + 1 := by
  have hsucc : (epoch + 1).toNat = epoch.toNat + 1 := by
    rw [UInt64.toNat_add, UInt64.toNat_one]
    omega
  unfold nextEpoch
  split
  · rename_i hzero
    rw [hzero] at hsucc
    cases hsucc
  · exact hsucc

/-- A thread that moves on without a new stamp. -/
theorem stamped_update {n : Nat} {threads : T → ThreadState} {t : T} {st : ThreadState}
    (h : ∀ u p r, threads u = .stamped p r → r.epoch.toNat ≤ n + 1)
    (ht : ∀ p r, st = .stamped p r → r.epoch.toNat ≤ n + 1) :
    ∀ u p r, Function.update threads t st u = .stamped p r → r.epoch.toNat ≤ n + 1 := by
  intro u p r hu
  by_cases hut : u = t
  · subst hut
    rw [Function.update_self] at hu
    exact ht p r hu
  · rw [Function.update_of_ne hut] at hu
    exact h u p r hu

theorem epochs_step {n : Nat} {s s' : System T} {a : Action T} (hs : Epochs n s)
    (hroom : n + resets [a] + 1 < 2 ^ 64) (h : step s a = some s') :
    Epochs (n + resets [a]) s' := by
  cases moves_of_step h with
  | rawAllocate => exact ⟨hs.current, hs.recorded, stamped_update hs.stamped (by simp)⟩
  | readEpoch =>
    refine ⟨hs.current, hs.recorded, stamped_update hs.stamped ?_⟩
    rintro p r hr
    cases hr
    exact hs.current.le
  | @insertRecord t ptr record stamped =>
    refine ⟨hs.current, fun p r hp => ?_, stamped_update hs.stamped (by simp)⟩
    simp only [insertRecord, emplace] at hp
    split at hp
    · exact hs.recorded p r hp
    · by_cases hpp : p = ptr
      · subst hpp
        rw [AList.lookup_insert] at hp
        cases hp
        exact hs.stamped t p record stamped
      · rw [AList.lookup_insert_ne hpp] at hp
        exact hs.recorded p r hp
  | recordThrows => exact ⟨hs.current, hs.recorded, stamped_update hs.stamped (by simp)⟩
  | removeAllocation =>
    refine ⟨?_, fun p r hp => hs.recorded p r (lookup_removeAllocation hp).2,
      stamped_update hs.stamped (by simp)⟩
    rw [removeAllocation_currentEpoch]
    exact hs.current
  | rawDeallocate => exact ⟨hs.current, hs.recorded, stamped_update hs.stamped (by simp)⟩
  | reset =>
    have hcurrent := hs.current
    have hone : resets [Action.reset (T := T)] = 1 := rfl
    rw [hone] at hroom ⊢
    refine ⟨?_, fun p r hp => ?_, fun t p r ht => ?_⟩
    · change (nextEpoch s.telemetry.currentEpoch).toNat = n + 1 + 1
      rw [nextEpoch_toNat (by omega), hcurrent]
    · have := hs.recorded p r hp
      omega
    · have := hs.stamped t p r ht
      omega
  | snapshot => exact hs
  | foreignAllocate => exact ⟨hs.current, hs.recorded, hs.stamped⟩

theorem epochs_run {as : List (Action T)} {s s' : System T}
    (h : Run (fun s a s' => step s a = some s') s as s') :
    ∀ n, Epochs n s → n + resets as + 1 < 2 ^ 64 → Epochs (n + resets as) s' := by
  induction h with
  | nil s => exact fun n hs _ => hs
  | @cons s s' s'' a as hstep _ ih =>
    intro n hs hroom
    have hsplit : resets (a :: as) = resets [a] + resets as := by
      rw [← List.singleton_append, resets, List.countP_append]
      rfl
    rw [hsplit] at hroom ⊢
    rw [← Nat.add_assoc]
    exact ih _ (epochs_step hs (by omega) hstep) (by omega)

omit [DecidableEq T] in
theorem epochs_start : Epochs 0 (System.start T) := by
  refine ⟨rfl, fun p r hp => ?_, nofun⟩
  simp [System.start, TelemetryState.start] at hp

/-- **Resets are in time by themselves**, whatever the other steps, until the epoch
counter comes round: before the first `2 ^ 64 - 2` resets are over. -/
theorem reset_inTime_of_few {as : List (Action T)} {s : System T}
    (h : Run (fun s a s' => step s a = some s') (System.start T) as s)
    (hfew : resets as + 1 < 2 ^ 64 - 1) : InTime s .reset := by
  have hs := epochs_run h 0 epochs_start (by omega)
  rw [Nat.zero_add] at hs
  intro p r hp hepoch
  have hle := hs.recorded p r hp
  have hroom : s.telemetry.currentEpoch.toNat + 1 < 2 ^ 64 := by
    rw [hs.current]
    omega
  have hnext := nextEpoch_toNat hroom
  rw [hepoch, hnext, hs.current] at hle
  omega

/-! ## Runs -/

/-- A step in time. -/
def StepInTime (s : System T) (a : Action T) (s' : System T) : Prop :=
  step s a = some s' ∧ InTime s a

theorem accounted_start : Accounted TelemetryState.start := ⟨rfl, rfl⟩

theorem inv_accounted_of_run {as : List (Action T)} {s : System T}
    (h : Run StepInTime (System.start T) as s) : Inv s ∧ Accounted s.telemetry := by
  refine h.invariant (I := fun s => Inv s ∧ Accounted s.telemetry) ?_ ⟨inv_start, accounted_start⟩
  rintro s a s' ⟨hs, hacc⟩ ⟨hstep, htime⟩
  exact ⟨inv_step hs hstep, (accounted_step_iff hs hacc hstep).mpr htime⟩

/-- **What a snapshot shows** after steps in time: how many resets there have been, the bytes of
the blocks recorded since the last one, and how many they are. -/
theorem snapshot_shows {as : List (Action T)} {s : System T}
    (h : Run StepInTime (System.start T) as s) (hfew : resets as + 1 < 2 ^ 64) :
    (snapshot s.telemetry).epoch.toNat = resets as + 1 ∧
      (snapshot s.telemetry).liveBytes.toNat =
        total (currentBytes (snapshot s.telemetry).epoch) s.telemetry.liveAllocations ∧
      ((snapshot s.telemetry).allocCount - (snapshot s.telemetry).freeCount).toNat =
        total (currentCount (snapshot s.telemetry).epoch) s.telemetry.liveAllocations := by
  have hsteps : Run (fun s a s' => step s a = some s') (System.start T) as s :=
    h.mono fun _ _ _ _ hstep => hstep.1
  have hepochs := epochs_run hsteps 0 epochs_start (by omega)
  have hacc := (inv_accounted_of_run h).2
  rw [Nat.zero_add] at hepochs
  exact ⟨hepochs.current, hacc.bytes, hacc.counts⟩

/-- **The accounts hold as long as every step is in time, and the first step that is
not breaks them.**  In every state a run of steps in time reaches, `live_bytes` is
the total size of the live records of the current epoch, the counts differ by their
number, no record of the current epoch is larger than `live_bytes`, and with no
record left `live_bytes` is zero and the counts are equal; and any next step keeps
this iff it is in time. -/
theorem accounted_iff_inTime (as : List (Action T)) (s : System T)
    (h : Run StepInTime (System.start T) as s) :
    Accounted s.telemetry ∧
      (∀ p r, s.telemetry.liveAllocations.lookup p = some r →
        r.epoch = s.telemetry.currentEpoch → r.size ≤ s.telemetry.liveBytes) ∧
      (s.telemetry.liveAllocations = ∅ →
        s.telemetry.liveBytes = 0 ∧ s.telemetry.allocCount = s.telemetry.freeCount) ∧
      ∀ a s', step s a = some s' → (Accounted s'.telemetry ↔ InTime s a) := by
  obtain ⟨hs, hacc⟩ := inv_accounted_of_run h
  refine ⟨hacc, fun p r hp hepoch => ?_, fun hempty => ⟨?_, ?_⟩, fun a s' hstep =>
    accounted_step_iff hs hacc hstep⟩
  · have hle := le_total (f := currentBytes s.telemetry.currentEpoch) hp
    rw [currentBytes, if_pos hepoch, ← hacc.bytes] at hle
    exact hle
  · apply UInt64.toNat_inj.mp
    rw [hacc.bytes, hempty]
    rfl
  · have hzero : s.telemetry.allocCount - s.telemetry.freeCount = 0 := by
      apply UInt64.toNat_inj.mp
      rw [hacc.counts, hempty]
      rfl
    grind

end

/-- One allocation, which is recorded before a reset and freed after it. -/
def orderlyReset : List (Action Unit) :=
  [.rawAllocate () 8 16 4096, .readEpoch (), .insertRecord (), .reset,
    .removeAllocation () 4096 16, .rawDeallocate ()]

theorem orderlyReset_run : ∃ s, Run StepInTime (System.start Unit) orderlyReset s := by
  refine ⟨_, .cons ⟨rfl, trivial⟩ <| .cons ⟨rfl, trivial⟩ <| .cons ⟨rfl, ?_⟩ <|
    .cons ⟨rfl, ?_⟩ <| .cons ⟨rfl, trivial⟩ <| .cons ⟨rfl, trivial⟩ <| .nil _⟩
  · -- the epoch is still the one that was read
    intro ptr record h
    cases h
    rfl
  · refine reset_inTime_of_few (show Run _ _ (orderlyReset.take 3) _ from ?_) (by decide)
    exact .cons rfl <| .cons rfl <| .cons rfl <| .nil _

/-- The accounts hold after it. -/
theorem accounted_iff_inTime_sample : ∃ s, Run StepInTime (System.start Unit) orderlyReset s ∧
    Accounted s.telemetry ∧
    (s.telemetry.liveAllocations = ∅ →
      s.telemetry.liveBytes = 0 ∧ s.telemetry.allocCount = s.telemetry.freeCount) ∧
    ∀ a s', step s a = some s' → (Accounted s'.telemetry ↔ InTime s a) := by
  obtain ⟨s, hrun⟩ := orderlyReset_run
  obtain ⟨hacc, -, hempty, hnext⟩ := accounted_iff_inTime orderlyReset s hrun
  exact ⟨s, hrun, hacc, hempty, hnext⟩

/-- One allocation whose record is stamped before a reset and inserted after it. -/
def straddlingReset : List (Action Unit) :=
  [.rawAllocate () 8 16 4096, .readEpoch (), .reset, .insertRecord (),
    .removeAllocation () 4096 16, .rawDeallocate ()]

/-- **A reset between the two steps of one allocation breaks the accounts**: the block
has been freed, no record is left, and `live_bytes` is still 8 and the counts differ. -/
theorem straddlingReset_unaccounted :
    ∃ s, Run (fun s a s' => step s a = some s') (System.start Unit) straddlingReset s ∧
      s.telemetry.liveAllocations = ∅ ∧ s.telemetry.liveBytes = 8 ∧
      s.telemetry.allocCount = 1 ∧ s.telemetry.freeCount = 0 ∧
      ¬ Accounted s.telemetry := by
  have hruns : (straddlingReset.foldlM step (System.start Unit)).isSome := by rfl
  refine ⟨_, run_of_foldlM (Option.some_get hruns).symm, rfl, rfl, rfl, rfl, fun hacc => ?_⟩
  have hbytes : (8 : UInt64).toNat = 0 := hacc.bytes
  cases hbytes

end PureSimdjson.AllocTelemetry
