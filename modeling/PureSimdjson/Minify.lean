import PureSimdjson.Effect
import PureSimdjson.KernelSelection

/-!
# Calls of `minify`

What a call of `MinifyInto` or of the exported function writes and locks.  A call whose
buffers either check rejects leaves everything as it was but the length that it asks for, so
the two overlap checks make the same calls go through.
-/
namespace PureSimdjson.Minify

open Effect Words

variable {T : Type} {w : Nat}

/-! ## The calls -/

/-- What a call can change. -/
structure Process (T : Type) (w : Nat) where
  memory : BitVec w → UInt8
  kernel : Kernels.KernelState T

/-- What a call depends on. -/
structure Environment (w : Nat) where
  implementations : Kernels.Implementations
  /-- `simdjson::minify`: what it reports, and the memory it leaves. -/
  scan : Kernels.Implementation → WordSpan w → BitVec w → (BitVec w → UInt8) →
    Except ErrorCode (BitVec w) × (BitVec w → UInt8)
  /-- The fallback is forced, and not allowed. -/
  fallbackForced : Bool
  /-- `activeLibrary` finds or loads the library. -/
  activeLibrary : Bool

/-- A native call, with what its `out_written` points to, if it is not null. -/
abbrev NativeCall (T : Type) (w : Nat) : Type → Type :=
  EStateM ErrorCode (Process T w × Option (BitVec w))

section
variable (env : Environment w)

def writeOut (written : BitVec w) : NativeCall T w Unit :=
  modify fun s => (s.1, some written)

/-- The block of `psimdjson_minify` that holds the lock of the selection. -/
def selectionGate : NativeCall T w Unit := do
  let (process, out) ← get
  let (rc, selection) := Kernels.utilityGate env.implementations process.kernel.selection
  set ({ process with kernel := { process.kernel with selection } }, out)
  require (rc = .ok) rc

/-- The scan, which writes from `dst` on. -/
def scan (src : WordSpan w) (dst : BitVec w) : NativeCall T w (BitVec w) := do
  let (process, out) ← get
  let implementation := process.kernel.selection.inUse env.implementations
  let (result, memory) := env.scan implementation src dst process.memory
  set ({ process with memory }, out)
  ofExcept result

/-- `psimdjson_minify` -/
def psimdjsonMinify (src dst : WordSpan w) : NativeCall T w Unit := do
  require ((← get).2 ≠ none) .invalidArgument
  writeOut src.len
  ofExcept (bufferChecks src dst)
  selectionGate env
  if src.len = 0 then
    writeOut 0
  else
    let written ← scan env src dst.start
    writeOut written

/-- `reject_fallback_implementation` -/
def rejectFallbackImplementation : NativeCall T w Unit :=
  require (¬ env.fallbackForced) .cpuUnsupported

/-- `native_minify`, which has a `written` of its own. -/
def nativeMinify (src dst : WordSpan w) :
    EStateM ErrorCode (Process T w × Option (BitVec w)) (ErrorCode × BitVec w) := fun s =>
  match (psimdjsonMinify env src dst).run (s.1, some 0) with
  | .ok _ s' => .ok (.ok, s'.2.getD 0) (s'.1, s.2)
  | .error rc s' => .ok (rc, s'.2.getD 0) (s'.1, s.2)

/-- `pure_simdjson_minify` -/
def pureSimdjsonMinify (src dst : WordSpan w) : NativeCall T w Unit := do
  require ((← get).2 ≠ none) .invalidArgument
  rejectFallbackImplementation env
  let (rc, written) ← nativeMinify env src dst
  if rc = .ok ∨ rc = .bufferTooSmall then
    writeOut written
  require (rc = .ok) rc

end

/-- A call of Go code, which returns an error or panics. -/
abbrev GoCall (T : Type) (w : Nat) : Type → Type := EStateM Kernels.KernelResult (Process T w)

section
variable (env : Environment w)

/-- `Bindings.Minify` -/
def bindingsMinify (dst src : WordSpan w) : GoCall T w (ErrorCode × BitVec w) := fun s =>
  match (pureSimdjsonMinify env (passed src) (passed dst)).run (s, some 0) with
  | .ok _ s' => .ok (.ok, s'.2.getD 0) s'.1
  | .error rc s' => .ok (rc, s'.2.getD 0) s'.1

/-- One more reservation. -/
def reserve (s : Kernels.KernelState T) : Kernels.KernelState T :=
  { s with utilityKernelReservations := s.utilityKernelReservations + 1 }

/-- `beginUtilityKernel` -/
def beginUtilityKernel : GoCall T w Unit := modify fun s => { s with kernel := reserve s.kernel }

/-- `cancel` or `finish`. -/
def release (change : Kernels.KernelState T → Option (Kernels.KernelState T)) :
    GoCall T w Unit := do
  let s ← get
  match change s.kernel with
  | some kernel => set { s with kernel }
  | none => throw .panicked

/-- `MinifyInto` -/
def minifyInto (dst src : WordSpan w) : GoCall T w (BitVec w) := do
  require (¬ dst.len < src.len) (.error (.status .bufferTooSmall))
  require (¬ byteSlicesPartiallyOverlap dst src) (.error .invalidOption)
  beginUtilityKernel
  if env.activeLibrary then
    let (rc, written) ← bindingsMinify env dst src
    release (Kernels.finishReservation false rc)
    -- the deferred `cancel` finds the reservation released
    release (Kernels.cancelReservation true)
    require (rc = .ok) (Kernels.wrapStatus rc)
    pure written
  else
    release (Kernels.cancelReservation false)
    throw (.error .library)

end

/-! ## Rejected calls -/

/-- **The checks come before anything is written or locked.** -/
theorem wp_psimdjsonMinify_rejected (env : Environment w) {src dst : WordSpan w}
    (h : layoutChecks src dst ≠ .ok ()) (process : Process T w) (out : BitVec w) :
    wp (psimdjsonMinify env src dst) (fun _ _ => False)
      (fun rc s => (rc = .bufferTooSmall ∨ rc = .invalidArgument) ∧ s = (process, some src.len))
      (process, some out) := by
  rw [psimdjsonMinify]
  simp only [wp_bind, wp_get, wp_require, writeOut, wp_modify, wp_ofExcept]
  refine ⟨fun _ => ⟨fun _ hbuffers => ?_, fun rc hbuffers => ?_⟩, fun hnull => ?_⟩
  · exact absurd (layoutChecks_of_bufferChecks hbuffers) h
  · exact ⟨bufferChecks_error hbuffers, trivial⟩
  · simp at hnull

theorem nativeMinify_rejected (env : Environment w) {src dst : WordSpan w}
    (h : layoutChecks src dst ≠ .ok ()) (s : Process T w × Option (BitVec w)) :
    ∃ rc, (rc = .bufferTooSmall ∨ rc = .invalidArgument) ∧
      (nativeMinify env src dst).run s = .ok (rc, src.len) s := by
  obtain ⟨rc, t, hrun, hrc, rfl⟩ := exists_run_error (wp_psimdjsonMinify_rejected env h s.1 0)
  refine ⟨rc, hrc, ?_⟩
  rw [EStateM.run, nativeMinify, hrun]
  rfl

/-- What the exported function reports when it is rejected. -/
def RejectionCode (rc : ErrorCode) : Prop :=
  rc = .bufferTooSmall ∨ rc = .invalidArgument ∨ rc = .cpuUnsupported

/-- The length that is needed is written where it is asked for, and nothing else. -/
theorem wp_pureSimdjsonMinify_rejected (env : Environment w) {src dst : WordSpan w}
    (h : layoutChecks src dst ≠ .ok ()) (process : Process T w) (out : Option (BitVec w)) :
    wp (pureSimdjsonMinify env src dst) (fun _ _ => False)
      (fun rc s' => RejectionCode rc ∧
        s' = (process, if rc = .bufferTooSmall then some src.len else out)) (process, out) := by
  obtain ⟨rc, hrc, hrun⟩ := nativeMinify_rejected env h (process, out)
  rw [pureSimdjsonMinify]
  simp only [wp_bind, wp_get, wp_require, rejectFallbackImplementation]
  refine ⟨fun _ => ⟨fun _ => ?_, fun _ => ?_⟩, fun _ => ?_⟩
  · refine wp_of_run_ok hrun ?_
    rcases hrc with rfl | rfl
    · simp [writeOut, RejectionCode]
    · simp [RejectionCode]
  · simp [RejectionCode]
  · simp [RejectionCode]

/-- The bindings pass on the same layout. -/
theorem layoutChecks_passed (src dst : WordSpan w) :
    layoutChecks (passed src) (passed dst) = layoutChecks src dst := by
  rw [layoutChecks, layoutChecks, passed, passed]
  by_cases hshort : dst.len < src.len
  · rw [if_pos hshort, if_pos hshort]
  rw [if_neg hshort, if_neg hshort]
  by_cases hsrc : src.len = 0
  · rw [rangeChecks, if_neg fun h => h.1 hsrc, rangeChecks, if_neg fun h => h.1 hsrc]
  · have hdst := dst_len_ne_zero (BitVec.not_lt.mp hshort) hsrc
    simp only [if_pos hsrc, if_pos hdst]

/-- A reservation is given back. -/
theorem releaseReservation_reserve {mark : Kernels.KernelState T → Kernels.KernelState T}
    {s : Kernels.KernelState T} (h : mark (reserve s) = reserve s) :
    Kernels.releaseReservation mark false (reserve s) = some s := by
  have hne : (reserve s).utilityKernelReservations ≠ 0 := Nat.succ_ne_zero _
  rw [Kernels.releaseReservation, if_neg Bool.false_ne_true, if_neg hne, h]
  rfl

/-- The flag is not set for a call that was rejected. -/
theorem finishReservation_rejected {rc : ErrorCode} (h : RejectionCode rc)
    (s : Kernels.KernelState T) : Kernels.finishReservation false rc (reserve s) = some s := by
  refine releaseReservation_reserve ?_
  rw [Kernels.markKernelSelectionAfterUtility, if_neg]
  rintro ⟨hcpu, hsmall, hinvalid⟩
  rcases h with rfl | rfl | rfl
  · exact hsmall rfl
  · exact hinvalid rfl
  · exact hcpu rfl

theorem bindingsMinify_rejected (env : Environment w) {src dst : WordSpan w}
    (h : layoutChecks src dst ≠ .ok ()) (s : Process T w) :
    ∃ rc written, RejectionCode rc ∧
      (bindingsMinify env dst src).run s = .ok (rc, written) s := by
  have hpassed : layoutChecks (passed src) (passed dst) ≠ .ok () := by
    rwa [layoutChecks_passed]
  obtain ⟨rc, _, hrun, hrc, rfl⟩ :=
    exists_run_error (wp_pureSimdjsonMinify_rejected env hpassed s (some 0))
  refine ⟨rc, (if rc = .bufferTooSmall then some src.len else some 0).getD 0, hrc, ?_⟩
  rw [EStateM.run, bindingsMinify, hrun]
  rfl

theorem wp_release {change : Kernels.KernelState T → Option (Kernels.KernelState T)}
    {Q : Unit → Process T w → Prop} {E : Kernels.KernelResult → Process T w → Prop}
    {s : Process T w} {kernel : Kernels.KernelState T} (h : change s.kernel = some kernel) :
    wp (release change) Q E s ↔ Q () { s with kernel } := by
  rw [release, wp_bind, wp_get]
  simp only [h]
  exact wp_set _

/-- **A call that either check rejects leaves everything as it was.** -/
theorem wp_minifyInto_rejected (env : Environment w) {src dst : WordSpan w}
    (h : preflight dst src = false ∨ layoutChecks src dst ≠ .ok ()) (s : Process T w) :
    wp (minifyInto env dst src) (fun _ _ => False) (fun _ s' => s' = s) s := by
  rw [minifyInto]
  simp only [wp_bind, wp_require]
  refine ⟨fun hroom => ⟨fun hapart => ?_, fun _ => trivial⟩, fun _ => trivial⟩
  have hlet : preflight dst src = true := decide_eq_true ⟨hroom, hapart⟩
  have hlayout : layoutChecks src dst ≠ .ok () := by
    rcases h with h | h
    · rw [hlet] at h
      cases h
    · exact h
  simp only [beginUtilityKernel, wp_modify, wp_ite, wp_bind]
  refine ⟨fun _ => ?_, fun _ => ?_⟩
  · -- the native side is called, and sets nothing
    obtain ⟨rc, written, hrc, hrun⟩ :=
      bindingsMinify_rejected env hlayout { s with kernel := reserve s.kernel }
    refine wp_of_run_ok hrun ?_
    have hcancel : Kernels.cancelReservation true s.kernel = some s.kernel := rfl
    rw [wp_bind, wp_release (s := { s with kernel := reserve s.kernel })
      (finishReservation_rejected hrc s.kernel), wp_bind, wp_release hcancel, wp_bind, wp_require]
    refine ⟨fun hok => ?_, fun _ => rfl⟩
    rcases hrc with rfl | rfl | rfl
    · cases hok
    · cases hok
    · cases hok
  · have hcancel : Kernels.cancelReservation false (reserve s.kernel) = some s.kernel :=
      releaseReservation_reserve rfl
    rw [wp_release (s := { s with kernel := reserve s.kernel }) hcancel, wp_throw]

/-- **The overlap gates of `minify` agree.**  For buffers that end at an address, Go and
the native side let through the same layouts, those `minify` is meant for.  On any words
no native operation wraps, and where the buffers start apart and the source is not empty,
one whose end would wrap is rejected.  A call that the native checks reject writes
nothing but the length it asks for and leaves the selection as it was, whether it comes
from the exported function or through Go; and a call that the Go check rejects changes
nothing. -/
theorem overlap_gates_agree (src dst : WordSpan w) :
    (src.Fits → dst.Fits →
      (preflight dst src = true ↔ Accepted src dst) ∧
      (layoutChecks src dst = .ok () ↔ Accepted src dst)) ∧
    layoutChecksWatched src dst = some (layoutChecks src dst) ∧
    (src.start ≠ dst.start → src.len ≠ 0 → ¬ src.Fits ∨ ¬ dst.Fits →
      layoutChecks src dst ≠ .ok ()) ∧
    (layoutChecks src dst ≠ .ok () → ∀ (env : Environment w) (s : Process T w),
      (∀ out, ∃ rc, (rc = .bufferTooSmall ∨ rc = .invalidArgument) ∧
        (psimdjsonMinify env src dst).run (s, some out) = .error rc (s, some src.len)) ∧
      (∀ out, ∃ rc, RejectionCode rc ∧ (pureSimdjsonMinify env src dst).run (s, out) =
        .error rc (s, if rc = .bufferTooSmall then some src.len else out)) ∧
      ∃ err, (minifyInto env dst src).run s = .error err s) ∧
    (preflight dst src = false → ∀ (env : Environment w) (s : Process T w),
      ∃ err, (minifyInto env dst src).run s = .error err s) := by
  refine ⟨fun hsrc hdst => ⟨preflight_iff, layoutChecks_iff hsrc hdst⟩,
    layoutChecksWatched_eq src dst, layoutChecks_of_not_fits, fun h env s => ⟨?_, ?_, ?_⟩,
    fun h env s => ?_⟩
  · intro out
    obtain ⟨rc, _, hrun, hrc, rfl⟩ := exists_run_error (wp_psimdjsonMinify_rejected env h s out)
    exact ⟨rc, hrc, hrun⟩
  · intro out
    obtain ⟨rc, _, hrun, hrc, rfl⟩ := exists_run_error (wp_pureSimdjsonMinify_rejected env h s out)
    exact ⟨rc, hrc, hrun⟩
  · obtain ⟨err, _, hrun, rfl⟩ := exists_run_error (wp_minifyInto_rejected env (Or.inr h) s)
    exact ⟨err, hrun⟩
  · obtain ⟨err, _, hrun, rfl⟩ := exists_run_error (wp_minifyInto_rejected env (Or.inl h) s)
    exact ⟨err, hrun⟩

-- ranges that touch are apart, and ranges that share one byte are not
example : preflight (w := 8) ⟨20, 4⟩ ⟨16, 4⟩ = true ∧
    layoutChecks (w := 8) ⟨16, 4⟩ ⟨20, 4⟩ = .ok () ∧
    preflight (w := 8) ⟨19, 4⟩ ⟨16, 4⟩ = false ∧
    layoutChecks (w := 8) ⟨16, 4⟩ ⟨19, 4⟩ = .error .invalidArgument :=
  ⟨rfl, rfl, rfl, rfl⟩

end PureSimdjson.Minify
