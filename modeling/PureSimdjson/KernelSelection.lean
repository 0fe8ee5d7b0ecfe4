import PureSimdjson.Kernels

/-!
# Kernel selection

Goroutines call `SetKernel`, `NewParser`, `NewParserPool`, `MinifyInto` and `ValidateUTF8`, in
any order and at the same time.  Libraries may fail to load, native calls may be rejected, and
the hooks may panic.
-/
namespace PureSimdjson.Kernels

open Runs Threads

/-! ## The Go side -/

/-- The variables of `kernel.go`, the library, and the native selection. -/
structure KernelState (T : Type) where
  kernelMu : Option T
  kernelSelectionLocked : Bool
  utilityKernelReservations : Nat
  /-- The library's `implementationName`, once there is a library. -/
  cachedLibrary : Option Bytes
  selection : Selection

/-- Who calls `activeLibrary`. -/
inductive LibraryCaller where
  | setKernel (name : Bytes)
  | newParser (maxCapacity maxDepth : Nat)
  | utility (call : UtilityCall)

/-- Where a goroutine is. -/
inductive KernelThread where
  | idle
  -- `SetKernel`
  | setLock (name : Bytes)
  | setCheck (name : Bytes)
  | setReserved (name : Bytes)
  | setWait (name : Bytes)
  | setRecheck (name : Bytes)
  | setHook (name : Bytes)
  | setNative (name : Bytes)
  | setNamed
  | setPublish (selected : Bytes)
  -- `activeLibrary`
  | library (caller : LibraryCaller)
  | libraryInstall (caller : LibraryCaller) (implementationName : Bytes)
  -- `newParserWithConfig`
  | newLock (maxCapacity maxDepth : Nat)
  | newNative (maxCapacity maxDepth : Nat)
  | newRegister
  | newMark
  -- the deferred `kernelMu.Unlock()`
  | unlock (result : KernelResult)
  -- `NewParserPool`
  | poolLock
  -- `MinifyInto` and `ValidateUTF8`
  | begin (call : UtilityCall)
  | hook (call : UtilityCall)
  | native (call : UtilityCall)
  | gate (call : UtilityCall)
  | scan
  | finish (released : Bool) (rc : ErrorCode)
  | cancel (released : Bool) (result : KernelResult)
  | done (result : KernelResult)

/-- What a step shows. -/
inductive KernelAction where
  | tau
  | reserved
  | released
  | underflow
  | setImplementation (name : Bytes) (rc : ErrorCode)
  | parserNew (made : Except ErrorCode Implementation)
  | gate (rc : ErrorCode)
  | scanned (impl : Implementation)
  | returned (result : KernelResult)

/-- `wrapStatus` -/
def wrapStatus (rc : ErrorCode) : KernelResult :=
  if rc = .ok then .ok else .error (.status rc)

/-- How `SetKernel` reports a native status. -/
def setKernelStatus (rc : ErrorCode) : KernelResult :=
  if rc = .invalidArgument then .error .invalidOption else wrapStatus rc

/-- Where a caller goes on with the library. -/
def LibraryCaller.loaded : LibraryCaller → KernelThread
  | .setKernel name => .setHook name
  | .newParser maxCapacity maxDepth => .newNative maxCapacity maxDepth
  | .utility call => .native call

/-- Where a caller goes on without. -/
def LibraryCaller.failed (err : KernelError) : LibraryCaller → KernelThread
  | .setKernel _ | .newParser _ _ => .unlock (.error err)
  | .utility _ => .cancel false (.error err)

section
variable {T : Type}

/-- `markKernelSelectionAfterUtility` -/
def markKernelSelectionAfterUtility (rc : ErrorCode) (s : KernelState T) : KernelState T :=
  if rc ≠ .cpuUnsupported ∧ rc ≠ .bufferTooSmall ∧ rc ≠ .invalidArgument then
    { s with kernelSelectionLocked := true }
  else s

/-- The critical section of `cancel` and of `finish`, which marks the selection first.  There is
no state after it when it panics. -/
def releaseReservation (mark : KernelState T → KernelState T) (released : Bool)
    (s : KernelState T) : Option (KernelState T) :=
  if released then some s
  else if s.utilityKernelReservations = 0 then none
  else some { mark s with utilityKernelReservations := s.utilityKernelReservations - 1 }

/-- `cancel` -/
def cancelReservation (released : Bool) (s : KernelState T) : Option (KernelState T) :=
  releaseReservation id released s

/-- `finish` -/
def finishReservation (released : Bool) (rc : ErrorCode) (s : KernelState T) :
    Option (KernelState T) :=
  releaseReservation (markKernelSelectionAfterUtility rc) released s

/-- What releasing a reservation shows. -/
def releaseAction (released : Bool) : KernelAction := if released then .tau else .released

/-- **One step of a goroutine.** -/
inductive KernelStep (impls : Implementations) (t : T) :
    KernelState T → KernelThread → KernelAction → KernelState T → KernelThread → Prop where
  | setKernel {s : KernelState T} (name : Bytes) :
      KernelStep impls t s .idle .tau s (.setLock name)
  | setLock {s : KernelState T} {name : Bytes} (hmu : s.kernelMu = none) :
      KernelStep impls t s (.setLock name) .tau { s with kernelMu := some t } (.setCheck name)
  | setLocked {s : KernelState T} {name : Bytes} (h : s.kernelSelectionLocked = true) :
      KernelStep impls t s (.setCheck name) .tau s (.unlock (.error (.status .kernelLocked)))
  | setCheck {s : KernelState T} {name : Bytes} (h : s.kernelSelectionLocked = false) :
      KernelStep impls t s (.setCheck name) .tau s (.setReserved name)
  | setWait {s : KernelState T} {name : Bytes} (h : s.utilityKernelReservations ≠ 0) :
      KernelStep impls t s (.setReserved name) .tau { s with kernelMu := none } (.setWait name)
  | setWake {s : KernelState T} {name : Bytes} (hmu : s.kernelMu = none) :
      -- a goroutine may wake up whenever the lock is free
      KernelStep impls t s (.setWait name) .tau { s with kernelMu := some t } (.setReserved name)
  | setUnreserved {s : KernelState T} {name : Bytes} (h : s.utilityKernelReservations = 0) :
      KernelStep impls t s (.setReserved name) .tau s (.setRecheck name)
  | setRelocked {s : KernelState T} {name : Bytes} (h : s.kernelSelectionLocked = true) :
      KernelStep impls t s (.setRecheck name) .tau s (.unlock (.error (.status .kernelLocked)))
  | setRecheck {s : KernelState T} {name : Bytes} (h : s.kernelSelectionLocked = false) :
      KernelStep impls t s (.setRecheck name) .tau s (.library (.setKernel name))
  | setHook {s : KernelState T} {name : Bytes} :
      KernelStep impls t s (.setHook name) .tau s (.setNative name)
  | setHookPanics {s : KernelState T} {name : Bytes} :
      KernelStep impls t s (.setHook name) .tau s (.unlock .panicked)
  | setRejected {s : KernelState T} {name : Bytes}
      (h : (psimdjsonSetImplementation impls name s.selection).1 ≠ .ok) :
      KernelStep impls t s (.setNative name)
        (.setImplementation name (psimdjsonSetImplementation impls name s.selection).1)
        { s with selection := (psimdjsonSetImplementation impls name s.selection).2 }
        (.unlock (setKernelStatus (psimdjsonSetImplementation impls name s.selection).1))
  | setNative {s : KernelState T} {name : Bytes}
      (h : (psimdjsonSetImplementation impls name s.selection).1 = .ok) :
      KernelStep impls t s (.setNative name) (.setImplementation name .ok)
        { s with selection := (psimdjsonSetImplementation impls name s.selection).2 } .setNamed
  | setNamed {s : KernelState T} :
      KernelStep impls t s .setNamed .tau { s with selection := s.selection.use impls }
        (.setPublish (s.selection.inUse impls).name)
  | setUnnamed {s : KernelState T} {rc : ErrorCode} (h : rc ≠ .ok) :
      KernelStep impls t s .setNamed .tau { s with selection := s.selection.use impls }
        (.unlock (wrapStatus rc))
  | setPublish {s : KernelState T} {selected : Bytes} :
      KernelStep impls t s (.setPublish selected) .tau { s with cachedLibrary := some selected }
        (.unlock .ok)
  | libraryCached {s : KernelState T} {caller : LibraryCaller} (h : s.cachedLibrary.isSome) :
      KernelStep impls t s (.library caller) .tau s caller.loaded
  | libraryFails {s : KernelState T} {caller : LibraryCaller} (h : s.cachedLibrary = none) :
      KernelStep impls t s (.library caller) .tau s (caller.failed .library)
  | libraryNamed {s : KernelState T} {caller : LibraryCaller} (h : s.cachedLibrary = none) :
      KernelStep impls t s (.library caller) .tau { s with selection := s.selection.use impls }
        (.libraryInstall caller (s.selection.inUse impls).name)
  | libraryUnnamed {s : KernelState T} {caller : LibraryCaller} {rc : ErrorCode}
      (h : s.cachedLibrary = none) (hrc : rc ≠ .ok) :
      KernelStep impls t s (.library caller) .tau { s with selection := s.selection.use impls }
        (caller.failed (.status rc))
  | libraryInstall {s : KernelState T} {caller : LibraryCaller} {name : Bytes} :
      -- a library that was installed meanwhile stays
      KernelStep impls t s (.libraryInstall caller name) .tau
        { s with cachedLibrary := some (s.cachedLibrary.getD name) } caller.loaded
  | newParser {s : KernelState T} (maxCapacity maxDepth : Nat) :
      KernelStep impls t s .idle .tau s (.newLock maxCapacity maxDepth)
  | newLock {s : KernelState T} {maxCapacity maxDepth : Nat} (hmu : s.kernelMu = none) :
      KernelStep impls t s (.newLock maxCapacity maxDepth) .tau { s with kernelMu := some t }
        (.library (.newParser maxCapacity maxDepth))
  | newRejected {s : KernelState T} {maxCapacity maxDepth : Nat} {rc : ErrorCode}
      (h : rc = .cpuUnsupported ∨ rc = .panic) :
      -- `reject_fallback_implementation`, before the selection is looked at
      KernelStep impls t s (.newNative maxCapacity maxDepth) (.parserNew (.error rc)) s
        (.unlock (wrapStatus rc))
  | newFailed {s : KernelState T} {maxCapacity maxDepth : Nat} {allocated rc : ErrorCode}
      (h : (selectForParser impls maxCapacity maxDepth allocated
        s.selection).1 = .error rc) :
      KernelStep impls t s (.newNative maxCapacity maxDepth) (.parserNew (.error rc))
        { s with selection := (selectForParser impls maxCapacity maxDepth
          allocated s.selection).2 }
        (.unlock (wrapStatus rc))
  | newNative {s : KernelState T} {maxCapacity maxDepth : Nat} {allocated : ErrorCode}
      {impl : Implementation} (h : (selectForParser impls maxCapacity
        maxDepth allocated s.selection).1 = .ok impl) :
      KernelStep impls t s (.newNative maxCapacity maxDepth) (.parserNew (.ok impl))
        { s with selection := (selectForParser impls maxCapacity maxDepth
          allocated s.selection).2 }
        .newRegister
  | newUnregistered {s : KernelState T} {rc : ErrorCode} (h : rc ≠ .ok) :
      KernelStep impls t s .newRegister .tau s (.unlock (wrapStatus rc))
  | newRegister {s : KernelState T} : KernelStep impls t s .newRegister .tau s .newMark
  | newMark {s : KernelState T} :
      KernelStep impls t s .newMark .tau { s with kernelSelectionLocked := true } (.unlock .ok)
  | unlock {s : KernelState T} {result : KernelResult} :
      KernelStep impls t s (.unlock result) (.returned result) { s with kernelMu := none } .idle
  | newParserPool {s : KernelState T} : KernelStep impls t s .idle .tau s .poolLock
  | poolLock {s : KernelState T} (hmu : s.kernelMu = none) :
      KernelStep impls t s .poolLock .tau { s with kernelSelectionLocked := true } (.done .ok)
  | refuse {s : KernelState T} (call : UtilityCall) (h : call.preflight ≠ .ok) :
      KernelStep impls t s .idle .tau s (.done call.preflight)
  | utility {s : KernelState T} (call : UtilityCall) (h : call.preflight = .ok) :
      KernelStep impls t s .idle .tau s (.begin call)
  | begin {s : KernelState T} {call : UtilityCall} (hmu : s.kernelMu = none) :
      KernelStep impls t s (.begin call) .reserved
        { s with utilityKernelReservations := s.utilityKernelReservations + 1 } (.hook call)
  | hook {s : KernelState T} {call : UtilityCall} :
      KernelStep impls t s (.hook call) .tau s (.library (.utility call))
  | hookPanics {s : KernelState T} {call : UtilityCall} :
      KernelStep impls t s (.hook call) .tau s (.cancel false .panicked)
  | forced {s : KernelState T} {call : UtilityCall} {rc : ErrorCode}
      (h : rc = .cpuUnsupported ∨ rc = .panic) :
      KernelStep impls t s (.native call) (.gate rc) s (.finish false rc)
  | arguments {s : KernelState T} {call : UtilityCall} {rc : ErrorCode}
      (h : call.arguments = .error rc) :
      KernelStep impls t s (.native call) (.gate rc) s (.finish false rc)
  | native {s : KernelState T} {call : UtilityCall} (h : call.arguments = .ok ()) :
      KernelStep impls t s (.native call) .tau s (.gate call)
  | gateRejected {s : KernelState T} {call : UtilityCall}
      (h : (utilityGate impls s.selection).1 ≠ .ok) :
      KernelStep impls t s (.gate call) (.gate (utilityGate impls s.selection).1)
        { s with selection := (utilityGate impls s.selection).2 }
        (.finish false (utilityGate impls s.selection).1)
  | gate {s : KernelState T} {call : UtilityCall} (h : (utilityGate impls s.selection).1 = .ok) :
      KernelStep impls t s (.gate call) (.gate .ok)
        { s with selection := (utilityGate impls s.selection).2 }
        (if call.scans then .scan else .finish false .ok)
  | scan {s : KernelState T} {rc : ErrorCode} :
      KernelStep impls t s .scan (.scanned (s.selection.inUse impls))
        { s with selection := s.selection.use impls } (.finish false rc)
  | finish {s s' : KernelState T} {released : Bool} {rc : ErrorCode} (hmu : s.kernelMu = none)
      (h : finishReservation released rc s = some s') :
      KernelStep impls t s (.finish released rc) (releaseAction released) s'
        (.cancel true (wrapStatus rc))
  | finishPanics {s : KernelState T} {released : Bool} {rc : ErrorCode} (hmu : s.kernelMu = none)
      (h : finishReservation released rc s = none) :
      KernelStep impls t s (.finish released rc) .underflow s (.cancel released .panicked)
  | cancel {s s' : KernelState T} {released : Bool} {result : KernelResult}
      (hmu : s.kernelMu = none) (h : cancelReservation released s = some s') :
      KernelStep impls t s (.cancel released result) (releaseAction released) s' (.done result)
  | cancelPanics {s : KernelState T} {released : Bool} {result : KernelResult}
      (hmu : s.kernelMu = none) (h : cancelReservation released s = none) :
      KernelStep impls t s (.cancel released result) .underflow s (.done .panicked)
  | done {s : KernelState T} {result : KernelResult} :
      KernelStep impls t s (.done result) (.returned result) s .idle

end

end PureSimdjson.Kernels
