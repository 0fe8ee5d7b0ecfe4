import PureSimdjson.KernelSelection

/-!
# Kernel selection is stable

What each goroutine relies on where it is, and from it what holds along every run: nothing is
set while a utility has a reservation or after the selection is locked, and what is used after
that is always the same implementation.
-/
namespace PureSimdjson.Kernels

open Runs Threads

variable {T : Type} {impls : Implementations} {t : T} {s s' : KernelState T}
  {x x' : KernelThread} {a : KernelAction}

/-! ## Reservations -/

/-- What a release does. -/
structure Releases (released : Bool) (s s' : KernelState T) : Prop where
  kernelMu : s'.kernelMu = s.kernelMu
  selection : s'.selection = s.selection
  count : s.utilityKernelReservations = s'.utilityKernelReservations + (if released then 0 else 1)

theorem releases_of_releaseReservation {mark : KernelState T → KernelState T} {released : Bool}
    (hmu : (mark s).kernelMu = s.kernelMu) (hselection : (mark s).selection = s.selection)
    (h : releaseReservation mark released s = some s') : Releases released s s' := by
  rw [releaseReservation] at h
  by_cases hreleased : released = true
  · rw [if_pos hreleased] at h
    obtain rfl := Option.some.inj h
    exact ⟨rfl, rfl, by rw [if_pos hreleased]; rfl⟩
  rw [if_neg hreleased] at h
  split at h
  · cases h
  · obtain rfl := Option.some.inj h
    refine ⟨hmu, hselection, ?_⟩
    rw [if_neg hreleased]
    show s.utilityKernelReservations = s.utilityKernelReservations - 1 + 1
    omega

theorem releases_of_cancel {released : Bool} (h : cancelReservation released s = some s') :
    Releases released s s' :=
  releases_of_releaseReservation rfl rfl h

theorem releases_of_finish {released : Bool} {rc : ErrorCode}
    (h : finishReservation released rc s = some s') : Releases released s s' := by
  refine releases_of_releaseReservation ?_ ?_ h
  · rw [markKernelSelectionAfterUtility]
    split <;> rfl
  · rw [markKernelSelectionAfterUtility]
    split <;> rfl

/-- A release panics where there is no reservation to release. -/
theorem releaseReservation_none {mark : KernelState T → KernelState T} {released : Bool}
    (h : releaseReservation mark released s = none) :
    released = false ∧ s.utilityKernelReservations = 0 := by
  rw [releaseReservation] at h
  split at h
  · cases h
  next hreleased =>
  split at h
  · next hcount => exact ⟨Bool.eq_false_of_not_eq_true hreleased, hcount⟩
  · cases h

/-! ## Places -/

def LibraryCaller.Holding : LibraryCaller → Prop
  | .setKernel _ | .newParser _ _ => True
  | .utility _ => False

/-- The goroutine has `kernelMu`. -/
def KernelThread.Holding : KernelThread → Prop
  | .setCheck _ | .setReserved _ | .setRecheck _ | .setHook _ | .setNative _ | .setNamed
  | .setPublish _ | .newNative _ _ | .newRegister | .newMark | .unlock _ => True
  | .library caller | .libraryInstall caller _ => caller.Holding
  | _ => False

def LibraryCaller.Selecting : LibraryCaller → Prop
  | .setKernel _ => True
  | .newParser _ _ | .utility _ => False

/-- `SetKernel` has checked that it may select. -/
def KernelThread.Selecting : KernelThread → Prop
  | .setHook _ | .setNative _ => True
  | .library caller | .libraryInstall caller _ => caller.Selecting
  | _ => False

/-- `SetKernel` has seen that there is no reservation. -/
def KernelThread.Unreserved : KernelThread → Prop
  | .setRecheck _ => True
  | x => x.Selecting

def LibraryCaller.Reserved : LibraryCaller → Prop
  | .utility _ => True
  | .setKernel _ | .newParser _ _ => False

/-- The goroutine has a reservation that it has not released. -/
def KernelThread.Reserved : KernelThread → Prop
  | .hook _ | .native _ | .gate _ | .scan => True
  | .library caller | .libraryInstall caller _ => caller.Reserved
  | .finish released _ | .cancel released _ => released = false
  | _ => False

/-- What a goroutine relies on where it is. -/
structure KernelThread.Relies (t : T) (s : KernelState T) (x : KernelThread) : Prop where
  mu : x.Holding → s.kernelMu = some t
  unreserved : x.Unreserved → s.utilityKernelReservations = 0
  unlocked : x.Selecting → s.kernelSelectionLocked = false
  scans : x = .scan → s.selection.locked = true ∧ ∃ impl, s.selection.active = some impl ∧
    (s.selection.explicitSelection = true ∨ impl.name ≠ fallback)

theorem KernelThread.Selecting.unreserved (h : x.Selecting) : x.Unreserved := by
  cases x with
  | setRecheck name => trivial
  | _ => exact h

theorem KernelThread.Unreserved.holding (h : x.Unreserved) : x.Holding := by
  cases x with
  | library caller => cases caller <;> trivial
  | libraryInstall caller name => cases caller <;> trivial
  | setRecheck name => trivial
  | setHook name => trivial
  | setNative name => trivial
  | _ => exact h.elim

theorem LibraryCaller.reserved_loaded {caller : LibraryCaller} :
    caller.loaded.Reserved ↔ caller.Reserved := by
  cases caller <;> exact Iff.rfl

theorem LibraryCaller.reserved_failed {caller : LibraryCaller} {err : KernelError} :
    (caller.failed err).Reserved ↔ caller.Reserved := by
  cases caller with
  | utility call => exact ⟨fun _ => trivial, fun _ => rfl⟩
  | _ => exact Iff.rfl

theorem LibraryCaller.holding_loaded {caller : LibraryCaller} :
    caller.loaded.Holding ↔ caller.Holding := by
  cases caller <;> exact Iff.rfl

theorem LibraryCaller.holding_failed {caller : LibraryCaller} {err : KernelError} :
    (caller.failed err).Holding ↔ caller.Holding := by
  cases caller <;> exact Iff.rfl

/-! ## Steps -/

theorem KernelStep.locks (h : KernelStep impls t s x a s' x') (hx : x.Relies t s) :
    LockStep t s.kernelMu s'.kernelMu := by
  cases h with
  | setLock hmu => exact hmu ▸ .acquire
  | setWake hmu => exact hmu ▸ .acquire
  | newLock hmu => exact hmu ▸ .acquire
  | setWait _ => exact hx.mu trivial ▸ .release
  | unlock => exact hx.mu trivial ▸ .release
  | finish _ hreleased => exact (releases_of_finish hreleased).kernelMu ▸ .keep _
  | cancel _ hreleased => exact (releases_of_cancel hreleased).kernelMu ▸ .keep _
  | _ => exact .keep _

/-- The Go side is only written by those who have the lock, or could. -/
theorem KernelStep.guarded (h : KernelStep impls t s x a s' x') (hx : x.Relies t s) :
    (s'.utilityKernelReservations = s.utilityKernelReservations ∧
      s'.kernelSelectionLocked = s.kernelSelectionLocked) ∨
    s.kernelMu = none ∨ s.kernelMu = some t := by
  cases h with
  | newMark => exact Or.inr (Or.inr (hx.mu trivial))
  | poolLock hmu => exact Or.inr (Or.inl hmu)
  | begin hmu => exact Or.inr (Or.inl hmu)
  | finish hmu _ => exact Or.inr (Or.inl hmu)
  | cancel hmu _ => exact Or.inr (Or.inl hmu)
  | _ => exact Or.inl ⟨rfl, rfl⟩

/-- A step sets an implementation, or leaves one that there is. -/
theorem KernelStep.detects (h : KernelStep impls t s x a s' x') (hs : s.selection.Settled) :
    (∃ name, x = .setNative name ∧ a = .setImplementation name .ok ∧
      (psimdjsonSetImplementation impls name s.selection).1 = .ok ∧
      s'.selection = (psimdjsonSetImplementation impls name s.selection).2) ∨
    s.selection.Detects s'.selection := by
  cases h with
  | @setNative name hok => exact Or.inl ⟨name, rfl, rfl, hok, rfl⟩
  | setRejected hrejected =>
    refine Or.inr ?_
    rw [psimdjsonSetImplementation_rejected impls hrejected]
    exact .refl _
  | newFailed _ => exact Or.inr (selectForParser_spec impls _ _ _ hs).1
  | newNative _ => exact Or.inr (selectForParser_spec impls _ _ _ hs).1
  | gateRejected _ => exact Or.inr (utilityGate_spec impls hs).1
  | gate _ => exact Or.inr (utilityGate_spec impls hs).1
  | setNamed => exact Or.inr (s.selection.detects_use impls)
  | setUnnamed _ => exact Or.inr (s.selection.detects_use impls)
  | libraryNamed _ => exact Or.inr (s.selection.detects_use impls)
  | libraryUnnamed _ _ => exact Or.inr (s.selection.detects_use impls)
  | scan => exact Or.inr (s.selection.detects_use impls)
  | finish _ hreleased => exact Or.inr ((releases_of_finish hreleased).selection ▸ .refl _)
  | cancel _ hreleased => exact Or.inr ((releases_of_cancel hreleased).selection ▸ .refl _)
  | _ => exact Or.inr (.refl _)

theorem KernelStep.selection (h : KernelStep impls t s x a s' x') (hs : s.selection.Settled) :
    s.selection.Steps s'.selection := by
  obtain ⟨name, -, -, -, hset⟩ | hdetects := h.detects hs
  · rw [hset]
    exact psimdjsonSetImplementation_steps impls _ _
  · exact hdetects.steps

/-- Who holds the lock after a step had it before, or has just got it. -/
theorem KernelStep.holds (h : KernelStep impls t s x a s' x') (hx : x.Relies t s)
    (hx' : x'.Holding) : s'.kernelMu = some t := by
  cases h with
  | setLock _ => rfl
  | setWake _ => rfl
  | newLock _ => rfl
  | setLocked _ => exact hx.mu trivial
  | setCheck _ => exact hx.mu trivial
  | setUnreserved _ => exact hx.mu trivial
  | setRelocked _ => exact hx.mu trivial
  | setRecheck _ => exact hx.mu trivial
  | setHook => exact hx.mu trivial
  | setHookPanics => exact hx.mu trivial
  | setRejected _ => exact hx.mu trivial
  | setNative _ => exact hx.mu trivial
  | setNamed => exact hx.mu trivial
  | setUnnamed _ => exact hx.mu trivial
  | setPublish => exact hx.mu trivial
  | newRejected _ => exact hx.mu trivial
  | newFailed _ => exact hx.mu trivial
  | newNative _ => exact hx.mu trivial
  | newUnregistered _ => exact hx.mu trivial
  | newRegister => exact hx.mu trivial
  | newMark => exact hx.mu trivial
  | libraryCached _ => exact hx.mu (LibraryCaller.holding_loaded.mp hx')
  | libraryFails _ => exact hx.mu (LibraryCaller.holding_failed.mp hx')
  | libraryNamed _ => exact hx.mu hx'
  | libraryUnnamed _ _ => exact hx.mu (LibraryCaller.holding_failed.mp hx')
  | libraryInstall => exact hx.mu (LibraryCaller.holding_loaded.mp hx')
  | gate _ =>
    split at hx' <;> exact hx'.elim
  | _ => exact hx'.elim

theorem LibraryCaller.selecting_loaded {caller : LibraryCaller} :
    caller.loaded.Unreserved ↔ caller.Selecting := by
  cases caller <;> exact Iff.rfl

theorem LibraryCaller.not_selecting_failed {caller : LibraryCaller} {err : KernelError} :
    ¬ (caller.failed err).Unreserved := by
  cases caller <;> exact id

/-- Who has seen that there is no reservation after a step had seen it before, or has just
looked. -/
theorem KernelStep.unreserves (h : KernelStep impls t s x a s' x') (hx : x.Relies t s)
    (hx' : x'.Unreserved) : s'.utilityKernelReservations = 0 := by
  cases h with
  | setUnreserved hcount => exact hcount
  | setRecheck _ => exact hx.unreserved trivial
  | setHook => exact hx.unreserved trivial
  | libraryCached _ => exact hx.unreserved (LibraryCaller.selecting_loaded.mp hx')
  | libraryNamed _ => exact hx.unreserved hx'
  | libraryInstall => exact hx.unreserved (LibraryCaller.selecting_loaded.mp hx')
  | libraryFails _ => exact absurd hx' LibraryCaller.not_selecting_failed
  | libraryUnnamed _ _ => exact absurd hx' LibraryCaller.not_selecting_failed
  | gate _ =>
    split at hx' <;> exact hx'.elim
  | _ => exact hx'.elim

/-- Who is selecting after a step was selecting before, or has just checked. -/
theorem KernelStep.selects (h : KernelStep impls t s x a s' x') (hx : x.Relies t s)
    (hx' : x'.Selecting) : s'.kernelSelectionLocked = false := by
  cases h with
  | setRecheck hopen => exact hopen
  | setHook => exact hx.unlocked trivial
  | libraryCached _ =>
    exact hx.unlocked (LibraryCaller.selecting_loaded.mp hx'.unreserved)
  | libraryNamed _ => exact hx.unlocked hx'
  | libraryInstall => exact hx.unlocked (LibraryCaller.selecting_loaded.mp hx'.unreserved)
  | libraryFails _ => exact absurd hx'.unreserved LibraryCaller.not_selecting_failed
  | libraryUnnamed _ _ => exact absurd hx'.unreserved LibraryCaller.not_selecting_failed
  | gate _ =>
    split at hx' <;> exact hx'.elim
  | _ => exact hx'.elim

/-- Who scans has just passed the gate. -/
theorem KernelStep.scans (h : KernelStep impls t s x a s' x') (hs : s.selection.Settled)
    (hx' : x' = .scan) : s'.selection.locked = true ∧ ∃ impl, s'.selection.active = some impl ∧
      (s'.selection.explicitSelection = true ∨ impl.name ≠ fallback) := by
  cases h with
  | gate hgate =>
    have hgated := (utilityGate_spec impls hs).2 hgate
    refine ⟨hgated.locked, s.selection.inUse impls, hgated.active, ?_⟩
    rw [show (utilityGate impls s.selection).2.explicitSelection = _ from
      hgated.explicitSelection]
    exact hgated.allowed
  | @libraryCached caller _ => cases caller <;> cases hx'
  | @libraryFails caller _ => cases caller <;> cases hx'
  | @libraryUnnamed caller _ _ => cases caller <;> cases hx'
  | @libraryInstall caller _ => cases caller <;> cases hx'
  | _ => cases hx'

/-- **The outline stands.** -/
theorem kernel_outline : Outline (KernelStep (T := T) impls) (fun s => s.selection.Settled)
    fun t s x => x.Relies t s where
  keeps hs hx h := ⟨(h.selection hs).settled hs,
    ⟨h.holds hx, h.unreserves hx, h.selects hx, h.scans hs⟩⟩
  stable {t t' s s' x x' y a} hne hs hx h hy := by
    have hmu : y.Holding → s'.kernelMu = some t' := fun hholding =>
      ((h.locks hx).other hne).mpr (hy.mu hholding)
    -- the one who takes the step has no lock, so it does not write the Go side
    have hkept : y.Holding → s'.utilityKernelReservations = s.utilityKernelReservations ∧
        s'.kernelSelectionLocked = s.kernelSelectionLocked := by
      intro hholding
      obtain hsame | hfree | hown := h.guarded hx
      · exact hsame
      · rw [hy.mu hholding] at hfree
        cases hfree
      · rw [hy.mu hholding] at hown
        exact absurd (Option.some.inj hown) hne
    refine ⟨hmu, fun hunreserved => ?_, fun hselecting => ?_, fun hscan => ?_⟩
    · rw [(hkept hunreserved.holding).1]
      exact hy.unreserved hunreserved
    · rw [(hkept hselecting.unreserved.holding).2]
      exact hy.unlocked hselecting
    · obtain ⟨hlocked, hactive⟩ := hy.scans hscan
      rw [(h.selection hs).locked hs hlocked]
      exact ⟨hlocked, hactive⟩

/-! ## Counting reservations -/

/-- The step neither takes a reservation nor releases one. -/
def KernelAction.Plain : KernelAction → Prop
  | .reserved | .released | .underflow => False
  | _ => True

/-- How a step changes the number of reservations, and who has one. -/
theorem KernelStep.reserves (h : KernelStep impls t s x a s' x') :
    (a = .reserved ∧ ¬ x.Reserved ∧ x'.Reserved ∧
      s'.utilityKernelReservations = s.utilityKernelReservations + 1) ∨
    (a = .released ∧ x.Reserved ∧ ¬ x'.Reserved ∧
      s.utilityKernelReservations = s'.utilityKernelReservations + 1) ∨
    (a = .underflow ∧ x.Reserved ∧ s.utilityKernelReservations = 0) ∨
    (a.Plain ∧ (x'.Reserved ↔ x.Reserved) ∧
      s'.utilityKernelReservations = s.utilityKernelReservations) := by
  cases h with
  | begin _ => exact Or.inl ⟨rfl, id, trivial, rfl⟩
  | @finish s released rc _ hreleased =>
    have hcount := (releases_of_finish hreleased).count
    cases released with
    | false => exact Or.inr (Or.inl ⟨rfl, rfl, (fun h => by cases h), hcount⟩)
    | true => exact Or.inr (Or.inr (Or.inr ⟨trivial, Iff.rfl, hcount.symm⟩))
  | @cancel s released result _ hreleased =>
    have hcount := (releases_of_cancel hreleased).count
    cases released with
    | false => exact Or.inr (Or.inl ⟨rfl, rfl, id, hcount⟩)
    | true =>
      exact Or.inr (Or.inr (Or.inr ⟨trivial, ⟨False.elim, (fun h => by cases h)⟩, hcount.symm⟩))
  | finishPanics _ hnone =>
    obtain ⟨hreleased, hcount⟩ := releaseReservation_none hnone
    exact Or.inr (Or.inr (Or.inl ⟨rfl, hreleased, hcount⟩))
  | cancelPanics _ hnone =>
    obtain ⟨hreleased, hcount⟩ := releaseReservation_none hnone
    exact Or.inr (Or.inr (Or.inl ⟨rfl, hreleased, hcount⟩))
  | libraryCached _ =>
    exact Or.inr (Or.inr (Or.inr ⟨trivial, LibraryCaller.reserved_loaded, rfl⟩))
  | libraryInstall =>
    exact Or.inr (Or.inr (Or.inr ⟨trivial, LibraryCaller.reserved_loaded, rfl⟩))
  | libraryFails _ =>
    exact Or.inr (Or.inr (Or.inr ⟨trivial, LibraryCaller.reserved_failed, rfl⟩))
  | libraryUnnamed _ _ =>
    exact Or.inr (Or.inr (Or.inr ⟨trivial, LibraryCaller.reserved_failed, rfl⟩))
  | hookPanics => exact Or.inr (Or.inr (Or.inr ⟨trivial, ⟨fun _ => trivial, fun _ => rfl⟩, rfl⟩))
  | forced _ => exact Or.inr (Or.inr (Or.inr ⟨trivial, ⟨fun _ => trivial, fun _ => rfl⟩, rfl⟩))
  | arguments _ =>
    exact Or.inr (Or.inr (Or.inr ⟨trivial, ⟨fun _ => trivial, fun _ => rfl⟩, rfl⟩))
  | gateRejected _ =>
    exact Or.inr (Or.inr (Or.inr ⟨trivial, ⟨fun _ => trivial, fun _ => rfl⟩, rfl⟩))
  | scan => exact Or.inr (Or.inr (Or.inr ⟨trivial, ⟨fun _ => trivial, fun _ => rfl⟩, rfl⟩))
  | gate _ =>
    refine Or.inr (Or.inr (Or.inr ⟨trivial, ?_, rfl⟩))
    split
    · exact ⟨fun _ => trivial, fun _ => trivial⟩
    · exact ⟨fun _ => trivial, fun _ => rfl⟩
  | _ => exact Or.inr (Or.inr (Or.inr ⟨trivial, Iff.rfl, rfl⟩))

variable [DecidableEq T]

/-- There are as many reservations as goroutines that have one. -/
def Counted (c : Config T (KernelState T) KernelThread) : Prop :=
  Counts KernelThread.Reserved c.own c.shared.utilityKernelReservations

/-- **The count is right, and never underflows.** -/
theorem counted_move {c c' : Config T (KernelState T) KernelThread} {l : T × KernelAction}
    (hc : Counted c) (hmove : Threads.Moves (KernelStep impls) c l c') :
    Counted c' ∧ l.2 ≠ .underflow := by
  cases hmove with
  | @move s s' own t x' a taken =>
    obtain ⟨rfl, hbefore, hafter, hcount⟩ | ⟨rfl, hbefore, hafter, hcount⟩ |
      ⟨rfl, hbefore, hcount⟩ | ⟨hplain, hsame, hcount⟩ := taken.reserves
    · refine ⟨?_, (fun h => by cases h)⟩
      show Counts _ _ s'.utilityKernelReservations
      rw [hcount]
      exact Counts.enter hc hbefore hafter
    · refine ⟨?_, (fun h => by cases h)⟩
      have hc : Counts KernelThread.Reserved own s.utilityKernelReservations := hc
      rw [hcount] at hc
      exact hc.leave hbefore hafter
    · have hpos : 0 < s.utilityKernelReservations := Counts.pos hc hbefore
      omega
    · refine ⟨?_, fun h => ?_⟩
      · show Counts _ _ s'.utilityKernelReservations
        rw [hcount]
        exact Counts.keep hc hsame
      · obtain rfl : a = .underflow := h
        exact hplain

/-! ## What has happened -/

/-- An implementation is used: a parser is made with it, or it scans. -/
def KernelAction.Uses (impl : Implementation) : KernelAction → Prop
  | .parserNew made => made = .ok impl
  | .scanned used => used = impl
  | _ => False

/-- A parser is made, or a utility passes its gate. -/
def KernelAction.Locks : KernelAction → Prop
  | .parserNew made => ∃ impl, made = .ok impl
  | .gate rc => rc = .ok
  | _ => False

omit [DecidableEq T] in
/-- **What is used is the active implementation**, the selection is locked by then, and the
fallback is explicitly selected. -/
theorem KernelStep.uses (h : KernelStep impls t s x a s' x') (hs : s.selection.Settled)
    (hx : x.Relies t s) {impl : Implementation} (ha : a.Uses impl) :
    s'.selection.locked = true ∧ s'.selection.active = some impl ∧
      (s.selection.explicitSelection = true ∨ impl.name ≠ fallback) ∧
      (s.selection.active.isSome → s.selection.active = some impl) := by
  cases h with
  | newNative hmade =>
    cases ha
    obtain ⟨rfl, hgated⟩ := (selectForParser_spec impls _ _ _ hs).2 _ hmade
    refine ⟨hgated.locked, hgated.active, hgated.allowed, fun hactive => ?_⟩
    obtain ⟨impl, himpl⟩ := Option.isSome_iff_exists.mp hactive
    rw [Selection.inUse, himpl, Option.getD_some]
  | scan =>
    obtain ⟨hlocked, impl', himpl, hallowed⟩ := hx.scans rfl
    have huse : s.selection.inUse impls = impl' := by
      rw [Selection.inUse, himpl, Option.getD_some]
    have ha : s.selection.inUse impls = impl := ha
    obtain rfl := huse.symm.trans ha
    exact ⟨hlocked, congrArg some huse, hallowed, fun _ => himpl⟩
  | newRejected _ => cases ha
  | newFailed _ => cases ha
  | @finish _ released _ _ _ => cases released <;> exact ha.elim
  | @cancel _ released _ _ _ => cases released <;> exact ha.elim
  | _ => exact ha.elim

omit [DecidableEq T] in
theorem KernelStep.locks_selection (h : KernelStep impls t s x a s' x') (hs : s.selection.Settled)
    (ha : a.Locks) : s'.selection.locked = true := by
  cases h with
  | newNative hmade =>
    exact ((selectForParser_spec impls _ _ _ hs).2 _ hmade).2.locked
  | gate hgate => exact ((utilityGate_spec impls hs).2 hgate).locked
  | newRejected _ =>
    obtain ⟨impl, himpl⟩ := ha
    cases himpl
  | newFailed _ =>
    obtain ⟨impl, himpl⟩ := ha
    cases himpl
  | forced hrc =>
    obtain rfl := ha
    obtain hrc | hrc := hrc <;> cases hrc
  | arguments hrefused =>
    obtain rfl := ha
    obtain hrc | hrc := UtilityCall.arguments_error hrefused <;> cases hrc
  | gateRejected hrefused => exact absurd ha hrefused
  | @finish _ released _ _ _ => cases released <;> exact ha.elim
  | @cancel _ released _ _ _ => cases released <;> exact ha.elim
  | _ => exact ha.elim

/-- What the moves so far say of the selection. -/
structure Recorded (impls : Implementations) (ls : List (T × KernelAction)) (s : Selection) :
    Prop where
  requested : s.explicitSelection = true → ∃ t name impl,
    (t, .setImplementation name .ok) ∈ ls ∧ impls.named name = some impl ∧ s.active = some impl
  used : ∀ l ∈ ls, ∀ impl, l.2.Uses impl → s.locked = true ∧ s.active = some impl
  locked : ∀ l ∈ ls, l.2.Locks → s.locked = true

omit [DecidableEq T] in
theorem KernelStep.records (h : KernelStep impls t s x a s' x') (hs : s.selection.Settled)
    (hx : x.Relies t s) {ls : List (T × KernelAction)} (hls : Recorded impls ls s.selection) :
    Recorded impls (ls ++ [(t, a)]) s'.selection := by
  have hsteps := h.selection hs
  refine ⟨fun hexplicit => ?_, fun l hl impl huse => ?_, fun l hl hlock => ?_⟩
  · obtain ⟨name, -, rfl, hok, hset⟩ | hdetects := h.detects hs
    · rw [hset] at hexplicit ⊢
      obtain ⟨impl, hnamed, hactive⟩ := (psimdjsonSetImplementation_ok impls hok).2.2 hexplicit
      exact ⟨t, name, impl, List.mem_append_right _ List.mem_cons_self, hnamed, hactive⟩
    · rw [hdetects.explicitSelection] at hexplicit
      obtain ⟨t', name, impl, hmem, hnamed, hactive⟩ := hls.requested hexplicit
      refine ⟨t', name, impl, List.mem_append_left _ hmem, hnamed, ?_⟩
      rw [hdetects.active (hs.2 hexplicit), hactive]
  · rcases List.mem_append.mp hl with hl | hl
    · obtain ⟨hlocked, hactive⟩ := hls.used l hl impl huse
      rw [hsteps.locked hs hlocked]
      exact ⟨hlocked, hactive⟩
    · obtain rfl := List.mem_singleton.mp hl
      obtain ⟨hlocked, hactive, -, -⟩ := h.uses hs hx huse
      exact ⟨hlocked, hactive⟩
  · rcases List.mem_append.mp hl with hl | hl
    · have hlocked := hls.locked l hl hlock
      rw [hsteps.locked hs hlocked]
      exact hlocked
    · obtain rfl := List.mem_singleton.mp hl
      exact h.locks_selection hs hlock

def KernelAction.isReserved : KernelAction → Bool
  | .reserved => true
  | _ => false

def KernelAction.isReleased : KernelAction → Bool
  | .released => true
  | _ => false

/-- How many reservations a goroutine has taken. -/
def taken (t : T) (ls : List (T × KernelAction)) : Nat :=
  ls.countP fun l => decide (l.1 = t) && l.2.isReserved

/-- How many reservations a goroutine has released. -/
def released (t : T) (ls : List (T × KernelAction)) : Nat :=
  ls.countP fun l => decide (l.1 = t) && l.2.isReleased

/-- A goroutine has released what it took, but for the reservation it has. -/
structure Balanced (t : T) (ls : List (T × KernelAction)) (x : KernelThread) : Prop where
  reserved : x.Reserved → taken t ls = released t ls + 1
  unreserved : ¬ x.Reserved → taken t ls = released t ls

theorem balanced_other {t' : T} (hne : t' ≠ t) {ls : List (T × KernelAction)}
    (h : Balanced t' ls x) : Balanced t' (ls ++ [(t, a)]) x := by
  have htaken : taken t' (ls ++ [(t, a)]) = taken t' ls := by
    simp [taken, List.countP_append, Ne.symm hne]
  have hreleased : released t' (ls ++ [(t, a)]) = released t' ls := by
    simp [released, List.countP_append, Ne.symm hne]
  refine ⟨fun hx => ?_, fun hx => ?_⟩
  · rw [htaken, hreleased]
    exact h.reserved hx
  · rw [htaken, hreleased]
    exact h.unreserved hx

theorem KernelStep.balances (h : KernelStep impls t s x a s' x') (hpos : a ≠ .underflow)
    {ls : List (T × KernelAction)} (hls : Balanced t ls x) :
    Balanced t (ls ++ [(t, a)]) x' := by
  have htaken : taken t (ls ++ [(t, a)]) = taken t ls + a.isReserved.toNat := by
    cases hres : a.isReserved <;> simp [taken, List.countP_append, hres]
  have hreleased : released t (ls ++ [(t, a)]) = released t ls + a.isReleased.toNat := by
    cases hres : a.isReleased <;> simp [released, List.countP_append, hres]
  obtain ⟨rfl, hbefore, hafter, -⟩ | ⟨rfl, hbefore, hafter, -⟩ | ⟨rfl, -, -⟩ |
    ⟨hplain, hsame, -⟩ := h.reserves
  · refine ⟨fun _ => ?_, fun hx => absurd hafter hx⟩
    rw [htaken, hreleased, hls.unreserved hbefore]
    rfl
  · refine ⟨fun hx => absurd hx hafter, fun _ => ?_⟩
    rw [htaken, hreleased, hls.reserved hbefore]
    rfl
  · exact absurd rfl hpos
  · have hquiet : a.isReserved = false ∧ a.isReleased = false := by
      cases a <;> first | exact ⟨rfl, rfl⟩ | exact hplain.elim
    refine ⟨fun hx => ?_, fun hx => ?_⟩
    · rw [htaken, hreleased, hquiet.1, hquiet.2, hls.reserved (hsame.mp hx)]
      rfl
    · rw [htaken, hreleased, hquiet.1, hquiet.2, hls.unreserved (fun h => hx (hsame.mpr h))]

/-! ## Every run -/

/-- A process that has not loaded the library. -/
def KernelState.start : KernelState T where
  kernelMu := none
  kernelSelectionLocked := false
  utilityKernelReservations := 0
  cachedLibrary := none
  selection := { locked := false, explicitSelection := false, active := none }

/-- What holds after some moves. -/
structure After (impls : Implementations) (ls : List (T × KernelAction))
    (c : Config T (KernelState T) KernelThread) : Prop where
  holds : Holds (fun s => s.selection.Settled) (fun t s x => x.Relies t s) c
  counted : Counted c
  recorded : Recorded impls ls c.shared.selection
  balanced : ∀ t, Balanced t ls (c.own t)
  plain : ∀ l ∈ ls, l.2 ≠ .underflow

theorem after_nil : After impls [] (⟨.start, fun _ => .idle⟩ : Config T _ _) where
  holds := ⟨⟨(fun h => by cases h), (fun h => by cases h)⟩,
    fun _ => ⟨False.elim, False.elim, False.elim, (fun h => by cases h)⟩⟩
  counted := .none fun _ => id
  recorded := ⟨(fun h => by cases h), fun _ hl => absurd hl List.not_mem_nil,
    fun _ hl => absurd hl List.not_mem_nil⟩
  balanced _ := ⟨False.elim, fun _ => rfl⟩
  plain _ hl := absurd hl List.not_mem_nil

theorem after_move {ls : List (T × KernelAction)} {c c' : Config T (KernelState T) KernelThread}
    {l : T × KernelAction} (hc : After impls ls c)
    (hmove : Threads.Moves (KernelStep impls) c l c') : After impls (ls ++ [l]) c' := by
  obtain ⟨hcounted, hpos⟩ := counted_move hc.counted hmove
  have hholds := kernel_outline.move hc.holds hmove
  cases hmove with
  | @move s s' own t x' a taken =>
    refine ⟨hholds, hcounted, taken.records hc.holds.shared (hc.holds.own t) hc.recorded,
      fun t' => ?_, fun l hl => ?_⟩
    · show Balanced t' _ (Function.update own t x' t')
      by_cases heq : t' = t
      · rw [heq, Function.update_self]
        exact taken.balances hpos (hc.balanced t)
      · rw [Function.update_of_ne heq]
        exact balanced_other heq (hc.balanced t')
    · rcases List.mem_append.mp hl with hl | hl
      · exact hc.plain l hl
      · obtain rfl := List.mem_singleton.mp hl
        exact hpos

theorem after_run {ls : List (T × KernelAction)} {c : Config T (KernelState T) KernelThread}
    (h : Run (Threads.Moves (KernelStep impls)) ⟨.start, fun _ => .idle⟩ ls c) :
    After impls ls c :=
  h.history (fun _ _ _ _ hc hmove => after_move hc hmove) after_nil

/-- A locked selection is never written again. -/
theorem selection_stays {ls : List (T × KernelAction)}
    {c c' : Config T (KernelState T) KernelThread}
    (h : Run (Threads.Moves (KernelStep impls)) c ls c')
    (hc : Holds (fun s => s.selection.Settled) (fun t s x => x.Relies t s) c)
    (hlocked : c.shared.selection.locked = true) : c'.shared.selection = c.shared.selection := by
  induction h with
  | nil _ => rfl
  | cons hmove _ ih =>
    have hnext := kernel_outline.move hc hmove
    cases hmove with
    | move taken =>
      have hsame := (taken.selection hc.shared).locked hc.shared hlocked
      have hlater := ih hnext (hsame ▸ hlocked)
      exact hlater.trans hsame

omit [DecidableEq T] in
/-- An implementation is set when nobody uses one. -/
theorem KernelStep.sets {name : Bytes} {rc : ErrorCode}
    (h : KernelStep impls t s x (.setImplementation name rc) s' x') (hx : x.Relies t s) :
    (rc = .ok → s.utilityKernelReservations = 0 ∧ s.kernelSelectionLocked = false ∧
      s.selection.locked = false) ∧ (rc ≠ .ok → s'.selection = s.selection) := by
  generalize ha : KernelAction.setImplementation name rc = a at h
  cases h with
  | setNative hok =>
    cases ha
    exact ⟨fun _ => ⟨hx.unreserved trivial, hx.unlocked trivial,
      (psimdjsonSetImplementation_ok impls hok).1⟩, fun hrc => absurd rfl hrc⟩
  | setRejected hrejected =>
    cases ha
    exact ⟨fun hrc => absurd hrc hrejected,
      fun _ => psimdjsonSetImplementation_rejected impls hrejected⟩
  | @finish _ released _ _ _ => cases released <;> cases ha
  | @cancel _ released _ _ _ => cases released <;> cases ha
  | _ => cases ha

/-- **Kernel selection is stable.**  In every run, an implementation is only set while there is
no reservation and nothing is locked, and a rejected request changes nothing.  From the first
parser or the first gate on, the active implementation stays, and everything uses that one; the
fallback is used by those who asked for it.  The count of reservations is the number of
goroutines that have one, each releases what it took, and no release underflows. -/
theorem kernel_selection_stable {ls : List (T × KernelAction)}
    {c : Config T (KernelState T) KernelThread}
    (h : Run (Threads.Moves (KernelStep impls)) ⟨.start, fun _ => .idle⟩ ls c) :
    (∀ t name rc c', Threads.Moves (KernelStep impls) c (t, .setImplementation name rc) c' →
      (rc = .ok → c.shared.utilityKernelReservations = 0 ∧ (∀ t', ¬ (c.own t').Reserved) ∧
        c.shared.kernelSelectionLocked = false ∧ c.shared.selection.locked = false) ∧
      (rc ≠ .ok → c'.shared.selection = c.shared.selection)) ∧
    ((∃ l ∈ ls, l.2.Locks) → ∃ impl, c.shared.selection.active = some impl ∧
      ∀ ls' c', Run (Threads.Moves (KernelStep impls)) c ls' c' →
        c'.shared.selection.active = some impl) ∧
    (∀ l ∈ ls, ∀ l' ∈ ls, ∀ impl impl', l.2.Uses impl → l'.2.Uses impl' → impl = impl') ∧
    (∀ before t a after impl, ls = before ++ (t, a) :: after → a.Uses impl →
      impl.name = fallback → ∃ t', (t', .setImplementation fallback .ok) ∈ before) ∧
    Counts KernelThread.Reserved c.own c.shared.utilityKernelReservations ∧
    (∀ t, (c.own t).Reserved → taken t ls = released t ls + 1) ∧
    (∀ t, ¬ (c.own t).Reserved → taken t ls = released t ls) ∧
    ∀ l ∈ ls, l.2 ≠ .underflow := by
  have hafter := after_run h
  refine ⟨?_, ?_, ?_, ?_, hafter.counted, fun t => (hafter.balanced t).reserved,
    fun t => (hafter.balanced t).unreserved, hafter.plain⟩
  · intro t name rc c' hmove
    cases hmove with
    | @move s s' own t x' a taken =>
      obtain ⟨hok, hrejected⟩ := taken.sets (hafter.holds.own t)
      refine ⟨fun hrc => ?_, hrejected⟩
      obtain ⟨hcount, hunlocked, hopen⟩ := hok hrc
      refine ⟨hcount, fun t' hreserved => ?_, hunlocked, hopen⟩
      have hpos : 0 < s.utilityKernelReservations := Counts.pos hafter.counted hreserved
      omega
  · rintro ⟨l, hl, hlocks⟩
    have hlocked := hafter.recorded.locked l hl hlocks
    have hactive := hafter.holds.shared.1 hlocked
    obtain ⟨impl, himpl⟩ := Option.isSome_iff_exists.mp hactive
    refine ⟨impl, himpl, fun ls' c' hrun => ?_⟩
    rw [selection_stays hrun hafter.holds hlocked, himpl]
  · intro l hl l' hl' impl impl' huse huse'
    have hactive := (hafter.recorded.used l hl impl huse).2
    have hactive' := (hafter.recorded.used l' hl' impl' huse').2
    exact Option.some.inj (hactive.symm.trans hactive')
  · intro before t a rest impl hls huse hfallback
    rw [hls] at h
    obtain ⟨c₁, c₂, hbefore, hmove, -⟩ := h.at_move
    have hbefore := after_run hbefore
    cases hmove with
    | @move s s' own t x' a taken =>
      obtain ⟨-, -, hallowed, hactive⟩ := taken.uses hbefore.holds.shared (hbefore.holds.own t) huse
      have hexplicit : s.selection.explicitSelection = true :=
        hallowed.resolve_right fun hne => hne hfallback
      obtain ⟨t', name, impl', hmem, hnamed, hactive'⟩ := hbefore.recorded.requested hexplicit
      have hactive := hactive (hbefore.holds.shared.2 hexplicit)
      have hsame : impl' = impl := Option.some.inj (hactive'.symm.trans hactive)
      have hname : name = fallback := by
        rw [← impls.name_of_named hnamed, hsame, hfallback]
      exact ⟨t', hname ▸ hmem⟩

/-! ## A sample -/

def sampleImplementation : Implementation := ⟨fallback, true⟩

/-- The fallback is all there is. -/
def sampleImplementations : Implementations where
  named name := if name = fallback then some sampleImplementation else none
  detectBestSupported := sampleImplementation
  onFirstUse := sampleImplementation
  name_of_named {name impl} h := by
    split at h
    · next hname =>
      cases h
      exact hname.symm
    · cases h

/-- One goroutine selects the fallback, and another one begins to make a parser. -/
def sampleSelect : List (Bool × KernelAction) :=
  [(false, .tau), (false, .tau), (false, .tau), (false, .tau), (false, .tau), (false, .tau),
    (false, .tau), (false, .tau), (true, .tau), (false, .setImplementation fallback .ok),
    (false, .tau), (false, .tau), (false, .returned .ok), (true, .tau), (true, .tau)]

theorem sampleSelect_run : ∃ c, Run (Threads.Moves (KernelStep sampleImplementations))
    (⟨.start, fun _ => .idle⟩ : Config Bool _ _)
    (sampleSelect ++ (true, .parserNew (.ok sampleImplementation)) :: []) c := by
  refine ⟨_, .cons (.move (.setKernel fallback)) <| .cons (.move (.setLock rfl)) <|
    .cons (.move (.setCheck rfl)) <| .cons (.move (.setUnreserved rfl)) <|
    .cons (.move (.setRecheck rfl)) <| .cons (.move (.libraryNamed rfl)) <|
    .cons (.move .libraryInstall) <| .cons (.move .setHook) <| .cons (.move (.newParser 0 0)) <|
    .cons (.move (.setNative rfl)) <| .cons (.move .setNamed) <| .cons (.move .setPublish) <|
    .cons (.move .unlock) <| .cons (.move (.newLock rfl)) <| .cons (.move (.libraryCached rfl)) <|
    .cons (.move (@KernelStep.newNative _ _ _ _ 0 0 .ok _ rfl)) <| .nil _⟩

theorem kernel_selection_stable_sample :
    ∃ t, (t, .setImplementation fallback .ok) ∈ sampleSelect := by
  obtain ⟨c, hrun⟩ := sampleSelect_run
  exact (kernel_selection_stable hrun).2.2.2.1 sampleSelect true _ [] sampleImplementation rfl rfl
    rfl

end PureSimdjson.Kernels
