import PureSimdjson.MinifyLayout
import PureSimdjson.Threads
import PureSimdjson.Values

/-!
# Kernels

simdjson has several implementations of its kernels, and one of them is active.  Go has a lock,
a flag and a count of reservations around the selection; the native side has a lock of its own
that only ever closes.  A step is one critical section or one native call of `SetKernel`,
`NewParser`, `NewParserPool`, `MinifyInto` or `ValidateUTF8`.
-/
namespace PureSimdjson.Kernels

open Minify Threads Words

/-! ## Native selection -/

/-- `simdjson::implementation`. -/
structure Implementation where
  name : Bytes
  supportedByRuntimeSystem : Bool
  deriving DecidableEq

/-- The implementations simdjson was compiled with. -/
structure Implementations where
  /-- `get_available_implementations()[name]` -/
  named : Bytes → Option Implementation
  /-- `detect_best_supported` -/
  detectBestSupported : Implementation
  /-- What is detected when an implementation is asked for and none was set. -/
  onFirstUse : Implementation
  name_of_named : ∀ {name : Bytes} {impl : Implementation},
    named name = some impl → impl.name = name

def fallback : Bytes := "fallback".toList.map fun c => c.toNat.toUInt8

/-- `ImplementationSelectionState`, and `get_active_implementation()`: none before the first
use. -/
structure Selection where
  locked : Bool
  explicitSelection : Bool
  active : Option Implementation

section
variable (impls : Implementations)

/-- The implementation that is used if one is used now. -/
def Selection.inUse (s : Selection) : Implementation := s.active.getD impls.onFirstUse

/-- Using it makes it the active one. -/
def Selection.use (s : Selection) : Selection := { s with active := some (s.inUse impls) }

/-- `psimdjson_set_implementation` -/
def psimdjsonSetImplementation (name : Bytes) (s : Selection) : ErrorCode × Selection :=
  if s.locked then
    (.kernelLocked, s)
  else if name.length = 0 then
    (.ok, { s with active := some impls.detectBestSupported, explicitSelection := false })
  else
    match impls.named name with
    | none => (.invalidArgument, s)
    | some implementation =>
        if implementation.supportedByRuntimeSystem then
          (.ok, { s with active := some implementation, explicitSelection := true })
        else
          (.cpuUnsupported, s)

/-- `!selection.explicit_selection && implementation->name() == "fallback"`: the name is only
asked for when there is no explicit selection. -/
def Selection.rejectsFallback (s : Selection) : Bool × Selection :=
  if s.explicitSelection then (false, s) else ((s.inUse impls).name = fallback, s.use impls)

/-- What `parser_new_configured_with_selection_lock` does to the selection, with what making
the parser reports. -/
def selectForParser (maxCapacity maxDepth : Nat) (allocated : ErrorCode) (s : Selection) :
    Except ErrorCode Implementation × Selection :=
  match checkParserLimits maxCapacity maxDepth with
  | .error rc => (.error rc, s)
  | .ok () =>
      let selection := { s with locked := true }.rejectsFallback impls
      if selection.1 then
        (.error .cpuUnsupported, selection.2)
      else if allocated ≠ .ok then
        (.error allocated, selection.2.use impls)
      else
        (.ok (selection.2.inUse impls), selection.2.use impls)

/-- The gate of `psimdjson_minify` and `psimdjson_validate_utf8`. -/
def utilityGate (s : Selection) : ErrorCode × Selection :=
  let selection := s.rejectsFallback impls
  if selection.1 then (.cpuUnsupported, selection.2)
  else (.ok, { selection.2 with locked := true })

/-- What nothing changes once the selection is locked. -/
def Selection.Settled (s : Selection) : Prop :=
  (s.locked = true → s.active.isSome) ∧ (s.explicitSelection = true → s.active.isSome)

/-- What a native call leaves of the selection. -/
structure Selection.Steps (s s' : Selection) : Prop where
  settled : s.Settled → s'.Settled
  locked : s.Settled → s.locked = true → s' = s

theorem Selection.use_of_active {s : Selection} (h : s.active.isSome) : s.use impls = s := by
  obtain ⟨impl, himpl⟩ := Option.isSome_iff_exists.mp h
  cases s with
  | mk locked explicitSelection active =>
    subst himpl
    rfl

/-- What using the selection leaves of it: it may detect an implementation, and be locked. -/
structure Selection.Detects (s s' : Selection) : Prop where
  settled : s.Settled → s'.Settled
  locked : s.locked = true → s'.locked = true
  explicitSelection : s'.explicitSelection = s.explicitSelection
  active : s.active.isSome → s'.active = s.active

theorem Selection.Detects.steps {s s' : Selection} (h : s.Detects s') : s.Steps s' where
  settled := h.settled
  locked hs hlocked := by
    have hactive := h.active (hs.1 hlocked)
    have hstill := (h.locked hlocked).trans hlocked.symm
    have hexplicit := h.explicitSelection
    cases s
    cases s'
    cases hactive
    cases hstill
    cases hexplicit
    rfl

theorem Selection.Detects.refl (s : Selection) : s.Detects s := ⟨id, id, rfl, fun _ => rfl⟩

theorem Selection.Detects.trans {s s' s'' : Selection} (h : s.Detects s')
    (h' : s'.Detects s'') : s.Detects s'' where
  settled hs := h'.settled (h.settled hs)
  locked hlocked := h'.locked (h.locked hlocked)
  explicitSelection := h'.explicitSelection.trans h.explicitSelection
  active hactive := by
    have hsame := h.active hactive
    rw [← hsame] at hactive
    exact (h'.active hactive).trans hsame

theorem Selection.detects_use (s : Selection) : s.Detects (s.use impls) where
  settled _ := ⟨fun _ => rfl, fun _ => rfl⟩
  locked := id
  explicitSelection := rfl
  active hactive := by rw [Selection.use_of_active impls hactive]

theorem Selection.detects_lock {s : Selection} (h : s.active.isSome) :
    s.Detects { s with locked := true } where
  settled hs := ⟨fun _ => h, hs.2⟩
  locked _ := rfl
  explicitSelection := rfl
  active _ := rfl

theorem Selection.rejectsFallback_detects (s : Selection) :
    s.Detects (s.rejectsFallback impls).2 := by
  rw [rejectsFallback]
  split
  · exact .refl s
  · exact s.detects_use impls

/-- Where the fallback is not rejected, what is used is active, and was asked for if it is the
fallback. -/
theorem Selection.rejectsFallback_passed {s : Selection} (hs : s.Settled)
    (h : (s.rejectsFallback impls).1 = false) :
    (s.rejectsFallback impls).2 = s.use impls ∧
      (s.explicitSelection = true ∨ (s.inUse impls).name ≠ fallback) := by
  unfold rejectsFallback at h ⊢
  split
  · next hexplicit =>
    exact ⟨(use_of_active impls (hs.2 hexplicit)).symm, Or.inl hexplicit⟩
  · next hexplicit =>
    rw [if_neg hexplicit] at h
    exact ⟨rfl, Or.inr (of_decide_eq_false h)⟩

/-- **Setting an implementation takes effect while the selection is open.** -/
theorem psimdjsonSetImplementation_ok {name : Bytes} {s : Selection}
    (h : (psimdjsonSetImplementation impls name s).1 = .ok) :
    s.locked = false ∧ (psimdjsonSetImplementation impls name s).2.active.isSome ∧
      ((psimdjsonSetImplementation impls name s).2.explicitSelection = true →
        ∃ impl, impls.named name = some impl ∧
          (psimdjsonSetImplementation impls name s).2.active = some impl) := by
  unfold psimdjsonSetImplementation at h ⊢
  by_cases hlocked : s.locked = true
  · rw [if_pos hlocked] at h
    cases h
  rw [if_neg hlocked] at h ⊢
  refine ⟨Bool.eq_false_of_not_eq_true hlocked, ?_⟩
  by_cases hname : name.length = 0
  · rw [if_pos hname]
    exact ⟨rfl, (fun h => by cases h)⟩
  rw [if_neg hname] at h ⊢
  cases hnamed : impls.named name with
  | none =>
    rw [hnamed] at h
    cases h
  | some impl =>
    simp only [hnamed] at h ⊢
    split at h
    · next hsupported =>
      rw [if_pos hsupported]
      exact ⟨rfl, fun _ => ⟨impl, rfl, rfl⟩⟩
    · cases h

/-- A request that is rejected changes nothing. -/
theorem psimdjsonSetImplementation_rejected {name : Bytes} {s : Selection}
    (h : (psimdjsonSetImplementation impls name s).1 ≠ .ok) :
    (psimdjsonSetImplementation impls name s).2 = s := by
  unfold psimdjsonSetImplementation at h ⊢
  split at h
  · next hlocked => rw [if_pos hlocked]
  next hlocked =>
  rw [if_neg hlocked]
  split at h
  · exact absurd rfl h
  next hname =>
  rw [if_neg hname]
  cases hnamed : impls.named name with
  | none => rfl
  | some impl =>
    simp only [hnamed] at h ⊢
    split at h
    · exact absurd rfl h
    · next hsupported => rw [if_neg hsupported]

theorem psimdjsonSetImplementation_steps (name : Bytes) (s : Selection) :
    s.Steps (psimdjsonSetImplementation impls name s).2 := by
  by_cases h : (psimdjsonSetImplementation impls name s).1 = .ok
  · obtain ⟨hopen, hactive, -⟩ := psimdjsonSetImplementation_ok impls h
    refine ⟨fun _ => ⟨fun _ => hactive, fun _ => hactive⟩, fun _ hlocked => ?_⟩
    rw [hopen] at hlocked
    cases hlocked
  · rw [psimdjsonSetImplementation_rejected impls h]
    exact (Selection.Detects.refl s).steps

theorem Selection.rejectsFallback_active {s : Selection} (hs : s.Settled) :
    (s.rejectsFallback impls).2.active.isSome := by
  rw [rejectsFallback]
  split
  · next hexplicit => exact hs.2 hexplicit
  · rfl

/-- It makes no difference when the selection is locked. -/
theorem Selection.rejectsFallback_lock (s : Selection) :
    { s with locked := true }.rejectsFallback impls =
      ((s.rejectsFallback impls).1, { (s.rejectsFallback impls).2 with locked := true }) := by
  unfold rejectsFallback
  split <;> rfl

/-- What the gates leave: a locked selection, whose implementation is active and no fallback
that nobody asked for. -/
structure Selection.Gated (s s' : Selection) : Prop where
  locked : s'.locked = true
  active : s'.active = some (s.inUse impls)
  explicitSelection : s'.explicitSelection = s.explicitSelection
  allowed : s.explicitSelection = true ∨ (s.inUse impls).name ≠ fallback

theorem Selection.gated_lock {s : Selection} (hs : s.Settled)
    (h : (s.rejectsFallback impls).1 = false) :
    s.Gated impls { (s.rejectsFallback impls).2 with locked := true } := by
  obtain ⟨huse, hallowed⟩ := rejectsFallback_passed impls hs h
  rw [huse]
  exact ⟨rfl, rfl, rfl, hallowed⟩

theorem Selection.detects_gate {s : Selection} (hs : s.Settled) :
    s.Detects { (s.rejectsFallback impls).2 with locked := true } :=
  (s.rejectsFallback_detects impls).trans (detects_lock (rejectsFallback_active impls hs))

/-- **A parser is made behind the gate.** -/
theorem selectForParser_spec (maxCapacity maxDepth : Nat) (allocated : ErrorCode) {s : Selection}
    (hs : s.Settled) :
    let made := selectForParser impls maxCapacity maxDepth allocated s
    s.Detects made.2 ∧ ∀ impl, made.1 = .ok impl → impl = s.inUse impls ∧ s.Gated impls made.2 := by
  unfold selectForParser
  split
  · exact ⟨.refl s, fun impl h => by cases h⟩
  rw [Selection.rejectsFallback_lock]
  dsimp only
  have hdetects := Selection.detects_gate impls hs
  split
  · exact ⟨hdetects, fun impl h => by cases h⟩
  next hrejected =>
  -- by now it is active, and using it changes nothing
  have hgated := Selection.gated_lock impls hs (Bool.eq_false_of_not_eq_true hrejected)
  rw [Selection.use_of_active impls (by rw [hgated.active]; rfl)]
  split
  · exact ⟨hdetects, fun impl h => by cases h⟩
  · refine ⟨hdetects, fun impl h => ?_⟩
    cases h
    refine ⟨?_, hgated⟩
    rw [Selection.inUse, hgated.active, Option.getD_some]

/-- **A utility scans behind the gate.** -/
theorem utilityGate_spec {s : Selection} (hs : s.Settled) :
    s.Detects (utilityGate impls s).2 ∧
      ((utilityGate impls s).1 = .ok → s.Gated impls (utilityGate impls s).2) := by
  unfold utilityGate
  dsimp only
  split
  · exact ⟨s.rejectsFallback_detects impls, fun h => by cases h⟩
  next hrejected =>
  exact ⟨Selection.detects_gate impls hs,
    fun _ => Selection.gated_lock impls hs (Bool.eq_false_of_not_eq_true hrejected)⟩

end

/-! ## Utilities -/

/-- What a standalone utility is called with. -/
inductive UtilityCall where
  | minifyInto (dst src : WordSpan 64)
  | validateUTF8 (data : WordSpan 64)

/-- How a call fails. -/
inductive KernelError where
  | library
  | invalidOption
  | status (rc : ErrorCode)
  deriving DecidableEq

/-- How a call ends: it returns, or it panics. -/
inductive KernelResult where
  | ok
  | error (err : KernelError)
  | panicked
  deriving DecidableEq

/-- What `MinifyInto` looks at before it reserves anything. -/
def UtilityCall.preflight : UtilityCall → KernelResult
  | .minifyInto dst src =>
      if dst.len < src.len then .error (.status .bufferTooSmall)
      else if byteSlicesPartiallyOverlap dst src then .error .invalidOption
      else .ok
  | .validateUTF8 _ => .ok

/-- What `psimdjson_minify` and `psimdjson_validate_utf8` check before their gate. -/
def UtilityCall.arguments : UtilityCall → Except ErrorCode Unit
  | .minifyInto dst src => bufferChecks (passed src) (passed dst)
  | .validateUTF8 data =>
      if data.len ≠ 0 ∧ (passed data).start = 0 then .error .invalidArgument else .ok ()

theorem UtilityCall.arguments_error {call : UtilityCall} {rc : ErrorCode}
    (h : call.arguments = .error rc) : rc = .bufferTooSmall ∨ rc = .invalidArgument := by
  cases call with
  | minifyInto dst src => exact bufferChecks_error h
  | validateUTF8 data =>
    rw [arguments] at h
    split at h
    · exact Or.inr (Except.error.inj h).symm
    · cases h

/-- Whether anything is scanned behind the gate. -/
def UtilityCall.scans : UtilityCall → Bool
  | .minifyInto _ src => src.len ≠ 0
  | .validateUTF8 _ => true

end PureSimdjson.Kernels
