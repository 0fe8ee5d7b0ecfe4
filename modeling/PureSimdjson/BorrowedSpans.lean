import PureSimdjson.Ownership
import PureSimdjson.Threads

/-!
# Borrowed frame spans

Materializing an element hands Go a span of frames that lie in the document.  Goroutines may
materialize elements of one document, walk it with the accessors and close it, all at the same
time; a step is one operation on the document's lock or one native call.
-/
namespace PureSimdjson

open Effect Runs Threads

/-- What goroutines share of a document: `Doc`, the registry behind it, and
`psimdjson_doc::materialize_frames`. -/
structure SharedDoc (T W : Type) where
  mu : Option T
  handle : UInt64
  closed : Bool
  runtime : Runtime W
  frames : List Frame

/-- How `fastMaterializeElement` returns. -/
inductive FastResult where
  | busy
  | closed
  | status (rc : ErrorCode)
  | built
  | walked
  deriving DecidableEq

/-- Who asks `isClosed`: `fastMaterializeElement`, or an accessor, which a walk may call with
the lock of the document held. -/
inductive ClosedCaller where
  | fast (view : ValueView)
  | accessor (held : Bool)

/-- Where a goroutine is. -/
inductive DocThread where
  | idle
  -- `Doc.Close`
  | closeLock
  | closeCheck
  | closeFree (handle : UInt64)
  | closeFailed
  | closeCommit (handle : UInt64)
  | closeUnlock (handle : UInt64)
  | clearLiveDoc (handle : UInt64)
  -- `Doc.isClosed`
  | isClosed (caller : ClosedCaller)
  | isClosedRead (caller : ClosedCaller)
  -- `fastMaterializeElement`
  | fastTryLock (view : ValueView)
  | fastCheck (view : ValueView)
  | fastBuild (view : ValueView)
  | fastRead (frames : List Frame)
  | fastUnlock (result : FastResult)
  | fastReturn (result : FastResult)
  -- `materializeElementViaAccessors`
  | walk (held : Bool)
  | access (held : Bool)

/-- What a step shows. -/
inductive DocAction where
  | tau
  | tryLock (got : Bool)
  | native (event : Event)
  | readFrame (index : Nat) (frame : Option Frame)
  /-- `buildAnyFromFrames` has read all it reads. -/
  | finished
  | returned (result : FastResult)

/-- The calls an accessor makes. -/
def Call.Accesses : Call → Prop
  | .elementType _ | .elementIsNull _ | .elementGetBool _ | .elementGetInt64 _
  | .elementGetUint64 _ | .elementGetFloat64 _ | .elementGetString _ | .elementGetBigint _
  | .bytesFree _ _ | .arrayIterNew _ | .arrayIterNext _ | .objectIterNew _
  | .objectIterNext _ => True
  | _ => False

/-- Where `isClosed` returns to. -/
def ClosedCaller.next (caller : ClosedCaller) (closed : Bool) : DocThread :=
  match caller, closed with
  | .fast _, true => .fastReturn .closed
  | .fast view, false => .fastTryLock view
  | .accessor held, true => .walk held
  | .accessor held, false => .access held

section
variable {T W : Type} (native : Native W) (hasMaterializeBuild : Bool)

/-- **One step of a goroutine.** -/
inductive SpanStep (t : T) : SharedDoc T W → DocThread → DocAction → SharedDoc T W →
    DocThread → Prop where
  | close {s : SharedDoc T W} : SpanStep t s .idle .tau s .closeLock
  | closeLock {s : SharedDoc T W} (hmu : s.mu = none) :
      SpanStep t s .closeLock .tau { s with mu := some t } .closeCheck
  | closeAgain {s : SharedDoc T W} (hclosed : s.closed = true) :
      SpanStep t s .closeCheck .tau { s with mu := none } .idle
  | closeCheck {s : SharedDoc T W} (hclosed : s.closed = false) :
      SpanStep t s .closeCheck .tau s (.closeFree s.handle)
  | closeFreed {s : SharedDoc T W} {handle : UInt64} {reply : Reply} {runtime : Runtime W}
      (frames : List Frame) (h : Executes native s.runtime (.docFree handle, .ok reply) runtime) :
      SpanStep t s (.closeFree handle) (.native (.docFree handle, .ok reply))
        { s with runtime := runtime, frames := frames } (.closeCommit handle)
  | closeRefused {s : SharedDoc T W} {handle : UInt64} {rc : ErrorCode} {runtime : Runtime W}
      (h : Executes native s.runtime (.docFree handle, .error rc) runtime) :
      SpanStep t s (.closeFree handle) (.native (.docFree handle, .error rc))
        { s with runtime := runtime } .closeFailed
  | closeFailed {s : SharedDoc T W} : SpanStep t s .closeFailed .tau { s with mu := none } .idle
  | closeCommit {s : SharedDoc T W} {handle : UInt64} :
      SpanStep t s (.closeCommit handle) .tau { s with closed := true, handle := 0 }
        (.closeUnlock handle)
  | closeUnlock {s : SharedDoc T W} {handle : UInt64} :
      SpanStep t s (.closeUnlock handle) .tau { s with mu := none } (.clearLiveDoc handle)
  | clearLiveDoc {s : SharedDoc T W} {handle : UInt64} :
      SpanStep t s (.clearLiveDoc handle) .tau s .idle
  | isClosed {s : SharedDoc T W} {caller : ClosedCaller} (hmu : s.mu = none) :
      SpanStep t s (.isClosed caller) .tau { s with mu := some t } (.isClosedRead caller)
  | isClosedBusy {s : SharedDoc T W} {caller : ClosedCaller} :
      -- `TryLock` may fail at any time, and contention reports "not closed"
      SpanStep t s (.isClosed caller) .tau s (caller.next false)
  | isClosedRead {s : SharedDoc T W} {caller : ClosedCaller} :
      SpanStep t s (.isClosedRead caller) .tau { s with mu := none } (caller.next s.closed)
  | fast {s : SharedDoc T W} (view : ValueView) : SpanStep t s .idle .tau s (.isClosed (.fast view))
  | fastTryLock {s : SharedDoc T W} {view : ValueView} (hmu : s.mu = none) :
      SpanStep t s (.fastTryLock view) (.tryLock true) { s with mu := some t } (.fastCheck view)
  | fastBusy {s : SharedDoc T W} {view : ValueView} :
      SpanStep t s (.fastTryLock view) (.tryLock false) s (.fastReturn .busy)
  | fastClosed {s : SharedDoc T W} {view : ValueView} (hclosed : s.closed = true) :
      SpanStep t s (.fastCheck view) .tau s (.fastUnlock .closed)
  | fastOpen {s : SharedDoc T W} {view : ValueView} (hclosed : s.closed = false)
      (hbuild : hasMaterializeBuild = true) :
      SpanStep t s (.fastCheck view) .tau s (.fastBuild view)
  | fastFallback {s : SharedDoc T W} {view : ValueView} (hclosed : s.closed = false)
      (hbuild : hasMaterializeBuild = false) : SpanStep t s (.fastCheck view) .tau s (.walk true)
  | fastBuilt {s : SharedDoc T W} {view : ValueView} {frames : List Frame} {runtime : Runtime W}
      (h : Executes native s.runtime
        (.materializeBuild (some view), .ok (.frames frames)) runtime) :
      SpanStep t s (.fastBuild view)
        (.native (.materializeBuild (some view), .ok (.frames frames)))
        { s with runtime := runtime, frames := frames } (.fastRead frames)
  | fastFailed {s : SharedDoc T W} {view : ValueView} {rc : ErrorCode} {runtime : Runtime W}
      (frames : List Frame)
      (h : Executes native s.runtime (.materializeBuild (some view), .error rc) runtime) :
      SpanStep t s (.fastBuild view) (.native (.materializeBuild (some view), .error rc))
        { s with runtime := runtime, frames := frames } (.fastUnlock (.status rc))
  | fastRead {s : SharedDoc T W} {frames : List Frame} (index : Nat) :
      SpanStep t s (.fastRead frames) (.readFrame index s.frames[index]?) s (.fastRead frames)
  | fastFinish {s : SharedDoc T W} {frames : List Frame} :
      SpanStep t s (.fastRead frames) .finished s (.fastUnlock .built)
  | fastUnlock {s : SharedDoc T W} {result : FastResult} :
      SpanStep t s (.fastUnlock result) (.returned result) { s with mu := none } .idle
  | fastReturn {s : SharedDoc T W} {result : FastResult} :
      SpanStep t s (.fastReturn result) (.returned result) s .idle
  | walk {s : SharedDoc T W} : SpanStep t s .idle .tau s (.walk false)
  | walkOn {s : SharedDoc T W} {held : Bool} :
      SpanStep t s (.walk held) .tau s (.isClosed (.accessor held))
  | walkEnd {s : SharedDoc T W} : SpanStep t s (.walk false) .tau s .idle
  | walkEndHeld {s : SharedDoc T W} : SpanStep t s (.walk true) .tau s (.fastUnlock .walked)
  | access {s : SharedDoc T W} {held : Bool} {call : Call} {result : Except ErrorCode Reply}
      {runtime : Runtime W} (hcall : call.Accesses)
      (h : Executes native s.runtime (call, result) runtime) :
      SpanStep t s (.access held) (.native (call, result))
        { s with runtime := runtime } (.walk held)

/-! ## Who holds the lock -/

/-- The goroutine holds the lock of the document there. -/
def DocThread.Holding : DocThread → Prop
  | .closeCheck | .closeFree _ | .closeFailed | .closeCommit _ | .closeUnlock _ => True
  | .isClosed (.accessor held) | .walk held | .access held => held = true
  | .isClosedRead _ => True
  | .fastCheck _ | .fastBuild _ | .fastRead _ | .fastUnlock _ => True
  | _ => False

/-- What a goroutine can rely on where it is. -/
def DocThread.Relies (t : T) (s : SharedDoc T W) : DocThread → Prop
  | .fastRead frames => s.mu = some t ∧ s.frames = frames
  | .fastReturn result => result = .busy ∨ result = .closed
  -- a walk that holds the lock never gets it a second time
  | .isClosedRead (.accessor true) => False
  | x => x.Holding → s.mu = some t

/-- The native free of the document, or a build on it. -/
def DocAction.Disturbs : DocAction → Prop
  | .native (.docFree _, _) => True
  | .native (.materializeBuild _, _) => True
  | _ => False

variable {native hasMaterializeBuild} {t t' : T} {s s' : SharedDoc T W} {x x' y : DocThread}
  {a : DocAction}

theorem DocThread.Relies.mu (h : x.Relies t s) (hx : x.Holding) : s.mu = some t := by
  cases x with
  | fastRead frames => exact h.1
  | isClosedRead caller =>
    cases caller with
    | fast view => exact h hx
    | accessor held =>
      cases held with
      | false => exact h hx
      | true => exact h.elim
  | fastReturn result => exact hx.elim
  | _ => exact h hx

theorem not_disturbs_of_accesses {call : Call} {result : Except ErrorCode Reply}
    (h : call.Accesses) : ¬ (DocAction.native (call, result)).Disturbs := by
  cases call <;> first | exact fun hd => hd | exact h.elim

/-- A step does to the lock what a lock allows. -/
theorem SpanStep.lock (h : SpanStep native hasMaterializeBuild t s x a s' x')
    (hx : x.Relies t s) : LockStep t s.mu s'.mu := by
  cases h with
  | closeLock hmu => rw [hmu]; exact .acquire
  | isClosed hmu => rw [hmu]; exact .acquire
  | fastTryLock hmu => rw [hmu]; exact .acquire
  | closeAgain _ => rw [hx.mu trivial]; exact .release
  | closeFailed => rw [hx.mu trivial]; exact .release
  | closeUnlock => rw [hx.mu trivial]; exact .release
  | isClosedRead => rw [hx.mu trivial]; exact .release
  | fastUnlock => rw [hx.mu trivial]; exact .release
  | _ => exact .keep _

/-- Only with the lock does a goroutine free the document or build on it. -/
theorem SpanStep.holding_of_disturbs (h : SpanStep native hasMaterializeBuild t s x a s' x')
    (ha : a.Disturbs) : x.Holding := by
  cases h with
  | closeFreed _ _ => trivial
  | closeRefused _ => trivial
  | fastBuilt _ => trivial
  | fastFailed _ _ => trivial
  | access hcall _ => exact absurd ha (not_disturbs_of_accesses hcall)
  | _ => exact ha.elim

theorem SpanStep.holding_of_read {index : Nat} {frame : Option Frame}
    (h : SpanStep native hasMaterializeBuild t s x (.readFrame index frame) s' x') :
    x.Holding := by
  cases h with
  | fastRead _ => trivial

/-- Without it the frames stay what they are. -/
theorem SpanStep.frames_eq (h : SpanStep native hasMaterializeBuild t s x a s' x')
    (hx : ¬ x.Holding) : s'.frames = s.frames := by
  cases h with
  | closeFreed _ _ => exact absurd trivial hx
  | fastBuilt _ => exact absurd trivial hx
  | fastFailed _ _ => exact absurd trivial hx
  | _ => rfl

/-- After `isClosed` a goroutine holds the lock only if it did before. -/
theorem ClosedCaller.next_relies (caller : ClosedCaller) (closed : Bool)
    (hmu : caller = .accessor true → s.mu = some t) : (caller.next closed).Relies t s := by
  cases caller with
  | fast view =>
    cases closed with
    | true => exact Or.inr rfl
    | false => exact fun hx => hx.elim
  | accessor held =>
    cases closed with
    | true => exact fun hx : held = true => hmu (by rw [hx])
    | false => exact fun hx : held = true => hmu (by rw [hx])

/-- A step leaves the goroutine what it relies on. -/
theorem SpanStep.relies (h : SpanStep native hasMaterializeBuild t s x a s' x')
    (hx : x.Relies t s) : x'.Relies t s' := by
  cases h with
  | close => exact fun hx => hx.elim
  | closeLock _ => exact fun _ => rfl
  | closeAgain _ => exact fun hx => hx.elim
  | closeCheck _ => exact fun _ => hx trivial
  | closeFreed _ _ => exact fun _ => hx trivial
  | closeRefused _ => exact fun _ => hx trivial
  | closeFailed => exact fun hx => hx.elim
  | closeCommit => exact fun _ => hx trivial
  | closeUnlock => exact fun hx => hx.elim
  | clearLiveDoc => exact fun hx => hx.elim
  | @isClosed caller hmu =>
    cases caller with
    | fast view => exact fun _ => rfl
    | accessor held =>
      cases held with
      | false => exact fun _ => rfl
      | true =>
        rw [hx rfl] at hmu
        cases hmu
  | @isClosedBusy caller =>
    refine caller.next_relies false fun heq => ?_
    subst heq
    exact hx rfl
  | @isClosedRead caller =>
    refine caller.next_relies s.closed fun heq => ?_
    subst heq
    exact hx.elim
  | fast view => exact fun hx => hx.elim
  | fastTryLock _ => exact fun _ => rfl
  | fastBusy => exact Or.inl rfl
  | fastClosed _ => exact fun _ => hx trivial
  | fastOpen _ _ => exact fun _ => hx trivial
  | fastFallback _ _ => exact fun _ => hx trivial
  | fastBuilt _ => exact ⟨hx trivial, rfl⟩
  | fastFailed _ _ => exact fun _ => hx trivial
  | fastRead index => exact hx
  | fastFinish => exact fun _ => hx.1
  | fastUnlock => exact fun hx => hx.elim
  | fastReturn => exact fun hx => hx.elim
  | walk => exact fun hx : false = true => by cases hx
  | walkOn => exact hx
  | walkEnd => exact fun hx => hx.elim
  | walkEndHeld => exact fun _ => hx rfl
  | access _ _ => exact hx

/-- A step of one goroutine takes nothing away that another relies on. -/
theorem SpanStep.stable (h : SpanStep native hasMaterializeBuild t s x a s' x')
    (hx : x.Relies t s) (hne : t' ≠ t) (hy : y.Relies t' s) : y.Relies t' s' := by
  have hlock := (h.lock hx).other hne
  cases y with
  | fastRead frames =>
    obtain ⟨hmu, hframes⟩ := hy
    have hfree : ¬ x.Holding := by
      intro hholding
      rw [hx.mu hholding] at hmu
      exact hne (Option.some.inj hmu).symm
    exact ⟨hlock.mpr hmu, (h.frames_eq hfree).trans hframes⟩
  | fastReturn result => exact hy
  | isClosedRead caller =>
    cases caller with
    | fast view => exact fun hholding => hlock.mpr (hy hholding)
    | accessor held =>
      cases held with
      | false => exact fun hholding => hlock.mpr (hy hholding)
      | true => exact hy.elim
  | _ => exact fun hholding => hlock.mpr (hy hholding)

theorem doc_outline : Outline (SpanStep (T := T) native hasMaterializeBuild) (fun _ => True)
    (fun t s x => x.Relies t s) where
  keeps _ hx h := ⟨trivial, h.relies hx⟩
  stable hne _ hx h hy := h.stable hx hne hy

/-! ## While a span is read -/

variable [DecidableEq T] {c c' : Config T (SharedDoc T W) DocThread} {l : T × DocAction}

/-- Where the outline holds. -/
abbrev DocHolds (c : Config T (SharedDoc T W) DocThread) : Prop :=
  Holds (fun _ => True) (fun t s x => x.Relies t s) c

/-- A goroutine that reads its frames finds them, and nobody takes them away. -/
theorem reading_move (hc : DocHolds c) {frames : List Frame} (hreading : c.own t = .fastRead frames)
    (hmove : Threads.Moves (SpanStep native hasMaterializeBuild) c l c') :
    (¬ l.2.Disturbs ∧ ∀ index frame, l.2 = .readFrame index frame → frame = frames[index]?) ∧
      (l ≠ (t, .finished) → DocHolds c' ∧ c'.own t = .fastRead frames) := by
  have hheld : DocThread.Relies t c.shared (.fastRead frames) := hreading ▸ hc.own t
  have hnext := doc_outline.move hc hmove
  cases hmove with
  | @move s s' own t' x' a taken =>
    by_cases heq : t' = t
    · -- the reader itself
      subst heq
      have hown : own t' = .fastRead frames := hreading
      rw [hown] at taken
      cases taken with
      | fastRead index =>
        refine ⟨⟨id, fun index' frame hread => ?_⟩, fun _ => ⟨hnext, Function.update_self ..⟩⟩
        cases hread
        exact congrArg (·[index]?) hheld.2
      | fastFinish =>
        exact ⟨⟨id, fun _ _ hread => by cases hread⟩, fun hne => absurd rfl hne⟩
    · -- another goroutine does not hold the lock
      have hfree : ¬ (own t').Holding := by
        intro hholding
        have hmu := (hc.own t').mu hholding
        rw [hheld.1] at hmu
        exact heq (Option.some.inj hmu).symm
      refine ⟨⟨fun hdisturbs => hfree (taken.holding_of_disturbs hdisturbs),
        fun index frame hread => ?_⟩, fun _ => ⟨hnext, ?_⟩⟩
      · obtain rfl : a = .readFrame index frame := hread
        exact absurd taken.holding_of_read hfree
      · show Function.update own t' x' t = _
        rw [Function.update_of_ne (Ne.symm heq)]
        exact hreading

/-! ## Once the document is freed -/

/-- The goroutine has seen the document open, and will use it. -/
def DocThread.Using : DocThread → Prop
  | .fastBuild _ | .fastRead _ => True
  | .fastUnlock result => result ≠ .closed
  | .isClosed (.accessor held) | .walk held | .access held => held = true
  | _ => False

omit [DecidableEq T] in
theorem DocThread.Relies.mu_of_using (h : x.Relies t s) (hx : x.Using) : s.mu = some t := by
  refine h.mu ?_
  cases x with
  | isClosed caller =>
    cases caller with
    | fast view => exact hx.elim
    | accessor held => exact hx
  | walk held => exact hx
  | access held => exact hx
  | fastUnlock result => trivial
  | fastBuild view => trivial
  | fastRead frames => trivial
  | _ => exact hx.elim

/-- The document is closed, or about to be, and nobody uses it. -/
structure Gone (c : Config T (SharedDoc T W) DocThread) : Prop where
  closed : c.shared.closed = true ∨ ∃ t handle, c.own t = .closeCommit handle
  unused : ∀ t, ¬ (c.own t).Using

omit [DecidableEq T] in
/-- A document is used by those who found it open. -/
theorem SpanStep.using_of (h : SpanStep native hasMaterializeBuild t s x a s' x')
    (hx : ¬ x.Using) (hrelies : x.Relies t s) (hx' : x'.Using) :
    s.closed = false ∧ x.Holding ∧ ∀ handle, x ≠ .closeCommit handle := by
  cases h with
  | fastOpen hclosed _ => exact ⟨hclosed, trivial, fun _ h => by cases h⟩
  | fastFallback hclosed _ => exact ⟨hclosed, trivial, fun _ h => by cases h⟩
  | fastClosed _ => exact absurd rfl hx'
  | fastBuilt _ => exact absurd trivial hx
  | fastFailed _ _ => exact absurd trivial hx
  | fastRead _ => exact absurd trivial hx
  | fastFinish => exact absurd trivial hx
  | walk => cases hx'
  | walkOn => exact absurd hx' hx
  | walkEndHeld => exact absurd rfl hx
  | access _ _ => exact absurd hx' hx
  | @isClosedBusy caller =>
    cases caller with
    | fast view => exact hx'.elim
    | accessor held => exact absurd hx' hx
  | @isClosedRead caller =>
    cases caller with
    | fast view =>
      cases hclosed : s.closed <;> rw [hclosed] at hx' <;> exact hx'.elim
    | accessor held =>
      cases held with
      | true => exact hrelies.elim
      | false => cases hclosed : s.closed <;> rw [hclosed] at hx' <;> cases hx'
  | _ => exact hx'.elim

omit [DecidableEq T] in
/-- Nobody opens a document again. -/
theorem SpanStep.closed_mono (h : SpanStep native hasMaterializeBuild t s x a s' x')
    (hclosed : s.closed = true) : s'.closed = true := by
  cases h with
  | closeCommit => rfl
  | _ => exact hclosed

/-- What a goroutine may show once the document is gone. -/
def DocAction.Late : DocAction → Prop
  | .native (.materializeBuild _, _) => False
  | .readFrame _ _ => False
  | .returned result => result = .busy ∨ result = .closed
  | _ => True

omit [DecidableEq T] in
theorem SpanStep.late (h : SpanStep native hasMaterializeBuild t s x a s' x') (hx : ¬ x.Using)
    (hrelies : x.Relies t s) : a.Late := by
  cases h with
  | fastBuilt _ => exact absurd trivial hx
  | fastFailed _ _ => exact absurd trivial hx
  | fastRead _ => exact absurd trivial hx
  | fastUnlock => exact Or.inr (not_not.mp hx)
  | fastReturn => exact hrelies
  | @access held call result runtime hcall _ =>
    cases call <;> trivial
  | _ => trivial

theorem gone_move (hc : DocHolds c) (hgone : Gone c)
    (hmove : Threads.Moves (SpanStep native hasMaterializeBuild) c l c') :
    l.2.Late ∧ DocHolds c' ∧ Gone c' := by
  have hnext := doc_outline.move hc hmove
  cases hmove with
  | @move s s' own t x' a taken =>
    refine ⟨taken.late (hgone.unused t) (hc.own t), hnext, ?_, fun t' => ?_⟩
    · obtain hclosed | ⟨t', handle, hcommit⟩ := hgone.closed
      · exact Or.inl (taken.closed_mono hclosed)
      · by_cases heq : t = t'
        · subst heq
          have hown : own t = .closeCommit handle := hcommit
          rw [hown] at taken
          cases taken with
          | closeCommit => exact Or.inl rfl
        · exact Or.inr ⟨t', handle, (Function.update_of_ne (Ne.symm heq) ..).trans hcommit⟩
    · show ¬ (Function.update own t x' t').Using
      by_cases heq : t' = t
      · rw [heq, Function.update_self]
        intro husing
        obtain ⟨hopen, hholding, hother⟩ := taken.using_of (hgone.unused t) (hc.own t) husing
        obtain hclosed | ⟨t', handle, hcommit⟩ := hgone.closed
        · rw [show s.closed = true from hclosed] at hopen
          cases hopen
        · -- the one that closes it has the lock
          have hmu : s.mu = some t := (hc.own t).mu hholding
          have hcloser := hc.own t'
          rw [hcommit] at hcloser
          have hmu' : s.mu = some t' := hcloser trivial
          rw [hmu] at hmu'
          cases hmu'
          exact hother handle hcommit
      · rw [Function.update_of_ne heq]
        exact hgone.unused t'

/-- It is gone with the native free. -/
theorem gone_of_free (hc : DocHolds c) {handle : UInt64} {reply : Reply}
    (hmove : Threads.Moves (SpanStep native hasMaterializeBuild) c
      (t, .native (.docFree handle, .ok reply)) c') : DocHolds c' ∧ Gone c' := by
  have hnext := doc_outline.move hc hmove
  cases hmove with
  | @move s s' own t x' a taken =>
    refine ⟨hnext, ?_⟩
    have hmu : s.mu = some t := (hc.own t).mu (taken.holding_of_disturbs trivial)
    have hcommit : x' = .closeCommit handle := by
      generalize own t = x at taken
      cases taken with
      | closeFreed _ _ => rfl
      | access hcall _ => exact hcall.elim
    refine ⟨Or.inr ⟨t, handle, (Function.update_self ..).trans hcommit⟩, fun t' => ?_⟩
    show ¬ (Function.update own t x' t').Using
    by_cases heq : t' = t
    · rw [heq, Function.update_self, hcommit]
      exact id
    · rw [Function.update_of_ne heq]
      intro husing
      have hmu' : s.mu = some t' := (hc.own t').mu_of_using husing
      rw [hmu] at hmu'
      exact heq (Option.some.inj hmu').symm

/-! ## The fallback -/

/-- The goroutine walks the document with its lock held. -/
def DocThread.WalkHeld : DocThread → Prop
  | .walk held | .access held | .isClosed (.accessor held) => held = true
  | _ => False

omit [DecidableEq T] in
theorem SpanStep.walk_keeps (h : SpanStep native hasMaterializeBuild t s x a s' x')
    (hx : x.WalkHeld) (hmu : s.mu = some t) : s'.mu = some t := by
  cases h with
  | isClosed _ => rfl
  | isClosedBusy => exact hmu
  | walkOn => exact hmu
  | walkEnd => cases hx
  | walkEndHeld => exact hmu
  | access _ _ => exact hmu
  | _ => exact hx.elim

omit [DecidableEq T] in
theorem DocThread.Relies.mu_of_walk (h : x.Relies t s) (hx : x.WalkHeld) : s.mu = some t := by
  refine h.mu ?_
  cases x with
  | isClosed caller =>
    cases caller with
    | fast view => exact hx.elim
    | accessor held => exact hx
  | walk held => exact hx
  | access held => exact hx
  | _ => exact hx.elim

omit [DecidableEq T] in
/-- Wherever the walk is, it can go on at once, whoever else waits for what. -/
theorem walk_goes_on (native : Native W) (hasMaterializeBuild : Bool) (t : T)
    (s : SharedDoc T W) (hx : x.WalkHeld) :
    ∃ a s' x', SpanStep native hasMaterializeBuild t s x a s' x' := by
  cases x with
  | walk held => exact ⟨_, _, _, .walkOn⟩
  | isClosed caller => exact ⟨_, _, _, .isClosedBusy⟩
  | access held =>
    have hcall : Call.Accesses (.elementType none) := trivial
    cases hrun : (exec native (.elementType none)).run s.runtime with
    | ok reply runtime =>
      have hexec : Executes native s.runtime (.elementType none, .ok reply) runtime := hrun
      exact ⟨_, _, _, .access hcall hexec⟩
    | error rc runtime =>
      have hexec : Executes native s.runtime (.elementType none, .error rc) runtime := hrun
      exact ⟨_, _, _, .access hcall hexec⟩
  | _ => exact hx.elim

/-! ## Every run -/

/-- **Borrowed spans, in every run.**  From the build that returns a span to the end of
`buildAnyFromFrames` nobody frees the document or builds on it, and every frame that is read is
one of that build.  A walk that holds the lock keeps it and can always go on.  Once the
document is freed nobody builds or reads frames any more, and every call returns that it is
busy or closed; so does a call that fails to get the lock. -/
theorem borrowed_spans {s₀ : SharedDoc T W} {ls : List (T × DocAction)}
    (h : Run (Threads.Moves (SpanStep native hasMaterializeBuild)) ⟨s₀, fun _ => .idle⟩ ls c) :
    (∀ t view frames before during, ls = before ++
        (t, .native (.materializeBuild (some view), .ok (.frames frames))) :: during →
      (t, .finished) ∉ during → ∀ l ∈ during, ¬ l.2.Disturbs ∧
        ∀ index frame, l.2 = .readFrame index frame → frame = frames[index]?) ∧
    (∀ t, (c.own t).WalkHeld →
      (∃ a c', Threads.Moves (SpanStep native hasMaterializeBuild) c (t, a) c') ∧
      ∀ a c', Threads.Moves (SpanStep native hasMaterializeBuild) c (t, a) c' →
        c'.shared.mu = some t) ∧
    (∀ t handle reply before after,
      ls = before ++ (t, .native (.docFree handle, .ok reply)) :: after → ∀ l ∈ after, l.2.Late) ∧
    (∀ t a before during rest,
      ls = before ++ (t, .tryLock false) :: (during ++ (t, a) :: rest) →
      (∀ l ∈ during, l.1 ≠ t) → a = .returned .busy) := by
  have hstart : DocHolds (⟨s₀, fun _ => .idle⟩ : Config T (SharedDoc T W) DocThread) :=
    ⟨trivial, fun t => fun hx => hx.elim⟩
  refine ⟨?_, ?_, ?_, ?_⟩
  · intro t view frames before during hls hdone
    rw [hls] at h
    obtain ⟨c₁, c₂, hbefore, hbuild, hduring⟩ := h.at_move
    have hc₁ := doc_outline.run hbefore hstart
    have hreading : DocHolds c₂ ∧ c₂.own t = .fastRead frames := by
      refine ⟨doc_outline.move hc₁ hbuild, ?_⟩
      cases hbuild with
      | @move s s' own t x' a taken =>
        refine (Function.update_self ..).trans ?_
        generalize own t = x at taken
        cases taken with
        | fastBuilt _ => rfl
        | access hcall _ => exact hcall.elim
    exact hduring.labels_until (I := fun c => DocHolds c ∧ c.own t = .fastRead frames)
      (E := fun l => l = (t, .finished))
      (fun c l c' hc hmove => reading_move hc.1 hc.2 hmove) hreading
      fun l hl heq => hdone (heq ▸ hl)
  · intro t hx
    have hmu := doc_outline.run h hstart
    refine ⟨?_, fun a c' hmove => ?_⟩
    · obtain ⟨a, s', x', taken⟩ := walk_goes_on native hasMaterializeBuild t c.shared hx
      exact ⟨a, _, .move taken⟩
    · cases hmove with
      | @move s s' own t x' a taken => exact taken.walk_keeps hx ((hmu.own t).mu_of_walk hx)
  · intro t handle reply before after hls
    rw [hls] at h
    obtain ⟨c₁, c₂, hbefore, hfree, hafter⟩ := h.at_move
    have hgone := gone_of_free (doc_outline.run hbefore hstart) hfree
    refine hafter.labels_until (I := fun c => DocHolds c ∧ Gone c) (E := fun _ => False) ?_
      hgone fun _ _ => id
    intro c l c' hc hmove
    obtain ⟨hlate, hnext⟩ := gone_move hc.1 hc.2 hmove
    exact ⟨hlate, fun _ => hnext⟩
  · intro t a before during rest hls hothers
    rw [hls] at h
    obtain ⟨c₁, c₂, -, htry, hrest⟩ := h.at_move
    obtain ⟨c₃, c₄, hduring, hnext, -⟩ := hrest.at_move
    -- nobody else moves it, so it is still about to return
    have hown : c₃.own t = .fastReturn .busy := by
      rw [own_of_others hduring hothers]
      cases htry with
      | @move s s' own t x' a taken =>
        refine (Function.update_self ..).trans ?_
        generalize own t = x at taken
        cases taken with
        | fastBusy => rfl
    cases hnext with
    | @move s s' own t x' a taken =>
      have hown : own t = .fastReturn .busy := hown
      rw [hown] at taken
      cases taken with
      | fastReturn => rfl

end

/-! ## A sample -/

def sampleView : ValueView := ⟨sampleDoc, 1, rootViewTag, ValueKind.object.code, 0⟩

def framesOf (result : Except ErrorCode Reply) : Option (List Frame) :=
  match result with
  | .ok (.frames frames) => some frames
  | _ => none

theorem eq_of_framesOf {result : Except ErrorCode Reply} {frames : List Frame}
    (h : framesOf result = some frames) : result = .ok (.frames frames) := by
  unfold framesOf at h
  split at h
  · cases h
    rfl
  · cases h

def sampleFrames : List Frame :=
  ((framesOf (outcome sampleNative sampleState (.materializeBuild (some sampleView))).1)).getD []

/-- The frames of the sample document are built. -/
theorem sampleFrames_built : Executes sampleNative sampleState
    (.materializeBuild (some sampleView), .ok (.frames sampleFrames))
    (outcome sampleNative sampleState (.materializeBuild (some sampleView))).2 := by
  have hsome : (framesOf (outcome sampleNative sampleState
      (.materializeBuild (some sampleView))).1).isSome = true := by decide +kernel
  obtain ⟨frames, hframes⟩ := Option.isSome_iff_exists.mp hsome
  rw [sampleFrames, hframes, Option.getD_some, ← eq_of_framesOf hframes]
  exact executes_outcome _ _ _

/-- While one goroutine reads its frames, another one tries to build. -/
def sampleMeanwhile : List (Bool × DocAction) :=
  [(false, .tau), (false, .tau), (false, .tryLock false), (false, .returned .busy),
    (true, .readFrame 0 sampleFrames[0]?)]

def sampleBuild : List (Bool × DocAction) :=
  [(true, .tau), (true, .tau), (true, .tau), (true, .tryLock true), (true, .tau)] ++
    (true, .native (.materializeBuild (some sampleView), .ok (.frames sampleFrames))) ::
      sampleMeanwhile

theorem sampleBuild_run : ∃ c, Run (Threads.Moves (SpanStep sampleNative true))
    (⟨⟨none, sampleDoc, false, sampleState, []⟩, fun _ => .idle⟩ :
      Config Bool (SharedDoc Bool SampleWorld) DocThread) sampleBuild c := by
  refine ⟨_, .cons (.move (.fast sampleView)) <| .cons (.move (.isClosed rfl)) <|
    .cons (.move .isClosedRead) <| .cons (.move (.fastTryLock rfl)) <|
    .cons (.move (.fastOpen rfl rfl)) <| .cons (.move (.fastBuilt sampleFrames_built)) <|
    .cons (.move (.fast sampleView)) <| .cons (.move .isClosedBusy) <|
    .cons (.move .fastBusy) <| .cons (.move .fastReturn) <| .cons (.move (.fastRead 0)) <| .nil _⟩

theorem borrowed_spans_sample : ¬ ∃ l ∈ sampleMeanwhile, l.2.Disturbs := by
  obtain ⟨c, hrun⟩ := sampleBuild_run
  have hdone : (true, DocAction.finished) ∉ sampleMeanwhile := by
    rw [sampleMeanwhile]
    simp
  rintro ⟨l, hl, hdisturbs⟩
  exact ((borrowed_spans hrun).1 true sampleView sampleFrames _ sampleMeanwhile rfl hdone l
    hl).1 hdisturbs

end PureSimdjson
