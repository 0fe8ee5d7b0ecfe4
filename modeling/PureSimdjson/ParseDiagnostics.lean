import PureSimdjson.DepthBoundary

/-!
# Parse diagnostics

A native parser keeps the message of its last failed parse and, where it could be found,
the offset of the error.  If the document parser refuses the input with a syntax error, the
input is replayed with the on-demand parser, at most twice, to find where the error is.

What the upstream parsers do is given as answers, one set for each parse: any error code,
any pointer as a location, and an exception at any point.  An address is a machine word.
-/
namespace PureSimdjson

open Effect

/-! ## Upstream -/

/-- A C++ exception, by the handler that catches it. -/
inductive CppException where
  | badAlloc
  | std (what : Bytes)
  | unknown
  deriving DecidableEq

/-- What an upstream call comes to: it may throw, and it may return an error code. -/
abbrev UpstreamResult (α : Type) := Except CppException (Except SimdjsonError α)

/-- The answers of one replay parser, in the order of the calls. -/
structure ReplayAnswers (V : Type) where
  construct : Except CppException Unit
  allocate : UpstreamResult Unit
  iterate : UpstreamResult Unit
  rawJson : UpstreamResult Unit
  /-- The document, for the recursive walk, and an exception in the middle of it. -/
  document : V
  accessors : OnDemand V
  walkThrows : Option CppException
  atEnd : Except CppException Bool
  /-- The location, by how far it is from the input, around the address space. -/
  currentLocation : Except SimdjsonError UInt64

/-- The answers of upstream code during one parse.  `setMessage` and `captureMessage` say
whether there is memory for the message of a failure and of an exception. -/
structure ParseAnswers (V : Type) where
  newDoc : Except CppException Unit
  parse : UpstreamResult Unit
  setMessage : Bool
  captureMessage : Bool
  raw : ReplayAnswers V
  recursive : ReplayAnswers V

/-- Where the input lies, and where the new document is put. -/
structure Placement where
  inputAddr : UInt64
  doc : Nat

/-- What upstream code is asked to do. -/
inductive UpstreamCall where
  | parseIntoDocument (input : Bytes) (inputLen : Nat)
  | newReplayParser (maxCapacity : Nat)
  | allocate (inputLen : Nat) (maxDepth : UInt32)
  | iterate (input : Bytes) (inputLen allocated : Nat)
  | rawJson
  | walk (maxDepth : UInt32)
  deriving DecidableEq

/-! ## The native parser -/

/-- How a location lies to the input. -/
inductive PointerRelation where
  | notQueried
  | inBounds
  | atEnd
  | outOfRange
  | addressOverflow
  deriving DecidableEq

/-- The two replay passes. -/
inductive ReplayPass where
  | rawJson
  | recursive
  deriving DecidableEq

/-- `psimdjson_test_replay_observation`. -/
structure ReplayObservation where
  primaryError : Except SimdjsonError Unit
  replayError : Except SimdjsonError Unit
  locationError : Except SimdjsonError Unit
  replayPass : Option ReplayPass
  pointerRelation : PointerRelation
  passCount : Nat
  allocationCount : Nat
  iterateCount : Nat
  derivedOffset : UInt64
  firstMaxCapacity : Nat
  secondMaxCapacity : Nat
  firstMaxDepth : UInt32
  secondMaxDepth : UInt32

/-- `UINT64_MAX`: no offset. -/
def noOffset : UInt64 := UInt64.ofNat (2 ^ 64 - 1)

/-- `reset_replay_observation`. -/
def ReplayObservation.reset : ReplayObservation where
  primaryError := .error .uninitialized
  replayError := .error .uninitialized
  locationError := .error .uninitialized
  replayPass := none
  pointerRelation := .notQueried
  passCount := 0
  allocationCount := 0
  iterateCount := 0
  derivedOffset := noOffset
  firstMaxCapacity := 0
  secondMaxCapacity := 0
  firstMaxDepth := 0
  secondMaxDepth := 0

/-- `psimdjson_parser`, without the upstream parser in it. -/
structure NativeParser where
  lastError : Bytes
  lastErrorOffset : UInt64
  lastErrorHasOffset : Bool
  replayObservation : ReplayObservation
  maxCapacity : Nat
  maxDepth : UInt32

/-- A parser that has parsed nothing. -/
def NativeParser.new (maxCapacity : Nat) (maxDepth : UInt32) : NativeParser :=
  ⟨[], noOffset, false, .reset, maxCapacity, maxDepth⟩

/-- `clear_last_error`. -/
def clearLastError (parser : NativeParser) : NativeParser :=
  { parser with lastError := [], lastErrorOffset := noOffset, lastErrorHasOffset := false }

/-- A parser during a parse, and what upstream code was asked so far. -/
structure ParseState where
  parser : NativeParser
  asked : List UpstreamCall

/-- C++ code on a parser. -/
abbrev ParserM := EStateM CppException ParseState

def modifyParser (change : NativeParser → NativeParser) : ParserM Unit :=
  modify fun s => { s with parser := change s.parser }

def observe (change : ReplayObservation → ReplayObservation) : ParserM Unit :=
  modifyParser fun parser => { parser with replayObservation := change parser.replayObservation }

def ask (call : UpstreamCall) : ParserM Unit :=
  modify fun s => { s with asked := s.asked ++ [call] }

/-! ## Messages -/

/-- `set_last_error_message`: an empty message takes no memory. -/
def setLastErrorMessage (memory : Bool) (message : Bytes) : ParserM Unit := do
  require (message = [] ∨ memory) .badAlloc
  modifyParser fun parser =>
    { parser with
      lastError := message, lastErrorOffset := noOffset, lastErrorHasOffset := false }

/-- What `capture_parser_exception` reports. -/
def CppException.message : CppException → Bytes
  | .badAlloc => "std::bad_alloc".toUTF8.toList
  | .std what => what
  | .unknown => "unknown C++ exception".toUTF8.toList

/-- `capture_parser_exception`. -/
def captureParserException (memory : Bool) (error : CppException) : ParserM Unit :=
  tryCatch (setLastErrorMessage memory error.message) fun _ => pure ()

/-! ## Locations -/

/-- `DiagnosticReplayLimits`. -/
structure DiagnosticReplayLimits where
  maxCapacity : Nat
  maxDepth : UInt32

/-- `ReplayDisposition`. -/
inductive ReplayDisposition where
  | valid
  | stopped
  deriving DecidableEq

/-- `ProvenDiagnosticOffset`. -/
structure ProvenDiagnosticOffset where
  offset : UInt64
  known : Bool
  pointerRelation : PointerRelation

/-- `checked_diagnostic_offset`. -/
def checkedDiagnosticOffset (inputAddr inputLen locationAddr : UInt64) : ProvenDiagnosticOffset :=
  let maxAddr := UInt64.ofNat (2 ^ 64 - 1)
  if inputLen > maxAddr - inputAddr then ⟨noOffset, false, .addressOverflow⟩
  else
    let endAddr := inputAddr + inputLen
    if locationAddr < inputAddr ∨ locationAddr > endAddr then ⟨noOffset, false, .outOfRange⟩
    else if locationAddr = endAddr then ⟨noOffset, false, .atEnd⟩
    else
      let delta := locationAddr - inputAddr
      if delta > noOffset then ⟨noOffset, false, .outOfRange⟩
      else ⟨delta, true, .inBounds⟩

/-- `is_ordinary_diagnostic_error`. -/
def isOrdinaryDiagnosticError (error : SimdjsonError) : Bool :=
  mapError error = .invalidJson

/-- `record_replay_pass`. -/
def recordReplayPass (pass : ReplayPass) (limits : DiagnosticReplayLimits) : ParserM Unit :=
  observe fun o =>
    let o := { o with replayPass := some pass, passCount := o.passCount + 1 }
    match pass with
    | .rawJson =>
      { o with firstMaxCapacity := limits.maxCapacity, firstMaxDepth := limits.maxDepth }
    | .recursive =>
      { o with secondMaxCapacity := limits.maxCapacity, secondMaxDepth := limits.maxDepth }

section
variable {V : Type} (padding : Nat) (errorMessage : SimdjsonError → Bytes)

/-- `record_replay_failure`. -/
def recordReplayFailure (answers : ReplayAnswers V) (inputAddr : UInt64) (inputLen : Nat)
    (error : SimdjsonError) (pass : ReplayPass) : ParserM ReplayDisposition := do
  observe fun o => { o with replayPass := some pass, replayError := .error error }
  if !isOrdinaryDiagnosticError error then pure .stopped
  else do
    observe fun o => { o with locationError := answers.currentLocation.map fun _ => () }
    match answers.currentLocation with
    | .error _ => pure .stopped
    | .ok distance =>
      let location := inputAddr + distance
      if location = 0 then pure .stopped
      else do
        let proven := checkedDiagnosticOffset inputAddr (UInt64.ofNat inputLen) location
        observe fun o =>
          { o with pointerRelation := proven.pointerRelation, derivedOffset := proven.offset }
        if proven.known then
          modifyParser fun parser =>
            { parser with lastErrorOffset := proven.offset, lastErrorHasOffset := true }
        pure .stopped

/-- A replay that stops before it has read anything. -/
def stopReplay (error : SimdjsonError) : ParserM ReplayDisposition := do
  observe fun o => { o with replayError := .error error }
  pure .stopped

/-- What both replay passes do; `consume` reads the document. -/
def replayLocation (pass : ReplayPass) (consume : ParserM (Except SimdjsonError Unit))
    (answers : ReplayAnswers V) (inputAddr : UInt64) (input : Bytes) (inputLen : Nat)
    (limits : DiagnosticReplayLimits) : ParserM ReplayDisposition := do
  if limits.maxDepth.toNat > maxSupportedDepth then stopReplay .depthError
  else if limits.maxCapacity > 2 ^ 64 - 1 then stopReplay .capacity
  else do
    ask (.newReplayParser limits.maxCapacity)
    ofExcept answers.construct
    recordReplayPass pass limits
    observe fun o => { o with allocationCount := o.allocationCount + 1 }
    ask (.allocate inputLen limits.maxDepth)
    match ← ofExcept answers.allocate with
    | .error error => stopReplay error
    | .ok () =>
      if inputLen > 2 ^ 64 - 1 - padding then stopReplay .outOfCapacity
      else do
        observe fun o => { o with iterateCount := o.iterateCount + 1 }
        ask (.iterate input inputLen (inputLen + padding))
        match ← ofExcept answers.iterate with
        | .error error => stopReplay error
        | .ok () =>
          match ← consume with
          | .error error => recordReplayFailure answers inputAddr inputLen error pass
          | .ok () =>
            if ← ofExcept answers.atEnd then do
              observe fun o => { o with replayError := .ok () }
              pure .valid
            else recordReplayFailure answers inputAddr inputLen .trailingContent pass

/-- `replay_raw_json_location`. -/
def replayRawJsonLocation (answers : ReplayAnswers V) : (inputAddr : UInt64) → (input : Bytes) →
    (inputLen : Nat) → (limits : DiagnosticReplayLimits) → ParserM ReplayDisposition :=
  replayLocation padding .rawJson
    (do
      ask .rawJson
      ofExcept answers.rawJson)
    answers

/-- `replay_recursive_location`. -/
def replayRecursiveLocation (answers : ReplayAnswers V) (inputAddr : UInt64) (input : Bytes)
    (inputLen : Nat) (limits : DiagnosticReplayLimits) : ParserM ReplayDisposition :=
  replayLocation padding .recursive
    (do
      ask (.walk limits.maxDepth)
      match answers.walkThrows with
      | some error => throw error
      | none =>
        pure (consumeOndemandValue answers.accessors answers.document 0 limits.maxDepth.toNat))
    answers inputAddr input inputLen limits

/-- `capture_diagnostic_location`. -/
def captureDiagnosticLocation (answers : ParseAnswers V) (inputAddr : UInt64) (input : Bytes)
    (inputLen : Nat) (primaryError : SimdjsonError) : ParserM Unit := do
  observe fun _ => { ReplayObservation.reset with primaryError := .error primaryError }
  if isOrdinaryDiagnosticError primaryError then do
    let parser ← ParseState.parser <$> get
    let limits : DiagnosticReplayLimits := ⟨parser.maxCapacity, parser.maxDepth⟩
    let disposition ←
      replayRawJsonLocation padding answers.raw inputAddr input inputLen limits
    if disposition = .valid then do
      let _ ← replayRecursiveLocation padding answers.recursive inputAddr input inputLen limits

/-- The body of `psimdjson_parser_parse`. -/
def parseBody (answers : ParseAnswers V) (place : Placement) (input : Bytes) (inputLen : Nat) :
    ParserM (Except ErrorCode Nat) := do
  observe fun _ => .reset
  ofExcept answers.newDoc
  ask (.parseIntoDocument input inputLen)
  match ← ofExcept answers.parse with
  | .error error => do
    setLastErrorMessage answers.setMessage (errorMessage error)
    captureDiagnosticLocation padding answers place.inputAddr input inputLen error
    pure (.error (mapError error))
  | .ok () => do
    observe fun o => { o with primaryError := .ok () }
    modifyParser clearLastError
    pure (.ok place.doc)

/-- `psimdjson_parser_parse`, with its handlers.  The parser is there and the buffer is not
empty. -/
def psimdjsonParserParse (answers : ParseAnswers V) (place : Placement) (input : Bytes)
    (inputLen : Nat) (s : ParseState) : Except ErrorCode Nat × ParseState :=
  match (parseBody padding errorMessage answers place input inputLen).run s with
  | .ok result s' => (result, s')
  | .error error s' =>
    match (captureParserException answers.captureMessage error).run s' with
    | .ok () s'' => (.error .cppException, s'')
    | .error _ s'' => (.error .cppException, s'')

end

/-! ## What each part leaves behind -/

section
variable {Q : Unit → ParseState → Prop} {E : CppException → ParseState → Prop} {s : ParseState}

@[simp] theorem wp_modifyParser (change : NativeParser → NativeParser) :
    wp (modifyParser change) Q E s ↔ Q () { s with parser := change s.parser } := Iff.rfl

@[simp] theorem wp_observe (change : ReplayObservation → ReplayObservation) :
    wp (observe change) Q E s ↔
      Q () { s with
        parser := { s.parser with replayObservation := change s.parser.replayObservation } } :=
  Iff.rfl

@[simp] theorem wp_ask (call : UpstreamCall) :
    wp (ask call) Q E s ↔ Q () { s with asked := s.asked ++ [call] } := Iff.rfl

end

namespace NativeParser

/-- No offset is known. -/
structure Unlocated (parser : NativeParser) : Prop where
  offset : parser.lastErrorOffset = noOffset
  hasOffset : parser.lastErrorHasOffset = false

/-- The offset is known, and lies within the input. -/
structure Located (inputLen : Nat) (parser : NativeParser) : Prop where
  offset : parser.lastErrorOffset.toNat < inputLen
  hasOffset : parser.lastErrorHasOffset = true

/-- Only the observation, which tests look at, is another one. -/
def Shown (parser parser' : NativeParser) : Prop :=
  parser' = { parser with replayObservation := parser'.replayObservation }

end NativeParser

/-- **An offset that is proven lies within the input.** -/
theorem checkedDiagnosticOffset_lt {inputAddr inputLen locationAddr : UInt64}
    (h : (checkedDiagnosticOffset inputAddr inputLen locationAddr).known = true) :
    (checkedDiagnosticOffset inputAddr inputLen locationAddr).offset.toNat < inputLen.toNat := by
  rw [checkedDiagnosticOffset] at h ⊢
  dsimp only at h ⊢
  by_cases hoverflow : inputLen > UInt64.ofNat (2 ^ 64 - 1) - inputAddr
  · rw [if_pos hoverflow] at h
    cases h
  · rw [if_neg hoverflow] at h ⊢
    by_cases hrange : locationAddr < inputAddr ∨ locationAddr > inputAddr + inputLen
    · rw [if_pos hrange] at h
      cases h
    · rw [if_neg hrange] at h ⊢
      by_cases hend : locationAddr = inputAddr + inputLen
      · rw [if_pos hend] at h
        cases h
      · rw [if_neg hend] at h ⊢
        by_cases hdelta : locationAddr - inputAddr > noOffset
        · rw [if_pos hdelta] at h
          cases h
        · rw [if_neg hdelta]
          dsimp only
          -- the input does not run over the end of the address space, so nothing wraps
          have hmax : (UInt64.ofNat (2 ^ 64 - 1)).toNat = 2 ^ 64 - 1 := rfl
          have hin := inputAddr.toNat_lt
          have hlen := inputLen.toNat_lt
          have hloc := locationAddr.toNat_lt
          simp only [gt_iff_lt, UInt64.lt_iff_toNat_lt, ← UInt64.toNat_inj, UInt64.toNat_add,
            UInt64.toNat_sub, hmax] at *
          omega

/-- What a replay pass asks once its parser is there. -/
def WithinLimits (limits : DiagnosticReplayLimits) : UpstreamCall → Prop
  | .parseIntoDocument _ _ => False
  | .newReplayParser _ => False
  | .allocate _ maxDepth => maxDepth = limits.maxDepth
  | .iterate _ _ _ => True
  | .rawJson => True
  | .walk maxDepth => maxDepth = limits.maxDepth

/-- One replay pass: a parser of this capacity, asked within these limits. -/
def IsPass (limits : DiagnosticReplayLimits) (calls : List UpstreamCall) : Prop :=
  ∃ rest, calls = .newReplayParser limits.maxCapacity :: rest ∧ ∀ c ∈ rest, WithinLimits limits c

/-- A replay pass went through without an error. -/
structure ReplayAnswers.FoundNone {V : Type} (answers : ReplayAnswers V) : Prop where
  construct : answers.construct = .ok ()
  allocate : answers.allocate = .ok (.ok ())
  iterate : answers.iterate = .ok (.ok ())
  atEnd : answers.atEnd = .ok true

/-- From `s` on, `calls` were asked, and the limits are the same. -/
structure Asked (calls : List UpstreamCall) (s s' : ParseState) : Prop where
  maxCapacity : s'.parser.maxCapacity = s.parser.maxCapacity
  maxDepth : s'.parser.maxDepth = s.parser.maxDepth
  asked : s'.asked = s.asked ++ calls

/-- The same, and no offset is known. -/
structure Begun (calls : List UpstreamCall) (s s' : ParseState) : Prop extends
  Asked calls s s' where
  unlocated : s'.parser.Unlocated

/-- The same, and an offset that is known lies within the input. -/
structure Ended (inputLen : Nat) (calls : List UpstreamCall) (s s' : ParseState) : Prop extends
  Asked calls s s' where
  located : s'.parser.Unlocated ∨ s'.parser.Located inputLen

section
variable {calls : List UpstreamCall} {s s' : ParseState} {inputLen : Nat}

theorem Begun.start (h : s.parser.Unlocated) : Begun [] s s :=
  ⟨⟨rfl, rfl, (List.append_nil _).symm⟩, h⟩

theorem Begun.ended (h : Begun calls s s') : Ended inputLen calls s s' :=
  ⟨h.toAsked, Or.inl h.unlocated⟩

variable {Q : Unit → ParseState → Prop} {E : CppException → ParseState → Prop}

theorem Begun.wp_observe (h : Begun calls s s') {change : ReplayObservation → ReplayObservation}
    (hnext : ∀ s'', Begun calls s s'' → Q () s'') : wp (observe change) Q E s' :=
  hnext _ ⟨⟨h.maxCapacity, h.maxDepth, h.asked⟩, ⟨h.unlocated.offset, h.unlocated.hasOffset⟩⟩

theorem Begun.wp_ask (h : Begun calls s s') {call : UpstreamCall}
    (hnext : ∀ s'', Begun (calls ++ [call]) s s'' → Q () s'') : wp (ask call) Q E s' := by
  refine hnext _ ⟨⟨h.maxCapacity, h.maxDepth, ?_⟩, h.unlocated⟩
  show s'.asked ++ [call] = _
  rw [h.asked, List.append_assoc]

theorem Begun.wp_locate (h : Begun calls s s') {offset : UInt64} (hoffset : offset.toNat < inputLen)
    (hnext : ∀ s'', Ended inputLen calls s s'' → Q () s'') :
    wp (modifyParser fun parser =>
      { parser with lastErrorOffset := offset, lastErrorHasOffset := true }) Q E s' := by
  obtain ⟨⟨maxCapacity, maxDepth, asked⟩, -⟩ := h
  obtain ⟨parser, calls'⟩ := s'
  cases parser
  exact hnext _ ⟨⟨maxCapacity, maxDepth, asked⟩, Or.inr ⟨hoffset, rfl⟩⟩

end

section
variable {V : Type} (padding : Nat) (answers : ReplayAnswers V)
  (inputAddr : UInt64) {inputLen : Nat}
  {calls : List UpstreamCall} {s₀ s : ParseState}

/-- Recording a failure sets an offset within the input, or none. -/
theorem wp_recordReplayFailure (error : SimdjsonError) (pass : ReplayPass)
    (h : Begun calls s₀ s) :
    wp (recordReplayFailure answers inputAddr inputLen error pass)
      (fun disposition s' => disposition = .stopped ∧ Ended inputLen calls s₀ s')
      (fun _ _ => False) s := by
  rw [recordReplayFailure, wp_bind]
  refine h.wp_observe fun s h => ?_
  rw [wp_ite]
  refine ⟨fun _ => ⟨rfl, h.ended⟩, fun _ => ?_⟩
  rw [wp_bind]
  refine h.wp_observe fun s h => ?_
  cases answers.currentLocation with
  | error e => exact ⟨rfl, h.ended⟩
  | ok distance =>
    dsimp only
    rw [wp_ite]
    refine ⟨fun _ => ⟨rfl, h.ended⟩, fun _ => ?_⟩
    rw [wp_bind]
    refine h.wp_observe fun s h => ?_
    rw [wp_ite]
    refine ⟨fun hknown => ?_, fun _ => ⟨rfl, h.ended⟩⟩
    have hlt := checkedDiagnosticOffset_lt hknown
    generalize checkedDiagnosticOffset inputAddr (UInt64.ofNat inputLen) (inputAddr + distance) =
      proven at hlt
    rw [UInt64.toNat_ofNat'] at hlt
    rw [wp_bind]
    exact h.wp_locate (lt_of_lt_of_le hlt (Nat.mod_le inputLen _)) fun s hended => ⟨rfl, hended⟩

/-- What a replay pass may leave behind: it asked nothing more, or one pass. -/
def PassEnded (limits : DiagnosticReplayLimits) (inputLen : Nat) (calls : List UpstreamCall)
    (s₀ : ParseState) (sound : Prop) (disposition : ReplayDisposition) (s : ParseState) : Prop :=
  ∃ more, (more = [] ∨ IsPass limits more) ∧ Ended inputLen (calls ++ more) s₀ s ∧
    (disposition = .valid → IsPass limits more ∧ Begun (calls ++ more) s₀ s ∧ sound)

/-- What it leaves behind when an exception passes through it. -/
def PassThrown (limits : DiagnosticReplayLimits) (calls : List UpstreamCall)
    (s₀ : ParseState) (s : ParseState) : Prop :=
  ∃ more, (more = [] ∨ IsPass limits more) ∧ Begun (calls ++ more) s₀ s

theorem wp_stopReplay {limits : DiagnosticReplayLimits} {sound : Prop} (error : SimdjsonError)
    {more : List UpstreamCall} (hmore : more = [] ∨ IsPass limits more)
    (h : Begun (calls ++ more) s₀ s) :
    wp (stopReplay error) (PassEnded limits inputLen calls s₀ sound)
      (fun _ => PassThrown limits calls s₀) s := by
  rw [stopReplay, wp_bind]
  refine h.wp_observe fun s h => ?_
  exact ⟨more, hmore, h.ended, fun hvalid => by cases hvalid⟩

/-- **What a replay pass leaves behind**, if all that `consume` does is ask one thing. -/
theorem wp_replayLocation (pass : ReplayPass) {consume : ParserM (Except SimdjsonError Unit)}
    (call : UpstreamCall) {sound : Prop} (input : Bytes) {limits : DiagnosticReplayLimits}
    (hcall : WithinLimits limits call)
    (hconsume : ∀ s, wp consume
      (fun result s' => s' = { s with asked := s.asked ++ [call] } ∧ (result = .ok () → sound))
      (fun _ s' => s' = { s with asked := s.asked ++ [call] }) s)
    (h : Begun calls s₀ s) :
    wp (replayLocation padding pass consume answers inputAddr input inputLen limits)
      (PassEnded limits inputLen calls s₀ (answers.FoundNone ∧ sound))
      (fun _ => PassThrown limits calls s₀) s := by
  have hpass {rest : List UpstreamCall} (hrest : ∀ c ∈ rest, WithinLimits limits c) :
      IsPass limits (.newReplayParser limits.maxCapacity :: rest) := ⟨rest, rfl, hrest⟩
  have hnone : Begun (calls ++ []) s₀ s := by rwa [List.append_nil]
  rw [replayLocation, wp_ite]
  refine ⟨fun _ => wp_stopReplay _ (Or.inl rfl) hnone, fun _ => ?_⟩
  rw [wp_ite]
  refine ⟨fun _ => wp_stopReplay _ (Or.inl rfl) hnone, fun _ => ?_⟩
  rw [wp_bind]
  refine h.wp_ask fun s h => ?_
  rw [wp_bind, wp_ofExcept]
  refine ⟨fun _ hconstruct => ?_, fun _ _ => ⟨_, Or.inr (hpass (List.forall_mem_nil _)), h⟩⟩
  rw [wp_bind, recordReplayPass]
  refine h.wp_observe fun s h => ?_
  rw [wp_bind]
  refine h.wp_observe fun s h => ?_
  rw [wp_bind]
  refine h.wp_ask fun s h => ?_
  rw [List.append_assoc, List.singleton_append] at h
  have hallocate : ∀ c ∈ [UpstreamCall.allocate inputLen limits.maxDepth], WithinLimits limits c :=
    List.forall_mem_singleton.mpr rfl
  rw [wp_bind, wp_ofExcept]
  refine ⟨fun allocated hallocated => ?_, fun _ _ => ⟨_, Or.inr (hpass hallocate), h⟩⟩
  cases allocated with
  | error error => exact wp_stopReplay _ (Or.inr (hpass hallocate)) h
  | ok _ =>
    dsimp only
    rw [wp_ite]
    refine ⟨fun _ => wp_stopReplay _ (Or.inr (hpass hallocate)) h, fun _ => ?_⟩
    rw [wp_bind]
    refine h.wp_observe fun s h => ?_
    rw [wp_bind]
    refine h.wp_ask fun s h => ?_
    rw [List.append_assoc, List.cons_append, List.singleton_append] at h
    have hiterate : ∀ c ∈ [UpstreamCall.allocate inputLen limits.maxDepth] ++
        [.iterate input inputLen (inputLen + padding)], WithinLimits limits c :=
      List.forall_mem_append.mpr ⟨hallocate, List.forall_mem_singleton.mpr trivial⟩
    rw [wp_bind, wp_ofExcept]
    refine ⟨fun iterated hiterated => ?_, fun _ _ => ⟨_, Or.inr (hpass hiterate), h⟩⟩
    cases iterated with
    | error error => exact wp_stopReplay _ (Or.inr (hpass hiterate)) h
    | ok _ =>
      have hasked := hpass (List.forall_mem_append.mpr ⟨hiterate,
        List.forall_mem_singleton.mpr hcall⟩)
      have hbegun : Begun (calls ++ (.newReplayParser limits.maxCapacity ::
          ([.allocate inputLen limits.maxDepth] ++
            [.iterate input inputLen (inputLen + padding)] ++ [call]))) s₀
          { s with asked := s.asked ++ [call] } := by
        refine ⟨⟨h.maxCapacity, h.maxDepth, ?_⟩, h.unlocated⟩
        show s.asked ++ [call] = _
        rw [h.asked]
        simp
      dsimp only
      rw [wp_bind]
      refine wp_mono (hconsume s) ?_ ?_
      · intro result s' hconsumed
        obtain ⟨rfl, hsound⟩ := hconsumed
        have hfailed (error : SimdjsonError) :
            wp (recordReplayFailure answers inputAddr inputLen error pass)
              (PassEnded limits inputLen calls s₀ (answers.FoundNone ∧ sound))
              (fun _ => PassThrown limits calls s₀) { s with asked := s.asked ++ [call] } := by
          refine wp_mono (wp_recordReplayFailure answers inputAddr error pass hbegun) ?_
            fun _ _ => False.elim
          intro disposition s' hrecorded
          obtain ⟨rfl, hended⟩ := hrecorded
          exact ⟨_, Or.inr hasked, hended, fun hvalid => by cases hvalid⟩
        cases result with
        | error error => exact hfailed error
        | ok _ =>
          dsimp only
          rw [wp_bind, wp_ofExcept]
          refine ⟨fun atEnd hatEnd => ?_, fun _ _ => ⟨_, Or.inr hasked, hbegun⟩⟩
          cases atEnd with
          | false => exact hfailed .trailingContent
          | true =>
            rw [if_pos rfl, wp_bind]
            refine hbegun.wp_observe fun s' h' => ?_
            exact ⟨_, Or.inr hasked, h'.ended, fun _ =>
              ⟨hasked, h', ⟨hconstruct, hallocated, hiterated, hatEnd⟩, hsound rfl⟩⟩
      · rintro _ _ rfl
        exact ⟨_, Or.inr hasked, hbegun⟩

theorem wp_replayRawJsonLocation (input : Bytes) {limits : DiagnosticReplayLimits}
    (h : Begun calls s₀ s) :
    wp (replayRawJsonLocation padding answers inputAddr input inputLen limits)
      (PassEnded limits inputLen calls s₀
        (answers.FoundNone ∧ answers.rawJson = .ok (.ok ())))
      (fun _ => PassThrown limits calls s₀) s := by
  rw [replayRawJsonLocation]
  refine wp_replayLocation padding answers inputAddr .rawJson .rawJson input trivial
    (fun s => ?_) h
  rw [wp_bind, wp_ask, wp_ofExcept]
  exact ⟨fun result hresult => ⟨rfl, fun hok => hok ▸ hresult⟩, fun _ _ => rfl⟩

theorem wp_replayRecursiveLocation (input : Bytes) {limits : DiagnosticReplayLimits}
    (h : Begun calls s₀ s) :
    wp (replayRecursiveLocation padding answers inputAddr input inputLen limits)
      (PassEnded limits inputLen calls s₀ (answers.FoundNone ∧ True))
      (fun _ => PassThrown limits calls s₀) s := by
  rw [replayRecursiveLocation]
  refine wp_replayLocation padding answers inputAddr .recursive
    (.walk limits.maxDepth) input rfl (fun s => ?_) h
  rw [wp_bind, wp_ask]
  cases answers.walkThrows with
  | some error => rfl
  | none => exact ⟨rfl, fun _ => trivial⟩

end

/-! ## The whole parse -/

section
variable {V : Type} (padding : Nat) (errorMessage : SimdjsonError → Bytes)
  (answers : ParseAnswers V)

/-- **What a failed parse may ask**: one replay pass, and a second one if the first found no
error. -/
def Replays (limits : DiagnosticReplayLimits) (calls : List UpstreamCall) : Prop :=
  ∃ first second, calls = first ++ second ∧ (first = [] ∨ IsPass limits first) ∧
    (second = [] ∨ IsPass limits second ∧ IsPass limits first ∧ answers.raw.FoundNone ∧
      answers.raw.rawJson = .ok (.ok ()))

theorem Replays.none (limits : DiagnosticReplayLimits) : Replays answers limits [] :=
  ⟨[], [], rfl, Or.inl rfl, Or.inl rfl⟩

theorem Replays.first {limits : DiagnosticReplayLimits} {calls : List UpstreamCall}
    (h : calls = [] ∨ IsPass limits calls) : Replays answers limits calls :=
  ⟨calls, [], (List.append_nil _).symm, h, Or.inl rfl⟩

/-- The limits a parser replays under. -/
def NativeParser.limits (parser : NativeParser) : DiagnosticReplayLimits :=
  ⟨parser.maxCapacity, parser.maxDepth⟩

theorem Asked.limits {calls : List UpstreamCall} {s s' : ParseState} (h : Asked calls s s') :
    s'.parser.limits = s.parser.limits := by
  rw [NativeParser.limits, NativeParser.limits, h.maxCapacity, h.maxDepth]

variable {inputLen : Nat} {calls : List UpstreamCall} {s₀ s : ParseState}

theorem wp_captureDiagnosticLocation (inputAddr : UInt64) (input : Bytes) (error : SimdjsonError)
    (h : Begun calls s₀ s) :
    wp (captureDiagnosticLocation padding answers inputAddr input inputLen error)
      (fun _ s' => ∃ more, Replays answers s₀.parser.limits more ∧
        (Begun (calls ++ more) s₀ s' ∨ Ended inputLen (calls ++ more) s₀ s' ∧
          mapError error = .invalidJson))
      (fun _ s' => ∃ more, Replays answers s₀.parser.limits more ∧ Begun (calls ++ more) s₀ s')
      s := by
  have hnone : ∃ more, Replays answers s₀.parser.limits more ∧ calls = calls ++ more :=
    ⟨[], Replays.none answers _, (List.append_nil _).symm⟩
  rw [captureDiagnosticLocation, wp_bind]
  refine h.wp_observe fun s h => ?_
  rw [wp_ite]
  refine ⟨fun hordinary => ?_, fun _ => ?_⟩
  · have herror : mapError error = .invalidJson := of_decide_eq_true hordinary
    rw [wp_bind, wp_map, wp_get]
    have hlimits : (⟨s.parser.maxCapacity, s.parser.maxDepth⟩ : DiagnosticReplayLimits) =
        s₀.parser.limits := h.limits
    dsimp only
    rw [hlimits, wp_bind]
    refine wp_mono (wp_replayRawJsonLocation padding answers.raw inputAddr input h) ?_ ?_
    · intro disposition s hraw
      obtain ⟨first, hfirst, hended, hvalid⟩ := hraw
      rw [wp_ite]
      refine ⟨fun hdisposition => ?_, fun _ =>
        ⟨first, Replays.first answers hfirst, Or.inr ⟨hended, herror⟩⟩⟩
      -- the first pass found nothing, so there is a second one
      obtain ⟨hpass, hbegun, hnoError, hrawJson⟩ := hvalid hdisposition
      rw [wp_bind]
      refine wp_mono (wp_replayRecursiveLocation padding answers.recursive inputAddr input hbegun)
        ?_ ?_
      · intro disposition s hrecursive
        obtain ⟨second, hsecond, hended, -⟩ := hrecursive
        refine ⟨first ++ second, ⟨first, second, rfl, hfirst, ?_⟩, Or.inr ⟨?_, herror⟩⟩
        · exact hsecond.imp_right fun h => ⟨h, hpass, hnoError, hrawJson⟩
        · rwa [← List.append_assoc]
      · intro e s hthrown
        obtain ⟨second, hsecond, hbegun⟩ := hthrown
        refine ⟨first ++ second, ⟨first, second, rfl, hfirst, ?_⟩, ?_⟩
        · exact hsecond.imp_right fun h => ⟨h, hpass, hnoError, hrawJson⟩
        · rwa [← List.append_assoc]
    · intro e s hthrown
      obtain ⟨first, hfirst, hbegun⟩ := hthrown
      exact ⟨first, Replays.first answers hfirst, hbegun⟩
  · obtain ⟨more, hmore, heq⟩ := hnone
    exact ⟨more, hmore, Or.inl (heq ▸ h)⟩

/-- What a parse may ask: the document parser, if there is memory for it, and then the replays. -/
def AskedOnce (input : Bytes) (inputLen : Nat) (limits : DiagnosticReplayLimits)
    (calls : List UpstreamCall) : Prop :=
  calls = [] ∧ answers.newDoc ≠ .ok () ∨ ∃ more, calls = .parseIntoDocument input inputLen :: more ∧
    Replays answers limits more

/-- **How a parse ends.** -/
inductive ParseEnded (place : Placement) (input : Bytes) (inputLen : Nat) (s s' : ParseState) :
    Except ErrorCode Nat → Prop where
  | parsed (asked : Asked [.parseIntoDocument input inputLen] s s')
      (message : s'.parser.lastError = []) (unlocated : s'.parser.Unlocated) :
      ParseEnded place input inputLen s s' (.ok place.doc)
  | failed {calls : List UpstreamCall} {rc : ErrorCode} (asked : Asked calls s s')
      (once : AskedOnce answers input inputLen s.parser.limits calls)
      (located : s'.parser.Unlocated ∨ rc = .invalidJson ∧ s'.parser.Located inputLen)
      (native : rc ≠ .capacityLimit) :
      ParseEnded place input inputLen s s' (.error rc)

theorem ParseEnded.limits {place : Placement} {input : Bytes} {s s' : ParseState}
    {result : Except ErrorCode Nat} (h : ParseEnded answers place input inputLen s s' result) :
    s'.parser.limits = s.parser.limits := by
  cases h with
  | parsed asked _ _ => exact asked.limits
  | failed asked _ _ _ => exact asked.limits

/-- Setting a message forgets the offset, and without memory for it nothing changes. -/
theorem wp_setLastErrorMessage (memory : Bool) (message : Bytes) (h : Begun calls s₀ s) :
    wp (setLastErrorMessage memory message) (fun _ s' => Begun calls s₀ s')
      (fun _ s' => Begun calls s₀ s') s := by
  rw [setLastErrorMessage, wp_bind, wp_require]
  refine ⟨fun _ => ?_, fun _ => h⟩
  obtain ⟨⟨maxCapacity, maxDepth, asked⟩, -⟩ := h
  obtain ⟨parser, calls'⟩ := s
  cases parser
  exact ⟨⟨maxCapacity, maxDepth, asked⟩, ⟨rfl, rfl⟩⟩

theorem wp_captureParserException (memory : Bool) (error : CppException) (h : Begun calls s₀ s) :
    wp (captureParserException memory error) (fun _ s' => Begun calls s₀ s')
      (fun _ s' => Begun calls s₀ s') s := by
  rw [captureParserException, wp_tryCatch]
  exact wp_mono (wp_setLastErrorMessage memory error.message h) (fun _ _ => id) fun _ _ => id

theorem wp_parseBody (place : Placement) (input : Bytes) (h : s.parser.Unlocated) :
    wp (parseBody padding errorMessage answers place input inputLen)
      (fun result s' => ParseEnded answers place input inputLen s s' result)
      (fun _ s' => ∃ calls, Begun calls s s' ∧
        AskedOnce answers input inputLen s.parser.limits calls) s := by
  rw [parseBody, wp_bind]
  refine (Begun.start h).wp_observe fun s' h => ?_
  rw [wp_bind, wp_ofExcept]
  refine ⟨fun _ _ => ?_, fun e herror => ⟨[], h, Or.inl ⟨rfl, fun hok => ?_⟩⟩⟩
  swap
  · rw [hok] at herror
    cases herror
  rw [wp_bind]
  refine h.wp_ask fun s' h => ?_
  rw [List.nil_append] at h
  have honce {more : List UpstreamCall} (hmore : Replays answers s.parser.limits more) :
      AskedOnce answers input inputLen s.parser.limits
        (.parseIntoDocument input inputLen :: more) := Or.inr ⟨more, rfl, hmore⟩
  have hfirst := honce (Replays.none answers _)
  rw [wp_bind, wp_ofExcept]
  refine ⟨fun parsed _ => ?_, fun _ _ => ⟨_, h, hfirst⟩⟩
  cases parsed with
  | error error =>
    dsimp only
    rw [wp_bind]
    refine wp_mono (wp_setLastErrorMessage _ _ h) (fun _ s' h => ?_) fun _ s' h => ⟨_, h, hfirst⟩
    rw [wp_bind]
    refine wp_mono (wp_captureDiagnosticLocation padding answers _ input error h) ?_ ?_
    · intro _ s' hcaptured
      obtain ⟨more, hmore, hbegun | ⟨hended, herror⟩⟩ := hcaptured
      · exact .failed hbegun.toAsked (honce hmore) (Or.inl hbegun.unlocated)
          (mapError_ne_capacityLimit error)
      · refine .failed hended.toAsked (honce hmore) ?_ (mapError_ne_capacityLimit error)
        exact hended.located.imp_right fun hlocated => ⟨herror, hlocated⟩
    · intro _ s' hthrown
      obtain ⟨more, hmore, hbegun⟩ := hthrown
      exact ⟨_, hbegun, honce hmore⟩
  | ok _ =>
    dsimp only
    rw [wp_bind]
    refine h.wp_observe fun s' h => ?_
    rw [wp_bind, wp_modifyParser, wp_pure]
    obtain ⟨⟨maxCapacity, maxDepth, asked⟩, -⟩ := h
    obtain ⟨parser, calls'⟩ := s'
    cases parser
    exact .parsed ⟨maxCapacity, maxDepth, asked⟩ rfl ⟨rfl, rfl⟩

/-- **What a parse leaves behind**, if it starts from a parser that has no offset. -/
theorem psimdjsonParserParse_ended (place : Placement) (input : Bytes) (inputLen : Nat)
    (h : s.parser.Unlocated) :
    ParseEnded answers place input inputLen s
      (psimdjsonParserParse padding errorMessage answers place input inputLen s).2
      (psimdjsonParserParse padding errorMessage answers place input inputLen s).1 := by
  have hbody : wp (parseBody padding errorMessage answers place input inputLen)
      (fun result s' => ParseEnded answers place input inputLen s s' result)
      (fun _ s' => ∃ calls, Begun calls s s' ∧
        AskedOnce answers input inputLen s.parser.limits calls) s :=
    wp_parseBody padding errorMessage answers place input h
  rw [psimdjsonParserParse]
  cases hrun : (parseBody padding errorMessage answers place input inputLen).run s with
  | ok result s' =>
    exact wp_ok (Q := fun result s' => ParseEnded answers place input inputLen s s' result)
      hbody hrun
  | error error s' =>
    obtain ⟨calls, hbegun, honce⟩ := wp_error hbody hrun
    have hcapture := wp_captureParserException answers.captureMessage error hbegun
    dsimp only
    cases hcaptured : (captureParserException answers.captureMessage error).run s' with
    | ok _ s'' =>
      have h := wp_ok hcapture hcaptured
      exact .failed h.toAsked honce (Or.inl h.unlocated) fun h => by cases h
    | error _ s'' =>
      have h := wp_error hcapture hcaptured
      exact .failed h.toAsked honce (Or.inl h.unlocated) fun h => by cases h

/-- **What it was before does not matter** to a parser that was cleared. -/
theorem psimdjsonParserParse_clear (place : Placement) (input : Bytes) (inputLen : Nat)
    (parser : NativeParser) :
    psimdjsonParserParse padding errorMessage answers place input inputLen
        ⟨clearLastError parser, []⟩ =
      psimdjsonParserParse padding errorMessage answers place input inputLen
        ⟨.new parser.maxCapacity parser.maxDepth, []⟩ := by
  have hbody : (parseBody padding errorMessage answers place input inputLen).run
      ⟨clearLastError parser, []⟩ =
      (parseBody padding errorMessage answers place input inputLen).run
        ⟨.new parser.maxCapacity parser.maxDepth, []⟩ := rfl
  rw [psimdjsonParserParse, psimdjsonParserParse, hbody]

end

end PureSimdjson
