import PureSimdjson.Calls
import PureSimdjson.Interactions
import PureSimdjson.Wrappers

/-!
# Go parsers, call by call

`NewParser`, `Parser.Parse`, `Parser.Close` and `Doc.Close` as programs of native calls, with the
errors they return: the status, the sentinel that goes with it, and what the parser still tells
of its last parse, which takes four more calls.

The mutexes are not here.  A goroutine holds the parser's while it is in one of these, so
between the native calls of one of them nobody else uses the same parser.
-/
namespace PureSimdjson.Parsers

open Interactions Wrappers

/-! ## Errors -/

/-- The errors that callers look for. -/
inductive Sentinel where
  | invalidHandle
  | closed
  | parserBusy
  | numberOutOfRange
  | precisionLoss
  | cpuUnsupported
  | abiVersionMismatch
  | panic
  | cppException
  | invalidJson
  | elementNotFound
  | wrongType
  | notImplemented
  | depthLimitExceeded
  | capacityLimitExceeded
  | kernelLocked
  | invalidPath
  | indexOutOfRange
  | bufferTooSmall
  | internal
  deriving DecidableEq

/-- `Error` -/
structure Error where
  code : ErrorCode
  offset : UInt64
  hasOffset : Bool
  message : Bytes
  err : Option Sentinel
  deriving DecidableEq

/-- What these calls return as an error.  `invalidOption` wraps `ErrInvalidOption`, and has the
text that follows it. -/
inductive Err where
  | sentinel (s : Sentinel)
  | native (err : Error)
  | invalidOption (detail : String)
  | join (err freeErr : Err)
  deriving DecidableEq

/-- `sentinelForStatus` -/
def sentinelForStatus : ErrorCode → Sentinel
  | .invalidHandle => .invalidHandle
  | .parserBusy => .parserBusy
  | .wrongType => .wrongType
  | .elementNotFound => .elementNotFound
  | .notImplemented => .notImplemented
  | .depthLimit => .depthLimitExceeded
  | .capacityLimit => .capacityLimitExceeded
  | .kernelLocked => .kernelLocked
  | .invalidPath => .invalidPath
  | .indexOutOfRange => .indexOutOfRange
  | .bufferTooSmall => .bufferTooSmall
  | .invalidJson => .invalidJson
  | .numberOutOfRange => .numberOutOfRange
  | .precisionLoss => .precisionLoss
  | .cpuUnsupported => .cpuUnsupported
  | .abiMismatch => .abiVersionMismatch
  | .panic => .panic
  | .cppException => .cppException
  | .ok | .invalidArgument | .internal => .internal

/-- `nativeDetails` -/
structure NativeDetails where
  message : Bytes
  offset : UInt64
  hasOffset : Bool

/-- `nativeDetails{}` -/
def NativeDetails.zero : NativeDetails := ⟨[], 0, false⟩

/-- `newError` -/
def newError (code : ErrorCode) (details : NativeDetails) (err : Option Sentinel) : Option Err :=
  if code = .ok ∧ err = none ∧ details.message = [] ∧ ¬ details.hasOffset then none
  else if details.message = [] ∧ ¬ details.hasOffset ∧ err ≠ none ∧ code = .ok then
    err.map .sentinel
  else some (.native
    { code
      offset := if ¬ details.hasOffset then 0 else details.offset
      hasOffset := details.hasOffset
      message := details.message
      err })

theorem newError_of_ne_ok {code : ErrorCode} (h : code ≠ .ok) (details : NativeDetails)
    (err : Option Sentinel) :
    newError code details err = some (.native
      { code
        offset := if ¬ details.hasOffset then 0 else details.offset
        hasOffset := details.hasOffset
        message := details.message
        err }) := by
  rw [newError, if_neg fun hall => h hall.1, if_neg fun hall => h hall.2.2.2]

/-- `wrapStatus` -/
def wrapStatus (code : ErrorCode) : Option Err :=
  if code = .ok then none else newError code .zero (some (sentinelForStatus code))

/-! ## Options -/

/-- `parserOptionKind` -/
inductive ParserOptionKind where
  | invalid
  | maxCapacity
  | maxDepth
  deriving DecidableEq

/-- `ParserOption` -/
structure ParserOption where
  kind : ParserOptionKind
  value : Int64

/-- `WithMaxCapacity` -/
def withMaxCapacity (bytes : Int64) : ParserOption := ⟨.maxCapacity, bytes⟩

/-- `WithMaxDepth` -/
def withMaxDepth (depth : Int64) : ParserOption := ⟨.maxDepth, depth⟩

def defaultMaxCapacity : UInt64 := 0xFFFFFFFF

def maxSupportedDepth : UInt32 := 1024

def defaultMaxDepth : UInt32 := maxSupportedDepth

def minMaxCapacity : Int64 := 32

def defaultParserConfig : ParserConfig := ⟨defaultMaxCapacity, defaultMaxDepth⟩

/-- The body of the loop of `normalizeParserOptions`. -/
def applyParserOption (config : ParserConfig) (option : ParserOption) :
    Except Err ParserConfig :=
  match option.kind with
  | .maxCapacity =>
    if option.value = 0 then .ok { config with maxCapacity := defaultMaxCapacity }
    else if option.value < minMaxCapacity then
      .error (.invalidOption ("maximum capacity must be zero or between " ++
        toString minMaxCapacity.toInt ++ " and " ++ toString defaultMaxCapacity.toNat ++ " bytes"))
    else if option.value.toUInt64 > defaultMaxCapacity then
      .error (.invalidOption ("maximum capacity " ++ toString option.value.toInt ++ " exceeds " ++
        toString defaultMaxCapacity.toNat ++ " bytes"))
    else .ok { config with maxCapacity := option.value.toUInt64 }
  | .maxDepth =>
    if option.value = 0 then .ok { config with maxDepth := defaultMaxDepth }
    else if option.value < 0 then .error (.invalidOption "maximum depth must not be negative")
    else if option.value.toUInt64 > maxSupportedDepth.toUInt64 then
      .error (.invalidOption ("maximum depth " ++ toString option.value.toInt ++
        " exceeds the supported maximum of " ++ toString maxSupportedDepth.toNat))
    else .ok { config with maxDepth := option.value.toUInt64.toUInt32 }
  | .invalid => .error (.invalidOption "unrecognized parser option kind 0")

/-- `normalizeParserOptions` -/
def normalizeParserOptions (opts : List ParserOption) : Except Err ParserConfig :=
  opts.foldlM applyParserOption defaultParserConfig

/-- Limits that the library takes as they are. -/
structure Accepted (config : ParserConfig) : Prop where
  minCapacity : 32 ≤ config.maxCapacity.toNat
  maxCapacity : config.maxCapacity.toNat ≤ 2 ^ 32 - 1
  maxDepth_ne : config.maxDepth ≠ 0

theorem defaultParserConfig_accepted : Accepted defaultParserConfig :=
  ⟨by decide, by decide, by decide⟩

/-- The bits of a number that is not negative. -/
theorem toNat_toUInt64 {value : Int64} {bound : Int64} (hbound : 0 ≤ bound.toInt)
    (h : ¬ value < bound) : (value.toUInt64.toNat : Int) = value.toInt ∧
      bound.toInt ≤ value.toInt := by
  have hle : bound.toInt ≤ value.toInt := by
    rw [Int64.lt_iff_toInt_lt] at h
    omega
  have hnonneg : 0 ≤ value := by
    rw [Int64.le_iff_toInt_le]
    exact Int.le_trans hbound hle
  refine ⟨?_, hle⟩
  rw [Int64.toNat_toUInt64_of_le hnonneg]
  exact Int.toNat_of_nonneg (Int.le_trans hbound hle)

theorem applyParserOption_accepted {config config' : ParserConfig} {option : ParserOption}
    (haccepted : Accepted config) (h : applyParserOption config option = .ok config') :
    Accepted config' := by
  rw [applyParserOption] at h
  split at h
  · split at h
    · cases h
      exact ⟨defaultParserConfig_accepted.minCapacity, defaultParserConfig_accepted.maxCapacity,
        haccepted.maxDepth_ne⟩
    · split at h
      · cases h
      · rename_i hmin
        split at h
        · cases h
        · rename_i hmax
          cases h
          obtain ⟨hnat, hle⟩ := toNat_toUInt64 (by decide) hmin
          have hmin : minMaxCapacity.toInt = 32 := by decide
          refine ⟨?_, ?_, haccepted.maxDepth_ne⟩
          · show 32 ≤ option.value.toUInt64.toNat
            omega
          · exact UInt64.le_iff_toNat_le.mp (UInt64.not_lt.mp hmax)
  · split at h
    · cases h
      exact ⟨haccepted.minCapacity, haccepted.maxCapacity, defaultParserConfig_accepted.maxDepth_ne⟩
    · rename_i hzero
      split at h
      · cases h
      · split at h
        · cases h
        · rename_i hmax
          cases h
          refine ⟨haccepted.minCapacity, haccepted.maxCapacity, ?_⟩
          have hle := UInt64.le_iff_toNat_le.mp (UInt64.not_lt.mp hmax)
          have hbound : maxSupportedDepth.toUInt64.toNat = 1024 := by decide
          intro heq
          have hlow := congrArg UInt32.toNat heq
          rw [UInt64.toNat_toUInt32] at hlow
          have hnat : option.value.toUInt64.toNat = 0 := by
            change option.value.toUInt64.toNat % 2 ^ 32 = 0 at hlow
            omega
          have hbits : option.value.toUInt64 = 0 := UInt64.toNat_inj.mp hnat
          refine hzero ?_
          rw [← Int64.toInt64_toUInt64 option.value, hbits]
          rfl
  · cases h

/-- **The limits that options lead to are accepted.** -/
theorem normalizeParserOptions_accepted {opts : List ParserOption} {config : ParserConfig}
    (h : normalizeParserOptions opts = .ok config) : Accepted config := by
  have hfold (opts : List ParserOption) (start : ParserConfig) (hstart : Accepted start)
      (h : opts.foldlM applyParserOption start = .ok config) : Accepted config := by
    induction opts generalizing start with
    | nil =>
      cases h
      exact hstart
    | cons option opts ih =>
      rw [List.foldlM_cons] at h
      cases happly : applyParserOption start option with
      | error err =>
        rw [happly] at h
        cases h
      | ok next =>
        rw [happly] at h
        exact ih next (applyParserOption_accepted hstart happly) h
  exact hfold opts _ defaultParserConfig_accepted h

/-! ## Native calls -/

/-- A Go function, by the native calls it makes. -/
abbrev GoCall := Program Call (Except ErrorCode Reply)

/-- The status of a native call. -/
def status : Except ErrorCode Reply → ErrorCode
  | .ok _ => .ok
  | .error rc => rc

/-! What the out-parameters are then: a call that fails leaves them zero. -/

def outNumber : Except ErrorCode Reply → Nat
  | .ok (.number n) => n
  | _ => 0

def outFlag : Except ErrorCode Reply → Bool
  | .ok (.flag b) => b
  | _ => false

def outHandle : Except ErrorCode Reply → UInt64
  | .ok (.handle handle) => handle
  | _ => 0

def outView : Except ErrorCode Reply → ValueView
  | .ok (.view view) => view
  | _ => .default

def outBytes : Except ErrorCode Reply → Bytes
  | .ok (.bytes bytes) => bytes
  | _ => []

@[simp] theorem status_ok (reply : Reply) : status (.ok reply) = .ok := rfl

@[simp] theorem status_error (rc : ErrorCode) : status (.error rc) = rc := rfl

@[simp] theorem outNumber_ok (n : Nat) : outNumber (.ok (.number n)) = n := rfl

@[simp] theorem outFlag_ok (b : Bool) : outFlag (.ok (.flag b)) = b := rfl

@[simp] theorem outHandle_ok (handle : UInt64) : outHandle (.ok (.handle handle)) = handle := rfl

@[simp] theorem outBytes_ok (bytes : Bytes) : outBytes (.ok (.bytes bytes)) = bytes := rfl

/-- Where the locals are that the library writes to.  Go puts nothing at zero. -/
structure Locals where
  buffer : Nat
  written : Nat
  buffer_ne : buffer ≠ 0
  written_ne : written ≠ 0

variable (locals : Locals)

/-- `ParserLastError` -/
def parserLastError (parser : UInt64) : GoCall (Bytes × ErrorCode) := do
  let length ← .once (.parserLastErrorLen parser)
  if status length ≠ .ok then return ([], status length)
  if outNumber length = 0 then return ([], .ok)
  let copied ←
    .once (.parserCopyLastError parser locals.buffer (outNumber length) locals.written)
  if status copied ≠ .ok then return ([], status copied)
  return ((outBytes copied).take (outNumber length), .ok)

/-- `wrapParserStatus` -/
def wrapParserStatus (parser : UInt64) (code : ErrorCode) : GoCall (Option Err) := do
  if code = .ok then return none
  let (message, rc) ← parserLastError locals parser
  let details := if rc = .ok ∧ message ≠ [] then { NativeDetails.zero with message } else .zero
  let offset ← .once (.parserLastErrorOffset parser)
  let hasOffset ← .once (.parserLastErrorHasOffset parser)
  let details :=
    if status offset = .ok ∧ status hasOffset = .ok ∧ outFlag hasOffset then
      { details with offset := UInt64.ofNat (outNumber offset), hasOffset := true }
    else details
  return newError code details (some (sentinelForStatus code))

/-! ## Parsers and documents -/

/-- `Parser`, without its mutex and its finalizer. -/
structure Parser where
  library : Bool
  handle : UInt64
  config : ParserConfig
  closed : Bool
  liveDoc : UInt64

/-- `Doc`, of a parser that is at hand. -/
structure Doc where
  handle : UInt64
  root : ValueView
  closed : Bool

/-- `NewParser`, when the library is loaded. -/
def newParser (opts : List ParserOption) : GoCall (Except Err Parser) :=
  match normalizeParserOptions opts with
  | .error err => return .error err
  | .ok config => do
    let made ← .once (.parserNewConfigured config.maxCapacity.toNat config.maxDepth)
    match wrapStatus (status made) with
    | some err => return .error err
    | none => return .ok ⟨true, outHandle made, config, false, 0⟩

/-- `Parser.Parse`: the document, or an error, and the parser as it is then. -/
def Parser.parse (p : Parser) (data : Bytes) : GoCall (Except Err Doc × Parser) := do
  if ¬ p.library then return (.error (.sentinel .invalidHandle), p)
  if p.closed then return (.error (.sentinel .closed), p)
  if p.liveDoc ≠ 0 then return (.error (.sentinel .parserBusy), p)
  let parsed ← .once (.parserParse p.handle data)
  match ← wrapParserStatus locals p.handle (status parsed) with
  | some err => return (.error err, p)
  | none =>
    let docHandle := outHandle parsed
    let root ← .once (.docRoot docHandle)
    match wrapStatus (status root) with
    | some err =>
      let freed ← .once (.docFree docHandle)
      match wrapStatus (status freed) with
      | some freeErr => return (.error (.join err freeErr), p)
      | none => return (.error err, p)
    | none => return (.ok ⟨docHandle, outView root, false⟩, { p with liveDoc := docHandle })

/-- `Parser.Close` -/
def Parser.close (p : Parser) : GoCall (Option Err × Parser) := do
  if ¬ p.library then return (some (.sentinel .invalidHandle), p)
  if p.closed then return (none, p)
  if p.liveDoc ≠ 0 then return (some (.sentinel .parserBusy), p)
  let freed ← .once (.parserFree p.handle)
  match wrapStatus (status freed) with
  | some err => return (some err, p)
  | none => return (none, { p with closed := true, handle := 0, liveDoc := 0 })

/-- `Parser.clearLiveDoc` -/
def Parser.clearLiveDoc (doc : UInt64) (p : Parser) : Parser :=
  if p.liveDoc = doc then { p with liveDoc := 0 } else p

/-- `Doc.Close` -/
def Doc.close (d : Doc) (p : Parser) : GoCall (Option Err × Doc × Parser) := do
  if d.closed then return (none, d, p)
  let freed ← .once (.docFree d.handle)
  match wrapStatus (status freed) with
  | some err => return (some err, d, p)
  | none => return (none, { d with closed := true, handle := 0 }, p.clearLiveDoc d.handle)

end PureSimdjson.Parsers
