import PureSimdjson.Abi
import PureSimdjson.Threads
import PureSimdjson.Values

/-!
# The Go wrappers

`Parser`, `Doc` and `ParserPool` around a native side.  A step of a goroutine is one section
under a mutex, or as much of one as lies between native calls, or one native call.  The
garbage collector runs finalizers on what nobody reaches any more, and empties pools when it
likes.
-/
namespace PureSimdjson.Wrappers

open Threads

/-! ## Objects -/

/-- `parserConfig` -/
structure ParserConfig where
  maxCapacity : UInt64
  maxDepth : UInt32
  deriving DecidableEq

/-- Whether an object has a finalizer, and who runs it. -/
inductive Finalizer (T : Type) where
  | attached
  | cleared
  | running (t : T)
  deriving DecidableEq

/-- `Parser`, with its mutex and its finalizer. -/
structure Parser (T : Type) where
  mu : Option T
  library : Option Nat
  handle : UInt64
  config : ParserConfig
  closed : Bool
  liveDoc : UInt64
  finalizer : Finalizer T

/-- `Doc`.  Nothing reads `clearing`: it says who has closed the document and is about to clear
the mark it has left on its parser. -/
structure Doc (T : Type) where
  mu : Option T
  parser : Nat
  handle : UInt64
  closed : Bool
  finalizer : Finalizer T
  clearing : Option T

/-- How a wrapper fails. -/
inductive WrapperError where
  | invalidHandle
  | closed
  | parserBusy
  | invalidOption (detail : String)
  | library
  | status (rc : ErrorCode)
  | joined (err freeErr : WrapperError)
  deriving DecidableEq

section
variable {T : Type}

/-- `var p Parser` -/
def Parser.zero : Parser T := ⟨none, none, 0, ⟨0, 0⟩, false, 0, .cleared⟩

/-- What `Parser.Parse` checks. -/
def Parser.parseGate (p : Parser T) : Except WrapperError Unit :=
  if p.library = none then .error .invalidHandle
  else if p.closed then .error .closed
  else if p.liveDoc ≠ 0 then .error .parserBusy
  else .ok ()

/-- What `Parser.Close` returns without a native call, if it does. -/
def Parser.closeGate (p : Parser T) : Option (Except WrapperError Unit) :=
  if p.library = none then some (.error .invalidHandle)
  else if p.closed then some (.ok ())
  else if p.liveDoc ≠ 0 then some (.error .parserBusy)
  else none

/-- What `ParserPool.Put` checks. -/
def putGate (config : ParserConfig) (p : Parser T) : Except WrapperError Unit :=
  if p.closed then .error .closed
  else if p.liveDoc ≠ 0 then .error .parserBusy
  else if p.config ≠ config then
    .error (.invalidOption "parser configuration does not match pool")
  else .ok ()

/-- `Parser.clearLiveDoc` -/
def Parser.clearLiveDoc (doc : UInt64) (p : Parser T) : Parser T :=
  if p.liveDoc = doc then { p with liveDoc := 0 } else p

/-- `Parser.hasLeakedState` -/
def Parser.hasLeakedState (p : Parser T) : Bool :=
  !p.closed && (p.handle != 0 || p.liveDoc != 0)

/-- `Doc.hasLeakedState` -/
def Doc.hasLeakedState (d : Doc T) : Bool := !d.closed && d.handle != 0

/-- The last section of `Parser.finalizeLeaked`. -/
def Parser.finalized (docFreed parserFreed : Bool) (p : Parser T) : Parser T :=
  let p := if docFreed then { p with liveDoc := 0 } else p
  let p := if parserFreed then { p with handle := 0 } else p
  if p.handle = 0 ∧ p.liveDoc = 0 then { p with closed := true } else p

end

/-! ## The native side -/

/-- The native calls of the wrappers. -/
inductive NativeCall where
  | parserNew (config : ParserConfig)
  | parserFree (parser : UInt64)
  | parserParse (parser : UInt64) (data : Bytes)
  | docRoot (doc : UInt64)
  | docFree (doc : UInt64)

/-- A status, or a handle where there is one to return. -/
abbrev Reply := Except ErrorCode UInt64

/-- How the native side answers.  A document's handle is not zero. -/
structure NativeSide (ν : Type) where
  answers : NativeCall → ν → Reply → ν → Prop
  doc_ne_zero : ∀ {parser doc : UInt64} {data : Bytes} {w w' : ν},
    answers (.parserParse parser data) w (.ok doc) w' → doc ≠ 0

/-! ## Goroutines -/

/-- What a goroutine can hold on to. -/
inductive Ref where
  | parser (p : Nat)
  | doc (d : Nat)
  deriving DecidableEq

/-- The objects, what is in the pools, who reaches what, and the native side. -/
structure State (T ν : Type) where
  parsers : Nat → Option (Parser T)
  docs : Nat → Option (Doc T)
  pools : Nat → Option ParserConfig
  stored : List (Nat × Nat)
  refs : T → Ref → Prop
  native : ν

/-- Where a goroutine is. -/
inductive Place where
  | idle
  -- `newParserWithConfig`
  | new (config : ParserConfig) (pool : Option Nat)
  | made (handle : UInt64) (config : ParserConfig) (pool : Option Nat)
  -- `Parser.Parse`
  | parse (p : Nat) (handle : UInt64) (data : Bytes)
  | root (p : Nat) (doc : UInt64)
  | rollback (p : Nat) (doc : UInt64) (rc : ErrorCode)
  | publish (p : Nat) (doc : UInt64)
  | unlock (p : Nat) (err : WrapperError)
  -- `Parser.Close`
  | free (p : Nat) (handle : UInt64)
  | freed (p : Nat)
  | freeFailed (p : Nat) (rc : ErrorCode)
  -- `Doc.Close`
  | docFree (d : Nat) (handle : UInt64) (p : Nat)
  | docFreed (d : Nat) (handle : UInt64) (p : Nat)
  | docFreeFailed (d : Nat) (rc : ErrorCode)
  | clear (d : Nat) (handle : UInt64) (p : Nat)
  -- `Doc.finalizeLeaked`
  | finDoc (d : Nat)
  | finDocFree (d : Nat) (handle : UInt64) (p : Nat)
  | finDocCommit (d : Nat) (handle : UInt64) (p : Nat) (docFreed : Bool)
  | finClear (d : Nat) (handle : UInt64) (p : Nat)
  -- `Parser.finalizeLeaked`
  | finParser (p : Nat)
  | finParserDoc (p : Nat) (handle liveDoc : UInt64)
  | finParserFree (p : Nat) (handle : UInt64) (docFreed : Bool)
  | finParserCommit (p : Nat) (docFreed parserFreed : Bool)
  | failed (err : WrapperError)

/-- What a step shows. -/
inductive Action where
  | tau
  | native (call : NativeCall) (reply : Reply)
  | created (pool : Option Nat) (p : Nat)
  | got (q p : Nat)
  | put (q p : Nat)
  | evicted (q p : Nat)
  | parsed (p d : Nat)
  | closed (p : Nat)
  | docClosed (d : Nat)
  | returned (result : Except WrapperError Unit)

/-- The native call a goroutine is about to make. -/
def Place.call : Place → Option NativeCall
  | .new config _ => some (.parserNew config)
  | .parse _ handle data => some (.parserParse handle data)
  | .root _ doc => some (.docRoot doc)
  | .rollback _ doc _ => some (.docFree doc)
  | .free _ handle => some (.parserFree handle)
  | .docFree _ handle _ => some (.docFree handle)
  | .finDocFree _ handle _ => some (.docFree handle)
  | .finParserDoc _ _ liveDoc => if liveDoc = 0 then none else some (.docFree liveDoc)
  | .finParserFree _ handle _ => if handle = 0 then none else some (.parserFree handle)
  | _ => none

/-- `wrapStatus(freeErr)`, joined to the error there is. -/
def joinFree (rc : ErrorCode) : Reply → WrapperError
  | .ok _ => .status rc
  | .error freeRc => .joined (.status rc) (.status freeRc)

/-- Where it goes on with the reply. -/
def Place.resume : Place → Reply → Place
  | .new config pool, .ok handle => .made handle config pool
  | .new _ _, .error rc => .failed (.status rc)
  | .parse p _ _, .ok doc => .root p doc
  | .parse p _ _, .error rc => .unlock p (.status rc)
  | .root p doc, .ok _ => .publish p doc
  | .root p doc, .error rc => .rollback p doc rc
  | .rollback p _ rc, reply => .unlock p (joinFree rc reply)
  | .free p _, .ok _ => .freed p
  | .free p _, .error rc => .freeFailed p rc
  | .docFree d handle p, .ok _ => .docFreed d handle p
  | .docFree d _ _, .error rc => .docFreeFailed d rc
  | .finDocFree d handle p, reply => .finDocCommit d handle p reply.isOk
  | .finParserDoc p handle _, reply => .finParserFree p handle reply.isOk
  | .finParserFree p _ done, reply => .finParserCommit p done reply.isOk
  | x, _ => x

/-- What the call a goroutine is in holds on to. -/
def Place.Uses : Place → Ref → Prop
  | .parse p _ _, o | .root p _, o | .rollback p _ _, o | .publish p _, o | .unlock p _, o
  | .free p _, o | .freed p, o | .freeFailed p _, o => o = .parser p
  | .docFree d _ _, o | .docFreed d _ _, o | .docFreeFailed d _, o | .clear d _ _, o => o = .doc d
  | _, _ => False

section
variable {T ν : Type}

def State.setParser (s : State T ν) (p : Nat) (parser : Parser T) : State T ν :=
  { s with parsers := Function.update s.parsers p (some parser) }

def State.setDoc (s : State T ν) (d : Nat) (doc : Doc T) : State T ν :=
  { s with docs := Function.update s.docs d (some doc) }

/-- Before anything has been made. -/
def State.start (w : ν) : State T ν :=
  ⟨fun _ => none, fun _ => none, fun _ => none, [], fun _ _ => False, w⟩

/-- A goroutine gets hold of an object. -/
def State.learn (s : State T ν) (t : T) (o : Ref) : State T ν :=
  { s with refs := fun t' o' => s.refs t' o' ∨ t' = t ∧ o' = o }

/-- A goroutine lets go of an object. -/
def State.forget (s : State T ν) (t : T) (o : Ref) : State T ν :=
  { s with refs := fun t' o' => s.refs t' o' ∧ ¬ (t' = t ∧ o' = o) }

/-- A document some goroutine reaches, or the garbage collector has yet to be done with. -/
def State.Alive (s : State T ν) (d : Nat) (doc : Doc T) : Prop :=
  (∃ t, s.refs t (.doc d)) ∨ doc.finalizer ≠ .cleared

/-- Nothing leads to the parser: no goroutine, no pool and no document. -/
structure State.Unreachable (s : State T ν) (p : Nat) : Prop where
  refs : ∀ t, ¬ s.refs t (.parser p)
  stored : ∀ q, (q, p) ∉ s.stored
  docs : ∀ d doc, s.docs d = some doc → doc.parser = p → ¬ s.Alive d doc

/-- What a call of `t` may return without doing anything. -/
inductive State.Stops (s : State T ν) (t : T) : Action → Prop where
  | putNil : s.Stops t (.returned (.error .invalidHandle))
  | put {q p : Nat} {config : ParserConfig} {parser : Parser T} {err : WrapperError}
      (href : s.refs t (.parser p)) (hpool : s.pools q = some config)
      (hp : s.parsers p = some parser) (hmu : parser.mu = none)
      (h : putGate config parser = .error err) : s.Stops t (.returned (.error err))
  | parse {p : Nat} {parser : Parser T} {err : WrapperError} (href : s.refs t (.parser p))
      (hp : s.parsers p = some parser) (hmu : parser.mu = none)
      (h : parser.parseGate = .error err) : s.Stops t (.returned (.error err))
  | close {p : Nat} {parser : Parser T} {result : Except WrapperError Unit}
      (href : s.refs t (.parser p)) (hp : s.parsers p = some parser) (hmu : parser.mu = none)
      (h : parser.closeGate = some result) : s.Stops t (.returned result)
  | docClose {d : Nat} {doc : Doc T} (href : s.refs t (.doc d)) (hd : s.docs d = some doc)
      (hmu : doc.mu = none) (h : doc.closed = true) : s.Stops t (.docClosed d)
  | library : s.Stops t (.returned (.error .library))

variable (native : NativeSide ν)

/-- **One step of a goroutine.** -/
inductive Step (t : T) : State T ν → Place → Action → State T ν → Place → Prop where
  -- references
  | share {s : State T ν} {o : Ref} (t' : T) (href : s.refs t o) :
      Step t s .idle .tau (s.learn t' o) .idle
  | forget {s : State T ν} {x : Place} {o : Ref} (hfree : ¬ x.Uses o) :
      Step t s x .tau (s.forget t o) x
  | zeroParser {s : State T ν} {p : Nat} (hp : s.parsers p = none) :
      Step t s .idle (.created none p) ((s.setParser p .zero).learn t (.parser p)) .idle
  -- `NewParserPool`
  | newPool {s : State T ν} {q : Nat} (config : ParserConfig) (hq : s.pools q = none) :
      Step t s .idle .tau { s with pools := Function.update s.pools q (some config) } .idle
  -- calls that return at once, and native calls
  | stop {s : State T ν} {a : Action} (h : s.Stops t a) : Step t s .idle a s .idle
  | failed {s : State T ν} {err : WrapperError} :
      Step t s (.failed err) (.returned (.error err)) s .idle
  | native {s : State T ν} {x : Place} {call : NativeCall} {reply : Reply} {w : ν}
      (hcall : x.call = some call) (h : native.answers call s.native reply w) :
      Step t s x (.native call reply) { s with native := w } (x.resume reply)
  -- `NewParser`
  | newParser {s : State T ν} (config : ParserConfig) : Step t s .idle .tau s (.new config none)
  | made {s : State T ν} {handle : UInt64} {config : ParserConfig} {pool : Option Nat} {p : Nat}
      (library : Nat) (hp : s.parsers p = none) :
      Step t s (.made handle config pool) (.created pool p)
        ((s.setParser p ⟨none, some library, handle, config, false, 0, .attached⟩).learn t
          (.parser p)) .idle
  -- `ParserPool`
  | getMiss {s : State T ν} {q : Nat} {config : ParserConfig} (hpool : s.pools q = some config) :
      Step t s .idle .tau s (.new config (some q))
  | get {s : State T ν} {q p : Nat} (hstored : (q, p) ∈ s.stored) :
      Step t s .idle (.got q p)
        ({ s with stored := s.stored.erase (q, p) }.learn t (.parser p)) .idle
  | put {s : State T ν} {q p : Nat} {config : ParserConfig} {parser : Parser T}
      (href : s.refs t (.parser p)) (hpool : s.pools q = some config)
      (hp : s.parsers p = some parser) (hmu : parser.mu = none)
      (h : putGate config parser = .ok ()) :
      Step t s .idle (.put q p) { s with stored := (q, p) :: s.stored } .idle
  | evict {s : State T ν} {x : Place} {q p : Nat} (hstored : (q, p) ∈ s.stored) :
      Step t s x (.evicted q p) { s with stored := s.stored.erase (q, p) } x
  -- `Parser.Parse`
  | parse {s : State T ν} {p : Nat} {parser : Parser T} (data : Bytes)
      (href : s.refs t (.parser p)) (hp : s.parsers p = some parser) (hmu : parser.mu = none)
      (h : parser.parseGate = .ok ()) :
      Step t s .idle .tau (s.setParser p { parser with mu := some t })
        (.parse p parser.handle data)
  | publish {s : State T ν} {p d : Nat} {parser : Parser T} {doc : UInt64}
      (hp : s.parsers p = some parser) (hd : s.docs d = none) :
      Step t s (.publish p doc) (.parsed p d)
        (((s.setDoc d ⟨none, p, doc, false, .attached, none⟩).setParser p
          { parser with mu := none, liveDoc := doc }).learn t (.doc d)) .idle
  | unlock {s : State T ν} {p : Nat} {parser : Parser T} {err : WrapperError}
      (hp : s.parsers p = some parser) :
      Step t s (.unlock p err) (.returned (.error err))
        (s.setParser p { parser with mu := none }) .idle
  -- `Parser.Close`
  | close {s : State T ν} {p : Nat} {parser : Parser T} (href : s.refs t (.parser p))
      (hp : s.parsers p = some parser) (hmu : parser.mu = none) (h : parser.closeGate = none) :
      Step t s .idle .tau (s.setParser p { parser with mu := some t, finalizer := .cleared })
        (.free p parser.handle)
  | freed {s : State T ν} {p : Nat} {parser : Parser T} (hp : s.parsers p = some parser) :
      Step t s (.freed p) (.closed p)
        (s.setParser p { parser with mu := none, closed := true, handle := 0, liveDoc := 0 }) .idle
  | freeFailed {s : State T ν} {p : Nat} {parser : Parser T} {rc : ErrorCode}
      (hp : s.parsers p = some parser) :
      Step t s (.freeFailed p rc) (.returned (.error (.status rc)))
        (s.setParser p { parser with mu := none, finalizer := .attached }) .idle
  -- `Doc.Close`
  | docClose {s : State T ν} {d : Nat} {doc : Doc T} (href : s.refs t (.doc d))
      (hd : s.docs d = some doc) (hmu : doc.mu = none) (h : doc.closed = false) :
      Step t s .idle .tau (s.setDoc d { doc with mu := some t, finalizer := .cleared })
        (.docFree d doc.handle doc.parser)
  | docFreed {s : State T ν} {d p : Nat} {handle : UInt64} {doc : Doc T}
      (hd : s.docs d = some doc) :
      Step t s (.docFreed d handle p) .tau
        (s.setDoc d { doc with mu := none, closed := true, handle := 0, clearing := some t })
        (.clear d handle p)
  | docFreeFailed {s : State T ν} {d : Nat} {rc : ErrorCode} {doc : Doc T}
      (hd : s.docs d = some doc) :
      Step t s (.docFreeFailed d rc) (.returned (.error (.status rc)))
        (s.setDoc d { doc with mu := none, finalizer := .attached }) .idle
  | clear {s : State T ν} {d p : Nat} {handle : UInt64} {doc : Doc T} {parser : Parser T}
      (hd : s.docs d = some doc) (hp : s.parsers p = some parser) (hmu : parser.mu = none) :
      Step t s (.clear d handle p) (.docClosed d)
        ((s.setDoc d { doc with clearing := none }).setParser p (parser.clearLiveDoc handle)) .idle
  -- a document's finalizer
  | finDocIdle {s : State T ν} {d : Nat} {doc : Doc T} (href : ∀ t, ¬ s.refs t (.doc d))
      (hd : s.docs d = some doc) (hmu : doc.mu = none) (hfin : doc.finalizer = .attached)
      (h : doc.hasLeakedState = false) :
      Step t s .idle .tau (s.setDoc d { doc with finalizer := .cleared }) .idle
  | finDoc {s : State T ν} {d : Nat} {doc : Doc T} (href : ∀ t, ¬ s.refs t (.doc d))
      (hd : s.docs d = some doc) (hmu : doc.mu = none) (hfin : doc.finalizer = .attached)
      (h : doc.hasLeakedState = true) :
      Step t s .idle .tau (s.setDoc d { doc with finalizer := .running t }) (.finDoc d)
  | finDocClosed {s : State T ν} {d : Nat} {doc : Doc T} (hd : s.docs d = some doc)
      (hmu : doc.mu = none) (h : doc.closed = true) :
      Step t s (.finDoc d) .tau (s.setDoc d { doc with finalizer := .cleared }) .idle
  | finDocRead {s : State T ν} {d : Nat} {doc : Doc T} (hd : s.docs d = some doc)
      (hmu : doc.mu = none) (h : doc.closed = false) :
      Step t s (.finDoc d) .tau s (.finDocFree d doc.handle doc.parser)
  | finDocKept {s : State T ν} {d p : Nat} {handle : UInt64} {doc : Doc T}
      (hd : s.docs d = some doc) (hmu : doc.mu = none) :
      Step t s (.finDocCommit d handle p false) .tau
        (s.setDoc d { doc with finalizer := .cleared }) .idle
  | finDocFreed {s : State T ν} {d p : Nat} {handle : UInt64} {doc : Doc T}
      (hd : s.docs d = some doc) (hmu : doc.mu = none) :
      Step t s (.finDocCommit d handle p true) .tau
        (s.setDoc d { doc with closed := true, handle := 0, clearing := some t })
        (.finClear d handle p)
  | finClear {s : State T ν} {d p : Nat} {handle : UInt64} {doc : Doc T} {parser : Parser T}
      (hd : s.docs d = some doc) (hp : s.parsers p = some parser) (hmu : parser.mu = none) :
      Step t s (.finClear d handle p) .tau
        ((s.setDoc d { doc with clearing := none, finalizer := .cleared }).setParser p
          (parser.clearLiveDoc handle)) .idle
  -- a parser's finalizer
  | finParserIdle {s : State T ν} {p : Nat} {parser : Parser T} (hdead : s.Unreachable p)
      (hp : s.parsers p = some parser) (hmu : parser.mu = none)
      (hfin : parser.finalizer = .attached) (h : parser.hasLeakedState = false) :
      Step t s .idle .tau (s.setParser p { parser with finalizer := .cleared }) .idle
  | finParser {s : State T ν} {p : Nat} {parser : Parser T} (hdead : s.Unreachable p)
      (hp : s.parsers p = some parser) (hmu : parser.mu = none)
      (hfin : parser.finalizer = .attached) (h : parser.hasLeakedState = true) :
      Step t s .idle .tau (s.setParser p { parser with finalizer := .running t }) (.finParser p)
  | finParserClosed {s : State T ν} {p : Nat} {parser : Parser T}
      (hp : s.parsers p = some parser) (hmu : parser.mu = none) (h : parser.closed = true) :
      Step t s (.finParser p) .tau (s.setParser p { parser with finalizer := .cleared }) .idle
  | finParserRead {s : State T ν} {p : Nat} {parser : Parser T}
      (hp : s.parsers p = some parser) (hmu : parser.mu = none) (h : parser.closed = false) :
      Step t s (.finParser p) .tau s (.finParserDoc p parser.handle parser.liveDoc)
  | finParserNoDoc {s : State T ν} {p : Nat} {handle : UInt64} :
      Step t s (.finParserDoc p handle 0) .tau s (.finParserFree p handle true)
  | finParserNoHandle {s : State T ν} {p : Nat} {docFreed : Bool} :
      Step t s (.finParserFree p 0 docFreed) .tau s (.finParserCommit p docFreed true)
  | finParserCommit {s : State T ν} {p : Nat} {docFreed parserFreed : Bool} {parser : Parser T}
      (hp : s.parsers p = some parser) (hmu : parser.mu = none) :
      Step t s (.finParserCommit p docFreed parserFreed) .tau
        (s.setParser p { parser.finalized docFreed parserFreed with finalizer := .cleared }) .idle

end

end PureSimdjson.Wrappers
