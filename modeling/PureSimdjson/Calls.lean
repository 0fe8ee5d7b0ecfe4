import PureSimdjson.Iterators
import PureSimdjson.Runs

/-!
# The exported calls as one system

A caller may make any call with any arguments at any time: stale or made-up handles,
edited views and iterators, any block address.  `Call` lists the exported functions
with their arguments, and a run of the system is any sequence of calls with what they
returned.  The registry lock is held for each of them, so calls do not interleave.
-/
namespace PureSimdjson

open Effect Runs

/-- An exported function and its arguments. -/
inductive Call where
  | parserNew
  | parserNewConfigured (maxCapacity : Nat) (maxDepth : UInt32)
  | parserFree (parser : UInt64)
  | parserParse (parser : UInt64) (input : Bytes)
  | parserLastErrorLen (parser : UInt64)
  | parserCopyLastError (parser : UInt64) (dst dstCap outWritten : Nat)
  | parserLastErrorOffset (parser : UInt64)
  | parserLastErrorHasOffset (parser : UInt64)
  | docFree (doc : UInt64)
  | docRoot (doc : UInt64)
  | elementType (view : Option ValueView)
  | elementGetInt64 (view : Option ValueView)
  | elementGetUint64 (view : Option ValueView)
  | elementGetFloat64 (view : Option ValueView)
  | elementGetString (view : Option ValueView)
  | elementGetBigint (view : Option ValueView)
  | elementGetBool (view : Option ValueView)
  | elementIsNull (view : Option ValueView)
  | bytesFree (ptr len : Nat)
  | valueViewsFree (ptr len : Nat)
  | arrayIterNew (view : Option ValueView)
  | arrayIterNext (iter : Option Iter)
  | objectIterNew (view : Option ValueView)
  | objectIterNext (iter : Option Iter)
  | objectGetField (view : Option ValueView) (key : Bytes)
  | arrayAt (view : Option ValueView) (index : Nat)
  | arrayLen (view : Option ValueView)
  | objectSize (view : Option ValueView)
  | elementAtPointer (view : Option ValueView) (pointer : Bytes)
  | elementAtPath (view : Option ValueView) (path : Bytes)
  | elementAtPathWildcard (view : Option ValueView) (path : Bytes)
  | materializeBuild (view : Option ValueView)
  | testHoldMaterializeGuard (view : Option ValueView)

/-- What a successful call writes to its out-parameters. -/
inductive Reply where
  | done
  | handle (handle : UInt64)
  | number (value : Nat)
  | int64 (value : Int64)
  | word (bits : UInt64)
  | flag (value : Bool)
  | bytes (bytes : Bytes)
  | block (ptr len : Nat)
  | view (view : ValueView)
  | iter (iter : Iter)
  | arrayStep (step : ArrayIterStep)
  | objectStep (step : ObjectIterStep)
  | frames (frames : List Frame)

section
variable {W : Type} (native : Native W)

/-- What a call does. -/
def exec : Call → RuntimeM W Reply
  | .parserNew => .handle <$> parserNew native
  | .parserNewConfigured maxCapacity maxDepth =>
    .handle <$> parserNewConfigured native maxCapacity maxDepth
  | .parserFree parser => (fun _ => .done) <$> parserFree native parser
  | .parserParse parser input => .handle <$> parserParse native parser input
  | .parserLastErrorLen parser => .number <$> parserLastErrorLen native parser
  | .parserCopyLastError parser dst dstCap outWritten =>
    .bytes <$> parserCopyLastError native parser dst dstCap outWritten
  | .parserLastErrorOffset parser => .number <$> parserLastErrorOffset native parser
  | .parserLastErrorHasOffset parser => .flag <$> parserLastErrorHasOffset native parser
  | .docFree doc => (fun _ => .done) <$> docFree native doc
  | .docRoot doc => .view <$> docRoot native doc
  | .elementType view => .number <$> elementType native view
  | .elementGetInt64 view => .int64 <$> elementGetInt64 native view
  | .elementGetUint64 view => .word <$> elementGetUint64 native view
  | .elementGetFloat64 view => .word <$> elementGetFloat64 native view
  | .elementGetString view => (fun b => .block b.1 b.2) <$> elementGetString native view
  | .elementGetBigint view => (fun b => .block b.1 b.2) <$> elementGetBigintCopy native view
  | .elementGetBool view => .flag <$> elementGetBool native view
  | .elementIsNull view => .flag <$> elementIsNull native view
  | .bytesFree ptr len => (fun _ => .done) <$> bytesFree native ptr len
  | .valueViewsFree ptr len => (fun _ => .done) <$> valueViewsFree native ptr len
  | .arrayIterNew view => .iter <$> arrayIterNew native view
  | .arrayIterNext iter => .arrayStep <$> arrayIterNext native iter
  | .objectIterNew view => .iter <$> objectIterNew native view
  | .objectIterNext iter => .objectStep <$> objectIterNext native iter
  | .objectGetField view key => .view <$> objectGetField native view key
  | .arrayAt view index => .view <$> arrayAt native view index
  | .arrayLen view => .number <$> arrayLen native view
  | .objectSize view => .number <$> objectSize native view
  | .elementAtPointer view pointer => .view <$> elementAtPointer native view pointer
  | .elementAtPath view path => .view <$> elementAtPath native view path
  | .elementAtPathWildcard view path =>
    (fun b => .block b.1 b.2) <$> elementAtPathWildcard native view path
  | .materializeBuild view => .frames <$> materializeBuild native view
  | .testHoldMaterializeGuard view =>
    (fun _ => .done) <$> testHoldMaterializeGuard native view

/-- A call and what it returned. -/
abbrev Event := Call × Except ErrorCode Reply

/-- A call that returned `event.2` took the system from one state to the other. -/
def Executes (s : Runtime W) (event : Event) (s' : Runtime W) : Prop :=
  (exec native event.1).run s =
    match event.2 with
    | .ok reply => .ok reply s'
    | .error rc => .error rc s'

/-- A call as a function: what it returns, and the state it leaves. -/
def outcome (s : Runtime W) (call : Call) :
    Except ErrorCode Reply × Runtime W :=
  match (exec native call).run s with
  | .ok reply s' => (.ok reply, s')
  | .error rc s' => (.error rc, s')

theorem executes_outcome (s : Runtime W) (call : Call) :
    Executes native s (call, (outcome native s call).1) (outcome native s call).2 := by
  rw [Executes, outcome]
  cases (exec native call).run s with
  | ok reply s' => rfl
  | error rc s' => rfl

/-- What a call guarantees holds of every event of it. -/
theorem Executes.of_wp {P : Except ErrorCode Reply → Runtime W → Prop} {s s' : Runtime W}
    {event : Event} (h : Executes native s event s')
    (hwp : wp (exec native event.1) (fun reply => P (.ok reply)) (fun rc => P (.error rc)) s) :
    P event.2 s' := by
  obtain ⟨call, result⟩ := event
  cases result with
  | ok reply => exact wp_ok (Q := fun reply => P (.ok reply)) (a := reply) hwp h
  | error rc => exact wp_error (E := fun rc => P (.error rc)) (e := rc) hwp h

/-- A runtime state that some sequence of calls leads to from the empty registry. -/
def Reachable (s : Runtime W) : Prop :=
  ∃ w events, Run (Executes native) ⟨Registry.empty, w⟩ events s

end

end PureSimdjson
