import PureSimdjson.Abi
import PureSimdjson.PreorderWords
import PureSimdjson.Values

/-!
# The frame stream and its decoder

The bridge hands Go a flat list of frames, one for each value of an element, in
document order, and a container's frame says only how many values are directly
under it.  This module has the frames and `buildAnyFromFrames`, which rebuilds
the Go value with one cursor and trusts none of the counts.

A Go call ends in a value, in an error, or in a run-time panic; or the process dies of a
request that the Go heap has no memory for.  The recursion of `buildAnyFromFrame` is not
visibly bounded, so it runs on fuel and a last outcome, `diverged`, says that the fuel was
gone.
-/
namespace PureSimdjson

/-- A Go error: its code and message, and the sentinel it wraps. -/
structure GoError where
  code : ErrorCode
  message : String
  wraps : ErrorCode
  deriving DecidableEq, Repr

/-- How a Go call ends; after `outOfMemory` there is no process any more. -/
inductive Outcome (α : Type) where
  | ok (value : α)
  | error (err : GoError)
  | panic
  | outOfMemory
  | diverged

namespace Outcome

variable {α β : Type}

def bind : Outcome α → (α → Outcome β) → Outcome β
  | .ok a, k => k a
  | .error e, _ => .error e
  | .panic, _ => .panic
  | .outOfMemory, _ => .outOfMemory
  | .diverged, _ => .diverged

instance : Monad Outcome where
  pure := .ok
  bind := bind

end Outcome

/-! ## Frames -/

/-- A pointer and a length, as a range of the 64-bit address space. -/
structure Span where
  ptr : Nat
  len : Nat
  inSpace : ptr + len ≤ 2 ^ 64
  deriving DecidableEq

namespace Span

/-- The null pointer with length zero. -/
def empty : Span := ⟨0, 0, by decide⟩

/-- `copyFrameString` has something to copy from, or nothing to copy. -/
def Readable (span : Span) : Prop :=
  span.len = 0 ∨ span.ptr ≠ 0

instance (span : Span) : Decidable span.Readable :=
  inferInstanceAs (Decidable (_ ∨ _))

end Span

/-- The memory the spans point into. -/
abbrev Memory := Nat → UInt8

/-- The bytes of a span. -/
def Memory.read (mem : Memory) (span : Span) : Bytes :=
  (List.range span.len).map fun offset => mem (span.ptr + offset)

/-- `InternalFrame`.  `kind` is whatever number the frame carries. -/
structure Frame where
  kind : UInt32
  flags : UInt32
  childCount : UInt32
  reserved : UInt32
  key : Span
  string : Span
  int64Value : Int64
  uint64Value : UInt64
  float64Value : UInt64

/-- A zeroed frame, which every frame starts as. -/
def Frame.zero : Frame := ⟨0, 0, 0, 0, .empty, .empty, 0, 0, 0⟩

/-- `ffi.ValueKind(frame.Kind)`: the kinds a frame may carry.  There is no frame of
the invalid kind. -/
def frameKind (kind : UInt32) : Option ValueKind :=
  if kind = 1 then some .null
  else if kind = 2 then some .bool
  else if kind = 3 then some .int64
  else if kind = 4 then some .uint64
  else if kind = 5 then some .float64
  else if kind = 6 then some .string
  else if kind = 7 then some .array
  else if kind = 8 then some .object
  else if kind = 9 then some .bigint
  else none

theorem frameKind_ne_invalid (kind : UInt32) : frameKind kind ≠ some .invalid := by
  unfold frameKind
  repeat' split
  all_goals nofun

/-- How many values follow a frame directly under it. -/
def Frame.arity (frame : Frame) : Nat :=
  match frameKind frame.kind with
  | some .array => frame.childCount.toNat
  | some .object => frame.childCount.toNat
  | _ => 0

/-! ## The Go heap -/

/-- What the decoder asks the Go heap for, as large as a frame says: the array of
`make([]any, 0, n)`, the table of `make(map[string]any, n)`, and the copy that `string` makes
of `n` bytes. -/
inductive Request where
  | slice (capacity : Nat)
  | table (hint : Nat)
  | copy (length : Nat)
  deriving DecidableEq

/-- The Go heap: what is left of it after a request, if there is memory for it. -/
abbrev GoHeap (H : Type) := Request → H → Option H

/-- The heap after some requests, one after the other. -/
def GoHeap.grants {H : Type} (heap : GoHeap H) (requests : List Request) (h : H) : Option H :=
  requests.foldlM (fun h request => heap request h) h

/-- A Go call on the heap. -/
abbrev DecodeM (H α : Type) := StateT H Outcome α

/-! ## The decoder -/

/-- `frameProtocolError`. -/
def frameProtocolError (index : Nat) (kind : UInt32) (detail : String) : GoError where
  code := .internal
  message := s!"materialize frame protocol violation index={index} kind={kind.toNat}: {detail}"
  wraps := .internal

section
variable {H α : Type}

/-- `return …, err` -/
def fail (err : GoError) : DecodeM H α := fun _ => .error err

/-- A request; without memory for it the run-time system ends the process. -/
def request (heap : GoHeap H) (r : Request) : DecodeM H Unit := fun h =>
  match heap r h with
  | some h' => .ok ((), h')
  | none => .outOfMemory

/-- `string(unsafe.Slice((*byte)(ptr), int(length)))`: a length that does not fit
in `int` panics. -/
def unsafeSlice (heap : GoHeap H) (mem : Memory) (span : Span) : DecodeM H Bytes :=
  if 2 ^ 63 ≤ span.len then fun _ => .panic
  else do
    request heap (.copy span.len)
    return mem.read span

/-- `copyFrameString`. -/
def copyFrameString (heap : GoHeap H) (mem : Memory) (span : Span) (index : Nat) (kind : UInt32)
    (label : String) : DecodeM H Bytes :=
  if span.len = 0 then return []
  else if span.ptr = 0 then
    fail (frameProtocolError index kind (label ++ " span has nil pointer"))
  else unsafeSlice heap mem span

/-- `frames[index]`, which panics outside the slice. -/
def frameAt (frames : List Frame) (index : Nat) : DecodeM H Frame :=
  match frames[index]? with
  | some frame => return frame
  | none => fun _ => .panic

end

section
variable {H : Type} (heap : GoHeap H) (mem : Memory) (frames : List Frame)

/-- The `for` loop over an array's children, with `remaining` of them to go.
`decode` is `buildAnyFromFrame`. -/
def arrayChildren (decode : Nat → DecodeM H (GoValue × Nat)) (frame : Frame) (index : Nat) :
    (remaining : Nat) → List GoValue → (nextIndex : Nat) → DecodeM H (List GoValue × Nat)
  | 0, values, nextIndex => return (values, nextIndex)
  | remaining + 1, values, nextIndex =>
    if nextIndex ≥ frames.length then
      let child := frame.childCount.toNat - (remaining + 1)
      fail (frameProtocolError index frame.kind
        (s!"array child_count exceeds frame span: child={child} " ++
          s!"child_count={frame.childCount.toNat} len={frames.length}"))
    else do
      let (value, consumed) ← decode nextIndex
      arrayChildren decode frame index remaining (values ++ [value]) consumed

/-- The `for` loop over an object's children: the key is copied before the value is
decoded. -/
def objectChildren (decode : Nat → DecodeM H (GoValue × Nat)) (frame : Frame) (index : Nat) :
    (remaining : Nat) → List (Bytes × GoValue) → (nextIndex : Nat) →
      DecodeM H (List (Bytes × GoValue) × Nat)
  | 0, values, nextIndex => return (values, nextIndex)
  | remaining + 1, values, nextIndex =>
    if nextIndex ≥ frames.length then
      let child := frame.childCount.toNat - (remaining + 1)
      fail (frameProtocolError index frame.kind
        (s!"object child_count exceeds frame span: child={child} " ++
          s!"child_count={frame.childCount.toNat} len={frames.length}"))
    else do
      let next ← frameAt frames nextIndex
      let key ← copyFrameString heap mem next.key nextIndex next.kind "key"
      let (value, consumed) ← decode nextIndex
      objectChildren decode frame index remaining (mapSet values key value) consumed

/-- `buildAnyFromFrame`: the value whose first frame is at `index`, and the index of
the first frame after it.  A container gets room for as many children as its frame counts
before any of them is looked for. -/
def buildAnyFromFrame (fuel index : Nat) : DecodeM H (GoValue × Nat) :=
  match fuel with
  | 0 => fun _ => .diverged
  | fuel + 1 =>
    if index ≥ frames.length then
      fail (frameProtocolError index 0 "frame index out of span")
    else do
      let frame ← frameAt frames index
      match frameKind frame.kind with
      | some .null => return (.nil, index + 1)
      | some .bool => return (.bool (frame.flags ≠ 0), index + 1)
      | some .int64 => return (.int64 frame.int64Value, index + 1)
      | some .uint64 => return (.uint64 frame.uint64Value, index + 1)
      | some .float64 => return (.float64 frame.float64Value, index + 1)
      | some .string => do
        let value ← copyFrameString heap mem frame.string index frame.kind "string"
        return (.string value, index + 1)
      | some .bigint => do
        let value ← copyFrameString heap mem frame.string index frame.kind "bigint"
        return (.string value, index + 1)
      | some .array => do
        request heap (.slice frame.childCount.toNat)
        let (values, nextIndex) ← arrayChildren frames (buildAnyFromFrame fuel) frame index
          frame.childCount.toNat [] (index + 1)
        return (.slice values, nextIndex)
      | some .object => do
        request heap (.table frame.childCount.toNat)
        let (values, nextIndex) ← objectChildren heap mem frames (buildAnyFromFrame fuel) frame
          index frame.childCount.toNat [] (index + 1)
        return (.map values, nextIndex)
      | _ => fail (frameProtocolError index frame.kind "unknown frame kind")

/-- `buildAnyFromFrames`. -/
def buildAnyFromFrames (fuel : Nat) : DecodeM H GoValue :=
  if frames.length = 0 then fail (frameProtocolError 0 0 "empty frame span")
  else do
    let (value, consumed) ← buildAnyFromFrame heap mem frames fuel 0
    if consumed ≠ frames.length then
      fail (frameProtocolError consumed 0
        s!"trailing frames: consumed={consumed} len={frames.length}")
    else return value

end

end PureSimdjson
