import PureSimdjson.Effect
import PureSimdjson.Frames

/-!
# The native side, as the registry sees it

The registry calls the C++ bridge through the `psimdjson_*` functions, and the
process allocator for the blocks it hands to callers.  Both are a parameter here:
`Native W` is any implementation over any state `W` of the process outside the
registry.  A call either fails with a status or returns what it writes to its
out-parameters.

The reads of an element all take a native document and a tape index and differ in
what they return, so they are one field, indexed by `ElementRead`.

The `native_*` wrappers of the runtime come after: they refuse a zero index, a null
pointer or crossed bounds, whatever status came with them.
-/
namespace PureSimdjson

open Effect

/-- The `psimdjson_*` functions that take a document and a tape index, by what they
return.  A double is its bit pattern. -/
inductive ElementRead : Type → Type where
  | elementTypeAt : ElementRead Nat
  | elementGetInt64At : ElementRead Int64
  | elementGetUint64At : ElementRead UInt64
  | elementGetFloat64At : ElementRead UInt64
  | elementGetStringView : ElementRead Span
  | elementGetBigintView : ElementRead Span
  | elementGetBoolAt : ElementRead Bool
  | elementIsNullAt : ElementRead Bool
  | elementAfterIndex : ElementRead Nat
  | arrayIterBounds : ElementRead (Nat × Nat)
  | objectIterBounds : ElementRead (Nat × Nat)
  | objectGetFieldIndex (key : Bytes) : ElementRead Nat
  | arrayAtIndex (index : Nat) : ElementRead Nat
  | arraySize : ElementRead Nat
  | objectSize : ElementRead Nat
  | elementAtPointerIndex (pointer : Bytes) : ElementRead Nat
  | elementAtPathIndex (path : Bytes) : ElementRead Nat
  | elementAtPathWildcardIndices (path : Bytes) : ElementRead (List Nat)
  | materializeBuild : ElementRead (List Frame)
  | testHoldMaterializeGuard : ElementRead Unit

/-- A call into native code. -/
abbrev NativeM (W : Type) := EStateM ErrorCode W

/-- The native functions, over the state `W`. -/
structure Native (W : Type) where
  paddingBytes : Nat
  parserNew : NativeM W Nat
  parserNewConfigured (maxCapacity : Nat) (maxDepth : UInt32) : NativeM W Nat
  parserFree (parser : Nat) : NativeM W Unit
  parserResetDiagnostics (parser : Nat) : NativeM W Unit
  parserParse (parser : Nat) (input : Bytes) (inputLen : Nat) : NativeM W Nat
  parserGetLastErrorLen (parser : Nat) : NativeM W Nat
  parserCopyLastError (parser dst dstCap outWritten : Nat) : NativeM W Bytes
  parserGetLastErrorOffset (parser : Nat) : NativeM W Nat
  parserGetLastErrorHasOffset (parser : Nat) : NativeM W Bool
  docRoot (doc : Nat) : NativeM W Nat
  docFree (doc : Nat) : NativeM W Unit
  elementType (element : Nat) : NativeM W Nat
  read {α : Type} (read : ElementRead α) (doc jsonIndex : Nat) : NativeM W α
  /-- What the address space holds. -/
  memory : W → Memory
  /-- `to_vec` and `mem::forget`: the address of the new block. -/
  leakBytes (bytes : Bytes) : W → Nat × W
  leakViews (views : List ValueView) : W → Nat × W
  /-- `drop(Vec::from_raw_parts(ptr, len, len))`. -/
  dropBytes (ptr len : Nat) : W → W
  dropViews (ptr len : Nat) : W → W

/-- `NativeParsedDoc`. -/
structure NativeParsedDoc where
  docPtr : Nat
  rootPtr : Nat

section
variable {W : Type} (native : Native W)

/-- Returning early with `err_internal()`, unless what came back is usable. -/
def orInternal {σ α : Type} (usable : α → Bool) (a : α) : EStateM ErrorCode σ α :=
  if usable a then pure a else throw .internal

/-- `padding_bytes`. -/
def paddingBytes : Except ErrorCode Nat :=
  if native.paddingBytes = 0 then .error .internal else .ok native.paddingBytes

/-- `native_parser_new`. -/
def nativeParserNew : NativeM W Nat := do
  orInternal (· ≠ 0) (← native.parserNew)

/-- `native_parser_new_configured`. -/
def nativeParserNewConfigured (maxCapacity : Nat) (maxDepth : UInt32) : NativeM W Nat := do
  orInternal (· ≠ 0) (← native.parserNewConfigured maxCapacity maxDepth)

/-- A call made while an error is already being returned: its own failure is only
logged. -/
def cleanup {σ : Type} (call : EStateM ErrorCode σ Unit) : EStateM ErrorCode σ Unit :=
  tryCatch call fun _ => pure ()

/-- Cleaning up never fails. -/
@[simp] theorem wp_cleanup {σ : Type} {Q : Unit → σ → Prop} {E : ErrorCode → σ → Prop} {s : σ}
    (call : EStateM ErrorCode σ Unit) :
    wp (cleanup call) Q E s ↔ wp call (fun _ => Q ()) (fun _ => Q ()) s := by
  rw [cleanup, wp_tryCatch]
  exact Iff.rfl

@[simp] theorem wp_orInternal {σ α : Type} {Q : α → σ → Prop} {E : ErrorCode → σ → Prop} {s : σ}
    (usable : α → Bool) (a : α) :
    wp (orInternal usable a) Q E s ↔ (usable a → Q a s) ∧ (¬ usable a → E .internal s) := by
  rw [orInternal, wp_ite, wp_pure, wp_throw]

/-- `native_parser_parse`: a document without a root is freed again. -/
def nativeParserParse (parser : Nat) (input : Bytes) (inputLen : Nat) :
    NativeM W NativeParsedDoc := do
  let doc ← orInternal (· ≠ 0) (← native.parserParse parser input inputLen)
  let root ← tryCatch (native.docRoot doc) fun rc => do
    cleanup (native.docFree doc)
    throw rc
  if root = 0 then do
    cleanup (native.docFree doc)
    throw .internal
  else pure ⟨doc, root⟩

/-- `native_element_after_index`. -/
def nativeElementAfterIndex (doc jsonIndex : Nat) : NativeM W Nat := do
  orInternal (· ≠ 0) (← native.read .elementAfterIndex doc jsonIndex)

/-- The test both `native_*_iter_bounds` end with. -/
def nativeIterBounds (read : ElementRead (Nat × Nat)) (doc jsonIndex : Nat) :
    NativeM W (Nat × Nat) := do
  orInternal (fun bounds => bounds.1 ≠ 0 ∧ bounds.2 ≠ 0 ∧ bounds.1 ≤ bounds.2)
    (← native.read read doc jsonIndex)

/-- `native_array_iter_bounds`. -/
def nativeArrayIterBounds : (doc jsonIndex : Nat) → NativeM W (Nat × Nat) :=
  nativeIterBounds native .arrayIterBounds

/-- `native_object_iter_bounds`. -/
def nativeObjectIterBounds : (doc jsonIndex : Nat) → NativeM W (Nat × Nat) :=
  nativeIterBounds native .objectIterBounds

/-- The test every single-result lookup ends with. -/
def nativeLookup (read : ElementRead Nat) (doc jsonIndex : Nat) : NativeM W Nat := do
  orInternal (· ≠ 0) (← native.read read doc jsonIndex)

/-- `native_object_get_field_index`. -/
def nativeObjectGetFieldIndex (doc jsonIndex : Nat) (key : Bytes) : NativeM W Nat :=
  nativeLookup native (.objectGetFieldIndex key) doc jsonIndex

/-- `native_array_at_index`. -/
def nativeArrayAtIndex (doc jsonIndex index : Nat) : NativeM W Nat :=
  nativeLookup native (.arrayAtIndex index) doc jsonIndex

/-- `native_element_at_pointer_index`. -/
def nativeElementAtPointerIndex (doc jsonIndex : Nat) (pointer : Bytes) : NativeM W Nat :=
  nativeLookup native (.elementAtPointerIndex pointer) doc jsonIndex

/-- `native_element_at_path_index`. -/
def nativeElementAtPathIndex (doc jsonIndex : Nat) (path : Bytes) : NativeM W Nat :=
  nativeLookup native (.elementAtPathIndex path) doc jsonIndex

/-- `native_materialize_build`. -/
def nativeMaterializeBuild (doc jsonIndex : Nat) : NativeM W (List Frame) := do
  orInternal (fun frames => !frames.isEmpty) (← native.read .materializeBuild doc jsonIndex)

end

end PureSimdjson
