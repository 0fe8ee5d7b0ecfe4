import PureSimdjson.Native
import PureSimdjson.Registry

/-!
# Parsers and documents

The exported calls that create and destroy parsers and documents.  Each holds the
registry lock from beginning to end, so it is one program over the registry and the
native state, and what it has changed when it returns early stays changed.

`parser_parse` takes the parser's old input buffer and hands it to the document;
`doc_free` hands it back.
-/
namespace PureSimdjson

open Effect SlotTable

/-- The registry and everything outside it. -/
structure Runtime (W : Type) where
  registry : Registry
  native : W

/-- A call made under the registry lock. -/
abbrev RuntimeM (W : Type) := EStateM ErrorCode (Runtime W)

section
variable {W : Type}

/-- Call native code; the registry does not see it. -/
def callNative {α : Type} (call : NativeM W α) : RuntimeM W α :=
  zoom Runtime.native (fun s w => { s with native := w }) call

def getRegistry : RuntimeM W Registry := Runtime.registry <$> get

def modifyRegistry (change : Registry → Registry) : RuntimeM W Unit :=
  modify fun s => { s with registry := change s.registry }

/-- `registry.parsers.get(index)`, matched against this generation. -/
def lookupParser (index : Nat) (generation : UInt32) : RuntimeM W ParserEntry := do
  match (← getRegistry).parserAt index generation with
  | some entry => pure entry
  | none => throw .invalidHandle

/-- `registry.docs.get(index)`, matched against this generation. -/
def lookupDoc (index : Nat) (generation : UInt32) : RuntimeM W DocEntry := do
  match (← getRegistry).docAt index generation with
  | some entry => pure entry
  | none => throw .invalidHandle

section
variable {α : Type} {Q : α → Runtime W → Prop} {E : ErrorCode → Runtime W → Prop} {s : Runtime W}

@[simp] theorem wp_callNative (call : NativeM W α) :
    wp (callNative call) Q E s ↔
      wp call (fun a w => Q a { s with native := w }) (fun e w => E e { s with native := w })
        s.native :=
  wp_zoom ..

@[simp] theorem wp_getRegistry {Q : Registry → Runtime W → Prop} :
    wp getRegistry Q E s ↔ Q s.registry s := Iff.rfl

@[simp] theorem wp_modifyRegistry {Q : Unit → Runtime W → Prop} (change : Registry → Registry) :
    wp (modifyRegistry change) Q E s ↔ Q () { s with registry := change s.registry } := Iff.rfl

theorem wp_lookupParser {Q : ParserEntry → Runtime W → Prop} (index : Nat)
    (generation : UInt32) :
    wp (lookupParser index generation) Q E s ↔
      (∀ entry, s.registry.parserAt index generation = some entry → Q entry s) ∧
        (s.registry.parserAt index generation = none → E .invalidHandle s) := by
  rw [lookupParser, wp_bind, wp_getRegistry]
  cases s.registry.parserAt index generation <;> simp

theorem wp_lookupDoc {Q : DocEntry → Runtime W → Prop} (index : Nat) (generation : UInt32) :
    wp (lookupDoc index generation) Q E s ↔
      (∀ entry, s.registry.docAt index generation = some entry → Q entry s) ∧
        (s.registry.docAt index generation = none → E .invalidHandle s) := by
  rw [lookupDoc, wp_bind, wp_getRegistry]
  cases s.registry.docAt index generation <;> simp

theorem wp_lookupParser_some {Q : ParserEntry → Runtime W → Prop} {index : Nat}
    {generation : UInt32} {entry : ParserEntry}
    (h : s.registry.parserAt index generation = some entry) :
    wp (lookupParser index generation) Q E s ↔ Q entry s := by
  rw [wp_lookupParser, h]
  simp

theorem wp_lookupDoc_some {Q : DocEntry → Runtime W → Prop} {index : Nat} {generation : UInt32}
    {entry : DocEntry} (h : s.registry.docAt index generation = some entry) :
    wp (lookupDoc index generation) Q E s ↔ Q entry s := by
  rw [wp_lookupDoc, h]
  simp

end

end

section
variable {W : Type} (native : Native W)

/-! ## Parsers -/

/-- `register_parser`. -/
def registerParser (nativePtr maxCapacity : Nat) (maxDepth : UInt32) : RuntimeM W UInt64 := do
  match (← getRegistry).allocParser nativePtr maxCapacity maxDepth with
  | .ok (handle, registry) =>
    modifyRegistry fun _ => registry
    pure handle
  | .error rc =>
    callNative (cleanup (native.parserFree nativePtr))
    throw rc

/-- `parser_new`. -/
def parserNew : RuntimeM W UInt64 := do
  let nativePtr ← callNative (nativeParserNew native)
  registerParser native nativePtr defaultMaxCapacity defaultMaxDepth

/-- The capacity a configured parser gets: zero asks for the default. -/
def effectiveMaxCapacity (maxCapacity : Nat) : Except ErrorCode Nat :=
  if maxCapacity = 0 then .ok defaultMaxCapacity
  else if ¬ (minMaxCapacity ≤ maxCapacity ∧ maxCapacity ≤ defaultMaxCapacity) then
    .error .invalidArgument
  else .ok maxCapacity

/-- `parser_new_configured`. -/
def parserNewConfigured (maxCapacity : Nat) (maxDepth : UInt32) : RuntimeM W UInt64 := do
  let effectiveMaxCapacity ← ofExcept (effectiveMaxCapacity maxCapacity)
  let effectiveMaxDepth := if maxDepth = 0 then defaultMaxDepth else maxDepth
  let nativePtr ←
    callNative (nativeParserNewConfigured native effectiveMaxCapacity effectiveMaxDepth)
  registerParser native nativePtr effectiveMaxCapacity effectiveMaxDepth

/-- `parser_free`. -/
def parserFree (handle : UInt64) : RuntimeM W Unit := do
  let (index, _, generation) ← ofExcept (unpackHandle handle)
  let entry ← lookupParser index generation
  require (entry.state = .idle) .parserBusy
  callNative (native.parserFree entry.nativePtr)
  modifyRegistry (·.setParser index (.vacant (nextParserGeneration generation)))

/-- The last-error calls: one native call on the parser a handle names. -/
def withParser {α : Type} (handle : UInt64) (call : Nat → NativeM W α) : RuntimeM W α := do
  let entry ← ofExcept ((← getRegistry).parserEntry handle)
  callNative (call entry.nativePtr)

/-- `parser_last_error_len`. -/
def parserLastErrorLen (handle : UInt64) : RuntimeM W Nat :=
  withParser handle native.parserGetLastErrorLen

/-- `parser_copy_last_error`. -/
def parserCopyLastError (handle : UInt64) (dst dstCap outWritten : Nat) : RuntimeM W Bytes :=
  withParser handle (native.parserCopyLastError · dst dstCap outWritten)

/-- `parser_last_error_offset`. -/
def parserLastErrorOffset (handle : UInt64) : RuntimeM W Nat :=
  withParser handle native.parserGetLastErrorOffset

/-- `parser_last_error_has_offset`. -/
def parserLastErrorHasOffset (handle : UInt64) : RuntimeM W Bool :=
  withParser handle native.parserGetLastErrorHasOffset

/-! ## Parsing -/

/-- `Vec::resize(len, 0)`. -/
def resizeBuffer (buffer : Bytes) (len : Nat) : Bytes :=
  buffer.take len ++ List.replicate (len - buffer.length) 0

/-- The buffer the native parser reads: the recycled one, resized, with the input
copied to its front and the rest cleared. -/
def paddedInput (reusable input : Bytes) (padding : Nat) : Bytes :=
  let resized := resizeBuffer reusable (input.length + padding)
  let copied := input ++ resized.drop input.length
  copied.take input.length ++ List.replicate (copied.length - input.length) 0

/-- Nothing of the recycled buffer is left. -/
theorem paddedInput_eq (reusable input : Bytes) (padding : Nat) :
    paddedInput reusable input padding = input ++ List.replicate padding 0 := by
  have hlen : (resizeBuffer reusable (input.length + padding)).length = input.length + padding := by
    simp [resizeBuffer]
    omega
  simp [paddedInput, hlen]

/-- `restore_parser_input_buffer`. -/
def restoreParserInputBuffer (index : Nat) (generation : UInt32) (inputStorage : Bytes) :
    RuntimeM W Unit :=
  modifyRegistry fun registry =>
    match registry.parserAt index generation with
    | some entry =>
      if entry.state = .idle then
        registry.setParser index (.occupied { entry with reusableInput := inputStorage })
      else registry
    | none => registry

/-- What `parser_parse` does with a parsed document it cannot register. -/
def discardParsed {α : Type} (docPtr index : Nat) (generation : UInt32) (ownedInput : Bytes)
    (rc : ErrorCode) : RuntimeM W α := do
  callNative (cleanup (native.docFree docPtr))
  restoreParserInputBuffer index generation ownedInput
  throw rc

/-- The end of `parser_parse`: the parser becomes busy with the new document. -/
def occupyParser (docPtr index : Nat) (generation : UInt32) (docHandle : UInt64) :
    RuntimeM W UInt64 := do
  let (docIndex, docSlot, docGeneration) ← ofExcept (unpackHandle docHandle)
  match (← getRegistry).parserAt index generation with
  | some entry =>
    modifyRegistry
      (·.setParser index (.occupied { entry with state := .busy docSlot docGeneration }))
    pure docHandle
  | none =>
    -- the parser vanished: the new document is torn down again
    callNative (cleanup (native.docFree docPtr))
    modifyRegistry fun registry =>
      match registry.docAt docIndex docGeneration with
      | some _ => registry.setDoc docIndex (.vacant (nextDocGeneration docGeneration))
      | none => registry
    throw .internal

/-- `parser_parse`. -/
def parserParse (handle : UInt64) (input : Bytes) : RuntimeM W UInt64 := do
  let (index, slot, generation) ← ofExcept (unpackHandle handle)
  let entry ← lookupParser index generation
  require (entry.state = .idle) .parserBusy
  callNative (native.parserResetDiagnostics entry.nativePtr)
  require (input.length ≤ entry.maxCapacity) .capacityLimit
  -- `mem::take`: from here on an early return leaves the parser without its buffer
  modifyRegistry (·.setParser index (.occupied { entry with reusableInput := [] }))
  let padding ← ofExcept (paddingBytes native)
  require (input.length + padding < 2 ^ 64) .invalidArgument
  let ownedInput := paddedInput entry.reusableInput input padding
  let parsed ← tryCatch
    (callNative (nativeParserParse native entry.nativePtr ownedInput input.length))
    fun rc => do
      restoreParserInputBuffer index generation ownedInput
      throw rc
  let rootAfterIndex ← tryCatch
    (callNative (nativeElementAfterIndex native parsed.docPtr rootJsonIndex))
    (discardParsed native parsed.docPtr index generation ownedInput)
  match (← getRegistry).allocDoc parsed.docPtr parsed.rootPtr rootAfterIndex slot generation
      ownedInput with
  | .ok (docHandle, registry) =>
    modifyRegistry fun _ => registry
    occupyParser native parsed.docPtr index generation docHandle
  | .error rc => discardParsed native parsed.docPtr index generation ownedInput rc

/-! ## Documents -/

/-- `doc_free`. -/
def docFree (handle : UInt64) : RuntimeM W Unit := do
  let (docIndex, _, docGeneration) ← ofExcept (unpackHandle handle)
  let doc ← lookupDoc docIndex docGeneration
  require (doc.ownerSlot ≠ 0) .invalidHandle
  let parserIndex := (doc.ownerSlot - 1).toNat
  let owner ← lookupParser parserIndex doc.ownerGeneration
  require (owner.state = .busy (UInt32.ofNat (docIndex + 1)) docGeneration) .invalidHandle
  callNative (native.docFree doc.nativePtr)
  match (← getRegistry).docAt docIndex docGeneration with
  | none => throw .internal
  | some entry =>
    modifyRegistry (·.setDoc docIndex (.vacant (nextDocGeneration docGeneration)))
    match (← getRegistry).parserAt parserIndex doc.ownerGeneration with
    | some owner =>
      modifyRegistry (·.setParser parserIndex
        (.occupied { owner with state := .idle, reusableInput := entry.inputStorage }))
    | none => throw .internal

/-- `doc_root`. -/
def docRoot (handle : UInt64) : RuntimeM W ValueView := do
  let entry ← ofExcept ((← getRegistry).docEntry handle)
  let kindHint ← callNative (native.elementType entry.rootPtr)
  pure ⟨handle, entry.rootPtr, rootViewTag, kindHint, 0⟩

end

end PureSimdjson
