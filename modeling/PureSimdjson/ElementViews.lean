import PureSimdjson.ParserLifecycle

/-!
# Value views

A view names an element of a live document: the root, by its native pointer, or a
descendant, by a tape index the registry has issued before.  Every call on a view
resolves it first, under the lock, and then runs on the document's entry and the
native state (`DocM`); what it changes in the entry stays, also when it fails later.

The strings and view arrays handed to callers are recorded by address and length,
and only a call that names both gives them back.
-/
namespace PureSimdjson

open Effect SlotTable

/-- A call on one document: its registry entry and the native state. -/
abbrev DocM (W : Type) := EStateM ErrorCode (DocEntry × W)

section
variable {W : Type} {α : Type}

def getEntry : DocM W DocEntry := Prod.fst <$> get

def modifyEntry (change : DocEntry → DocEntry) : DocM W Unit :=
  modify fun s => (change s.1, s.2)

/-- Call native code on the entry's document. -/
def onDoc (call : (doc : Nat) → NativeM W α) : DocM W α := do
  let entry ← getEntry
  zoom Prod.snd (fun s w => (s.1, w)) (call entry.nativePtr)

/-- Run a call on the document in slot `index`, if it is occupied at `generation`. -/
def withDoc (index : Nat) (generation : UInt32) (action : DocM W α) : RuntimeM W α := do
  match (← getRegistry).docAt index generation with
  | some entry =>
    zoom (fun s => (entry, s.native))
      (fun s e => ⟨s.registry.setDoc index (.occupied e.1), e.2⟩) action
  | none => throw .invalidHandle

section
variable {Q : α → DocEntry × W → Prop} {E : ErrorCode → DocEntry × W → Prop} {s : DocEntry × W}

@[simp] theorem wp_getEntry {Q : DocEntry → DocEntry × W → Prop} :
    wp getEntry Q E s ↔ Q s.1 s := Iff.rfl

@[simp] theorem wp_modifyEntry {Q : Unit → DocEntry × W → Prop} (change : DocEntry → DocEntry) :
    wp (modifyEntry change) Q E s ↔ Q () (change s.1, s.2) := Iff.rfl

@[simp] theorem wp_onDoc (call : Nat → NativeM W α) :
    wp (onDoc call) Q E s ↔
      wp (call s.1.nativePtr) (fun a w => Q a (s.1, w)) (fun e w => E e (s.1, w)) s.2 := by
  rw [onDoc, wp_bind, wp_getEntry, wp_zoom]

theorem wp_withDoc {Q : α → Runtime W → Prop} {E : ErrorCode → Runtime W → Prop}
    {s : Runtime W} (index : Nat) (generation : UInt32) (action : DocM W α) :
    wp (withDoc index generation action) Q E s ↔
      (∀ entry, s.registry.docAt index generation = some entry →
        wp action (fun a e => Q a ⟨s.registry.setDoc index (.occupied e.1), e.2⟩)
          (fun rc e => E rc ⟨s.registry.setDoc index (.occupied e.1), e.2⟩) (entry, s.native)) ∧
        (s.registry.docAt index generation = none → E .invalidHandle s) := by
  rw [withDoc, wp_bind, wp_getRegistry]
  cases s.registry.docAt index generation <;> simp

end

/-! ## Resolving a view -/

/-- `validate_descendant`. -/
def validateDescendant (view : ValueView) (entry : DocEntry) : Except ErrorCode Nat :=
  let jsonIndex := view.state0
  let docContainsJsonIndex := jsonIndex ≥ rootJsonIndex ∧ jsonIndex < entry.rootAfterIndex
  if jsonIndex = 0 ∨ ¬ docContainsJsonIndex ∨ jsonIndex ∉ entry.descendantIndices then
    .error .invalidHandle
  else .ok jsonIndex

/-- The tape index a view stands for in a document. -/
def viewIndex (view : ValueView) (entry : DocEntry) : Except ErrorCode Nat :=
  if view.state1 = rootViewTag then
    if entry.rootPtr ≠ view.state0 then .error .invalidHandle else .ok rootJsonIndex
  else if view.state1 = descViewTag then validateDescendant view entry
  else .error .invalidHandle

/-- `with_resolved_view`.  A null pointer is `none`. -/
def withResolvedView (view : Option ValueView) (action : (jsonIndex : Nat) → UInt64 → DocM W α) :
    RuntimeM W α := do
  match view with
  | none => throw .invalidArgument
  | some view =>
    require (¬ (view.state0 = 0 ∨ view.reserved ≠ 0)) .invalidHandle
    let (docIndex, _, docGeneration) ← ofExcept (unpackHandle view.doc)
    withDoc docIndex docGeneration do
      let jsonIndex ← ofExcept (viewIndex view (← getEntry))
      action jsonIndex view.doc

end

section
variable {W : Type} (native : Native W)

/-- `encode_descendant_view_locked`: from here on the document's own index is accepted. -/
def encodeDescendantView (handle : UInt64) (jsonIndex : Nat) : DocM W ValueView := do
  let entry ← getEntry
  require (¬ (jsonIndex = 0 ∨ jsonIndex ≥ entry.rootAfterIndex)) .invalidHandle
  let kindHint ← onDoc (native.read .elementTypeAt · jsonIndex)
  modifyEntry fun entry =>
    { entry with descendantIndices := insert jsonIndex entry.descendantIndices }
  pure ⟨handle, jsonIndex, descViewTag, kindHint, 0⟩

/-! ## Scalars -/

/-- The calls that only read: one native read of the element a view names. -/
def readView {α : Type} (read : ElementRead α) (view : Option ValueView) : RuntimeM W α :=
  withResolvedView view fun jsonIndex _ => onDoc (native.read read · jsonIndex)

/-- `element_type`. -/
def elementType : Option ValueView → RuntimeM W Nat := readView native .elementTypeAt

/-- `element_get_int64`. -/
def elementGetInt64 : Option ValueView → RuntimeM W Int64 := readView native .elementGetInt64At

/-- `element_get_uint64`. -/
def elementGetUint64 : Option ValueView → RuntimeM W UInt64 :=
  readView native .elementGetUint64At

/-- `element_get_bool`. -/
def elementGetBool : Option ValueView → RuntimeM W Bool := readView native .elementGetBoolAt

/-- `element_is_null`. -/
def elementIsNull : Option ValueView → RuntimeM W Bool := readView native .elementIsNullAt

/-- `test_hold_materialize_guard`. -/
def testHoldMaterializeGuard : Option ValueView → RuntimeM W Unit :=
  readView native .testHoldMaterializeGuard

/-- `materialize_build`. -/
def materializeBuild (view : Option ValueView) : RuntimeM W (List Frame) :=
  withResolvedView view fun jsonIndex _ => onDoc (nativeMaterializeBuild native · jsonIndex)

/-- `trailing_zeros` of a word of `width` bits. -/
def trailingZeros : (width value : Nat) → Nat
  | 0, _ => 0
  | width + 1, value => if value % 2 = 1 then 0 else 1 + trailingZeros width (value / 2)

/-- `uint64_is_exact_float64`: all significant bits fit in 53. -/
def uint64IsExactFloat64 (value : UInt64) : Bool :=
  if value = 0 then true
  else
    let significant := value.toNat >>> trailingZeros 64 value.toNat
    let leadingZeros := 64 - significant.size
    64 - leadingZeros ≤ 53

/-- `int64_is_exact_float64`. -/
def int64IsExactFloat64 (value : Int64) : Bool :=
  uint64IsExactFloat64 (if value < 0 then (-value).toUInt64 else value.toUInt64)

/-- The bits of an integer that is exactly a double. -/
def float64Bits (negative : Bool) (magnitude : Nat) : UInt64 :=
  if magnitude = 0 then 0
  else
    let exponent := magnitude.log2
    let fraction := magnitude * 2 ^ 52 / 2 ^ exponent - 2 ^ 52
    UInt64.ofNat ((if negative then 2 ^ 63 else 0) + (exponent + 1023) * 2 ^ 52 + fraction)

/-- `element_get_float64`: integers convert when nothing is lost. -/
def elementGetFloat64 (view : Option ValueView) : RuntimeM W UInt64 :=
  withResolvedView view fun jsonIndex _ => do
    let kind ← onDoc (native.read .elementTypeAt · jsonIndex)
    if kind = ValueKind.int64.code then do
      let value ← onDoc (native.read .elementGetInt64At · jsonIndex)
      require (int64IsExactFloat64 value) .precisionLoss
      pure (float64Bits (value < 0) value.toInt.natAbs)
    else if kind = ValueKind.uint64.code then do
      let value ← onDoc (native.read .elementGetUint64At · jsonIndex)
      require (uint64IsExactFloat64 value) .precisionLoss
      pure (float64Bits false value.toNat)
    else onDoc (native.read .elementGetFloat64At · jsonIndex)

/-! ## Blocks handed to callers -/

/-- A table of the registry that records blocks by address. -/
structure Ledger where
  get : Registry → AList fun _ : Nat => Nat
  set : Registry → (AList fun _ : Nat => Nat) → Registry

/-- `byte_allocations`. -/
def byteLedger : Ledger where
  get := Registry.byteAllocations
  set registry allocations := { registry with byteAllocations := allocations }

/-- `view_array_allocations`. -/
def viewLedger : Ledger where
  get := Registry.viewArrayAllocations
  set registry allocations := { registry with viewArrayAllocations := allocations }

/-- The end of the calls that hand out a block: it is recorded, or dropped again if
its address is already taken. -/
def registerBlock (ledger : Ledger) (drop : Nat → Nat → W → W) (ptr len : Nat) :
    RuntimeM W (Nat × Nat) := do
  let registry ← getRegistry
  modifyRegistry fun registry => ledger.set registry ((ledger.get registry).insert ptr len)
  if ptr ∈ ledger.get registry then do
    callNative (modify (drop ptr len))
    throw .internal
  else pure (ptr, len)

/-- `bytes_free` and `value_views_free`. -/
def freeBlock (ledger : Ledger) (drop : Nat → Nat → W → W) (ptr len : Nat) :
    RuntimeM W Unit := do
  if ptr = 0 then require (len = 0) .invalidArgument
  else do
    require (len ≠ 0) .invalidArgument
    let registry ← getRegistry
    match (ledger.get registry).lookup ptr with
    | some registeredLen =>
      modifyRegistry fun registry => ledger.set registry ((ledger.get registry).erase ptr)
      if registeredLen = len then callNative (modify (drop ptr len))
      else do
        modifyRegistry fun registry =>
          ledger.set registry ((ledger.get registry).insert ptr registeredLen)
        throw .invalidHandle
    | none => throw .invalidHandle

/-- `element_get_bytes_copy`.  The block is made under the lock and recorded under it
again. -/
def elementGetBytesCopy (getter : ElementRead Span) (view : Option ValueView) :
    RuntimeM W (Nat × Nat) := do
  let (ptr, len) ← withResolvedView view fun jsonIndex _ => do
    let borrowed ← onDoc (native.read getter · jsonIndex)
    if borrowed.len = 0 then pure (0, 0)
    else do
      require (borrowed.ptr ≠ 0) .internal
      let ptr ← onDoc fun _ => do
        let bytes := (native.memory (← get)).read borrowed
        modifyGet (native.leakBytes bytes)
      pure (ptr, borrowed.len)
  if ptr = 0 then pure (ptr, len)
  else registerBlock byteLedger native.dropBytes ptr len

/-- `element_get_string`. -/
def elementGetString : Option ValueView → RuntimeM W (Nat × Nat) :=
  elementGetBytesCopy native .elementGetStringView

/-- `element_get_bigint_copy`. -/
def elementGetBigintCopy : Option ValueView → RuntimeM W (Nat × Nat) :=
  elementGetBytesCopy native .elementGetBigintView

/-- `bytes_free`. -/
def bytesFree : (ptr len : Nat) → RuntimeM W Unit := freeBlock byteLedger native.dropBytes

/-- `value_views_free`. -/
def valueViewsFree : (ptr len : Nat) → RuntimeM W Unit := freeBlock viewLedger native.dropViews

/-! ## Lookups -/

/-- The container calls refuse an element of another kind themselves. -/
def requireKind (kind : ValueKind) (jsonIndex : Nat) : DocM W Unit := do
  let actual ← onDoc (native.read .elementTypeAt · jsonIndex)
  require (actual = kind.code) .wrongType

/-- `object_get_field`. -/
def objectGetField (objectView : Option ValueView) (key : Bytes) : RuntimeM W ValueView :=
  withResolvedView objectView fun jsonIndex doc => do
    requireKind native .object jsonIndex
    let valueJsonIndex ← onDoc (nativeObjectGetFieldIndex native · jsonIndex key)
    encodeDescendantView native doc valueJsonIndex

/-- `array_at`. -/
def arrayAt (arrayView : Option ValueView) (index : Nat) : RuntimeM W ValueView :=
  withResolvedView arrayView fun jsonIndex doc => do
    requireKind native .array jsonIndex
    let valueJsonIndex ← onDoc (nativeArrayAtIndex native · jsonIndex index)
    encodeDescendantView native doc valueJsonIndex

/-- `array_len`. -/
def arrayLen (arrayView : Option ValueView) : RuntimeM W Nat :=
  withResolvedView arrayView fun jsonIndex _ => do
    requireKind native .array jsonIndex
    onDoc (native.read .arraySize · jsonIndex)

/-- `object_size`. -/
def objectSize (objectView : Option ValueView) : RuntimeM W Nat :=
  withResolvedView objectView fun jsonIndex _ => do
    requireKind native .object jsonIndex
    onDoc (native.read .objectSize · jsonIndex)

/-- `element_at_pointer`. -/
def elementAtPointer (view : Option ValueView) (pointer : Bytes) : RuntimeM W ValueView :=
  withResolvedView view fun jsonIndex doc => do
    let valueJsonIndex ← onDoc (nativeElementAtPointerIndex native · jsonIndex pointer)
    encodeDescendantView native doc valueJsonIndex

/-- `element_at_path`. -/
def elementAtPath (view : Option ValueView) (path : Bytes) : RuntimeM W ValueView :=
  withResolvedView view fun jsonIndex doc => do
    let valueJsonIndex ← onDoc (nativeElementAtPathIndex native · jsonIndex path)
    encodeDescendantView native doc valueJsonIndex

/-- `element_at_path_wildcard`: a block of views, recorded like a string. -/
def elementAtPathWildcard (view : Option ValueView) (path : Bytes) : RuntimeM W (Nat × Nat) := do
  let views ← withResolvedView view fun jsonIndex doc => do
    let indices ← onDoc (native.read (.elementAtPathWildcardIndices path) · jsonIndex)
    indices.mapM (encodeDescendantView native doc)
  if views.isEmpty then pure (0, 0)
  else do
    let ptr ← callNative (modifyGet (native.leakViews views))
    registerBlock viewLedger native.dropViews ptr views.length

end

end PureSimdjson
