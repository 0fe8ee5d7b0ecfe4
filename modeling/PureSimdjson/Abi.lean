import Mathlib

/-!
# The C ABI: status codes, kinds, handles, views, iterators

What crosses the boundary between a caller and the shim.  A caller holds plain
structs and can edit every field of them, so nothing here carries an invariant:
a view or an iterator is whatever bits the caller passes.

A 64-bit tape index, native address or length is a natural number; every field a
caller fills in ranges over all of them, so over all bit patterns.  Handles,
generations and lease ids wrap, and are `UInt64` and `UInt32`.
-/
namespace PureSimdjson

/-- `pure_simdjson_error_code_t`. -/
inductive ErrorCode where
  | ok
  | invalidArgument
  | invalidHandle
  | parserBusy
  | wrongType
  | elementNotFound
  | bufferTooSmall
  | notImplemented
  | depthLimit
  | capacityLimit
  | kernelLocked
  | invalidPath
  | indexOutOfRange
  | invalidJson
  | numberOutOfRange
  | precisionLoss
  | cpuUnsupported
  | abiMismatch
  | panic
  | cppException
  | internal
  deriving DecidableEq, Repr

/-- `pure_simdjson_value_kind_t`. -/
inductive ValueKind where
  | invalid
  | null
  | bool
  | int64
  | uint64
  | float64
  | string
  | array
  | object
  | bigint
  deriving DecidableEq, Repr

/-- The pinned number of a kind, as `kind_hint` carries it. -/
def ValueKind.code : ValueKind → Nat
  | .invalid => 0
  | .null => 1
  | .bool => 2
  | .int64 => 3
  | .uint64 => 4
  | .float64 => 5
  | .string => 6
  | .array => 7
  | .object => 8
  | .bigint => 9

/-! ## Tags -/

/-- `from_le_bytes` of an ASCII literal. -/
def fromLeBytes : List Char → Nat
  | [] => 0
  | c :: cs => c.toNat + 256 * fromLeBytes cs

/-- `ROOT_VIEW_TAG`. -/
def rootViewTag : Nat := fromLeBytes ['P', 'S', 'D', 'J', 'R', 'O', 'O', 'T']

/-- `DESC_VIEW_TAG`. -/
def descViewTag : Nat := fromLeBytes ['P', 'S', 'D', 'J', 'D', 'E', 'S', 'C']

/-- `ARRAY_ITER_TAG`. -/
def arrayIterTag : Nat := fromLeBytes ['A', 'R']

/-- `OBJECT_ITER_TAG`. -/
def objectIterTag : Nat := fromLeBytes ['O', 'B']

theorem descViewTag_ne_rootViewTag : descViewTag ≠ rootViewTag := by decide

theorem arrayIterTag_ne_objectIterTag : arrayIterTag ≠ objectIterTag := by decide

/-! ## The limits of a parser -/

/-- `DEFAULT_MAX_CAPACITY`. -/
def defaultMaxCapacity : Nat := 2 ^ 32 - 1

/-- `MIN_MAX_CAPACITY`. -/
def minMaxCapacity : Nat := 32

/-- `MAX_SUPPORTED_DEPTH`. -/
def maxSupportedDepth : Nat := 1024

/-- `DEFAULT_MAX_DEPTH`. -/
def defaultMaxDepth : UInt32 := 1024

/-- The limits that `parser_new_configured_with_selection_lock` takes. -/
def checkParserLimits (maxCapacity maxDepth : Nat) : Except ErrorCode Unit :=
  if maxCapacity ≠ 0 ∧ (maxCapacity < minMaxCapacity ∨ maxCapacity > defaultMaxCapacity) then
    .error .invalidArgument
  else if maxDepth > maxSupportedDepth then .error .invalidArgument
  else .ok ()

theorem checkParserLimits_error {maxCapacity maxDepth : Nat} {rc : ErrorCode}
    (h : checkParserLimits maxCapacity maxDepth = .error rc) : rc = .invalidArgument := by
  rw [checkParserLimits] at h
  split at h
  · exact (Except.error.inj h).symm
  · split at h
    · exact (Except.error.inj h).symm
    · cases h

/-! ## Structs -/

/-- `pure_simdjson_value_view_t`. -/
structure ValueView where
  doc : UInt64
  state0 : Nat
  state1 : Nat
  kindHint : Nat
  reserved : Nat
  deriving DecidableEq, Repr

/-- The `Default` view, which a finished iterator hands out. -/
def ValueView.default : ValueView := ⟨0, 0, 0, 0, 0⟩

/-- `pure_simdjson_array_iter_t` and `pure_simdjson_object_iter_t`, which have the
same fields and are told apart by `tag` alone. -/
structure Iter where
  doc : UInt64
  state0 : Nat
  state1 : Nat
  index : UInt32
  tag : Nat
  reserved : Nat
  deriving DecidableEq, Repr

/-! ## Packed handles -/

/-- `pack_handle`. -/
def packHandle (slot generation : UInt32) : UInt64 :=
  slot.toUInt64 ||| (generation.toUInt64 <<< 32)

/-- `unpack_handle`: the table index, the slot and the generation. -/
def unpackHandle (handle : UInt64) : Except ErrorCode (Nat × UInt32 × UInt32) :=
  if handle = 0 then .error .invalidHandle
  else
    let slot := handle.toUInt32
    if slot = 0 then .error .invalidHandle
    else .ok ((slot - 1).toNat, slot, (handle >>> 32).toUInt32)

theorem packHandle_toNat (slot generation : UInt32) :
    (packHandle slot generation).toNat = slot.toNat + generation.toNat * 2 ^ 32 := by
  have hs : slot.toNat < 2 ^ 32 := slot.toNat_lt
  have hg : generation.toNat < 2 ^ 32 := generation.toNat_lt
  have hshift : (generation.toUInt64 <<< 32).toNat = generation.toNat <<< 32 := by
    rw [UInt64.toNat_shiftLeft]
    simp only [UInt32.toNat_toUInt64]
    rw [show (32 : UInt64).toNat % 64 = 32 from rfl]
    exact Nat.mod_eq_of_lt (by rw [Nat.shiftLeft_eq]; omega)
  rw [packHandle, UInt64.toNat_or, hshift, UInt32.toNat_toUInt64, Nat.or_comm,
    ← Nat.shiftLeft_add_eq_or_of_lt hs, Nat.shiftLeft_eq]
  omega

theorem packHandle_slot (slot generation : UInt32) :
    (packHandle slot generation).toUInt32 = slot := by
  apply UInt32.toNat_inj.mp
  have hs : slot.toNat < 2 ^ 32 := slot.toNat_lt
  rw [UInt64.toNat_toUInt32, packHandle_toNat]
  omega

theorem packHandle_generation (slot generation : UInt32) :
    (packHandle slot generation >>> 32).toUInt32 = generation := by
  apply UInt32.toNat_inj.mp
  have hs : slot.toNat < 2 ^ 32 := slot.toNat_lt
  have hg : generation.toNat < 2 ^ 32 := generation.toNat_lt
  rw [UInt64.toNat_toUInt32, UInt64.toNat_shiftRight, packHandle_toNat,
    show (32 : UInt64).toNat % 64 = 32 from rfl, Nat.shiftRight_eq_div_pow]
  omega

/-- Handles are numerically equal only if slot and generation are. -/
theorem packHandle_inj {slot slot' generation generation' : UInt32} :
    packHandle slot generation = packHandle slot' generation' ↔
      slot = slot' ∧ generation = generation' := by
  constructor
  · intro h
    refine ⟨?_, ?_⟩
    · rw [← packHandle_slot slot generation, h, packHandle_slot]
    · rw [← packHandle_generation slot generation, h, packHandle_generation]
  · rintro ⟨rfl, rfl⟩
    rfl

theorem packHandle_ne_zero {slot : UInt32} (hs : slot ≠ 0) (generation : UInt32) :
    packHandle slot generation ≠ 0 := by
  intro h
  apply hs
  rw [← packHandle_slot slot generation, h]
  rfl

/-- **Unpacking inverts packing** for every slot that is ever handed out. -/
theorem unpackHandle_packHandle {slot : UInt32} (hs : slot ≠ 0) (generation : UInt32) :
    unpackHandle (packHandle slot generation) =
      .ok ((slot - 1).toNat, slot, generation) := by
  unfold unpackHandle
  rw [if_neg (packHandle_ne_zero hs generation)]
  simp only [packHandle_slot, packHandle_generation, if_neg hs]

/-- There is one way in which unpacking fails. -/
theorem unpackHandle_error {handle : UInt64} {rc : ErrorCode}
    (h : unpackHandle handle = .error rc) : rc = .invalidHandle := by
  unfold unpackHandle at h
  split at h
  · exact (Except.error.inj h).symm
  · simp only at h
    split at h
    · exact (Except.error.inj h).symm
    · cases h

/-- What unpacking accepts is the packing of what it returns. -/
theorem unpackHandle_eq_ok {handle : UInt64} {index : Nat} {slot generation : UInt32}
    (h : unpackHandle handle = .ok (index, slot, generation)) :
    slot ≠ 0 ∧ index = (slot - 1).toNat ∧ handle = packHandle slot generation := by
  unfold unpackHandle at h
  split at h
  · cases h
  · simp only at h
    split at h
    · cases h
    · rename_i hs
      cases h
      refine ⟨hs, rfl, ?_⟩
      apply UInt64.toNat_inj.mp
      rw [packHandle_toNat, UInt64.toNat_toUInt32, UInt64.toNat_toUInt32,
        UInt64.toNat_shiftRight, show (32 : UInt64).toNat % 64 = 32 from rfl,
        Nat.shiftRight_eq_div_pow]
      have := handle.toNat_lt
      omega

end PureSimdjson
