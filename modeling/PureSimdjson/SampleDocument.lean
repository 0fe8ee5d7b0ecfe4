import PureSimdjson.Bridge
import PureSimdjson.Calls

/-!
# A native side for trying things out

Every text parses to the one document `{"a":[null,7],"aa":7}`, whatever it says, and every
call on a live document works.  The strings of documents lie below address `2 ^ 32`, where
every byte is an `a`; the blocks handed to callers lie above, one after the other.
-/
namespace PureSimdjson

open Effect Runs

/-- `{"a":[null,7],"aa":7}`. -/
def sampleDocument : Json :=
  .object [([97], .array [.null, .int64 7]), ([97, 97], .int64 7)]

/-- The elements, at their tape indices; an integer takes two words. -/
theorem sampleDocument_at {j : Nat} {u : Json} :
    sampleDocument.At j u ↔ j = 1 ∧ u = sampleDocument ∨ j = 2 ∧ u = .string [97] ∨
      j = 3 ∧ u = .array [.null, .int64 7] ∨ j = 4 ∧ u = .null ∨ j = 5 ∧ u = .int64 7 ∨
      j = 8 ∧ u = .string [97, 97] ∨ j = 9 ∧ u = .int64 7 := by
  simp [sampleDocument, Json.At, Json.elements, Json.fieldsElements, Json.itemsElements,
    Json.width, Json.itemsWidth]

theorem sampleDocument_at_array : sampleDocument.At 3 (.array [.null, .int64 7]) :=
  sampleDocument_at.mpr (by simp)

theorem sampleDocument_at_null : sampleDocument.At 4 .null := sampleDocument_at.mpr (by simp)

theorem sampleDocument_at_item : sampleDocument.At 5 (.int64 7) := sampleDocument_at.mpr (by simp)

theorem sampleDocument_at_field : sampleDocument.At 9 (.int64 7) := sampleDocument_at.mpr (by simp)

/-- The keys, at their tape indices. -/
def sampleKey : Span := ⟨2, 1, by decide⟩

def sampleLongKey : Span := ⟨8, 2, by decide⟩

/-- The elements of the document. -/
def sampleDom : Dom Nat where
  type
    | 1 => .object
    | 2 | 8 => .string
    | 3 => .array
    | 4 => .nullValue
    | _ => .int64
  getArray j := if j = 3 then .ok [4, 5] else .error .incorrectType
  getObject j := if j = 1 then .ok [(sampleKey, 3), (sampleLongKey, 9)] else .error .incorrectType
  getInt64 j := if j = 5 ∨ j = 9 then .ok 7 else .error .incorrectType
  getUint64 j := if j = 5 ∨ j = 9 then .ok 7 else .error .incorrectType
  getDouble _ := .error .incorrectType
  getString
    | 2 => .ok sampleKey
    | 8 => .ok sampleLongKey
    | _ => .error .incorrectType
  getBool _ := .error .incorrectType
  getBigint _ := .error .incorrectType
  isNull j := j = 4
  arraySize j := if j = 3 then .ok 2 else .error .incorrectType
  objectSize j := if j = 1 then .ok 2 else .error .incorrectType
  atKey j key :=
    if j = 1 ∧ key = [97] then .ok 3
    else if j = 1 ∧ key = [97, 97] then .ok 9
    else .error .noSuchField
  atIndex j index :=
    if j = 3 ∧ index = 0 then .ok 4
    else if j = 3 ∧ index = 1 then .ok 5
    else .error .indexOutOfBounds
  atPointer _ _ := .error .invalidJsonPointer
  atPath _ _ := .error .invalidJsonPointer
  atPathWithWildcard _ _ := .error .invalidJsonPointer

/-- The addresses of the live documents, and the bytes handed to callers so far. -/
structure SampleWorld where
  docs : Finset Nat
  heap : Bytes

namespace SampleWorld

def empty : SampleWorld := ⟨∅, []⟩

def memory (w : SampleWorld) : Memory := fun address =>
  if address < 2 ^ 32 then 97 else w.heap.getD (address - 2 ^ 32) 0

/-- The document at an address. -/
def tape (w : SampleWorld) (doc : Nat) : Option Json :=
  if doc ≠ 0 ∧ doc ∈ w.docs then some sampleDocument else none

theorem tape_eq_some {w : SampleWorld} {doc : Nat} {root : Json} (h : w.tape doc = some root) :
    root = sampleDocument := by
  rw [tape] at h
  split at h
  · exact (Option.some.inj h).symm
  · cases h

end SampleWorld

/-- simdjson, on that document. -/
def sampleSimdjson : Simdjson SampleWorld where
  document _ _ := sampleDom
  afterElement _ _
    | 1 => 12
    | 3 => 8
    | 5 => 7
    | 9 => 11
    | j => j + 1
  tapeType _ _ j := if j = 1 then .startObject else if j = 3 then .startArray else .other
  validateUtf8 _ := true

/-- The rest of the native side.  A new document gets the next address. -/
def sampleBase : Native SampleWorld where
  paddingBytes := 64
  parserNew := pure 1
  parserNewConfigured _ _ := pure 1
  parserFree _ := pure ()
  parserResetDiagnostics _ := pure ()
  parserParse _ _ _ := modifyGet fun w =>
    (w.docs.sup id + 1, { w with docs := insert (w.docs.sup id + 1) w.docs })
  parserGetLastErrorLen _ := pure 0
  parserCopyLastError _ _ _ _ := pure []
  parserGetLastErrorOffset _ := pure 0
  parserGetLastErrorHasOffset _ := pure false
  docRoot doc := pure doc
  docFree doc := modify fun w => { w with docs := w.docs.erase doc }
  elementType _ := pure ValueKind.object.code
  read _ _ _ := throw .notImplemented
  memory := SampleWorld.memory
  leakBytes bytes w := (2 ^ 32 + w.heap.length, { w with heap := w.heap ++ bytes })
  leakViews _ w := (2 ^ 32 + w.heap.length, { w with heap := w.heap ++ [0] })
  dropBytes _ _ w := w
  dropViews _ _ w := w

/-- The sample native side, read through the bridge. -/
def sampleNative : Native SampleWorld := bridge sampleSimdjson sampleBase

theorem sample_holds (w : SampleWorld) : w.memory.Holds sampleKey [97] :=
  ⟨rfl, by decide, by decide⟩

theorem sample_holdsLong (w : SampleWorld) : w.memory.Holds sampleLongKey [97, 97] :=
  ⟨rfl, by decide, by decide⟩

/-- **The sample does what the bridge relies on.** -/
theorem sample_faithful : sampleSimdjson.Faithful SampleWorld.memory SampleWorld.tape where
  nonnull w := by simp [SampleWorld.tape]
  fits w doc root h := by
    rw [SampleWorld.tape_eq_some h]
    decide
  shows w doc root j u h hat := by
    rw [SampleWorld.tape_eq_some h] at hat
    have hkey := sample_holds w
    have hlong := sample_holdsLong w
    rcases sampleDocument_at.mp hat with
      ⟨rfl, rfl⟩ | ⟨rfl, rfl⟩ | ⟨rfl, rfl⟩ | ⟨rfl, rfl⟩ | ⟨rfl, rfl⟩ | ⟨rfl, rfl⟩ | ⟨rfl, rfl⟩
    · simp [sampleDocument, Dom.Shows, Dom.ShowsFields, Dom.ShowsItems, sampleSimdjson,
        sampleDom, hkey, hlong]
    · simpa [Dom.Shows, sampleSimdjson, sampleDom] using hkey
    · simp [Dom.Shows, Dom.ShowsItems, sampleSimdjson, sampleDom]
    · simp [Dom.Shows, sampleSimdjson, sampleDom]
    · simp [Dom.Shows, sampleSimdjson, sampleDom]
    · simpa [Dom.Shows, sampleSimdjson, sampleDom] using hlong
    · simp [Dom.Shows, sampleSimdjson, sampleDom]
  after w doc root j u h hat := by
    rw [SampleWorld.tape_eq_some h] at hat
    rcases sampleDocument_at.mp hat with
      ⟨rfl, rfl⟩ | ⟨rfl, rfl⟩ | ⟨rfl, rfl⟩ | ⟨rfl, rfl⟩ | ⟨rfl, rfl⟩ | ⟨rfl, rfl⟩ | ⟨rfl, rfl⟩ <;>
      rfl
  tapeType w doc root j u h hat := by
    rw [SampleWorld.tape_eq_some h] at hat
    rcases sampleDocument_at.mp hat with
      ⟨rfl, rfl⟩ | ⟨rfl, rfl⟩ | ⟨rfl, rfl⟩ | ⟨rfl, rfl⟩ | ⟨rfl, rfl⟩ | ⟨rfl, rfl⟩ | ⟨rfl, rfl⟩ <;>
      rfl
  atKey w doc root j u key k h hat hk := by
    rw [SampleWorld.tape_eq_some h]
    simp only [sampleSimdjson, sampleDom] at hk
    split at hk
    · cases hk
      exact ⟨_, sampleDocument_at_array⟩
    · split at hk
      · cases hk
        exact ⟨_, sampleDocument_at_field⟩
      · cases hk
  atIndex w doc root j u index k h hat hk := by
    rw [SampleWorld.tape_eq_some h]
    simp only [sampleSimdjson, sampleDom] at hk
    split at hk
    · cases hk
      exact ⟨_, sampleDocument_at_null⟩
    · split at hk
      · cases hk
        exact ⟨_, sampleDocument_at_item⟩
      · cases hk
  atPointer w doc root j u pointer k h hat hk := by cases hk
  atPath w doc root j u path k h hat hk := by cases hk
  atPathWithWildcard w doc root j u path ks h hat hk := by cases hk

end PureSimdjson
