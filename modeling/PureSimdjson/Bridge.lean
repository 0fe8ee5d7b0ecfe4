import PureSimdjson.Materializer
import PureSimdjson.Native
import PureSimdjson.TapeLayout
import PureSimdjson.WildcardPath

/-!
# The bridge's element reads

The `psimdjson_*` functions that take a document and a tape index rebuild an element
or a tape reference from the index and ask simdjson.  They check the document pointer
and nothing else: an index that is not the start of an element is read all the same.

simdjson itself is a parameter, over the state `W` that the native side lives in.
`Faithful` is what is relied on: at the start of an element every accessor shows that
element, the next element starts where its words end, and lookups find elements.
-/
namespace PureSimdjson

open Effect

/-- `simdjson::internal::tape_type`, as far as the bridge tells it apart. -/
inductive TapeType where
  | startArray
  | startObject
  | other
  deriving DecidableEq

/-- The tape type of the word an element starts with. -/
def Json.tapeType : Json → TapeType
  | .array _ => .startArray
  | .object _ => .startObject
  | _ => .other

/-- simdjson, as the bridge calls it on a parsed document. -/
structure Simdjson (W : Type) where
  /-- The elements of the document at a native address, by tape index. -/
  document : W → (doc : Nat) → Dom Nat
  /-- `tape_ref::after_element`. -/
  afterElement : W → (doc jsonIndex : Nat) → Nat
  /-- `tape_ref::tape_ref_type`. -/
  tapeType : W → (doc jsonIndex : Nat) → TapeType
  /-- `simdjson::validate_utf8`. -/
  validateUtf8 : Bytes → Bool

section
variable {W : Type} (sj : Simdjson W)

/-- `psimdjson_materialize_build`; `held` says that the document's guard is taken. -/
def psimdjsonMaterializeBuild (held : Bool) (dom : Dom Nat) (jsonIndex : Nat) :
    NativeM W (List Frame) :=
  if held then throw .parserBusy
  else
    match (appendMaterializeFrame dom jsonIndex .empty 0).run [] with
    | .ok _ frames => orInternal (fun frames => !frames.isEmpty) frames
    | .error rc _ => throw rc

/-- The read of a document that is not a null pointer. -/
def readElement (dom : Dom Nat) (w : W) (doc jsonIndex : Nat) :
    {α : Type} → ElementRead α → NativeM W α
  | _, .elementTypeAt => pure (mapElementType (dom.type jsonIndex)).code
  | _, .elementGetInt64At => getOrReturn (dom.getInt64 jsonIndex)
  | _, .elementGetUint64At => getOrReturn (dom.getUint64 jsonIndex)
  | _, .elementGetFloat64At => getOrReturn (dom.getDouble jsonIndex)
  | _, .elementGetStringView => Span.ofView <$> getOrReturn (dom.getString jsonIndex)
  | _, .elementGetBigintView => Span.ofView <$> getOrReturn (dom.getBigint jsonIndex)
  | _, .elementGetBoolAt => getOrReturn (dom.getBool jsonIndex)
  | _, .elementIsNullAt => pure (dom.isNull jsonIndex)
  | _, .elementAfterIndex => pure (sj.afterElement w doc jsonIndex)
  | _, .arrayIterBounds => do
    require (sj.tapeType w doc jsonIndex = .startArray) .wrongType
    pure (jsonIndex + 1, sj.afterElement w doc jsonIndex - 1)
  | _, .objectIterBounds => do
    require (sj.tapeType w doc jsonIndex = .startObject) .wrongType
    pure (jsonIndex + 1, sj.afterElement w doc jsonIndex - 1)
  | _, .objectGetFieldIndex key => do
    let _ ← getOrReturn (dom.getObject jsonIndex)
    getOrReturn (dom.atKey jsonIndex key)
  | _, .arrayAtIndex index => do
    let _ ← getOrReturn (dom.getArray jsonIndex)
    getOrReturn (dom.atIndex jsonIndex index)
  | _, .arraySize => do
    let _ ← getOrReturn (dom.getArray jsonIndex)
    getOrReturn (dom.arraySize jsonIndex)
  | _, .objectSize => do
    let _ ← getOrReturn (dom.getObject jsonIndex)
    getOrReturn (dom.objectSize jsonIndex)
  | _, .elementAtPointerIndex pointer => getOrReturn (dom.atPointer jsonIndex pointer)
  | _, .elementAtPathIndex path => getOrReturn (dom.atPath jsonIndex path)
  | _, .elementAtPathWildcardIndices path =>
    match classifyWildcardPath sj.validateUtf8 path with
    | none => throw .invalidPath
    | some segments => ofExcept (traverseWildcardPath dom jsonIndex segments)
  | _, .materializeBuild => psimdjsonMaterializeBuild false dom jsonIndex
  -- the guard is taken first, so the build inside finds it held
  | _, .testHoldMaterializeGuard => do
    let _ ← psimdjsonMaterializeBuild true dom jsonIndex

/-- The element reads of the bridge. -/
def bridgeRead {α : Type} (read : ElementRead α) (doc jsonIndex : Nat) : NativeM W α :=
  if doc = 0 then throw .invalidArgument
  else do
    let w ← get
    readElement sj (sj.document w doc) w doc jsonIndex read

/-- The native side whose element reads are the bridge's. -/
def bridge (base : Native W) : Native W := { base with read := bridgeRead sj }

/-- **simdjson does what the bridge relies on**, where `tape w doc` is the document
at the address `doc`: at the start of an element every accessor shows the element, its
words end where it says, and every lookup finds an element. -/
structure Simdjson.Faithful (memory : W → Memory) (tape : W → Nat → Option Json) : Prop where
  nonnull : ∀ w, tape w 0 = none
  fits : ∀ w doc root, tape w doc = some root → 1 + root.width < 2 ^ 64
  shows : ∀ w doc root j u, tape w doc = some root → root.At j u →
    (sj.document w doc).Shows (memory w) u j
  after : ∀ w doc root j u, tape w doc = some root → root.At j u →
    sj.afterElement w doc j = j + u.width
  tapeType : ∀ w doc root j u, tape w doc = some root → root.At j u →
    sj.tapeType w doc j = u.tapeType
  atKey : ∀ w doc root j u key k, tape w doc = some root → root.At j u →
    (sj.document w doc).atKey j key = .ok k → ∃ v, root.At k v
  atIndex : ∀ w doc root j u index k, tape w doc = some root → root.At j u →
    (sj.document w doc).atIndex j index = .ok k → ∃ v, root.At k v
  atPointer : ∀ w doc root j u pointer k, tape w doc = some root → root.At j u →
    (sj.document w doc).atPointer j pointer = .ok k → ∃ v, root.At k v
  atPath : ∀ w doc root j u path k, tape w doc = some root → root.At j u →
    (sj.document w doc).atPath j path = .ok k → ∃ v, root.At k v
  atPathWithWildcard : ∀ w doc root j u path ks, tape w doc = some root → root.At j u →
    (sj.document w doc).atPathWithWildcard j path = .ok ks → ∀ k ∈ ks, ∃ v, root.At k v

end

end PureSimdjson
