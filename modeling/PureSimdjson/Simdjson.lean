import PureSimdjson.Frames

/-!
# simdjson, as the bridge sees it

The vendored parser is not part of this repository.  What the bridge calls of it
is a parameter: the accessors of a `dom::element`, and of an on-demand value.  An
element is of any type here; the bridge rebuilds elements from tape positions, so
there it is a position.

`Dom.Shows` says that an element reads as a given document, whatever the
accessors are.
-/
namespace PureSimdjson

/-- `simdjson::error_code`, without `SUCCESS`.  `other` is any code that `map_error`
leaves to its default. -/
inductive SimdjsonError where
  | capacity
  | memalloc
  | tapeError
  | depthError
  | stringError
  | tAtomError
  | fAtomError
  | nAtomError
  | numberError
  | bigintError
  | utf8Error
  | uninitialized
  | empty
  | unescapedChars
  | unclosedString
  | unsupportedArchitecture
  | incorrectType
  | numberOutOfRange
  | indexOutOfBounds
  | noSuchField
  | ioError
  | invalidJsonPointer
  | invalidUriFragment
  | unexpectedError
  | parserInUse
  | outOfOrderIteration
  | insufficientPadding
  | incompleteArrayOrObject
  | scalarDocumentAsValue
  | outOfBounds
  | trailingContent
  | outOfCapacity
  | other (code : Nat)
  deriving DecidableEq, Repr

/-- `map_error`, on a code other than `SUCCESS`. -/
def mapError : SimdjsonError → ErrorCode
  | .noSuchField => .elementNotFound
  | .incorrectType => .wrongType
  | .numberOutOfRange => .numberOutOfRange
  | .bigintError => .precisionLoss
  | .tapeError | .stringError | .tAtomError | .fAtomError | .nAtomError | .numberError
  | .utf8Error | .empty | .unescapedChars | .unclosedString | .incompleteArrayOrObject
  | .trailingContent => .invalidJson
  | .depthError => .depthLimit
  | .invalidJsonPointer => .invalidPath
  | .indexOutOfBounds => .indexOutOfRange
  | .capacity | .memalloc | .ioError | .invalidUriFragment | .unexpectedError | .parserInUse
  | .uninitialized | .outOfOrderIteration | .insufficientPadding | .scalarDocumentAsValue
  | .outOfBounds | .outOfCapacity => .internal
  | .unsupportedArchitecture => .cpuUnsupported
  | .other _ => .internal

/-- A failed simdjson call is never reported as an input over the parser's capacity. -/
theorem mapError_ne_capacityLimit (error : SimdjsonError) : mapError error ≠ .capacityLimit := by
  cases error <;> nofun

/-- `simdjson::dom::element_type`. -/
inductive ElementType where
  | array
  | object
  | int64
  | uint64
  | double
  | string
  | bool
  | nullValue
  | bigint
  deriving DecidableEq, Repr

/-- `map_element_type`. -/
def mapElementType : ElementType → ValueKind
  | .array => .array
  | .object => .object
  | .int64 => .int64
  | .uint64 => .uint64
  | .double => .float64
  | .string => .string
  | .bool => .bool
  | .nullValue => .null
  | .bigint => .bigint

/-- The element type a document shows. -/
def Json.elementType : Json → ElementType
  | .null => .nullValue
  | .bool _ => .bool
  | .int64 _ => .int64
  | .uint64 _ => .uint64
  | .double _ => .double
  | .string _ => .string
  | .bigint _ => .bigint
  | .array _ => .array
  | .object _ => .object

/-! ## DOM elements -/

/-- The accessors of a `dom::element`.  Iterating a container gives its children in
the order of the list; a `string_view` is a span. -/
structure Dom (E : Type) where
  type : E → ElementType
  getArray : E → Except SimdjsonError (List E)
  getObject : E → Except SimdjsonError (List (Span × E))
  getInt64 : E → Except SimdjsonError Int64
  getUint64 : E → Except SimdjsonError UInt64
  getDouble : E → Except SimdjsonError UInt64
  getString : E → Except SimdjsonError Span
  getBool : E → Except SimdjsonError Bool
  getBigint : E → Except SimdjsonError Span
  isNull : E → Bool
  /-- `array.size()` and `object.size()`: the scope count of the tape word, which
  saturates. -/
  arraySize : E → Except SimdjsonError Nat
  objectSize : E → Except SimdjsonError Nat
  atKey : E → Bytes → Except SimdjsonError E
  atIndex : E → Nat → Except SimdjsonError E
  atPointer : E → Bytes → Except SimdjsonError E
  atPath : E → Bytes → Except SimdjsonError E
  atPathWithWildcard : E → Bytes → Except SimdjsonError (List E)

/-- A span the memory really holds: what a `string_view` of the document is. -/
structure Memory.Holds (mem : Memory) (span : Span) (bytes : Bytes) : Prop where
  read : mem.read span = bytes
  nonnull : span.ptr ≠ 0
  sized : span.len < 2 ^ 63

namespace Dom

variable {E : Type} (dom : Dom E) (mem : Memory)

mutual

/-- **Every read of the element and of what is under it succeeds, and shows `v`.** -/
def Shows : Json → E → Prop
  | .null, e => dom.type e = .nullValue ∧ dom.isNull e
  | .bool b, e => dom.type e = .bool ∧ dom.getBool e = .ok b
  | .int64 n, e => dom.type e = .int64 ∧ dom.getInt64 e = .ok n
  | .uint64 n, e => dom.type e = .uint64 ∧ dom.getUint64 e = .ok n
  | .double bits, e => dom.type e = .double ∧ dom.getDouble e = .ok bits
  | .string bytes, e => dom.type e = .string ∧
      ∃ span, dom.getString e = .ok span ∧ mem.Holds span bytes
  | .bigint digits, e => dom.type e = .bigint ∧
      ∃ span, dom.getBigint e = .ok span ∧ mem.Holds span digits
  | .array items, e => dom.type e = .array ∧
      ∃ children, dom.getArray e = .ok children ∧ ShowsItems items children
  | .object fields, e => dom.type e = .object ∧
      ∃ children, dom.getObject e = .ok children ∧ ShowsFields fields children

def ShowsItems : List Json → List E → Prop
  | [], es => es = []
  | v :: vs, es => ∃ e rest, es = e :: rest ∧ Shows v e ∧ ShowsItems vs rest

def ShowsFields : List (Bytes × Json) → List (Span × E) → Prop
  | [], es => es = []
  | (key, v) :: fields, es =>
    ∃ span e rest, es = (span, e) :: rest ∧ mem.Holds span key ∧ Shows v e ∧
      ShowsFields fields rest

end

theorem Shows.type {v : Json} {e : E} (h : dom.Shows mem v e) : dom.type e = v.elementType := by
  cases v <;> exact h.1

theorem showsItems_iff {vs : List Json} {es : List E} :
    dom.ShowsItems mem vs es ↔ List.Forall₂ (dom.Shows mem) vs es := by
  induction vs generalizing es with
  | nil => simp [ShowsItems]
  | cons v vs ih =>
    rw [ShowsItems, List.forall₂_cons_left_iff]
    constructor
    · rintro ⟨e, rest, rfl, hv, hvs⟩
      exact ⟨e, rest, hv, ih.mp hvs, rfl⟩
    · rintro ⟨e, rest, hv, hvs, rfl⟩
      exact ⟨e, rest, rfl, hv, ih.mpr hvs⟩

/-- What an element and a key view show of one field. -/
def ShowsField (field : Bytes × Json) (child : Span × E) : Prop :=
  mem.Holds child.1 field.1 ∧ dom.Shows mem field.2 child.2

theorem showsFields_iff {fields : List (Bytes × Json)} {es : List (Span × E)} :
    dom.ShowsFields mem fields es ↔ List.Forall₂ (dom.ShowsField mem) fields es := by
  induction fields generalizing es with
  | nil => simp [ShowsFields]
  | cons field fields ih =>
    obtain ⟨key, v⟩ := field
    rw [ShowsFields, List.forall₂_cons_left_iff]
    constructor
    · rintro ⟨view, e, rest, rfl, hkey, hv, hfields⟩
      exact ⟨(view, e), rest, ⟨hkey, hv⟩, ih.mp hfields, rfl⟩
    · rintro ⟨⟨view, e⟩, rest, ⟨hkey, hv⟩, hfields, rfl⟩
      exact ⟨view, e, rest, rfl, hkey, hv, ih.mpr hfields⟩

end Dom

/-! ## On-demand values -/

/-- `simdjson::ondemand::json_type`. -/
inductive JsonType where
  | unknown
  | array
  | object
  | number
  | string
  | boolean
  | null
  deriving DecidableEq, Repr

/-- The accessors of an `ondemand::value`, all of which can fail, and so can every
step of an iteration. -/
structure OnDemand (V : Type) where
  type : V → Except SimdjsonError JsonType
  getArray : V → Except SimdjsonError (List (Except SimdjsonError V))
  getObject : V →
    Except SimdjsonError (List (Except SimdjsonError (Except SimdjsonError Span × V)))
  getNumber : V → Except SimdjsonError Unit
  getString : V → Except SimdjsonError Span
  getBool : V → Except SimdjsonError Bool
  isNull : V → Except SimdjsonError Bool

namespace OnDemand

variable {V : Type} (od : OnDemand V)

mutual

/-- Every read of the on-demand value and of what is under it succeeds, and it has
the shape of `v`. -/
def Shows : Json → V → Prop
  | .null, x => od.type x = .ok .null ∧ ∃ b, od.isNull x = .ok b
  | .bool _, x => od.type x = .ok .boolean ∧ ∃ b, od.getBool x = .ok b
  | .int64 _, x => od.type x = .ok .number ∧ od.getNumber x = .ok ()
  | .uint64 _, x => od.type x = .ok .number ∧ od.getNumber x = .ok ()
  | .double _, x => od.type x = .ok .number ∧ od.getNumber x = .ok ()
  | .bigint _, x => od.type x = .ok .number ∧ od.getNumber x = .ok ()
  | .string _, x => od.type x = .ok .string ∧ ∃ span, od.getString x = .ok span
  | .array items, x => od.type x = .ok .array ∧
      ∃ children, od.getArray x = .ok children ∧ ShowsItems items children
  | .object fields, x => od.type x = .ok .object ∧
      ∃ children, od.getObject x = .ok children ∧ ShowsFields fields children

def ShowsItems : List Json → List (Except SimdjsonError V) → Prop
  | [], xs => xs = []
  | v :: vs, xs => ∃ x rest, xs = .ok x :: rest ∧ Shows v x ∧ ShowsItems vs rest

def ShowsFields : List (Bytes × Json) →
    List (Except SimdjsonError (Except SimdjsonError Span × V)) → Prop
  | [], xs => xs = []
  | (_, v) :: fields, xs =>
    ∃ key x rest, xs = .ok (.ok key, x) :: rest ∧ Shows v x ∧ ShowsFields fields rest

end

theorem showsItems_iff {vs : List Json} {xs : List (Except SimdjsonError V)} :
    od.ShowsItems vs xs ↔ List.Forall₂ (fun v r => ∃ x, r = .ok x ∧ od.Shows v x) vs xs := by
  induction vs generalizing xs with
  | nil => simp [ShowsItems]
  | cons v vs ih =>
    rw [ShowsItems, List.forall₂_cons_left_iff]
    constructor
    · rintro ⟨x, rest, rfl, hv, hvs⟩
      exact ⟨.ok x, rest, ⟨x, rfl, hv⟩, ih.mp hvs, rfl⟩
    · rintro ⟨r, rest, ⟨x, rfl, hv⟩, hvs, rfl⟩
      exact ⟨x, rest, rfl, hv, ih.mpr hvs⟩

theorem showsFields_iff {fields : List (Bytes × Json)}
    {xs : List (Except SimdjsonError (Except SimdjsonError Span × V))} :
    od.ShowsFields fields xs ↔
      List.Forall₂ (fun field r => ∃ key x, r = .ok (.ok key, x) ∧ od.Shows field.2 x) fields
        xs := by
  induction fields generalizing xs with
  | nil => simp [ShowsFields]
  | cons field fields ih =>
    obtain ⟨key, v⟩ := field
    rw [ShowsFields, List.forall₂_cons_left_iff]
    constructor
    · rintro ⟨key, x, rest, rfl, hv, hfields⟩
      exact ⟨.ok (.ok key, x), rest, ⟨key, x, rfl, hv⟩, ih.mp hfields, rfl⟩
    · rintro ⟨r, rest, ⟨key, x, rfl, hv⟩, hfields, rfl⟩
      exact ⟨key, x, rest, rfl, hv, ih.mpr hfields⟩

end OnDemand

end PureSimdjson
