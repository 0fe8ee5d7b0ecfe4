import PureSimdjson.Navigation

/-!
# A document as plain values

What a caller of an open document should see, without views, handles, indices or leases: an
element is the JSON value it stands for, an array the list of its items, and an iterator the
list of what it has not returned yet.  Nothing that anybody calls changes a value.

What a pointer or a path finds from a value is simdjson's business and a parameter here: a `Dom`
whose elements are values.
-/
namespace PureSimdjson

/-! ## Reading a value -/

/-- `get_bool`. -/
def Json.asBool : Json → Except SimdjsonError Bool
  | .bool b => .ok b
  | _ => .error .incorrectType

/-- `get_int64`: a larger number is out of range. -/
def Json.asInt64 : Json → Except SimdjsonError Int64
  | .int64 n => .ok n
  | .uint64 n => if n.toNat < 2 ^ 63 then .ok n.toInt64 else .error .numberOutOfRange
  | _ => .error .incorrectType

/-- `get_uint64`: a negative number is out of range. -/
def Json.asUint64 : Json → Except SimdjsonError UInt64
  | .uint64 n => .ok n
  | .int64 n => if n < 0 then .error .numberOutOfRange else .ok n.toUInt64
  | _ => .error .incorrectType

/-- `get_double`, which nobody asks of an integer. -/
def Json.asDouble : Json → Except SimdjsonError UInt64
  | .double bits => .ok bits
  | _ => .error .incorrectType

/-- `get_string`. -/
def Json.asString : Json → Except SimdjsonError Bytes
  | .string bytes => .ok bytes
  | _ => .error .incorrectType

/-- `get_bigint`. -/
def Json.asBigint : Json → Except SimdjsonError Bytes
  | .bigint digits => .ok digits
  | _ => .error .incorrectType

/-- `is_null`. -/
def Json.isNull : Json → Bool
  | .null => true
  | _ => false

/-- A value as a double: an integer if nothing is lost. -/
def Json.asFloat64 : Json → Except ErrorCode UInt64
  | .int64 n =>
    if exactFloat64Int64 n then .ok (float64Bits (n < 0) n.toInt.natAbs) else .error .precisionLoss
  | .uint64 n =>
    if exactFloat64Uint64 n then .ok (float64Bits false n.toNat) else .error .precisionLoss
  | .double bits => .ok bits
  | _ => .error .wrongType

/-- The number of children that the word of a container has room for. -/
def maxScopeCount : Nat := 0xFFFFFF

/-- The item at an index. -/
def itemAt (items : List Json) (index : Nat) : Except SimdjsonError Json :=
  match items[index]? with
  | some v => .ok v
  | none => .error .indexOutOfBounds

/-- The value of the first field with a key. -/
def fieldAt (fields : List (Bytes × Json)) (key : Bytes) : Except SimdjsonError Json :=
  match fields.find? fun field => field.1 = key with
  | some field => .ok field.2
  | none => .error .noSuchField

namespace Elements

/-! ## What a caller has, as values -/

/-- An iterator, as the list of what it has not returned yet. -/
structure Cursor (α : Type) where
  rest : List α
  current : Option α
  done : Bool
  err : Option AccessError

/-- An iterator that could not be made. -/
def Cursor.broken {α : Type} (err : AccessError) : Cursor α := ⟨[], none, false, some err⟩

/-- An iterator that was just made. -/
def Cursor.new {α : Type} (all : List α) : Cursor α := ⟨all, none, false, none⟩

/-- The iterator has ended. -/
def Cursor.over {α : Type} (it : Cursor α) (err : Option AccessError) : Cursor α :=
  { it with current := none, done := true, err := err }

/-- `Next`. -/
def Cursor.next {α : Type} (closed : Bool) (it : Cursor α) : Bool × Cursor α :=
  if it.done ∨ it.err.isSome then (false, it)
  else if closed then (false, it.over (some .closed))
  else
    match it.rest with
    | [] => (false, it.over none)
    | a :: rest => (true, { it with rest := rest, current := some a })

/-- What a caller has of a document.  An element is `none` if it is `Element{}`. -/
structure Plain where
  root : Json
  closed : Bool
  elements : List (Option Json)
  arrays : List (List Json)
  objects : List (List (Bytes × Json))
  arrayIters : List (Cursor Json)
  objectIters : List (Cursor (Bytes × Json))

/-- The caller of a document that was just parsed. -/
def Plain.start (root : Json) : Plain := ⟨root, false, [], [], [], [], []⟩

/-- A status, as an error. -/
def orStatus {α : Type} : Except SimdjsonError α → Except AccessError α
  | .ok a => .ok a
  | .error error => .error (.status (mapError error))

/-- An error is not looked at. -/
def orDefault {α : Type} (a : α) : Except AccessError α → α
  | .ok b => b
  | .error _ => a

/-- What comes of a call. -/
abbrev PlainOutcome := Answer × Plain

section
variable (p : Plain)

/-- A document that is closed has no values. -/
def Plain.open? {α : Type} (a : α) : Except AccessError α :=
  if p.closed then .error .closed else .ok a

/-- The value of an element. -/
def Plain.value : Option Json → Except AccessError Json
  | some u => p.open? u
  | none => .error (.status .invalidHandle)

/-- A call on something the caller has. -/
def Plain.on {α : Type} (held : List α) (i : Nat) (call : α → PlainOutcome) : PlainOutcome :=
  match held[i]? with
  | some a => call a
  | none => (.absent, p)

/-- A call that fails leaves the caller what it had. -/
def Plain.settle : Except AccessError PlainOutcome → PlainOutcome
  | .ok outcome => outcome
  | .error err => (.failed err, p)

/-- The caller has got more elements. -/
def Plain.hand (elements : List (Option Json)) : PlainOutcome :=
  (.handed elements.length, { p with elements := p.elements ++ elements })

/-- The accessors of a value. -/
def Plain.get (element : Option Json) : Getter → Except AccessError Answer
  | .typeErr => return .kind (mapElementType (← p.value element).elementType)
  | .type => .ok (.kind (orDefault .invalid
      ((p.value element).map fun u => mapElementType u.elementType)))
  | .isNullErr => return .flag (← p.value element).isNull
  | .isNull => .ok (.flag (orDefault false ((p.value element).map Json.isNull)))
  | .bool => return .flag (← orStatus (← p.value element).asBool)
  | .int64 => return .int64 (← orStatus (← p.value element).asInt64)
  | .uint64 => return .uint64 (← orStatus (← p.value element).asUint64)
  | .float64 => return .float64 (← ((← p.value element).asFloat64.mapError .status))
  | .string => return .text (← orStatus (← p.value element).asString)
  | .bigInt => return .text (← orStatus (← p.value element).asBigint)

/-- The number of children, as far as it is kept. -/
def countOf {α : Type} (children : List α) : Int64 :=
  Int64.ofNat (min children.length maxScopeCount)

variable (values : Dom Json) (validateUtf8 : Bytes → Bool) (room : Bool)

/-- `AtPathAll`. -/
def valuesAtPathAll (u : Json) (path : Bytes) : Except AccessError (List Json) :=
  match classifyWildcardPath validateUtf8 path with
  | none => .error (.status .invalidPath)
  | some segments => (traverseWildcardPath values u segments).mapError .status

/-- A new iterator, if the document has an id for its lease. -/
def Plain.newCursor {α : Type} (all : List α) : Cursor α :=
  if p.closed then .broken .closed
  else if room then .new all
  else .broken (.status .internal)

/-- **What a command does**, on values. -/
def Plain.perform : Command → PlainOutcome
  | .root => p.hand [some p.root]
  | .get i getter => p.on p.elements i fun element =>
    p.settle ((p.get element getter).map fun answer => (answer, p))
  | .atPointer i pointer => p.on p.elements i fun element => p.settle do
    let v ← orStatus (values.atPointer (← p.value element) pointer)
    return p.hand [some v]
  | .atPath i path => p.on p.elements i fun element => p.settle do
    let v ← orStatus (values.atPath (← p.value element) path)
    return p.hand [some v]
  | .atPathAll i path => p.on p.elements i fun element => p.settle do
    let vs ← valuesAtPathAll values validateUtf8 (← p.value element) path
    return p.hand (vs.map some)
  | .asArray i => p.on p.elements i fun element => p.settle do
    match ← p.value element with
    | .array items => return (.handed 1, { p with arrays := p.arrays ++ [items] })
    | _ => throw (.status .wrongType)
  | .asObject i => p.on p.elements i fun element => p.settle do
    match ← p.value element with
    | .object fields => return (.handed 1, { p with objects := p.objects ++ [fields] })
    | _ => throw (.status .wrongType)
  | .arrayAt i index => p.on p.arrays i fun items => p.settle do
    let items ← p.open? items
    if index < 0 then throw (.status .indexOutOfRange)
    else return p.hand [some (← orStatus (itemAt items index.toUInt64.toNat))]
  | .lenErr i => p.on p.arrays i fun items => p.settle do
    return (.int64 (countOf (← p.open? items)), p)
  | .len i => p.on p.arrays i fun items => (.int64 (orDefault 0 (p.open? (countOf items))), p)
  | .sizeErr i => p.on p.objects i fun fields => p.settle do
    return (.int64 (countOf (← p.open? fields)), p)
  | .size i => p.on p.objects i fun fields => (.int64 (orDefault 0 (p.open? (countOf fields))), p)
  | .getField i key => p.on p.objects i fun fields => p.settle do
    return p.hand [some (← orStatus (fieldAt (← p.open? fields) key))]
  | .getStringField i name => p.on p.objects i fun fields => p.settle do
    let v ← orStatus (fieldAt (← p.open? fields) name)
    return (.text (← orStatus v.asString), p)
  | .arrayIter i => p.on p.arrays i fun items =>
    (.handed 1, { p with arrayIters := p.arrayIters ++ [p.newCursor room items] })
  | .objectIter i => p.on p.objects i fun fields =>
    (.handed 1, { p with objectIters := p.objectIters ++ [p.newCursor room fields] })
  | .arrayNext i => p.on p.arrayIters i fun it =>
    let (more, it) := it.next p.closed
    (.flag more, { p with arrayIters := p.arrayIters.set i it })
  | .arrayValue i => p.on p.arrayIters i fun it => p.hand [it.current]
  | .arrayErr i => p.on p.arrayIters i fun it => (.err it.err, p)
  | .objectNext i => p.on p.objectIters i fun it =>
    let (more, it) := it.next p.closed
    (.flag more, { p with objectIters := p.objectIters.set i it })
  | .objectKey i => p.on p.objectIters i fun it => (.text ((it.current.map Prod.fst).getD []), p)
  | .objectValue i => p.on p.objectIters i fun it => p.hand [it.current.map Prod.snd]
  | .objectErr i => p.on p.objectIters i fun it => (.err it.err, p)
  | .close => (.closed, { p with closed := true })

end

end Elements

end PureSimdjson
