import PureSimdjson.ExactFloats

/-!
# Go elements and their iterators

An `Element` is a pointer to its `Doc` and a value view, and every accessor of it is a call of
the library on the view, wrapped in a check that the document is still usable.  An iterator
keeps its error to itself: `Next` only says that it is over, and `Err` why.

`materializeElementViaAccessors` walks an element with them.  Neither its recursion nor its
loops are visibly bounded, so they run on fuel, and the outcome `diverged` says that it was
gone.  The other ways not to return a value are a Go error and a run-time panic.
-/
namespace PureSimdjson.Elements

open Effect

/-- A Go error, by the sentinel that `errors.Is` finds in it. -/
inductive AccessError where
  | closed
  | status (rc : ErrorCode)
  deriving DecidableEq

/-- How a Go call ends without returning a value. -/
inductive Stop where
  | error (err : AccessError)
  | panic
  | diverged
  deriving DecidableEq

/-- A Go call, on the runtime. -/
abbrev GoM (W : Type) := EStateM Stop (Runtime W)

/-- `Doc`, as its elements see it: does its parser still have bindings, and what does
`isClosed` say? -/
structure Doc where
  bound : Bool
  closed : Bool

/-- `Element`. -/
structure Element where
  doc : Option Doc
  view : ValueView

/-- `Element{}`. -/
def Element.zero : Element := ⟨none, .default⟩

/-- The checks that come before every call on a document. -/
def usable : Option Doc → Except AccessError Doc
  | none => .error (.status .invalidHandle)
  | some doc =>
    if ¬ doc.bound then .error (.status .invalidHandle)
    else if doc.closed then .error .closed
    else .ok doc

/-- `Element.usableDoc`. -/
def usableDoc (element : Element) : Except AccessError Doc := usable element.doc

/-- `usableIteratorBindings`. -/
def usableIteratorBindings : Option Doc → Except AccessError Doc := usable

/-- `normalizeIteratorError`, of a status that is not `OK`. -/
def normalizeIteratorError (doc : Option Doc) (rc : ErrorCode) : AccessError :=
  match doc with
  | some doc => if doc.closed ∧ rc = .invalidHandle then .closed else .status rc
  | none => .status rc

section
variable {W : Type} {α : Type}

/-- `if err != nil { return err }`. -/
def orReturn : Except AccessError α → GoM W α
  | .ok a => pure a
  | .error err => throw (.error err)

/-- A call of the library through its binding, which returns the status. -/
def binding (call : RuntimeM W α) : GoM W (Except ErrorCode α) := fun s =>
  match call.run s with
  | .ok a s' => .ok (.ok a) s'
  | .error rc s' => .ok (.error rc) s'

/-- `wrapStatus`. -/
def wrapStatus : Except ErrorCode α → GoM W α
  | .ok a => pure a
  | .error rc => throw (.error (.status rc))

/-- A status is not yet an error. -/
@[simp] theorem wp_binding (call : RuntimeM W α) {Q : Except ErrorCode α → Runtime W → Prop}
    {E : Stop → Runtime W → Prop} {s : Runtime W} :
    wp (binding call) Q E s ↔ wp call (fun a => Q (.ok a)) (fun rc => Q (.error rc)) s := by
  simp only [wp, binding, EStateM.run]
  cases call s <;> exact Iff.rfl

@[simp] theorem wp_wrapStatus_ok {Q : α → Runtime W → Prop} {E : Stop → Runtime W → Prop}
    {s : Runtime W} (a : α) : wp (wrapStatus (.ok a)) Q E s ↔ Q a s := Iff.rfl

@[simp] theorem wp_orReturn_ok {Q : α → Runtime W → Prop} {E : Stop → Runtime W → Prop}
    {s : Runtime W} (a : α) : wp (orReturn (.ok a)) Q E s ↔ Q a s := Iff.rfl

@[simp] theorem wp_orReturn_error {Q : α → Runtime W → Prop} {E : Stop → Runtime W → Prop}
    {s : Runtime W} (err : AccessError) :
    wp (orReturn (.error err)) Q E s ↔ E (.error err) s := Iff.rfl

end

/-! ## Accessors -/

section
variable {W : Type} (native : Native W)

/-- An accessor: the document is checked, and a status is an error. -/
def access {α : Type} (element : Element) (call : Option ValueView → RuntimeM W α) : GoM W α := do
  let _ ← orReturn (usableDoc element)
  wrapStatus (← binding (call (some element.view)))

/-- The kind a number stands for; an unknown one is invalid. -/
def valueKind (code : Nat) : ValueKind :=
  if code = 1 then .null
  else if code = 2 then .bool
  else if code = 3 then .int64
  else if code = 4 then .uint64
  else if code = 5 then .float64
  else if code = 6 then .string
  else if code = 7 then .array
  else if code = 8 then .object
  else if code = 9 then .bigint
  else .invalid

theorem valueKind_code (kind : ValueKind) : valueKind kind.code = kind := by
  cases kind <;> rfl

/-- `Element.TypeErr`. -/
def typeErr (element : Element) : GoM W ValueKind :=
  valueKind <$> access element (elementType native)

/-- `Element.IsNullErr`. -/
def isNullErr (element : Element) : GoM W Bool := access element (elementIsNull native)

/-- `Element.GetBool`. -/
def getBool (element : Element) : GoM W Bool := access element (elementGetBool native)

/-- `Element.GetInt64`. -/
def getInt64 (element : Element) : GoM W Int64 := access element (elementGetInt64 native)

/-- `Element.GetUint64`. -/
def getUint64 (element : Element) : GoM W UInt64 := access element (elementGetUint64 native)

/-- `Element.GetFloat64`: what comes after the check goes by the kind the view carries. -/
def getFloat64 (element : Element) : GoM W UInt64 :=
  access element fun _ => PureSimdjson.getFloat64 native element.view

/-- `string(unsafe.Slice(ptr, length))`, which panics on a null pointer and on a length that
does not fit in `int`.  That a block ends within the address space goes without saying. -/
def sliceString (mem : Memory) (ptr length : Nat) : Option Bytes :=
  if ptr = 0 ∨ 2 ^ 63 ≤ length then none
  else some ((List.range length).map fun offset => mem (ptr + offset))

/-- `Bindings.copyElementBytes`: the block is given back in any case, and when that fails it is
only warned of. -/
def copyElementBytes (getter : Option ValueView → RuntimeM W (Nat × Nat)) (view : ValueView) :
    GoM W (Except ErrorCode Bytes) := do
  match ← binding (getter (some view)) with
  | .error rc => pure (.error rc)
  | .ok (ptr, length) =>
    if ptr = 0 ∧ length = 0 then pure (.ok [])
    else do
      let copied := sliceString (native.memory (← get).native) ptr length
      if ptr ≠ 0 then do
        let _ ← binding (bytesFree native ptr length)
      match copied with
      | some bytes => pure (.ok bytes)
      | none => throw .panic

/-- `Element.GetString`. -/
def getString (element : Element) : GoM W Bytes := do
  let _ ← orReturn (usableDoc element)
  wrapStatus (← copyElementBytes native (elementGetString native) element.view)

/-- `Element.GetBigInt`. -/
def getBigInt (element : Element) : GoM W Bytes := do
  let _ ← orReturn (usableDoc element)
  wrapStatus (← copyElementBytes native (elementGetBigintCopy native) element.view)

/-- What `Element.AsArray` and `Element.AsObject` check. -/
def asKind (kind : ValueKind) (element : Element) : GoM W Element := do
  let _ ← orReturn (usableDoc element)
  if element.view.kindHint ≠ kind.code then throw (.error (.status .wrongType))
  else pure element

/-- `Element.AsArray`. -/
def asArray : Element → GoM W Element := asKind .array

/-- `Element.AsObject`. -/
def asObject : Element → GoM W Element := asKind .object

/-! ## Iterators -/

/-- `ArrayIter`. -/
structure ArrayIter where
  doc : Option Doc
  iter : Iter
  currentValue : Element
  done : Bool
  err : Option AccessError

/-- `ObjectIter`. -/
structure ObjectIter where
  doc : Option Doc
  iter : Iter
  currentValue : Element
  currentKey : Bytes
  done : Bool
  err : Option AccessError

/-- What `Array.Iter` and `Object.Iter` do to get an iterator from the library. -/
def newIter (kind : ValueKind) (new : Option ValueView → RuntimeM W Iter) (element : Element) :
    GoM W (Except AccessError Iter) :=
  match usableDoc element with
  | .error err => pure (.error err)
  | .ok doc =>
    if element.view.kindHint ≠ kind.code then pure (.error (.status .wrongType))
    else do
      match ← binding (new (some element.view)) with
      | .error rc => pure (.error (normalizeIteratorError (some doc) rc))
      | .ok iter => pure (.ok iter)

/-- `Array.Iter`. -/
def arrayIter (array : Element) : GoM W ArrayIter := do
  match ← newIter .array (arrayIterNew native) array with
  | .error err => pure ⟨array.doc, ⟨0, 0, 0, 0, 0, 0⟩, .zero, false, some err⟩
  | .ok iter => pure ⟨array.doc, iter, .zero, false, none⟩

/-- `Object.Iter`. -/
def objectIter (object : Element) : GoM W ObjectIter := do
  match ← newIter .object (objectIterNew native) object with
  | .error err => pure ⟨object.doc, ⟨0, 0, 0, 0, 0, 0⟩, .zero, [], false, some err⟩
  | .ok iter => pure ⟨object.doc, iter, .zero, [], false, none⟩

/-- The iterator is over. -/
def ArrayIter.over (it : ArrayIter) (err : Option AccessError) : ArrayIter :=
  { it with currentValue := .zero, done := true, err := err }

def ObjectIter.over (it : ObjectIter) (err : Option AccessError) : ObjectIter :=
  { it with currentValue := .zero, currentKey := [], done := true, err := err }

/-- `ArrayIter.Next`. -/
def ArrayIter.next (it : ArrayIter) : GoM W (Bool × ArrayIter) :=
  if it.done ∨ it.err.isSome then pure (false, it)
  else
    match usableIteratorBindings it.doc with
    | .error err => pure (false, it.over (some err))
    | .ok _ => do
      match ← binding (arrayIterNext native (some it.iter)) with
      | .error rc => pure (false, it.over (some (normalizeIteratorError it.doc rc)))
      | .ok step =>
        let it := { it with iter := step.iter }
        if step.done then pure (false, it.over none)
        else pure (true, { it with currentValue := ⟨it.doc, step.value⟩ })

/-- `ObjectIter.Next`, which copies the key. -/
def ObjectIter.next (it : ObjectIter) : GoM W (Bool × ObjectIter) :=
  if it.done ∨ it.err.isSome then pure (false, it)
  else
    match usableIteratorBindings it.doc with
    | .error err => pure (false, it.over (some err))
    | .ok _ => do
      match ← binding (objectIterNext native (some it.iter)) with
      | .error rc => pure (false, it.over (some (normalizeIteratorError it.doc rc)))
      | .ok step =>
        let it := { it with iter := step.iter }
        if step.done then pure (false, it.over none)
        else do
          match ← copyElementBytes native (elementGetString native) step.key with
          | .error rc => pure (false, it.over (some (normalizeIteratorError it.doc rc)))
          | .ok key =>
            pure (true, { it with currentKey := key, currentValue := ⟨it.doc, step.value⟩ })

/-! ## The walk -/

/-- `iter.Err()`, after the loop. -/
def orErr {α : Type} (err : Option AccessError) (a : α) : GoM W α :=
  match err with
  | some err => throw (.error err)
  | none => pure a

/-- The `for` loop over an array's children.  `walk` is `materializeElementViaAccessors`. -/
def arrayRounds (walk : Element → GoM W GoValue) :
    (fuel : Nat) → ArrayIter → List GoValue → GoM W (List GoValue)
  | 0, _, _ => throw .diverged
  | fuel + 1, iter, values => do
    let (more, iter) ← iter.next native
    if more then do
      let value ← walk iter.currentValue
      arrayRounds walk fuel iter (values ++ [value])
    else orErr iter.err values

/-- The `for` loop over an object's fields. -/
def objectRounds (walk : Element → GoM W GoValue) :
    (fuel : Nat) → ObjectIter → List (Bytes × GoValue) → GoM W (List (Bytes × GoValue))
  | 0, _, _ => throw .diverged
  | fuel + 1, iter, values => do
    let (more, iter) ← iter.next native
    if more then do
      let value ← walk iter.currentValue
      objectRounds walk fuel iter (mapSet values iter.currentKey value)
    else orErr iter.err values

/-- The `switch` of `materializeElementViaAccessors`. -/
def switchKind (walk : Element → GoM W GoValue) (fuel : Nat) (element : Element) :
    ValueKind → GoM W GoValue
  | .null => do
    let isNull ← isNullErr native element
    if ¬ isNull then throw (.error (.status .internal)) else pure .nil
  | .bool => .bool <$> getBool native element
  | .int64 => .int64 <$> getInt64 native element
  | .uint64 => .uint64 <$> getUint64 native element
  | .float64 => .float64 <$> getFloat64 native element
  | .string => .string <$> getString native element
  | .bigint => .string <$> getBigInt native element
  | .array => do
    let array ← asArray element
    let iter ← arrayIter native array
    let values ← arrayRounds native walk fuel iter []
    pure (.slice values)
  | .object => do
    let object ← asObject element
    let iter ← objectIter native object
    let values ← objectRounds native walk fuel iter []
    pure (.map values)
  | .invalid => throw (.error (.status .internal))

/-- `materializeElementViaAccessors`. -/
def materializeElementViaAccessors : (fuel : Nat) → Element → GoM W GoValue
  | 0, _ => throw .diverged
  | fuel + 1, element => do
    let kind ←
      if element.view.kindHint = ValueKind.invalid.code then typeErr native element
      else pure (valueKind element.view.kindHint)
    switchKind native (materializeElementViaAccessors fuel) fuel element kind

end

end PureSimdjson.Elements
