import PureSimdjson.Elements
import PureSimdjson.ViewArrays

/-!
# Navigating a document

The other calls of an `Element`, an `Array` and an `Object`: from one element to others, by a
pointer, a path, an index or a key, and how large a container is.  `Array` and `Object` wrap an
element that was checked to be one.

A `Client` is what one caller has of one document: the elements, containers and iterators that
its calls have returned.  They all point to the one `Doc`, so what they see of it is what it is
now; they are listed here in the order they came, and a command names one by its position.
-/
namespace PureSimdjson.Elements

open Effect

section
variable {W : Type} (native : Native W)

/-! ## Lookups -/

/-- What the lookups with one result do: the document is checked, and a status is an error. -/
def lookupElement (element : Element) (call : Option ValueView → RuntimeM W ValueView) :
    GoM W Element := do
  let doc ← orReturn (usableDoc element)
  let view ← wrapStatus (← binding (call (some element.view)))
  pure ⟨some doc, view⟩

/-- `Element.AtPointer`. -/
def atPointer (element : Element) (pointer : Bytes) : GoM W Element :=
  lookupElement element (elementAtPointer native · pointer)

/-- `Element.AtPath`. -/
def atPath (element : Element) (path : Bytes) : GoM W Element :=
  lookupElement element (elementAtPath native · path)

/-- `Bindings.ElementAtPathWildcard`: the array is copied and given back, and when that fails it
is only warned of.  An array without views is not one the library hands out. -/
def elementAtPathWildcard (view : ValueView) (path : Bytes) :
    GoM W (Except ErrorCode (List ValueView)) := do
  match ← binding (PureSimdjson.elementAtPathWildcard native (some view) path) with
  | .error rc => pure (.error rc)
  | .ok (ptr, count) =>
    if ptr = 0 then pure (if count = 0 then .ok [] else .error .internal)
    else if count = 0 then do
      let _ ← binding (valueViewsFree native ptr count)
      pure (.error .internal)
    else
      match sliceViews (native.memory (← get).native) ptr count with
      | none => throw .panic
      | some views => do
        let _ ← binding (valueViewsFree native ptr count)
        pure (.ok views)

/-- `Element.AtPathAll`. -/
def atPathAll (element : Element) (path : Bytes) : GoM W (List Element) := do
  let doc ← orReturn (usableDoc element)
  let views ← wrapStatus (← elementAtPathWildcard native element.view path)
  pure (views.map fun view => ⟨some doc, view⟩)

/-! ## Containers -/

/-- The checks that the calls of an `Array` or an `Object` start with. -/
def usableContainer (kind : ValueKind) (element : Element) : GoM W Doc := do
  let doc ← orReturn (usableDoc element)
  if element.view.kindHint ≠ kind.code then throw (.error (.status .wrongType)) else pure doc

/-- `normalizeIteratorError` and `return err`. -/
def orNormalized {α : Type} (doc : Doc) : Except ErrorCode α → GoM W α
  | .ok a => pure a
  | .error rc => throw (.error (normalizeIteratorError (some doc) rc))

/-- `Array.At`. -/
def arrayAt (array : Element) (index : Int64) : GoM W Element := do
  let doc ← usableContainer .array array
  if index < 0 then throw (.error (.status .indexOutOfRange))
  else do
    let view ← wrapStatus
      (← binding (PureSimdjson.arrayAt native (some array.view) index.toUInt64.toNat))
    pure ⟨some doc, view⟩

/-- `Object.GetField`. -/
def getField (object : Element) (key : Bytes) : GoM W Element := do
  let doc ← usableContainer .object object
  let view ← orNormalized doc (← binding (objectGetField native (some object.view) key))
  pure ⟨some doc, view⟩

/-- `Object.GetStringField`. -/
def getStringField (object : Element) (name : Bytes) : GoM W Bytes := do
  let field ← getField native object name
  getString native field

/-- What `Array.LenErr` and `Object.SizeErr` do.  The count is converted to `int`. -/
def countErr (kind : ValueKind) (call : Option ValueView → RuntimeM W Nat) (element : Element) :
    GoM W Int64 := do
  let _ ← usableContainer kind element
  let count ← wrapStatus (← binding (call (some element.view)))
  pure (UInt64.ofNat count).toInt64

/-- `Array.LenErr`. -/
def lenErr : Element → GoM W Int64 := countErr .array (arrayLen native)

/-- `Object.SizeErr`. -/
def sizeErr : Element → GoM W Int64 := countErr .object (objectSize native)

/-- `if err != nil { return a }`. -/
def orElse {α : Type} (a : α) (call : GoM W α) : GoM W α :=
  tryCatch call fun
    | .error _ => pure a
    | stop => throw stop

/-- `Element.Type`. -/
def type (element : Element) : GoM W ValueKind := orElse .invalid (typeErr native element)

/-- `Element.IsNull`. -/
def isNull (element : Element) : GoM W Bool := orElse false (isNullErr native element)

/-- `Array.Len`. -/
def len (array : Element) : GoM W Int64 := orElse 0 (lenErr native array)

/-- `Object.Size`. -/
def size (object : Element) : GoM W Int64 := orElse 0 (sizeErr native object)

/-- `Doc.Close`: a document that is closed already stays so. -/
def close (handle : UInt64) (doc : Doc) : GoM W Doc :=
  if doc.closed then pure doc
  else do
    wrapStatus (← binding (docFree native handle))
    pure { doc with closed := true }

end

/-! ## What a caller does -/

/-- An accessor of an element that returns a value. -/
inductive Getter where
  | typeErr
  | type
  | isNullErr
  | isNull
  | bool
  | int64
  | uint64
  | float64
  | string
  | bigInt

/-- A call that a caller makes.  It names an element, a container or an iterator by its
position among those it has. -/
inductive Command where
  | root
  | get (element : Nat) (getter : Getter)
  | atPointer (element : Nat) (pointer : Bytes)
  | atPath (element : Nat) (path : Bytes)
  | atPathAll (element : Nat) (path : Bytes)
  | asArray (element : Nat)
  | asObject (element : Nat)
  | arrayAt (array : Nat) (index : Int64)
  | lenErr (array : Nat)
  | len (array : Nat)
  | sizeErr (object : Nat)
  | size (object : Nat)
  | getField (object : Nat) (key : Bytes)
  | getStringField (object : Nat) (name : Bytes)
  | arrayIter (array : Nat)
  | objectIter (object : Nat)
  | arrayNext (iter : Nat)
  | arrayValue (iter : Nat)
  | arrayErr (iter : Nat)
  | objectNext (iter : Nat)
  | objectKey (iter : Nat)
  | objectValue (iter : Nat)
  | objectErr (iter : Nat)
  | close

/-- What a call tells its caller.  What it hands out is at the end of the caller's list. -/
inductive Answer where
  | absent
  | failed (err : AccessError)
  | panicked
  | kind (kind : ValueKind)
  | flag (value : Bool)
  | int64 (value : Int64)
  | uint64 (value : UInt64)
  | float64 (bits : UInt64)
  | text (bytes : Bytes)
  | handed (count : Nat)
  | err (err : Option AccessError)
  | closed
  deriving DecidableEq

/-- What a caller has of a document. -/
structure Client where
  handle : UInt64
  root : ValueView
  doc : Doc
  elements : List Element
  arrays : List Element
  objects : List Element
  arrayIters : List ArrayIter
  objectIters : List ObjectIter

/-- The caller of a document that was just parsed. -/
def Client.start (root : ValueView) : Client where
  handle := root.doc
  root := root
  doc := ⟨true, false⟩
  elements := []
  arrays := []
  objects := []
  arrayIters := []
  objectIters := []

/-- An element, through its pointer to the document as it is now. -/
def Element.through (element : Element) (doc : Doc) : Element :=
  { element with doc := element.doc.map fun _ => doc }

def ArrayIter.through (it : ArrayIter) (doc : Doc) : ArrayIter :=
  { it with doc := it.doc.map fun _ => doc, currentValue := it.currentValue.through doc }

def ObjectIter.through (it : ObjectIter) (doc : Doc) : ObjectIter :=
  { it with doc := it.doc.map fun _ => doc, currentValue := it.currentValue.through doc }

/-- What comes of a call: an answer, and what the caller has then. -/
abbrev Outcome := Answer × Client

section
variable {W : Type} (native : Native W) (c : Client)

/-- A call on something the caller has. -/
def Client.on {α : Type} (held : List α) (i : Nat) (call : α → GoM W Outcome) : GoM W Outcome :=
  match held[i]? with
  | some a => call a
  | none => pure (.absent, c)

/-- A call on an element. -/
def Client.onElement (held : List Element) (i : Nat) (call : Element → GoM W Outcome) :
    GoM W Outcome :=
  c.on held i fun element => call (element.through c.doc)

/-- The caller has got more elements. -/
def Client.hand (elements : List Element) : Outcome :=
  (.handed elements.length, { c with elements := c.elements ++ elements })

/-- The call of an accessor. -/
def getterCall (element : Element) : Getter → GoM W Answer
  | .typeErr => .kind <$> typeErr native element
  | .type => .kind <$> type native element
  | .isNullErr => .flag <$> isNullErr native element
  | .isNull => .flag <$> isNull native element
  | .bool => .flag <$> getBool native element
  | .int64 => .int64 <$> getInt64 native element
  | .uint64 => .uint64 <$> getUint64 native element
  | .float64 => .float64 <$> getFloat64 native element
  | .string => .text <$> getString native element
  | .bigInt => .text <$> getBigInt native element

/-- What a command does. -/
def Client.call : Command → GoM W Outcome
  | .root => pure (c.hand [⟨some c.doc, c.root⟩])
  | .get i getter => c.onElement c.elements i fun element =>
    (fun answer => (answer, c)) <$> getterCall native element getter
  | .atPointer i pointer => c.onElement c.elements i fun element =>
    (fun found => c.hand [found]) <$> atPointer native element pointer
  | .atPath i path => c.onElement c.elements i fun element =>
    (fun found => c.hand [found]) <$> atPath native element path
  | .atPathAll i path => c.onElement c.elements i fun element =>
    c.hand <$> atPathAll native element path
  | .asArray i => c.onElement c.elements i fun element =>
    (fun array => (.handed 1, { c with arrays := c.arrays ++ [array] })) <$> asArray element
  | .asObject i => c.onElement c.elements i fun element =>
    (fun object => (.handed 1, { c with objects := c.objects ++ [object] })) <$> asObject element
  | .arrayAt i index => c.onElement c.arrays i fun array =>
    (fun found => c.hand [found]) <$> arrayAt native array index
  | .lenErr i => c.onElement c.arrays i fun array =>
    (fun n => (.int64 n, c)) <$> lenErr native array
  | .len i => c.onElement c.arrays i fun array => (fun n => (.int64 n, c)) <$> len native array
  | .sizeErr i => c.onElement c.objects i fun object =>
    (fun n => (.int64 n, c)) <$> sizeErr native object
  | .size i => c.onElement c.objects i fun object =>
    (fun n => (.int64 n, c)) <$> size native object
  | .getField i key => c.onElement c.objects i fun object =>
    (fun found => c.hand [found]) <$> getField native object key
  | .getStringField i name => c.onElement c.objects i fun object =>
    (fun bytes => (.text bytes, c)) <$> getStringField native object name
  | .arrayIter i => c.onElement c.arrays i fun array =>
    (fun it => (.handed 1, { c with arrayIters := c.arrayIters ++ [it] })) <$>
      arrayIter native array
  | .objectIter i => c.onElement c.objects i fun object =>
    (fun it => (.handed 1, { c with objectIters := c.objectIters ++ [it] })) <$>
      objectIter native object
  | .arrayNext i => c.on c.arrayIters i fun it => do
    let (more, it) ← (it.through c.doc).next native
    pure (.flag more, { c with arrayIters := c.arrayIters.set i it })
  | .arrayValue i => c.on c.arrayIters i fun it => pure (c.hand [it.currentValue])
  | .arrayErr i => c.on c.arrayIters i fun it => pure (.err it.err, c)
  | .objectNext i => c.on c.objectIters i fun it => do
    let (more, it) ← (it.through c.doc).next native
    pure (.flag more, { c with objectIters := c.objectIters.set i it })
  | .objectKey i => c.on c.objectIters i fun it => pure (.text it.currentKey, c)
  | .objectValue i => c.on c.objectIters i fun it => pure (c.hand [it.currentValue])
  | .objectErr i => c.on c.objectIters i fun it => pure (.err it.err, c)
  | .close => (fun doc => (.closed, { c with doc := doc })) <$> close native c.handle c.doc

/-- A command from beginning to end.  A call that fails leaves the caller what it had. -/
def Client.perform (command : Command) (s : Runtime W) : Outcome × Runtime W :=
  match (c.call native command).run s with
  | .ok outcome s' => (outcome, s')
  | .error (.error err) s' => ((.failed err, c), s')
  | .error _ s' => ((.panicked, c), s')

end

end PureSimdjson.Elements
