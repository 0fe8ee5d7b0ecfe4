import PureSimdjson.Navigation
import PureSimdjson.OpenDocuments

/-!
# What the calls of a caller leave alone

Everything a caller does with a document but closing it is made of calls that do not free it, and
only `Next` goes through a lease, its own.
-/
namespace PureSimdjson.Elements

open Effect

section
variable {W : Type} {R : Runtime W → Runtime W → Prop} {α : Type}

theorem keeps_binding {m : RuntimeM W α} (h : Keeps R m) : Keeps R (binding m) := by
  intro s
  rw [wp_binding]
  exact h s

variable [Std.Refl R]

theorem keeps_wrapStatus (x : Except ErrorCode α) : Keeps R (wrapStatus x : GoM W α) := by
  cases x with
  | ok a => exact Keeps.pure a
  | error rc => exact Keeps.throw _

theorem keeps_orReturn (x : Except AccessError α) : Keeps R (orReturn x : GoM W α) := by
  cases x with
  | ok a => exact Keeps.pure a
  | error err => exact Keeps.throw _

variable [IsTrans (Runtime W) R]

theorem keeps_access {element : Element} (call : Option ValueView → RuntimeM W α)
    (h : Keeps R (call (some element.view))) : Keeps R (access element call) :=
  (keeps_orReturn _).bind fun _ => (keeps_binding h).bind fun _ => keeps_wrapStatus _

theorem keeps_orElse (a : α) {call : GoM W α} (h : Keeps R call) : Keeps R (orElse a call) := by
  refine h.tryCatch fun stop => ?_
  cases stop with
  | error err => exact Keeps.pure _
  | panic => exact Keeps.throw _
  | diverged => exact Keeps.throw _

end

section
variable {W : Type} (native : Native W) {doc : UInt64} {slot : UInt32} {kept : Set UInt32}

/-- A call that is neither `next` nor frees a document. -/
theorem passes_other {α : Type} {m : RuntimeM W α} {reply : α → Reply} (call : Call)
    (hexec : exec native call = reply <$> m) (hnext : call.next = none)
    (hfree : ∀ handle, call ≠ .docFree handle) : Keeps (Passes native doc slot kept) m :=
  passes_call call hexec (harmless_of_other hnext hfree)

theorem passes_bytesFree (ptr len : Nat) :
    Keeps (Passes native doc slot kept) (bytesFree native ptr len) :=
  passes_other native (.bytesFree ptr len) rfl rfl fun _ h => by cases h

theorem passes_copyElementBytes {getter : Option ValueView → RuntimeM W (Nat × Nat)}
    {view : ValueView} (hgetter : Keeps (Passes native doc slot kept) (getter (some view))) :
    Keeps (Passes native doc slot kept) (copyElementBytes native getter view) := by
  refine (keeps_binding hgetter).bind fun result => ?_
  cases result with
  | error rc => exact Keeps.pure _
  | ok block =>
    refine Keeps.ite (Keeps.pure _) (Keeps.get.bind fun s => ?_)
    cases sliceString (native.memory s.native) block.1 block.2 with
    | none =>
      exact Keeps.ite ((keeps_binding (passes_bytesFree native _ _)).bind fun _ => Keeps.throw _)
        (Keeps.throw _)
    | some bytes =>
      exact Keeps.ite ((keeps_binding (passes_bytesFree native _ _)).bind fun _ => Keeps.pure _)
        (Keeps.pure _)

theorem passes_getString (element : Element) :
    Keeps (Passes native doc slot kept) (getString native element) :=
  (keeps_orReturn _).bind fun _ => (passes_copyElementBytes native (passes_other native
    (.elementGetString _) rfl rfl fun _ h => by cases h)).bind fun _ => keeps_wrapStatus _

theorem passes_getBigInt (element : Element) :
    Keeps (Passes native doc slot kept) (getBigInt native element) :=
  (keeps_orReturn _).bind fun _ => (passes_copyElementBytes native (passes_other native
    (.elementGetBigint _) rfl rfl fun _ h => by cases h)).bind fun _ => keeps_wrapStatus _

theorem passes_getFloat64 (element : Element) :
    Keeps (Passes native doc slot kept) (getFloat64 native element) := by
  refine keeps_access (fun _ => PureSimdjson.getFloat64 native element.view) ?_
  refine Keeps.ite ?_ (Keeps.ite ?_ ?_)
  · exact (passes_other native (.elementGetInt64 _) rfl rfl fun _ h => by cases h).bind fun _ =>
      (Keeps.require _ _).bind fun _ => Keeps.pure _
  · exact (passes_other native (.elementGetUint64 _) rfl rfl fun _ h => by cases h).bind fun _ =>
      (Keeps.require _ _).bind fun _ => Keeps.pure _
  · exact passes_other native (.elementGetFloat64 _) rfl rfl fun _ h => by cases h

theorem passes_typeErr (element : Element) :
    Keeps (Passes native doc slot kept) (typeErr native element) :=
  (keeps_access _ (passes_other native (.elementType _) rfl rfl fun _ h => by cases h)).map _

theorem passes_isNullErr (element : Element) :
    Keeps (Passes native doc slot kept) (isNullErr native element) :=
  keeps_access _ (passes_other native (.elementIsNull _) rfl rfl fun _ h => by cases h)

/-- **No accessor does harm.** -/
theorem passes_getterCall (element : Element) (getter : Getter) :
    Keeps (Passes native doc slot kept) (getterCall native element getter) := by
  cases getter with
  | typeErr => exact (passes_typeErr native element).map _
  | type => exact (keeps_orElse _ (passes_typeErr native element)).map _
  | isNullErr => exact (passes_isNullErr native element).map _
  | isNull => exact (keeps_orElse _ (passes_isNullErr native element)).map _
  | bool =>
    exact (keeps_access _
      (passes_other native (.elementGetBool _) rfl rfl fun _ h => by cases h)).map _
  | int64 =>
    exact (keeps_access _
      (passes_other native (.elementGetInt64 _) rfl rfl fun _ h => by cases h)).map _
  | uint64 =>
    exact (keeps_access _
      (passes_other native (.elementGetUint64 _) rfl rfl fun _ h => by cases h)).map _
  | float64 => exact (passes_getFloat64 native element).map _
  | string => exact (passes_getString native element).map _
  | bigInt => exact (passes_getBigInt native element).map _

/-! ## Lookups and containers -/

theorem passes_lookupElement {element : Element} {call : Option ValueView → RuntimeM W ValueView}
    (h : Keeps (Passes native doc slot kept) (call (some element.view))) :
    Keeps (Passes native doc slot kept) (lookupElement element call) :=
  (keeps_orReturn _).bind fun _ => (keeps_binding h).bind fun _ =>
    (keeps_wrapStatus _).bind fun _ => Keeps.pure _

theorem passes_atPathAll (element : Element) (path : Bytes) :
    Keeps (Passes native doc slot kept) (atPathAll native element path) := by
  refine (keeps_orReturn _).bind fun d => Keeps.bind ?_ fun _ => (keeps_wrapStatus _).bind fun _ =>
    Keeps.pure _
  have hfree (block : Nat × Nat) : Keeps (Passes native doc slot kept)
      (binding (valueViewsFree native block.1 block.2)) :=
    keeps_binding (passes_other native (.valueViewsFree _ _) rfl rfl fun _ h => by cases h)
  refine (keeps_binding (passes_other native (.elementAtPathWildcard _ path) rfl rfl
    fun _ h => by cases h)).bind fun result => ?_
  cases result with
  | error rc => exact Keeps.pure _
  | ok block =>
    refine Keeps.ite (Keeps.pure _) (Keeps.ite ((hfree block).bind fun _ => Keeps.pure _) ?_)
    refine Keeps.get.bind fun s => ?_
    cases sliceViews (native.memory s.native) block.1 block.2 with
    | none => exact Keeps.throw _
    | some views => exact (hfree block).bind fun _ => Keeps.pure _

theorem keeps_usableContainer {R : Runtime W → Runtime W → Prop} [Std.Refl R]
    [IsTrans (Runtime W) R] (kind : ValueKind) (element : Element) :
    Keeps R (usableContainer kind element) :=
  (keeps_orReturn _).bind fun _ => Keeps.ite (Keeps.throw _) (Keeps.pure _)

theorem keeps_orNormalized {R : Runtime W → Runtime W → Prop} [Std.Refl R] {α : Type} (d : Doc)
    (x : Except ErrorCode α) : Keeps R (orNormalized d x : GoM W α) := by
  cases x with
  | ok a => exact Keeps.pure a
  | error rc => exact Keeps.throw _

theorem passes_arrayAt (array : Element) (index : Int64) :
    Keeps (Passes native doc slot kept) (arrayAt native array index) :=
  (keeps_usableContainer _ _).bind fun _ => Keeps.ite (Keeps.throw _)
    ((keeps_binding (passes_other native (.arrayAt _ _) rfl rfl fun _ h => by cases h)).bind
      fun _ => (keeps_wrapStatus _).bind fun _ => Keeps.pure _)

theorem passes_getField (object : Element) (key : Bytes) :
    Keeps (Passes native doc slot kept) (getField native object key) :=
  (keeps_usableContainer _ _).bind fun _ =>
    (keeps_binding (passes_other native (.objectGetField _ _) rfl rfl fun _ h => by cases h)).bind
      fun _ => (keeps_orNormalized _ _).bind fun _ => Keeps.pure _

theorem passes_countErr (kind : ValueKind) {call : Option ValueView → RuntimeM W Nat}
    {element : Element} (h : Keeps (Passes native doc slot kept) (call (some element.view))) :
    Keeps (Passes native doc slot kept) (countErr kind call element) :=
  (keeps_usableContainer _ _).bind fun _ => (keeps_binding h).bind fun _ =>
    (keeps_wrapStatus _).bind fun _ => Keeps.pure _

theorem passes_newIter (kind : ValueKind) {new : Option ValueView → RuntimeM W Iter}
    {element : Element} (h : Keeps (Passes native doc slot kept) (new (some element.view))) :
    Keeps (Passes native doc slot kept) (newIter kind new element) := by
  rw [newIter]
  cases usableDoc element with
  | error err => exact Keeps.pure _
  | ok d =>
    refine Keeps.ite (Keeps.pure _) ((keeps_binding h).bind fun result => ?_)
    cases result with
    | error rc => exact Keeps.pure _
    | ok iter => exact Keeps.pure _

theorem passes_arrayIter (array : Element) :
    Keeps (Passes native doc slot kept) (arrayIter native array) := by
  refine (passes_newIter native .array (passes_other native (.arrayIterNew _) rfl rfl
    fun _ h => by cases h)).bind fun result => ?_
  cases result with
  | error err => exact Keeps.pure _
  | ok iter => exact Keeps.pure _

theorem passes_objectIter (object : Element) :
    Keeps (Passes native doc slot kept) (objectIter native object) := by
  refine (passes_newIter native .object (passes_other native (.objectIterNew _) rfl rfl
    fun _ h => by cases h)).bind fun result => ?_
  cases result with
  | error err => exact Keeps.pure _
  | ok iter => exact Keeps.pure _

/-! ## Iterators -/

/-- `Next` goes through the iterator's own lease only. -/
theorem passes_arrayNext (it : ArrayIter) :
    Keeps (Passes native doc slot {id | id ≠ it.iter.index}) (it.next native) := by
  rw [ArrayIter.next]
  refine Keeps.ite (Keeps.pure _) ?_
  cases usableIteratorBindings it.doc with
  | error err => exact Keeps.pure _
  | ok d =>
    refine (keeps_binding (passes_call (.arrayIterNext (some it.iter)) rfl
      (harmless_of_next rfl))).bind fun result => ?_
    cases result with
    | error rc => exact Keeps.pure _
    | ok step => exact Keeps.ite (Keeps.pure _) (Keeps.pure _)

theorem passes_objectNext (it : ObjectIter) :
    Keeps (Passes native doc slot {id | id ≠ it.iter.index}) (it.next native) := by
  rw [ObjectIter.next]
  refine Keeps.ite (Keeps.pure _) ?_
  cases usableIteratorBindings it.doc with
  | error err => exact Keeps.pure _
  | ok d =>
    refine (keeps_binding (passes_call (.objectIterNext (some it.iter)) rfl
      (harmless_of_next rfl))).bind fun result => ?_
    cases result with
    | error rc => exact Keeps.pure _
    | ok step =>
      refine Keeps.ite (Keeps.pure _) ((passes_copyElementBytes native (passes_other native
        (.elementGetString _) rfl rfl fun _ h => by cases h)).bind fun key => ?_)
      cases key with
      | error rc => exact Keeps.pure _
      | ok key => exact Keeps.pure _

end

end PureSimdjson.Elements
