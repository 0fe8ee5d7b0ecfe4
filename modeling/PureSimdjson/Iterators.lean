import PureSimdjson.ElementViews

/-!
# Iterators

An iterator struct lives with the caller, and the registry keeps a lease for it in
the document's entry: the very state the struct must be in to be accepted.  Advancing
writes the new state to both.
-/
namespace PureSimdjson

open Effect

/-- `validate_iter_index`. -/
def validateIterIndex (index rootAfterIndex : Nat) : Except ErrorCode Unit :=
  if index = 0 ∨ index ≥ rootAfterIndex then .error .invalidHandle else .ok ()

/-- `with_iter_doc`. -/
def withIterDoc {W α : Type} (iter : Iter) (expectedTag : Nat) (action : DocM W α) :
    RuntimeM W α := do
  require (¬ (iter.reserved ≠ 0 ∨ iter.tag ≠ expectedTag ∨ iter.state0 > iter.state1))
    .invalidHandle
  let (docIndex, _, docGeneration) ← ofExcept (unpackHandle iter.doc)
  withDoc docIndex docGeneration do
    let entry ← getEntry
    ofExcept (entry.validateIterLease iter.index iter.state0 iter.state1 expectedTag)
    ofExcept (validateIterIndex iter.state0 entry.rootAfterIndex)
    ofExcept (validateIterIndex iter.state1 entry.rootAfterIndex)
    action

/-- `DocEntry::update_iter_lease` on the entry at hand. -/
def updateLease {W : Type} (leaseId : UInt32) (state0 state1 tag : Nat) : DocM W Unit := do
  let entry ← ofExcept ((← getEntry).updateIterLease leaseId state0 state1 tag)
  modifyEntry fun _ => entry

/-- `DocEntry::alloc_iter_lease` on the entry at hand. -/
def allocLease {W : Type} (tag state0 state1 : Nat) : DocM W UInt32 := do
  let (leaseId, entry) ← ofExcept ((← getEntry).allocIterLease tag state0 state1)
  modifyEntry fun _ => entry
  pure leaseId

/-- `ArrayIterStep`. -/
structure ArrayIterStep where
  iter : Iter
  value : ValueView
  done : Bool

/-- `ObjectIterStep`. -/
structure ObjectIterStep where
  iter : Iter
  key : ValueView
  value : ValueView
  done : Bool

section
variable {W : Type} (native : Native W)

/-- `array_iter_new`. -/
def arrayIterNew (arrayView : Option ValueView) : RuntimeM W Iter :=
  withResolvedView arrayView fun jsonIndex doc => do
    requireKind native .array jsonIndex
    let (state0, state1) ← onDoc (nativeArrayIterBounds native · jsonIndex)
    let leaseId ← allocLease arrayIterTag state0 state1
    pure ⟨doc, state0, state1, leaseId, arrayIterTag, 0⟩

/-- `object_iter_new`. -/
def objectIterNew (objectView : Option ValueView) : RuntimeM W Iter :=
  withResolvedView objectView fun jsonIndex doc => do
    requireKind native .object jsonIndex
    let (state0, state1) ← onDoc (nativeObjectIterBounds native · jsonIndex)
    let leaseId ← allocLease objectIterTag state0 state1
    pure ⟨doc, state0, state1, leaseId, objectIterTag, 0⟩

/-- What `array_iter_next` does with an accepted iterator. -/
def arrayIterAdvance (iter : Iter) : DocM W ArrayIterStep := do
  if iter.state0 = iter.state1 then pure ⟨iter, .default, true⟩
  else do
    let value ← encodeDescendantView native iter.doc iter.state0
    let nextState0 ← onDoc (nativeElementAfterIndex native · iter.state0)
    require (¬ (nextState0 ≤ iter.state0 ∨ nextState0 > iter.state1)) .invalidHandle
    updateLease iter.index nextState0 iter.state1 arrayIterTag
    pure ⟨{ iter with state0 := nextState0 }, value, false⟩

/-- `array_iter_next`. -/
def arrayIterNext (iter : Option Iter) : RuntimeM W ArrayIterStep := do
  match iter with
  | none => throw .invalidArgument
  | some iter => withIterDoc iter arrayIterTag (arrayIterAdvance native iter)

/-- What `object_iter_next` does with an accepted iterator: the key takes one word and
the value follows it. -/
def objectIterAdvance (iter : Iter) : DocM W ObjectIterStep := do
  if iter.state0 = iter.state1 then pure ⟨iter, .default, .default, true⟩
  else do
    require (iter.state0 + 1 < 2 ^ 64) .invalidHandle
    let valueJsonIndex := iter.state0 + 1
    require (¬ valueJsonIndex ≥ iter.state1) .invalidHandle
    ofExcept (validateIterIndex valueJsonIndex (← getEntry).rootAfterIndex)
    let keyKind ← onDoc (native.read .elementTypeAt · iter.state0)
    require (keyKind = ValueKind.string.code) .invalidHandle
    let key ← encodeDescendantView native iter.doc iter.state0
    let value ← encodeDescendantView native iter.doc valueJsonIndex
    let nextState0 ← onDoc (nativeElementAfterIndex native · valueJsonIndex)
    require (¬ (nextState0 ≤ valueJsonIndex ∨ nextState0 > iter.state1)) .invalidHandle
    updateLease iter.index nextState0 iter.state1 objectIterTag
    pure ⟨{ iter with state0 := nextState0 }, key, value, false⟩

/-- `object_iter_next`. -/
def objectIterNext (iter : Option Iter) : RuntimeM W ObjectIterStep := do
  match iter with
  | none => throw .invalidArgument
  | some iter => withIterDoc iter objectIterTag (objectIterAdvance native iter)

end

end PureSimdjson
