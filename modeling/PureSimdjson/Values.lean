import Mathlib

/-!
# JSON documents and Go values

A document is a tree of the values simdjson distinguishes.  Materializing it gives
a Go `any` tree, where a big integer is an exact string, and an object is a
`map[string]any`, so of several fields with one key only the last is seen.
-/
namespace PureSimdjson

/-- The bytes of a string. -/
abbrev Bytes := List UInt8

/-- A JSON value.  A double is kept as its bit pattern, a big integer as its digits. -/
inductive Json where
  | null
  | bool (value : Bool)
  | int64 (value : Int64)
  | uint64 (value : UInt64)
  | double (bits : UInt64)
  | string (bytes : Bytes)
  | bigint (digits : Bytes)
  | array (items : List Json)
  | object (fields : List (Bytes × Json))

/-- Induction over documents: a container may assume the property of what it holds. -/
@[elab_as_elim, induction_eliminator]
theorem Json.induct {P : Json → Prop} (null : P .null) (bool : ∀ b, P (.bool b))
    (int64 : ∀ n, P (.int64 n)) (uint64 : ∀ n, P (.uint64 n))
    (double : ∀ bits, P (.double bits)) (string : ∀ bytes, P (.string bytes))
    (bigint : ∀ digits, P (.bigint digits))
    (array : ∀ items, (∀ v ∈ items, P v) → P (.array items))
    (object : ∀ fields, (∀ key v, (key, v) ∈ fields → P v) → P (.object fields)) (v : Json) :
    P v := by
  refine @Json.rec P (fun vs => ∀ v ∈ vs, P v) (fun fs => ∀ key v, (key, v) ∈ fs → P v)
    (fun f => P f.2) null bool int64 uint64 double string bigint array object
    nofun ?_ nofun ?_ ?_ v
  · intro w ws hw hws u hu
    rcases List.mem_cons.mp hu with rfl | hu
    · exact hw
    · exact hws u hu
  · intro f fs hf hfs key u hu
    rcases List.mem_cons.mp hu with rfl | hu
    · exact hf
    · exact hfs key u hu
  · intro key w hw
    exact hw

/-- The values an element can have as a Go `any`.  A map lists its keys once each. -/
inductive GoValue where
  | nil
  | bool (value : Bool)
  | int64 (value : Int64)
  | uint64 (value : UInt64)
  | float64 (bits : UInt64)
  | string (bytes : Bytes)
  | slice (values : List GoValue)
  | map (entries : List (Bytes × GoValue))

/-- `values[key] = value` on a Go map: the entry of that key is replaced. -/
def mapSet (entries : List (Bytes × GoValue)) (key : Bytes) (value : GoValue) :
    List (Bytes × GoValue) :=
  match entries with
  | [] => [(key, value)]
  | (k, v) :: rest => if k = key then (key, value) :: rest else (k, v) :: mapSet rest key value

/-- `values[key]`. -/
def mapGet (entries : List (Bytes × GoValue)) (key : Bytes) : Option GoValue :=
  match entries with
  | [] => none
  | (k, v) :: rest => if k = key then some v else mapGet rest key

@[simp] theorem mapGet_mapSet (entries : List (Bytes × GoValue)) (key key' : Bytes)
    (value : GoValue) :
    mapGet (mapSet entries key value) key' =
      if key = key' then some value else mapGet entries key' := by
  induction entries with
  | nil => simp [mapSet, mapGet]
  | cons entry rest ih =>
    obtain ⟨k, v⟩ := entry
    by_cases hk : k = key
    · subst hk
      by_cases hkey : k = key' <;> simp [mapSet, mapGet, hkey]
    · by_cases hkey : k = key'
      · subst hkey
        simp [mapSet, mapGet, hk, Ne.symm hk]
      · simp [mapSet, mapGet, hk, hkey, ih]

mutual

/-- What a document materializes to. -/
def Json.toGo : Json → GoValue
  | .null => .nil
  | .bool b => .bool b
  | .int64 n => .int64 n
  | .uint64 n => .uint64 n
  | .double bits => .float64 bits
  | .string bytes => .string bytes
  | .bigint digits => .string digits
  | .array items => .slice (Json.itemsToGo items)
  | .object fields => .map (Json.fieldsToGo [] fields)

def Json.itemsToGo : List Json → List GoValue
  | [] => []
  | v :: vs => v.toGo :: Json.itemsToGo vs

/-- The fields set one after the other into a map that starts as `entries`. -/
def Json.fieldsToGo (entries : List (Bytes × GoValue)) :
    List (Bytes × Json) → List (Bytes × GoValue)
  | [] => entries
  | (key, v) :: fields => Json.fieldsToGo (mapSet entries key v.toGo) fields

end

end PureSimdjson
