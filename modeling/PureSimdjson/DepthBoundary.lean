import PureSimdjson.Materializer

/-!
# The two depth limits

The diagnostic replay consumes a document with the on-demand interface and counts
a container when it enters it; the materializer counts every value, scalars
included.  Both stop at 1024.  This module has the replay walk, says what each of
the two walks stops at, and compares them.

They agree on a document unless containers stand 1023 levels down and the
materializer reaches nothing below any of them: a thousand and twenty-four
brackets around nothing replay as too deep and materialize without complaint.
-/
namespace PureSimdjson

open Effect

/-- `consume_ondemand_value`. -/
def consumeOndemandValue {V : Type} (od : OnDemand V) (value : V) (currentDepth maxDepth : Nat) :
    Except SimdjsonError Unit :=
  if maxDepth > maxSupportedDepth then throw .depthError
  else do
    let type ← od.type value
    match type with
    | .array =>
      if currentDepth = 2 ^ 64 - 1 then throw .depthError
      else if _h : currentDepth + 1 ≥ maxDepth then throw .depthError
      else do
        let array ← od.getArray value
        forM array fun childResult => do
          let child ← childResult
          consumeOndemandValue od child (currentDepth + 1) maxDepth
    | .object =>
      if currentDepth = 2 ^ 64 - 1 then throw .depthError
      else if _h : currentDepth + 1 ≥ maxDepth then throw .depthError
      else do
        let object ← od.getObject value
        forM object fun fieldResult => do
          let (unescapedKey, child) ← fieldResult
          let _key ← unescapedKey
          consumeOndemandValue od child (currentDepth + 1) maxDepth
    | .number => od.getNumber value
    | .string => do
      let _string ← od.getString value
    | .boolean => do
      let _boolean ← od.getBool value
    | .null => do
      let _isNull ← od.isNull value
    | .unknown => throw .tapeError
  termination_by maxDepth - currentDepth

/-! ## What the replay stops at -/

/-- A walk that fails on a document too deep by `levels`, and only then. -/
def StopsAt (walk : Except SimdjsonError Unit) (deep : Prop) : Prop :=
  (deep → walk = .error .depthError) ∧ (¬ deep → walk = .ok ())

/-- A loop stops at the first child that does. -/
theorem forM_stopsAt {α : Type} {walk : α → Except SimdjsonError Unit} {deep : Json → Prop}
    {vs : List Json} {xs : List α}
    (h : List.Forall₂ (fun v x => StopsAt (walk x) (deep v)) vs xs) :
    StopsAt (forM xs walk) (∃ v ∈ vs, deep v) := by
  induction h with
  | nil => exact ⟨by simp, fun _ => rfl⟩
  | @cons v x vs xs hx _ ih =>
    rw [List.forM_cons]
    by_cases hv : deep v
    · refine ⟨fun _ => ?_, fun hnone => absurd ⟨v, List.mem_cons_self, hv⟩ hnone⟩
      rw [hx.1 hv]
      rfl
    · rw [hx.2 hv]
      refine ⟨fun ⟨u, hu, hdeep⟩ => ih.1 ?_, fun hnone => ih.2 ?_⟩
      · rcases List.mem_cons.mp hu with rfl | hu
        · exact absurd hdeep hv
        · exact ⟨u, hu, hdeep⟩
      · rintro ⟨u, hu, hdeep⟩
        exact hnone ⟨u, List.mem_cons_of_mem v hu, hdeep⟩

/-- A value with nothing under it stops no walk. -/
theorem stopsAt_scalar {v : Json} {levels : Nat} (hleaf : v.children = [])
    (hscalar : v.isContainer = false) {walk : Except SimdjsonError Unit} (hwalk : walk = .ok ()) :
    StopsAt walk (v.NestsTo levels) := by
  refine ⟨fun h => ?_, fun _ => hwalk⟩
  cases levels with
  | zero => simp [Json.nestsTo_zero, hscalar] at h
  | succ levels => simp [Json.nestsTo_succ, hleaf] at h

/-- A container stops the walk at the limit, and otherwise where a child does. -/
theorem stopsAt_container {α : Type} {walk : α → Except SimdjsonError Unit} {v : Json}
    {currentDepth maxDepth levels : Nat} (hcontainer : v.isContainer)
    (hmax : maxDepth ≤ maxSupportedDepth) (hlevels : currentDepth + levels + 1 = maxDepth)
    {children : List α}
    (hchildren : ∀ n, levels = n + 1 →
      List.Forall₂ (fun c x => StopsAt (walk x) (c.NestsTo n)) v.children children) :
    StopsAt (if currentDepth = 2 ^ 64 - 1 then throw .depthError
      else if _h : currentDepth + 1 ≥ maxDepth then throw .depthError
      else forM children walk) (v.NestsTo levels) := by
  have hsize : currentDepth ≠ 2 ^ 64 - 1 := by
    rw [maxSupportedDepth] at hmax
    omega
  rw [if_neg hsize]
  cases levels with
  | zero =>
    rw [dif_pos (by omega)]
    exact ⟨fun _ => rfl, fun h => absurd (Json.nestsTo_zero.mpr hcontainer) h⟩
  | succ n =>
    rw [dif_neg (by omega), Json.nestsTo_succ]
    exact forM_stopsAt (hchildren n rfl)

/-- **What the replay stops at**: a container that takes the depth to the limit. -/
theorem consumeOndemandValue_spec {V : Type} (od : OnDemand V) {maxDepth : Nat}
    (hmax : maxDepth ≤ maxSupportedDepth) (v : Json) :
    ∀ value currentDepth levels, od.Shows v value → currentDepth + levels + 1 = maxDepth →
      StopsAt (consumeOndemandValue od value currentDepth maxDepth) (v.NestsTo levels) := by
  have hlimit : ¬ maxDepth > maxSupportedDepth := Nat.not_lt.mpr hmax
  induction v with
  | null =>
    rintro value currentDepth levels ⟨htype, b, hget⟩ _
    refine stopsAt_scalar rfl rfl ?_
    rw [consumeOndemandValue, if_neg hlimit, htype, except_ok_bind]
    simp only [hget]
    rfl
  | bool b =>
    rintro value currentDepth levels ⟨htype, b, hget⟩ _
    refine stopsAt_scalar rfl rfl ?_
    rw [consumeOndemandValue, if_neg hlimit, htype, except_ok_bind]
    simp only [hget]
    rfl
  | int64 n =>
    rintro value currentDepth levels ⟨htype, hget⟩ _
    refine stopsAt_scalar rfl rfl ?_
    rw [consumeOndemandValue, if_neg hlimit, htype, except_ok_bind]
    exact hget
  | uint64 n =>
    rintro value currentDepth levels ⟨htype, hget⟩ _
    refine stopsAt_scalar rfl rfl ?_
    rw [consumeOndemandValue, if_neg hlimit, htype, except_ok_bind]
    exact hget
  | double bits =>
    rintro value currentDepth levels ⟨htype, hget⟩ _
    refine stopsAt_scalar rfl rfl ?_
    rw [consumeOndemandValue, if_neg hlimit, htype, except_ok_bind]
    exact hget
  | bigint digits =>
    rintro value currentDepth levels ⟨htype, hget⟩ _
    refine stopsAt_scalar rfl rfl ?_
    rw [consumeOndemandValue, if_neg hlimit, htype, except_ok_bind]
    exact hget
  | string bytes =>
    rintro value currentDepth levels ⟨htype, view, hget⟩ _
    refine stopsAt_scalar rfl rfl ?_
    rw [consumeOndemandValue, if_neg hlimit, htype, except_ok_bind]
    simp only [hget]
    rfl
  | array items ih =>
    rintro value currentDepth levels ⟨htype, children, hget, hchildren⟩ hlevels
    rw [consumeOndemandValue, if_neg hlimit, htype, except_ok_bind]
    simp only [hget, except_ok_bind]
    refine stopsAt_container rfl hmax hlevels fun n hn => ?_
    rw [od.showsItems_iff] at hchildren
    refine forall₂_of_mem hchildren fun v hv childResult hshows => ?_
    obtain ⟨child, rfl, hshows⟩ := hshows
    exact ih v hv child (currentDepth + 1) n hshows (by omega)
  | object fields ih =>
    rintro value currentDepth levels ⟨htype, children, hget, hchildren⟩ hlevels
    rw [consumeOndemandValue, if_neg hlimit, htype, except_ok_bind]
    simp only [hget, except_ok_bind]
    refine stopsAt_container rfl hmax hlevels fun n hn => ?_
    rw [od.showsFields_iff] at hchildren
    rw [Json.children, List.forall₂_map_left_iff]
    refine forall₂_of_mem hchildren fun field hmem fieldResult hshows => ?_
    obtain ⟨key, child, rfl, hshows⟩ := hshows
    exact ih field.1 field.2 hmem child (currentDepth + 1) n hshows (by omega)

/-! ## Where the two walks part -/

/-- The replay of a document from depth 0 reports a depth error. -/
def ReplayTooDeep {V : Type} (od : OnDemand V) (value : V) : Prop :=
  consumeOndemandValue od value 0 maxSupportedDepth = .error .depthError

/-- The materializer, started on an empty vector at depth 0, reports the depth limit. -/
def MaterializeTooDeep {E : Type} (dom : Dom E) (element : E) : Prop :=
  ∃ frames, (appendMaterializeFrame dom element .empty 0).run [] = .error .depthLimit frames

theorem replayTooDeep_iff {V : Type} (od : OnDemand V) {v : Json} {value : V}
    (h : od.Shows v value) : ReplayTooDeep od value ↔ v.NestsTo 1023 := by
  have hspec := consumeOndemandValue_spec od (Nat.le_refl _) v value 0 1023 h rfl
  refine ⟨fun hdeep => ?_, hspec.1⟩
  by_contra hnone
  rw [ReplayTooDeep, hspec.2 hnone] at hdeep
  cases hdeep

theorem materializeTooDeep_iff {E : Type} (dom : Dom E) (mem : Memory) {v : Json} {element : E}
    (h : dom.Shows mem v element) : MaterializeTooDeep dom element ↔ v.Reaches 1024 := by
  have hspec := appendMaterializeFrame_spec mem dom v element .empty 0 h []
  rw [show maxSupportedDepth - 0 = 1024 from rfl] at hspec
  constructor
  · rintro ⟨frames, hrun⟩
    rcases wp_error hspec hrun with ⟨_, hreach⟩ | ⟨herr, _⟩
    · exact hreach
    · cases herr
  · intro hreach
    cases hrun : (appendMaterializeFrame dom element .empty 0).run [] with
    | ok _ frames => exact absurd hreach (wp_ok hspec hrun).1
    | error err frames =>
      rcases wp_error hspec hrun with ⟨rfl, _⟩ | ⟨_, hnone, _⟩
      · exact ⟨frames, hrun⟩
      · exact absurd hreach hnone

/-- **The two walks share one depth boundary exactly on** the documents with no
container 1023 levels down, and on those where the materializer reaches a value
below such a container. -/
theorem depthBoundary_shared_iff {E V : Type} (dom : Dom E) (od : OnDemand V) (mem : Memory)
    (v : Json) (element : E) (value : V) (helement : dom.Shows mem v element)
    (hvalue : od.Shows v value) :
    (ReplayTooDeep od value ↔ MaterializeTooDeep dom element) ↔
      (¬ v.NestsTo 1023 ∨ v.Reaches 1024) := by
  rw [replayTooDeep_iff od hvalue, materializeTooDeep_iff dom mem helement]
  constructor
  · intro h
    by_cases hnests : v.NestsTo 1023
    · exact Or.inr (h.mp hnests)
    · exact Or.inl hnests
  · rintro (h | h)
    · exact ⟨fun hnests => absurd hnests h, fun hreach => absurd hreach.nestsTo h⟩
    · exact ⟨fun _ => h, fun hreach => hreach.nestsTo⟩

/-- A document read directly: an element is the value it shows.  No string is
placed in memory. -/
def jsonDom : Dom Json where
  type := Json.elementType
  getArray
    | .array items => .ok items
    | _ => .error .incorrectType
  getObject
    | .object fields => .ok (fields.map fun field => (.empty, field.2))
    | _ => .error .incorrectType
  getInt64
    | .int64 n => .ok n
    | _ => .error .incorrectType
  getUint64
    | .uint64 n => .ok n
    | _ => .error .incorrectType
  getDouble
    | .double bits => .ok bits
    | _ => .error .incorrectType
  getString := fun _ => .error .incorrectType
  getBool
    | .bool b => .ok b
    | _ => .error .incorrectType
  getBigint := fun _ => .error .incorrectType
  isNull
    | .null => true
    | _ => false
  arraySize v := .ok (min v.children.length 0xFFFFFF)
  objectSize v := .ok (min v.children.length 0xFFFFFF)
  atKey := fun _ _ => .error .noSuchField
  atIndex v index :=
    match v.children[index]? with
    | some c => .ok c
    | none => .error .indexOutOfBounds
  atPointer v pointer := if pointer = [] then .ok v else .error .invalidJsonPointer
  atPath := fun _ _ => .error .invalidJsonPointer
  atPathWithWildcard := fun _ _ => .error .invalidJsonPointer

/-- The same for the on-demand interface. -/
def jsonOnDemand : OnDemand Json where
  type
    | .null => .ok .null
    | .bool _ => .ok .boolean
    | .string _ => .ok .string
    | .array _ => .ok .array
    | .object _ => .ok .object
    | _ => .ok .number
  getArray v := .ok (v.children.map .ok)
  getObject v := .ok (v.children.map fun c => .ok (.ok .empty, c))
  getNumber := fun _ => .ok ()
  getString := fun _ => .ok .empty
  getBool := fun _ => .ok true
  isNull := fun _ => .ok true

/-- `n + 1` brackets around nothing. -/
def nestedArrays : Nat → Json
  | 0 => .array []
  | n + 1 => .array [nestedArrays n]

theorem jsonDom_shows_nestedArrays (mem : Memory) (n : Nat) :
    jsonDom.Shows mem (nestedArrays n) (nestedArrays n) := by
  induction n with
  | zero => exact ⟨rfl, [], rfl, rfl⟩
  | succ n ih => exact ⟨rfl, _, rfl, _, _, rfl, ih, rfl⟩

theorem jsonOnDemand_shows_nestedArrays (n : Nat) :
    jsonOnDemand.Shows (nestedArrays n) (nestedArrays n) := by
  induction n with
  | zero => exact ⟨rfl, [], rfl, rfl⟩
  | succ n ih => exact ⟨rfl, _, rfl, _, _, rfl, ih, rfl⟩

theorem nestsTo_nestedArrays (n : Nat) : (nestedArrays n).NestsTo n := by
  induction n with
  | zero => exact .here rfl
  | succ n ih => exact .child List.mem_cons_self ih

theorem not_reaches_nestedArrays (n : Nat) : ¬ (nestedArrays n).Reaches (n + 1) := by
  induction n with
  | zero =>
    rw [Json.reaches_succ]
    exact Json.not_reachesFrom_nil 0 0
  | succ n ih =>
    rw [Json.reaches_succ]
    change ¬ Json.ReachesFrom 0 (n + 1) [nestedArrays n]
    rw [Json.reachesFrom_cons (Nat.zero_le _)]
    rintro (h | h)
    · exact ih h
    · exact Json.not_reachesFrom_nil _ _ h.2

theorem not_nestsTo_nestedArrays (n : Nat) : ¬ (nestedArrays n).NestsTo (n + 1) := by
  induction n with
  | zero =>
    rw [Json.nestsTo_succ]
    rintro ⟨c, hc, -⟩
    cases hc
  | succ n ih =>
    rw [Json.nestsTo_succ]
    rintro ⟨c, hc, hnests⟩
    obtain rfl := List.mem_singleton.mp hc
    exact ih hnests

/-- 1023 brackets around nothing are below the boundary of both walks, and 1024 are beyond that of
one of them only. -/
theorem depthBoundary_shared_iff_nestedArrays :
    (ReplayTooDeep jsonOnDemand (nestedArrays 1022) ↔
        MaterializeTooDeep jsonDom (nestedArrays 1022)) ∧
      ¬ (ReplayTooDeep jsonOnDemand (nestedArrays 1023) ↔
        MaterializeTooDeep jsonDom (nestedArrays 1023)) := by
  have hshared (n : Nat) := depthBoundary_shared_iff jsonDom jsonOnDemand (fun _ => 0)
    (nestedArrays n) _ _ (jsonDom_shows_nestedArrays _ n) (jsonOnDemand_shows_nestedArrays n)
  refine ⟨(hshared 1022).mpr (Or.inl (not_nestsTo_nestedArrays 1022)), fun h => ?_⟩
  rcases (hshared 1023).mp h with hnests | hreaches
  · exact hnests (nestsTo_nestedArrays 1023)
  · exact not_reaches_nestedArrays 1023 hreaches

/-- **1024 brackets around nothing**: every read of both walks succeeds, the replay
reports a depth error, and the materializer does not. -/
theorem depthBoundary_differs :
    jsonDom.Shows (fun _ => 0) (nestedArrays 1023) (nestedArrays 1023) ∧
      jsonOnDemand.Shows (nestedArrays 1023) (nestedArrays 1023) ∧
      ReplayTooDeep jsonOnDemand (nestedArrays 1023) ∧
      ¬ MaterializeTooDeep jsonDom (nestedArrays 1023) := by
  have hdom := jsonDom_shows_nestedArrays (fun _ => 0) 1023
  have hod := jsonOnDemand_shows_nestedArrays 1023
  refine ⟨hdom, hod, ?_, ?_⟩
  · rw [replayTooDeep_iff jsonOnDemand hod]
    exact nestsTo_nestedArrays 1023
  · rw [materializeTooDeep_iff jsonDom (fun _ => 0) hdom]
    exact not_reaches_nestedArrays 1023

end PureSimdjson
