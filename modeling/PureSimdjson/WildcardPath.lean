import PureSimdjson.Simdjson

/-!
# Wildcard paths

A path is cut into segments first, and refused as a whole if any of it is malformed;
then the element is walked segment by segment.  Literal segments are collected and
resolved at once, a wildcard expands to the children, and a branch that a segment does
not fit is dropped.
-/
namespace PureSimdjson

/-! ## Cutting a path into segments -/

/-- `WildcardPathSegment`. -/
structure WildcardPathSegment where
  wildcard : Bool
  path : Bytes
  deriving DecidableEq

/-- The bytes of an ASCII literal. -/
def asciiBytes (s : List Char) : Bytes := s.map Char.toUInt8

/-- `decimal_index`. -/
def isDecimalIndex (segment : Bytes) : Bool :=
  segment.all fun c => '0'.toUInt8 ≤ c && c ≤ '9'.toUInt8

/-- More than one digit, and the first is zero. -/
def hasLeadingZero (segment : Bytes) : Bool :=
  segment.length > 1 && segment.head? = some '0'.toUInt8

/-- The single and the double quote. -/
def singleQuote : UInt8 := 39

def doubleQuote : UInt8 := 34

/-- `quoted_key`. -/
def isQuotedKey (segment : Bytes) : Bool :=
  segment.length ≥ 2 &&
    (segment.head? = some singleQuote || segment.head? = some doubleQuote) &&
    segment.getLast? = segment.head?

/-- The byte ends a dot segment. -/
def endsName (c : UInt8) : Bool := c = '.'.toUInt8 || c = '['.toUInt8

/-- The `while` loop of `classify_wildcard_path`, on what is left of the path. -/
def classifySegments (rest : Bytes) (segments : List WildcardPathSegment)
    (sawWildcard : Bool) : Option (List WildcardPathSegment × Bool) :=
  match rest with
  | [] => some (segments, sawWildcard)
  | c :: tail =>
    if c = '.'.toUInt8 then
      let segment := tail.takeWhile fun c => !endsName c
      let after := tail.dropWhile fun c => !endsName c
      if segment = [] then none
      else if segment = asciiBytes ['*'] then
        classifySegments after (segments ++ [⟨true, asciiBytes ['.', '*']⟩]) true
      else if '*'.toUInt8 ∈ segment then none
      else if isDecimalIndex segment && hasLeadingZero segment then none
      else classifySegments after (segments ++ [⟨false, '.'.toUInt8 :: segment⟩]) sawWildcard
    else if c ≠ '['.toUInt8 then none
    else
      let segment := tail.takeWhile fun c => c ≠ ']'.toUInt8
      match h : tail.dropWhile fun c => c ≠ ']'.toUInt8 with
      | [] => none
      | _ :: after =>
        if segment = [] then none
        else if segment = asciiBytes ['*'] then
          classifySegments after (segments ++ [⟨true, asciiBytes ['[', '*', ']']⟩]) true
        else if '*'.toUInt8 ∈ segment then none
        else if (!isQuotedKey segment && !isDecimalIndex segment) ||
            (isDecimalIndex segment && hasLeadingZero segment) then none
        else
          classifySegments after
            (segments ++ [⟨false, '['.toUInt8 :: segment ++ [']'.toUInt8]⟩]) sawWildcard
  termination_by rest.length
  decreasing_by
    all_goals
      first
      | exact Nat.lt_succ_of_le (List.dropWhile_sublist _).length_le
      | have := (List.dropWhile_sublist (l := tail) fun c => c ≠ ']'.toUInt8).length_le
        rw [h, List.length_cons] at this
        rw [List.length_cons]
        omega

/-- `classify_wildcard_path`. -/
def classifyWildcardPath (validateUtf8 : Bytes → Bool) (path : Bytes) :
    Option (List WildcardPathSegment) :=
  if path = [] || !validateUtf8 path then none
  else
    let rest := if path.head? = some '$'.toUInt8 then path.tail else path
    match rest with
    | [] => none
    | c :: _ =>
      if !endsName c then none
      else
        match classifySegments rest [] false with
        | some (segments, true) => some segments
        | _ => none

/-! ## Walking the segments -/

section
variable {E : Type} (dom : Dom E)

/-- The errors that only drop a branch. -/
def dropsBranch : SimdjsonError → Bool
  | .invalidJsonPointer | .noSuchField | .incorrectType | .indexOutOfBounds => true
  | _ => false

/-- Replace every element by what `step` finds from it. -/
def expand (step : E → Except SimdjsonError (List E)) : List E → Except ErrorCode (List E)
  | [] => .ok []
  | e :: current =>
    match step e with
    | .ok found => (found ++ ·) <$> expand step current
    | .error error => if dropsBranch error then expand step current else .error (mapError error)

/-- `apply_literal`. -/
def applyLiteral (literalPath : Bytes) (current : List E) : Except ErrorCode (List E) :=
  if literalPath = [] then .ok current
  else expand (fun e => (dom.atPath e literalPath).map fun resolved => [resolved]) current

/-- The loop of `traverse_wildcard_path` over the segments. -/
def traverseSegments : List WildcardPathSegment → (literalPath : Bytes) → (current : List E) →
    Except ErrorCode (List E)
  | [], literalPath, current => applyLiteral dom literalPath current
  | segment :: segments, literalPath, current =>
    if !segment.wildcard then traverseSegments segments (literalPath ++ segment.path) current
    else do
      let current ← applyLiteral dom literalPath current
      let next ← expand (dom.atPathWithWildcard · segment.path) current
      traverseSegments segments [] next

/-- `traverse_wildcard_path`. -/
def traverseWildcardPath (root : E) (segments : List WildcardPathSegment) :
    Except ErrorCode (List E) :=
  traverseSegments dom segments [] [root]

/-! ## What is found is what the lookups find -/

theorem expand_forall {P : E → Prop} {step : E → Except SimdjsonError (List E)}
    (hstep : ∀ e found, P e → step e = .ok found → ∀ e' ∈ found, P e') :
    ∀ {current found : List E}, (∀ e ∈ current, P e) → expand step current = .ok found →
      ∀ e ∈ found, P e := by
  intro current
  induction current with
  | nil =>
    intro found _ h
    cases h
    nofun
  | cons e current ih =>
    intro found hall h
    have hrest : ∀ e ∈ current, P e := fun e' he' => hall e' (List.mem_cons_of_mem _ he')
    rw [expand] at h
    split at h
    · rename_i hfound
      cases hmore : expand step current with
      | error rc =>
        rw [hmore] at h
        cases h
      | ok more =>
        rw [hmore] at h
        cases h
        intro e' he'
        rcases List.mem_append.mp he' with he' | he'
        · exact hstep e _ (hall e List.mem_cons_self) hfound e' he'
        · exact ih hrest hmore e' he'
    · split at h
      · exact ih hrest h
      · cases h

variable {dom} in
/-- **Everything a wildcard path reaches has what the path lookups preserve.** -/
theorem traverseWildcardPath_forall {P : E → Prop}
    (hpath : ∀ e path e', P e → dom.atPath e path = .ok e' → P e')
    (hwildcard : ∀ e path found, P e → dom.atPathWithWildcard e path = .ok found →
      ∀ e' ∈ found, P e') {root : E} {segments : List WildcardPathSegment} {found : List E}
    (hroot : P root) (h : traverseWildcardPath dom root segments = .ok found) :
    ∀ e ∈ found, P e := by
  have hliteral {literalPath : Bytes} {current found : List E} (hall : ∀ e ∈ current, P e)
      (h : applyLiteral dom literalPath current = .ok found) : ∀ e ∈ found, P e := by
    rw [applyLiteral] at h
    split at h
    · cases h
      exact hall
    · refine expand_forall ?_ hall h
      intro e found he hfound e' he'
      cases hres : dom.atPath e literalPath with
      | error error =>
        rw [hres] at hfound
        cases hfound
      | ok resolved =>
        rw [hres] at hfound
        cases hfound
        rw [List.mem_singleton.mp he']
        exact hpath e literalPath resolved he hres
  have hsegments : ∀ (segments : List WildcardPathSegment) {literalPath : Bytes}
      {current found : List E}, (∀ e ∈ current, P e) →
      traverseSegments dom segments literalPath current = .ok found → ∀ e ∈ found, P e := by
    intro segments
    induction segments with
    | nil => exact hliteral
    | cons segment segments ih =>
      intro literalPath current found hall h
      rw [traverseSegments] at h
      split at h
      · exact ih hall h
      · cases hcurrent : applyLiteral dom literalPath current with
        | error rc =>
          rw [hcurrent] at h
          cases h
        | ok current' =>
          rw [hcurrent] at h
          cases hnext : expand (dom.atPathWithWildcard · segment.path) current' with
          | error rc =>
            simp only [Except.bind, bind, hnext] at h
            cases h
          | ok next =>
            simp only [Except.bind, bind, hnext] at h
            exact ih (expand_forall (fun e found he => hwildcard e _ found he)
              (hliteral hall hcurrent) hnext) h
  refine hsegments segments ?_ h
  intro e he
  rw [List.mem_singleton.mp he]
  exact hroot

end

end PureSimdjson
