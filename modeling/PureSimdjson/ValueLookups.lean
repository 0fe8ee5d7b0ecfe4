import PureSimdjson.PlainDocuments

/-!
# Lookups by value

What simdjson finds from an element depends on the value of the element alone, wherever it
stands on the tape: the same lookup from the value finds the value of what is found.  A traversal
only ever goes by the lookups, so from related elements it finds related elements, or fails
alike.
-/
namespace PureSimdjson

/-! ## Results alike -/

/-- Both fail with the same error, or succeed with related results. -/
inductive Agree {ε α β : Type} (R : α → β → Prop) : Except ε α → Except ε β → Prop where
  | ok {a : α} {b : β} (h : R a b) : Agree R (.ok a) (.ok b)
  | error (e : ε) : Agree R (.error e) (.error e)

theorem Agree.outcomes {ε α β : Type} {R : α → β → Prop} {x : Except ε α} {y : Except ε β}
    (h : Agree R x y) :
    (∃ a b, x = .ok a ∧ y = .ok b ∧ R a b) ∨ ∃ e, x = .error e ∧ y = .error e := by
  cases h with
  | ok hab => exact Or.inl ⟨_, _, rfl, rfl, hab⟩
  | error e => exact Or.inr ⟨e, rfl, rfl⟩

theorem Agree.bind {ε α β α' β' : Type} {R : α → β → Prop} {R' : α' → β' → Prop}
    {x : Except ε α} {y : Except ε β} {f : α → Except ε α'} {g : β → Except ε β'}
    (h : Agree R x y) (hfg : ∀ a b, R a b → Agree R' (f a) (g b)) :
    Agree R' (x >>= f) (y >>= g) := by
  cases h with
  | ok hab => exact hfg _ _ hab
  | error e => exact .error e

theorem Agree.map {ε α β α' β' : Type} {R : α → β → Prop} {R' : α' → β' → Prop}
    {x : Except ε α} {y : Except ε β} {f : α → α'} {g : β → β'}
    (h : Agree R x y) (hfg : ∀ a b, R a b → R' (f a) (g b)) : Agree R' (x.map f) (y.map g) := by
  cases h with
  | ok hab => exact .ok (hfg _ _ hab)
  | error e => exact .error e

/-! ## A traversal goes by the lookups -/

section
variable {E E' : Type} {R : E → E' → Prop}

theorem agree_expand {step : E → Except SimdjsonError (List E)}
    {step' : E' → Except SimdjsonError (List E')}
    (hstep : ∀ e e', R e e' → Agree (List.Forall₂ R) (step e) (step' e')) {current : List E}
    {current' : List E'} (h : List.Forall₂ R current current') :
    Agree (List.Forall₂ R) (expand step current) (expand step' current') := by
  induction h with
  | nil => exact .ok .nil
  | @cons e e' current current' he _ ih =>
    rw [expand, expand]
    obtain ⟨found, found', hfound, hfound', hrel⟩ | ⟨error, herror, herror'⟩ :=
      (hstep e e' he).outcomes
    · rw [hfound, hfound']
      exact ih.map fun _ _ hmore => List.rel_append hrel hmore
    · rw [herror, herror']
      dsimp only
      split
      · exact ih
      · exact .error _

variable {dom : Dom E} {dom' : Dom E'}

theorem agree_applyLiteral
    (hpath : ∀ e e' path, R e e' → Agree R (dom.atPath e path) (dom'.atPath e' path))
    (literalPath : Bytes) {current : List E} {current' : List E'}
    (h : List.Forall₂ R current current') :
    Agree (List.Forall₂ R) (applyLiteral dom literalPath current)
      (applyLiteral dom' literalPath current') := by
  rw [applyLiteral, applyLiteral]
  split
  · exact .ok h
  · refine agree_expand (fun e e' he => ?_) h
    exact (hpath e e' literalPath he).map fun _ _ hresolved => .cons hresolved .nil

theorem agree_traverseSegments
    (hpath : ∀ e e' path, R e e' → Agree R (dom.atPath e path) (dom'.atPath e' path))
    (hwildcard : ∀ e e' path, R e e' →
      Agree (List.Forall₂ R) (dom.atPathWithWildcard e path) (dom'.atPathWithWildcard e' path))
    (segments : List WildcardPathSegment) {literalPath : Bytes} {current : List E}
    {current' : List E'} (h : List.Forall₂ R current current') :
    Agree (List.Forall₂ R) (traverseSegments dom segments literalPath current)
      (traverseSegments dom' segments literalPath current') := by
  induction segments generalizing literalPath current current' with
  | nil => exact agree_applyLiteral hpath literalPath h
  | cons segment segments ih =>
    rw [traverseSegments, traverseSegments]
    split
    · exact ih h
    · refine (agree_applyLiteral hpath literalPath h).bind fun current current' h => ?_
      refine (agree_expand (fun e e' he => hwildcard e e' segment.path he) h).bind ?_
      exact fun next next' h => ih h

end

/-! ## simdjson on values -/

/-- What the element at an index answers is what its value does. -/
structure Dom.Mirrors (dom : Dom Nat) (values : Dom Json) (root : Json) (j : Nat) (u : Json) :
    Prop where
  getBool : dom.getBool j = u.asBool
  getInt64 : dom.getInt64 j = u.asInt64
  getUint64 : dom.getUint64 j = u.asUint64
  getDouble : u.integer? = none → dom.getDouble j = u.asDouble
  getString : ∀ error, u.asString = .error error → dom.getString j = .error error
  getBigint : ∀ error, u.asBigint = .error error → dom.getBigint j = .error error
  isNull : dom.isNull j = u.isNull
  arraySize : ∀ items, u = .array items → dom.arraySize j = .ok (min items.length maxScopeCount)
  objectSize : ∀ fields, u = .object fields →
    dom.objectSize j = .ok (min fields.length maxScopeCount)
  atIndex : ∀ items index, u = .array items →
    Agree root.At (dom.atIndex j index) (itemAt items index)
  atKey : ∀ fields key, u = .object fields → Agree root.At (dom.atKey j key) (fieldAt fields key)
  atPointer : ∀ pointer, Agree root.At (dom.atPointer j pointer) (values.atPointer u pointer)
  atPath : ∀ path, Agree root.At (dom.atPath j path) (values.atPath u path)
  atPathWithWildcard : ∀ path, Agree (List.Forall₂ root.At) (dom.atPathWithWildcard j path)
    (values.atPathWithWildcard u path)

/-- **simdjson's answers depend on the value of an element only.**  A getter refuses a value of
another kind, a container's count saturates, an index finds the item and a key the first field
that has it. -/
def Simdjson.ByValue {W : Type} (sj : Simdjson W) (tape : W → Nat → Option Json)
    (values : Dom Json) : Prop :=
  ∀ w doc root j u, tape w doc = some root → root.At j u →
    (sj.document w doc).Mirrors values root j u

/-- The views of what a wildcard finds are no more than an allocation can hold. -/
def Simdjson.Allocatable {W : Type} (sj : Simdjson W) (tape : W → Nat → Option Json) : Prop :=
  ∀ w doc root j segments found, tape w doc = some root →
    traverseWildcardPath (sj.document w doc) j segments = .ok found →
    viewSize * found.length < 2 ^ 63

/-- A traversal finds the values that a traversal of the value finds. -/
theorem agree_traverseWildcardPath {W : Type} {sj : Simdjson W} {tape : W → Nat → Option Json}
    {values : Dom Json} (h : sj.ByValue tape values) {w : W} {doc : Nat} {root u : Json} {j : Nat}
    (hroot : tape w doc = some root) (hat : root.At j u) (segments : List WildcardPathSegment) :
    Agree (List.Forall₂ root.At) (traverseWildcardPath (sj.document w doc) j segments)
      (traverseWildcardPath values u segments) :=
  agree_traverseSegments (fun _ _ path hat => (h w doc root _ _ hroot hat).atPath path)
    (fun _ _ path hat => (h w doc root _ _ hroot hat).atPathWithWildcard path) segments
    (.cons hat .nil)

end PureSimdjson
