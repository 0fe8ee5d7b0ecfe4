import PureSimdjson.Iteration

/-!
# Integers that are doubles

`GetFloat64` reads an integer element as a double if nothing is lost.  The runtime and Go test
that with bits, each in its own code; here the tests are compared with what they stand for.
-/
namespace PureSimdjson

open Effect

/-! ## The tests -/

/-- A natural number below `2 ^ 53` times a power of two, and its sign. -/
def ExactFloat64 (value : Int) : Prop := ∃ m e : Nat, m < 2 ^ 53 ∧ value.natAbs = m * 2 ^ e

/-- `exactFloat64Uint64` -/
def exactFloat64Uint64 (value : UInt64) : Bool :=
  if value = 0 then true
  else
    let significant := value.toNat >>> trailingZeros 64 value.toNat
    significant.size ≤ 53

/-- `exactFloat64Int64` -/
def exactFloat64Int64 (value : Int64) : Bool :=
  let magnitude := value.toUInt64
  let magnitude := if value < 0 then (~~~value).toUInt64 + 1 else magnitude
  exactFloat64Uint64 magnitude

/-- What is left of a number without its trailing zeros is odd. -/
theorem odd_of_trailingZeros {width value : Nat} (hpos : 0 < value) (hlt : value < 2 ^ width) :
    ∃ odd, odd % 2 = 1 ∧ value = odd * 2 ^ trailingZeros width value := by
  induction width generalizing value with
  | zero => omega
  | succ width ih =>
    rw [trailingZeros]
    by_cases hodd : value % 2 = 1
    · rw [if_pos hodd]
      exact ⟨value, hodd, by omega⟩
    · rw [if_neg hodd]
      have hhalf : value / 2 < 2 ^ width := by
        rw [Nat.pow_succ] at hlt
        omega
      obtain ⟨odd, hodd, hvalue⟩ := ih (by omega) hhalf
      refine ⟨odd, hodd, ?_⟩
      calc value = 2 * (value / 2) := by omega
        _ = 2 * (odd * 2 ^ trailingZeros width (value / 2)) := by rw [← hvalue]
        _ = odd * 2 ^ (1 + trailingZeros width (value / 2)) := by ring

/-- An odd number, times a power of two, fits where the odd number does. -/
theorem odd_fits_iff {odd k p : Nat} (hodd : odd % 2 = 1) :
    (∃ m e : Nat, m < 2 ^ p ∧ odd * 2 ^ k = m * 2 ^ e) ↔ odd < 2 ^ p := by
  constructor
  · rintro ⟨m, e, hm, heq⟩
    have hcoprime : Nat.Coprime odd (2 ^ e) :=
      (Nat.coprime_two_right.mpr (Nat.odd_iff.mpr hodd)).pow_right e
    have hdvd : odd ∣ m := by
      refine hcoprime.dvd_of_dvd_mul_right ?_
      rw [← heq]
      exact Nat.dvd_mul_right odd _
    have hpos : 0 < m := by
      refine Nat.pos_of_ne_zero fun hm => ?_
      rw [hm, Nat.zero_mul] at heq
      have := Nat.two_pow_pos k
      rcases Nat.mul_eq_zero.mp heq with h | h <;> omega
    exact (Nat.le_of_dvd hpos hdvd).trans_lt hm
  · intro hlt
    exact ⟨odd, k, hlt, rfl⟩

/-- **The bit test of Go is exact.** -/
theorem exactFloat64Uint64_iff (value : UInt64) :
    exactFloat64Uint64 value = true ↔ ExactFloat64 value.toNat := by
  rw [exactFloat64Uint64, ExactFloat64, Int.natAbs_natCast]
  by_cases hzero : value = 0
  · rw [if_pos hzero, hzero]
    exact ⟨fun _ => ⟨0, 0, by norm_num, rfl⟩, fun _ => rfl⟩
  rw [if_neg hzero, decide_eq_true_iff, Nat.size_le]
  have hpos : 0 < value.toNat := by
    refine Nat.pos_of_ne_zero fun h => hzero ?_
    exact UInt64.toNat_inj.mp h
  obtain ⟨odd, hodd, hvalue⟩ := odd_of_trailingZeros hpos value.toNat_lt
  have hshift : value.toNat >>> trailingZeros 64 value.toNat = odd := by
    rw [Nat.shiftRight_eq_div_pow]
    exact Nat.div_eq_of_eq_mul_left (Nat.two_pow_pos _) hvalue
  rw [hshift, hvalue]
  exact (odd_fits_iff hodd).symm

/-- The runtime asks for the same number of bits. -/
theorem uint64IsExactFloat64_eq (value : UInt64) :
    uint64IsExactFloat64 value = exactFloat64Uint64 value := by
  rw [uint64IsExactFloat64, exactFloat64Uint64]
  by_cases hzero : value = 0
  · rw [if_pos hzero, if_pos hzero]
  rw [if_neg hzero, if_neg hzero]
  have hsize : (value.toNat >>> trailingZeros 64 value.toNat).size ≤ 64 := by
    rw [Nat.size_le, Nat.shiftRight_eq_div_pow]
    exact (Nat.div_le_self _ _).trans_lt value.toNat_lt
  exact decide_eq_decide.mpr (by omega)

/-- The magnitude of a negative number, from its word. -/
theorem natAbs_of_neg {value : Int64} (h : value < 0) :
    value.toInt.natAbs = 2 ^ 64 - value.toBitVec.toNat ∧ 0 < value.toBitVec.toNat := by
  have hlt : value.toBitVec.toInt < 0 := Int64.lt_iff_toInt_lt.mp h
  show value.toBitVec.toInt.natAbs = _ ∧ _
  rw [BitVec.toInt_eq_toNat_cond] at hlt ⊢
  split at hlt
  · omega
  · rw [if_neg (by assumption)]
    omega

theorem natAbs_of_nonneg {value : Int64} (h : ¬ value < 0) :
    value.toUInt64.toNat = value.toInt.natAbs := by
  have hge : ¬ value.toBitVec.toInt < 0 := fun hlt => h (Int64.lt_iff_toInt_lt.mpr hlt)
  show value.toBitVec.toNat = value.toBitVec.toInt.natAbs
  have hbound := value.toBitVec.isLt
  rw [BitVec.toInt_eq_toNat_cond] at hge ⊢
  split at hge
  · rw [if_pos (by assumption)]
    omega
  · omega

/-- The runtime negates, and the least number stays as it is. -/
theorem toNat_neg_toUInt64 {value : Int64} (h : value < 0) :
    (-value).toUInt64.toNat = value.toInt.natAbs := by
  obtain ⟨habs, hpos⟩ := natAbs_of_neg h
  show (-value.toBitVec).toNat = _
  rw [habs, BitVec.toNat_neg, Nat.mod_eq_of_lt (by omega)]

/-- Go flips the bits and adds one. -/
theorem toNat_not_toUInt64 {value : Int64} (h : value < 0) :
    ((~~~value).toUInt64 + 1).toNat = value.toInt.natAbs := by
  obtain ⟨habs, hpos⟩ := natAbs_of_neg h
  have hnot : (~~~value).toUInt64.toNat = 2 ^ 64 - 1 - value.toBitVec.toNat := by
    show (~~~value.toBitVec).toNat = _
    rw [BitVec.toNat_not]
  rw [UInt64.toNat_add, hnot, habs, UInt64.toNat_one, Nat.mod_eq_of_lt (by omega)]
  omega

/-- **The bit tests of signed numbers are exact**, whichever way the sign is dropped. -/
theorem exactFloat64Int64_iff (value : Int64) :
    exactFloat64Int64 value = true ↔ ExactFloat64 value.toInt := by
  rw [exactFloat64Int64, exactFloat64Uint64_iff, ExactFloat64, ExactFloat64, Int.natAbs_natCast]
  by_cases h : value < 0
  · rw [if_pos h, toNat_not_toUInt64 h]
  · rw [if_neg h, natAbs_of_nonneg h]

theorem int64IsExactFloat64_eq (value : Int64) :
    int64IsExactFloat64 value = exactFloat64Int64 value := by
  rw [int64IsExactFloat64, exactFloat64Int64, uint64IsExactFloat64_eq]
  by_cases h : value < 0
  · rw [if_pos h, if_pos h]
    congr 1
    exact UInt64.toNat_inj.mp ((toNat_neg_toUInt64 h).trans (toNat_not_toUInt64 h).symm)
  · rw [if_neg h, if_neg h]

/-! ## Reading an integer element -/

/-- The number an integer element stands for. -/
def Json.integer? : Json → Option Int
  | .int64 n => some n.toInt
  | .uint64 n => some n.toNat
  | _ => none

section
variable {W : Type}

/-- `Element.GetFloat64`, on a document that is open. -/
def getFloat64 (native : Native W) (view : ValueView) : RuntimeM W UInt64 :=
  if view.kindHint = ValueKind.int64.code then do
    let value ← elementGetInt64 native (some view)
    require (exactFloat64Int64 value) .precisionLoss
    pure (float64Bits (value < 0) value.toInt.natAbs)
  else if view.kindHint = ValueKind.uint64.code then do
    let value ← elementGetUint64 native (some view)
    require (exactFloat64Uint64 value) .precisionLoss
    pure (float64Bits false value.toNat)
  else elementGetFloat64 native (some view)

/-- How reading an integer as a double ends. -/
def readsInteger (value : Int) (s' : Runtime W) (m : RuntimeM W UInt64) (s : Runtime W) : Prop :=
  wp m (fun bits t => (ExactFloat64 value ∧ bits = float64Bits (value < 0) value.natAbs) ∧ t = s')
    (fun rc t => (¬ ExactFloat64 value ∧ rc = .precisionLoss) ∧ t = s') s

theorem readsInteger.error_iff {value : Int} {s s' : Runtime W} {m : RuntimeM W UInt64}
    (h : readsInteger value s' m s) :
    (∃ t, m.run s = .error .precisionLoss t) ↔ ¬ ExactFloat64 value := by
  constructor
  · rintro ⟨t, hrun⟩
    exact (wp_error h hrun).1.1
  · intro hinexact
    cases hrun : m.run s with
    | ok bits t => exact absurd (wp_ok h hrun).1.1 hinexact
    | error rc t => exact ⟨t, by rw [(wp_error h hrun).1.2]⟩

/-- Two ways to read an integer end alike. -/
theorem readsInteger.run_eq {value : Int} {s s' : Runtime W} {m m' : RuntimeM W UInt64}
    (h : readsInteger value s' m s) (h' : readsInteger value s' m' s) : m.run s = m'.run s := by
  cases hrun : m.run s with
  | ok bits t =>
    obtain ⟨⟨hexact, rfl⟩, rfl⟩ := wp_ok h hrun
    cases hrun' : m'.run s with
    | ok bits t' =>
      obtain ⟨⟨-, rfl⟩, rfl⟩ := wp_ok h' hrun'
      rfl
    | error rc t' => exact absurd hexact (wp_error h' hrun').1.1
  | error rc t =>
    obtain ⟨⟨hinexact, rfl⟩, rfl⟩ := wp_error h hrun
    cases hrun' : m'.run s with
    | ok bits t' => exact absurd (wp_ok h' hrun').1.1 hinexact
    | error rc t' =>
      obtain ⟨⟨-, rfl⟩, rfl⟩ := wp_error h' hrun'
      rfl

variable {sj : Simdjson W} {base : Native W} {tape : W → Nat → Option Json} {s : Runtime W}
  {view : ValueView} {slot : UInt32} {entry : DocEntry} {root u : Json} {j : Nat}

/-- The state after a call that only reads an element of a document. -/
def Runtime.read (s : Runtime W) (slot : UInt32) (entry : DocEntry) : Runtime W :=
  ⟨s.registry.setDoc (slotIndex slot) (.occupied entry), s.native⟩

/-- A read of the bridge, where it succeeds. -/
theorem wp_readView_exact (hsj : sj.Faithful base.memory tape)
    (hroot : tape s.native entry.nativePtr = some root) (hview : Resolves s view slot entry j)
    {α : Type} {read : ElementRead α} {a : α}
    (hread : readElement sj (sj.document s.native entry.nativePtr) s.native entry.nativePtr j read =
      pure a)
    {Q : α → Runtime W → Prop} {E : ErrorCode → Runtime W → Prop} (h : Q a (s.read slot entry)) :
    wp (readView (bridge sj base) read (some view)) Q E s := by
  rw [readView, wp_withResolvedView_of_resolves hview, wp_onDoc]
  exact wp_of_run_ok (bridge_read_run hsj hroot hread) h

/-- A number that passes its test is converted. -/
theorem wp_exactly {σ : Type} {t : σ} {test : Bool} {bits : UInt64} {value : Int}
    (htest : test = true ↔ ExactFloat64 value)
    (hbits : bits = float64Bits (value < 0) value.natAbs)
    {Q : UInt64 → σ → Prop} {E : ErrorCode → σ → Prop}
    (hok : ExactFloat64 value → Q (float64Bits (value < 0) value.natAbs) t)
    (herror : ¬ ExactFloat64 value → E .precisionLoss t) :
    wp (do require (test = true) .precisionLoss; pure bits) Q E t := by
  rw [wp_bind, wp_require, hbits]
  exact ⟨fun h => hok (htest.mp h), fun h => herror fun hexact => h (htest.mpr hexact)⟩

theorem bits_of_int64 (n : Int64) :
    float64Bits (n < 0) n.toInt.natAbs = float64Bits (n.toInt < 0) n.toInt.natAbs := by
  rw [decide_eq_decide.mpr Int64.lt_iff_toInt_lt]
  rfl

theorem bits_of_uint64 (n : UInt64) :
    float64Bits false n.toNat = float64Bits ((n.toNat : Int) < 0) (n.toNat : Int).natAbs := by
  rw [Int.natAbs_natCast, decide_eq_false (by omega)]

theorem kindCode_int64 (n : Int64) : (Json.int64 n).kindCode = ValueKind.int64.code := rfl

theorem kindCode_uint64 (n : UInt64) : (Json.uint64 n).kindCode = ValueKind.uint64.code := rfl

theorem kindCode_uint64_ne (n : UInt64) : (Json.uint64 n).kindCode ≠ ValueKind.int64.code := by
  rw [kindCode_uint64]
  decide

section
variable (hsj : sj.Faithful base.memory tape) (hroot : tape s.native entry.nativePtr = some root)
  (hview : Resolves s view slot entry j)
include hsj hroot hview

/-- **The runtime reads an integer element by its kind.** -/
theorem readsInteger_elementGetFloat64 (hat : root.At j u) {value : Int}
    (hvalue : u.integer? = some value) :
    readsInteger value (s.read slot entry) (elementGetFloat64 (bridge sj base) (some view)) s := by
  rw [readsInteger, elementGetFloat64, wp_withResolvedView_of_resolves hview, wp_bind]
  refine wp_readKind hsj hroot hat rfl ?_
  have hshows := hsj.shows s.native _ root j u hroot hat
  cases u with
  | int64 n =>
    cases hvalue
    rw [if_pos (kindCode_int64 n), wp_bind, wp_onDoc]
    have hread : readElement sj (sj.document s.native entry.nativePtr) s.native entry.nativePtr j
        .elementGetInt64At = pure n := by
      rw [readElement, hshows.2]
      rfl
    refine wp_of_run_ok (bridge_read_run hsj hroot hread) ?_
    refine wp_exactly ?_ (bits_of_int64 n) (fun h => ⟨⟨h, rfl⟩, rfl⟩) fun h => ⟨⟨h, rfl⟩, rfl⟩
    rw [int64IsExactFloat64_eq]
    exact exactFloat64Int64_iff n
  | uint64 n =>
    cases hvalue
    rw [if_neg (kindCode_uint64_ne n), if_pos (kindCode_uint64 n), wp_bind, wp_onDoc]
    have hread : readElement sj (sj.document s.native entry.nativePtr) s.native entry.nativePtr j
        .elementGetUint64At = pure n := by
      rw [readElement, hshows.2]
      rfl
    refine wp_of_run_ok (bridge_read_run hsj hroot hread) ?_
    refine wp_exactly ?_ (bits_of_uint64 n) (fun h => ⟨⟨h, rfl⟩, rfl⟩) fun h => ⟨⟨h, rfl⟩, rfl⟩
    rw [uint64IsExactFloat64_eq]
    exact exactFloat64Uint64_iff n
  | _ => cases hvalue

/-- **Go reads an integer element by the hint**, where the hint names an integer kind. -/
theorem readsInteger_getFloat64 (hat : root.At j u) {value : Int} (hvalue : u.integer? = some value)
    (hhint : view.kindHint = u.kindCode ∨
      view.kindHint ≠ ValueKind.int64.code ∧ view.kindHint ≠ ValueKind.uint64.code) :
    readsInteger value (s.read slot entry) (getFloat64 (bridge sj base) view) s := by
  obtain hhint | ⟨hint64, huint64⟩ := hhint
  · have hshows := hsj.shows s.native _ root j u hroot hat
    rw [readsInteger, getFloat64, hhint]
    cases u with
    | int64 n =>
      cases hvalue
      rw [if_pos (kindCode_int64 n), wp_bind]
      refine wp_readView_exact hsj hroot hview (a := n) (by rw [readElement, hshows.2]; rfl) ?_
      exact wp_exactly (exactFloat64Int64_iff n) (bits_of_int64 n) (fun h => ⟨⟨h, rfl⟩, rfl⟩)
        fun h => ⟨⟨h, rfl⟩, rfl⟩
    | uint64 n =>
      cases hvalue
      rw [if_neg (kindCode_uint64_ne n), if_pos (kindCode_uint64 n), wp_bind]
      refine wp_readView_exact hsj hroot hview (a := n) (by rw [readElement, hshows.2]; rfl) ?_
      exact wp_exactly (exactFloat64Uint64_iff n) (bits_of_uint64 n) (fun h => ⟨⟨h, rfl⟩, rfl⟩)
        fun h => ⟨⟨h, rfl⟩, rfl⟩
    | _ => cases hvalue
  · rw [getFloat64, if_neg hint64, if_neg huint64]
    exact readsInteger_elementGetFloat64 hsj hroot hview hat hvalue

end

end

/-- **The tests for exact doubles are exact**, in the runtime and in Go, for every integer; and
an integer element whose view has the hint of its kind, or of no integer kind, is read as a
double with the same result either way, refused exactly when the integer is not a double. -/
theorem exact_float64 :
    (∀ value, uint64IsExactFloat64 value = true ↔ ExactFloat64 value.toNat) ∧
    (∀ value, int64IsExactFloat64 value = true ↔ ExactFloat64 value.toInt) ∧
    (∀ value, exactFloat64Uint64 value = true ↔ ExactFloat64 value.toNat) ∧
    (∀ value, exactFloat64Int64 value = true ↔ ExactFloat64 value.toInt) ∧
    ∀ {W : Type} (sj : Simdjson W) (base : Native W) (tape : W → Nat → Option Json),
      sj.Faithful base.memory tape →
      ∀ (s : Runtime W) view slot entry root j u value,
      tape s.native entry.nativePtr = some root → root.At j u → Resolves s view slot entry j →
      u.integer? = some value →
      view.kindHint = u.kindCode ∨
        view.kindHint ≠ ValueKind.int64.code ∧ view.kindHint ≠ ValueKind.uint64.code →
      (getFloat64 (bridge sj base) view).run s =
        (elementGetFloat64 (bridge sj base) (some view)).run s ∧
      ((∃ s', (getFloat64 (bridge sj base) view).run s = .error .precisionLoss s') ↔
        ¬ ExactFloat64 value) := by
  refine ⟨fun value => ?_, fun value => ?_, exactFloat64Uint64_iff, exactFloat64Int64_iff, ?_⟩
  · rw [uint64IsExactFloat64_eq]
    exact exactFloat64Uint64_iff value
  · rw [int64IsExactFloat64_eq]
    exact exactFloat64Int64_iff value
  · intro W sj base tape hsj s view slot entry root j u value hroot hat hview hvalue hhint
    have hgo := readsInteger_getFloat64 hsj hroot hview hat hvalue hhint
    have hruntime := readsInteger_elementGetFloat64 hsj hroot hview hat hvalue
    exact ⟨hgo.run_eq hruntime, hgo.error_iff⟩

/-- The second field of the sample document, as a view. -/
def sampleField : ValueView := ⟨sampleDoc, 9, descViewTag, ValueKind.int64.code, 0⟩

/-- The least signed number is a double, and the first integer that is none is not.  The sample's
second field is an integer that is one, and it is read as such either way. -/
theorem exact_float64_sample :
    ExactFloat64 (-9223372036854775808) ∧ ¬ ExactFloat64 9007199254740993 ∧
      ∃ s, (objectGetField sampleNative (some sampleRoot) [97, 97]).run sampleState =
          .ok sampleField s ∧
        (getFloat64 sampleNative sampleField).run s =
          (elementGetFloat64 sampleNative (some sampleField)).run s ∧
        ¬ ∃ s', (getFloat64 sampleNative sampleField).run s = .error .precisionLoss s' := by
  refine ⟨(exact_float64.2.1 Int64.minValue).mp (by decide), fun h => ?_, ?_⟩
  · have htest := (exact_float64.1 9007199254740993).mpr h
    revert htest
    decide
  · have hfield : ∃ s, (objectGetField sampleNative (some sampleRoot) [97, 97]).run sampleState =
        .ok sampleField s ∧ s.native = sampleState.native ∧
        Resolves s sampleField 1 { sampleEntry with descendantIndices := {9} } 9 :=
      ⟨_, rfl, rfl, by decide, rfl, ⟨by decide, rfl, rfl⟩, rfl⟩
    obtain ⟨s, hrun, hnative, hresolves⟩ := hfield
    obtain ⟨-, -, -, -, hread⟩ := exact_float64
    obtain ⟨hsame, hrefused⟩ := hread sampleSimdjson sampleBase SampleWorld.tape sample_faithful s
      sampleField 1 _ sampleDocument 9 (.int64 7) 7 (by rw [hnative]; rfl) sampleDocument_at_field
      hresolves rfl (Or.inl rfl)
    refine ⟨s, hrun, hsame, fun hlost => ?_⟩
    exact hrefused.mp hlost ((exact_float64.2.1 7).mp (by decide))

end PureSimdjson
