import PureSimdjson.Abi
import PureSimdjson.Words

/-!
# Where `minify` may write

simdjson writes the minified text while it reads the source, so the two buffers have to be
the same or apart.  Go compares how far apart they start, the native side compares ends,
after it has asked whether there are ends.  Addresses and lengths are machine words here.
-/
namespace PureSimdjson.Minify

open Words

variable {w : Nat}

/-- What `minify` is meant for: room for all of the source, and a destination that is apart
from it or starts with it. -/
def Accepted (src dst : WordSpan w) : Prop :=
  src.len ≤ dst.len ∧ (src.len = 0 ∨ src.start = dst.start ∨ Disjoint src.bytes dst.bytes)

/-! ## The two checks -/

/-- `byteSlicesPartiallyOverlap` -/
def byteSlicesPartiallyOverlap (dst src : WordSpan w) : Bool :=
  if dst.len = 0 ∨ src.len = 0 then false
  else if dst.start = src.start then false
  else if dst.start < src.start then src.start - dst.start < dst.len
  else dst.start - src.start < src.len

/-- What `MinifyInto` lets through. -/
def preflight (dst src : WordSpan w) : Bool :=
  ¬ dst.len < src.len ∧ ¬ byteSlicesPartiallyOverlap dst src

/-- What `psimdjson_minify` makes of the two ranges. -/
def rangeChecks (src dst : WordSpan w) : Except ErrorCode Unit :=
  if src.len ≠ 0 ∧ src.start ≠ dst.start then
    if src.len > maxWord w - src.start ∨ dst.len > maxWord w - dst.start then
      .error .invalidArgument
    else if src.start < dst.start + dst.len ∧ dst.start < src.start + src.len then
      .error .invalidArgument
    else .ok ()
  else .ok ()

/-- What `psimdjson_minify` makes of its two buffers. -/
def bufferChecks (src dst : WordSpan w) : Except ErrorCode Unit :=
  if dst.len < src.len then .error .bufferTooSmall
  else if src.len ≠ 0 ∧ (src.start = 0 ∨ dst.start = 0) then .error .invalidArgument
  else rangeChecks src dst

/-- The argument that the bindings pass for a slice: null for an empty one. -/
def passed (a : WordSpan w) : WordSpan w := ⟨if a.len ≠ 0 then a.start else 0, a.len⟩

/-- The checks of `psimdjson_minify` that are about the layout. -/
def layoutChecks (src dst : WordSpan w) : Except ErrorCode Unit :=
  if dst.len < src.len then .error .bufferTooSmall else rangeChecks src dst

/-- The same, if every operation is watched: there is no answer when one wraps. -/
def layoutChecksWatched (src dst : WordSpan w) : Option (Except ErrorCode Unit) := do
  if dst.len < src.len then
    return .error .bufferTooSmall
  if src.len ≠ 0 ∧ src.start ≠ dst.start then
    let srcRoom ← subChecked (maxWord w) src.start
    if src.len > srcRoom then
      return .error .invalidArgument
    let dstRoom ← subChecked (maxWord w) dst.start
    if dst.len > dstRoom then
      return .error .invalidArgument
    let srcEnd ← addChecked src.start src.len
    let dstEnd ← addChecked dst.start dst.len
    if src.start < dstEnd ∧ dst.start < srcEnd then
      return .error .invalidArgument
  return .ok ()

/-- What the Go check tests, with the test of the distance as it is for any spans. -/
theorem byteSlicesPartiallyOverlap_iff {dst src : WordSpan w} :
    byteSlicesPartiallyOverlap dst src = true ↔
      dst.len ≠ 0 ∧ src.len ≠ 0 ∧ dst.start ≠ src.start ∧ dst.Reaches src := by
  rw [byteSlicesPartiallyOverlap]
  split
  · rename_i hempty
    exact iff_of_false Bool.false_ne_true (by tauto)
  · rename_i hnonempty
    split
    · rename_i hsame
      exact iff_of_false Bool.false_ne_true (by tauto)
    · rename_i hapart
      rw [WordSpan.Reaches]
      split
      · rw [decide_eq_true_eq]
        tauto
      · rw [decide_eq_true_eq]
        tauto

theorem dst_len_ne_zero {src dst : WordSpan w} (hroom : src.len ≤ dst.len) (hsrc : src.len ≠ 0) :
    dst.len ≠ 0 := by
  intro hzero
  rw [hzero, BitVec.le_def] at hroom
  have := toNat_ne_zero hsrc
  simp at hroom
  omega

/-- **Go lets through what `minify` is meant for**, wherever the buffers are. -/
theorem preflight_iff {src dst : WordSpan w} : preflight dst src = true ↔ Accepted src dst := by
  rw [preflight, decide_eq_true_eq, Accepted, BitVec.not_lt]
  refine and_congr_right fun hroom => ?_
  rw [byteSlicesPartiallyOverlap_iff]
  by_cases hsrc : src.len = 0
  · simp [hsrc]
  have hdst := dst_len_ne_zero hroom hsrc
  rw [WordSpan.reaches_iff hdst hsrc, disjoint_comm]
  have := eq_comm (a := src.start) (b := dst.start)
  tauto

/-- Two ranges with different starts, of which the source is not empty. -/
theorem rangeChecks_of_apart {src dst : WordSpan w} (hsrc : src.len ≠ 0)
    (hstart : src.start ≠ dst.start) :
    rangeChecks src dst = .ok () ↔ src.Fits ∧ dst.Fits ∧ ¬ src.EndsCross dst := by
  rw [rangeChecks, if_pos ⟨hsrc, hstart⟩, WordSpan.fits_iff, WordSpan.fits_iff,
    WordSpan.EndsCross, WordSpan.last, WordSpan.last]
  split
  · rename_i hwraps
    exact iff_of_false (fun h => by cases h) (by tauto)
  · rename_i hfits
    split
    · rename_i hcross
      exact iff_of_false (fun h => by cases h) (by tauto)
    · rename_i hapart
      exact iff_of_true rfl (by tauto)

theorem rangeChecks_of_not_apart {src dst : WordSpan w}
    (h : ¬ (src.len ≠ 0 ∧ src.start ≠ dst.start)) : rangeChecks src dst = .ok () := if_neg h

theorem layoutChecks_eq_ok {src dst : WordSpan w} :
    layoutChecks src dst = .ok () ↔ src.len ≤ dst.len ∧ rangeChecks src dst = .ok () := by
  rw [layoutChecks]
  split
  · rename_i hshort
    exact iff_of_false (fun h => by cases h) fun h => absurd hshort (BitVec.not_lt.mpr h.1)
  · rename_i hroom
    exact (and_iff_right (BitVec.not_lt.mp hroom)).symm

/-- **The native checks let through what `minify` is meant for, where both buffers end at
an address.** -/
theorem layoutChecks_iff {src dst : WordSpan w} (hsrc : src.Fits) (hdst : dst.Fits) :
    layoutChecks src dst = .ok () ↔ Accepted src dst := by
  rw [layoutChecks_eq_ok, Accepted]
  refine and_congr_right fun hroom => ?_
  by_cases hempty : src.len = 0
  · exact iff_of_true (rangeChecks_of_not_apart fun h => h.1 hempty) (Or.inl hempty)
  by_cases hsame : src.start = dst.start
  · exact iff_of_true (rangeChecks_of_not_apart fun h => h.2 hsame) (Or.inr (Or.inl hsame))
  rw [rangeChecks_of_apart hempty hsame,
    WordSpan.endsCross_iff hsrc hdst hempty (dst_len_ne_zero hroom hempty)]
  tauto

/-- **A range that would wrap is rejected.** -/
theorem layoutChecks_of_not_fits {src dst : WordSpan w} (hstart : src.start ≠ dst.start)
    (hsrc : src.len ≠ 0) (h : ¬ src.Fits ∨ ¬ dst.Fits) : layoutChecks src dst ≠ .ok () := by
  rw [Ne, layoutChecks_eq_ok, rangeChecks_of_apart hsrc hstart]
  tauto

/-- **No operation of the native checks wraps**, on any words. -/
theorem layoutChecksWatched_eq (src dst : WordSpan w) :
    layoutChecksWatched src dst = some (layoutChecks src dst) := by
  rw [layoutChecksWatched, layoutChecks, rangeChecks]
  split
  · rfl
  split
  · rw [subChecked_of_le (le_maxWord _), subChecked_of_le (le_maxWord _)]
    by_cases hsrc : src.Fits
    · have hsrcRoom := WordSpan.fits_iff.mp hsrc
      by_cases hdst : dst.Fits
      · have hdstRoom := WordSpan.fits_iff.mp hdst
        rw [if_neg (by tauto), addChecked_of_lt hsrc.lt, addChecked_of_lt hdst.lt]
        simp only [Option.bind_eq_bind, Option.bind_some, if_neg hsrcRoom, if_neg hdstRoom]
        split
        · rfl
        · rfl
      · have hdstRoom := not_not.mp (mt WordSpan.fits_iff.mpr hdst)
        rw [if_pos (Or.inr hdstRoom)]
        simp only [Option.bind_eq_bind, Option.bind_some, if_neg hsrcRoom, if_pos hdstRoom]
        rfl
    · have hsrcRoom := not_not.mp (mt WordSpan.fits_iff.mpr hsrc)
      rw [if_pos (Or.inl hsrcRoom)]
      simp only [Option.bind_eq_bind, Option.bind_some, if_pos hsrcRoom]
      rfl
  · rfl

/-! ## What is reported -/

theorem rangeChecks_error {src dst : WordSpan w} {rc : ErrorCode}
    (h : rangeChecks src dst = .error rc) : rc = .invalidArgument := by
  rw [rangeChecks] at h
  repeat' split at h
  all_goals first | exact (Except.error.inj h).symm | cases h

theorem bufferChecks_error {src dst : WordSpan w} {rc : ErrorCode}
    (h : bufferChecks src dst = .error rc) : rc = .bufferTooSmall ∨ rc = .invalidArgument := by
  rw [bufferChecks] at h
  split at h
  · exact Or.inl (Except.error.inj h).symm
  · split at h
    · exact Or.inr (Except.error.inj h).symm
    · exact Or.inr (rangeChecks_error h)

theorem layoutChecks_of_bufferChecks {src dst : WordSpan w} (h : bufferChecks src dst = .ok ()) :
    layoutChecks src dst = .ok () := by
  rw [bufferChecks] at h
  split at h
  · cases h
  · rename_i hroom
    split at h
    · cases h
    · exact layoutChecks_eq_ok.mpr ⟨BitVec.not_lt.mp hroom, h⟩

end PureSimdjson.Minify
