import PureSimdjson.Texts

/-!
# Backoff

How long the bootstrap sleeps between two attempts: `download.go`'s backoff with jitter, and
what a server asks for with `Retry-After`.
-/
namespace PureSimdjson.Bootstrap

open Texts

/-- `time.Duration`, in nanoseconds. -/
abbrev Duration := Int64

def millisecond : Duration := 1000000
def second : Duration := 1000000000

/-- `maxRetrySleep` -/
def maxRetrySleep : Duration := 2 * 8 * second

/-- `base` of `jitterBackoff`. -/
def backoffBase : Duration := 500 * millisecond

/-- `cap` of `jitterBackoff`. -/
def backoffCap : Duration := 8 * second

/-- `expBackoff` of `jitterBackoff`: the shift stops at 10, and the backoff at the cap. -/
def expBackoff (attempt : Int64) : Duration :=
  let shift := attempt.toUInt64
  let shift := if shift > 10 then 10 else shift
  let expBackoff := backoffBase <<< shift.toInt64
  if expBackoff > backoffCap then backoffCap else expBackoff

/-- `jitterBackoff`, with the jitter that is drawn. -/
def jitterBackoff (attempt : Int64) (jitter : Duration) : Duration := expBackoff attempt + jitter

/-- The duration `sleepWithJitter` sleeps. -/
def sleepDuration (attempt : Int64) (jitter hint : Duration) : Duration :=
  let d := jitterBackoff attempt jitter
  if hint > 0 then
    let hint := if hint > maxRetrySleep then maxRetrySleep else hint
    if hint > d then hint else d
  else d

/-- `parseRetryAfter`, where `untilTime` is `time.Until` of `http.ParseTime`. -/
def parseRetryAfter (untilTime : Text → Option Duration) (header : Text) : Duration :=
  let raw := trimSpace header
  let date := ((untilTime raw).filter (0 < ·)).getD 0
  if raw = [] then 0
  else
    match atoi raw with
    | some secs => if 0 ≤ secs then Int64.ofInt secs * second else date
    | none => date

/-- The hint that reaches the next sleep. -/
def serverHint (hint : Duration) : Duration := if hint > 0 then hint else 0

/-- A jitter that can be drawn. -/
def IsJitter (jitter : Duration) : Prop := 0 ≤ jitter ∧ jitter < backoffBase

/-- The longest backoff that can be drawn. -/
def maxBackoff : Int := backoffCap.toInt + backoffBase.toInt

/-- A shift of at most 10 has eleven values. -/
theorem shifted_bounds {shift : UInt64} (h : ¬ shift > 10) :
    backoffBase ≤ backoffBase <<< shift.toInt64 := by
  have hle : shift.toNat ≤ 10 := by
    have := UInt64.lt_iff_toNat_lt.not.mp h
    simpa using this
  rw [← UInt64.ofNat_toNat (x := shift)]
  generalize shift.toNat = n at hle
  interval_cases n <;> decide

theorem expBackoff_bounds (attempt : Int64) :
    backoffBase.toInt ≤ (expBackoff attempt).toInt ∧
      (expBackoff attempt).toInt ≤ backoffCap.toInt := by
  have hshift : ¬ (if attempt.toUInt64 > 10 then 10 else attempt.toUInt64) > 10 := by
    split
    · decide
    · assumption
  rw [expBackoff]
  generalize (if attempt.toUInt64 > 10 then 10 else attempt.toUInt64) = shift at hshift
  split
  · exact ⟨by decide, le_refl _⟩
  · next hcap =>
    rw [gt_iff_lt, Int64.lt_iff_toInt_lt, not_lt] at hcap
    exact ⟨Int64.le_iff_toInt_le.mp (shifted_bounds hshift), hcap⟩

/-- **Every backoff is positive and at most the longest.** -/
theorem jitterBackoff_bounds (attempt : Int64) {jitter : Duration} (h : IsJitter jitter) :
    0 < (jitterBackoff attempt jitter).toInt ∧
      (jitterBackoff attempt jitter).toInt < maxBackoff := by
  obtain ⟨hbase, hcap⟩ := expBackoff_bounds attempt
  have hjitter : 0 ≤ jitter.toInt := Int64.le_iff_toInt_le.mp h.1
  have hlt : jitter.toInt < backoffBase.toInt := Int64.lt_iff_toInt_lt.mp h.2
  have hbase' : backoffBase.toInt = 500000000 := rfl
  have hcap' : backoffCap.toInt = 8000000000 := rfl
  have hsum : (jitterBackoff attempt jitter).toInt = (expBackoff attempt).toInt + jitter.toInt := by
    rw [jitterBackoff, Int64.toInt_add]
    exact Int.bmod_eq_of_le (by omega) (by omega)
  rw [hsum, maxBackoff]
  omega

/-- What a hint makes of a backoff. -/
theorem sleepDuration_toInt (attempt : Int64) (jitter hint : Duration) :
    (sleepDuration attempt jitter (serverHint hint)).toInt =
      if 0 < hint.toInt then
        max (min hint.toInt maxRetrySleep.toInt) (jitterBackoff attempt jitter).toInt
      else (jitterBackoff attempt jitter).toInt := by
  have hpos_iff : hint > 0 ↔ 0 < hint.toInt := Int64.lt_iff_toInt_lt
  by_cases hpos : 0 < hint.toInt
  · rw [if_pos hpos, serverHint, if_pos (hpos_iff.mpr hpos), sleepDuration,
      if_pos (hpos_iff.mpr hpos)]
    have hcapped : (if hint > maxRetrySleep then maxRetrySleep else hint).toInt =
        min hint.toInt maxRetrySleep.toInt := by
      split
      · next hlong => exact (min_eq_right (Int64.lt_iff_toInt_lt.mp hlong).le).symm
      · next hshort =>
        exact (min_eq_left (not_lt.mp fun h => hshort (Int64.lt_iff_toInt_lt.mpr h))).symm
    rw [← hcapped]
    dsimp only
    generalize (if hint > maxRetrySleep then maxRetrySleep else hint) = capped
    split
    · next hlong => exact (max_eq_left (Int64.lt_iff_toInt_lt.mp hlong).le).symm
    · next hshort =>
      exact (max_eq_right (not_lt.mp fun h => hshort (Int64.lt_iff_toInt_lt.mpr h))).symm
  · rw [if_neg hpos, serverHint, if_neg fun h => hpos (hpos_iff.mp h), sleepDuration,
      if_neg (by decide)]

/-- Whole seconds become nanoseconds, around the corner of the word. -/
theorem parseRetryAfter_toInt {untilTime : Text → Option Duration} {header : Text} {s : Int}
    (hs : atoi (trimSpace header) = some s) (h : 0 ≤ s) :
    (parseRetryAfter untilTime header).toInt = (s * second.toInt).bmod (2 ^ 64) := by
  have hne : trimSpace header ≠ [] := by
    intro hempty
    rw [hempty] at hs
    cases hs
  obtain ⟨hlow, hhigh⟩ := atoi_bounds hs
  have hword : (Int64.ofInt s).toInt = s := Int64.toInt_ofInt_of_le hlow hhigh
  rw [parseRetryAfter, if_neg hne, hs]
  show (if 0 ≤ s then Int64.ofInt s * second else _).toInt = _
  rw [if_pos h, Int64.toInt_mul, hword]

/-- The wait that a server asks for is honoured up to the cap. -/
def RetryAfterHonoured (s : Int) (d : Duration) : Prop :=
  min (s * second.toInt) maxRetrySleep.toInt ≤ d.toInt ∧
    d.toInt ≤ max maxRetrySleep.toInt maxBackoff

/-- The nanoseconds fit the word, or wrap to a wait beyond the cap. -/
def NanosecondsFit (s : Int) : Prop :=
  s * second.toInt < 2 ^ 63 ∨ maxRetrySleep.toInt ≤ (s * second.toInt).bmod (2 ^ 64)

/-- **`Retry-After` is honoured exactly where its nanoseconds fit.** -/
theorem retryAfter_honoured_iff (untilTime : Text → Option Duration) {header : Text} {s : Int}
    (hs : atoi (trimSpace header) = some s) (h : 0 ≤ s) (attempt : Int64) {jitter : Duration}
    (hjitter : IsJitter jitter) :
    RetryAfterHonoured s
        (sleepDuration attempt jitter (serverHint (parseRetryAfter untilTime header))) ↔
      NanosecondsFit s := by
  obtain ⟨hpos, hlt⟩ := jitterBackoff_bounds attempt hjitter
  rw [RetryAfterHonoured, NanosecondsFit, sleepDuration_toInt, parseRetryAfter_toInt hs h]
  generalize (jitterBackoff attempt jitter).toInt = backoff at hpos hlt
  have hcap : maxRetrySleep.toInt = 16000000000 := rfl
  have hmax : maxBackoff = 8500000000 := rfl
  rw [hmax] at hlt ⊢
  rw [hcap]
  by_cases hfits : s * second.toInt < 2 ^ 63
  · -- nothing wraps
    have hsame : (s * second.toInt).bmod (2 ^ 64) = s * second.toInt := by
      have : 0 ≤ s * second.toInt := mul_nonneg h (by decide)
      exact Int.bmod_eq_of_le (by omega) (by omega)
    rw [hsame]
    generalize s * second.toInt = nanos at hfits
    split <;> omega
  · -- the server asks for more than the cap, so the wait is the wrapped one
    generalize (s * second.toInt).bmod (2 ^ 64) = wrapped
    generalize s * second.toInt = nanos at hfits
    split <;> omega

/-- What a server asks for may come around the corner. -/
theorem retryAfter_counterexample :
    atoi (trimSpace (text "9223372037")) = some 9223372037 ∧
      ¬ RetryAfterHonoured 9223372037 (sleepDuration 1 0
        (serverHint (parseRetryAfter (fun _ => none) (text "9223372037")))) := by
  refine ⟨by decide +kernel, fun h => ?_⟩
  have hlow : min ((9223372037 : Int) * second.toInt) maxRetrySleep.toInt ≤ 1000000000 := h.1
  revert hlow
  decide

theorem retryAfter_honoured_sample :
    RetryAfterHonoured 20 (sleepDuration 1 0
      (serverHint (parseRetryAfter (fun _ => none) (text "20")))) :=
  (retryAfter_honoured_iff (fun _ => none) (s := 20) (by decide +kernel) (by decide) 1
    (by exact ⟨by decide, by decide⟩)).mpr (Or.inl (by decide))

end PureSimdjson.Bootstrap
