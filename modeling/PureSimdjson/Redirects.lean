import PureSimdjson.Texts

/-!
# Redirects

The bootstrap client looks at each redirect before it follows it, with all the requests it has
made.  Mirrors are HTTPS, or HTTP on the loopback interface.
-/
namespace PureSimdjson.Bootstrap

open Texts

/-- What is looked at in a `url.URL`. -/
structure Url where
  scheme : Text
  hostname : Text

/-- `rejectHTTPSDowngrade` rejects a hop as a downgrade, or as one too many. -/
inductive RedirectError where
  | httpsDowngrade
  | stopped
  deriving DecidableEq

/-- What a rune folds to, among those that fold to ASCII. -/
def foldRune : Rune → Rune
  | .char c => if c.toNat = 0x17F then .char 's' else if c.toNat = 0x212A then .char 'k'
      else .char c.toLower
  | r => r

/-- `strings.EqualFold`, where the second string is ASCII. -/
def equalFold (t ascii : Text) : Bool := t.map foldRune = ascii.map foldRune

def Url.isHTTPS (u : Url) : Bool := equalFold u.scheme (text "https")

/-- `isLoopbackHost`, where `loopbackIP` parses an address and looks whether it is one. -/
def isLoopbackHost (loopbackIP : Text → Bool) (host : Text) : Bool :=
  equalFold host (text "localhost") || loopbackIP host

/-- `validateBaseURL`, where `parse` is `url.Parse`. -/
def validateBaseURL (parse : Text → Option Url) (loopbackIP : Text → Bool) (rawURL : Text) : Bool :=
  if rawURL = [] then true
  else
    match parse rawURL with
    | none => false
    | some u =>
        if u.isHTTPS then true
        else equalFold u.scheme (text "http") && isLoopbackHost loopbackIP u.hostname

/-- `rejectHTTPSDowngrade`: `via` are the requests that were made. -/
def rejectHTTPSDowngrade (req : Url) (via : List Url) : Option RedirectError :=
  match via with
  | [] => none
  | first :: _ =>
      if first.isHTTPS && !req.isHTTPS then some .httpsDowngrade
      else if via.length ≥ 10 then some .stopped
      else none

/-- The requests of `http.Client.Do`, where `asked` is where the servers redirect to. -/
def followRedirects (via : List Url) : (asked : List Url) → List Url × Option RedirectError
  | [] => (via, none)
  | req :: asked =>
      match rejectHTTPSDowngrade req via with
      | some err => (via, some err)
      | none => followRedirects (via ++ [req]) asked

/-- No hop goes from HTTPS to anything else. -/
def NoDowngrade (requests : List Url) : Prop :=
  requests.IsChain fun from_ to_ => from_.isHTTPS = true → to_.isHTTPS = true

/-- A chain that began with HTTPS stays there. -/
theorem followRedirects_https {via asked : List Url} (hne : via ≠ [])
    (h : ∀ u ∈ via, u.isHTTPS = true) :
    ∀ u ∈ (followRedirects via asked).1, u.isHTTPS = true := by
  induction asked generalizing via with
  | nil => exact h
  | cons req asked ih =>
    obtain ⟨first, rest, rfl⟩ := List.exists_cons_of_ne_nil hne
    have hfirst := h first List.mem_cons_self
    rw [followRedirects, rejectHTTPSDowngrade]
    by_cases hreq : req.isHTTPS = true
    · rw [hreq, hfirst]
      split
      · exact h
      · refine ih (by simp) fun u hu => ?_
        rcases List.mem_append.mp hu with hu | hu
        · exact h u hu
        · obtain rfl := List.mem_singleton.mp hu
          exact hreq
    · rw [Bool.eq_false_of_not_eq_true hreq, hfirst]
      exact h

/-- A chain that did not begin with HTTPS goes where it is sent, ten requests far. -/
theorem followRedirects_other {first : Url} (hfirst : first.isHTTPS = false)
    {rest asked : List Url} (hlen : (first :: rest).length ≤ 10) :
    (followRedirects (first :: rest) asked).1 = (first :: rest ++ asked).take 10 := by
  induction asked generalizing rest with
  | nil =>
    rw [followRedirects, List.append_nil]
    exact (List.take_of_length_le hlen).symm
  | cons req asked ih =>
    rw [followRedirects, rejectHTTPSDowngrade, hfirst]
    by_cases hfull : (first :: rest).length ≥ 10
    · rw [Bool.false_and, if_neg Bool.false_ne_true, if_pos hfull]
      exact (List.take_left' (le_antisymm hlen hfull)).symm
    · rw [Bool.false_and, if_neg Bool.false_ne_true, if_neg hfull]
      show (followRedirects (first :: (rest ++ [req])) asked).1 = _
      rw [ih (by simp at hfull ⊢; omega)]
      simp

/-- No chain has more than ten requests. -/
theorem followRedirects_length {via asked : List Url} (hne : via ≠ []) (hlen : via.length ≤ 10) :
    (followRedirects via asked).1.length ≤ 10 := by
  induction asked generalizing via with
  | nil => exact hlen
  | cons req asked ih =>
    obtain ⟨first, rest, rfl⟩ := List.exists_cons_of_ne_nil hne
    rw [followRedirects, rejectHTTPSDowngrade]
    split
    · exact hlen
    · next hnone =>
      split at hnone
      · cases hnone
      split at hnone
      · cases hnone
      · next hfull =>
        refine ih (by simp) ?_
        rw [List.length_append, List.length_singleton]
        omega

/-- A list all of whose members are HTTPS has no downgrade. -/
theorem noDowngrade_of_https {requests : List Url} (h : ∀ u ∈ requests, u.isHTTPS = true) :
    NoDowngrade requests := by
  refine List.isChain_iff_forall_rel_of_append_cons_cons.mpr fun from_ to_ before after heq _ => ?_
  refine h to_ ?_
  rw [heq]
  simp

/-- **Redirects are safe exactly where the first request is HTTPS, or no server asks for a
downgrade among the first ten.** -/
theorem redirects_safe_iff (start : Url) (asked : List Url) :
    (NoDowngrade (followRedirects [start] asked).1 ∧
      (followRedirects [start] asked).1.length ≤ 10) ↔
    (start.isHTTPS = true ∨ NoDowngrade ((start :: asked).take 10)) := by
  have hlength : (followRedirects [start] asked).1.length ≤ 10 :=
    followRedirects_length (by simp) (by simp)
  by_cases hstart : start.isHTTPS = true
  · refine ⟨fun _ => Or.inl hstart, fun _ => ⟨noDowngrade_of_https ?_, hlength⟩⟩
    refine followRedirects_https (by simp) fun u hu => ?_
    obtain rfl := List.mem_singleton.mp hu
    exact hstart
  · have hother : (followRedirects [start] asked).1 = ([start] ++ asked).take 10 :=
      followRedirects_other (Bool.eq_false_of_not_eq_true hstart) (by simp)
    rw [hother]
    constructor
    · rintro ⟨hsafe, -⟩
      exact Or.inr hsafe
    · rintro (h | hsafe)
      · exact absurd h hstart
      · exact ⟨hsafe, hother ▸ hlength⟩

/-! ## A sample -/

def sampleLoopback : Url := ⟨text "http", text "localhost"⟩
def sampleSecure : Url := ⟨text "https", text "releases.example"⟩
def samplePlain : Url := ⟨text "http", text "releases.example"⟩

/-- A mirror on the loopback interface may be left over HTTPS, and then HTTPS for HTTP. -/
theorem redirects_counterexample :
    validateBaseURL (fun _ => some sampleLoopback) (fun _ => false)
        (text "http://localhost") = true ∧
      ¬ (NoDowngrade (followRedirects [sampleLoopback] [sampleSecure, samplePlain]).1 ∧
        (followRedirects [sampleLoopback] [sampleSecure, samplePlain]).1.length ≤ 10) := by
  refine ⟨by decide, fun h => ?_⟩
  have hsafe : NoDowngrade [sampleLoopback, sampleSecure, samplePlain] := h.1
  unfold NoDowngrade at hsafe
  revert hsafe
  decide

end PureSimdjson.Bootstrap
