import PureSimdjson.Outcomes

/-!
# The download ladder

What `downloadWithRetry` declares of its schedule and of its errors, and how it keeps to it.
-/
namespace PureSimdjson.Bootstrap

open Texts Retry

/-! ## The clock -/

section
variable {ρ δ : Type} {E : Conditions ρ} {c : ContextError}

theorem Conditions.contextErr_mono {now later : Nat} (h : E.contextErr now = some c)
    (hle : now ≤ later) : E.contextErr later = some c := by
  rw [Conditions.contextErr] at h ⊢
  cases hends : E.contextEnds with
  | none =>
    rw [hends] at h
    cases h
  | some p =>
    rw [hends] at h
    dsimp only at h ⊢
    split at h
    · next hended => rw [if_pos (le_trans hended hle), h]
    · cases h

theorem Conditions.sleep_le (u : Source) (attempt : Nat) (hint : Duration) (s : Clocked δ) :
    s.now ≤ (E.sleepWithJitter u attempt hint s).2.now := by
  rw [Conditions.sleepWithJitter]
  cases E.contextEnds with
  | none => exact Nat.le_add_right _ _
  | some p =>
    dsimp only
    split
    · exact Nat.le_max_left _ _
    · exact Nat.le_add_right _ _

/-- A pause is interrupted by the context. -/
theorem Conditions.sleep_interrupted {u : Source} {attempt : Nat} {hint : Duration}
    {s : Clocked δ} (h : (E.sleepWithJitter u attempt hint s).1 = some c) :
    E.contextErr (E.sleepWithJitter u attempt hint s).2.now = some c := by
  have hends : ∃ ends, E.contextEnds = some (ends, c) ∧
      (E.sleepWithJitter u attempt hint s).2.now = max s.now ends := by
    rw [Conditions.sleepWithJitter] at h ⊢
    cases hends : E.contextEnds with
    | none =>
      rw [hends] at h
      cases h
    | some p =>
      rw [hends] at h
      dsimp only at h ⊢
      split at h
      · next hfirst =>
        rw [if_pos hfirst]
        obtain rfl := Option.some.inj h
        exact ⟨p.1, rfl, rfl⟩
      · cases h
  obtain ⟨ends, hends, hnow⟩ := hends
  rw [hnow, Conditions.contextErr, hends]
  exact if_pos (Nat.le_max_right _ _)

end

theorem artifactLadder_timed (sha256 : Text → Text) (E : Conditions ArtifactReply) :
    Timed (artifactLadder sha256 E) Clocked.now where
  check := Conditions.contextErr_mono
  pause := Conditions.sleep_le
  interrupted := Conditions.sleep_interrupted
  attempt _ _ _ := Nat.le_add_right _ _

theorem sumsLadder_timed (E : Conditions SumsReply) (key : Text) :
    Timed (sumsLadder E key) Clocked.now where
  check := Conditions.contextErr_mono
  pause := Conditions.sleep_le
  interrupted := Conditions.sleep_interrupted
  attempt _ _ _ := Nat.le_add_right _ _

/-! ## The sources -/

/-- A source comes before another one. -/
def Source.Before (u v : Source) : Prop := u.index < v.index

theorem sources_before (primaryURL fallbackURL : Text) :
    (sources primaryURL fallbackURL).Pairwise Source.Before := by
  rw [sources]
  split
  · exact List.pairwise_singleton _ _
  · exact .cons (fun v hv => by cases List.mem_singleton.mp hv; exact Nat.zero_lt_one)
      (List.pairwise_singleton _ _)

theorem Source.not_before (u : Source) : ¬ u.Before u := lt_irrefl _

/-! ## Verdicts -/

/-- What the download ladder makes of an outcome. -/
def Outcome.verdict : Outcome → Verdict Duration
  | .downgrade => .stop
  | .transient hint => .again hint
  | _ => .giveUp

theorem artifactLadder_verdict (sha256 : Text → Text) (E : Conditions ArtifactReply) {o : Outcome}
    {err : Err} (h : Means o err) (hentry : o ≠ .noEntry) :
    (artifactLadder sha256 E).verdict err = o.verdict := by
  have hfatal : isLadderFatalError err = decide (o = .downgrade) := by
    rw [isLadderFatalError, h.mismatch, h.noChecksum, decide_eq_false hentry, h.downgrade]
    rfl
  show (if isLadderFatalError err = true then _ else if isPermanentBootstrapError err = true
    then _ else _) = _
  rw [hfatal, h.permanent]
  cases o with
  | transient hint =>
    rw [h.hint hint rfl]
    rfl
  | downgrade => rfl
  | _ => rfl

/-- No artifact lacks an entry. -/
theorem ArtifactReply.outcome_ne_noEntry (reply : ArtifactReply) : reply.outcome ≠ .noEntry := by
  rw [ArtifactReply.outcome]
  split
  · next o h =>
    unfold answered at h
    split at h
    · cases h
      exact fun h => by cases h
    · split at h
      · cases h
        exact fun h => by cases h
      · cases h
        exact fun h => by cases h
      · split at h
        · cases h
        · split at h
          · cases h
            exact fun h => by cases h
          · cases h
            exact fun h => by cases h
  · split
    · exact fun h => by cases h
    · split
      · exact fun h => by cases h
      · split
        · exact fun h => by cases h
        · split
          · exact fun h => by cases h
          · exact fun h => by cases h
          · split <;> exact fun h => by cases h

/-- What an attempt of the download ladder met. -/
def met {α : Type} (E : Conditions ArtifactReply) (a : Attempt Source (Clocked Disk) Err α) :
    Outcome :=
  (E.reply a.source.index a.number).outcome

/-- The URL is given up. -/
def Outcome.URLFatal (o : Outcome) : Prop := o ≠ .success ∧ ¬ o.Transient

/-- What `downloadWithRetry` declares to be final. -/
def Outcome.LadderFatal (o : Outcome) : Prop :=
  o = .downgrade ∨ o = .oversized ∨ o = .unrequestable

section
variable {sha256 : Text → Text} {E : Conditions ArtifactReply}
  {a : Attempt Source (Clocked Disk) Err (Nat × Text)}

theorem again_iff (h : Answers (met E a) a.result) :
    Again (artifactLadder sha256 E) a ↔ (met E a).Transient := by
  have hentry : met E a ≠ .noEntry := ArtifactReply.outcome_ne_noEntry _
  rw [Again]
  generalize met E a = o at h hentry
  generalize a.result = r at h
  cases h with
  | success a => exact iff_of_false (fun ⟨_, _, h, _⟩ => by cases h) id
  | @failed o err hne hmeans =>
    have hverdict := artifactLadder_verdict sha256 E hmeans hentry
    constructor
    · rintro ⟨e, hint, heq, hagain⟩
      cases heq
      rw [hverdict] at hagain
      cases o with
      | transient _ => trivial
      | _ => cases hagain
    · intro ho
      cases o with
      | transient hint => exact ⟨err, hint, rfl, hverdict⟩
      | _ => exact ho.elim

theorem givesUp_iff (h : Answers (met E a) a.result) :
    GivesUp (artifactLadder sha256 E) a ↔ (met E a).URLFatal ∧ met E a ≠ .downgrade := by
  have hentry : met E a ≠ .noEntry := ArtifactReply.outcome_ne_noEntry _
  rw [GivesUp]
  generalize met E a = o at h hentry
  generalize a.result = r at h
  cases h with
  | success a => exact iff_of_false (fun ⟨_, h, _⟩ => by cases h) (fun h => h.1.1 rfl)
  | @failed o err hne hmeans =>
    have hverdict := artifactLadder_verdict sha256 E hmeans hentry
    constructor
    · rintro ⟨e, heq, hgive⟩
      cases heq
      rw [hverdict] at hgive
      refine ⟨⟨hne, fun ho => ?_⟩, fun ho => ?_⟩
      · cases o <;> first | exact ho.elim | cases hgive
      · rw [ho] at hgive
        cases hgive
    · rintro ⟨⟨-, ho⟩, hdowngrade⟩
      refine ⟨err, rfl, hverdict.trans ?_⟩
      cases o with
      | transient hint => exact absurd trivial ho
      | downgrade => exact absurd rfl hdowngrade
      | success => exact absurd rfl hne
      | _ => rfl

/-- Only a downgrade stops the ladder. -/
theorem stop_iff {err : Err} (h : Answers (met E a) a.result) (hresult : a.result = .error err) :
    (artifactLadder sha256 E).verdict err = .stop ↔ met E a = .downgrade := by
  have hentry : met E a ≠ .noEntry := ArtifactReply.outcome_ne_noEntry _
  rw [hresult] at h
  generalize met E a = o at h hentry ⊢
  cases h with
  | failed hne hmeans =>
    rw [artifactLadder_verdict sha256 E hmeans hentry]
    constructor
    · intro hstop
      cases o <;> first | rfl | cases hstop
    · rintro rfl
      rfl

end

/-! ## What `downloadWithRetry` goes through -/

section
variable (sha256 : Text → Text) (E : Conditions ArtifactReply) (primaryURL fallbackURL : Text)
  (s : Clocked Disk)

theorem downloadRun_climbs : Climbs (artifactLadder sha256 E) (sources primaryURL fallbackURL) 0 0
    none s (downloadRun sha256 E primaryURL fallbackURL s).events
    (downloadRun sha256 E primaryURL fallbackURL s).exit
    (downloadRun sha256 E primaryURL fallbackURL s).state :=
  climbs_climb _ _ _

/-- The attempts of `downloadWithRetry`. -/
def tries : List (Attempt Source (Clocked Disk) Err (Nat × Text)) :=
  attempts (downloadRun sha256 E primaryURL fallbackURL s).events

variable {sha256 E primaryURL fallbackURL s}

theorem tries_answers : ∀ a ∈ tries sha256 E primaryURL fallbackURL s,
    Answers (met E a) a.result := by
  intro a ha
  obtain ⟨-, -, -, hmade⟩ := (downloadRun_climbs sha256 E primaryURL fallbackURL s).attempted a ha
  have hresult : a.result = (downloadOnce sha256 (E.reply a.source.index a.number) a.source.url
      a.before.disk).1 := (congrArg Prod.fst hmade).symm
  rw [hresult]
  exact downloadOnce_answers _ _ _ _

/-- The attempts of `downloadWithRetry`, in order. -/
theorem tries_pairwise : (tries sha256 E primaryURL fallbackURL s).Pairwise
    (Precedes (artifactLadder sha256 E) Source.Before) :=
  (downloadRun_climbs _ _ _ _ _).pairwise (sources_before _ _) Source.not_before

/-- Every attempt but the last one failed, and did not stop the ladder. -/
theorem not_last {before after : List (Attempt Source (Clocked Disk) Err (Nat × Text))}
    {a : Attempt Source (Clocked Disk) Err (Nat × Text)}
    (h : tries sha256 E primaryURL fallbackURL s = before ++ a :: after) (hne : after ≠ []) :
    met E a ≠ .success ∧ met E a ≠ .downgrade := by
  have hanswers := tries_answers a (h ▸ List.mem_append_right before List.mem_cons_self)
  obtain ⟨b, after, rfl⟩ := List.exists_cons_of_ne_nil hne
  have hpairwise : (tries sha256 E primaryURL fallbackURL s).Pairwise
      (Precedes (artifactLadder sha256 E) Source.Before) := tries_pairwise
  rw [h] at hpairwise
  have hprecedes := List.rel_of_pairwise_cons (List.pairwise_append.mp hpairwise).2.1
    (List.mem_cons_self (a := b) (l := after))
  have hfailed : Again (artifactLadder sha256 E) a ∨ GivesUp (artifactLadder sha256 E) a := by
    obtain ⟨-, -, hagain⟩ | ⟨-, hfailed⟩ := hprecedes
    · exact Or.inl hagain
    · exact hfailed
  rw [again_iff hanswers, givesUp_iff hanswers] at hfailed
  rcases hfailed with htransient | ⟨⟨hsuccess, -⟩, hdowngrade⟩
  · refine ⟨fun ho => ?_, fun ho => ?_⟩
    · rw [ho] at htransient
      exact htransient
    · rw [ho] at htransient
      exact htransient
  · exact ⟨hsuccess, hdowngrade⟩

end

/-- **What `downloadWithRetry` declares.**  Each URL is tried three times at most, and none again
after an error that is fatal for it; the primary URL comes before the fallback.  A success is the
last attempt, and so is an outcome that is fatal for the ladder, whose error is returned and
permanent.  That all sources failed is only said where each was given up or tried three times. -/
structure LadderContract (E : Conditions ArtifactReply) (urls : List Source)
    (as : List (Attempt Source (Clocked Disk) Err (Nat × Text)))
    (result : Except Err (Nat × Text)) :
    Prop where
  atMost : ∀ u, (as.filter (·.source = u)).length ≤ 3
  inOrder : as.Pairwise fun a b => a.source.index ≤ b.source.index
  urlFatal : as.Pairwise fun a b => (met E a).URLFatal → b.source ≠ a.source
  firstSuccess : ∀ before a after, as = before ++ a :: after → met E a = .success →
    after = [] ∧ ∃ tmp, a.result = .ok tmp ∧ result = .ok tmp
  ladderFatal : ∀ before a after, as = before ++ a :: after → (met E a).LadderFatal →
    after = [] ∧ ∃ err err', a.result = .error err ∧ result = .error err' ∧
      isPermanentBootstrapError err' = true ∧ err'.Wraps err
  allFailed : ∀ err, result = .error err → err.is .allSourcesFailed = true → ∀ u ∈ urls,
    (∃ a ∈ as, a.source = u ∧ (met E a).URLFatal) ∨
      ∀ k < 3, ∃ a ∈ as, a.source = u ∧ a.number = k

theorem wraps_attemptError (u : Source) (attempt : Nat) (err : Err) :
    (markPermanentBootstrapError (attemptError u attempt err)).Wraps err := by
  rw [markPermanentBootstrapError]
  split
  · exact .wrap _ (.refl err)
  · exact .permanent (.wrap _ (.refl err))

section
variable {sha256 : Text → Text} {E : Conditions ArtifactReply} {primaryURL fallbackURL : Text}
  {s : Clocked Disk} {before : List (Attempt Source (Clocked Disk) Err (Nat × Text))}
  {a : Attempt Source (Clocked Disk) Err (Nat × Text)}

/-- How the ladder ends after its last attempt. -/
inductive EndsWith (E : Conditions ArtifactReply)
    (a : Attempt Source (Clocked Disk) Err (Nat × Text)) :
    Exit Source Err (Nat × Text) ContextError → Prop where
  | success {tmp : Nat × Text} (hmet : met E a = .success) (h : a.result = .ok tmp) :
      EndsWith E a (.success tmp)
  | stopped {err : Err} (hmet : met E a = .downgrade) (h : a.result = .error err) :
      EndsWith E a (.stopped a.source a.number err)
  | interrupted {c : ContextError} (hsuccess : met E a ≠ .success)
      (hdowngrade : met E a ≠ .downgrade) : EndsWith E a (.interrupted c)
  | exhausted {last : Option (Source × Nat × Err)} (hsuccess : met E a ≠ .success)
      (hdowngrade : met E a ≠ .downgrade) : EndsWith E a (.exhausted last)

theorem downloadRun_endsWith (h : tries sha256 E primaryURL fallbackURL s = before ++ [a]) :
    EndsWith E a (downloadRun sha256 E primaryURL fallbackURL s).exit := by
  have hmem : a ∈ tries sha256 E primaryURL fallbackURL s :=
    h ▸ List.mem_append_right before List.mem_cons_self
  have hanswers := tries_answers a hmem
  have hclimbs := downloadRun_climbs sha256 E primaryURL fallbackURL s
  have hfailed (hagain : Again (artifactLadder sha256 E) a ∨ GivesUp (artifactLadder sha256 E) a) :
      met E a ≠ .success ∧ met E a ≠ .downgrade := by
    rw [again_iff hanswers, givesUp_iff hanswers] at hagain
    rcases hagain with htransient | ⟨⟨hsuccess, -⟩, hdowngrade⟩
    · refine ⟨fun ho => ?_, fun ho => ?_⟩ <;> exact (ho ▸ htransient : Outcome.Transient _)
    · exact ⟨hsuccess, hdowngrade⟩
  change attempts (downloadRun sha256 E primaryURL fallbackURL s).events = _ at h
  generalize (downloadRun sha256 E primaryURL fallbackURL s).exit = x at hclimbs
  cases x with
  | success tmp =>
    obtain ⟨init, b, heq, hresult, -⟩ := hclimbs.success_spec
    obtain ⟨-, hlast⟩ := List.append_inj' (heq.symm.trans h) rfl
    obtain rfl := List.singleton_inj.mp hlast
    refine .success ?_ hresult
    rw [hresult] at hanswers
    generalize met E b = o at hanswers ⊢
    cases hanswers
    rfl
  | stopped u n err =>
    obtain ⟨init, b, heq, rfl, rfl, hresult, hstop⟩ := hclimbs.stopped_spec
    obtain ⟨-, hlast⟩ := List.append_inj' (heq.symm.trans h) rfl
    obtain rfl := List.singleton_inj.mp hlast
    exact .stopped ((stop_iff hanswers hresult).mp hstop) hresult
  | interrupted c =>
    obtain ⟨hsuccess, hdowngrade⟩ := hfailed
      (hclimbs.failed (fun _ h => by cases h) (fun _ _ _ h => by cases h) a hmem)
    exact .interrupted hsuccess hdowngrade
  | exhausted last =>
    obtain ⟨hsuccess, hdowngrade⟩ := hfailed
      (hclimbs.failed (fun _ h => by cases h) (fun _ _ _ h => by cases h) a hmem)
    exact .exhausted hsuccess hdowngrade

end

/-- **The download ladder keeps what it declares exactly where no attempt meets an oversized body
or a request that cannot be made.** -/
theorem download_ladder_iff (sha256 : Text → Text) (E : Conditions ArtifactReply)
    (primaryURL fallbackURL : Text) (s : Clocked Disk) :
    LadderContract E (sources primaryURL fallbackURL) (tries sha256 E primaryURL fallbackURL s)
        (downloadWithRetry sha256 E primaryURL fallbackURL s).1 ↔
      ∀ a ∈ tries sha256 E primaryURL fallbackURL s,
        met E a ≠ .oversized ∧ met E a ≠ .unrequestable := by
  constructor
  · intro hcontract a ha
    -- such an attempt is not the end of the ladder, or not one with a permanent error
    have hnot (hfatal : (met E a).LadderFatal) (hdowngrade : met E a ≠ .downgrade)
        (hsuccess : met E a ≠ .success) : False := by
      obtain ⟨before, after, heq⟩ := List.append_of_mem ha
      obtain ⟨rfl, err, err', -, hresult, hperm, -⟩ := hcontract.ladderFatal _ _ _ heq hfatal
      have hends := downloadRun_endsWith heq
      change downloadResult _ = _ at hresult
      generalize (downloadRun sha256 E primaryURL fallbackURL s).exit = x at hends hresult
      cases hends with
      | success hmet _ => exact hsuccess hmet
      | stopped hmet _ => exact hdowngrade hmet
      | interrupted _ _ =>
        cases hresult
        cases hperm
      | @exhausted last _ _ =>
        cases last with
        | none =>
          cases hresult
          cases hperm
        | some p =>
          cases hresult
          cases hperm
    refine ⟨fun ho => hnot (Or.inr (Or.inl ho)) ?_ ?_,
      fun ho => hnot (Or.inr (Or.inr ho)) ?_ ?_⟩ <;>
      (rw [ho]; exact fun h => by cases h)
  · intro hgood
    have hclimbs := downloadRun_climbs sha256 E primaryURL fallbackURL s
    have hpairwise : (tries sha256 E primaryURL fallbackURL s).Pairwise
        (Precedes (artifactLadder sha256 E) Source.Before) := tries_pairwise
    have hlast {before after : List (Attempt Source (Clocked Disk) Err (Nat × Text))}
        {a : Attempt Source (Clocked Disk) Err (Nat × Text)}
        (heq : tries sha256 E primaryURL fallbackURL s = before ++ a :: after)
        (hmet : met E a = .success ∨ met E a = .downgrade) : after = [] := by
      by_contra hne
      obtain ⟨hsuccess, hdowngrade⟩ := not_last heq hne
      exact hmet.elim hsuccess hdowngrade
    refine ⟨hclimbs.attempts_le (sources_before _ _) Source.not_before, ?_, ?_, ?_, ?_, ?_⟩
    · refine hpairwise.imp ?_
      rintro a b (⟨hsource, -⟩ | ⟨hbefore, -⟩)
      · rw [hsource]
      · exact Nat.le_of_lt hbefore
    · refine List.Pairwise.imp_of_mem ?_ hpairwise
      intro a b ha _ hprecedes hfatal hsource
      obtain ⟨-, -, hagain⟩ | ⟨hbefore, -⟩ := hprecedes
      · exact hfatal.2 ((again_iff (tries_answers a ha)).mp hagain)
      · exact Source.not_before _ (hsource ▸ hbefore)
    · intro before a after heq hmet
      obtain rfl := hlast heq (Or.inl hmet)
      refine ⟨rfl, ?_⟩
      have hends := downloadRun_endsWith heq
      show ∃ tmp, _ ∧ downloadResult _ = _
      generalize (downloadRun sha256 E primaryURL fallbackURL s).exit = x at hends ⊢
      cases hends with
      | success _ hresult => exact ⟨_, hresult, rfl⟩
      | stopped hmet' _ => cases hmet.symm.trans hmet'
      | interrupted hsuccess _ | exhausted hsuccess _ => exact absurd hmet hsuccess
    · intro before a after heq hfatal
      have hmet : met E a = .downgrade := by
        obtain ⟨hoversized, hrequest⟩ := hgood a (heq ▸ List.mem_append_right before
          List.mem_cons_self)
        exact hfatal.resolve_right fun h => h.elim hoversized hrequest
      obtain rfl := hlast heq (Or.inr hmet)
      refine ⟨rfl, ?_⟩
      have hends := downloadRun_endsWith heq
      show ∃ err err', _ ∧ downloadResult _ = _ ∧ _
      generalize (downloadRun sha256 E primaryURL fallbackURL s).exit = x at hends ⊢
      cases hends with
      | success hmet' _ => cases hmet.symm.trans hmet'
      | stopped _ hresult =>
        exact ⟨_, _, hresult, rfl, isPermanent_mark _, wraps_attemptError _ _ _⟩
      | interrupted _ hdowngrade | exhausted _ hdowngrade => exact absurd hmet hdowngrade
    · intro err hresult hall u hu
      have hgiven : GivenUp (artifactLadder sha256 E)
          (tries sha256 E primaryURL fallbackURL s) 0 u := by
        change downloadResult _ = _ at hresult
        rw [tries]
        generalize (downloadRun sha256 E primaryURL fallbackURL s).exit = x at hclimbs hresult
        cases x with
        | success tmp => cases hresult
        | interrupted c =>
          cases hresult
          cases hall
        | stopped v n e =>
          -- the error of an attempt does not say that all sources failed
          obtain ⟨init, b, heq, -, -, hb, -⟩ := hclimbs.stopped_spec
          have hanswers := tries_answers (s := s) b (heq ▸ List.mem_append_right init
            List.mem_cons_self)
          rw [hb] at hanswers
          cases hresult
          rw [is_mark] at hall
          generalize met E b = o at hanswers
          cases hanswers with
          | failed _ hmeans => cases hmeans.allFailed.symm.trans hall
        | exhausted last =>
          obtain ⟨hhead, htail⟩ := hclimbs.exhausted_spec
          cases hurls : sources primaryURL fallbackURL with
          | nil =>
            rw [hurls] at hu
            cases hu
          | cons v us =>
            rw [hurls] at hu hhead htail
            rcases List.mem_cons.mp hu with rfl | hu
            · exact hhead _ rfl
            · exact htail u hu
      rcases hgiven with ⟨a, ha, hsource, hgives⟩ | hmade
      · exact Or.inl ⟨a, ha, hsource, ((givesUp_iff (tries_answers a ha)).mp hgives).1⟩
      · exact Or.inr fun k hk => hmade k (Nat.zero_le k) hk

/-! ## Cancellation -/

/-- **Cancellation keeps its identity.**  Nothing is tried once the context has ended.  A pause
that it interrupts, and an attempt that fails with it ended and is not fatal for the ladder, are
the last thing that happens, and what is returned is the context's error. -/
structure KeepsCancellation (E : Conditions ArtifactReply)
    (events : List (Event Source (Clocked Disk) Err (Nat × Text) Duration ContextError))
    (result : Except Err (Nat × Text)) : Prop where
  live : ∀ a ∈ attempts events, E.contextErr a.before.now = none
  paused : ∀ p c, .pause p ∈ events → p.interrupted = some c →
    ∃ err, result = .error err ∧ err.is (.context c) = true
  attempted : ∀ before a after err c, attempts events = before ++ a :: after →
    a.result = .error err → ¬ (met E a).LadderFatal → E.contextErr a.after.now = some c →
      after = [] ∧ ∃ err', result = .error err' ∧ err'.is (.context c) = true

/-- The last attempt there can be: the third at the last URL, or one that gives it up. -/
def IsLastTry (E : Conditions ArtifactReply) (urls : List Source)
    (a : Attempt Source (Clocked Disk) Err (Nat × Text)) : Prop :=
  urls.getLast? = some a.source ∧ (a.number = 2 ∨ (met E a).URLFatal)

/-- **Cancellation keeps its identity exactly where no attempt fails with the context ended that
is the last there can be.** -/
theorem cancellation_iff (sha256 : Text → Text) (E : Conditions ArtifactReply)
    (primaryURL fallbackURL : Text) (s : Clocked Disk) :
    KeepsCancellation E (downloadRun sha256 E primaryURL fallbackURL s).events
        (downloadWithRetry sha256 E primaryURL fallbackURL s).1 ↔
      ∀ a ∈ tries sha256 E primaryURL fallbackURL s, ∀ err c, a.result = .error err →
        ¬ (met E a).LadderFatal → E.contextErr a.after.now = some c →
          ¬ IsLastTry E (sources primaryURL fallbackURL) a := by
  have hclimbs := downloadRun_climbs sha256 E primaryURL fallbackURL s
  -- what the ladder does after such an attempt
  have hends (a : Attempt Source (Clocked Disk) Err (Nat × Text))
      (ha : a ∈ tries sha256 E primaryURL fallbackURL s) (err : Err) (c : ContextError)
      (hresult : a.result = .error err) (hfatal : ¬ (met E a).LadderFatal)
      (hcheck : E.contextErr a.after.now = some c) :
      ∃ init, tries sha256 E primaryURL fallbackURL s = init ++ [a] ∧
        (IsLastTry E (sources primaryURL fallbackURL) a →
          (downloadRun sha256 E primaryURL fallbackURL s).exit =
            .exhausted (some (a.source, a.number, err))) ∧
        (¬ IsLastTry E (sources primaryURL fallbackURL) a →
          (downloadRun sha256 E primaryURL fallbackURL s).exit = .interrupted c) := by
    have hanswers := tries_answers a ha
    have hdowngrade : met E a ≠ .downgrade := fun h => hfatal (Or.inl h)
    have hstop : (artifactLadder sha256 E).verdict err ≠ .stop := fun h =>
      hdowngrade ((stop_iff hanswers hresult).mp h)
    have hiff : LastTry (artifactLadder sha256 E) (sources primaryURL fallbackURL) a ↔
        IsLastTry E (sources primaryURL fallbackURL) a := by
      have hnumber : a.number + 1 = (artifactLadder sha256 E).limit ↔ a.number = 2 := by
        show a.number + 1 = 3 ↔ _
        omega
      rw [LastTry, IsLastTry, hnumber, givesUp_iff hanswers, and_iff_left hdowngrade]
    obtain ⟨init, heq, hlast, hnot⟩ := hclimbs.called_off_during (artifactLadder_timed sha256 E)
      (Nat.succ_pos 2) (sources_before _ _) Source.not_before a ha err hresult hstop hcheck
    rw [hiff] at hlast hnot
    exact ⟨init, heq, hlast, hnot⟩
  constructor
  · intro hkeeps a ha err c hresult hfatal hcheck hlast
    obtain ⟨init, heq, hexit, -⟩ := hends a ha err c hresult hfatal hcheck
    obtain ⟨-, err', hreturned, his⟩ := hkeeps.attempted _ _ _ _ _ heq hresult hfatal hcheck
    change downloadResult _ = _ at hreturned
    rw [hexit hlast] at hreturned
    cases hreturned
    cases his
  · intro hgood
    refine ⟨fun a ha => (hclimbs.attempted a ha).2.2.1, fun p c hp hc => ?_, ?_⟩
    · refine ⟨.sentinel (.context c), ?_, decide_eq_true rfl⟩
      show downloadResult _ = _
      rw [hclimbs.interrupted_spec p c hp hc]
      rfl
    · intro before a after err c heq hresult hfatal hcheck
      change tries sha256 E primaryURL fallbackURL s = _ at heq
      have ha : a ∈ tries sha256 E primaryURL fallbackURL s :=
        heq ▸ List.mem_append_right before List.mem_cons_self
      obtain ⟨init, hinit, -, hexit⟩ := hends a ha err c hresult hfatal hcheck
      have hexit := hexit (hgood a ha err c hresult hfatal hcheck)
      refine ⟨?_, .sentinel (.context c), ?_, decide_eq_true rfl⟩
      · exact eq_nil_of_last Source.not_before (heq ▸ tries_pairwise) (heq.symm.trans hinit)
      · show downloadResult _ = _
        rw [hexit]
        rfl

/-! ## Samples -/

/-- A response with nothing in it. -/
def sampleResponse : Response := ⟨200, [], fun _ => none, [], 0, [], ⟨[], none⟩⟩

/-- An attempt that succeeds after a second. -/
def sampleReply : ArtifactReply :=
  ⟨1000000000, none, .ok sampleResponse, none, none, none, none, none⟩

/-- The primary URL advertises more than may be downloaded. -/
def sampleOversized : Conditions ArtifactReply where
  contextEnds := none
  reply index _ :=
    if index = 0 then
      { sampleReply with exchange := .ok { sampleResponse with contentLength := 2 ^ 40 } }
    else sampleReply
  jitter _ _ := 0
  timerFirst _ _ := false

def sampleState : Clocked Disk := ⟨0, ⟨[], 0, none, fun _ h => absurd h List.not_mem_nil⟩⟩

/-- After an oversized body at the primary URL the fallback is tried. -/
theorem download_ladder_counterexample :
    ¬ LadderContract sampleOversized (sources (text "https://a") (text "https://b"))
      (tries id sampleOversized (text "https://a") (text "https://b") sampleState)
      (downloadWithRetry id sampleOversized (text "https://a") (text "https://b")
        sampleState).1 := by
  intro h
  obtain ⟨hnil, -⟩ := h.ladderFatal [] _ [_] rfl (Or.inr (Or.inl rfl))
  cases hnil

/-- Every connection is lost, and the context ends during the third attempt. -/
def sampleCancelled : Conditions ArtifactReply where
  contextEnds := some (5500000000, .canceled)
  reply _ _ := { sampleReply with exchange := .error (.stream (.other (text "EOF"))) }
  jitter _ _ := 0
  timerFirst _ _ := false

/-- Who cancels during the last attempt learns that all sources failed. -/
theorem cancellation_counterexample :
    ¬ KeepsCancellation sampleCancelled
      (downloadRun id sampleCancelled (text "https://a") [] sampleState).events
      (downloadWithRetry id sampleCancelled (text "https://a") [] sampleState).1 := by
  intro h
  obtain ⟨-, err, hresult, his⟩ := h.attempted [_, _] _ [] _ .canceled rfl rfl
    (fun hfatal => by rcases hfatal with h | h | h <;> cases h) rfl
  cases hresult
  cases his

end PureSimdjson.Bootstrap
