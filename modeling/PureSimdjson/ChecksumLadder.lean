import PureSimdjson.DownloadLadder

/-!
# The checksum ladder

`resolveChecksumFromPublishedSums` side by side with `downloadWithRetry`.
-/
namespace PureSimdjson.Bootstrap

open Texts Retry

/-- One step of a ladder's schedule. -/
inductive ScheduleStep where
  | pause (index number : Nat) (hint : Duration) (start finish : Nat)
      (interrupted : Option ContextError)
  | attempt (index number start finish : Nat)

def shown {δ α : Type} : Event Source (Clocked δ) Err α Duration ContextError → ScheduleStep
  | .pause p => .pause p.source.index p.number p.hint p.before.now p.after.now p.interrupted
  | .attempt a => .attempt a.source.index a.number a.before.now a.after.now

/-- The pauses and attempts of a ladder, and when they happen. -/
def schedule {δ α : Type} (events : List (Event Source (Clocked δ) Err α Duration ContextError)) :
    List ScheduleStep :=
  events.map shown

/-- What an attempt of the checksum ladder met. -/
def metSums (E : Conditions SumsReply) (key : Text)
    (a : Attempt Source (Clocked Unit) Err Text) : Outcome :=
  (E.reply a.source.index a.number).outcome key

/-- Both ladders meet the same. -/
structure Matched (E : Conditions ArtifactReply) (E' : Conditions SumsReply) (key : Text) :
    Prop where
  contextEnds : E.contextEnds = E'.contextEnds
  jitter : E.jitter = E'.jitter
  timerFirst : E.timerFirst = E'.timerFirst
  took : ∀ index number, (E.reply index number).took = (E'.reply index number).took
  outcome : ∀ index number,
    (E.reply index number).outcome = (E'.reply index number).outcome key

/-- What the documentation calls fatal for the ladder, and both ladders may meet. -/
def Outcome.DocumentedFatal (o : Outcome) : Prop := o = .downgrade ∨ o = .noEntry

/-- **The two ladders agree.**  Meeting the same they have the same schedule, and nothing is tried
after what the documentation calls fatal for the ladder. -/
structure LaddersAgree (E' : Conditions SumsReply) (key primaryURL' fallbackURL' : Text)
    (now : Nat) : Prop where
  schedule : ∀ sha256 E primaryURL fallbackURL s, Matched E E' key →
    (fallbackURL = [] ↔ fallbackURL' = []) → s.now = now →
      schedule (downloadRun sha256 E primaryURL fallbackURL s).events =
        schedule (sumsRun E' key primaryURL' fallbackURL' now).events
  final : ∀ before a after,
    attempts (sumsRun E' key primaryURL' fallbackURL' now).events = before ++ a :: after →
      (metSums E' key a).DocumentedFatal → after = []

section
variable {E : Conditions ArtifactReply} {E' : Conditions SumsReply} {key : Text}
  {primaryURL fallbackURL primaryURL' fallbackURL' : Text} {now : Nat}

theorem Matched.contextErr (h : Matched E E' key) (now : Nat) :
    E.contextErr now = E'.contextErr now := by
  rw [Conditions.contextErr, Conditions.contextErr, h.contextEnds]

/-- The pauses are the same. -/
theorem Matched.sleep (h : Matched E E' key) {u v : Source} (huv : u.index = v.index)
    (attempt : Nat) (hint : Duration) {s : Clocked Disk} {t : Clocked Unit} (hnow : s.now = t.now) :
    (E.sleepWithJitter u attempt hint s).1 = (E'.sleepWithJitter v attempt hint t).1 ∧
      (E.sleepWithJitter u attempt hint s).2.now = (E'.sleepWithJitter v attempt hint t).2.now := by
  rw [Conditions.sleepWithJitter, Conditions.sleepWithJitter, h.contextEnds, h.jitter,
    h.timerFirst, huv, hnow]
  cases E'.contextEnds with
  | none => exact ⟨rfl, rfl⟩
  | some p =>
    dsimp only
    split <;> exact ⟨rfl, rfl⟩

/-- What the checksum ladder makes of an outcome. -/
def Outcome.sumsVerdict : Outcome → Verdict Duration
  | .transient hint => .again hint
  | _ => .giveUp

variable (E' key) in
theorem sumsLadder_verdict {o : Outcome} {err : Err} (h : Means o err) :
    (sumsLadder E' key).verdict err = o.sumsVerdict := by
  show (if isPermanentBootstrapError err = true then _ else _) = _
  rw [h.permanent]
  cases o with
  | transient hint =>
    rw [h.hint hint rfl]
    rfl
  | _ => rfl

/-- The two ladders are side by side, but for a downgrade. -/
theorem Matched.follows (h : Matched E E' key) (sha256 : Text → Text) :
    Follows (artifactLadder sha256 E) (sumsLadder E' key) (fun u v => u.index = v.index)
      (fun s t => s.now = t.now) fun err => isBootstrapRedirectPolicyError err = true where
  limit := rfl
  noHint := rfl
  check {s t} hnow := by
    show E.contextErr s.now = E'.contextErr t.now
    rw [h.contextErr, hnow]
  pause n hint huv hnow := h.sleep huv n hint hnow
  attempt {u v s t} n huv hnow := by
    have hleft := downloadOnce_answers sha256 (E.reply u.index n) u.url s.disk
    have hright := fetchChecksumFromURL_answers (E'.reply v.index n) v.url key
    have hentry := (E.reply u.index n).outcome_ne_noEntry
    rw [h.outcome, huv] at hleft hentry
    refine ⟨?_, ?_⟩
    · show Agrees _ _ _ (downloadOnce sha256 (E.reply u.index n) u.url s.disk).1
        (fetchChecksumFromURL (E'.reply v.index n) v.url key)
      rw [huv]
      generalize (downloadOnce sha256 (E.reply v.index n) u.url s.disk).1 = r at hleft ⊢
      generalize fetchChecksumFromURL (E'.reply v.index n) v.url key = r' at hright ⊢
      generalize (E'.reply v.index n).outcome key = o at hleft hright hentry
      cases hright with
      | success a' =>
        cases hleft with
        | success a => exact .success a a'
        | failed hne _ => exact absurd rfl hne
      | failed hne hmeans' =>
        cases hleft with
        | success a => exact absurd rfl hne
        | failed _ hmeans =>
          have hverdict := artifactLadder_verdict sha256 E hmeans hentry
          have hverdict' := sumsLadder_verdict E' key hmeans'
          by_cases ho : o = .downgrade
          · rw [ho] at hverdict hverdict'
            refine .drift hverdict hverdict' ?_
            rw [hmeans'.downgrade, ho]
            rfl
          · refine .same ?_
            rw [hverdict, hverdict']
            cases o with
            | downgrade => exact absurd rfl ho
            | _ => rfl
    · show s.now + (E.reply u.index n).took = t.now + (E'.reply v.index n).took
      rw [hnow, h.took, huv]

/-- The same events show the same. -/
theorem schedule_eq {L : Ladder Source (Clocked Disk) Err (Nat × Text) Duration ContextError}
    {M : Ladder Source (Clocked Unit) Err Text Duration ContextError} {D : Err → Prop}
    {evs : List (Event Source (Clocked Disk) Err (Nat × Text) Duration ContextError)}
    {evs' : List (Event Source (Clocked Unit) Err Text Duration ContextError)}
    (h : List.Forall₂ (Alike L M (fun u v => u.index = v.index) (fun s t => s.now = t.now) D)
      evs evs') : schedule evs = schedule evs' := by
  induction h with
  | nil => rfl
  | cons hevent _ ih =>
    have hshown := hevent
    rw [schedule, schedule, List.map_cons, List.map_cons]
    refine congrArg₂ List.cons ?_ ih
    cases hshown with
    | pause hS hbefore hafter => simp only [shown, hS, hbefore, hafter]
    | attempt hS hbefore _ hafter => simp only [shown, hS, hbefore, hafter]

theorem sources_forall₂ (h : fallbackURL = [] ↔ fallbackURL' = []) :
    List.Forall₂ (fun u v : Source => u.index = v.index) (sources primaryURL fallbackURL)
      (sources primaryURL' fallbackURL') := by
  rw [sources, sources]
  by_cases hnone : fallbackURL = []
  · rw [if_pos hnone, if_pos (h.mp hnone)]
    exact .cons rfl .nil
  · rw [if_neg hnone, if_neg fun h' => hnone (h.mpr h')]
    exact .cons rfl (.cons rfl .nil)

theorem sumsRun_climbs (E' : Conditions SumsReply) (key primaryURL' fallbackURL' : Text)
    (now : Nat) : Climbs (sumsLadder E' key) (sources primaryURL' fallbackURL') 0 0 none ⟨now, ()⟩
      (sumsRun E' key primaryURL' fallbackURL' now).events
      (sumsRun E' key primaryURL' fallbackURL' now).exit
      (sumsRun E' key primaryURL' fallbackURL' now).state :=
  climbs_climb _ _ _

theorem sumsRun_answers : ∀ a ∈ attempts (sumsRun E' key primaryURL' fallbackURL' now).events,
    Answers (metSums E' key a) a.result := by
  intro a ha
  obtain ⟨-, -, -, hmade⟩ :=
    (sumsRun_climbs E' key primaryURL' fallbackURL' now).attempted a ha
  have hresult : a.result = fetchChecksumFromURL (E'.reply a.source.index a.number) a.source.url
      key := (congrArg Prod.fst hmade).symm
  rw [hresult]
  exact fetchChecksumFromURL_answers _ _ _

end

/-- **The two ladders agree exactly where** what the documentation calls fatal for the ladder meets
an attempt at the last URL, or one during which the context ends. -/
theorem ladders_agree_iff (E' : Conditions SumsReply) (key primaryURL' fallbackURL' : Text)
    (now : Nat) :
    LaddersAgree E' key primaryURL' fallbackURL' now ↔
      ∀ a ∈ attempts (sumsRun E' key primaryURL' fallbackURL' now).events,
        (metSums E' key a).DocumentedFatal →
          (sources primaryURL' fallbackURL').getLast? = some a.source ∨
            E'.contextErr a.after.now ≠ none := by
  have hclimbs := sumsRun_climbs E' key primaryURL' fallbackURL' now
  have hnodup : (sources primaryURL' fallbackURL').Nodup := by
    refine List.nodup_iff_pairwise_ne.mpr ((sources_before _ _).imp ?_)
    rintro u _ hbefore rfl
    exact u.not_before hbefore
  have hgives : ∀ a ∈ attempts (sumsRun E' key primaryURL' fallbackURL' now).events,
      (metSums E' key a).DocumentedFatal → GivesUp (sumsLadder E' key) a := by
    intro a ha hfatal
    have hanswers := sumsRun_answers a ha
    generalize hr : a.result = r at hanswers
    generalize metSums E' key a = o at hanswers hfatal
    cases hanswers with
    | success => rcases hfatal with h | h <;> cases h
    | failed _ hmeans =>
      refine ⟨_, hr, (sumsLadder_verdict E' key hmeans).trans ?_⟩
      rcases hfatal with rfl | rfl <;> rfl
  constructor
  · intro hagree a ha hfatal
    by_contra hnot
    push Not at hnot
    obtain ⟨hlast, hcheck⟩ := hnot
    obtain ⟨before, after, heq⟩ := List.append_of_mem ha
    obtain rfl := hagree.final before a after heq hfatal
    exact hclimbs.goes_on (Nat.succ_pos 2) (sources_before _ _) Source.not_before a ha
      (hgives a ha hfatal) hlast hcheck before heq
  · intro hgood
    refine ⟨?_, ?_⟩
    · intro sha256 E primaryURL fallbackURL s hmatched hfallback hnow
      refine schedule_eq ((hmatched.follows sha256).climb (Nat.succ_pos 2)
        (sources_forall₂ hfallback) none none hnow hnodup ?_)
      intro a ha err hresult hpolicy
      refine hgood a ha (Or.inl ?_)
      have hanswers := sumsRun_answers a ha
      rw [hresult] at hanswers
      generalize metSums E' key a = o at hanswers
      cases hanswers with
      | failed _ hmeans =>
        rw [hmeans.downgrade] at hpolicy
        exact of_decide_eq_true hpolicy
    · intro before a after heq hfatal
      have ha : a ∈ attempts (sumsRun E' key primaryURL' fallbackURL' now).events :=
        heq ▸ List.mem_append_right before List.mem_cons_self
      have hgive := hgives a ha hfatal
      have hpairwise := hclimbs.pairwise (sources_before _ _) Source.not_before
      rw [heq] at hpairwise
      rcases hgood a ha hfatal with hlast | hoff
      · -- a later attempt would be at a URL beyond the last one
        by_contra hne
        obtain ⟨b, after, rfl⟩ := List.exists_cons_of_ne_nil hne
        have hb : b ∈ attempts (sumsRun E' key primaryURL' fallbackURL' now).events :=
          heq ▸ List.mem_append_right before (List.mem_cons_of_mem a List.mem_cons_self)
        have hbefore : a.source.Before b.source := by
          obtain ⟨-, -, e, hint, herr, hagain⟩ | ⟨hbefore, -⟩ :=
            List.rel_of_pairwise_cons (List.pairwise_append.mp hpairwise).2.1
              (List.mem_cons_self (a := b) (l := after))
          · obtain ⟨e', herr', hverdict⟩ := hgive
            cases herr.symm.trans herr'
            cases hagain.symm.trans hverdict
          · exact hbefore
        obtain ⟨init, hinit⟩ := List.getLast?_eq_some_iff.mp hlast
        have hsources := sources_before primaryURL' fallbackURL'
        have hmem := (hclimbs.attempted b hb).1
        rw [hinit] at hsources hmem
        rcases List.mem_append.mp hmem with hmem | hmem
        · have hback := (List.pairwise_append.mp hsources).2.2 _ hmem _ List.mem_cons_self
          exact lt_asymm hbefore hback
        · rw [List.mem_singleton.mp hmem] at hbefore
          exact Source.not_before _ hbefore
      · obtain ⟨c, hcheck⟩ := Option.ne_none_iff_exists'.mp hoff
        obtain ⟨e, herr, hverdict⟩ := hgive
        obtain ⟨init, hinit, -, -⟩ := hclimbs.called_off_during (sumsLadder_timed E' key)
          (Nat.succ_pos 2) (sources_before _ _) Source.not_before a ha e herr
          (by rw [hverdict]; exact fun h => by cases h) hcheck
        exact eq_nil_of_last Source.not_before hpairwise (heq.symm.trans hinit)

/-! ## A sample -/

/-- The first URL redirects from HTTPS to HTTP, and the second one has no such file. -/
def sampleDowngrade : Conditions SumsReply where
  contextEnds := none
  reply index _ :=
    if index = 0 then ⟨1000000000, none, .error .downgrade⟩
    else ⟨1000000000, none, .ok { sampleResponse with statusCode := 404 }⟩
  jitter _ _ := 0
  timerFirst _ _ := false

/-- After a downgrade at the first URL the second one is tried. -/
theorem ladders_counterexample :
    ¬ LaddersAgree sampleDowngrade sampleKey (text "https://a") (text "https://b") 0 := by
  intro h
  have hnil := h.final [] _ [_] rfl (Or.inl rfl)
  cases hnil

end PureSimdjson.Bootstrap
