import PureSimdjson.Retry

/-!
# What a ladder does to its state, and two ladders side by side

What every pause and every failed attempt keep, a ladder keeps.  Two ladders that take the same
turns have the same events; one that gives up a source where the other one stops drifts off,
unless there was nothing left to try.
-/
namespace Retry

variable {υ σ ε α η κ : Type} {L : Ladder υ σ ε α η κ}

/-! ## State -/

/-- `R` is kept by every pause and every failed attempt. -/
structure Kept (L : Ladder υ σ ε α η κ) (R : σ → σ → Prop) : Prop where
  refl : ∀ s, R s s
  trans : ∀ {s s' s''}, R s s' → R s' s'' → R s s''
  pause : ∀ u n hint s, R s (L.pause u n hint s).2
  failed : ∀ {u n s e s'}, L.attempt u n s = (.error e, s') → R s s'

section
variable {R : σ → σ → Prop} {us : List υ} {n : Nat} {hint : η} {last : Option (υ × Nat × ε)}
  {s s' : σ} {evs rest : List (Event υ σ ε α η κ)} {x : Exit υ ε α κ} {a : Attempt υ σ ε α}

theorem Kept.rested (hR : Kept L R) {u : υ} {interrupted : Option κ}
    (h : L.rest u n hint s = (rest, interrupted, s')) : R s s' := by
  rw [Ladder.rest] at h
  split at h
  · cases h
    exact hR.refl s
  · obtain rfl := congrArg (fun p => p.2.2) h
    exact hR.pause _ _ _ _

theorem Kept.tried (hR : Kept L R) (h : Tried L s hint rest a) {e : ε}
    (hresult : a.result = .error e) : R s a.after :=
  hR.trans (hR.rested h.rested) (hR.failed (h.made.trans (by rw [hresult])))

/-- **What every failure keeps, a climb keeps**, up to the attempt that succeeds. -/
theorem Climbs.kept (h : Climbs L us n hint last s evs x s') (hR : Kept L R) :
    (∀ res, x = .success res → ∃ s₁ u k, R s s₁ ∧ L.attempt u k s₁ = (.ok res, s')) ∧
      ((∀ res, x ≠ .success res) → R s s') := by
  induction h with
  | @exhausted n hint last s => exact ⟨(fun res hx => by cases hx), fun _ => hR.refl s⟩
  | leave _ ih => exact ih
  | asleep _ hrest | ended _ hrest _ =>
    exact ⟨(fun res hx => by cases hx), fun _ => hR.rested hrest⟩
  | success htried hresult =>
    refine ⟨fun res hx => ?_, fun hx => absurd rfl (hx _)⟩
    cases hx
    exact ⟨_, _, _, hR.rested htried.rested, htried.made.trans (by rw [hresult])⟩
  | stopped htried hresult _ =>
    exact ⟨(fun res hx => by cases hx), fun _ => hR.tried htried hresult⟩
  | giveUp htried hresult _ _ ih | again htried hresult _ _ ih =>
    have hfirst := hR.tried htried hresult
    refine ⟨fun res hx => ?_, fun hx => hR.trans hfirst (ih.2 hx)⟩
    obtain ⟨s₁, u, k, hkept, hmade⟩ := ih.1 res hx
    exact ⟨s₁, u, k, hR.trans hfirst hkept, hmade⟩

end

/-! ## Side by side -/

variable {υ' σ' ε' α' : Type} {M : Ladder υ' σ' ε' α' η κ}

/-- The results mean the same to their ladders; or the first ladder stops where the second one
gives up the source, with an error in `D`. -/
inductive Agrees (L : Ladder υ σ ε α η κ) (M : Ladder υ' σ' ε' α' η κ) (D : ε' → Prop) :
    Except ε α → Except ε' α' → Prop where
  | success (a : α) (a' : α') : Agrees L M D (.ok a) (.ok a')
  | same {e : ε} {e' : ε'} (h : L.verdict e = M.verdict e') : Agrees L M D (.error e) (.error e')
  | drift {e : ε} {e' : ε'} (hstop : L.verdict e = .stop) (hgive : M.verdict e' = .giveUp)
      (hD : D e') : Agrees L M D (.error e) (.error e')

/-- Two ladders side by side: `S` relates their sources, and `R` their states. -/
structure Follows (L : Ladder υ σ ε α η κ) (M : Ladder υ' σ' ε' α' η κ) (S : υ → υ' → Prop)
    (R : σ → σ' → Prop) (D : ε' → Prop) : Prop where
  limit : L.limit = M.limit
  noHint : L.noHint = M.noHint
  check : ∀ {s t}, R s t → L.check s = M.check t
  pause : ∀ {u v s t} n hint, S u v → R s t →
    (L.pause u n hint s).1 = (M.pause v n hint t).1 ∧
      R (L.pause u n hint s).2 (M.pause v n hint t).2
  attempt : ∀ {u v s t} n, S u v → R s t →
    Agrees L M D (L.attempt u n s).1 (M.attempt v n t).1 ∧
      R (L.attempt u n s).2 (M.attempt v n t).2

/-- The same event of two ladders. -/
inductive Alike (L : Ladder υ σ ε α η κ) (M : Ladder υ' σ' ε' α' η κ) (S : υ → υ' → Prop)
    (R : σ → σ' → Prop) (D : ε' → Prop) : Event υ σ ε α η κ → Event υ' σ' ε' α' η κ → Prop where
  | pause {u v n hint s t i s' t'} (hS : S u v) (hbefore : R s t) (hafter : R s' t') :
      Alike L M S R D (.pause ⟨u, n, hint, s, i, s'⟩) (.pause ⟨v, n, hint, t, i, t'⟩)
  | attempt {u v n s t r r' s' t'} (hS : S u v) (hbefore : R s t) (hresult : Agrees L M D r r')
      (hafter : R s' t') :
      Alike L M S R D (.attempt ⟨u, n, s, r, s'⟩) (.attempt ⟨v, n, t, r', t'⟩)

/-- How two visits end side by side; `as` and `t` are the attempts and the end of the second. -/
inductive AlikeExit (D : ε' → Prop) (as : List (Attempt υ' σ' ε' α')) (t : σ') :
    Exit υ ε α κ → Exit υ' ε' α' κ → Prop where
  | success {a a'} : AlikeExit D as t (.success a) (.success a')
  | stopped {u u' n n' e e'} : AlikeExit D as t (.stopped u n e) (.stopped u' n' e')
  | interrupted {c} : AlikeExit D as t (.interrupted c) (.interrupted c)
  | exhausted {last last'} : AlikeExit D as t (.exhausted last) (.exhausted last')
  | drift {u n e last'} (a : Attempt υ' σ' ε' α') (ha : a ∈ as) (hafter : a.after = t) (e' : ε')
      (hresult : a.result = .error e') (hD : D e') :
      AlikeExit D as t (.stopped u n e) (.exhausted last')

/-- Two climbs side by side. -/
structure AlikeClimb (L : Ladder υ σ ε α η κ) (M : Ladder υ' σ' ε' α' η κ) (S : υ → υ' → Prop)
    (R : σ → σ' → Prop) (D : ε' → Prop) (v : Climb υ σ ε α η κ) (w : Climb υ' σ' ε' α' η κ) :
    Prop where
  events : List.Forall₂ (Alike L M S R D) v.events w.events
  state : R v.state w.state
  exit : AlikeExit D (attempts w.events) w.state v.exit w.exit

section
variable {S : υ → υ' → Prop} {R : σ → σ' → Prop} {D : ε' → Prop} {u : υ} {v : υ'}

/-- What a later end of the second ladder says, it says of all its attempts. -/
theorem AlikeExit.mono {as as' : List (Attempt υ' σ' ε' α')} {t : σ'} {x : Exit υ ε α κ}
    {y : Exit υ' ε' α' κ} (h : AlikeExit D as t x y) (hsub : ∀ a ∈ as, a ∈ as') :
    AlikeExit D as' t x y := by
  cases h with
  | success => exact .success
  | stopped => exact .stopped
  | interrupted => exact .interrupted
  | exhausted => exact .exhausted
  | drift a ha hafter e' hresult hD => exact .drift a (hsub a ha) hafter e' hresult hD

theorem Follows.rest (h : Follows L M S R D) (hS : S u v) {s : σ} {t : σ'} (hR : R s t) (n : Nat)
    (hint : η) : List.Forall₂ (Alike L M S R D) (L.rest u n hint s).1 (M.rest v n hint t).1 ∧
      (L.rest u n hint s).2.1 = (M.rest v n hint t).2.1 ∧
      R (L.rest u n hint s).2.2 (M.rest v n hint t).2.2 := by
  rw [Ladder.rest, Ladder.rest]
  by_cases hn : n = 0
  · rw [if_pos hn, if_pos hn]
    exact ⟨.nil, rfl, hR⟩
  · rw [if_neg hn, if_neg hn]
    obtain ⟨hsame, hafter⟩ := h.pause n hint hS hR
    refine ⟨.cons ?_ .nil, hsame, hafter⟩
    rw [hsame]
    exact .pause hS hR hafter

/-- **Two visits side by side.** -/
theorem Follows.visit (h : Follows L M S R D) (hS : S u v) (left n : Nat) (hint : η)
    (last : Option (υ × Nat × ε)) (last' : Option (υ' × Nat × ε')) {s : σ} {t : σ'} (hR : R s t) :
    AlikeClimb L M S R D (L.visit u left n hint last s) (M.visit v left n hint last' t) := by
  induction left generalizing n hint last last' s t with
  | zero => exact ⟨.nil, hR, .exhausted⟩
  | succ left ih =>
    obtain ⟨hevents, hsame, hR'⟩ := h.rest hS hR n hint
    rw [Ladder.visit, Ladder.visit]
    dsimp only
    rw [hsame]
    generalize L.rest u n hint s = p at hevents hR' ⊢
    generalize M.rest v n hint t = q at hevents hR' ⊢
    rcases q.2.1 with _ | c
    swap
    · exact ⟨hevents, hR', .interrupted⟩
    dsimp only
    rw [h.check hR']
    rcases M.check q.2.2 with _ | c
    swap
    · exact ⟨hevents, hR', .interrupted⟩
    dsimp only
    obtain ⟨hagrees, hafter⟩ := h.attempt n hS hR'
    rcases hleft : L.attempt u n p.2.2 with ⟨r, s'⟩
    rcases hright : M.attempt v n q.2.2 with ⟨r', t'⟩
    rw [hleft, hright] at hagrees hafter
    dsimp only at hagrees hafter ⊢
    have htried : List.Forall₂ (Alike L M S R D) (p.1 ++ [.attempt ⟨u, n, p.2.2, r, s'⟩])
        (q.1 ++ [.attempt ⟨v, n, q.2.2, r', t'⟩]) :=
      List.rel_append hevents (.cons (.attempt hS hR' hagrees hafter) .nil)
    cases hagrees with
    | success a a' => exact ⟨htried, hafter, .success⟩
    | @same e e' hverdict =>
      dsimp only
      rw [hverdict]
      rcases M.verdict e' with _ | _ | hint'
      · exact ⟨htried, hafter, .stopped⟩
      · exact ⟨htried, hafter, .exhausted⟩
      · obtain ⟨hmore, hend, hexit⟩ := ih (n + 1) hint' (some (u, n, e)) (some (v, n, e')) hafter
        refine ⟨List.rel_append htried hmore, hend, hexit.mono fun a ha => ?_⟩
        rw [attempts_append]
        exact List.mem_append_right _ ha
    | @drift e e' hstop hgive hD =>
      dsimp only
      rw [hstop, hgive]
      refine ⟨htried, hafter, .drift ⟨v, n, q.2.2, .error e', t'⟩ ?_ rfl e' rfl hD⟩
      rw [attempts_append]
      exact List.mem_append_right _ List.mem_cons_self

/-- A visit tries its source. -/
theorem visit_source (left n : Nat) (hn : n + left = L.limit) (hint : η)
    (last : Option (υ × Nat × ε)) (s : σ) :
    ∀ a ∈ attempts (L.visit u left n hint last s).events, a.source = u := by
  have hvisit := climbs_visit u [] left n hn hint last s _ rfl
  generalize L.visit u left n hint last s = v at hvisit ⊢
  rcases v with ⟨evs, x, s'⟩
  intro a ha
  refine List.mem_singleton.mp ?_
  cases x with
  | exhausted last' =>
    have hclimb := hvisit [] _ s' .exhausted
    rw [List.append_nil] at hclimb
    exact (hclimb.attempted a ha).1
  | success r => exact (Climbs.attempted hvisit a ha).1
  | stopped u' n' e' => exact (Climbs.attempted hvisit a ha).1
  | interrupted c => exact (Climbs.attempted hvisit a ha).1

/-- A ladder that has been called off does nothing at the next source. -/
theorem climb_events_nil (us : List υ) (last : Option (υ × Nat × ε)) (hpos : 0 < L.limit) {s : σ}
    {c : κ} (hcheck : L.check s = some c) : (L.climb us last s).events = [] := by
  cases us with
  | nil => rfl
  | cons u us =>
    obtain ⟨limit, hlimit⟩ := Nat.exists_eq_succ_of_ne_zero (Nat.ne_of_gt hpos)
    have hvisit : L.visit u L.limit 0 L.noHint last s = ⟨[], .interrupted c, s⟩ := by
      have hrest : L.rest u 0 L.noHint s = ([], none, s) := if_pos rfl
      rw [hlimit, Ladder.visit, hrest]
      dsimp only
      rw [hcheck]
    rw [Ladder.climb, hvisit]

/-- **Two ladders side by side have the same events.**  Where the second one gives up a source
and the first one stops, there must be no other source, or the second one must be called off. -/
theorem Follows.climb (h : Follows L M S R D) (hpos : 0 < M.limit) {us : List υ} {vs : List υ'}
    (hS : List.Forall₂ S us vs) (last : Option (υ × Nat × ε)) (last' : Option (υ' × Nat × ε'))
    {s : σ} {t : σ'} (hR : R s t) (hvs : vs.Nodup)
    (hD : ∀ a ∈ attempts (M.climb vs last' t).events, ∀ e, a.result = .error e → D e →
      vs.getLast? = some a.source ∨ M.check a.after ≠ none) :
    List.Forall₂ (Alike L M S R D) (L.climb us last s).events (M.climb vs last' t).events := by
  induction hS generalizing last last' s t with
  | nil => exact .nil
  | @cons u v us vs huv _ ih =>
    have hvisit := h.visit huv L.limit 0 L.noHint last last' hR
    rw [Ladder.climb] at hD
    rw [Ladder.climb, Ladder.climb]
    rw [h.limit, h.noHint] at hvisit
    rw [h.limit, h.noHint]
    have hsource := visit_source M.limit 0 (Nat.zero_add _) M.noHint last' t (L := M) (u := v)
    rcases hleft : L.visit u M.limit 0 M.noHint last s with ⟨evs, x, s'⟩
    rcases hright : M.visit v M.limit 0 M.noHint last' t with ⟨evs', y, t'⟩
    rw [hleft, hright] at hvisit
    rw [hright] at hD hsource
    obtain ⟨hevents, hend, hexit⟩ := hvisit
    dsimp only at hevents hend hexit hsource hD ⊢
    cases hexit with
    | success => exact hevents
    | stopped => exact hevents
    | interrupted => exact hevents
    | @exhausted l l' =>
      refine List.rel_append hevents (ih l l' hend hvs.of_cons fun a ha e hresult he => ?_)
      have hmem := ((climbs_climb vs l' t').attempted a ha).1
      rw [attempts_append] at hD
      have hor := hD a (List.mem_append_right _ ha) e hresult he
      rwa [show (v :: vs).getLast? = vs.getLast? by
        cases vs with
        | nil => cases hmem
        | cons w vs => exact List.getLast?_cons_cons] at hor
    | @drift k n e l' a ha hafter e' hresult he =>
      -- the second ladder has nothing left to try, or has been called off
      have hnone : (M.climb vs l' t').events = [] := by
        rw [attempts_append] at hD
        rcases hD a (List.mem_append_left _ ha) e' hresult he with hlast | hoff
        · rw [hsource a ha] at hlast
          rw [(getLast?_eq_head_iff (List.nodup_iff_pairwise_ne.mp hvs)
            (fun u h => h rfl)).mp hlast]
          rfl
        · obtain ⟨c, hcheck⟩ := Option.ne_none_iff_exists'.mp hoff
          exact climb_events_nil vs l' hpos (hafter ▸ hcheck)
      show List.Forall₂ _ evs (evs' ++ (M.climb vs l' t').events)
      rw [hnone, List.append_nil]
      exact hevents

end

end Retry
