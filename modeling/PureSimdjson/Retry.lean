import Mathlib

/-!
# Retry ladders

A ladder climbs through sources in order.  Each is tried a bounded number of times, with pauses
between the tries, until an attempt succeeds, an error stops the whole ladder or gives up the
source, or whoever waits for the ladder calls it off.  `Ladder.climb` is that loop, with its
events; `Climbs` is the same loop seen from its events, and what holds of every ladder is shown
by induction on that.
-/
namespace Retry

/-- What an error means: the ladder stops, the source is given up, or it is tried again. -/
inductive Verdict (η : Type) where
  | stop
  | giveUp
  | again (hint : η)

/-- What a ladder is made of.  The pause before a retry is given the hint of the attempt before;
it may be interrupted, and the check after it may call the ladder off. -/
structure Ladder (υ σ ε α η κ : Type) where
  limit : Nat
  noHint : η
  pause : υ → Nat → η → σ → Option κ × σ
  check : σ → Option κ
  attempt : υ → Nat → σ → Except ε α × σ
  verdict : ε → Verdict η

structure Attempt (υ σ ε α : Type) where
  source : υ
  number : Nat
  before : σ
  result : Except ε α
  after : σ

structure Pause (υ σ η κ : Type) where
  source : υ
  number : Nat
  hint : η
  before : σ
  interrupted : Option κ
  after : σ

inductive Event (υ σ ε α η κ : Type) where
  | pause (p : Pause υ σ η κ)
  | attempt (a : Attempt υ σ ε α)

/-- How a ladder ends; `last` is the last error, with the attempt it came from. -/
inductive Exit (υ ε α κ : Type) where
  | success (a : α)
  | stopped (source : υ) (number : Nat) (err : ε)
  | interrupted (reason : κ)
  | exhausted (last : Option (υ × Nat × ε))

structure Climb (υ σ ε α η κ : Type) where
  events : List (Event υ σ ε α η κ)
  exit : Exit υ ε α κ
  state : σ

variable {υ σ ε α η κ : Type} (L : Ladder υ σ ε α η κ)

/-- The pause before a retry. -/
def Ladder.rest (u : υ) (n : Nat) (hint : η) (s : σ) :
    List (Event υ σ ε α η κ) × Option κ × σ :=
  if n = 0 then ([], none, s)
  else
    let p := L.pause u n hint s
    ([.pause ⟨u, n, hint, s, p.1, p.2⟩], p)

/-- The attempts that are left at one source. -/
def Ladder.visit (u : υ) : (left n : Nat) → η → Option (υ × Nat × ε) → σ → Climb υ σ ε α η κ
  | 0, _, _, last, s => ⟨[], .exhausted last, s⟩
  | left + 1, n, hint, _, s =>
      let r := L.rest u n hint s
      match r.2.1 with
      | some c => ⟨r.1, .interrupted c, r.2.2⟩
      | none =>
          let s := r.2.2
          match L.check s with
          | some c => ⟨r.1, .interrupted c, s⟩
          | none =>
              let t := L.attempt u n s
              let tried := r.1 ++ [.attempt ⟨u, n, s, t.1, t.2⟩]
              match t.1 with
              | .ok a => ⟨tried, .success a, t.2⟩
              | .error e =>
                  match L.verdict e with
                  | .stop => ⟨tried, .stopped u n e, t.2⟩
                  | .giveUp => ⟨tried, .exhausted (some (u, n, e)), t.2⟩
                  | .again hint =>
                      let v := Ladder.visit u left (n + 1) hint (some (u, n, e)) t.2
                      ⟨tried ++ v.events, v.exit, v.state⟩

/-- The sources that are left. -/
def Ladder.climb : List υ → Option (υ × Nat × ε) → σ → Climb υ σ ε α η κ
  | [], last, s => ⟨[], .exhausted last, s⟩
  | u :: us, last, s =>
      let v := L.visit u L.limit 0 L.noHint last s
      match v.exit with
      | .exhausted last =>
          let w := Ladder.climb us last v.state
          ⟨v.events ++ w.events, w.exit, w.state⟩
      | _ => v

/-- The attempts among the events. -/
def attempts (events : List (Event υ σ ε α η κ)) : List (Attempt υ σ ε α) :=
  events.filterMap fun
    | .pause _ => none
    | .attempt a => some a

@[simp] theorem attempts_append (evs evs' : List (Event υ σ ε α η κ)) :
    attempts (evs ++ evs') = attempts evs ++ attempts evs' :=
  List.filterMap_append

@[simp] theorem attempts_attempt (a : Attempt υ σ ε α) (evs : List (Event υ σ ε α η κ)) :
    attempts (.attempt a :: evs) = a :: attempts evs := rfl

@[simp] theorem attempts_nil : attempts ([] : List (Event υ σ ε α η κ)) = [] := rfl

/-! ## A climb, from its events -/

/-- After the pause `rest` and the check, the attempt `a` was made. -/
structure Tried (s : σ) (hint : η) (rest : List (Event υ σ ε α η κ)) (a : Attempt υ σ ε α) :
    Prop where
  rested : L.rest a.source a.number hint s = (rest, none, a.before)
  live : L.check a.before = none
  made : L.attempt a.source a.number a.before = (a.result, a.after)
  number : a.number < L.limit

/-- `Climbs L us n hint last s evs x s'`: about to try the first of `us` for the `n`-th time, the
ladder goes on with the events `evs` and ends with `x`. -/
inductive Climbs : List υ → Nat → η → Option (υ × Nat × ε) → σ → List (Event υ σ ε α η κ) →
    Exit υ ε α κ → σ → Prop where
  | exhausted {n hint last s} : Climbs [] n hint last s [] (.exhausted last) s
  | leave {u us hint last s evs x s'} (h : Climbs us 0 L.noHint last s evs x s') :
      Climbs (u :: us) L.limit hint last s evs x s'
  | asleep {u us n hint last s rest c s'} (hn : n < L.limit)
      (hrest : L.rest u n hint s = (rest, some c, s')) :
      Climbs (u :: us) n hint last s rest (.interrupted c) s'
  | ended {u us n hint last s rest c s'} (hn : n < L.limit)
      (hrest : L.rest u n hint s = (rest, none, s')) (hcheck : L.check s' = some c) :
      Climbs (u :: us) n hint last s rest (.interrupted c) s'
  | success {us hint last s rest a r} (htried : Tried L s hint rest a)
        (hresult : a.result = .ok r) :
      Climbs (a.source :: us) a.number hint last s (rest ++ [.attempt a]) (.success r) a.after
  | stopped {us hint last s rest a e} (htried : Tried L s hint rest a)
      (hresult : a.result = .error e) (hverdict : L.verdict e = .stop) :
      Climbs (a.source :: us) a.number hint last s (rest ++ [.attempt a])
        (.stopped a.source a.number e) a.after
  | giveUp {us hint last s rest a e evs x s'} (htried : Tried L s hint rest a)
      (hresult : a.result = .error e) (hverdict : L.verdict e = .giveUp)
      (h : Climbs us 0 L.noHint (some (a.source, a.number, e)) a.after evs x s') :
      Climbs (a.source :: us) a.number hint last s (rest ++ .attempt a :: evs) x s'
  | again {us hint hint' last s rest a e evs x s'} (htried : Tried L s hint rest a)
      (hresult : a.result = .error e) (hverdict : L.verdict e = .again hint')
      (h : Climbs (a.source :: us) (a.number + 1) hint' (some (a.source, a.number, e)) a.after evs
        x s') :
      Climbs (a.source :: us) a.number hint last s (rest ++ .attempt a :: evs) x s'

variable {L}

/-- A visit that ends the ladder is a climb; after another one the ladder climbs on. -/
theorem climbs_visit (u : υ) (us : List υ) (left n : Nat) (hn : n + left = L.limit) (hint : η)
    (last : Option (υ × Nat × ε)) (s : σ) (v : Climb υ σ ε α η κ)
    (hv : L.visit u left n hint last s = v) :
    match v.exit with
    | .exhausted last' => ∀ evs x s', Climbs L us 0 L.noHint last' v.state evs x s' →
        Climbs L (u :: us) n hint last s (v.events ++ evs) x s'
    | x => Climbs L (u :: us) n hint last s v.events x v.state := by
  induction left generalizing n hint last s v with
  | zero =>
    obtain rfl := hv
    obtain rfl : n = L.limit := hn
    show ∀ evs x s', Climbs L us 0 L.noHint last s evs x s' → _
    intro evs x s' h
    exact .leave h
  | succ left ih =>
    have hlt : n < L.limit := by omega
    obtain rfl := hv
    rw [Ladder.visit]
    rcases hrest : L.rest u n hint s with ⟨rest, interrupted, s'⟩
    dsimp only
    cases interrupted with
    | some c => exact .asleep hlt hrest
    | none =>
      cases hcheck : L.check s' with
      | some c => exact .ended hlt hrest hcheck
      | none =>
        rcases hmade : L.attempt u n s' with ⟨result, s''⟩
        dsimp only
        have htried : Tried L s hint rest ⟨u, n, s', result, s''⟩ := ⟨hrest, hcheck, hmade, hlt⟩
        cases result with
        | ok r => exact .success htried rfl
        | error e =>
          dsimp only
          rcases hverdict : L.verdict e with _ | _ | hint'
          · exact .stopped htried rfl hverdict
          · intro evs x t h
            rw [List.append_assoc]
            exact .giveUp htried rfl hverdict h
          · dsimp only
            have hrest' := ih (n + 1) (by omega) hint' (some (u, n, e)) s'' _ rfl
            generalize L.visit u left (n + 1) hint' (some (u, n, e)) s'' = w at hrest' ⊢
            cases hexit : w.exit with
            | exhausted last' =>
              rw [hexit] at hrest'
              intro evs x t h
              rw [List.append_assoc, List.append_assoc]
              exact .again htried rfl hverdict (hrest' evs x t h)
            | success r =>
              rw [hexit] at hrest'
              rw [List.append_assoc]
              exact .again htried rfl hverdict hrest'
            | stopped u' n' e' =>
              rw [hexit] at hrest'
              rw [List.append_assoc]
              exact .again htried rfl hverdict hrest'
            | interrupted c =>
              rw [hexit] at hrest'
              rw [List.append_assoc]
              exact .again htried rfl hverdict hrest'

/-- **Every climb is one.** -/
theorem climbs_climb (us : List υ) (last : Option (υ × Nat × ε)) (s : σ) :
    Climbs L us 0 L.noHint last s (L.climb us last s).events (L.climb us last s).exit
      (L.climb us last s).state := by
  induction us generalizing last s with
  | nil => exact .exhausted
  | cons u us ih =>
    have hvisit := climbs_visit u us L.limit 0 (Nat.zero_add _) L.noHint last s _ rfl
    rw [Ladder.climb]
    rcases hv : L.visit u L.limit 0 L.noHint last s with ⟨evs, exit, s'⟩
    rw [hv] at hvisit
    cases exit with
    | exhausted last' => exact hvisit _ _ _ (ih last' s')
    | success r => exact hvisit
    | stopped u' n' e' => exact hvisit
    | interrupted c => exact hvisit

/-! ## What holds of every climb -/

variable {us : List υ} {n : Nat} {hint : η} {last : Option (υ × Nat × ε)} {s s' : σ}
  {evs rest : List (Event υ σ ε α η κ)} {x : Exit υ ε α κ} {a : Attempt υ σ ε α}

/-- Pauses are no attempts. -/
theorem attempts_rest {u : υ} {interrupted : Option κ}
    (h : L.rest u n hint s = (rest, interrupted, s')) : attempts rest = [] := by
  rw [Ladder.rest] at h
  split at h
  · obtain rfl := congrArg Prod.fst h
    rfl
  · obtain rfl := congrArg Prod.fst h
    rfl

theorem Tried.attempts_eq (h : Tried L s hint rest a) (evs : List (Event υ σ ε α η κ)) :
    attempts (rest ++ .attempt a :: evs) = a :: attempts evs := by
  rw [attempts_append, attempts_rest h.rested, attempts_attempt, List.nil_append]

variable (L) in
/-- The attempt failed, and its source may be tried again. -/
def Again (a : Attempt υ σ ε α) : Prop :=
  ∃ e hint, a.result = .error e ∧ L.verdict e = .again hint

variable (L) in
/-- The attempt failed, and its source is given up. -/
def GivesUp (a : Attempt υ σ ε α) : Prop := ∃ e, a.result = .error e ∧ L.verdict e = .giveUp

/-- The attempts are made at the sources, below the limit, where nothing called them off. -/
theorem Climbs.attempted (h : Climbs L us n hint last s evs x s') : ∀ a ∈ attempts evs,
    a.source ∈ us ∧ a.number < L.limit ∧ L.check a.before = none ∧
      L.attempt a.source a.number a.before = (a.result, a.after) := by
  induction h with
  | exhausted => exact fun a ha => absurd ha List.not_mem_nil
  | asleep _ hrest | ended _ hrest _ =>
    rw [attempts_rest hrest]
    exact fun a ha => absurd ha List.not_mem_nil
  | leave _ ih =>
    intro a ha
    obtain ⟨hmem, hrest⟩ := ih a ha
    exact ⟨List.mem_cons_of_mem _ hmem, hrest⟩
  | success htried _ | stopped htried _ _ =>
    rw [htried.attempts_eq]
    intro a ha
    obtain rfl := List.mem_singleton.mp ha
    exact ⟨List.mem_cons_self, htried.number, htried.live, htried.made⟩
  | giveUp htried _ _ _ ih =>
    rw [htried.attempts_eq]
    intro a ha
    rcases List.mem_cons.mp ha with rfl | ha
    · exact ⟨List.mem_cons_self, htried.number, htried.live, htried.made⟩
    · obtain ⟨hmem, hrest⟩ := ih a ha
      exact ⟨List.mem_cons_of_mem _ hmem, hrest⟩
  | again htried _ _ _ ih =>
    rw [htried.attempts_eq]
    intro a ha
    rcases List.mem_cons.mp ha with rfl | ha
    · exact ⟨List.mem_cons_self, htried.number, htried.live, htried.made⟩
    · exact ih a ha

/-! ### The order of the attempts -/

variable {r : υ → υ → Prop}

variable (L r) in
/-- What an attempt is to a later one: an earlier try of the same source, which may be tried
again, or one of an earlier source. -/
def Precedes (a b : Attempt υ σ ε α) : Prop :=
  (a.source = b.source ∧ a.number < b.number ∧ Again L a) ∨
    (r a.source b.source ∧ (Again L a ∨ GivesUp L a))

/-- In order, an attempt that is the last one has none after it. -/
theorem eq_nil_of_last (hr : ∀ u, ¬ r u u) {before after init : List (Attempt υ σ ε α)}
    (h : (before ++ a :: after).Pairwise (Precedes L r))
    (hlast : before ++ a :: after = init ++ [a]) :
    after = [] := by
  rcases List.eq_nil_or_concat after with hnil | ⟨rest, b, hafter⟩
  · exact hnil
  · rw [hafter, List.concat_eq_append] at h hlast
    have hsplit : (before ++ a :: rest) ++ [b] = init ++ [a] := by
      rw [← hlast, List.append_assoc]
      rfl
    obtain ⟨-, hb⟩ := List.append_inj' hsplit rfl
    obtain rfl := List.singleton_inj.mp hb
    obtain ⟨-, hlt, -⟩ | ⟨hrel, -⟩ := List.rel_of_pairwise_cons (List.pairwise_append.mp h).2.1
      (List.mem_append_right rest List.mem_cons_self)
    · exact absurd hlt (lt_irrefl _)
    · exact absurd hrel (hr _)

/-- The first source has had its tries below `n`. -/
theorem Climbs.number_le (h : Climbs L us n hint last s evs x s') (hus : us.Pairwise r)
    (hr : ∀ u, ¬ r u u) : ∀ u ∈ us.head?, ∀ a ∈ attempts evs, a.source = u → n ≤ a.number := by
  have hother {u : υ} {us : List υ} (hus : (u :: us).Pairwise r) {a : Attempt υ σ ε α}
      (ha : a.source ∈ us) (hsource : a.source = u) : False :=
    hr u (List.rel_of_pairwise_cons hus (hsource ▸ ha))
  induction h with
  | exhausted => exact fun u hu => by cases hu
  | asleep _ hrest | ended _ hrest _ =>
    rw [attempts_rest hrest]
    exact fun _ _ a ha => absurd ha List.not_mem_nil
  | leave h _ =>
    rintro u ⟨⟩ a ha hsource
    exact (hother hus (h.attempted a ha).1 hsource).elim
  | success htried _ | stopped htried _ _ =>
    rw [htried.attempts_eq]
    rintro u ⟨⟩ a ha -
    obtain rfl := List.mem_singleton.mp ha
    exact le_refl _
  | giveUp htried _ _ h _ =>
    rw [htried.attempts_eq]
    rintro u ⟨⟩ b hb hsource
    rcases List.mem_cons.mp hb with rfl | hb
    · exact le_refl _
    · exact (hother hus (h.attempted b hb).1 hsource).elim
  | again htried _ _ _ ih =>
    rw [htried.attempts_eq]
    rintro u ⟨⟩ b hb hsource
    rcases List.mem_cons.mp hb with rfl | hb
    · exact le_refl _
    · have := ih hus _ rfl b hb hsource
      omega

/-- **The order of the attempts.** -/
theorem Climbs.pairwise (h : Climbs L us n hint last s evs x s') (hus : us.Pairwise r)
    (hr : ∀ u, ¬ r u u) : (attempts evs).Pairwise (Precedes L r) := by
  induction h with
  | exhausted => exact .nil
  | asleep _ hrest | ended _ hrest _ =>
    rw [attempts_rest hrest]
    exact .nil
  | leave _ ih => exact ih hus.of_cons
  | success htried _ | stopped htried _ _ =>
    rw [htried.attempts_eq]
    exact List.pairwise_singleton _ _
  | giveUp htried hresult hverdict h ih =>
    rw [htried.attempts_eq]
    refine .cons (fun b hb => Or.inr ⟨?_, Or.inr ⟨_, hresult, hverdict⟩⟩) (ih hus.of_cons)
    exact List.rel_of_pairwise_cons hus (h.attempted b hb).1
  | @again us hint hint' last s rest a e evs x s' htried hresult hverdict h ih =>
    rw [htried.attempts_eq]
    refine .cons (fun b hb => ?_) (ih hus)
    have hagain : Again L a := ⟨_, _, hresult, hverdict⟩
    rcases List.mem_cons.mp (h.attempted b hb).1 with hsource | hmem
    · have hnumber := h.number_le hus hr _ rfl b hb hsource
      exact Or.inl ⟨hsource.symm, hnumber, hagain⟩
    · exact Or.inr ⟨List.rel_of_pairwise_cons hus hmem, Or.inl hagain⟩

/-- **A source is tried at most as often as the limit says.** -/
theorem Climbs.attempts_le [DecidableEq υ] (h : Climbs L us n hint last s evs x s')
    (hus : us.Pairwise r) (hr : ∀ u, ¬ r u u) (u : υ) :
    ((attempts evs).filter (·.source = u)).length ≤ L.limit := by
  have hnumbers : (((attempts evs).filter (·.source = u)).map (·.number)).Nodup := by
    rw [List.nodup_iff_pairwise_ne, List.pairwise_map]
    refine List.Pairwise.imp_of_mem ?_ ((h.pairwise hus hr).filter _)
    intro a b ha hb hab
    have hau : a.source = u := of_decide_eq_true (List.mem_filter.mp ha).2
    have hbu : b.source = u := of_decide_eq_true (List.mem_filter.mp hb).2
    obtain ⟨-, hlt, -⟩ | ⟨hrel, -⟩ := hab
    · exact Nat.ne_of_lt hlt
    · rw [hau, hbu] at hrel
      exact absurd hrel (hr u)
  have hsub : ((attempts evs).filter (·.source = u)).map (·.number) ⊆ List.range L.limit := by
    intro k hk
    obtain ⟨a, ha, rfl⟩ := List.mem_map.mp hk
    exact List.mem_range.mpr (h.attempted a (List.mem_filter.mp ha).1).2.1
  have hlength := (hnumbers.subperm hsub).length_le
  rwa [List.length_map, List.length_range] at hlength

/-! ### The end -/

/-- After a success nothing is tried. -/
theorem Climbs.success_spec {res : α} (h : Climbs L us n hint last s evs (.success res) s') :
    ∃ init a, attempts evs = init ++ [a] ∧ a.result = .ok res ∧ a.after = s' := by
  generalize hx : Exit.success res = x at h
  induction h with
  | exhausted | asleep _ _ | ended _ _ _ | stopped _ _ _ => cases hx
  | leave _ ih => exact ih hx
  | success htried hresult =>
    cases hx
    exact ⟨[], _, htried.attempts_eq _, hresult, rfl⟩
  | giveUp htried _ _ _ ih | again htried _ _ _ ih =>
    obtain ⟨init, a, heq, hrest⟩ := ih hx
    exact ⟨_ :: init, a, (htried.attempts_eq _).trans (congrArg _ heq), hrest⟩

/-- After what stops the ladder nothing is tried. -/
theorem Climbs.stopped_spec {u : υ} {k : Nat} {e : ε}
    (h : Climbs L us n hint last s evs (.stopped u k e) s') :
    ∃ init a, attempts evs = init ++ [a] ∧ a.source = u ∧ a.number = k ∧ a.result = .error e ∧
      L.verdict e = .stop := by
  generalize hx : Exit.stopped u k e = x at h
  induction h with
  | exhausted | asleep _ _ | ended _ _ _ | success _ _ => cases hx
  | leave _ ih => exact ih hx
  | stopped htried hresult hverdict =>
    cases hx
    exact ⟨[], _, htried.attempts_eq _, rfl, rfl, hresult, hverdict⟩
  | giveUp htried _ _ _ ih | again htried _ _ _ ih =>
    obtain ⟨init, a, heq, hrest⟩ := ih hx
    exact ⟨_ :: init, a, (htried.attempts_eq _).trans (congrArg _ heq), hrest⟩

/-- Otherwise every attempt failed, and none of them stopped the ladder. -/
theorem Climbs.failed (h : Climbs L us n hint last s evs x s') (hsuccess : ∀ r, x ≠ .success r)
    (hstopped : ∀ u k e, x ≠ .stopped u k e) : ∀ a ∈ attempts evs, Again L a ∨ GivesUp L a := by
  induction h with
  | exhausted => exact fun a ha => absurd ha List.not_mem_nil
  | asleep _ hrest | ended _ hrest _ =>
    rw [attempts_rest hrest]
    exact fun a ha => absurd ha List.not_mem_nil
  | leave _ ih => exact ih hsuccess hstopped
  | success _ _ => exact absurd rfl (hsuccess _)
  | stopped _ _ _ => exact absurd rfl (hstopped _ _ _)
  | giveUp htried hresult hverdict _ ih =>
    rw [htried.attempts_eq]
    intro b hb
    rcases List.mem_cons.mp hb with rfl | hb
    · exact Or.inr ⟨_, hresult, hverdict⟩
    · exact ih hsuccess hstopped b hb
  | again htried hresult hverdict _ ih =>
    rw [htried.attempts_eq]
    intro b hb
    rcases List.mem_cons.mp hb with rfl | hb
    · exact Or.inl ⟨_, _, hresult, hverdict⟩
    · exact ih hsuccess hstopped b hb

/-- A pause is interrupted as the rest says. -/
theorem interrupted_rest {u : υ} {interrupted : Option κ}
    (h : L.rest u n hint s = (rest, interrupted, s')) :
    ∀ p, .pause p ∈ rest → p.interrupted = interrupted := by
  rw [Ladder.rest] at h
  split at h
  · obtain rfl := congrArg Prod.fst h
    exact fun p hp => absurd hp List.not_mem_nil
  · obtain rfl := congrArg Prod.fst h
    obtain rfl := congrArg (fun p => p.2.1) h
    intro p hp
    cases List.mem_singleton.mp hp
    rfl

/-- An interrupted pause ends the ladder. -/
theorem Climbs.interrupted_spec (h : Climbs L us n hint last s evs x s') :
    ∀ p c, .pause p ∈ evs → p.interrupted = some c → x = .interrupted c := by
  induction h with
  | exhausted => exact fun p c hp => absurd hp List.not_mem_nil
  | leave _ ih => exact ih
  | asleep _ hrest =>
    intro p c hp hc
    rw [interrupted_rest hrest p hp] at hc
    rw [Option.some.inj hc]
  | ended _ hrest _ =>
    intro p c hp hc
    rw [interrupted_rest hrest p hp] at hc
    cases hc
  | success htried _ | stopped htried _ _ =>
    intro p c hp hc
    rcases List.mem_append.mp hp with hp | hp
    · rw [interrupted_rest htried.rested p hp] at hc
      cases hc
    · cases List.mem_singleton.mp hp
  | giveUp htried _ _ _ ih | again htried _ _ _ ih =>
    intro p c hp hc
    rcases List.mem_append.mp hp with hp | hp
    · rw [interrupted_rest htried.rested p hp] at hc
      cases hc
    · rcases List.mem_cons.mp hp with hp | hp
      · cases hp
      · exact ih p c hp hc

variable (L) in
/-- From the `n`-th try on, the source has been given up, or tried until the limit. -/
def GivenUp (as : List (Attempt υ σ ε α)) (n : Nat) (u : υ) : Prop :=
  (∃ a ∈ as, a.source = u ∧ GivesUp L a) ∨
    ∀ k, n ≤ k → k < L.limit → ∃ a ∈ as, a.source = u ∧ a.number = k

theorem GivenUp.cons {as : List (Attempt υ σ ε α)} {n : Nat} {u : υ} (h : GivenUp L as n u)
    (a : Attempt υ σ ε α) : GivenUp L (a :: as) n u := by
  rcases h with ⟨b, hb, hrest⟩ | hall
  · exact Or.inl ⟨b, List.mem_cons_of_mem _ hb, hrest⟩
  · refine Or.inr fun k hle hlt => ?_
    obtain ⟨b, hb, hrest⟩ := hall k hle hlt
    exact ⟨b, List.mem_cons_of_mem _ hb, hrest⟩

/-- **A ladder is exhausted when every source has been given up.** -/
theorem Climbs.exhausted_spec {last' : Option (υ × Nat × ε)}
    (h : Climbs L us n hint last s evs (.exhausted last') s') :
    (∀ u ∈ us.head?, GivenUp L (attempts evs) n u) ∧
      ∀ u ∈ us.tail, GivenUp L (attempts evs) 0 u := by
  generalize hx : Exit.exhausted last' = x at h
  have hall {us : List υ} {as : List (Attempt υ σ ε α)}
      (h : (∀ u ∈ us.head?, GivenUp L as 0 u) ∧ ∀ u ∈ us.tail, GivenUp L as 0 u) :
      ∀ u ∈ us, GivenUp L as 0 u := by
    intro u hu
    cases us with
    | nil => cases hu
    | cons first us =>
      rcases List.mem_cons.mp hu with rfl | hu
      · exact h.1 _ rfl
      · exact h.2 u hu
  induction h with
  | exhausted => exact ⟨(fun u hu => by cases hu), fun u hu => absurd hu List.not_mem_nil⟩
  | asleep _ _ | ended _ _ _ | success _ _ | stopped _ _ _ => cases hx
  | leave _ ih =>
    refine ⟨?_, hall (ih hx)⟩
    rintro u ⟨⟩
    exact Or.inr fun k hle hlt => absurd hlt (not_lt.mpr hle)
  | @giveUp us hint last s rest a e evs x s' htried hresult hverdict _ ih =>
    rw [htried.attempts_eq]
    refine ⟨?_, fun u hu => (hall (ih hx) u hu).cons a⟩
    rintro u ⟨⟩
    exact Or.inl ⟨a, List.mem_cons_self, rfl, _, hresult, hverdict⟩
  | @again us hint hint' last s rest a e evs x s' htried _ _ _ ih =>
    rw [htried.attempts_eq]
    obtain ⟨hhead, htail⟩ := ih hx
    refine ⟨?_, fun u hu => (htail u hu).cons a⟩
    rintro u ⟨⟩
    rcases hhead _ rfl with hgiven | hmade
    · exact GivenUp.cons (Or.inl hgiven) a
    · refine Or.inr fun k hle hlt => ?_
      rcases eq_or_lt_of_le hle with rfl | hle
      · exact ⟨a, List.mem_cons_self, rfl, rfl⟩
      · obtain ⟨b, hb, hrest⟩ := hmade k hle hlt
        exact ⟨b, List.mem_cons_of_mem _ hb, hrest⟩

/-- The last error of a ladder that is exhausted is that of an attempt, or the one it began with. -/
theorem Climbs.last_spec {u : υ} {k : Nat} {e : ε}
    (h : Climbs L us n hint last s evs (.exhausted (some (u, k, e))) s') :
    last = some (u, k, e) ∨ ∃ a ∈ attempts evs, a.result = .error e := by
  generalize hx : Exit.exhausted (some (u, k, e)) = x at h
  induction h with
  | exhausted => exact Or.inl (Exit.exhausted.inj hx).symm
  | asleep _ _ | ended _ _ _ | success _ _ | stopped _ _ _ => cases hx
  | leave _ ih => exact ih hx
  | giveUp htried hresult _ _ ih | again htried hresult _ _ ih =>
    rw [htried.attempts_eq]
    rcases ih hx with heq | ⟨b, hb, herr⟩
    · obtain ⟨-, -, rfl⟩ := Option.some.inj heq
      exact Or.inr ⟨_, List.mem_cons_self, hresult⟩
    · exact Or.inr ⟨b, List.mem_cons_of_mem _ hb, herr⟩

/-- A ladder that nothing calls off is not interrupted. -/
theorem Climbs.uninterrupted (h : Climbs L us n hint last s evs x s')
    (hpause : ∀ u n hint s, (L.pause u n hint s).1 = none) (hcheck : ∀ s, L.check s = none) :
    ∀ c, x ≠ .interrupted c := by
  induction h with
  | exhausted | success _ _ | stopped _ _ _ => exact fun c hx => by cases hx
  | leave _ ih | giveUp _ _ _ _ ih | again _ _ _ _ ih => exact ih
  | @asleep u us n hint last s rest c s' _ hrest =>
    rw [Ladder.rest] at hrest
    split at hrest
    · cases hrest
    · have hnone := hpause u n hint s
      rw [congrArg (fun r => r.2.1) hrest] at hnone
      cases hnone
  | ended _ _ hended =>
    rw [hcheck] at hended
    cases hended

/-! ### Going on -/

/-- Where nothing calls it off, a ladder with a source makes an attempt. -/
theorem Climbs.starts {u : υ} (h : Climbs L (u :: us) 0 hint last s evs x s') (hpos : 0 < L.limit)
    (hcheck : L.check s = none) : attempts evs ≠ [] := by
  have hrest : L.rest u 0 hint s = ([], none, s) := if_pos rfl
  generalize hn : 0 = n at h hrest
  cases h with
  | leave _ => omega
  | asleep _ hrest' =>
    rw [hrest] at hrest'
    cases hrest'
  | ended _ hrest' hcheck' =>
    rw [hrest] at hrest'
    cases hrest'
    rw [hcheck] at hcheck'
    cases hcheck'
  | success htried _ | stopped htried _ _ | giveUp htried _ _ _ | again htried _ _ _ =>
    rw [htried.attempts_eq]
    exact List.cons_ne_nil _ _

/-- **A source that is given up is not the end**, unless it is the last one or the ladder is
called off. -/
theorem Climbs.goes_on (h : Climbs L us n hint last s evs x s') (hpos : 0 < L.limit)
    (hus : us.Pairwise r) (hr : ∀ u, ¬ r u u) : ∀ a ∈ attempts evs, GivesUp L a →
      us.getLast? ≠ some a.source → L.check a.after = none →
        ∀ init, attempts evs ≠ init ++ [a] := by
  have hlater {a b : Attempt υ σ ε α} {as init : List (Attempt υ σ ε α)} (hb : b ∈ as)
      (h : ∀ init, as ≠ init ++ [b]) : a :: as ≠ init ++ [b] := by
    intro heq
    cases init with
    | nil =>
      obtain ⟨-, rfl⟩ := List.cons_eq_cons.mp heq
      cases hb
    | cons c init => exact h init (List.cons_eq_cons.mp heq).2
  induction h with
  | exhausted => exact fun a ha => absurd ha List.not_mem_nil
  | asleep _ hrest | ended _ hrest _ =>
    rw [attempts_rest hrest]
    exact fun a ha => absurd ha List.not_mem_nil
  | @leave u us hint last s evs x s' h ih =>
    intro a ha hgives hlast
    have hmem := (h.attempted a ha).1
    refine ih hus.of_cons a ha hgives fun hlast' => hlast ?_
    cases us with
    | nil => cases hmem
    | cons v us => rwa [List.getLast?_cons_cons]
  | success htried hok =>
    rw [htried.attempts_eq]
    intro a ha hgives
    obtain rfl := List.mem_singleton.mp ha
    obtain ⟨e, herr, -⟩ := hgives
    cases hok.symm.trans herr
  | stopped htried herr hstop =>
    rw [htried.attempts_eq]
    intro a ha hgives
    obtain rfl := List.mem_singleton.mp ha
    obtain ⟨e, herr', hgive⟩ := hgives
    cases herr.symm.trans herr'
    cases hstop.symm.trans hgive
  | @giveUp us hint last s rest a e evs x s' htried herr hgive h ih =>
    have hclimb : Climbs L (a.source :: us) a.number hint last s (rest ++ .attempt a :: evs) x s' :=
      .giveUp htried herr hgive h
    have hpairwise := hclimb.pairwise hus hr
    rw [htried.attempts_eq] at hpairwise ⊢
    intro b hb hgives hlast hcheck init heq
    rcases List.mem_cons.mp hb with rfl | hb
    · have hnil : attempts evs = [] :=
        eq_nil_of_last hr (show ([] ++ b :: attempts evs).Pairwise _ from hpairwise) heq
      cases us with
      | nil => exact hlast rfl
      | cons v us => exact h.starts hpos hcheck hnil
    · have hmem := (h.attempted b hb).1
      refine hlater hb (ih hus.of_cons b hb hgives (fun hlast' => hlast ?_) hcheck) heq
      cases us with
      | nil => cases hmem
      | cons v us => rwa [List.getLast?_cons_cons]
  | again htried herr hagain h ih =>
    rw [htried.attempts_eq]
    intro b hb hgives hlast hcheck init
    rcases List.mem_cons.mp hb with rfl | hb
    · obtain ⟨e, herr', hgive⟩ := hgives
      cases herr.symm.trans herr'
      cases hagain.symm.trans hgive
    · exact hlater hb (ih hus b hb hgives hlast hcheck)

/-! ## Time -/

/-- The state has a clock.  Nothing goes back in time, and what calls the ladder off stays; it is
also what interrupts a pause. -/
structure Timed (L : Ladder υ σ ε α η κ) (time : σ → Nat) : Prop where
  check : ∀ {s s' c}, L.check s = some c → time s ≤ time s' → L.check s' = some c
  pause : ∀ u n hint s, time s ≤ time (L.pause u n hint s).2
  interrupted : ∀ {u n hint s c}, (L.pause u n hint s).1 = some c →
    L.check (L.pause u n hint s).2 = some c
  attempt : ∀ u n s, time s ≤ time (L.attempt u n s).2

section
variable {time : σ → Nat} {c : κ}

theorem Timed.rested (hL : Timed L time) {u : υ} {interrupted : Option κ}
    (h : L.rest u n hint s = (rest, interrupted, s')) :
    time s ≤ time s' ∧ ∀ c, interrupted = some c → L.check s' = some c := by
  rw [Ladder.rest] at h
  split at h
  · cases h
    exact ⟨le_refl _, fun c hc => by cases hc⟩
  · have hpause := congrArg Prod.snd h
    obtain rfl := congrArg Prod.fst hpause
    obtain rfl := congrArg Prod.snd hpause
    exact ⟨hL.pause _ _ _ _, fun c hc => hL.interrupted hc⟩

theorem Timed.tried (hL : Timed L time) (h : Tried L s hint rest a) :
    time s ≤ time a.before ∧ time a.before ≤ time a.after := by
  refine ⟨(hL.rested h.rested).1, ?_⟩
  have hle := hL.attempt a.source a.number a.before
  rwa [h.made] at hle

/-- Nothing is tried where the ladder has been called off. -/
theorem Timed.not_tried (hL : Timed L time) (h : Tried L s hint rest a)
    (hcheck : L.check s = some c) : False := by
  have hlive := hL.check hcheck (hL.tried h).1
  rw [h.live] at hlive
  cases hlive

variable (L) in
/-- There is nothing left to try. -/
def Over (us : List υ) (n : Nat) : Prop := us = [] ∨ (n = L.limit ∧ us.tail = [])

/-- **A ladder that has been called off tries nothing more.**  It says so, unless there was
nothing left to try. -/
theorem Climbs.called_off (h : Climbs L us n hint last s evs x s') (hL : Timed L time)
    (hpos : 0 < L.limit) (hcheck : L.check s = some c) :
    attempts evs = [] ∧ (Over L us n → x = .exhausted last) ∧
      (¬ Over L us n → x = .interrupted c) := by
  have hnot {u : υ} {us : List υ} {n : Nat} (hn : n < L.limit) : ¬ Over L (u :: us) n := by
    rintro (hnil | ⟨rfl, -⟩)
    · cases hnil
    · exact lt_irrefl _ hn
  have hsame {s s' : σ} {c' : κ} (hcheck : L.check s = some c) (hle : time s ≤ time s')
      (hcheck' : L.check s' = some c') : c' = c :=
    Option.some.inj (hcheck'.symm.trans (hL.check hcheck hle))
  induction h with
  | exhausted => exact ⟨rfl, fun _ => rfl, fun h => absurd (Or.inl rfl) h⟩
  | @leave u us hint last s evs x s' _ ih =>
    obtain ⟨hnone, hover, hleft⟩ := ih hcheck
    have hiff : Over L (u :: us) L.limit ↔ Over L us 0 := by
      constructor
      · rintro (hnil | ⟨-, htail⟩)
        · cases hnil
        · exact Or.inl htail
      · rintro (rfl | ⟨hzero, -⟩)
        · exact Or.inr ⟨rfl, rfl⟩
        · omega
    rw [hiff]
    exact ⟨hnone, hover, hleft⟩
  | asleep hn hrest =>
    obtain ⟨hle, hoff⟩ := hL.rested hrest
    obtain rfl := hsame hcheck hle (hoff _ rfl)
    exact ⟨attempts_rest hrest, fun h => absurd h (hnot hn), fun _ => rfl⟩
  | ended hn hrest hcheck' =>
    obtain rfl := hsame hcheck (hL.rested hrest).1 hcheck'
    exact ⟨attempts_rest hrest, fun h => absurd h (hnot hn), fun _ => rfl⟩
  | success htried _ => exact (hL.not_tried htried hcheck).elim
  | stopped htried _ _ => exact (hL.not_tried htried hcheck).elim
  | giveUp htried _ _ _ _ => exact (hL.not_tried htried hcheck).elim
  | again htried _ _ _ _ => exact (hL.not_tried htried hcheck).elim

variable (L) in
/-- The last attempt there can be: the last source is given up, or has been tried enough. -/
def LastTry (us : List υ) (a : Attempt υ σ ε α) : Prop :=
  us.getLast? = some a.source ∧ (a.number + 1 = L.limit ∨ GivesUp L a)

/-- The first source is the last one where there is no other. -/
theorem getLast?_eq_head_iff {u : υ} (hus : (u :: us).Pairwise r) (hr : ∀ u, ¬ r u u) :
    (u :: us).getLast? = some u ↔ us = [] := by
  constructor
  · intro hlast
    cases us with
    | nil => rfl
    | cons v us =>
      have hmem : u ∈ v :: us := by
        rw [List.getLast?_cons_cons] at hlast
        exact List.mem_of_getLast? hlast
      exact absurd (List.rel_of_pairwise_cons hus hmem) (hr u)
  · rintro rfl
    rfl

/-- An earlier source does not matter for who is last. -/
theorem lastTry_cons {u : υ} (ha : a.source ∈ us) : LastTry L (u :: us) a ↔ LastTry L us a := by
  cases us with
  | nil => cases ha
  | cons v us => rw [LastTry, LastTry, List.getLast?_cons_cons]

/-- **What a ladder does that is called off during an attempt.**  If the attempt fails and does
not stop the ladder, it is the last one, and the ladder says that it was called off; unless there
was nothing left to try, and it is exhausted. -/
theorem Climbs.called_off_during (h : Climbs L us n hint last s evs x s') (hL : Timed L time)
    (hpos : 0 < L.limit) (hus : us.Pairwise r) (hr : ∀ u, ¬ r u u) :
    ∀ a ∈ attempts evs, ∀ e, a.result = .error e → L.verdict e ≠ .stop →
      L.check a.after = some c → ∃ init, attempts evs = init ++ [a] ∧
        (LastTry L us a → x = .exhausted (some (a.source, a.number, e))) ∧
        (¬ LastTry L us a → x = .interrupted c) := by
  induction h with
  | exhausted => exact fun a ha => absurd ha List.not_mem_nil
  | asleep _ hrest | ended _ hrest _ =>
    rw [attempts_rest hrest]
    exact fun a ha => absurd ha List.not_mem_nil
  | leave h ih =>
    intro a ha e hresult hverdict hcheck
    rw [lastTry_cons (h.attempted a ha).1]
    exact ih hus.of_cons a ha e hresult hverdict hcheck
  | success htried hok =>
    rw [htried.attempts_eq]
    intro a ha e hresult
    obtain rfl := List.mem_singleton.mp ha
    rw [hok] at hresult
    cases hresult
  | stopped htried herr hstop =>
    rw [htried.attempts_eq]
    intro a ha e hresult hverdict
    obtain rfl := List.mem_singleton.mp ha
    cases herr.symm.trans hresult
    exact absurd hstop hverdict
  | @giveUp us hint last s rest a e evs x s' htried herr hgive h ih =>
    rw [htried.attempts_eq]
    intro b hb e' hresult hverdict hcheck
    rcases List.mem_cons.mp hb with rfl | hb
    · cases herr.symm.trans hresult
      obtain ⟨hnone, hover, hleft⟩ := h.called_off hL hpos hcheck
      have hiff : LastTry L (b.source :: us) b ↔ Over L us 0 := by
        rw [LastTry, getLast?_eq_head_iff hus hr]
        constructor
        · rintro ⟨hnil, -⟩
          exact Or.inl hnil
        · rintro (hnil | ⟨hzero, -⟩)
          · exact ⟨hnil, Or.inr ⟨e, hresult, hgive⟩⟩
          · omega
      rw [hiff, hnone]
      exact ⟨[], rfl, hover, hleft⟩
    · obtain ⟨init, heq, hrest⟩ := ih hus.of_cons b hb e' hresult hverdict hcheck
      rw [lastTry_cons (h.attempted b hb).1, heq]
      exact ⟨a :: init, rfl, hrest⟩
  | @again us hint hint' last s rest a e evs x s' htried herr hagain h ih =>
    rw [htried.attempts_eq]
    intro b hb e' hresult hverdict hcheck
    rcases List.mem_cons.mp hb with rfl | hb
    · cases herr.symm.trans hresult
      obtain ⟨hnone, hover, hleft⟩ := h.called_off hL hpos hcheck
      have hiff : LastTry L (b.source :: us) b ↔ Over L (b.source :: us) (b.number + 1) := by
        rw [LastTry, getLast?_eq_head_iff hus hr]
        constructor
        · rintro ⟨hnil, hlimit | ⟨e', hresult', hgive⟩⟩
          · exact Or.inr ⟨hlimit, hnil⟩
          · cases hresult.symm.trans hresult'
            rw [hagain] at hgive
            cases hgive
        · rintro (hnil | ⟨hlimit, hnil⟩)
          · cases hnil
          · exact ⟨hnil, Or.inl hlimit⟩
      rw [hiff, hnone]
      exact ⟨[], rfl, hover, hleft⟩
    · obtain ⟨init, heq, hrest⟩ := ih hus b hb e' hresult hverdict hcheck
      rw [heq]
      exact ⟨a :: init, rfl, hrest⟩

end

end Retry
