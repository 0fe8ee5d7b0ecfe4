import PureSimdjson.LockScripts
import PureSimdjson.Threads

/-!
# Orderly calls return

`Sound` says what each thread has in hand, and that its script leads from there to empty
hands.  Every move keeps it (`Sound.move`).  Where it holds, a thread that is blocked waits
for another that has a lock of a higher rank in hand, or a reservation; ranks are bounded, so
that one of them can go on.
-/
namespace Locking

open Runs Threads

/-! ## Who has what -/

section
variable {T L : Type} [DecidableEq T] [DecidableEq L] {writer : L → Option T}
  {readers : L → Finset T} {hands : T → List L} {l : L} {t : T}

/-- The writers are those with the lock in hand. -/
structure Written (writer : L → Option T) (hands : T → List L) : Prop where
  iff : ∀ l t, writer l = some t ↔ l ∈ hands t
  nodup : ∀ t, (hands t).Nodup

/-- The readers are those with the lock in hand. -/
structure ReadBy (readers : L → Finset T) (hands : T → List L) : Prop where
  iff : ∀ l t, t ∈ readers l ↔ l ∈ hands t
  nodup : ∀ t, (hands t).Nodup

theorem Written.take (h : Written writer hands) (hfree : writer l = none) :
    Written (Function.update writer l (some t)) (Function.update hands t (l :: hands t)) := by
  have hnobody : ∀ t', l ∉ hands t' := fun t' hl => by
    have hsome := (h.iff l t').mpr hl
    rw [hfree] at hsome
    cases hsome
  refine ⟨fun l' t' => ?_, fun t' => ?_⟩
  · by_cases ht : t' = t
    · subst ht
      rw [Function.update_self, List.mem_cons]
      by_cases hl : l' = l
      · subst hl
        simp
      · rw [Function.update_of_ne hl, h.iff]
        simp [hl]
    · rw [Function.update_of_ne ht]
      by_cases hl : l' = l
      · subst hl
        rw [Function.update_self]
        constructor
        · intro heq
          exact absurd (Option.some.inj heq).symm ht
        · intro hmem
          exact absurd hmem (hnobody t')
      · rw [Function.update_of_ne hl, h.iff]
  · by_cases ht : t' = t
    · subst ht
      rw [Function.update_self]
      exact List.nodup_cons.mpr ⟨hnobody t', h.nodup t'⟩
    · rw [Function.update_of_ne ht]
      exact h.nodup t'

theorem Written.give (h : Written writer hands) (hmem : l ∈ hands t) :
    Written (Function.update writer l none)
      (Function.update hands t ((hands t).erase l)) := by
  have howner : writer l = some t := (h.iff l t).mpr hmem
  refine ⟨fun l' t' => ?_, fun t' => ?_⟩
  · by_cases ht : t' = t
    · subst ht
      rw [Function.update_self, (h.nodup t').mem_erase_iff]
      by_cases hl : l' = l
      · subst hl
        simp
      · rw [Function.update_of_ne hl, h.iff]
        simp [hl]
    · rw [Function.update_of_ne ht]
      by_cases hl : l' = l
      · subst hl
        rw [Function.update_self]
        constructor
        · intro heq
          cases heq
        · intro hmem'
          have howner' := (h.iff l' t').mpr hmem'
          rw [howner] at howner'
          exact absurd (Option.some.inj howner').symm ht
      · rw [Function.update_of_ne hl, h.iff]
  · by_cases ht : t' = t
    · subst ht
      rw [Function.update_self]
      exact (h.nodup t').erase l
    · rw [Function.update_of_ne ht]
      exact h.nodup t'

theorem ReadBy.take (h : ReadBy readers hands) (hfresh : l ∉ hands t) :
    ReadBy (Function.update readers l (insert t (readers l)))
      (Function.update hands t (l :: hands t)) := by
  refine ⟨fun l' t' => ?_, fun t' => ?_⟩
  · by_cases hl : l' = l
    · subst hl
      rw [Function.update_self, Finset.mem_insert, h.iff]
      by_cases ht : t' = t
      · subst ht
        rw [Function.update_self]
        simp
      · rw [Function.update_of_ne ht]
        simp [ht]
    · rw [Function.update_of_ne hl, h.iff]
      by_cases ht : t' = t
      · subst ht
        rw [Function.update_self]
        simp [hl]
      · rw [Function.update_of_ne ht]
  · by_cases ht : t' = t
    · subst ht
      rw [Function.update_self]
      exact List.nodup_cons.mpr ⟨hfresh, h.nodup t'⟩
    · rw [Function.update_of_ne ht]
      exact h.nodup t'

theorem ReadBy.give (h : ReadBy readers hands) :
    ReadBy (Function.update readers l ((readers l).erase t))
      (Function.update hands t ((hands t).erase l)) := by
  refine ⟨fun l' t' => ?_, fun t' => ?_⟩
  · by_cases ht : t' = t
    · subst ht
      rw [Function.update_self, (h.nodup t').mem_erase_iff]
      by_cases hl : l' = l
      · subst hl
        rw [Function.update_self]
        simp
      · rw [Function.update_of_ne hl, h.iff]
        simp [hl]
    · rw [Function.update_of_ne ht]
      by_cases hl : l' = l
      · subst hl
        rw [Function.update_self, Finset.mem_erase, h.iff]
        simp [ht]
      · rw [Function.update_of_ne hl, h.iff]
  · by_cases ht : t' = t
    · subst ht
      rw [Function.update_self]
      exact (h.nodup t').erase l
    · rw [Function.update_of_ne ht]
      exact h.nodup t'

end

section
variable {T L : Type} [DecidableEq T] [DecidableEq L] {rank : L → Nat} {monitor : L}
  {c c' : Config T L} {hand : T → Hand L} {t : T}

/-! ## What every move keeps -/

/-- A thread's script leads from what it has in hand to empty hands. -/
def Place.Follows (rank : L → Nat) (monitor : L) : Hand L → Place L → Prop
  | hand, .running s => s.Leads rank monitor hand .empty
  | hand, .parked rest => hand = .empty ∧ rest.Leads rank monitor ⟨[monitor], [], false⟩ .empty

/-- **What each thread has in hand**, and that nobody waits to be woken for nothing. -/
structure Sound (rank : L → Nat) (monitor : L) (c : Config T L) (hand : T → Hand L) :
    Prop where
  follows : ∀ t, (c.place t).Follows rank monitor (hand t)
  written : Written c.writer fun t => (hand t).written
  read : ReadBy c.readers fun t => (hand t).read
  reserved : Counts (fun h : Hand L => h.reserved = true) hand c.reserved
  parked : ∀ t rest, c.place t = .parked rest → c.reserved ≠ 0

theorem Place.Follows.wake {p : Place L} {h : Hand L} (hp : p.Follows rank monitor h) :
    (p.wake monitor).Follows rank monitor h := by
  cases p with
  | running s => exact hp
  | parked rest =>
    obtain ⟨rfl, hrest⟩ := hp
    refine ⟨?_, ⟨⟨[], rfl, ?_⟩, rfl, hrest⟩⟩ <;>
      · intro k hk
        cases hk

omit [DecidableEq L] in
theorem Place.wake_running (monitor : L) (p : Place L) : ∃ s, p.wake monitor = .running s := by
  cases p with
  | running s => exact ⟨s, rfl⟩
  | parked rest => exact ⟨_, rfl⟩

omit [DecidableEq T] in
theorem Sound.start : Sound rank monitor (Config.start : Config T L) fun _ => .empty where
  follows _ := rfl
  written := ⟨fun _ _ => by simp [Config.start, Hand.empty], fun _ => List.nodup_nil⟩
  read := ⟨fun _ _ => by simp [Config.start, Hand.empty], fun _ => List.nodup_nil⟩
  reserved := Counts.none fun _ h => by cases h
  parked _ _ h := by cases h

/-- A thread has other things in hand, and the others have what they had. -/
theorem Sound.rearranged {h : Hand L} {place : T → Place L} {p : Place L}
    (hplace : c'.place = Function.update place t p) (hself : p.Follows rank monitor h)
    (hothers : ∀ t', (place t').Follows rank monitor (hand t'))
    (hwritten : Written c'.writer (Function.update (fun t => (hand t).written) t h.written))
    (hread : ReadBy c'.readers (Function.update (fun t => (hand t).read) t h.read))
    (hreserved : Counts (fun h : Hand L => h.reserved = true) (Function.update hand t h)
      c'.reserved)
    (hparked : ∀ t' rest, c'.place t' = .parked rest → c'.reserved ≠ 0) :
    Sound rank monitor c' (Function.update hand t h) where
  follows t' := by
    rw [hplace]
    by_cases ht : t' = t
    · subst ht
      rw [Function.update_self, Function.update_self]
      exact hself
    · rw [Function.update_of_ne ht, Function.update_of_ne ht]
      exact hothers t'
  written := by
    have heq : (fun t' => (Function.update hand t h t').written) =
        Function.update (fun t' => (hand t').written) t h.written :=
      funext fun t' => Function.apply_update (fun _ h' => h'.written) hand t h t'
    rw [heq]
    exact hwritten
  read := by
    have heq : (fun t' => (Function.update hand t h t').read) =
        Function.update (fun t' => (hand t').read) t h.read :=
      funext fun t' => Function.apply_update (fun _ h' => h'.read) hand t h t'
    rw [heq]
    exact hread
  reserved := hreserved
  parked := hparked

/-- A thread goes on with other things in hand, and nobody is woken. -/
theorem Sound.turn {h : Hand L} {s : Script L} (hc : Sound rank monitor c hand)
    (hleads : s.Leads rank monitor h .empty)
    (hplace : c'.place = Function.update c.place t (.running s))
    (hwritten : Written c'.writer (Function.update (fun t => (hand t).written) t h.written))
    (hread : ReadBy c'.readers (Function.update (fun t => (hand t).read) t h.read))
    (hreserved : Counts (fun h : Hand L => h.reserved = true) (Function.update hand t h)
      c'.reserved)
    (hmore : c.reserved ≤ c'.reserved) :
    Sound rank monitor c' (Function.update hand t h) := by
  refine .rearranged hplace hleads hc.follows hwritten hread hreserved fun t' rest hp => ?_
  have hsome : c.reserved ≠ 0 := by
    rw [hplace] at hp
    by_cases ht : t' = t
    · subst ht
      rw [Function.update_self] at hp
      cases hp
    · rw [Function.update_of_ne ht] at hp
      exact hc.parked t' rest hp
  omega

/-- A thread goes on with what it has in hand. -/
theorem Sound.goto {s : Script L} (hc : Sound rank monitor c hand)
    (hleads : s.Leads rank monitor (hand t) .empty) :
    Sound rank monitor (c.goto t s) hand := by
  have hwritten := hc.written
  have hread := hc.read
  have hreserved := hc.reserved
  rw [← Function.update_eq_self t fun t => (hand t).written] at hwritten
  rw [← Function.update_eq_self t fun t => (hand t).read] at hread
  rw [← Function.update_eq_self t hand] at hreserved ⊢
  exact hc.turn hleads rfl hwritten hread hreserved le_rfl

/-- **A move of a call keeps the account of who has what.** -/
theorem Sound.advance (hc : Sound rank monitor c hand) (h : Advances monitor c t c') :
    ∃ hand', Sound rank monitor c' hand' := by
  have hfollows := hc.follows t
  have hwritten := hc.written
  have hread := hc.read
  have hreserved := hc.reserved
  cases h with
  | @lock l rest hat hfree =>
    rw [hat] at hfollows
    obtain ⟨-, hleads⟩ := hfollows
    refine ⟨_, hc.turn (h := { hand t with written := l :: (hand t).written }) hleads rfl
      (hwritten.take hfree) ?_ (hreserved.keep Iff.rfl) le_rfl⟩
    rw [Function.update_eq_self]
    exact hread
  | @got l got missed hat hfree =>
    rw [hat] at hfollows
    obtain ⟨hleads, -⟩ := hfollows
    refine ⟨_, hc.turn (h := { hand t with written := l :: (hand t).written }) hleads rfl
      (hwritten.take hfree) ?_ (hreserved.keep Iff.rfl) le_rfl⟩
    rw [Function.update_eq_self]
    exact hread
  | @unlock l rest hat =>
    rw [hat] at hfollows
    obtain ⟨hmem, hleads⟩ := hfollows
    refine ⟨_, hc.turn (h := { hand t with written := (hand t).written.erase l }) hleads rfl
      (hwritten.give hmem) ?_ (hreserved.keep Iff.rfl) le_rfl⟩
    rw [Function.update_eq_self]
    exact hread
  | @rlock l rest hat _ =>
    rw [hat] at hfollows
    obtain ⟨hbelow, hleads⟩ := hfollows
    have hfresh : l ∉ (hand t).read := fun hmem =>
      absurd (hbelow l (List.mem_append_right _ hmem)) (lt_irrefl _)
    refine ⟨_, hc.turn (h := { hand t with read := l :: (hand t).read }) hleads rfl ?_
      (hread.take hfresh) (hreserved.keep Iff.rfl) le_rfl⟩
    rw [Function.update_eq_self]
    exact hwritten
  | @runlock l rest hat =>
    rw [hat] at hfollows
    obtain ⟨-, hleads⟩ := hfollows
    refine ⟨_, hc.turn (h := { hand t with read := (hand t).read.erase l }) hleads rfl ?_
      hread.give (hreserved.keep Iff.rfl) le_rfl⟩
    rw [Function.update_eq_self]
    exact hwritten
  | drain hat _ =>
    rw [hat] at hfollows
    exact ⟨hand, hc.goto hfollows.2⟩
  | missed hat =>
    rw [hat] at hfollows
    exact ⟨hand, hc.goto hfollows.2⟩
  | left hat =>
    rw [hat] at hfollows
    exact ⟨hand, hc.goto hfollows.1⟩
  | right hat =>
    rw [hat] at hfollows
    exact ⟨hand, hc.goto hfollows.2⟩
  | pass hat _ =>
    rw [hat] at hfollows
    exact ⟨hand, hc.goto hfollows.2⟩
  | reserve hat =>
    rw [hat] at hfollows
    obtain ⟨-, hnone, hleads⟩ := hfollows
    have hbefore : ¬ (hand t).reserved = true := by simp [hnone]
    refine ⟨_, hc.turn (h := { hand t with reserved := true }) hleads rfl ?_ ?_
      (hreserved.enter hbefore rfl) (Nat.le_succ _)⟩
    · rw [Function.update_eq_self]
      exact hwritten
    · rw [Function.update_eq_self]
      exact hread
  | @release rest hat =>
    rw [hat] at hfollows
    obtain ⟨-, hsome, hleads⟩ := hfollows
    -- the reservation that is released is one of those that are counted
    obtain ⟨n, hn⟩ := Nat.exists_eq_succ_of_ne_zero (hreserved.pos hsome).ne'
    rw [hn] at hreserved
    have hpred : c.reserved - 1 = n := by omega
    refine ⟨_, .rearranged (h := { hand t with reserved := false }) rfl hleads
      (fun t' => (hc.follows t').wake) ?_ ?_ ?_ (fun t' rest' hp => ?_)⟩
    · rw [Function.update_eq_self]
      exact hwritten
    · rw [Function.update_eq_self]
      exact hread
    · show Counts _ _ (c.reserved - 1)
      rw [hpred]
      exact hreserved.leave hsome Bool.false_ne_true
    · -- whoever was parked has been woken
      have hplace : Function.update (fun t' => (c.place t').wake monitor) t (.running rest) t' =
        .parked rest' := hp
      by_cases ht : t' = t
      · subst ht
        rw [Function.update_self] at hplace
        cases hplace
      · rw [Function.update_of_ne ht] at hplace
        obtain ⟨s, hs⟩ := Place.wake_running monitor (c.place t')
        rw [hs] at hplace
        cases hplace
  | @park rest hat hsome =>
    rw [hat] at hfollows
    obtain ⟨hhand, hleads⟩ := hfollows
    have hmem : monitor ∈ (hand t).written := by
      rw [hhand]
      exact List.mem_singleton_self monitor
    have herase : (hand t).written.erase monitor = [] := by
      rw [hhand]
      exact List.erase_cons_head monitor []
    have hgive := hwritten.give hmem
    rw [herase] at hgive
    rw [hhand] at hleads
    refine ⟨_, .rearranged (h := .empty) rfl ⟨rfl, hleads⟩ hc.follows hgive ?_ ?_
      (fun _ _ _ => hsome)⟩
    · have hnone : (hand t).read = [] := by rw [hhand]
      have hread' := hread
      rw [← Function.update_eq_self t fun t => (hand t).read, hnone] at hread'
      exact hread'
    · apply hreserved.keep
      rw [hhand]
      exact Iff.rfl

/-- Every move keeps the account, if calls are orderly. -/
theorem Sound.move {calls : Script L → Prop} (horder : ∀ s, calls s → s.Orderly rank monitor)
    (hc : Sound rank monitor c hand) (h : Moves monitor calls c t c') :
    ∃ hand', Sound rank monitor c' hand' := by
  cases h with
  | begin hidle hcall =>
    have hempty : hand t = .empty := by
      have hfollows := hc.follows t
      rw [hidle] at hfollows
      exact hfollows
    have hleads := horder _ hcall
    rw [Script.Orderly, ← hempty] at hleads
    refine ⟨hand, hc.goto ?_⟩
    rw [hempty] at hleads ⊢
    exact hleads
  | advance hadv => exact hc.advance hadv

theorem Sound.run {calls : Script L → Prop} (horder : ∀ s, calls s → s.Orderly rank monitor)
    {ls : List T} (hrun : Run (Moves monitor calls) c ls c') (hc : Sound rank monitor c hand) :
    ∃ hand', Sound rank monitor c' hand' :=
  hrun.invariant (I := fun c => ∃ hand, Sound rank monitor c hand)
    (fun _ _ _ ⟨_, hc⟩ hmove => hc.move horder hmove) ⟨hand, hc⟩

/-! ## No deadlock -/

/-- A thread cannot go on with its call. -/
def Stuck (monitor : L) (c : Config T L) (t : T) : Prop := ∀ c', ¬ Advances monitor c t c'

/-- What a thread that cannot go on waits for. -/
inductive Waits (c : Config T L) : Place L → Prop where
  | writer {l : L} {rest : Script L} {t : T} (h : c.writer l = some t) :
      Waits c (.running (.lock l rest))
  | writerGone {l : L} {rest : Script L} {t : T} (h : c.writer l = some t) :
      Waits c (.running (.rlock l rest))
  | readers {l : L} {rest : Script L} {t : T} (h : t ∈ c.readers l) :
      Waits c (.running (.drain l rest))
  | woken (rest : Script L) : Waits c (.parked rest)

theorem Stuck.waits (hstuck : Stuck monitor c t) (hin : ¬ (c.place t).Idle) :
    Waits c (c.place t) := by
  cases hat : c.place t with
  | parked rest => exact .woken rest
  | running s =>
    cases s with
    | done =>
      rw [hat] at hin
      exact absurd trivial hin
    | lock l rest =>
      cases howner : c.writer l with
      | none => exact absurd (.lock hat howner) (hstuck _)
      | some t' => exact .writer howner
    | rlock l rest =>
      cases howner : c.writer l with
      | none => exact absurd (.rlock hat howner) (hstuck _)
      | some t' => exact .writerGone howner
    | drain l rest =>
      rcases (c.readers l).eq_empty_or_nonempty with hnone | ⟨t', ht'⟩
      · exact absurd (.drain hat hnone) (hstuck _)
      · exact .readers ht'
    | unlock l rest => exact absurd (.unlock hat) (hstuck _)
    | runlock l rest => exact absurd (.runlock hat) (hstuck _)
    | tryLock l got missed => exact absurd (.missed hat) (hstuck _)
    | branch left right => exact absurd (.left hat) (hstuck _)
    | reserve rest => exact absurd (.reserve hat) (hstuck _)
    | release rest => exact absurd (.release hat) (hstuck _)
    | await rest =>
      by_cases hzero : c.reserved = 0
      · exact absurd (.pass hat hzero) (hstuck _)
      · exact absurd (.park hat hzero) (hstuck _)

/-- How far up a thread waits.  Waiting for the readers of a lock is above waiting for its
writer. -/
def Place.level (rank : L → Nat) : Place L → Nat
  | .running (.lock l _) | .running (.rlock l _) => 2 * rank l
  | .running (.drain l _) => 2 * rank l + 1
  | _ => 0

omit [DecidableEq T] in
theorem Sound.writer_ne_empty (hc : Sound rank monitor c hand) {l : L}
    (howner : c.writer l = some t) : hand t ≠ .empty := by
  intro hempty
  have hmem := (hc.written.iff l t).mp howner
  rw [hempty] at hmem
  cases hmem

omit [DecidableEq T] in
theorem Sound.reader_ne_empty (hc : Sound rank monitor c hand) {l : L}
    (hreader : t ∈ c.readers l) : hand t ≠ .empty := by
  intro hempty
  have hmem := (hc.read.iff l t).mp hreader
  rw [hempty] at hmem
  cases hmem

omit [DecidableEq T] in
/-- A thread with something in hand is in a call, and has not been parked. -/
theorem Sound.running (hc : Sound rank monitor c hand) (hsome : hand t ≠ .empty) :
    ∃ s, c.place t = .running s ∧ s.Leads rank monitor (hand t) .empty ∧
      ¬ (c.place t).Idle := by
  have hfollows := hc.follows t
  cases hat : c.place t with
  | parked rest =>
    rw [hat] at hfollows
    exact absurd hfollows.1 hsome
  | running s =>
    rw [hat] at hfollows
    refine ⟨s, rfl, hfollows, ?_⟩
    cases s with
    | done => exact absurd hfollows hsome
    | _ => exact id

/-- **Who has a lock in hand waits above it.**  A reader waits above those who wait for the
readers to leave. -/
theorem Sound.level_lt (hc : Sound rank monitor c hand) (hstuck : Stuck monitor c t) {l : L} :
    (l ∈ (hand t).written → 2 * rank l < (c.place t).level rank) ∧
      (l ∈ (hand t).read → 2 * rank l + 1 < (c.place t).level rank) := by
  by_cases hempty : hand t = .empty
  · rw [hempty]
    refine ⟨fun h => ?_, fun h => ?_⟩ <;> cases h
  · obtain ⟨s, hat, hleads, hin⟩ := hc.running hempty
    have hwaits := hstuck.waits hin
    rw [hat] at hwaits ⊢
    cases hwaits with
    | @writer l' rest _ _ =>
      obtain ⟨hbelow, -⟩ := hleads
      refine ⟨fun h => ?_, fun h => ?_⟩
      · have hlt := hbelow l (List.mem_append_left _ h)
        show 2 * rank l < 2 * rank l'
        omega
      · have hlt := hbelow l (List.mem_append_right _ h)
        show 2 * rank l + 1 < 2 * rank l'
        omega
    | @writerGone l' rest _ _ =>
      obtain ⟨hbelow, -⟩ := hleads
      refine ⟨fun h => ?_, fun h => ?_⟩
      · have hlt := hbelow l (List.mem_append_left _ h)
        show 2 * rank l < 2 * rank l'
        omega
      · have hlt := hbelow l (List.mem_append_right _ h)
        show 2 * rank l + 1 < 2 * rank l'
        omega
    | @readers l' rest _ _ =>
      obtain ⟨⟨written, hwritten, hbelow⟩, -⟩ := hleads
      refine ⟨fun h => ?_, fun h => ?_⟩
      · rw [hwritten] at h
        show 2 * rank l < 2 * rank l' + 1
        rcases List.mem_cons.mp h with rfl | h
        · omega
        · have hlt := hbelow l (List.mem_append_left _ h)
          omega
      · have hlt := hbelow l (List.mem_append_right _ h)
        show 2 * rank l + 1 < 2 * rank l' + 1
        omega

/-- Following who waits for whom leads to a thread that can go on. -/
theorem Sound.holder_advances (hc : Sound rank monitor c hand) {top : Nat}
    (htop : ∀ l, rank l < top) (n : Nat) (hlevel : 2 * top ≤ n + (c.place t).level rank)
    (hsome : hand t ≠ .empty) : ∃ t' c', Advances monitor c t' c' := by
  induction n generalizing t with
  | zero =>
    obtain ⟨s, hat, -, -⟩ := hc.running hsome
    rw [hat] at hlevel
    have hbound : (Place.running s).level rank < 2 * top := by
      have hpos : 0 < top := Nat.zero_lt_of_lt (htop monitor)
      cases s with
      | lock l rest | rlock l rest | drain l rest =>
        have h := htop l
        simp only [Place.level]
        omega
      | _ =>
        simp only [Place.level]
        omega
    omega
  | succ n ih =>
    by_cases hstuck : Stuck monitor c t
    · obtain ⟨s, hat, hleads, hin⟩ := hc.running hsome
      have hwaits := hstuck.waits hin
      rw [hat] at hwaits hlevel
      cases hwaits with
      | @writer l rest t' howner | @writerGone l rest t' howner =>
        have hmem := (hc.written.iff l t').mp howner
        by_cases hstuck' : Stuck monitor c t'
        · have hlt := (hc.level_lt hstuck' (l := l)).1 hmem
          simp only [Place.level] at hlevel
          exact ih (t := t') (by omega) (hc.writer_ne_empty howner)
        · simp only [Stuck, not_forall, not_not] at hstuck'
          exact ⟨t', hstuck'⟩
      | @readers l rest t' hreader =>
        have hmem := (hc.read.iff l t').mp hreader
        by_cases hstuck' : Stuck monitor c t'
        · have hlt := (hc.level_lt hstuck' (l := l)).2 hmem
          simp only [Place.level] at hlevel
          exact ih (t := t') (by omega) (hc.reader_ne_empty hreader)
        · simp only [Stuck, not_forall, not_not] at hstuck'
          exact ⟨t', hstuck'⟩
    · simp only [Stuck, not_forall, not_not] at hstuck
      exact ⟨t, hstuck⟩

/-- **While there are calls under way, one of them can go on.** -/
theorem Sound.advances (hc : Sound rank monitor c hand) {top : Nat}
    (htop : ∀ l, rank l < top) (hin : ¬ (c.place t).Idle) :
    ∃ t' c', Advances monitor c t' c' := by
  have hholder : ∀ t', hand t' ≠ .empty → ∃ t' c', Advances monitor c t' c' := fun t' =>
    hc.holder_advances htop (2 * top) (Nat.le_add_right _ _)
  by_cases hstuck : Stuck monitor c t
  · have hwaits := hstuck.waits hin
    cases hat : c.place t with
    | parked rest =>
      -- somebody has the reservation that it waits for
      obtain ⟨S, hS, hcard⟩ := hc.reserved
      have hpos : 0 < S.card := by
        have := hc.parked t rest hat
        omega
      obtain ⟨t', ht'⟩ := Finset.card_pos.mp hpos
      have hreserved := (hS t').mp ht'
      refine hholder t' fun hempty => ?_
      rw [hempty] at hreserved
      cases hreserved
    | running s =>
      rw [hat] at hwaits
      cases hwaits with
      | @writer l rest t' howner | @writerGone l rest t' howner =>
        exact hholder t' (hc.writer_ne_empty howner)
      | @readers l rest t' hreader => exact hholder t' (hc.reader_ne_empty hreader)
  · simp only [Stuck, not_forall, not_not] at hstuck
    exact ⟨t, hstuck⟩

omit [DecidableEq T] in
/-- A reservation that is released is there. -/
theorem Sound.release_ne_zero (hc : Sound rank monitor c hand) {rest : Script L}
    (hat : c.place t = .running (.release rest)) : c.reserved ≠ 0 := by
  have hfollows := hc.follows t
  rw [hat] at hfollows
  obtain ⟨-, hreserved, -⟩ := hfollows
  exact (hc.reserved.pos hreserved).ne'

omit [DecidableEq T] in
/-- When no call is under way, nobody has anything. -/
theorem Sound.quiet (hc : Sound rank monitor c hand) (hidle : ∀ t, (c.place t).Idle) :
    c = Config.start := by
  have hdone : ∀ t, c.place t = .running .done := fun t => by
    have h := hidle t
    revert h
    cases c.place t with
    | parked rest => exact fun h => absurd h id
    | running s =>
      cases s with
      | done => exact fun _ => rfl
      | _ => exact fun h => absurd h id
  have hempty : ∀ t, hand t = .empty := fun t => by
    have hfollows := hc.follows t
    rw [hdone t] at hfollows
    exact hfollows
  have hwriter : ∀ l, c.writer l = none := fun l => by
    cases howner : c.writer l with
    | none => rfl
    | some t => exact absurd (hempty t) (hc.writer_ne_empty howner)
  have hreaders : ∀ l, c.readers l = ∅ := fun l =>
    Finset.eq_empty_of_forall_notMem fun t ht => hc.reader_ne_empty ht (hempty t)
  have hreserved : c.reserved = 0 := by
    obtain ⟨S, hS, hcard⟩ := hc.reserved
    have hnone : S = ∅ := Finset.eq_empty_of_forall_notMem fun t ht => by
      have h := (hS t).mp ht
      rw [hempty] at h
      cases h
    rw [← hcard, hnone]
    rfl
  cases c with
  | mk writer readers reserved place =>
    rw [Config.start, Config.mk.injEq]
    exact ⟨funext hwriter, funext hreaders, hreserved, funext hdone⟩

end

/-! ## No livelock

A call that waits may be woken, and wait again, as often as a reservation is released.  A
release outweighs all that it can wake. -/

/-- How many moves a script can take, where a release counts for `w` more. -/
def Script.cost {L : Type} (w : Nat) : Script L → Nat
  | .done => 0
  | .lock _ rest | .drain _ rest | .unlock _ rest | .rlock _ rest | .runlock _ rest
  | .reserve rest => rest.cost w + 1
  | .tryLock _ left right | .branch left right => max (left.cost w) (right.cost w) + 1
  | .release rest => rest.cost w + w + 1
  | .await rest => rest.cost w + 2

def Place.cost {L : Type} (w : Nat) : Place L → Nat
  | .running s => s.cost w
  | .parked rest => rest.cost w + 1

/-- How many moves the calls under way can take. -/
def Config.cost {T L : Type} [Fintype T] (c : Config T L) : Nat :=
  ∑ t, (c.place t).cost (3 * Fintype.card T)

section
variable {T L : Type} [DecidableEq T] [DecidableEq L] {monitor : L} {c c' : Config T L} {t : T}

omit [DecidableEq L] in
theorem Place.cost_wake_le (w : Nat) (p : Place L) : (p.wake monitor).cost w ≤ p.cost w + 3 := by
  cases p with
  | running s => exact Nat.le_add_right _ _
  | parked rest =>
    simp only [Place.wake, Place.cost, Script.cost]
    omega

variable [Fintype T]

omit [DecidableEq L] in
theorem Config.cost_update_lt {p : Place L} (hplace : c'.place = Function.update c.place t p)
    (hlt : p.cost (3 * Fintype.card T) < (c.place t).cost (3 * Fintype.card T)) :
    c'.cost < c.cost := by
  rw [Config.cost, Config.cost, hplace]
  apply Finset.sum_lt_sum
  · intro t' _
    by_cases ht : t' = t
    · subst ht
      rw [Function.update_self]
      exact hlt.le
    · rw [Function.update_of_ne ht]
  · refine ⟨t, Finset.mem_univ t, ?_⟩
    rw [Function.update_self]
    exact hlt

omit [DecidableEq L] in
theorem Config.cost_release_lt {rest : Script L} (hat : c.place t = .running (.release rest))
    (hplace : c'.place =
      Function.update (fun t' => (c.place t').wake monitor) t (.running rest)) :
    c'.cost < c.cost := by
  have hself : (c.place t).cost (3 * Fintype.card T) =
      rest.cost (3 * Fintype.card T) + 3 * Fintype.card T + 1 := by
    rw [hat, Place.cost, Script.cost]
  have hothers : ∑ t' ∈ Finset.univ.erase t, (c'.place t').cost (3 * Fintype.card T) ≤
      ∑ t' ∈ Finset.univ.erase t, ((c.place t').cost (3 * Fintype.card T) + 3) := by
    apply Finset.sum_le_sum
    intro t' ht'
    rw [hplace, Function.update_of_ne (Finset.ne_of_mem_erase ht')]
    exact Place.cost_wake_le _ _
  have hsplit := Finset.add_sum_erase Finset.univ
    (fun t' => (c.place t').cost (3 * Fintype.card T)) (Finset.mem_univ t)
  have hsplit' := Finset.add_sum_erase Finset.univ
    (fun t' => (c'.place t').cost (3 * Fintype.card T)) (Finset.mem_univ t)
  have hself' : (c'.place t).cost (3 * Fintype.card T) = rest.cost (3 * Fintype.card T) := by
    rw [hplace, Function.update_self, Place.cost]
  have hcard : (Finset.univ.erase t).card ≤ Fintype.card T := Finset.card_le_univ _
  rw [Finset.sum_add_distrib, Finset.sum_const, smul_eq_mul] at hothers
  show ∑ t', (c'.place t').cost (3 * Fintype.card T) <
    ∑ t', (c.place t').cost (3 * Fintype.card T)
  simp only [hself] at hsplit
  simp only [hself'] at hsplit'
  omega

/-- **Every move of a call brings the end of the calls nearer.** -/
theorem Advances.cost_lt (h : Advances monitor c t c') : c'.cost < c.cost := by
  cases h with
  | lock hat _ | drain hat _ | unlock hat | rlock hat _ | runlock hat | got hat _ | missed hat
  | left hat | right hat | reserve hat | pass hat _ | park hat _ =>
    refine Config.cost_update_lt rfl ?_
    rw [hat]
    simp only [Place.cost, Script.cost]
    omega
  | release hat => exact Config.cost_release_lt hat rfl

theorem steps_le_cost {ts : List T}
    (hrun : Run (fun c t c' => Advances monitor c t c') c ts c') :
    ts.length + c'.cost ≤ c.cost := by
  induction hrun with
  | nil c => simp
  | cons hadv _ ih =>
    have hlt := hadv.cost_lt
    rw [List.length_cons]
    omega

/-- **Orderly calls return.**  From wherever calls have brought things, the calls under way
take a bounded number of moves if no more begin; as long as there are any, one of them can
go on; a reservation that is released is there; and when they have all returned, everything is
as at the start. -/
theorem orderly_return {rank : L → Nat} {top : Nat} (htop : ∀ l, rank l < top)
    {calls : Script L → Prop} (horder : ∀ s, calls s → s.Orderly rank monitor)
    {before after : List T} (hreach : Run (Moves monitor calls) Config.start before c)
    (hrun : Run (fun c t c' => Advances monitor c t c') c after c') :
    after.length ≤ c.cost ∧
      ((∃ t, ¬ (c'.place t).Idle) → ∃ t c'', Advances monitor c' t c'') ∧
      (∀ t rest, c'.place t = .running (.release rest) → c'.reserved ≠ 0) ∧
      ((∀ t, (c'.place t).Idle) → c' = Config.start) := by
  have hstart : Sound rank monitor (Config.start : Config T L) fun _ => .empty := Sound.start
  obtain ⟨hand, hc⟩ := hstart.run horder hreach
  have hmoves : Run (Moves monitor calls) c after c' :=
    hrun.mono fun _ _ _ _ hadv => .advance hadv
  obtain ⟨hand', hc'⟩ := hc.run horder hmoves
  refine ⟨?_, fun ⟨t, hin⟩ => hc'.advances htop hin, fun _ _ => hc'.release_ne_zero, hc'.quiet⟩
  have hle := steps_le_cost hrun
  omega

end
end Locking
