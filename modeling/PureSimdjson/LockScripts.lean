import PureSimdjson.Runs

/-!
# Lock scripts

What a call does with locks is a *script*: which locks it takes and gives back, and in which
order.  Where the call looks at data a script branches.  A lock has one writer at most, and
may have readers; a writer first claims it, so that no reader comes in any more, and then
waits for the readers to leave.  There is one count of reservations, and one lock guards it:
a script can wait, with that lock in hand, until nobody has a reservation.  Waiting gives the
lock back, and a reservation that is released wakes whoever waits.

A script is *orderly* if it takes locks in the order of their ranks, gives back what it took,
and waits with nothing else in hand.  Where all scripts are orderly, calls that are under way
do not block each other for ever: as long as there are any, one of them can go on
(`Sound.advances`), and they can only go on for so long (`steps_le_cost`).
-/
namespace Locking

open Runs

/-- What is left of a call. -/
inductive Script (L : Type) where
  | done
  /-- Claim a lock as its writer. -/
  | lock (l : L) (rest : Script L)
  /-- Wait for the readers of a lock that is claimed. -/
  | drain (l : L) (rest : Script L)
  | unlock (l : L) (rest : Script L)
  | rlock (l : L) (rest : Script L)
  | runlock (l : L) (rest : Script L)
  | tryLock (l : L) (got missed : Script L)
  | branch (left right : Script L)
  | reserve (rest : Script L)
  /-- Give a reservation back, and wake those who wait. -/
  | release (rest : Script L)
  /-- Wait until there are no reservations. -/
  | await (rest : Script L)

/-- Where a thread is. -/
inductive Place (L : Type) where
  | running (s : Script L)
  /-- It waits to be woken, without the lock. -/
  | parked (rest : Script L)

/-- A thread that is in no call. -/
def Place.Idle {L : Type} : Place L → Prop
  | .running .done => True
  | _ => False

structure Config (T L : Type) where
  writer : L → Option T
  readers : L → Finset T
  reserved : Nat
  place : T → Place L

section
variable {T L : Type} [DecidableEq T] [DecidableEq L]

/-- Nobody has any lock, and nobody is in a call. -/
def Config.start : Config T L where
  writer _ := none
  readers _ := ∅
  reserved := 0
  place _ := .running .done

/-- A thread goes on with a script. -/
def Config.goto (c : Config T L) (t : T) (s : Script L) : Config T L :=
  { c with place := Function.update c.place t (.running s) }

/-- A thread that is woken takes the lock again, and looks again. -/
def Place.wake (monitor : L) : Place L → Place L
  | .parked rest => .running (.lock monitor (.drain monitor (.await rest)))
  | .running s => .running s

/-- **What a thread can do next in its call.** -/
inductive Advances (monitor : L) (c : Config T L) (t : T) : Config T L → Prop where
  | lock {l : L} {rest : Script L} (hat : c.place t = .running (.lock l rest))
      (hfree : c.writer l = none) :
      Advances monitor c t { c.goto t rest with writer := Function.update c.writer l (some t) }
  | drain {l : L} {rest : Script L} (hat : c.place t = .running (.drain l rest))
      (hleft : c.readers l = ∅) : Advances monitor c t (c.goto t rest)
  | unlock {l : L} {rest : Script L} (hat : c.place t = .running (.unlock l rest)) :
      Advances monitor c t { c.goto t rest with writer := Function.update c.writer l none }
  | rlock {l : L} {rest : Script L} (hat : c.place t = .running (.rlock l rest))
      (hfree : c.writer l = none) :
      Advances monitor c t
        { c.goto t rest with
          readers := Function.update c.readers l (insert t (c.readers l)) }
  | runlock {l : L} {rest : Script L} (hat : c.place t = .running (.runlock l rest)) :
      Advances monitor c t
        { c.goto t rest with
          readers := Function.update c.readers l ((c.readers l).erase t) }
  | got {l : L} {got missed : Script L} (hat : c.place t = .running (.tryLock l got missed))
      (hfree : c.writer l = none) :
      Advances monitor c t { c.goto t got with writer := Function.update c.writer l (some t) }
  | missed {l : L} {got missed : Script L}
      (hat : c.place t = .running (.tryLock l got missed)) :
      Advances monitor c t (c.goto t missed)
  | left {left right : Script L} (hat : c.place t = .running (.branch left right)) :
      Advances monitor c t (c.goto t left)
  | right {left right : Script L} (hat : c.place t = .running (.branch left right)) :
      Advances monitor c t (c.goto t right)
  | reserve {rest : Script L} (hat : c.place t = .running (.reserve rest)) :
      Advances monitor c t { c.goto t rest with reserved := c.reserved + 1 }
  | release {rest : Script L} (hat : c.place t = .running (.release rest)) :
      Advances monitor c t
        { c with
          reserved := c.reserved - 1
          place := Function.update (fun t' => (c.place t').wake monitor) t (.running rest) }
  | pass {rest : Script L} (hat : c.place t = .running (.await rest)) (hzero : c.reserved = 0) :
      Advances monitor c t (c.goto t rest)
  | park {rest : Script L} (hat : c.place t = .running (.await rest)) (hsome : c.reserved ≠ 0) :
      Advances monitor c t
        { c with
          writer := Function.update c.writer monitor none
          place := Function.update c.place t (.parked rest) }

/-- A thread goes on with its call, or begins one. -/
inductive Moves (monitor : L) (calls : Script L → Prop) :
    Config T L → T → Config T L → Prop where
  | begin {c : Config T L} {t : T} {s : Script L} (hidle : c.place t = .running .done)
      (hcall : calls s) : Moves monitor calls c t (c.goto t s)
  | advance {c c' : Config T L} {t : T} (h : Advances monitor c t c') :
      Moves monitor calls c t c'

end

/-! ## Orderly scripts -/

/-- What a thread has in hand. -/
structure Hand (L : Type) where
  written : List L
  read : List L
  reserved : Bool

/-- With nothing in hand. -/
def Hand.empty {L : Type} : Hand L := ⟨[], [], false⟩

section
variable {L : Type} [DecidableEq L] (rank : L → Nat) (monitor : L)

/-- A lock ranks above all that a thread has in hand. -/
def Hand.Below (hand : Hand L) (l : L) : Prop :=
  ∀ k ∈ hand.written ++ hand.read, rank k < rank l

/-- **A script leads from one hand to another**, and keeps the order on the way. -/
def Script.Leads : Hand L → Script L → Hand L → Prop
  | hand, .done, last => hand = last
  | hand, .lock l rest, last =>
    hand.Below rank l ∧ rest.Leads { hand with written := l :: hand.written } last
  | hand, .drain l rest, last =>
    (∃ written, hand.written = l :: written ∧ Hand.Below rank { hand with written } l) ∧
      rest.Leads hand last
  | hand, .unlock l rest, last =>
    l ∈ hand.written ∧ rest.Leads { hand with written := hand.written.erase l } last
  | hand, .rlock l rest, last =>
    hand.Below rank l ∧ rest.Leads { hand with read := l :: hand.read } last
  | hand, .runlock l rest, last =>
    l ∈ hand.read ∧ rest.Leads { hand with read := hand.read.erase l } last
  | hand, .tryLock l got missed, last =>
    got.Leads { hand with written := l :: hand.written } last ∧ missed.Leads hand last
  | hand, .branch left right, last => left.Leads hand last ∧ right.Leads hand last
  | hand, .reserve rest, last =>
    monitor ∈ hand.written ∧ hand.reserved = false ∧
      rest.Leads { hand with reserved := true } last
  | hand, .release rest, last =>
    monitor ∈ hand.written ∧ hand.reserved = true ∧
      rest.Leads { hand with reserved := false } last
  | hand, .await rest, last => hand = ⟨[monitor], [], false⟩ ∧ rest.Leads hand last

/-- A script that begins and ends with nothing in hand. -/
def Script.Orderly (s : Script L) : Prop := s.Leads rank monitor .empty .empty

end

/-! ## Putting scripts together -/

section
variable {L : Type}

/-- One script after another. -/
def Script.then : Script L → Script L → Script L
  | .done, next => next
  | .lock l rest, next => .lock l (rest.then next)
  | .drain l rest, next => .drain l (rest.then next)
  | .unlock l rest, next => .unlock l (rest.then next)
  | .rlock l rest, next => .rlock l (rest.then next)
  | .runlock l rest, next => .runlock l (rest.then next)
  | .tryLock l got missed, next => .tryLock l (got.then next) (missed.then next)
  | .branch left right, next => .branch (left.then next) (right.then next)
  | .reserve rest, next => .reserve (rest.then next)
  | .release rest, next => .release (rest.then next)
  | .await rest, next => .await (rest.then next)

/-- Scripts one after another. -/
def Script.seq (ss : List (Script L)) : Script L := ss.foldr Script.then .done

/-- One script, so many times. -/
def Script.times (n : Nat) (s : Script L) : Script L := .seq (List.replicate n s)

/-- A script with a lock in hand. -/
def Script.locked (l : L) (body : Script L) : Script L := .lock l (body.then (.unlock l .done))

/-- A script as the writer of a lock that has readers too. -/
def Script.written (l : L) (body : Script L) : Script L :=
  .lock l (.drain l (body.then (.unlock l .done)))

/-- A script as a reader of a lock. -/
def Script.reading (l : L) (body : Script L) : Script L :=
  .rlock l (body.then (.runlock l .done))

/-- A script with a lock in hand, if the lock is free. -/
def Script.trying (l : L) (body missed : Script L) : Script L :=
  .tryLock l (body.then (.unlock l .done)) missed

end

section
variable {L : Type} [DecidableEq L] {rank : L → Nat} {monitor : L}
  {hand mid last : Hand L} {l : L} {a b : Script L}

theorem Script.Leads.then (ha : a.Leads rank monitor hand mid)
    (hb : b.Leads rank monitor mid last) : (a.then b).Leads rank monitor hand last := by
  induction a generalizing hand with
  | done =>
    have heq : hand = mid := ha
    rw [heq]
    exact hb
  | lock l rest ih | drain l rest ih | unlock l rest ih | rlock l rest ih | runlock l rest ih
  | await rest ih =>
    exact ⟨ha.1, ih ha.2⟩
  | tryLock l got missed ihgot ihmissed => exact ⟨ihgot ha.1, ihmissed ha.2⟩
  | branch left right ihleft ihright => exact ⟨ihleft ha.1, ihright ha.2⟩
  | reserve rest ih | release rest ih => exact ⟨ha.1, ha.2.1, ih ha.2.2⟩

theorem Script.Leads.seq {ss : List (Script L)}
    (h : ∀ s ∈ ss, s.Leads rank monitor hand hand) :
    (Script.seq ss).Leads rank monitor hand hand := by
  induction ss with
  | nil => rfl
  | cons s ss ih =>
    have hfirst := h s List.mem_cons_self
    have hrest := ih fun s' hs' => h s' (List.mem_cons_of_mem s hs')
    exact hfirst.then hrest

theorem Script.Leads.times (h : a.Leads rank monitor hand hand) (n : Nat) :
    (Script.times n a).Leads rank monitor hand hand := by
  apply Script.Leads.seq
  intro s hs
  rw [List.eq_of_mem_replicate hs]
  exact h

theorem Script.Leads.branch (ha : a.Leads rank monitor hand last)
    (hb : b.Leads rank monitor hand last) : (Script.branch a b).Leads rank monitor hand last :=
  ⟨ha, hb⟩

theorem Script.Leads.locked (hbelow : hand.Below rank l)
    (h : a.Leads rank monitor { hand with written := l :: hand.written }
      { hand with written := l :: hand.written }) :
    (Script.locked l a).Leads rank monitor hand hand := by
  refine ⟨hbelow, h.then ⟨List.mem_cons_self, ?_⟩⟩
  show Hand.mk ((l :: hand.written).erase l) hand.read hand.reserved = hand
  rw [List.erase_cons_head]

theorem Script.Leads.trying (ha : a.Leads rank monitor { hand with written := l :: hand.written }
      { hand with written := l :: hand.written })
    (hb : b.Leads rank monitor hand hand) :
    (Script.trying l a b).Leads rank monitor hand hand := by
  refine ⟨ha.then ⟨List.mem_cons_self, ?_⟩, hb⟩
  show Hand.mk ((l :: hand.written).erase l) hand.read hand.reserved = hand
  rw [List.erase_cons_head]

theorem Script.Leads.written (hbelow : hand.Below rank l)
    (h : a.Leads rank monitor { hand with written := l :: hand.written }
      { mid with written := l :: mid.written }) :
    (Script.written l a).Leads rank monitor hand mid := by
  refine ⟨hbelow, ⟨hand.written, rfl, hbelow⟩, h.then ⟨List.mem_cons_self, ?_⟩⟩
  show Hand.mk ((l :: mid.written).erase l) mid.read mid.reserved = mid
  rw [List.erase_cons_head]

theorem Script.Leads.reading (hbelow : hand.Below rank l)
    (h : a.Leads rank monitor { hand with read := l :: hand.read }
      { hand with read := l :: hand.read }) :
    (Script.reading l a).Leads rank monitor hand hand := by
  refine ⟨hbelow, h.then ⟨List.mem_cons_self, ?_⟩⟩
  show Hand.mk hand.written ((l :: hand.read).erase l) hand.reserved = hand
  rw [List.erase_cons_head]

end
end Locking
