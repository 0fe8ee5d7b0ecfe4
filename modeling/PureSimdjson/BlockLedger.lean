import PureSimdjson.ElementViews
import PureSimdjson.Threads

/-!
# Blocks handed to callers, with many threads

A string, a big integer or an array of views is copied into a block of its own, and the
block is recorded in a ledger of the registry by address and length.  The caller gives it
back by naming both.  Making the block, recording it, taking it off the ledger and
deallocating it are four steps, and other threads act in between; an address may be used
again as soon as the block that was there is gone.

The allocator is only trusted not to return the address of a block that is still there.
-/
namespace PureSimdjson

open Effect Runs Threads

/-- The two kinds of blocks. -/
inductive BlockKind where
  | bytes
  | views
  deriving DecidableEq

/-- The table that a kind of blocks is recorded in. -/
def BlockKind.ledger : BlockKind → Ledger
  | .bytes => byteLedger
  | .views => viewLedger

/-- A block, or what a call says about one. -/
structure Block where
  kind : BlockKind
  ptr : Nat
  len : Nat
  deriving DecidableEq

/-- The blocks of one kind that are recorded. -/
def recorded (registry : Registry) (kind : BlockKind) : AList fun _ : Nat => Nat :=
  kind.ledger.get registry

/-- What the calls that copy do under the lock: was the address recorded already, and the
registry with the block. -/
def recordBlock (b : Block) (registry : Registry) : Bool × Registry :=
  (decide (b.ptr ∈ recorded registry b.kind),
    b.kind.ledger.set registry ((recorded registry b.kind).insert b.ptr b.len))

/-- `bytes_free` and `value_views_free` up to the deallocation: `ok true` goes on to it. -/
def releaseBlock (b : Block) (registry : Registry) : Except ErrorCode Bool × Registry :=
  if b.ptr = 0 then (if b.len = 0 then .ok false else .error .invalidArgument, registry)
  else if b.len = 0 then (.error .invalidArgument, registry)
  else
    match (recorded registry b.kind).lookup b.ptr with
    | some registeredLen =>
      let removed := b.kind.ledger.set registry ((recorded registry b.kind).erase b.ptr)
      if registeredLen = b.len then (.ok true, removed)
      else (.error .invalidHandle,
        b.kind.ledger.set removed ((recorded removed b.kind).insert b.ptr registeredLen))
    | none => (.error .invalidHandle, registry)

/-! ## The steps under the lock -/

/-- The length an address is recorded with. -/
def recordedLen (registry : Registry) (kind : BlockKind) (ptr : Nat) : Option Nat :=
  (recorded registry kind).lookup ptr

theorem recorded_set (registry : Registry) (kind kind' : BlockKind)
    (table : AList fun _ : Nat => Nat) :
    recorded (kind.ledger.set registry table) kind' =
      if kind' = kind then table else recorded registry kind' := by
  cases kind <;> cases kind' <;> rfl

/-- Changing what is recorded for one address. -/
theorem recordedLen_update {registry : Registry} {kind : BlockKind} {ptr : Nat}
    {table : AList fun _ : Nat => Nat} {len : Option Nat}
    (h : ∀ ptr', table.lookup ptr' =
      if ptr' = ptr then len else (recorded registry kind).lookup ptr')
    (kind' : BlockKind) (ptr' : Nat) :
    recordedLen (kind.ledger.set registry table) kind' ptr' =
      if kind' = kind ∧ ptr' = ptr then len else recordedLen registry kind' ptr' := by
  rw [recordedLen, recorded_set]
  by_cases hkind : kind' = kind
  · subst hkind
    rw [if_pos rfl, h ptr']
    by_cases hptr : ptr' = ptr
    · rw [if_pos hptr, if_pos ⟨rfl, hptr⟩]
    · rw [if_neg hptr, if_neg fun h => hptr h.2]
      rfl
  · rw [if_neg hkind, if_neg fun h => hkind h.1]
    rfl

theorem recordedLen_insert (registry : Registry) (b : Block) (kind : BlockKind) (ptr : Nat) :
    recordedLen (b.kind.ledger.set registry ((recorded registry b.kind).insert b.ptr b.len))
        kind ptr =
      if kind = b.kind ∧ ptr = b.ptr then some b.len else recordedLen registry kind ptr := by
  refine recordedLen_update (fun ptr' => ?_) kind ptr
  by_cases hptr : ptr' = b.ptr
  · rw [if_pos hptr, hptr, AList.lookup_insert]
  · rw [if_neg hptr, AList.lookup_insert_ne hptr]

theorem recordedLen_erase (registry : Registry) (kind kind' : BlockKind) (ptr ptr' : Nat) :
    recordedLen (kind.ledger.set registry ((recorded registry kind).erase ptr)) kind' ptr' =
      if kind' = kind ∧ ptr' = ptr then none else recordedLen registry kind' ptr' := by
  refine recordedLen_update (fun ptr' => ?_) kind' ptr'
  by_cases hptr : ptr' = ptr
  · rw [if_pos hptr, hptr, AList.lookup_erase]
  · rw [if_neg hptr, AList.lookup_erase_ne hptr]

/-- What recording a block does to the ledgers. -/
theorem recordBlock_spec {b : Block} {registry registry' : Registry} {alreadyPresent : Bool}
    (h : recordBlock b registry = (alreadyPresent, registry')) :
    (alreadyPresent = true ↔ (recordedLen registry b.kind b.ptr).isSome) ∧
      ∀ kind ptr, recordedLen registry' kind ptr =
        if kind = b.kind ∧ ptr = b.ptr then some b.len else recordedLen registry kind ptr := by
  obtain ⟨rfl, rfl⟩ := Prod.mk.inj h
  refine ⟨?_, recordedLen_insert registry b⟩
  rw [decide_eq_true_eq, recordedLen, AList.lookup_isSome]

/-- What a call that is not accepted comes to. -/
def refusal (b : Block) : Except ErrorCode Bool :=
  if b.ptr = 0 then if b.len = 0 then .ok false else .error .invalidArgument
  else if b.len = 0 then .error .invalidArgument
  else .error .invalidHandle

/-- **A call is accepted if the block is recorded just as it says**, and then it is taken off
the ledger; otherwise both ledgers stay as they are. -/
theorem releaseBlock_spec (b : Block) (registry : Registry) :
    if b.ptr ≠ 0 ∧ b.len ≠ 0 ∧ recordedLen registry b.kind b.ptr = some b.len then
      (releaseBlock b registry).1 = .ok true ∧
        ∀ kind ptr, recordedLen (releaseBlock b registry).2 kind ptr =
          if kind = b.kind ∧ ptr = b.ptr then none else recordedLen registry kind ptr
    else
      (releaseBlock b registry).1 = refusal b ∧
        ∀ kind ptr, recordedLen (releaseBlock b registry).2 kind ptr =
          recordedLen registry kind ptr := by
  by_cases hptr : b.ptr = 0
  · rw [if_neg fun h => h.1 hptr, releaseBlock, refusal, if_pos hptr, if_pos hptr]
    exact ⟨rfl, fun _ _ => rfl⟩
  · by_cases hlen : b.len = 0
    · rw [if_neg fun h => h.2.1 hlen, releaseBlock, refusal, if_neg hptr, if_neg hptr, if_pos hlen,
        if_pos hlen]
      exact ⟨rfl, fun _ _ => rfl⟩
    · rw [releaseBlock, refusal, if_neg hptr, if_neg hptr, if_neg hlen, if_neg hlen]
      cases hlookup : (recorded registry b.kind).lookup b.ptr with
      | none =>
        rw [if_neg fun h => by rw [recordedLen, hlookup] at h; cases h.2.2]
        exact ⟨rfl, fun _ _ => rfl⟩
      | some registeredLen =>
        dsimp only
        by_cases heq : registeredLen = b.len
        · rw [if_pos ⟨hptr, hlen, by rw [recordedLen, hlookup, heq]⟩, if_pos heq]
          exact ⟨rfl, fun kind ptr => recordedLen_erase registry b.kind kind b.ptr ptr⟩
        · have hne : recordedLen registry b.kind b.ptr ≠ some b.len := by
            rw [recordedLen, hlookup]
            exact fun h => heq (Option.some.inj h)
          rw [if_neg fun h => hne h.2.2, if_neg heq]
          refine ⟨rfl, fun kind ptr => ?_⟩
          -- it was taken off and put back
          dsimp only
          rw [recordedLen_insert _ ⟨b.kind, b.ptr, registeredLen⟩, recordedLen_erase]
          by_cases hsame : kind = b.kind ∧ ptr = b.ptr
          · obtain ⟨rfl, rfl⟩ := hsame
            rw [if_pos ⟨rfl, rfl⟩]
            exact hlookup.symm
          · rw [if_neg hsame, if_neg hsame]

theorem refusal_ne (b : Block) : refusal b ≠ .ok true := by
  intro h
  rw [refusal] at h
  split at h <;> split at h <;> cases h

theorem releaseBlock_accepted {b : Block} {registry registry' : Registry}
    (h : releaseBlock b registry = (.ok true, registry')) :
    recordedLen registry b.kind b.ptr = some b.len ∧
      ∀ kind ptr, recordedLen registry' kind ptr =
        if kind = b.kind ∧ ptr = b.ptr then none else recordedLen registry kind ptr := by
  have hspec := releaseBlock_spec b registry
  rw [h] at hspec
  split at hspec
  · rename_i hnamed
    exact ⟨hnamed.2.2, hspec.2⟩
  · exact absurd hspec.1.symm (refusal_ne b)

theorem releaseBlock_refused {b : Block} {registry registry' : Registry}
    {result : Except ErrorCode Bool} (h : releaseBlock b registry = (result, registry'))
    (hrefused : result ≠ .ok true) :
    result = refusal b ∧
      ∀ kind ptr, recordedLen registry' kind ptr = recordedLen registry kind ptr := by
  have hspec := releaseBlock_spec b registry
  rw [h] at hspec
  split at hspec
  · exact absurd hspec.1 hrefused
  · exact hspec

/-! ## The calls, step by step -/

section
variable {W : Type} (drop : Nat → Nat → W → W) (s : Runtime W)

/-- `registerBlock` is the step under the lock, and then perhaps the drop. -/
theorem registerBlock_run (kind : BlockKind) (ptr len : Nat) :
    (registerBlock kind.ledger drop ptr len).run s =
      match recordBlock ⟨kind, ptr, len⟩ s.registry with
      | (true, registry) => .error .internal ⟨registry, drop ptr len s.native⟩
      | (false, registry) => .ok (ptr, len) ⟨registry, s.native⟩ := by
  rw [registerBlock, recordBlock]
  by_cases hpresent : ptr ∈ recorded s.registry kind
  · rw [decide_eq_true hpresent]
    refine run_eq_error ?_
    rw [wp_bind, wp_getRegistry, wp_bind, wp_modifyRegistry, wp_ite]
    exact ⟨fun _ => ⟨rfl, rfl⟩, fun habsent => absurd hpresent habsent⟩
  · rw [decide_eq_false hpresent]
    refine run_eq_ok ?_
    rw [wp_bind, wp_getRegistry, wp_bind, wp_modifyRegistry, wp_ite]
    exact ⟨fun hmem => absurd hmem hpresent, fun _ => ⟨rfl, rfl⟩⟩

/-- `freeBlock` is the step under the lock, and then perhaps the deallocation. -/
theorem freeBlock_run (kind : BlockKind) (ptr len : Nat) :
    (freeBlock kind.ledger drop ptr len).run s =
      match releaseBlock ⟨kind, ptr, len⟩ s.registry with
      | (.ok true, registry) => .ok () ⟨registry, drop ptr len s.native⟩
      | (.ok false, registry) => .ok () ⟨registry, s.native⟩
      | (.error rc, registry) => .error rc ⟨registry, s.native⟩ := by
  rw [freeBlock, releaseBlock]
  by_cases hptr : ptr = 0
  · by_cases hlen : len = 0
    · simp only [hptr, hlen, if_true, require]
      rfl
    · simp only [hptr, hlen, if_true, if_false, require]
      rfl
  · by_cases hlen : len = 0
    · simp only [hptr, hlen, if_true, if_false, require]
      rfl
    · rw [if_neg hptr, if_neg hptr, if_neg hlen]
      cases hlookup : (recorded s.registry kind).lookup ptr with
      | none =>
        refine run_eq_error ?_
        rw [wp_bind, wp_require]
        refine ⟨fun _ => ?_, fun hzero => absurd hlen hzero⟩
        have hnone : (kind.ledger.get s.registry).lookup ptr = none := hlookup
        rw [wp_bind, wp_getRegistry, hnone]
        exact ⟨rfl, rfl⟩
      | some registeredLen =>
        have hfound : (kind.ledger.get s.registry).lookup ptr = some registeredLen := hlookup
        dsimp only
        by_cases heq : registeredLen = len
        · rw [if_pos heq]
          refine run_eq_ok ?_
          rw [wp_bind, wp_require]
          refine ⟨fun _ => ?_, fun hzero => absurd hlen hzero⟩
          rw [wp_bind, wp_getRegistry, hfound, wp_bind, wp_modifyRegistry, wp_ite]
          exact ⟨fun _ => ⟨rfl, rfl⟩, fun hne => absurd heq hne⟩
        · rw [if_neg heq]
          refine run_eq_error ?_
          rw [wp_bind, wp_require]
          refine ⟨fun _ => ?_, fun hzero => absurd hlen hzero⟩
          rw [wp_bind, wp_getRegistry, hfound, wp_bind, wp_modifyRegistry, wp_ite]
          exact ⟨fun hlen => absurd hlen heq, fun _ => ⟨rfl, rfl⟩⟩

end

/-! ## The threads -/

/-- Where a thread is in its call. -/
inductive LedgerThread where
  | idle
  /-- It has made a block and not recorded it. -/
  | made (b : Block)
  /-- The address was recorded already, and it is about to drop the block. -/
  | collided (b : Block)
  /-- It has taken the block off the ledger, and not deallocated it. -/
  | released (b : Block)

/-- What a thread does in one step. -/
inductive LedgerAction where
  | make (b : Block)
  | record (alreadyPresent : Bool)
  | dropCollided
  | free (b : Block) (result : Except ErrorCode Bool)
  | deallocate

/-- Who has a block that is there: a call that has made it or has taken it off the ledger, or
a caller. -/
inductive Holder (T : Type) where
  | making (t : T)
  | caller
  | freeing (t : T)

/-- What lies at an address: the `n`-th of all blocks. -/
structure Lying (T : Type) where
  n : Nat
  block : Block
  holder : Holder T

/-- The registry, and what has become of all blocks. -/
structure BlockHeap (T : Type) where
  registry : Registry
  /-- What lies at each address. -/
  live : (ptr : Nat) → Option (Lying T)
  /-- How many blocks were ever made. -/
  count : Nat
  /-- Every deallocation: what the call named, and what lay there. -/
  drops : List (Block × Option (Lying T))

namespace BlockHeap

variable {T : Type}

/-- There is no block. -/
def initial : BlockHeap T :=
  ⟨Registry.empty, fun _ => none, 0, []⟩

/-- What lies at the address passes to another holder. -/
def pass (s : BlockHeap T) (ptr : Nat) (holder : Holder T) : BlockHeap T :=
  { s with live := Function.update s.live ptr ((s.live ptr).map ({ · with holder := holder })) }

/-- A deallocation, of what lies at the address. -/
def drop (s : BlockHeap T) (b : Block) : BlockHeap T :=
  { s with
    live := Function.update s.live b.ptr none
    drops := s.drops ++ [(b, s.live b.ptr)] }

end BlockHeap

/-- One step of a thread. -/
inductive LedgerStep {T : Type} (t : T) :
    BlockHeap T → LedgerThread → LedgerAction → BlockHeap T → LedgerThread → Prop where
  /-- The allocator returns an address where nothing lies. -/
  | make {s : BlockHeap T} {b : Block} (ptr : b.ptr ≠ 0) (len : b.len ≠ 0)
      (unused : s.live b.ptr = none) :
      LedgerStep t s .idle (.make b)
        { s with
          live := Function.update s.live b.ptr (some ⟨s.count, b, .making t⟩)
          count := s.count + 1 }
        (.made b)
  | record {s : BlockHeap T} {b : Block} {registry : Registry}
      (locked : recordBlock b s.registry = (false, registry)) :
      LedgerStep t s (.made b) (.record false)
        ({ s with registry := registry }.pass b.ptr .caller) .idle
  | collide {s : BlockHeap T} {b : Block} {registry : Registry}
      (locked : recordBlock b s.registry = (true, registry)) :
      LedgerStep t s (.made b) (.record true) { s with registry := registry } (.collided b)
  | dropCollided {s : BlockHeap T} {b : Block} :
      LedgerStep t s (.collided b) .dropCollided (s.drop b) .idle
  /-- A caller may name any address and any length. -/
  | release {s : BlockHeap T} {b : Block} {registry : Registry}
      (locked : releaseBlock b s.registry = (.ok true, registry)) :
      LedgerStep t s .idle (.free b (.ok true))
        ({ s with registry := registry }.pass b.ptr (.freeing t)) (.released b)
  | refuse {s : BlockHeap T} {b : Block} {result : Except ErrorCode Bool} {registry : Registry}
      (locked : releaseBlock b s.registry = (result, registry)) (refused : result ≠ .ok true) :
      LedgerStep t s .idle (.free b result) { s with registry := registry } .idle
  | deallocate {s : BlockHeap T} {b : Block} :
      LedgerStep t s (.released b) .deallocate (s.drop b) .idle

/-- All threads, before any call. -/
def LedgerStart {T : Type} : Config T (BlockHeap T) LedgerThread :=
  ⟨BlockHeap.initial, fun _ => .idle⟩

/-! ## What holds between the steps -/

section
variable {T : Type} {s s' : BlockHeap T} {t : T} {b : Block}

/-- **A caller has the block**: it got it, and no call that gives it back is on its way. -/
def Outstanding (s : BlockHeap T) (b : Block) : Prop :=
  ∃ n, s.live b.ptr = some ⟨n, b, .caller⟩

/-- **Where every block is.**  A block lies at its address, and one that was dropped lies
nowhere. -/
structure BlockHeap.Sound (s : BlockHeap T) : Prop where
  lying : ∀ ptr l, s.live ptr = some l →
    l.block.ptr = ptr ∧ l.n < s.count ∧ l.block.ptr ≠ 0 ∧ l.block.len ≠ 0
  apart : ∀ ptr ptr' l l', s.live ptr = some l → s.live ptr' = some l' → l.n = l'.n → ptr = ptr'
  drops : ∀ d ∈ s.drops, ∃ l, d.2 = some l ∧ l.block = d.1 ∧ l.n < s.count ∧
    ∀ ptr l', s.live ptr = some l' → l'.n ≠ l.n
  once : (s.drops.map fun d => d.2.map Lying.n).Nodup

/-- What is recorded is what callers have. -/
structure LedgerInv (s : BlockHeap T) : Prop where
  sound : s.Sound
  recorded : ∀ b, recordedLen s.registry b.kind b.ptr = some b.len ↔ Outstanding s b

/-- The thread that a block is in the hands of. -/
def Holder.thread : Holder T → Option T
  | .making t => some t
  | .caller => none
  | .freeing t => some t

/-- What a thread relies on: the block in its hands is where it put or found it. -/
def LedgerThread.Relies (t : T) (s : BlockHeap T) : LedgerThread → Prop
  | .idle => True
  | .made b => ∃ n, s.live b.ptr = some ⟨n, b, .making t⟩
  | .collided _ => False
  | .released b => ∃ n, s.live b.ptr = some ⟨n, b, .freeing t⟩

/-! ## Blocks that come, pass and go -/

namespace BlockHeap

variable {ptr ptr' : Nat} {holder : Holder T} {l : Lying T}

theorem live_pass_of_ne (hne : ptr' ≠ ptr) : (s.pass ptr holder).live ptr' = s.live ptr' :=
  Function.update_of_ne hne ..

theorem live_pass_self (hl : s.live ptr = some l) :
    (s.pass ptr holder).live ptr = some { l with holder := holder } := by
  show Function.update s.live ptr ((s.live ptr).map _) ptr = _
  rw [Function.update_self, hl]
  rfl

/-- What lies somewhere afterwards lay there before. -/
theorem live_pass_eq_some (hl : (s.pass ptr holder).live ptr' = some l) :
    ∃ l', s.live ptr' = some l' ∧ l'.n = l.n ∧ l'.block = l.block := by
  by_cases heq : ptr' = ptr
  · subst heq
    cases hbefore : s.live ptr' with
    | none =>
      have hnone : (s.pass ptr' holder).live ptr' = none := by
        show Function.update s.live ptr' ((s.live ptr').map _) ptr' = none
        rw [Function.update_self, hbefore]
        rfl
      rw [hnone] at hl
      cases hl
    | some l' =>
      rw [live_pass_self hbefore] at hl
      cases hl
      exact ⟨l', rfl, rfl, rfl⟩
  · rw [live_pass_of_ne heq] at hl
    exact ⟨l, hl, rfl, rfl⟩

theorem Sound.pass (h : s.Sound) : (s.pass ptr holder).Sound where
  lying ptr' l hl := by
    obtain ⟨l', hl', hn, hblock⟩ := live_pass_eq_some hl
    rw [← hn, ← hblock]
    exact h.lying ptr' l' hl'
  apart ptr₁ ptr₂ l₁ l₂ h₁ h₂ hsame := by
    obtain ⟨l₁', h₁', hn₁, -⟩ := live_pass_eq_some h₁
    obtain ⟨l₂', h₂', hn₂, -⟩ := live_pass_eq_some h₂
    exact h.apart ptr₁ ptr₂ l₁' l₂' h₁' h₂' (by rw [hn₁, hn₂, hsame])
  drops d hd := by
    obtain ⟨l, hl, hblock, hbound, hgone⟩ := h.drops d hd
    refine ⟨l, hl, hblock, hbound, fun ptr' l' hl' => ?_⟩
    obtain ⟨l'', hl'', hn, -⟩ := live_pass_eq_some hl'
    rw [← hn]
    exact hgone ptr' l'' hl''
  once := h.once

theorem Sound.setRegistry (h : s.Sound) (registry : Registry) :
    Sound { s with registry := registry } :=
  ⟨h.lying, h.apart, h.drops, h.once⟩

/-- A block is made. -/
theorem Sound.make (h : s.Sound) (hptr : b.ptr ≠ 0) (hlen : b.len ≠ 0) :
    Sound { s with
      live := Function.update s.live b.ptr (some ⟨s.count, b, holder⟩)
      count := s.count + 1 } := by
  -- what lies somewhere is the new block, or lay there before
  have hlive {ptr : Nat} {l : Lying T}
      (hl : Function.update s.live b.ptr (some ⟨s.count, b, holder⟩) ptr = some l) :
      ptr = b.ptr ∧ l = ⟨s.count, b, holder⟩ ∨ s.live ptr = some l := by
    by_cases heq : ptr = b.ptr
    · subst heq
      rw [Function.update_self] at hl
      exact Or.inl ⟨rfl, (Option.some.inj hl).symm⟩
    · rw [Function.update_of_ne heq] at hl
      exact Or.inr hl
  constructor
  · intro ptr l hl
    rcases hlive hl with ⟨rfl, rfl⟩ | hl
    · exact ⟨rfl, Nat.lt_succ_self _, hptr, hlen⟩
    · obtain ⟨hat, hbound, hnonempty⟩ := h.lying ptr l hl
      exact ⟨hat, Nat.lt_succ_of_lt hbound, hnonempty⟩
  · intro ptr₁ ptr₂ l₁ l₂ h₁ h₂ hsame
    rcases hlive h₁ with ⟨rfl, rfl⟩ | h₁ <;> rcases hlive h₂ with ⟨rfl, rfl⟩ | h₂
    · rfl
    · have := (h.lying ptr₂ l₂ h₂).2.1
      dsimp only at hsame
      omega
    · have := (h.lying ptr₁ l₁ h₁).2.1
      dsimp only at hsame
      omega
    · exact h.apart ptr₁ ptr₂ l₁ l₂ h₁ h₂ hsame
  · intro d hd
    obtain ⟨l, hl, hblock, hbound, hgone⟩ := h.drops d hd
    refine ⟨l, hl, hblock, Nat.lt_succ_of_lt hbound, fun ptr l' hl' => ?_⟩
    rcases hlive hl' with ⟨-, rfl⟩ | hl'
    · dsimp only
      omega
    · exact hgone ptr l' hl'
  · exact h.once

/-- The block that lies there is dropped. -/
theorem Sound.drop (h : s.Sound) {n : Nat} (hl : s.live b.ptr = some ⟨n, b, holder⟩) :
    (s.drop b).Sound := by
  have hlive {ptr : Nat} {l : Lying T} (hl : (s.drop b).live ptr = some l) :
      ptr ≠ b.ptr ∧ s.live ptr = some l := by
    have hl : Function.update s.live b.ptr none ptr = some l := hl
    by_cases heq : ptr = b.ptr
    · rw [heq, Function.update_self] at hl
      cases hl
    · rw [Function.update_of_ne heq] at hl
      exact ⟨heq, hl⟩
  have hdrops : (s.drop b).drops = s.drops ++ [(b, some ⟨n, b, holder⟩)] := by rw [← hl]; rfl
  constructor
  · intro ptr l hl
    exact h.lying ptr l (hlive hl).2
  · intro ptr₁ ptr₂ l₁ l₂ h₁ h₂ hsame
    exact h.apart ptr₁ ptr₂ l₁ l₂ (hlive h₁).2 (hlive h₂).2 hsame
  · intro d hd
    rw [hdrops, List.mem_append, List.mem_singleton] at hd
    rcases hd with hd | rfl
    · obtain ⟨l, hd, hblock, hbound, hgone⟩ := h.drops d hd
      exact ⟨l, hd, hblock, hbound, fun ptr l' hl' => hgone ptr l' (hlive hl').2⟩
    · refine ⟨_, rfl, rfl, (h.lying _ _ hl).2.1, fun ptr l' hl' hsame => ?_⟩
      obtain ⟨hne, hl'⟩ := hlive hl'
      exact hne (h.apart ptr b.ptr l' _ hl' hl hsame)
  · rw [hdrops, List.map_append, List.map_singleton]
    -- it was not dropped before, for it was still there
    refine List.Nodup.append h.once (List.nodup_singleton _) ?_
    intro o hbefore hlast
    obtain rfl := List.mem_singleton.mp hlast
    obtain ⟨d, hd, hsame⟩ := List.mem_map.mp hbefore
    obtain ⟨l, hl', -, -, hgone⟩ := h.drops d hd
    rw [hl'] at hsame
    exact hgone b.ptr _ hl (Option.some.inj hsame).symm

end BlockHeap

/-! ## What each step keeps -/

theorem Outstanding.of_live {s' : BlockHeap T} (h : Outstanding s b)
    (hlive : s'.live b.ptr = s.live b.ptr) : Outstanding s' b := by
  obtain ⟨n, hn⟩ := h
  exact ⟨n, hlive.trans hn⟩

/-- What lies in other hands is not recorded. -/
theorem LedgerInv.not_recorded (h : LedgerInv s) {l : Lying T} (hl : s.live b.ptr = some l)
    (hholder : l.holder ≠ .caller) (kind : BlockKind) :
    recordedLen s.registry kind b.ptr = none := by
  cases hlen : recordedLen s.registry kind b.ptr with
  | none => rfl
  | some len =>
    obtain ⟨n, hn⟩ := (h.recorded ⟨kind, b.ptr, len⟩).mp hlen
    rw [hl] at hn
    exact absurd (congrArg Lying.holder (Option.some.inj hn)) hholder

/-- Only what lies at one address has changed, and none of it is a caller's before or after. -/
theorem LedgerInv.of_unrecorded {s' : BlockHeap T} (h : LedgerInv s) (hsound : s'.Sound) {ptr : Nat}
    (hregistry : s'.registry = s.registry)
    (hne : ∀ ptr', ptr' ≠ ptr → s'.live ptr' = s.live ptr')
    (hbefore : ∀ l, s.live ptr = some l → l.holder ≠ .caller)
    (hafter : ∀ l, s'.live ptr = some l → l.holder ≠ .caller) : LedgerInv s' := by
  refine ⟨hsound, fun b' => ?_⟩
  rw [hregistry, h.recorded b']
  by_cases heq : b'.ptr = ptr
  · subst heq
    constructor
    · intro ⟨n, hn⟩
      exact absurd rfl (hbefore _ hn)
    · intro ⟨n, hn⟩
      exact absurd rfl (hafter _ hn)
  · constructor
    · exact fun hout => hout.of_live (hne _ heq)
    · exact fun hout => hout.of_live (hne _ heq).symm

/-- Recording a block finds its address free in the ledger. -/
theorem LedgerInv.recordBlock_fst (h : LedgerInv s) (hmade : (LedgerThread.made b).Relies t s)
    {alreadyPresent : Bool} {registry : Registry}
    (hlocked : recordBlock b s.registry = (alreadyPresent, registry)) : alreadyPresent = false := by
  obtain ⟨n, hn⟩ := hmade
  have hnone := h.not_recorded hn (fun hc => by cases hc) b.kind
  cases alreadyPresent with
  | false => rfl
  | true =>
    have hsome := (recordBlock_spec hlocked).1.mp rfl
    rw [hnone] at hsome
    cases hsome

/-- **A block passes to another holder**, and it is recorded from then on if that is a caller. -/
theorem LedgerInv.pass (h : LedgerInv s) {n : Nat} {holder holder' : Holder T}
    (hn : s.live b.ptr = some ⟨n, b, holder⟩) {registry : Registry} {len : Option Nat}
    (hledger : ∀ kind ptr, recordedLen registry kind ptr =
      if kind = b.kind ∧ ptr = b.ptr then len else recordedLen s.registry kind ptr)
    (hlen : ∀ l, len = some l ↔ l = b.len ∧ holder' = .caller) :
    LedgerInv (BlockHeap.pass { s with registry := registry } b.ptr holder') := by
  refine ⟨(h.sound.setRegistry registry).pass, fun b' => ?_⟩
  show recordedLen registry b'.kind b'.ptr = some b'.len ↔ _
  rw [hledger]
  by_cases heq : b'.ptr = b.ptr
  · have hself : (BlockHeap.pass { s with registry := registry } b.ptr holder').live b.ptr =
        some ⟨n, b, holder'⟩ := BlockHeap.live_pass_self (s := { s with registry := registry }) hn
    have hout : Outstanding (BlockHeap.pass { s with registry := registry } b.ptr holder') b' ↔
        b' = b ∧ holder' = .caller := by
      constructor
      · intro ⟨n', hn'⟩
        rw [heq, hself] at hn'
        cases hn'
        exact ⟨rfl, rfl⟩
      · rintro ⟨rfl, rfl⟩
        exact ⟨n, hself⟩
    rw [hout]
    by_cases hkind : b'.kind = b.kind
    · rw [if_pos ⟨hkind, heq⟩, hlen]
      refine and_congr_left fun _ => ⟨fun hsame => ?_, fun hsame => hsame ▸ rfl⟩
      cases b
      cases b'
      cases hkind
      cases heq
      cases hsame
      rfl
    · -- no address is recorded for both kinds
      rw [if_neg fun hboth => hkind hboth.1, h.recorded b']
      refine iff_of_false ?_ fun hsame => hkind (congrArg Block.kind hsame.1)
      intro ⟨n', hn'⟩
      rw [heq, hn] at hn'
      cases hn'
      exact absurd rfl hkind
  · rw [if_neg fun hboth => heq hboth.2, h.recorded b']
    have hother :
        (BlockHeap.pass { s with registry := registry } b.ptr holder').live b'.ptr =
          s.live b'.ptr := BlockHeap.live_pass_of_ne (s := { s with registry := registry }) heq
    constructor
    · exact fun hout => hout.of_live hother
    · exact fun hout => hout.of_live hother.symm

/-- The block that a call has recorded is its caller's. -/
theorem LedgerInv.record (h : LedgerInv s) (hmade : (LedgerThread.made b).Relies t s)
    {registry : Registry} (hlocked : recordBlock b s.registry = (false, registry)) :
    LedgerInv (BlockHeap.pass { s with registry := registry } b.ptr .caller) := by
  obtain ⟨n, hn⟩ := hmade
  refine h.pass hn (recordBlock_spec hlocked).2 fun l => ?_
  constructor
  · intro hl
    exact ⟨(Option.some.inj hl).symm, rfl⟩
  · rintro ⟨rfl, -⟩
    rfl

/-- A call that is accepted takes a block off the ledger that its caller had. -/
theorem LedgerInv.release (h : LedgerInv s)
    (hrecorded : recordedLen s.registry b.kind b.ptr = some b.len) {registry : Registry}
    (herased : ∀ kind ptr, recordedLen registry kind ptr =
      if kind = b.kind ∧ ptr = b.ptr then none else recordedLen s.registry kind ptr) :
    LedgerInv (BlockHeap.pass { s with registry := registry } b.ptr (.freeing t)) ∧
      (LedgerThread.released b).Relies t
        (BlockHeap.pass { s with registry := registry } b.ptr (.freeing t)) := by
  obtain ⟨n, hn⟩ := (h.recorded b).mp hrecorded
  refine ⟨h.pass hn herased fun l => ?_, n, ?_⟩
  · exact iff_of_false (fun hl => by cases hl) fun hl => by cases hl.2
  · exact BlockHeap.live_pass_self (s := { s with registry := registry }) hn

/-- A call that is refused leaves all as it was. -/
theorem LedgerInv.refuse (h : LedgerInv s) {registry : Registry}
    (hsame : ∀ kind ptr, recordedLen registry kind ptr = recordedLen s.registry kind ptr) :
    LedgerInv { s with registry := registry } := by
  refine ⟨h.sound.setRegistry registry, fun b' => ?_⟩
  show recordedLen registry b'.kind b'.ptr = some b'.len ↔ Outstanding s b'
  rw [hsame]
  exact h.recorded b'

/-- A step that changes no more than what lies at one address, in no other thread's hands. -/
theorem live_of_ne_thread {s' : BlockHeap T} {ptr ptr' : Nat} {t' : T} {l : Lying T}
    (hne : ∀ ptr', ptr' ≠ ptr → s'.live ptr' = s.live ptr')
    (hhands : ∀ l, s.live ptr = some l → l.holder.thread ≠ some t')
    (hl : s.live ptr' = some l) (hthread : l.holder.thread = some t') : s'.live ptr' = some l := by
  by_cases heq : ptr' = ptr
  · subst heq
    exact absurd hthread (hhands l hl)
  · rw [hne ptr' heq, hl]

/-- **A step of one thread leaves what is in the hands of another where it is.** -/
theorem LedgerStep.frame {s' : BlockHeap T} {x x' : LedgerThread} {action : LedgerAction}
    (hstep : LedgerStep t s x action s' x') (h : LedgerInv s) (hrelies : x.Relies t s) {t' : T}
    (hne : t' ≠ t) {ptr : Nat} {l : Lying T} (hl : s.live ptr = some l)
    (hthread : l.holder.thread = some t') : s'.live ptr = some l := by
  have hmine {n : Nat} {b : Block} {holder : Holder T} (hholder : holder.thread = some t)
      (hn : s.live b.ptr = some ⟨n, b, holder⟩) (l : Lying T) (hl : s.live b.ptr = some l) :
      l.holder.thread ≠ some t' := by
    rw [hn] at hl
    cases hl
    rw [hholder]
    exact fun hsame => hne (Option.some.inj hsame).symm
  cases hstep with
  | @make b _ _ hunused =>
    refine live_of_ne_thread (fun _ hptr => Function.update_of_ne hptr ..) ?_ hl hthread
    intro l hl
    rw [hunused] at hl
    cases hl
  | record _ =>
    obtain ⟨n, hn⟩ := hrelies
    exact live_of_ne_thread (fun _ hptr => Function.update_of_ne hptr ..) (hmine rfl hn) hl hthread
  | collide _ => exact hl
  | dropCollided => exact hrelies.elim
  | @release b _ hlocked =>
    -- what is recorded was its caller's
    obtain ⟨n, hn⟩ := (h.recorded b).mp (releaseBlock_accepted hlocked).1
    refine live_of_ne_thread (fun _ hptr => Function.update_of_ne hptr ..) ?_ hl hthread
    intro l hl hother
    rw [hn] at hl
    cases hl
    cases hother
  | refuse _ _ => exact hl
  | deallocate =>
    obtain ⟨n, hn⟩ := hrelies
    exact live_of_ne_thread (fun _ hptr => Function.update_of_ne hptr ..) (hmine rfl hn) hl hthread

/-- What a thread relies on is about what is in its hands. -/
theorem LedgerThread.Relies.of_frame {s' : BlockHeap T} {x : LedgerThread} (h : x.Relies t s)
    (hframe : ∀ ptr l, s.live ptr = some l → l.holder.thread = some t → s'.live ptr = some l) :
    x.Relies t s' := by
  cases x with
  | idle => trivial
  | collided _ => exact h
  | made b =>
    obtain ⟨n, hn⟩ := h
    exact ⟨n, hframe _ _ hn rfl⟩
  | released b =>
    obtain ⟨n, hn⟩ := h
    exact ⟨n, hframe _ _ hn rfl⟩

theorem BlockHeap.live_drop_ne {ptr : Nat} (hne : ptr ≠ b.ptr) : (s.drop b).live ptr = s.live ptr :=
  Function.update_of_ne hne ..

theorem BlockHeap.live_drop_self : (s.drop b).live b.ptr = none :=
  Function.update_self ..

theorem LedgerInv.make (h : LedgerInv s) (hptr : b.ptr ≠ 0) (hlen : b.len ≠ 0)
    (hunused : s.live b.ptr = none) :
    LedgerInv { s with
      live := Function.update s.live b.ptr (some ⟨s.count, b, .making t⟩)
      count := s.count + 1 } := by
  refine h.of_unrecorded (h.sound.make hptr hlen) rfl
    (fun ptr hne => Function.update_of_ne hne ..) ?_ ?_
  · intro l hl
    rw [hunused] at hl
    cases hl
  · intro l hl
    have hl : Function.update s.live b.ptr (some ⟨s.count, b, .making t⟩) b.ptr = some l := hl
    rw [Function.update_self] at hl
    cases hl
    exact fun hc => by cases hc

/-- The block that is deallocated is the one that the call took off the ledger. -/
theorem LedgerInv.deallocate (h : LedgerInv s) (hreleased : (LedgerThread.released b).Relies t s) :
    LedgerInv (s.drop b) := by
  obtain ⟨n, hn⟩ := hreleased
  refine h.of_unrecorded (h.sound.drop hn) rfl (fun _ hne => BlockHeap.live_drop_ne hne) ?_ ?_
  · intro l hl
    rw [hn] at hl
    cases hl
    exact fun hc => by cases hc
  · intro l hl
    rw [BlockHeap.live_drop_self] at hl
    cases hl

/-- **The outline of the ledger stands**, whatever the threads and whatever callers name. -/
theorem ledger_outline : Outline (LedgerStep (T := T)) LedgerInv fun t s x => x.Relies t s where
  keeps h hrelies hstep := by
    cases hstep with
    | make hptr hlen hunused =>
      refine ⟨h.make hptr hlen hunused, _, Function.update_self ..⟩
    | record hlocked => exact ⟨h.record hrelies hlocked, trivial⟩
    | collide hlocked => cases h.recordBlock_fst hrelies hlocked
    | dropCollided => exact hrelies.elim
    | release hlocked =>
      obtain ⟨hrecorded, herased⟩ := releaseBlock_accepted hlocked
      exact h.release hrecorded herased
    | refuse hlocked hrefused => exact ⟨h.refuse (releaseBlock_refused hlocked hrefused).2, trivial⟩
    | deallocate => exact ⟨h.deallocate hrelies, trivial⟩
  stable hne h hrelies hstep hother :=
    hother.of_frame fun _ _ hl hthread => hstep.frame h hrelies hne hl hthread

theorem ledgerInv_initial : LedgerInv (BlockHeap.initial : BlockHeap T) where
  sound := {
    lying := fun _ _ h => by cases h
    apart := fun _ _ _ _ h => by cases h
    drops := fun _ h => by cases h
    once := List.nodup_nil }
  recorded b := by
    constructor
    · intro h
      cases b with | mk kind ptr len => cases kind <;> cases h
    · intro ⟨n, hn⟩
      cases hn

theorem holds_ledgerStart :
    Holds LedgerInv (fun t s x => x.Relies t s) (LedgerStart : Config T _ _) where
  shared := ledgerInv_initial
  own _ := trivial

/-! ## Along a run -/

/-- A caller has one block at an address. -/
theorem Outstanding.unique {b' : Block} (h : Outstanding s b) (h' : Outstanding s b')
    (hptr : b'.ptr = b.ptr) : b' = b := by
  obtain ⟨n, hn⟩ := h
  obtain ⟨n', hn'⟩ := h'
  rw [hptr, hn] at hn'
  exact (congrArg Lying.block (Option.some.inj hn')).symm

/-- **A call is accepted if and only if a caller has the block that it names.** -/
theorem LedgerInv.releaseBlock_iff (h : LedgerInv s) :
    (releaseBlock b s.registry).1 = .ok true ↔ Outstanding s b := by
  constructor
  · intro haccepted
    exact (h.recorded b).mp (releaseBlock_accepted (Prod.ext haccepted rfl)).1
  · intro hout
    have hnamed := (h.recorded b).mpr hout
    obtain ⟨n, hn⟩ := hout
    obtain ⟨-, -, hptr, hlen⟩ := h.sound.lying _ _ hn
    have hspec := releaseBlock_spec b s.registry
    rw [if_pos ⟨hptr, hlen, hnamed⟩] at hspec
    exact hspec.1

/-- The calls that have given back what is dropped, or is about to be. -/
structure GivenBack (ls : List (T × LedgerAction)) (c : Config T (BlockHeap T) LedgerThread) :
    Prop where
  released : ∀ t b, c.own t = .released b → (t, .free b (.ok true)) ∈ ls
  drops : ∀ d ∈ c.shared.drops, ∃ t, (t, .free d.1 (.ok true)) ∈ ls

variable [DecidableEq T]

/-- Only a thread that takes a block off the ledger is about to deallocate it. -/
theorem GivenBack.move {ls : List (T × LedgerAction)} {c c' : Config T (BlockHeap T) LedgerThread}
    {l : T × LedgerAction} (h : GivenBack ls c) (hc : Holds LedgerInv (fun t s x => x.Relies t s) c)
    (hmove : Moves LedgerStep c l c') : GivenBack (ls ++ [l]) c' := by
  cases hmove with
  | @move s s' own t x' action hstep =>
    have hkept {l' : T × LedgerAction} (hl : l' ∈ ls) : l' ∈ ls ++ [(t, action)] :=
      List.mem_append_left _ hl
    have hrelies : (own t).Relies t s := hc.own t
    generalize hx : own t = x at hstep hrelies
    constructor
    · intro t' b hown
      dsimp only at hown
      by_cases heq : t' = t
      · subst heq
        rw [Function.update_self] at hown
        subst hown
        cases hstep with
        | release _ => exact List.mem_append_right _ (List.mem_singleton_self _)
      · rw [Function.update_of_ne heq] at hown
        exact hkept (h.released t' b hown)
    · have hsame (hdrops : s'.drops = s.drops) :
          ∀ d ∈ s'.drops, ∃ t', (t', .free d.1 (.ok true)) ∈ ls ++ [(t, action)] := by
        intro d hd
        rw [hdrops] at hd
        obtain ⟨t', ht'⟩ := h.drops d hd
        exact ⟨t', hkept ht'⟩
      cases hstep with
      | make _ _ _ => exact hsame rfl
      | record _ => exact hsame rfl
      | collide _ => exact hsame rfl
      | dropCollided => exact hrelies.elim
      | release _ => exact hsame rfl
      | refuse _ _ => exact hsame rfl
      | deallocate =>
        intro d hd
        rcases List.mem_append.mp hd with hd | hd
        · obtain ⟨t', ht'⟩ := h.drops d hd
          exact ⟨t', hkept ht'⟩
        · obtain rfl := List.mem_singleton.mp hd
          exact ⟨t, hkept (h.released t _ hx)⟩

theorem GivenBack.run {past ls : List (T × LedgerAction)}
    {c c' : Config T (BlockHeap T) LedgerThread} (h : GivenBack past c)
    (hc : Holds LedgerInv (fun t s x => x.Relies t s) c) (hrun : Run (Moves LedgerStep) c ls c') :
    GivenBack (past ++ ls) c' := by
  induction hrun generalizing past with
  | nil _ => rwa [List.append_nil]
  | @cons _ _ _ l ls hmove _ ih =>
    rw [List.append_cons]
    exact ih (h.move hc hmove) (ledger_outline.move hc hmove)

/-- **The ledger of copied blocks.**  With any number of threads, in any order of their
steps: every deallocation is of a block that some free call named exactly, by kind, address
and length, and no block is deallocated twice; a free call is accepted just for the blocks
that callers have, so not for another length, not through the other kind's function and not a
second time; a call that is not accepted leaves both ledgers as they are; and no call that
copies ever finds its address recorded. -/
theorem copied_allocation_ledger {ls : List (T × LedgerAction)}
    {c : Config T (BlockHeap T) LedgerThread} (hrun : Run (Moves LedgerStep) LedgerStart ls c) :
    ((c.shared.drops.map fun d => d.2.map Lying.n).Nodup ∧
      ∀ d ∈ c.shared.drops, (∃ l, d.2 = some l ∧ l.block = d.1) ∧
        ∃ t, (t, .free d.1 (.ok true)) ∈ ls) ∧
    (∀ b, ((releaseBlock b c.shared.registry).1 = .ok true ↔ Outstanding c.shared b) ∧
      (¬ Outstanding c.shared b → (releaseBlock b c.shared.registry).1 = refusal b ∧
        ∀ kind ptr, recordedLen (releaseBlock b c.shared.registry).2 kind ptr =
          recordedLen c.shared.registry kind ptr)) ∧
    (∀ b b', Outstanding c.shared b → b'.ptr = b.ptr →
      (b' ≠ b → ¬ Outstanding c.shared b') ∧
      (releaseBlock b' (releaseBlock b c.shared.registry).2).1 = refusal b') ∧
    ∀ l ∈ ls, l.2 ≠ .record true ∧ l.2 ≠ .dropCollided := by
  have hc := ledger_outline.run hrun holds_ledgerStart
  have hinv := hc.shared
  have hback : GivenBack ls c := by
    have hstart : GivenBack [] (LedgerStart : Config T _ _) :=
      ⟨(fun _ _ h => by cases h), (fun _ h => by cases h)⟩
    exact hstart.run holds_ledgerStart hrun
  refine ⟨⟨hinv.sound.once, fun d hd => ?_⟩, fun b => ⟨hinv.releaseBlock_iff, fun hnot => ?_⟩,
    fun b b' hout hptr => ⟨fun hne hout' => hne (hout.unique hout' hptr), ?_⟩, ?_⟩
  · obtain ⟨l, hl, hblock, -, -⟩ := hinv.sound.drops d hd
    exact ⟨⟨l, hl, hblock⟩, hback.drops d hd⟩
  · exact releaseBlock_refused rfl fun haccepted => hnot (hinv.releaseBlock_iff.mp haccepted)
  · -- its address is recorded for neither kind any more
    have haccepted := releaseBlock_accepted (Prod.ext (hinv.releaseBlock_iff.mpr hout) rfl)
    refine (releaseBlock_refused rfl fun hsecond => ?_).1
    have hrecorded := (releaseBlock_accepted (Prod.ext hsecond rfl)).1
    rw [haccepted.2] at hrecorded
    by_cases hkind : b'.kind = b.kind
    · rw [if_pos ⟨hkind, hptr⟩] at hrecorded
      cases hrecorded
    · rw [if_neg fun hboth => hkind hboth.1] at hrecorded
      have hout' := (hinv.recorded b').mp hrecorded
      exact hkind (congrArg Block.kind (hout.unique hout' hptr))
  · refine ledger_outline.labels (P := fun _ action => action ≠ .record true ∧
      action ≠ .dropCollided) ?_ hrun holds_ledgerStart
    intro t s s' x x' action hinv hrelies hstep
    cases hstep with
    | make _ _ _ => exact ⟨by nofun, by nofun⟩
    | record _ => exact ⟨by nofun, by nofun⟩
    | collide hlocked => cases hinv.recordBlock_fst hrelies hlocked
    | dropCollided => exact hrelies.elim
    | release _ => exact ⟨by nofun, by nofun⟩
    | refuse _ _ => exact ⟨by nofun, by nofun⟩
    | deallocate => exact ⟨by nofun, by nofun⟩

/-- One thread copies a string, another names it with a wrong length and then rightly, and
its address is used again for views before the first thread frees it a second time. -/
def sampleLedgerActions : List (Bool × LedgerAction) :=
  [(false, .make ⟨.bytes, 16, 3⟩), (false, .record false),
   (true, .free ⟨.bytes, 16, 4⟩ (.error .invalidHandle)), (true, .free ⟨.bytes, 16, 3⟩ (.ok true)),
   (true, .deallocate), (true, .make ⟨.views, 16, 2⟩), (true, .record false),
   (false, .free ⟨.bytes, 16, 3⟩ (.error .invalidHandle))]

theorem sampleLedgerRun : ∃ c : Config Bool (BlockHeap Bool) LedgerThread,
    Run (Moves LedgerStep) LedgerStart sampleLedgerActions c ∧ c.shared.drops.length = 1 := by
  refine ⟨_, .cons (.move (.make (by decide) (by decide) rfl)) <| .cons (.move (.record rfl)) <|
    .cons (.move (.refuse rfl fun h => by cases h)) <| .cons (.move (.release rfl)) <|
    .cons (.move .deallocate) <| .cons (.move (.make (by decide) (by decide) rfl)) <|
    .cons (.move (.record rfl)) <| .cons (.move (.refuse rfl fun h => by cases h)) <| .nil _, rfl⟩

theorem copied_allocation_ledger_sample : ∃ c : Config Bool (BlockHeap Bool) LedgerThread,
    Run (Moves LedgerStep) LedgerStart sampleLedgerActions c ∧ c.shared.drops.length = 1 ∧
      ∀ d ∈ c.shared.drops, (∃ l, d.2 = some l ∧ l.block = d.1) ∧
        ∃ t, (t, .free d.1 (.ok true)) ∈ sampleLedgerActions := by
  obtain ⟨c, hrun, hlength⟩ := sampleLedgerRun
  exact ⟨c, hrun, hlength, (copied_allocation_ledger hrun).1.2⟩

end

end PureSimdjson
