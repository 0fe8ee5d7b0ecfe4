import PureSimdjson.BlockLedger

/-!
# Copies of native blocks

`copyElementBytes` and `ElementAtPathWildcard` are given a block, copy what is in it, and give
the block back.  Here every block is made for a call of one of these two, and the steps of any
number of such calls interleave with each other, those of the native code below them
included.  No copy reads a block that is gone or has been used again, no block is given back
in vain, and when the calls have returned no block is left (`copies_leave_nothing`).
-/
namespace PureSimdjson.Copies

open Runs Threads

/-- The blocks, and what is in the memory of each.  Where no block lies there is nothing to
read. -/
structure Heap (T V : Type) where
  blocks : BlockHeap T
  contents : Nat → Option V

/-- Where a goroutine is in its call. -/
inductive Copying (V : Type) where
  | idle
  /-- Native code has made a block of `value`, and not recorded it. -/
  | made (value : V) (b : Block)
  | collided (b : Block)
  /-- The call has been given the block. -/
  | given (value : V) (b : Block)
  /-- It has made its own copy, and is about to call `BytesFree` or `ValueViewsFree`. -/
  | copied (got : Option V) (b : Block)
  | released (got : Option V) (b : Block)

/-- What a goroutine does in one step. -/
inductive CopyAction (V : Type) where
  | native (action : LedgerAction)
  /-- It reads the block that was made of `value`. -/
  | copy (value : V) (got : Option V)
  /-- `count` is zero although the pointer is not. -/
  | noCount
  /-- `emitBytesFreeFailureWarning` or `emitValueViewsFreeFailureWarning` -/
  | warning
  | failed
  | returned (got : Option V)

/-- **One step of a call.** -/
inductive CopyStep {T V : Type} (t : T) :
    Heap T V → Copying V → CopyAction V → Heap T V → Copying V → Prop where
  | make {s : Heap T V} {b : Block} {blocks : BlockHeap T} (value : V)
      (h : LedgerStep t s.blocks .idle (.make b) blocks (.made b)) :
      CopyStep t s .idle (.native (.make b))
        ⟨blocks, Function.update s.contents b.ptr (some value)⟩ (.made value b)
  | record {s : Heap T V} {b : Block} {blocks : BlockHeap T} {value : V}
      (h : LedgerStep t s.blocks (.made b) (.record false) blocks .idle) :
      CopyStep t s (.made value b) (.native (.record false)) ⟨blocks, s.contents⟩ (.given value b)
  | collide {s : Heap T V} {b : Block} {blocks : BlockHeap T} {value : V}
      (h : LedgerStep t s.blocks (.made b) (.record true) blocks (.collided b)) :
      CopyStep t s (.made value b) (.native (.record true)) ⟨blocks, s.contents⟩ (.collided b)
  | dropCollided {s : Heap T V} {b : Block} {blocks : BlockHeap T}
      (h : LedgerStep t s.blocks (.collided b) .dropCollided blocks .idle) :
      CopyStep t s (.collided b) .failed ⟨blocks, Function.update s.contents b.ptr none⟩ .idle
  | copy {s : Heap T V} {b : Block} {value : V} (hcount : b.kind = .views → b.len ≠ 0) :
      CopyStep t s (.given value b) (.copy value (s.contents b.ptr)) s
        (.copied (s.contents b.ptr) b)
  | noCount {s : Heap T V} {b : Block} {value : V} (hviews : b.kind = .views)
      (hzero : b.len = 0) :
      CopyStep t s (.given value b) .noCount s (.copied none b)
  | release {s : Heap T V} {b : Block} {blocks : BlockHeap T} {got : Option V}
      (h : LedgerStep t s.blocks .idle (.free b (.ok true)) blocks (.released b)) :
      CopyStep t s (.copied got b) (.native (.free b (.ok true))) ⟨blocks, s.contents⟩
        (.released got b)
  | refuse {s : Heap T V} {b : Block} {blocks : BlockHeap T} {got : Option V}
      {result : Except ErrorCode Bool}
      (h : LedgerStep t s.blocks .idle (.free b result) blocks .idle) :
      -- the copy is returned all the same
      CopyStep t s (.copied got b) .warning ⟨blocks, s.contents⟩ .idle
  | deallocate {s : Heap T V} {b : Block} {blocks : BlockHeap T} {got : Option V}
      (h : LedgerStep t s.blocks (.released b) .deallocate blocks .idle) :
      CopyStep t s (.released got b) (.returned got)
        ⟨blocks, Function.update s.contents b.ptr none⟩ .idle

/-- No call has been made. -/
def copyStart {T V : Type} : Config T (Heap T V) (Copying V) :=
  ⟨⟨BlockHeap.initial, fun _ => none⟩, fun _ => .idle⟩

/-- The block that a call is about. -/
def Copying.block {V : Type} : Copying V → Option Block
  | .idle => none
  | .made _ b | .collided b | .given _ b | .copied _ b | .released _ b => some b

section
variable {T V : Type} {s s' : Heap T V} {t t' : T} {x x' : Copying V} {a : CopyAction V}
  {b : Block}

/-- Where the block of a call is, and what is in it. -/
def Copying.Stands (t : T) (s : Heap T V) : Copying V → Prop
  | .idle => True
  | .made value b =>
    (∃ n, s.blocks.live b.ptr = some ⟨n, b, .making t⟩) ∧ s.contents b.ptr = some value
  | .collided _ => False
  | .given value b => Outstanding s.blocks b ∧ s.contents b.ptr = some value
  | .copied got b => Outstanding s.blocks b ∧ got ≠ none
  | .released got b => (∃ n, s.blocks.live b.ptr = some ⟨n, b, .freeing t⟩) ∧ got ≠ none

/-- **Each block is the block of one call under way**, and each call's block is there. -/
structure Accounted (c : Config T (Heap T V) (Copying V)) : Prop where
  ledger : LedgerInv c.shared.blocks
  stands : ∀ t, (c.own t).Stands t c.shared
  apart : ∀ {t t' b b'}, (c.own t).block = some b → (c.own t').block = some b' →
    b.ptr = b'.ptr → t = t'
  owned : ∀ {ptr l}, c.shared.blocks.live ptr = some l → ∃ t, (c.own t).block = some l.block

/-- What a call's block is stays so while nothing changes at its address. -/
theorem Copying.Stands.frame (h : x.Stands t s)
    (hsame : ∀ b, x.block = some b → s'.blocks.live b.ptr = s.blocks.live b.ptr ∧
      s'.contents b.ptr = s.contents b.ptr) : x.Stands t s' := by
  cases x with
  | idle => trivial
  | collided b => exact h
  | made value b =>
    obtain ⟨hlive, hcontents⟩ := hsame b rfl
    obtain ⟨⟨n, hn⟩, hvalue⟩ := h
    exact ⟨⟨n, hlive.trans hn⟩, hcontents.trans hvalue⟩
  | given value b =>
    obtain ⟨hlive, hcontents⟩ := hsame b rfl
    exact ⟨h.1.of_live hlive, hcontents.trans h.2⟩
  | copied got b => exact ⟨h.1.of_live (hsame b rfl).1, h.2⟩
  | released got b =>
    obtain ⟨⟨n, hn⟩, hgot⟩ := h
    exact ⟨⟨n, (hsame b rfl).1.trans hn⟩, hgot⟩

/-- A call's block is there. -/
theorem Copying.Stands.live (h : x.Stands t s) (hb : x.block = some b) :
    ∃ l, s.blocks.live b.ptr = some l ∧ l.block = b := by
  cases x with
  | idle => cases hb
  | collided _ => exact h.elim
  | made value _ =>
    cases hb
    obtain ⟨⟨n, hn⟩, -⟩ := h
    exact ⟨_, hn, rfl⟩
  | given value _ | copied got _ | released got _ =>
    cases hb
    obtain ⟨⟨n, hn⟩, -⟩ := h
    exact ⟨_, hn, rfl⟩

/-! ## What a step keeps -/

/-- What a step comes to.  Nothing changes but at one address, and what lies there then is the
call's block. -/
structure Steps (t : T) (s s' : Heap T V) (x' : Copying V) (ptr : Nat) : Prop where
  ledger : LedgerInv s'.blocks
  stands : x'.Stands t s'
  elsewhere : ∀ ptr', ptr' ≠ ptr → s'.blocks.live ptr' = s.blocks.live ptr' ∧
    s'.contents ptr' = s.contents ptr'
  there : ∀ l, s'.blocks.live ptr = some l → x'.block = some l.block
  block : ∀ b, x'.block = some b → b.ptr = ptr

/-- What no step of a call does. -/
def CopyAction.Bad : CopyAction V → Prop
  | .native (.record alreadyPresent) => alreadyPresent = true
  | .native (.free _ result) => result ≠ .ok true
  | .copy value got => got ≠ some value
  | .noCount | .warning | .failed => True
  | .returned got => got = none
  | _ => False

/-- A call is given no empty block. -/
theorem outstanding_len_ne_zero {h : BlockHeap T} (hinv : LedgerInv h) (hout : Outstanding h b) :
    b.len ≠ 0 := by
  obtain ⟨n, hn⟩ := hout
  exact (hinv.sound.lying _ _ hn).2.2.2

/-- A call can only give its block back. -/
theorem release_of_outstanding {blocks blocks' : BlockHeap T} {result : Except ErrorCode Bool}
    {y : LedgerThread} (hinv : LedgerInv blocks) (hout : Outstanding blocks b)
    (h : LedgerStep t blocks .idle (.free b result) blocks' y) :
    result = .ok true ∧ y = .released b := by
  have haccepted := hinv.releaseBlock_iff.mpr hout
  cases h with
  | release hlocked => exact ⟨rfl, rfl⟩
  | refuse hlocked hrefused =>
    rw [hlocked] at haccepted
    exact absurd haccepted hrefused

theorem CopyStep.steps (hinv : LedgerInv s.blocks) (hx : x.Stands t s)
    (h : CopyStep t s x a s' x') :
    ¬ a.Bad ∧ ∃ ptr, Steps t s s' x' ptr ∧
      (x.block = none ∧ s.blocks.live ptr = none ∨ ∃ b, x.block = some b ∧ b.ptr = ptr) := by
  cases h with
  | @make b blocks value h =>
    cases h with
    | make hptr hlen hunused =>
      refine ⟨id, b.ptr, ⟨hinv.make hptr hlen hunused, ⟨⟨_, Function.update_self ..⟩,
        Function.update_self ..⟩, fun ptr' hne => ?_, fun l hl => ?_, fun b' hb' => ?_⟩,
        Or.inl ⟨rfl, hunused⟩⟩
      · exact ⟨Function.update_of_ne hne .., Function.update_of_ne hne ..⟩
      · have hself : Function.update s.blocks.live b.ptr (some ⟨s.blocks.count, b, .making t⟩)
          b.ptr = some l := hl
        rw [Function.update_self] at hself
        cases hself
        rfl
      · cases hb'
        rfl
  | @record b blocks value h =>
    obtain ⟨hmade, hvalue⟩ := hx
    have hmade' : (LedgerThread.made b).Relies t s.blocks := hmade
    cases h with
    | @record _ registry hlocked =>
      obtain ⟨n, hn⟩ := hmade
      have hself : (BlockHeap.pass { s.blocks with registry := registry } b.ptr .caller).live
          b.ptr = some ⟨n, b, .caller⟩ := BlockHeap.live_pass_self hn
      refine ⟨Bool.false_ne_true, b.ptr, ⟨hinv.record hmade' hlocked, ⟨⟨n, hself⟩, hvalue⟩,
        fun ptr' hne => ⟨BlockHeap.live_pass_of_ne hne, rfl⟩, fun l hl => ?_, fun b' hb' => ?_⟩,
        Or.inr ⟨b, rfl, rfl⟩⟩
      · rw [hself] at hl
        cases hl
        rfl
      · cases hb'
        rfl
  | @collide b blocks value h =>
    cases h with
    | collide hlocked => cases hinv.recordBlock_fst (t := t) hx.1 hlocked
  | dropCollided h => exact hx.elim
  | @copy b value hcount =>
    obtain ⟨hout, hvalue⟩ := hx
    have hlive := hout
    obtain ⟨n, hn⟩ := hlive
    have hgot : s.contents b.ptr ≠ none := fun hnone => by
      rw [hnone] at hvalue
      cases hvalue
    refine ⟨fun hbad => hbad hvalue, b.ptr, ⟨hinv, ⟨hout, hgot⟩, fun _ _ => ⟨rfl, rfl⟩,
      fun l hl => ?_, fun b' hb' => ?_⟩, Or.inr ⟨b, rfl, rfl⟩⟩
    · rw [hn] at hl
      cases hl
      rfl
    · cases hb'
      rfl
  | @noCount b value _ hzero => exact absurd hzero (outstanding_len_ne_zero hinv hx.1)
  | @release b blocks got h =>
    cases h with
    | @release _ registry hlocked =>
      obtain ⟨hrecorded, herased⟩ := releaseBlock_accepted hlocked
      obtain ⟨hinv', hreleased⟩ := hinv.release (t := t) hrecorded herased
      have hself := hreleased
      obtain ⟨n, hn⟩ := hself
      refine ⟨fun hbad => hbad rfl, b.ptr, ⟨hinv', ⟨hreleased, hx.2⟩,
        fun ptr' hne => ⟨BlockHeap.live_pass_of_ne hne, rfl⟩, fun l hl => ?_, fun b' hb' => ?_⟩,
        Or.inr ⟨b, rfl, rfl⟩⟩
      · rw [hn] at hl
        cases hl
        rfl
      · cases hb'
        rfl
  | @refuse b blocks got result h =>
    have hreleased := (release_of_outstanding hinv hx.1 h).2
    cases hreleased
  | @deallocate b blocks got h =>
    cases h with
    | deallocate =>
      refine ⟨hx.2, b.ptr, ⟨hinv.deallocate (t := t) hx.1, trivial,
        fun ptr' hne => ?_, fun l hl => ?_, fun b' hb' => ?_⟩, Or.inr ⟨b, rfl, rfl⟩⟩
      · exact ⟨BlockHeap.live_drop_ne hne, Function.update_of_ne hne ..⟩
      · rw [BlockHeap.live_drop_self] at hl
        cases hl
      · cases hb'

variable [DecidableEq T] {c c' : Config T (Heap T V) (Copying V)} {l : T × CopyAction V}

/-- **A step keeps the account.** -/
theorem Accounted.move (hc : Accounted c) (hmove : Moves CopyStep c l c') :
    Accounted c' ∧ ¬ l.2.Bad := by
  cases hmove with
  | @move s s' own t x' a hstep =>
    obtain ⟨hgood, ptr, hsteps, hmine⟩ := hstep.steps hc.ledger (hc.stands t)
    -- no other call's block lies there
    have hothers : ∀ t' b', t' ≠ t → (own t').block = some b' → b'.ptr ≠ ptr := by
      intro t' b' ht' hb' heq
      rcases hmine with ⟨-, hfree⟩ | ⟨b, hb, hptr⟩
      · obtain ⟨l, hl, -⟩ := (hc.stands t').live hb'
        have hl : s.blocks.live b'.ptr = some l := hl
        rw [heq, hfree] at hl
        cases hl
      · exact ht' (hc.apart hb' hb (heq.trans hptr.symm))
    refine ⟨⟨hsteps.ledger, fun t' => ?_, ?_, ?_⟩, hgood⟩
    · dsimp only
      by_cases ht' : t' = t
      · subst ht'
        rw [Function.update_self]
        exact hsteps.stands
      · rw [Function.update_of_ne ht']
        exact (hc.stands t').frame fun b' hb' => hsteps.elsewhere _ (hothers t' b' ht' hb')
    · intro t₁ t₂ b₁ b₂ h₁ h₂ hptr
      dsimp only at h₁ h₂
      by_cases ht₁ : t₁ = t <;> by_cases ht₂ : t₂ = t
      · exact ht₁.trans ht₂.symm
      · subst ht₁
        rw [Function.update_self] at h₁
        rw [Function.update_of_ne ht₂] at h₂
        exact absurd (hptr.symm.trans (hsteps.block _ h₁)) (hothers t₂ b₂ ht₂ h₂)
      · subst ht₂
        rw [Function.update_of_ne ht₁] at h₁
        rw [Function.update_self] at h₂
        exact absurd (hptr.trans (hsteps.block _ h₂)) (hothers t₁ b₁ ht₁ h₁)
      · rw [Function.update_of_ne ht₁] at h₁
        rw [Function.update_of_ne ht₂] at h₂
        exact hc.apart h₁ h₂ hptr
    · intro ptr' l hl
      dsimp only at hl ⊢
      by_cases hptr : ptr' = ptr
      · subst hptr
        refine ⟨t, ?_⟩
        rw [Function.update_self]
        exact hsteps.there l hl
      · rw [(hsteps.elsewhere ptr' hptr).1] at hl
        obtain ⟨t', ht'⟩ := hc.owned hl
        have hl_ptr : l.block.ptr = ptr' := (hc.ledger.sound.lying ptr' l hl).1
        refine ⟨t', ?_⟩
        -- it is not this call's, for this call's lies elsewhere
        have hne : t' ≠ t := by
          rintro rfl
          rcases hmine with ⟨hnone, -⟩ | ⟨b, hb, hb_ptr⟩
          · rw [ht'] at hnone
            cases hnone
          · rw [ht'] at hb
            cases hb
            exact hptr (hl_ptr.symm.trans hb_ptr)
        rw [Function.update_of_ne hne]
        exact ht'

theorem Accounted.run {ls : List (T × CopyAction V)} (hrun : Run (Moves CopyStep) c ls c')
    (hc : Accounted c) : Accounted c' ∧ ∀ l ∈ ls, ¬ l.2.Bad := by
  induction hrun with
  | nil _ => exact ⟨hc, fun l hl => by cases hl⟩
  | cons hmove _ ih =>
    obtain ⟨hnext, hgood⟩ := hc.move hmove
    obtain ⟨hlast, hrest⟩ := ih hnext
    refine ⟨hlast, fun l hl => ?_⟩
    rcases List.mem_cons.mp hl with rfl | hl
    · exact hgood
    · exact hrest l hl

omit [DecidableEq T] in
theorem Accounted.start : Accounted (copyStart : Config T (Heap T V) (Copying V)) where
  ledger := ledgerInv_initial
  stands _ := trivial
  apart h := by cases h
  owned h := by cases h

omit [DecidableEq T] in
/-- When no call is under way there is no block. -/
theorem Accounted.nothing (hc : Accounted c) (hidle : ∀ t, c.own t = .idle) :
    (∀ ptr, c.shared.blocks.live ptr = none) ∧
      ∀ kind ptr, recordedLen c.shared.blocks.registry kind ptr = none := by
  have hlive : ∀ ptr, c.shared.blocks.live ptr = none := fun ptr => by
    cases hl : c.shared.blocks.live ptr with
    | none => rfl
    | some l =>
      obtain ⟨t, ht⟩ := hc.owned hl
      rw [hidle t] at ht
      cases ht
  refine ⟨hlive, fun kind ptr => ?_⟩
  cases hlen : recordedLen c.shared.blocks.registry kind ptr with
  | none => rfl
  | some len =>
    obtain ⟨n, hn⟩ := (hc.ledger.recorded ⟨kind, ptr, len⟩).mp hlen
    rw [hlive] at hn
    cases hn

/-- **Copies leave nothing.**  However the calls of any number of goroutines interleave: a call
that has been given a block reads in it what native code wrote for this call; every block it
gives back is accepted, and it returns what it read; a block that is there is the block of just
one call under way; and when all calls have returned no block is there, and none is recorded. -/
theorem copies_leave_nothing {ls : List (T × CopyAction V)}
    (hrun : Run (Moves CopyStep) copyStart ls c) :
    (∀ l ∈ ls, ¬ l.2.Bad) ∧
      (∀ t value b, c.own t = .given value b →
        Outstanding c.shared.blocks b ∧ c.shared.contents b.ptr = some value) ∧
      (∀ ptr l, c.shared.blocks.live ptr = some l →
        ∃! t, ∃ b, (c.own t).block = some b ∧ b.ptr = ptr) ∧
      ((∀ t, c.own t = .idle) → (∀ ptr, c.shared.blocks.live ptr = none) ∧
        ∀ kind ptr, recordedLen c.shared.blocks.registry kind ptr = none) := by
  obtain ⟨hc, hgood⟩ := Accounted.start.run hrun
  refine ⟨hgood, fun t value b ht => ?_, fun ptr l hl => ?_, hc.nothing⟩
  · have hstands := hc.stands t
    rw [ht] at hstands
    exact hstands
  · obtain ⟨t, ht⟩ := hc.owned hl
    have hptr := (hc.ledger.sound.lying ptr l hl).1
    refine ⟨t, ⟨l.block, ht, hptr⟩, ?_⟩
    rintro t' ⟨b, hb, hb_ptr⟩
    exact hc.apart hb ht (hb_ptr.trans hptr.symm)

/-- Two calls, the second of which is given the address that the first has given back. -/
theorem copies_leave_nothing_sample : ∃ (ls : List (Bool × CopyAction Nat))
    (c : Config Bool (Heap Bool Nat) (Copying Nat)), Run (Moves CopyStep) copyStart ls c ∧
      (true, .returned (some 5)) ∈ ls ∧ (false, .returned (some 7)) ∈ ls ∧
      ∀ l ∈ ls, ¬ l.2.Bad := by
  have hrun : ∃ c : Config Bool (Heap Bool Nat) (Copying Nat), Run (Moves CopyStep) copyStart
      [(true, .native (.make ⟨.bytes, 8, 3⟩)), (true, .native (.record false)),
        (true, .copy 5 (some 5)), (true, .native (.free ⟨.bytes, 8, 3⟩ (.ok true))),
        (true, .returned (some 5)),
        (false, .native (.make ⟨.views, 8, 2⟩)), (false, .native (.record false)),
        (false, .copy 7 (some 7)), (false, .native (.free ⟨.views, 8, 2⟩ (.ok true))),
        (false, .returned (some 7))] c :=
    ⟨_, .cons (.move (.make 5 (.make (by decide) (by decide) rfl))) <|
      .cons (.move (.record (.record rfl))) <|
      .cons (.move (.copy (fun h => by cases h))) <|
      .cons (.move (.release (.release rfl))) <|
      .cons (.move (.deallocate .deallocate)) <|
      .cons (.move (.make 7 (.make (by decide) (by decide) rfl))) <|
      .cons (.move (.record (.record rfl))) <|
      .cons (.move (.copy (fun _ => by decide))) <|
      .cons (.move (.release (.release rfl))) <|
      .cons (.move (.deallocate .deallocate)) <| .nil _⟩
  obtain ⟨c, hrun⟩ := hrun
  refine ⟨_, c, hrun, ?_, ?_, (copies_leave_nothing hrun).1⟩ <;> simp

end
end PureSimdjson.Copies
