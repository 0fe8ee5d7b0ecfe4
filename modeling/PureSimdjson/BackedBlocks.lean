import PureSimdjson.BlockLedger
import PureSimdjson.NativeFrame

/-!
# The two ledgers and the process allocator

Of all calls, five are about blocks: those that copy a string, a big integer or an array of
views, and the two that give a block back.  The others leave both ledgers as they are.

The allocator returns an address where no block is, and the ledger of a kind names only
blocks that are there, after any calls whatsoever: a block is recorded when it has been made,
and it is off the ledger before it is deallocated.  What one ledger needs for that is stated
for either kind.
-/
namespace PureSimdjson

open Effect Runs SlotTable

/-! ## Calls that are not about blocks -/

theorem recorded_setDoc (registry : Registry) (kind : BlockKind) (index : Nat)
    (slot : Slot UInt32 DocEntry) :
    recorded (registry.setDoc index slot) kind = recorded registry kind := by
  cases kind <;> rfl

theorem recorded_setParser (registry : Registry) (kind : BlockKind) (index : Nat)
    (slot : Slot UInt32 ParserEntry) :
    recorded (registry.setParser index slot) kind = recorded registry kind := by
  cases kind <;> rfl

theorem Registry.allocParser_recorded {registry registry' : Registry} {handle : UInt64}
    {nativePtr maxCapacity : Nat} {maxDepth : UInt32}
    (h : registry.allocParser nativePtr maxCapacity maxDepth = .ok (handle, registry'))
    (kind : BlockKind) : recorded registry' kind = recorded registry kind := by
  unfold allocParser at h
  simp only at h
  split at h
  · cases h
    cases kind <;> rfl
  · split at h
    · cases h
    · cases h
      cases kind <;> rfl

theorem Registry.allocDoc_recorded {registry registry' : Registry} {handle : UInt64}
    {nativePtr rootPtr rootAfterIndex : Nat} {ownerSlot ownerGeneration : UInt32} {input : Bytes}
    (h : registry.allocDoc nativePtr rootPtr rootAfterIndex ownerSlot ownerGeneration input =
      .ok (handle, registry')) (kind : BlockKind) :
    recorded registry' kind = recorded registry kind := by
  unfold allocDoc at h
  simp only at h
  split at h
  · cases h
    cases kind <;> rfl
  · split at h
    · cases h
    · cases h
      cases kind <;> rfl

section
variable {W : Type}

/-- Both ledgers are the same, and the native side is related. -/
structure SameLedgers (R : W → W → Prop) (s s' : Runtime W) : Prop where
  native : R s.native s'.native
  ledgers : ∀ kind, recorded s'.registry kind = recorded s.registry kind

variable {R : W → W → Prop}

instance [Std.Refl R] : Std.Refl (SameLedgers R) :=
  ⟨fun s => ⟨Std.Refl.refl s.native, fun _ => rfl⟩⟩

instance [IsTrans W R] : IsTrans (Runtime W) (SameLedgers R) :=
  ⟨fun _ _ _ h h' => ⟨IsTrans.trans (r := R) _ _ _ h.native h'.native,
    fun kind => (h'.ledgers kind).trans (h.ledgers kind)⟩⟩

variable [Std.Refl R]

theorem frames_sameLedgers : Frames R (SameLedgers R) where
  native _ _ hw := ⟨hw, fun _ => rfl⟩
  setDoc s index entry w hw := ⟨hw, fun kind => recorded_setDoc s.registry kind index _⟩
  setOwner s index generation entry _ _ _ :=
    ⟨Std.Refl.refl s.native, fun kind => by cases kind <;> rfl⟩

/-- A change to the two tables. -/
theorem sameLedgers_modifyRegistry {change : Registry → Registry}
    (h : ∀ registry kind, recorded (change registry) kind = recorded registry kind) :
    Keeps (SameLedgers R) (modifyRegistry change) :=
  fun s => ⟨Std.Refl.refl s.native, h s.registry⟩

theorem sameLedgers_restoreInput (index : Nat) (generation : UInt32) (input : Bytes) :
    Keeps (SameLedgers R) (restoreParserInputBuffer index generation input) := by
  refine sameLedgers_modifyRegistry fun registry kind => ?_
  cases registry.parserAt index generation with
  | none => rfl
  | some entry =>
    dsimp only
    split
    · exact recorded_setParser registry kind index _
    · rfl

variable {native : Native W} [IsTrans W R]

/-- The native functions that make, free and use a parser respect `R`. -/
structure Native.OnParsers (native : Native W) (R : W → W → Prop) : Prop where
  parserNew : Keeps R native.parserNew
  parserNewConfigured : ∀ maxCapacity maxDepth,
    Keeps R (native.parserNewConfigured maxCapacity maxDepth)
  parserFree : ∀ parser, Keeps R (native.parserFree parser)
  parserResetDiagnostics : ∀ parser, Keeps R (native.parserResetDiagnostics parser)
  parserParse : ∀ parser input inputLen, Keeps R (native.parserParse parser input inputLen)
  docRoot : ∀ doc, Keeps R (native.docRoot doc)

theorem keeps_cleanup {call : NativeM W Unit} (hcall : Keeps R call) :
    Keeps R (cleanup call) :=
  hcall.tryCatch fun _ => Keeps.pure _

variable (h : native.OnParsers R) (hplain : native.Plain R)
include h

theorem sameLedgers_registerParser (nativePtr maxCapacity : Nat) (maxDepth : UInt32) :
    Keeps (SameLedgers R) (registerParser native nativePtr maxCapacity maxDepth) := by
  intro s
  rw [registerParser, wp_bind, wp_getRegistry]
  cases halloc : s.registry.allocParser nativePtr maxCapacity maxDepth with
  | error rc =>
    exact ((frame_callNative frames_sameLedgers (keeps_cleanup (h.parserFree nativePtr))).bind
      fun _ => Keeps.throw rc) s
  | ok made =>
    exact ⟨Std.Refl.refl s.native, Registry.allocParser_recorded halloc⟩

include hplain

theorem sameLedgers_nativeParserParse (parser : Nat) (input : Bytes) (inputLen : Nat) :
    Keeps R (nativeParserParse native parser input inputLen) := by
  refine (h.parserParse parser input inputLen).bind fun doc =>
    (quiet_orInternal _ _).bind fun doc => ?_
  refine Keeps.bind ((h.docRoot doc).tryCatch fun rc => ?_) fun root => Keeps.ite ?_ (Keeps.pure _)
  · exact (keeps_cleanup (hplain.docFree doc)).bind fun _ => Keeps.throw rc
  · exact (keeps_cleanup (hplain.docFree doc)).bind fun _ => Keeps.throw _

omit h in
theorem sameLedgers_discardParsed {α : Type} (docPtr index : Nat) (generation : UInt32)
    (ownedInput : Bytes) (rc : ErrorCode) :
    Keeps (SameLedgers R)
      (discardParsed native docPtr index generation ownedInput rc : RuntimeM W α) :=
  (frame_callNative frames_sameLedgers (keeps_cleanup (hplain.docFree docPtr))).bind fun _ =>
    (sameLedgers_restoreInput _ _ _).bind fun _ => Keeps.throw rc

omit h in
theorem sameLedgers_occupyParser (docPtr index : Nat) (generation : UInt32) (docHandle : UInt64) :
    Keeps (SameLedgers R) (occupyParser native docPtr index generation docHandle) := by
  refine (Keeps.ofExcept _).bind fun parts => frame_getRegistry.bind fun registry => ?_
  cases registry.parserAt index generation with
  | some entry =>
    refine Keeps.bind ?_ fun _ => Keeps.pure _
    exact sameLedgers_modifyRegistry fun registry kind => recorded_setParser registry kind index _
  | none =>
    refine (frame_callNative frames_sameLedgers (keeps_cleanup (hplain.docFree docPtr))).bind
      fun _ => Keeps.bind (sameLedgers_modifyRegistry fun registry kind => ?_)
        fun _ => Keeps.throw _
    cases registry.docAt parts.1 parts.2.2 with
    | none => rfl
    | some entry => exact recorded_setDoc registry kind parts.1 _

theorem sameLedgers_parserParse (handle : UInt64) (input : Bytes) :
    Keeps (SameLedgers R) (parserParse native handle input) := by
  refine (Keeps.ofExcept _).bind fun parts => (frame_lookupParser _ _).bind fun entry =>
    (Keeps.require _ _).bind fun _ =>
      (frame_callNative frames_sameLedgers (h.parserResetDiagnostics _)).bind fun _ =>
        (Keeps.require _ _).bind fun _ => ?_
  have htake : Keeps (SameLedgers R) (modifyRegistry (W := W)
      (·.setParser parts.1 (.occupied { entry with reusableInput := [] }))) :=
    sameLedgers_modifyRegistry fun registry kind => recorded_setParser registry kind parts.1 _
  refine htake.bind fun _ => (Keeps.ofExcept _).bind fun padding =>
    (Keeps.require _ _).bind fun _ => ?_
  refine Keeps.bind ?_ fun parsed => Keeps.bind ?_ fun rootAfterIndex s => ?_
  · exact (frame_callNative frames_sameLedgers
      (sameLedgers_nativeParserParse h hplain _ _ _)).tryCatch
        fun rc => (sameLedgers_restoreInput _ _ _).bind fun _ => Keeps.throw rc
  · exact (frame_callNative frames_sameLedgers
      ((hplain.read _ _ _).bind fun _ => quiet_orInternal _ _)).tryCatch
        fun rc => sameLedgers_discardParsed hplain _ _ _ _ rc
  · rw [wp_bind, wp_getRegistry]
    generalize paddedInput entry.reusableInput input padding = ownedInput
    cases halloc : s.registry.allocDoc parsed.docPtr parsed.rootPtr rootAfterIndex parts.2.1
        parts.2.2 ownedInput with
    | error rc => exact sameLedgers_discardParsed hplain _ _ _ _ rc s
    | ok made =>
      obtain ⟨docHandle, registry'⟩ := made
      dsimp only
      rw [wp_bind, wp_modifyRegistry]
      have hallocated : SameLedgers R s ⟨registry', s.native⟩ :=
        ⟨Std.Refl.refl s.native, Registry.allocDoc_recorded halloc⟩
      exact wp_mono (sameLedgers_occupyParser hplain _ _ _ _ _)
        (fun _ _ hrest => IsTrans.trans _ _ _ hallocated hrest)
        fun _ _ hrest => IsTrans.trans _ _ _ hallocated hrest

/-- **A call that is not about blocks leaves both ledgers as they are**, and on the native side
what its native functions leave there. -/
theorem sameLedgers_exec (call : Call) (hblocks : ¬ call.OnBlocks) :
    Keeps (SameLedgers R) (exec native call) := by
  cases call with
  | parserNew =>
    refine Keeps.map _ ?_
    exact (frame_callNative frames_sameLedgers
      (h.parserNew.bind fun _ => quiet_orInternal _ _)).bind
        fun _ => sameLedgers_registerParser h _ _ _
  | parserNewConfigured maxCapacity maxDepth =>
    refine Keeps.map _ ((Keeps.ofExcept _).bind fun _ => ?_)
    exact (frame_callNative frames_sameLedgers ((h.parserNewConfigured _ _).bind fun _ =>
      quiet_orInternal _ _)).bind fun _ => sameLedgers_registerParser h _ _ _
  | parserFree handle =>
    refine Keeps.map _ ((Keeps.ofExcept _).bind fun _ => (frame_lookupParser _ _).bind fun _ =>
      (Keeps.require _ _).bind fun _ =>
        (frame_callNative frames_sameLedgers (h.parserFree _)).bind fun _ => ?_)
    exact sameLedgers_modifyRegistry fun registry kind => recorded_setParser registry kind _ _
  | parserParse handle input => exact (sameLedgers_parserParse h hplain handle input).map _
  | _ => exact frame_exec hplain frames_sameLedgers _ not_false hblocks

end

/-! ## A recorded block is there -/

section
variable {W : Type}

/-- No block goes away. -/
def Grows (blocks : W → Set Nat) (w w' : W) : Prop := blocks w ⊆ blocks w'

instance (blocks : W → Set Nat) : Std.Refl (Grows blocks) := ⟨fun _ => subset_rfl⟩

instance (blocks : W → Set Nat) : IsTrans W (Grows blocks) := ⟨fun _ _ _ h h' => h.trans h'⟩

/-- A block with these bytes, made where no block was. -/
structure NewBlock (memory : W → Memory) (blocks : W → Set Nat) (bytes : Bytes) (w : W)
    (made : Nat × W) : Prop where
  nonnull : made.1 ≠ 0
  fresh : made.1 ∉ blocks w
  there : made.1 ∈ blocks made.2
  grows : Grows blocks w made.2
  holds : (List.range bytes.length).map (fun offset => memory made.2 (made.1 + offset)) = bytes

/-- **Every recorded block of the kind is there.** -/
def Backed (kind : BlockKind) (blocks : W → Set Nat) (s : Runtime W) : Prop :=
  ∀ ptr ∈ recorded s.registry kind, ptr ∈ blocks s.native

/-- The blocks of the kind that are recorded are the same, and none goes away. -/
structure SameBlocks (kind : BlockKind) (blocks : W → Set Nat) (s s' : Runtime W) : Prop where
  native : Grows blocks s.native s'.native
  ledger : recorded s'.registry kind = recorded s.registry kind

variable {kind : BlockKind} {blocks : W → Set Nat} {s s' : Runtime W}

instance : Std.Refl (SameBlocks kind blocks) := ⟨fun _ => ⟨subset_rfl, rfl⟩⟩

instance : IsTrans (Runtime W) (SameBlocks kind blocks) :=
  ⟨fun _ _ _ h h' => ⟨h.native.trans h'.native, h'.ledger.trans h.ledger⟩⟩

theorem SameLedgers.sameBlocks (h : SameLedgers (Grows blocks) s s') :
    SameBlocks kind blocks s s' :=
  ⟨h.native, h.ledgers kind⟩

theorem Backed.of_same (h : Backed kind blocks s) (hsame : SameBlocks kind blocks s s') :
    Backed kind blocks s' := by
  intro ptr hptr
  rw [hsame.ledger] at hptr
  exact hsame.native (h ptr hptr)

theorem frames_sameBlocks : Frames (Grows blocks) (SameBlocks kind blocks) where
  native s w hw := (frames_sameLedgers.native s w hw).sameBlocks
  setDoc s index entry w hw := (frames_sameLedgers.setDoc s index entry w hw).sameBlocks
  setOwner s index generation entry state input hparser :=
    (frames_sameLedgers.setOwner s index generation entry state input hparser).sameBlocks

/-- The other kind's ledger may change. -/
theorem sameBlocks_allowsLedger {kind' : BlockKind} (hne : kind ≠ kind') :
    AllowsLedger (SameBlocks kind blocks) kind'.ledger :=
  fun s _ => ⟨subset_rfl, (recorded_set s.registry kind' kind _).trans (if_neg hne)⟩

theorem mem_recorded {registry : Registry} {ptr : Nat} :
    ptr ∈ recorded registry kind ↔ (recordedLen registry kind ptr).isSome :=
  AList.lookup_isSome.symm

/-- A new block is not on the ledger, and it is recorded. -/
theorem wp_registerBlock_backed (hs : Backed kind blocks s) {ptr : Nat}
    (hnew : ptr ∉ recorded s.registry kind) (hthere : ptr ∈ blocks s.native)
    (drop : Nat → Nat → W → W) (len : Nat) :
    wp (registerBlock kind.ledger drop ptr len) (fun _ => Backed kind blocks)
      (fun _ => Backed kind blocks) s := by
  have hrun := registerBlock_run drop s kind ptr len
  rw [recordBlock, decide_eq_false hnew] at hrun
  refine wp_of_run_ok hrun fun ptr' hptr' => ?_
  rw [recorded_set, if_pos rfl] at hptr'
  rcases (AList.mem_insert _).mp hptr' with rfl | hptr'
  · exact hthere
  · exact hs ptr' hptr'

/-- A block is off the ledger before it is dropped. -/
theorem wp_freeBlock_backed (hs : Backed kind blocks s) {drop : Nat → Nat → W → W}
    (hdrop : ∀ ptr len w, blocks w \ {ptr} ⊆ blocks (drop ptr len w)) (ptr len : Nat) :
    wp (freeBlock kind.ledger drop ptr len) (fun _ => Backed kind blocks)
      (fun _ => Backed kind blocks) s := by
  have hrun := freeBlock_run drop s kind ptr len
  rcases hreleased : releaseBlock ⟨kind, ptr, len⟩ s.registry with ⟨result, registry⟩
  rw [hreleased] at hrun
  by_cases haccepted : result = .ok true
  · subst haccepted
    refine wp_of_run_ok hrun fun ptr' hptr' => ?_
    -- what is still recorded lies elsewhere
    rw [mem_recorded, (releaseBlock_accepted hreleased).2] at hptr'
    by_cases hsame : ptr' = ptr
    · rw [if_pos ⟨rfl, hsame⟩] at hptr'
      cases hptr'
    · rw [if_neg fun h => hsame h.2, ← mem_recorded] at hptr'
      exact hdrop ptr len s.native ⟨hs ptr' hptr', hsame⟩
  · have hkept : Backed kind blocks ⟨registry, s.native⟩ := by
      intro ptr' hptr'
      rw [mem_recorded, (releaseBlock_refused hreleased haccepted).2, ← mem_recorded] at hptr'
      exact hs ptr' hptr'
    cases result with
    | error rc => exact wp_of_run_error hrun hkept
    | ok accepted =>
      cases accepted with
      | false => exact wp_of_run_ok hrun hkept
      | true => exact absurd rfl haccepted

variable {native : Native W}

/-- **After any calls that leave the recorded blocks there, they are there.** -/
theorem backed_of_reachable
    (h : ∀ s, Backed kind blocks s → ∀ call, wp (exec native call) (fun _ => Backed kind blocks)
      (fun _ => Backed kind blocks) s)
    (hs : Reachable native s) : Backed kind blocks s := by
  obtain ⟨w, events, hrun⟩ := hs
  refine hrun.invariant (I := Backed kind blocks) (fun s event s' hs hexec => ?_) fun ptr hptr => ?_
  · exact Executes.of_wp native (P := fun _ => Backed kind blocks) hexec (h s hs event.1)
  · cases kind <;> exact absurd hptr (AList.notMem_empty ptr)

end

end PureSimdjson
