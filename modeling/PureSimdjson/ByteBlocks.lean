import PureSimdjson.BackedBlocks

/-!
# A recorded block of bytes is there

The copy of a string is a block of the process allocator.  Every call keeps the recorded
blocks of bytes where they are, and so the address of a new block is never on the ledger.
-/
namespace PureSimdjson

open Effect Runs

section
variable {W : Type}

/-- **What the allocator and the rest of the process do about the blocks of bytes**, where
`blocks w` are the addresses of those that are there: one more when one is made, one less when
it is dropped, and nothing else takes any away. -/
structure Allocates (native : Native W) (blocks : W → Set Nat) : Prop
    extends native.Plain (Grows blocks) where
  leakBytes : ∀ bytes w, bytes ≠ [] →
    NewBlock native.memory blocks bytes w (native.leakBytes bytes w)
  dropBytes : ∀ ptr len w, blocks w \ {ptr} ⊆ blocks (native.dropBytes ptr len w)
  parserNew : Keeps (Grows blocks) native.parserNew
  parserNewConfigured : ∀ maxCapacity maxDepth,
    Keeps (Grows blocks) (native.parserNewConfigured maxCapacity maxDepth)
  parserFree : ∀ parser, Keeps (Grows blocks) (native.parserFree parser)
  parserResetDiagnostics : ∀ parser, Keeps (Grows blocks) (native.parserResetDiagnostics parser)
  parserParse : ∀ parser input inputLen,
    Keeps (Grows blocks) (native.parserParse parser input inputLen)
  docRoot : ∀ doc, Keeps (Grows blocks) (native.docRoot doc)
  leakViews : ∀ views w, Grows blocks w (native.leakViews views w).2
  dropViews : ∀ ptr len w, Grows blocks w (native.dropViews ptr len w)

variable {native : Native W} {blocks : W → Set Nat} (h : Allocates native blocks) {s : Runtime W}
include h

theorem Allocates.onParsers : native.OnParsers (Grows blocks) where
  parserNew := h.parserNew
  parserNewConfigured := h.parserNewConfigured
  parserFree := h.parserFree
  parserResetDiagnostics := h.parserResetDiagnostics
  parserParse := h.parserParse
  docRoot := h.docRoot

/-- Making the copy of a string: the block is new and not on the ledger yet. -/
theorem wp_copy_backed (hs : Backed .bytes blocks s) (getter : ElementRead Span)
    (view : Option ValueView) :
    wp (withResolvedView view fun jsonIndex _ => do
        let borrowed ← onDoc (native.read getter · jsonIndex)
        if borrowed.len = 0 then pure (0, 0)
        else do
          require (borrowed.ptr ≠ 0) .internal
          let ptr ← onDoc fun _ => do
            let bytes := (native.memory (← get)).read borrowed
            modifyGet (native.leakBytes bytes)
          pure (ptr, borrowed.len))
      (fun block s' => Backed .bytes blocks s' ∧ (block.1 ≠ 0 →
        block.1 ∉ recorded s'.registry .bytes ∧ block.1 ∈ blocks s'.native))
      (fun _ s' => Backed .bytes blocks s') s := by
  refine wp_withResolvedView (fun _ => hs) (fun _ _ => hs) ?_
  intro v slot generation entry jsonIndex _ _ _ _ _
  have hkept {e : DocEntry × W} (hgrows : Grows blocks s.native e.2) :
      Backed .bytes blocks ⟨s.registry.setDoc (slotIndex slot) (.occupied e.1), e.2⟩ :=
    hs.of_same ⟨hgrows, rfl⟩
  rw [wp_bind]
  refine wp_mono (frame_readDoc h.toPlain getter jsonIndex (entry, s.native)) ?_
    fun _ _ hgrows => hkept hgrows
  intro borrowed e hgrows
  rw [wp_ite]
  refine ⟨fun _ => ⟨hkept hgrows, fun hne => absurd rfl hne⟩, fun hlen => ?_⟩
  rw [wp_bind, wp_require]
  refine ⟨fun _ => ?_, fun _ => hkept hgrows⟩
  have hbytes : (native.memory e.2).read borrowed ≠ [] := by
    intro hnil
    have := congrArg List.length hnil
    simp [Memory.read] at this
    exact hlen this
  have hmade := h.leakBytes _ e.2 hbytes
  rw [wp_bind, wp_onDoc]
  refine ⟨hkept (hgrows.trans hmade.grows), fun _ => ⟨fun hmem => ?_, hmade.there⟩⟩
  exact hmade.fresh (hgrows (hs _ hmem))

/-- A new block is recorded. -/
theorem wp_elementGetBytesCopy_backed (hs : Backed .bytes blocks s) (getter : ElementRead Span)
    (view : Option ValueView) :
    wp (elementGetBytesCopy native getter view) (fun _ => Backed .bytes blocks)
      (fun _ => Backed .bytes blocks) s := by
  rw [elementGetBytesCopy, wp_bind]
  refine wp_mono (wp_copy_backed h hs getter view) ?_ fun _ _ => id
  rintro ⟨ptr, len⟩ s' ⟨hs', hnew⟩
  dsimp only
  rw [wp_ite]
  refine ⟨fun _ => hs', fun hptr => ?_⟩
  obtain ⟨hfree, hthere⟩ := hnew hptr
  exact wp_registerBlock_backed hs' hfree hthere _ _

/-- **Every call leaves the recorded blocks of bytes there**, with any arguments. -/
theorem wp_exec_backed (hs : Backed .bytes blocks s) (call : Call) :
    wp (exec native call) (fun _ => Backed .bytes blocks) (fun _ => Backed .bytes blocks) s := by
  have hother : BlockKind.bytes ≠ .views := by decide
  have hsame {m : RuntimeM W Reply} (hm : Keeps (SameBlocks .bytes blocks) m) :
      wp m (fun _ => Backed .bytes blocks) (fun _ => Backed .bytes blocks) s :=
    wp_mono (hm s) (fun _ _ h => hs.of_same h) fun _ _ h => hs.of_same h
  by_cases hblocks : call.OnBlocks
  · cases call with
    | elementGetString view =>
      rw [exec, wp_map]
      exact wp_elementGetBytesCopy_backed h hs _ view
    | elementGetBigint view =>
      rw [exec, wp_map]
      exact wp_elementGetBytesCopy_backed h hs _ view
    | bytesFree ptr len =>
      rw [exec, wp_map]
      exact wp_freeBlock_backed hs h.dropBytes ptr len
    | valueViewsFree ptr len =>
      exact hsame ((frame_freeBlock frames_sameBlocks (sameBlocks_allowsLedger hother) h.dropViews
        ptr len).map _)
    | elementAtPathWildcard view path =>
      exact hsame ((frame_elementAtPathWildcard h.toPlain frames_sameBlocks
        (sameBlocks_allowsLedger hother) h.leakViews h.dropViews view path).map _)
    | _ => exact hblocks.elim
  · exact wp_mono (sameLedgers_exec h.onParsers h.toPlain call hblocks s)
      (fun _ _ h => hs.of_same h.sameBlocks) fun _ _ h => hs.of_same h.sameBlocks

theorem Executes.backed {s' : Runtime W} {event : Event} (hexec : Executes native s event s')
    (hs : Backed .bytes blocks s) : Backed .bytes blocks s' :=
  Executes.of_wp native (P := fun _ => Backed .bytes blocks) hexec (wp_exec_backed h hs event.1)

/-- **After any calls, every recorded block of bytes is there.** -/
theorem Allocates.backed (hs : Reachable native s) : Backed .bytes blocks s :=
  backed_of_reachable (fun _ hs => wp_exec_backed h hs) hs

end

/-! ## The bridge -/

section
variable {W : Type} {R : W → W → Prop} [Std.Refl R] (sj : Simdjson W)

theorem keeps_getOrReturn {α : Type} (result : Except SimdjsonError α) :
    Keeps R (getOrReturn result : NativeM W α) := by
  cases result with
  | ok a => exact Keeps.pure a
  | error e => exact Keeps.throw _

theorem keeps_psimdjsonMaterializeBuild (held : Bool) (dom : Dom Nat) (jsonIndex : Nat) :
    Keeps R (psimdjsonMaterializeBuild held dom jsonIndex : NativeM W (List Frame)) := by
  refine Keeps.ite (Keeps.throw _) ?_
  cases (appendMaterializeFrame dom jsonIndex .empty 0).run [] with
  | ok _ frames => exact quiet_orInternal _ _
  | error rc _ => exact Keeps.throw rc

variable [IsTrans W R]

theorem keeps_readElement {α : Type} (read : ElementRead α) (dom : Dom Nat) (w : W)
    (doc jsonIndex : Nat) : Keeps R (readElement sj dom w doc jsonIndex read) := by
  cases read with
  | elementTypeAt => exact Keeps.pure _
  | elementGetInt64At => exact keeps_getOrReturn _
  | elementGetUint64At => exact keeps_getOrReturn _
  | elementGetFloat64At => exact keeps_getOrReturn _
  | elementGetStringView => exact (keeps_getOrReturn _).map _
  | elementGetBigintView => exact (keeps_getOrReturn _).map _
  | elementGetBoolAt => exact keeps_getOrReturn _
  | elementIsNullAt => exact Keeps.pure _
  | elementAfterIndex => exact Keeps.pure _
  | arrayIterBounds => exact (Keeps.require _ _).bind fun _ => Keeps.pure _
  | objectIterBounds => exact (Keeps.require _ _).bind fun _ => Keeps.pure _
  | objectGetFieldIndex key => exact (keeps_getOrReturn _).bind fun _ => keeps_getOrReturn _
  | arrayAtIndex index => exact (keeps_getOrReturn _).bind fun _ => keeps_getOrReturn _
  | arraySize => exact (keeps_getOrReturn _).bind fun _ => keeps_getOrReturn _
  | objectSize => exact (keeps_getOrReturn _).bind fun _ => keeps_getOrReturn _
  | elementAtPointerIndex pointer => exact keeps_getOrReturn _
  | elementAtPathIndex path => exact keeps_getOrReturn _
  | elementAtPathWildcardIndices path =>
    rw [readElement]
    cases classifyWildcardPath sj.validateUtf8 path with
    | none => exact Keeps.throw _
    | some segments => exact Keeps.ofExcept _
  | materializeBuild => exact keeps_psimdjsonMaterializeBuild false _ _
  | testHoldMaterializeGuard =>
    exact (keeps_psimdjsonMaterializeBuild true _ _).bind fun _ => Keeps.pure _

/-- The reads of the bridge change nothing. -/
theorem keeps_bridgeRead {α : Type} (read : ElementRead α) (doc jsonIndex : Nat) :
    Keeps R (bridgeRead sj read doc jsonIndex) :=
  Keeps.ite (Keeps.throw _) (Keeps.get.bind fun _ => keeps_readElement sj read _ _ _ _)

theorem allocates_bridge {base : Native W} {blocks : W → Set Nat} (h : Allocates base blocks) :
    Allocates (bridge sj base) blocks where
  parserGetLastErrorLen := h.parserGetLastErrorLen
  parserCopyLastError := h.parserCopyLastError
  parserGetLastErrorOffset := h.parserGetLastErrorOffset
  parserGetLastErrorHasOffset := h.parserGetLastErrorHasOffset
  docFree := h.docFree
  elementType := h.elementType
  read := keeps_bridgeRead sj
  leakBytes := h.leakBytes
  dropBytes := h.dropBytes
  parserNew := h.parserNew
  parserNewConfigured := h.parserNewConfigured
  parserFree := h.parserFree
  parserResetDiagnostics := h.parserResetDiagnostics
  parserParse := h.parserParse
  docRoot := h.docRoot
  leakViews := h.leakViews
  dropViews := h.dropViews

end

/-! ## The sample -/

/-- The addresses that have been handed out. -/
def SampleWorld.blocks (w : SampleWorld) : Set Nat :=
  {ptr | 2 ^ 32 ≤ ptr ∧ ptr < 2 ^ 32 + w.heap.length}

theorem sample_allocates : Allocates sampleBase SampleWorld.blocks where
  parserGetLastErrorLen _ := Keeps.pure _
  parserCopyLastError _ _ _ _ := Keeps.pure _
  parserGetLastErrorOffset _ := Keeps.pure _
  parserGetLastErrorHasOffset _ := Keeps.pure _
  docFree _ := fun _ => subset_rfl
  elementType _ := Keeps.pure _
  read _ _ _ := Keeps.throw _
  parserNew := Keeps.pure _
  parserNewConfigured _ _ := Keeps.pure _
  parserFree _ := Keeps.pure _
  parserResetDiagnostics _ := Keeps.pure _
  parserParse _ _ _ := fun _ => subset_rfl
  docRoot _ := Keeps.pure _
  leakBytes bytes w hne := by
    have hpos := List.length_pos_iff.mpr hne
    refine ⟨?_, ?_, ?_, ?_, ?_⟩
    · simp [sampleBase]
    · simp [sampleBase, SampleWorld.blocks]
    · simpa [sampleBase, SampleWorld.blocks] using hpos
    · rintro ptr ⟨hle, hlt⟩
      simp only [sampleBase, SampleWorld.blocks, List.length_append, Set.mem_ofPred_eq]
      omega
    · refine List.ext_getElem (by simp) fun i hi hi' => ?_
      have hlow : ¬ 2 ^ 32 + w.heap.length + i < 2 ^ 32 := by omega
      have hoffset : 2 ^ 32 + w.heap.length + i - 2 ^ 32 = w.heap.length + i := by omega
      simp only [List.getElem_map, List.getElem_range, sampleBase, SampleWorld.memory]
      rw [if_neg hlow, hoffset, List.getD_append_right _ _ _ _ (by omega), Nat.add_sub_cancel_left,
        List.getD_eq_getElem _ _ hi']
  leakViews views w := by
    rintro ptr ⟨hle, hlt⟩
    simp only [sampleBase, SampleWorld.blocks, List.length_append, Set.mem_ofPred_eq]
    omega
  dropBytes _ _ _ := Set.sdiff_subset
  dropViews _ _ _ := subset_rfl

end PureSimdjson
