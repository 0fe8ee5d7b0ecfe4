import PureSimdjson.Ownership

/-!
# Calls that are not on a parser

Four calls make, free or use a native parser.  All others only read and free documents and
pass blocks around.  What such a call respects is read off what its native functions respect
and which tables of the registry it writes to (`Frames`).

The first use is the parser table: these calls leave it as it is, but for which parser is
busy and who has a buffer, and leave on the native side what their native functions leave
there (`quiet_exec`).
-/
namespace PureSimdjson

open Effect SlotTable

/-- The native functions that have nothing to do with parsing respect `R`. -/
structure Native.Quiet {W : Type} (native : Native W) (R : W → W → Prop) : Prop where
  parserGetLastErrorLen : ∀ parser, Keeps R (native.parserGetLastErrorLen parser)
  parserCopyLastError : ∀ parser dst dstCap outWritten,
    Keeps R (native.parserCopyLastError parser dst dstCap outWritten)
  parserGetLastErrorOffset : ∀ parser, Keeps R (native.parserGetLastErrorOffset parser)
  parserGetLastErrorHasOffset : ∀ parser, Keeps R (native.parserGetLastErrorHasOffset parser)
  docRoot : ∀ doc, Keeps R (native.docRoot doc)
  docFree : ∀ doc, Keeps R (native.docFree doc)
  elementType : ∀ element, Keeps R (native.elementType element)
  read : ∀ {α : Type} (read : ElementRead α) doc jsonIndex, Keeps R (native.read read doc jsonIndex)
  leakBytes : ∀ bytes w, R w (native.leakBytes bytes w).2
  leakViews : ∀ views w, R w (native.leakViews views w).2
  dropBytes : ∀ ptr len w, R w (native.dropBytes ptr len w)
  dropViews : ∀ ptr len w, R w (native.dropViews ptr len w)

/-- The calls that make, free or use a native parser. -/
def Call.OnParser : Call → Prop
  | .parserNew => True
  | .parserNewConfigured _ _ => True
  | .parserFree _ => True
  | .parserParse _ _ => True
  | _ => False

/-- A slot of the parser table without what a parse or a free changes in it. -/
def forgetUse : Slot UInt32 ParserEntry → Slot UInt32 ParserEntry
  | .occupied entry => .occupied { entry with state := .idle, reusableInput := [] }
  | .vacant generation => .vacant generation

/-- The same parsers are there, in the same slots. -/
def SameParsers (registry registry' : Registry) : Prop :=
  registry'.parsers.map forgetUse = registry.parsers.map forgetUse

theorem sameParsers_setParser {registry : Registry} {index : Nat} {generation : UInt32}
    {entry : ParserEntry} (h : registry.parserAt index generation = some entry)
    (state : ParserState) (input : Bytes) :
    SameParsers registry (registry.setParser index
      (.occupied { entry with state := state, reusableInput := input })) := by
  exact map_set_of_eq (Registry.parserAt_eq_some.mp h).1 rfl

section
variable {W : Type}

/-- **What a relation between states has to allow for** to be respected by calls whose native
functions respect `R`: the native side moves, a document is written to or freed, and the
parser that owned it is idle again. -/
structure Frames (R : W → W → Prop) (Q : Runtime W → Runtime W → Prop) : Prop where
  native : ∀ s w, R s.native w → Q s ⟨s.registry, w⟩
  setDoc : ∀ s index slot w, R s.native w → Q s ⟨s.registry.setDoc index slot, w⟩
  setOwner : ∀ s index generation entry state input,
    s.registry.parserAt index generation = some entry →
      Q s ⟨s.registry.setParser index
        (.occupied { entry with state := state, reusableInput := input }), s.native⟩

/-- A ledger may be written to. -/
def AllowsLedger (Q : Runtime W → Runtime W → Prop) (ledger : Ledger) : Prop :=
  ∀ s allocations, Q s ⟨ledger.set s.registry allocations, s.native⟩

/-- The native functions of the calls that are not on a parser and not about blocks. -/
structure Native.Plain (native : Native W) (R : W → W → Prop) : Prop where
  parserGetLastErrorLen : ∀ parser, Keeps R (native.parserGetLastErrorLen parser)
  parserCopyLastError : ∀ parser dst dstCap outWritten,
    Keeps R (native.parserCopyLastError parser dst dstCap outWritten)
  parserGetLastErrorOffset : ∀ parser, Keeps R (native.parserGetLastErrorOffset parser)
  parserGetLastErrorHasOffset : ∀ parser, Keeps R (native.parserGetLastErrorHasOffset parser)
  docFree : ∀ doc, Keeps R (native.docFree doc)
  elementType : ∀ element, Keeps R (native.elementType element)
  read : ∀ {α : Type} (read : ElementRead α) doc jsonIndex, Keeps R (native.read read doc jsonIndex)

theorem Native.Quiet.plain {native : Native W} {R : W → W → Prop} (h : native.Quiet R) :
    native.Plain R where
  parserGetLastErrorLen := h.parserGetLastErrorLen
  parserCopyLastError := h.parserCopyLastError
  parserGetLastErrorOffset := h.parserGetLastErrorOffset
  parserGetLastErrorHasOffset := h.parserGetLastErrorHasOffset
  docFree := h.docFree
  elementType := h.elementType
  read := h.read

/-- The calls that hand out a block or take one back. -/
def Call.OnBlocks : Call → Prop
  | .elementGetString _ => True
  | .elementGetBigint _ => True
  | .bytesFree _ _ => True
  | .valueViewsFree _ _ => True
  | .elementAtPathWildcard _ _ => True
  | _ => False

variable {R : W → W → Prop} {Q : Runtime W → Runtime W → Prop} {α : Type}

/-- The same while a document is at hand. -/
def OnDocNative (R : W → W → Prop) (s s' : DocEntry × W) : Prop := R s.2 s'.2

instance [Std.Refl R] : Std.Refl (OnDocNative R) := ⟨fun s => Std.Refl.refl s.2⟩

instance [IsTrans W R] : IsTrans (DocEntry × W) (OnDocNative R) :=
  ⟨fun _ _ _ h h' => IsTrans.trans (r := R) _ _ _ h h'⟩

theorem frame_onDoc {call : Nat → NativeM W α} (h : ∀ doc, Keeps R (call doc)) :
    Keeps (OnDocNative R) (onDoc call) := by
  intro s
  rw [wp_onDoc]
  exact h s.1.nativePtr s.2

theorem frame_modify {f : W → W} (h : ∀ w, R w (f w)) : Keeps R (modify f : NativeM W PUnit) := h

theorem frame_modifyGet {f : W → α × W} (h : ∀ w, R w (f w).2) :
    Keeps R (modifyGet f : NativeM W α) := h

theorem frame_callNative (hQ : Frames R Q) {call : NativeM W α} (h : Keeps R call) :
    Keeps Q (callNative call) :=
  Keeps.zoom (fun s w hw => hQ.native s w hw) h

theorem frame_setLedger {ledger : Ledger} (h : AllowsLedger Q ledger)
    (change : Registry → AList fun _ : Nat => Nat) :
    Keeps Q (modifyRegistry fun registry => ledger.set registry (change registry)) :=
  fun s => h s _

theorem quiet_orInternal {σ : Type} {R : σ → σ → Prop} [Std.Refl R] (usable : α → Bool) (a : α) :
    Keeps R (orInternal usable a : EStateM ErrorCode σ α) :=
  Keeps.ite (Keeps.pure a) (Keeps.throw _)

section
variable [Std.Refl R]

theorem frame_getEntry : Keeps (OnDocNative R) getEntry := fun s => Std.Refl.refl s.2

theorem frame_modifyEntry (change : DocEntry → DocEntry) :
    Keeps (OnDocNative R) (modifyEntry change) := fun s => Std.Refl.refl s.2

variable [IsTrans W R]

theorem frame_updateLease (leaseId : UInt32) (state0 state1 tag : Nat) :
    Keeps (OnDocNative R) (updateLease leaseId state0 state1 tag) :=
  frame_getEntry.bind fun _ => (Keeps.ofExcept _).bind fun _ => frame_modifyEntry _

theorem frame_allocLease (tag state0 state1 : Nat) :
    Keeps (OnDocNative R) (allocLease tag state0 state1) :=
  frame_getEntry.bind fun _ => (Keeps.ofExcept _).bind fun _ =>
    (frame_modifyEntry _).bind fun _ => Keeps.pure _

end

section
variable [Std.Refl Q]

theorem frame_getRegistry : Keeps Q getRegistry := fun s => Std.Refl.refl s

variable [IsTrans (Runtime W) Q]

theorem frame_lookupDoc (index : Nat) (generation : UInt32) :
    Keeps Q (lookupDoc index generation) := by
  refine frame_getRegistry.bind fun registry => ?_
  cases registry.docAt index generation with
  | none => exact Keeps.throw _
  | some entry => exact Keeps.pure _

theorem frame_lookupParser (index : Nat) (generation : UInt32) :
    Keeps Q (lookupParser index generation) := by
  refine frame_getRegistry.bind fun registry => ?_
  cases registry.parserAt index generation with
  | none => exact Keeps.throw _
  | some entry => exact Keeps.pure _

theorem frame_withParser (hQ : Frames R Q) (handle : UInt64) {call : Nat → NativeM W α}
    (h : ∀ parser, Keeps R (call parser)) : Keeps Q (withParser handle call) :=
  frame_getRegistry.bind fun _ => (Keeps.ofExcept _).bind fun _ => frame_callNative hQ (h _)

theorem frame_registerBlock (hQ : Frames R Q) {ledger : Ledger} (h : AllowsLedger Q ledger)
    {drop : Nat → Nat → W → W} (hdrop : ∀ ptr len w, R w (drop ptr len w)) (ptr len : Nat) :
    Keeps Q (registerBlock ledger drop ptr len) :=
  frame_getRegistry.bind fun _ => (frame_setLedger h _).bind fun _ =>
    Keeps.ite ((frame_callNative hQ (frame_modify (hdrop ptr len))).bind fun _ => Keeps.throw _)
      (Keeps.pure _)

theorem frame_freeBlock (hQ : Frames R Q) {ledger : Ledger} (h : AllowsLedger Q ledger)
    {drop : Nat → Nat → W → W} (hdrop : ∀ ptr len w, R w (drop ptr len w)) (ptr len : Nat) :
    Keeps Q (freeBlock ledger drop ptr len) := by
  refine Keeps.ite (Keeps.require _ _) ((Keeps.require _ _).bind fun _ =>
    frame_getRegistry.bind fun registry => ?_)
  cases (ledger.get registry).lookup ptr with
  | none => exact Keeps.throw _
  | some registeredLen =>
    exact (frame_setLedger h _).bind fun _ =>
      Keeps.ite (frame_callNative hQ (frame_modify (hdrop ptr len)))
        ((frame_setLedger h _).bind fun _ => Keeps.throw _)

theorem frame_withDoc (hQ : Frames R Q) {action : DocM W α} (h : Keeps (OnDocNative R) action)
    (index : Nat) (generation : UInt32) : Keeps Q (withDoc index generation action) := by
  refine frame_getRegistry.bind fun registry => ?_
  cases registry.docAt index generation with
  | none => exact Keeps.throw _
  | some entry => exact Keeps.zoom (fun s e he => hQ.setDoc s index _ e.2 he) h

variable [Std.Refl R] [IsTrans W R]

theorem frame_withResolvedView (hQ : Frames R Q) {action : Nat → UInt64 → DocM W α}
    (h : ∀ jsonIndex doc, Keeps (OnDocNative R) (action jsonIndex doc)) (view : Option ValueView) :
    Keeps Q (withResolvedView view action) := by
  cases view with
  | none => exact Keeps.throw _
  | some view =>
    refine (Keeps.require _ _).bind fun _ => (Keeps.ofExcept _).bind fun parts => ?_
    exact frame_withDoc hQ
      (frame_getEntry.bind fun _ => (Keeps.ofExcept _).bind fun _ => h _ _) _ _

theorem frame_withIterDoc (hQ : Frames R Q) {action : DocM W α}
    (h : Keeps (OnDocNative R) action) (iter : Iter) (tag : Nat) :
    Keeps Q (withIterDoc iter tag action) := by
  refine (Keeps.require _ _).bind fun _ => (Keeps.ofExcept _).bind fun parts => ?_
  exact frame_withDoc hQ (frame_getEntry.bind fun _ => (Keeps.ofExcept _).bind fun _ =>
    (Keeps.ofExcept _).bind fun _ => (Keeps.ofExcept _).bind fun _ => h) _ _

end

end

/-! ## The calls that are not on a parser -/

section
variable {W : Type} {native : Native W} {R : W → W → Prop} {Q : Runtime W → Runtime W → Prop}
  (h : native.Plain R)
include h

theorem frame_readDoc {α : Type} (read : ElementRead α) (jsonIndex : Nat) :
    Keeps (OnDocNative R) (onDoc (native.read read · jsonIndex)) :=
  frame_onDoc fun _ => h.read read _ _

variable [Std.Refl R] [IsTrans W R]

theorem frame_readOrInternal {α : Type} (read : ElementRead α) (usable : α → Bool)
    (jsonIndex : Nat) : Keeps (OnDocNative R) (onDoc fun doc => do
      orInternal usable (← native.read read doc jsonIndex)) :=
  frame_onDoc fun _ => (h.read read _ _).bind fun _ => quiet_orInternal usable _

theorem frame_requireKind (kind : ValueKind) (jsonIndex : Nat) :
    Keeps (OnDocNative R) (requireKind native kind jsonIndex) :=
  (frame_readDoc h _ _).bind fun _ => Keeps.require _ _

theorem frame_encodeDescendantView (handle : UInt64) (jsonIndex : Nat) :
    Keeps (OnDocNative R) (encodeDescendantView native handle jsonIndex) :=
  frame_getEntry.bind fun _ => (Keeps.require _ _).bind fun _ => (frame_readDoc h _ _).bind fun _ =>
    (frame_modifyEntry _).bind fun _ => Keeps.pure _

/-- The lookups that issue the one index they find. -/
theorem frame_lookup (read : ElementRead Nat) (handle : UInt64) (jsonIndex : Nat) :
    Keeps (OnDocNative R) (do
      let valueJsonIndex ← onDoc (nativeLookup native read · jsonIndex)
      encodeDescendantView native handle valueJsonIndex) :=
  (frame_readOrInternal h read _ jsonIndex).bind fun _ => frame_encodeDescendantView h _ _

variable [Std.Refl Q] [IsTrans (Runtime W) Q] (hQ : Frames R Q)
include hQ

theorem frame_readView {α : Type} (read : ElementRead α) (view : Option ValueView) :
    Keeps Q (readView native read view) :=
  frame_withResolvedView hQ (fun _ _ => frame_readDoc h _ _) view

theorem frame_elementGetFloat64 (view : Option ValueView) :
    Keeps Q (elementGetFloat64 native view) := by
  refine frame_withResolvedView hQ (fun _ _ => (frame_readDoc h _ _).bind fun kind => ?_) view
  refine Keeps.ite ?_ (Keeps.ite ?_ (frame_readDoc h _ _))
  · exact (frame_readDoc h _ _).bind fun _ => (Keeps.require _ _).bind fun _ => Keeps.pure _
  · exact (frame_readDoc h _ _).bind fun _ => (Keeps.require _ _).bind fun _ => Keeps.pure _

theorem frame_elementGetBytesCopy (hledger : AllowsLedger Q byteLedger)
    (hleak : ∀ bytes w, R w (native.leakBytes bytes w).2)
    (hdrop : ∀ ptr len w, R w (native.dropBytes ptr len w)) (getter : ElementRead Span)
    (view : Option ValueView) : Keeps Q (elementGetBytesCopy native getter view) := by
  refine (frame_withResolvedView hQ (fun _ _ => ?_) view).bind fun block => ?_
  · refine (frame_readDoc h _ _).bind fun borrowed => Keeps.ite (Keeps.pure _) ?_
    refine (Keeps.require _ _).bind fun _ => (frame_onDoc fun _ => ?_).bind fun _ => Keeps.pure _
    exact Keeps.get.bind fun w => frame_modifyGet (hleak ((native.memory w).read borrowed))
  · exact Keeps.ite (Keeps.pure _) (frame_registerBlock hQ hledger hdrop _ _)

theorem frame_elementAtPathWildcard (hledger : AllowsLedger Q viewLedger)
    (hleak : ∀ views w, R w (native.leakViews views w).2)
    (hdrop : ∀ ptr len w, R w (native.dropViews ptr len w)) (view : Option ValueView)
    (path : Bytes) : Keeps Q (elementAtPathWildcard native view path) := by
  refine (frame_withResolvedView hQ (fun _ doc => ?_) view).bind fun views => ?_
  · exact (frame_readDoc h _ _).bind fun indices =>
      Keeps.mapM (fun _ => frame_encodeDescendantView h doc _) indices
  · exact Keeps.ite (Keeps.pure _) ((frame_callNative hQ (frame_modifyGet (hleak views))).bind
      fun _ => frame_registerBlock hQ hledger hdrop _ _)

theorem frame_size (kind : ValueKind) (read : ElementRead Nat) (view : Option ValueView) :
    Keeps Q (withResolvedView view fun jsonIndex _ => do
      requireKind native kind jsonIndex
      onDoc (native.read read · jsonIndex)) :=
  frame_withResolvedView hQ
    (fun _ _ => (frame_requireKind h _ _).bind fun _ => frame_readDoc h _ _) view

theorem frame_iterNew (kind : ValueKind) (read : ElementRead (Nat × Nat)) (tag : Nat)
    (view : Option ValueView) :
    Keeps Q (withResolvedView view fun jsonIndex doc => do
      requireKind native kind jsonIndex
      let (state0, state1) ← onDoc (nativeIterBounds native read · jsonIndex)
      let leaseId ← allocLease tag state0 state1
      pure (⟨doc, state0, state1, leaseId, tag, 0⟩ : Iter)) := by
  refine frame_withResolvedView hQ (fun _ _ => (frame_requireKind h _ _).bind fun _ => ?_) view
  refine (frame_readOrInternal h read _ _).bind fun bounds => ?_
  exact (frame_allocLease _ _ _).bind fun _ => Keeps.pure _

theorem frame_arrayIterNext (iter : Option Iter) : Keeps Q (arrayIterNext native iter) := by
  cases iter with
  | none => exact Keeps.throw _
  | some iter =>
    refine frame_withIterDoc hQ (Keeps.ite (Keeps.pure _) ?_) iter _
    exact (frame_encodeDescendantView h _ _).bind fun _ =>
      (frame_readOrInternal h _ _ _).bind fun _ => (Keeps.require _ _).bind fun _ =>
        (frame_updateLease _ _ _ _).bind fun _ => Keeps.pure _

theorem frame_objectIterNext (iter : Option Iter) : Keeps Q (objectIterNext native iter) := by
  cases iter with
  | none => exact Keeps.throw _
  | some iter =>
    refine frame_withIterDoc hQ (Keeps.ite (Keeps.pure _) ?_) iter _
    refine (Keeps.require _ _).bind fun _ => (Keeps.require _ _).bind fun _ =>
      frame_getEntry.bind fun _ => (Keeps.ofExcept _).bind fun _ =>
        (frame_readDoc h _ _).bind fun _ => (Keeps.require _ _).bind fun _ => ?_
    exact (frame_encodeDescendantView h _ _).bind fun _ =>
      (frame_encodeDescendantView h _ _).bind fun _ => (frame_readOrInternal h _ _ _).bind fun _ =>
        (Keeps.require _ _).bind fun _ => (frame_updateLease _ _ _ _).bind fun _ => Keeps.pure _

omit [Std.Refl R] [IsTrans W R] in
theorem frame_docRoot (handle : UInt64) : Keeps Q (docRoot native handle) :=
  frame_getRegistry.bind fun _ => (Keeps.ofExcept _).bind fun _ =>
    (frame_callNative hQ (h.elementType _)).bind fun _ => Keeps.pure _

omit [IsTrans W R] in
theorem frame_docFree (handle : UInt64) : Keeps Q (docFree native handle) := by
  refine (Keeps.ofExcept _).bind fun parts => (frame_lookupDoc _ _).bind fun doc =>
    (Keeps.require _ _).bind fun _ => (frame_lookupParser _ _).bind fun owner =>
      (Keeps.require _ _).bind fun _ => (frame_callNative hQ (h.docFree _)).bind fun _ =>
        frame_getRegistry.bind fun registry => ?_
  cases registry.docAt parts.1 parts.2.2 with
  | none => exact Keeps.throw _
  | some entry =>
    have hvacate : Keeps Q (modifyRegistry (W := W) fun registry =>
        registry.setDoc parts.1 (.vacant (nextDocGeneration parts.2.2))) :=
      fun s => hQ.setDoc s _ _ s.native (Std.Refl.refl s.native)
    refine hvacate.bind fun _ s => ?_
    rw [wp_bind, wp_getRegistry]
    cases howner : s.registry.parserAt (doc.ownerSlot - 1).toNat doc.ownerGeneration with
    | none => exact Std.Refl.refl s
    | some owner => exact hQ.setOwner s _ _ owner _ _ howner

/-- **A call that is neither on a parser nor about blocks respects what its native functions
respect.** -/
theorem frame_exec (call : Call) (hparser : ¬ call.OnParser) (hblocks : ¬ call.OnBlocks) :
    Keeps Q (exec native call) := by
  cases call with
  | parserNew => exact absurd trivial hparser
  | parserNewConfigured _ _ => exact absurd trivial hparser
  | parserFree _ => exact absurd trivial hparser
  | parserParse _ _ => exact absurd trivial hparser
  | elementGetString _ => exact absurd trivial hblocks
  | elementGetBigint _ => exact absurd trivial hblocks
  | bytesFree _ _ => exact absurd trivial hblocks
  | valueViewsFree _ _ => exact absurd trivial hblocks
  | elementAtPathWildcard _ _ => exact absurd trivial hblocks
  | parserLastErrorLen _ => exact (frame_withParser hQ _ h.parserGetLastErrorLen).map _
  | parserCopyLastError _ _ _ _ =>
    exact (frame_withParser hQ _ fun _ => h.parserCopyLastError _ _ _ _).map _
  | parserLastErrorOffset _ => exact (frame_withParser hQ _ h.parserGetLastErrorOffset).map _
  | parserLastErrorHasOffset _ => exact (frame_withParser hQ _ h.parserGetLastErrorHasOffset).map _
  | docFree _ => exact (frame_docFree h hQ _).map _
  | docRoot _ => exact (frame_docRoot h hQ _).map _
  | elementType view => exact (frame_readView h hQ _ view).map _
  | elementGetInt64 view => exact (frame_readView h hQ _ view).map _
  | elementGetUint64 view => exact (frame_readView h hQ _ view).map _
  | elementGetFloat64 view => exact (frame_elementGetFloat64 h hQ view).map _
  | elementGetBool view => exact (frame_readView h hQ _ view).map _
  | elementIsNull view => exact (frame_readView h hQ _ view).map _
  | arrayIterNew view => exact (frame_iterNew h hQ _ _ _ view).map _
  | arrayIterNext iter => exact (frame_arrayIterNext h hQ iter).map _
  | objectIterNew view => exact (frame_iterNew h hQ _ _ _ view).map _
  | objectIterNext iter => exact (frame_objectIterNext h hQ iter).map _
  | objectGetField view _ =>
    exact (frame_withResolvedView hQ (fun _ _ => (frame_requireKind h _ _).bind fun _ =>
      frame_lookup h _ _ _) view).map _
  | arrayAt view _ =>
    exact (frame_withResolvedView hQ (fun _ _ => (frame_requireKind h _ _).bind fun _ =>
      frame_lookup h _ _ _) view).map _
  | arrayLen view => exact (frame_size h hQ _ _ view).map _
  | objectSize view => exact (frame_size h hQ _ _ view).map _
  | elementAtPointer view _ =>
    exact (frame_withResolvedView hQ (fun _ _ => frame_lookup h _ _ _) view).map _
  | elementAtPath view _ =>
    exact (frame_withResolvedView hQ (fun _ _ => frame_lookup h _ _ _) view).map _
  | materializeBuild view =>
    exact (frame_withResolvedView hQ (fun _ _ => frame_readOrInternal h _ _ _) view).map _
  | testHoldMaterializeGuard view => exact (frame_readView h hQ _ view).map _

end

/-! ## The parser table -/

section
variable {W : Type} {R : W → W → Prop}

/-- The native side is related, and the parser table is the same. -/
structure Quietly (R : W → W → Prop) (s s' : Runtime W) : Prop where
  native : R s.native s'.native
  parsers : SameParsers s.registry s'.registry

instance [Std.Refl R] : Std.Refl (Quietly R) := ⟨fun s => ⟨Std.Refl.refl s.native, rfl⟩⟩

instance [IsTrans W R] : IsTrans (Runtime W) (Quietly R) :=
  ⟨fun _ _ _ h h' => ⟨IsTrans.trans (r := R) _ _ _ h.native h'.native, h'.parsers.trans h.parsers⟩⟩

variable [Std.Refl R]

theorem frames_quietly : Frames R (Quietly R) where
  native _ _ hw := ⟨hw, rfl⟩
  setDoc _ _ _ _ hw := ⟨hw, rfl⟩
  setOwner s _ _ _ _ _ howner := ⟨Std.Refl.refl s.native, sameParsers_setParser howner _ _⟩

theorem quietly_allowsLedger {ledger : Ledger} (h : ledger.Apart) :
    AllowsLedger (Quietly R) ledger :=
  fun s _ => ⟨Std.Refl.refl s.native, by rw [SameParsers, h.parsers]⟩

/-- **A call that is not on a parser respects what its native functions respect.** -/
theorem quiet_exec {native : Native W} [IsTrans W R] (h : native.Quiet R) (call : Call)
    (hcall : ¬ call.OnParser) : Keeps (Quietly R) (exec native call) := by
  have hbytes := quietly_allowsLedger (R := R) byteLedger_apart
  have hviews := quietly_allowsLedger (R := R) viewLedger_apart
  cases call with
  | elementGetString view =>
    exact (frame_elementGetBytesCopy h.plain frames_quietly hbytes h.leakBytes h.dropBytes _
      view).map _
  | elementGetBigint view =>
    exact (frame_elementGetBytesCopy h.plain frames_quietly hbytes h.leakBytes h.dropBytes _
      view).map _
  | bytesFree ptr len =>
    exact (frame_freeBlock frames_quietly hbytes h.dropBytes ptr len).map _
  | valueViewsFree ptr len =>
    exact (frame_freeBlock frames_quietly hviews h.dropViews ptr len).map _
  | elementAtPathWildcard view path =>
    exact (frame_elementAtPathWildcard h.plain frames_quietly hviews h.leakViews h.dropViews view
      path).map _
  | _ => exact frame_exec h.plain frames_quietly _ hcall not_false

end

end PureSimdjson
