import PureSimdjson.RegistryMoves

/-!
# Every call makes one of the moves

One lemma for each operation, then `moved_of_executes` for all of them.  Nothing is
assumed of the native side: whatever it answers, and whenever it fails, the registry
changes in one of the ways `Moved` lists.
-/
namespace PureSimdjson

open Effect SlotTable Runs

variable {W : Type} (native : Native W)

/-! ## Calls that leave the tables alone -/

/-- The two tables are the very same. -/
def SameTables (s s' : Runtime W) : Prop :=
  s'.registry.parsers = s.registry.parsers ∧ s'.registry.docs = s.registry.docs

instance : Std.Refl (SameTables (W := W)) := ⟨fun _ => ⟨rfl, rfl⟩⟩

instance : IsTrans (Runtime W) SameTables :=
  ⟨fun _ _ _ h h' => ⟨h'.1.trans h.1, h'.2.trans h.2⟩⟩

theorem keeps_callNative {α : Type} (call : NativeM W α) :
    Keeps SameTables (callNative call) := by
  intro s
  rw [wp_callNative]
  exact wp_of_forall (fun _ _ => ⟨rfl, rfl⟩) fun _ _ => ⟨rfl, rfl⟩

theorem keeps_getRegistry : Keeps (SameTables (W := W)) getRegistry := fun _ => ⟨rfl, rfl⟩

theorem keeps_withParser {α : Type} (handle : UInt64) (call : Nat → NativeM W α) :
    Keeps SameTables (withParser handle call) :=
  keeps_getRegistry.bind fun _ => (Keeps.ofExcept _).bind fun _ => keeps_callNative _

theorem keeps_docRoot (handle : UInt64) : Keeps SameTables (docRoot native handle) :=
  keeps_getRegistry.bind fun _ =>
    (Keeps.ofExcept _).bind fun _ => (keeps_callNative _).bind fun _ => Keeps.pure _

/-- A ledger is not one of the tables. -/
structure Ledger.Apart (ledger : Ledger) : Prop where
  parsers : ∀ registry allocations, (ledger.set registry allocations).parsers = registry.parsers
  docs : ∀ registry allocations, (ledger.set registry allocations).docs = registry.docs

theorem byteLedger_apart : byteLedger.Apart := ⟨fun _ _ => rfl, fun _ _ => rfl⟩

theorem viewLedger_apart : viewLedger.Apart := ⟨fun _ _ => rfl, fun _ _ => rfl⟩

theorem keeps_setLedger {ledger : Ledger} (h : ledger.Apart)
    (change : Registry → AList fun _ : Nat => Nat) :
    Keeps (SameTables (W := W))
      (modifyRegistry fun registry => ledger.set registry (change registry)) := by
  intro s
  rw [wp_modifyRegistry]
  exact ⟨h.parsers .., h.docs ..⟩

theorem keeps_registerBlock {ledger : Ledger} (h : ledger.Apart) (drop : Nat → Nat → W → W)
    (ptr len : Nat) : Keeps SameTables (registerBlock ledger drop ptr len) :=
  keeps_getRegistry.bind fun _ => (keeps_setLedger h _).bind fun _ =>
    Keeps.ite ((keeps_callNative _).bind fun _ => Keeps.throw _) (Keeps.pure _)

theorem keeps_freeBlock {ledger : Ledger} (h : ledger.Apart) (drop : Nat → Nat → W → W)
    (ptr len : Nat) : Keeps SameTables (freeBlock ledger drop ptr len) := by
  refine Keeps.ite (Keeps.require _ _) ((Keeps.require _ _).bind fun _ =>
    keeps_getRegistry.bind fun registry => ?_)
  cases (ledger.get registry).lookup ptr with
  | none => exact Keeps.throw _
  | some registeredLen =>
    exact (keeps_setLedger h _).bind fun _ => Keeps.ite (keeps_callNative _)
      ((keeps_setLedger h _).bind fun _ => Keeps.throw _)

/-! ## Parsers and documents -/

/-- `slot` names a live parser, which is `entry`. -/
structure ParserLive (registry : Registry) (handle : UInt64) (slot : UInt32)
    (entry : ParserEntry) : Prop where
  slot_ne : slot ≠ 0
  handle_eq : handle = packHandle slot entry.generation
  entry_eq : registry.parsers[slotIndex slot]? = some (.occupied entry)

/-- `slot` names a live document, which is `entry`. -/
structure DocLive (registry : Registry) (handle : UInt64) (slot : UInt32)
    (entry : DocEntry) : Prop where
  slot_ne : slot ≠ 0
  handle_eq : handle = packHandle slot entry.generation
  entry_eq : registry.docs[slotIndex slot]? = some (.occupied entry)

theorem ParserLive.of_parserAt {registry : Registry} {handle : UInt64}
    {slot generation : UInt32} {entry : ParserEntry} (hslot : slot ≠ 0)
    (hhandle : handle = packHandle slot generation)
    (h : registry.parserAt (slotIndex slot) generation = some entry) :
    ParserLive registry handle slot entry := by
  obtain ⟨hentry, rfl⟩ := Registry.parserAt_eq_some.mp h
  exact ⟨hslot, hhandle, hentry⟩

theorem DocLive.of_docAt {registry : Registry} {handle : UInt64}
    {slot generation : UInt32} {entry : DocEntry} (hslot : slot ≠ 0)
    (hhandle : handle = packHandle slot generation)
    (h : registry.docAt (slotIndex slot) generation = some entry) :
    DocLive registry handle slot entry := by
  obtain ⟨hentry, rfl⟩ := Registry.docAt_eq_some.mp h
  exact ⟨hslot, hhandle, hentry⟩

/-- Making a parser: one more, idle, or nothing. -/
theorem wp_registerParser (nativePtr maxCapacity : Nat) (maxDepth : UInt32) {s : Runtime W}
    (hsized : s.registry.Sized) :
    wp (registerParser native nativePtr maxCapacity maxDepth)
      (fun handle s' => ∃ slot entry, handle = packHandle slot entry.generation ∧ slot ≠ 0 ∧
        ParserFilled s.registry s'.registry slot entry ∧ entry.state = .idle ∧
        s'.registry.docs = s.registry.docs)
      (fun _ s' => s'.registry = s.registry) s := by
  rw [registerParser, wp_bind, wp_getRegistry]
  cases h : s.registry.allocParser nativePtr maxCapacity maxDepth with
  | error rc =>
    dsimp only
    rw [wp_bind, wp_callNative]
    exact wp_of_forall (fun _ _ => rfl) fun _ _ => rfl
  | ok made =>
    obtain ⟨handle, registry'⟩ := made
    obtain ⟨slot, generation, hslot, rfl, hfilled, hdocs⟩ := Registry.allocParser_ok hsized h
    refine ⟨slot, _, ?_, hslot, hfilled, rfl, hdocs⟩
    rfl

theorem wp_parserNew {s : Runtime W} (hsized : s.registry.Sized) :
    wp (parserNew native)
      (fun _ s' => ∃ slot entry, slot ≠ 0 ∧ ParserFilled s.registry s'.registry slot entry ∧
        entry.state = .idle ∧ s'.registry.docs = s.registry.docs)
      (fun _ s' => s'.registry = s.registry) s := by
  rw [parserNew, wp_bind, wp_callNative]
  refine wp_of_forall (fun _ w => ?_) fun _ _ => rfl
  refine wp_mono (wp_registerParser native _ _ _ (s := { s with native := w }) hsized) ?_
    fun _ _ => id
  rintro handle s' ⟨slot, entry, -, hmade⟩
  exact ⟨slot, entry, hmade⟩

theorem wp_parserNewConfigured_handle (maxCapacity : Nat) (maxDepth : UInt32) {s : Runtime W}
    (hsized : s.registry.Sized) :
    wp (parserNewConfigured native maxCapacity maxDepth)
      (fun handle s' => ∃ slot entry, handle = packHandle slot entry.generation ∧ slot ≠ 0 ∧
        ParserFilled s.registry s'.registry slot entry ∧ entry.state = .idle ∧
        s'.registry.docs = s.registry.docs)
      (fun _ s' => s'.registry = s.registry) s := by
  rw [parserNewConfigured, wp_bind, wp_ofExcept]
  refine ⟨fun _ _ => ?_, fun _ _ => rfl⟩
  dsimp only
  rw [wp_bind, wp_callNative]
  refine wp_of_forall (fun _ w => ?_) fun _ _ => rfl
  exact wp_registerParser native _ _ _ (s := { s with native := w }) hsized

theorem wp_parserNewConfigured (maxCapacity : Nat) (maxDepth : UInt32) {s : Runtime W}
    (hsized : s.registry.Sized) :
    wp (parserNewConfigured native maxCapacity maxDepth)
      (fun _ s' => ∃ slot entry, slot ≠ 0 ∧ ParserFilled s.registry s'.registry slot entry ∧
        entry.state = .idle ∧ s'.registry.docs = s.registry.docs)
      (fun _ s' => s'.registry = s.registry) s := by
  refine wp_mono (wp_parserNewConfigured_handle native maxCapacity maxDepth hsized) ?_
    fun _ _ => id
  rintro handle s' ⟨slot, entry, -, hmade⟩
  exact ⟨slot, entry, hmade⟩

theorem wp_parserFree (handle : UInt64) (s : Runtime W) :
    wp (parserFree native handle)
      (fun _ s' => ∃ slot entry, ParserLive s.registry handle slot entry ∧ entry.state = .idle ∧
        s'.registry = s.registry.setParser (slotIndex slot)
          (.vacant (nextParserGeneration entry.generation)))
      (fun _ s' => s'.registry = s.registry) s := by
  rw [parserFree, wp_bind]
  refine wp_unpackHandle (fun slot generation hslot hhandle => ?_) rfl
  rw [wp_bind, wp_lookupParser]
  refine ⟨fun entry hentry => ?_, fun _ => rfl⟩
  rw [wp_bind, wp_require]
  refine ⟨fun hidle => ?_, fun _ => rfl⟩
  rw [wp_bind, wp_callNative]
  refine wp_of_forall (fun _ w => ?_) fun _ _ => rfl
  have hlive := ParserLive.of_parserAt hslot hhandle hentry
  obtain ⟨-, rfl⟩ := Registry.parserAt_eq_some.mp hentry
  exact ⟨slot, entry, hlive, hidle, rfl⟩

/-- The registry while a parser is being used: only its buffer is another one. -/
def refill (registry : Registry) (slot : UInt32) (entry : ParserEntry) (input : Bytes) : Registry :=
  registry.setParser (slotIndex slot) (.occupied { entry with reusableInput := input })

section
variable {registry : Registry} {handle : UInt64} {slot : UInt32} {entry : ParserEntry}
  (hlive : ParserLive registry handle slot entry) (input : Bytes)
include hlive

theorem ParserLive.parserAt_refill :
    (refill registry slot entry input).parserAt (slotIndex slot) entry.generation =
      some { entry with reusableInput := input } := by
  refine Registry.parserAt_eq_some.mpr ⟨?_, rfl⟩
  exact List.getElem?_set_self (Registry.lt_of_getElem? hlive.entry_eq)

/-- Handing a buffer back to an idle parser replaces the one it has. -/
theorem ParserLive.wp_restore (hidle : entry.state = .idle) (input' : Bytes)
    {Q : Unit → Runtime W → Prop} {E : ErrorCode → Runtime W → Prop} {w : W}
    (h : Q () ⟨refill registry slot entry input', w⟩) :
    wp (restoreParserInputBuffer (slotIndex slot) entry.generation input') Q E
      ⟨refill registry slot entry input, w⟩ := by
  rw [restoreParserInputBuffer, wp_modifyRegistry, hlive.parserAt_refill]
  simp only [if_pos hidle]
  rw [refill, Registry.setParser] at h ⊢
  simpa only [Registry.setParser, List.set_set] using h

theorem ParserLive.wp_discardParsed {α : Type} (hidle : entry.state = .idle) (docPtr : Nat)
    (input' : Bytes) (rc : ErrorCode) {Q : α → Runtime W → Prop} (w : W) :
    wp (discardParsed native docPtr (slotIndex slot) entry.generation input' rc) Q
      (fun _ s' => s'.registry = refill registry slot entry input')
      ⟨refill registry slot entry input, w⟩ := by
  rw [discardParsed, wp_bind, wp_callNative, wp_cleanup]
  have hrestore (w' : W) : wp (do
      restoreParserInputBuffer (slotIndex slot) entry.generation input'
      throw rc) Q (fun _ s' => s'.registry = refill registry slot entry input')
      ⟨refill registry slot entry input, w'⟩ := by
    rw [wp_bind]
    exact hlive.wp_restore input hidle input' rfl
  exact wp_of_forall (fun _ => hrestore) fun _ => hrestore

/-- The registry once the parser has become busy with a document. -/
def occupy (registry : Registry) (slot : UInt32) (entry : ParserEntry)
    (docSlot docGeneration : UInt32) : Registry :=
  registry.setParser (slotIndex slot) (.occupied { entry with
    reusableInput := [], state := .busy docSlot docGeneration })

/-- Registering the document has not moved the parser. -/
theorem ParserLive.parserAt_made {made : Registry}
    (hparsers : made.parsers = (refill registry slot entry []).parsers) :
    made.parserAt (slotIndex slot) entry.generation = some { entry with reusableInput := [] } := by
  rw [Registry.parserAt, hparsers]
  exact hlive.parserAt_refill []

/-- So it has not vanished, and becomes busy with the new document. -/
theorem ParserLive.wp_occupyParser {made : Registry} {docSlot docGeneration : UInt32}
    (hdocSlot : docSlot ≠ 0) (hparsers : made.parsers = (refill registry slot entry []).parsers)
    (docPtr : Nat) {E : ErrorCode → Runtime W → Prop} (w : W) :
    wp (occupyParser native docPtr (slotIndex slot) entry.generation
        (packHandle docSlot docGeneration))
      (fun handle s' => handle = packHandle docSlot docGeneration ∧
        s' = ⟨occupy made slot entry docSlot docGeneration, w⟩) E ⟨made, w⟩ := by
  rw [occupyParser, unpackHandle_packHandle hdocSlot, wp_bind, wp_ofExcept_ok, wp_bind,
    wp_getRegistry, hlive.parserAt_made hparsers, wp_bind, wp_modifyRegistry, wp_pure]
  exact ⟨rfl, rfl⟩

end

/-- **What `parser_parse` does to the tables.**  If it succeeds, there is one more
document and the parser is busy with it.  If it fails, wherever that is, nothing has
changed but the parser's buffer. -/
theorem wp_parserParse_handle (handle : UInt64) (input : Bytes) {s : Runtime W}
    (hsized : s.registry.Sized) :
    wp (parserParse native handle input)
      (fun docHandle s' => ∃ slot entry docSlot doc,
        docHandle = packHandle docSlot doc.generation ∧
        ParserLive s.registry handle slot entry ∧ entry.state = .idle ∧ docSlot ≠ 0 ∧
        DocFilled s.registry s'.registry docSlot doc ∧
        doc.ownerSlot = slot ∧ doc.ownerGeneration = entry.generation ∧ doc.iterLeases = ∅ ∧
        s'.registry.parsers = (occupy s.registry slot entry docSlot doc.generation).parsers)
      (fun _ s' => s'.registry = s.registry ∨ ∃ slot entry input',
        ParserLive s.registry handle slot entry ∧ entry.state = .idle ∧
        s'.registry = refill s.registry slot entry input') s := by
  rw [parserParse, wp_bind]
  refine wp_unpackHandle (fun slot generation hslot hhandle => ?_) (Or.inl rfl)
  rw [wp_bind, wp_lookupParser]
  refine ⟨fun entry hentry => ?_, fun _ => Or.inl rfl⟩
  have hlive := ParserLive.of_parserAt hslot hhandle hentry
  obtain ⟨-, rfl⟩ := Registry.parserAt_eq_some.mp hentry
  rw [wp_bind, wp_require]
  refine ⟨fun hidle => ?_, fun _ => Or.inl rfl⟩
  rw [wp_bind, wp_callNative]
  refine wp_of_forall (fun _ w => ?_) fun _ _ => Or.inl rfl
  rw [wp_bind, wp_require]
  refine ⟨fun _ => ?_, fun _ => Or.inl rfl⟩
  rw [wp_bind, wp_modifyRegistry]
  -- from here on the buffer is taken, and every failure leaves the parser refilled
  have hrefilled (input' : Bytes) (s' : Runtime W)
      (h : s'.registry = refill s.registry slot entry input') :
      s'.registry = s.registry ∨ ∃ slot entry input',
        ParserLive s.registry handle slot entry ∧ entry.state = .idle ∧
        s'.registry = refill s.registry slot entry input' :=
    Or.inr ⟨slot, entry, input', hlive, hidle, h⟩
  rw [wp_bind, wp_ofExcept]
  refine ⟨fun padding _ => ?_, fun _ _ => hrefilled [] _ rfl⟩
  rw [wp_bind, wp_require]
  refine ⟨fun _ => ?_, fun _ => hrefilled [] _ rfl⟩
  dsimp only
  generalize paddedInput entry.reusableInput input padding = ownedInput
  rw [wp_bind, wp_tryCatch, wp_callNative]
  refine wp_of_forall (fun parsed w => ?_) fun rc w => ?_
  · rw [wp_bind, wp_tryCatch, wp_callNative]
    refine wp_of_forall (fun rootAfterIndex w => ?_) fun rc w => ?_
    · rw [wp_bind, wp_getRegistry]
      have hsized' : (refill s.registry slot entry []).Sized :=
        ⟨by simpa [refill, Registry.setParser] using hsized.parsers, hsized.docs⟩
      cases halloc : (refill s.registry slot entry []).allocDoc parsed.docPtr parsed.rootPtr
          rootAfterIndex slot entry.generation ownedInput with
      | error rc =>
        rw [refill] at halloc
        rw [halloc]
        exact wp_mono (hlive.wp_discardParsed native [] hidle _ ownedInput rc w) (fun _ _ => id)
          fun _ s' => hrefilled ownedInput s'
      | ok made =>
        obtain ⟨docHandle, registry'⟩ := made
        obtain ⟨docSlot, generation, hdocSlot, rfl, hfilled, hparsers⟩ :=
          Registry.allocDoc_ok hsized' halloc
        rw [refill] at halloc
        rw [halloc]
        dsimp only
        rw [wp_bind, wp_modifyRegistry]
        refine wp_mono (hlive.wp_occupyParser native hdocSlot hparsers parsed.docPtr w) ?_
          (fun _ _ => id)
        rintro _ s' ⟨rfl, rfl⟩
        refine ⟨slot, entry, docSlot, _, ?_, hlive, hidle, hdocSlot, hfilled, rfl, rfl, rfl, ?_⟩
        · rfl
        · simp only [occupy, Registry.setParser, hparsers, refill, List.set_set]
    · exact wp_mono (hlive.wp_discardParsed native [] hidle _ ownedInput rc w) (fun _ _ => id)
        fun _ s' => hrefilled ownedInput s'
  · rw [wp_bind]
    exact hlive.wp_restore [] hidle ownedInput (hrefilled ownedInput _ rfl)

theorem wp_parserParse (handle : UInt64) (input : Bytes) {s : Runtime W}
    (hsized : s.registry.Sized) :
    wp (parserParse native handle input)
      (fun _ s' => ∃ slot entry docSlot doc, ParserLive s.registry handle slot entry ∧
        entry.state = .idle ∧ docSlot ≠ 0 ∧ DocFilled s.registry s'.registry docSlot doc ∧
        doc.ownerSlot = slot ∧ doc.ownerGeneration = entry.generation ∧ doc.iterLeases = ∅ ∧
        s'.registry.parsers = (occupy s.registry slot entry docSlot doc.generation).parsers)
      (fun _ s' => s'.registry = s.registry ∨ ∃ slot entry input',
        ParserLive s.registry handle slot entry ∧ entry.state = .idle ∧
        s'.registry = refill s.registry slot entry input') s := by
  refine wp_mono (wp_parserParse_handle native handle input hsized) ?_ fun _ _ => id
  rintro docHandle s' ⟨slot, entry, docSlot, doc, -, hparsed⟩
  exact ⟨slot, entry, docSlot, doc, hparsed⟩

/-- The registry once a document is freed: its slot is free, and its owner is idle
again and has the document's input storage. -/
def release (registry : Registry) (docSlot : UInt32) (doc : DocEntry) (slot : UInt32)
    (owner : ParserEntry) : Registry :=
  (registry.setDoc (slotIndex docSlot) (.vacant (nextDocGeneration doc.generation))).setParser
    (slotIndex slot) (.occupied { owner with state := .idle, reusableInput := doc.inputStorage })

theorem wp_docFree (handle : UInt64) (s : Runtime W) :
    wp (docFree native handle)
      (fun _ s' => ∃ docSlot doc slot owner, DocLive s.registry handle docSlot doc ∧
        Paired s.registry docSlot doc slot owner ∧
        s'.registry = release s.registry docSlot doc slot owner)
      (fun _ s' => s'.registry = s.registry) s := by
  rw [docFree, wp_bind]
  refine wp_unpackHandle (fun docSlot generation hslot hhandle => ?_) rfl
  rw [wp_bind, wp_lookupDoc]
  refine ⟨fun doc hdoc => ?_, fun _ => rfl⟩
  rw [wp_bind, wp_require]
  refine ⟨fun hownerSlot => ?_, fun _ => rfl⟩
  rw [wp_bind, wp_lookupParser]
  refine ⟨fun owner howner => ?_, fun _ => rfl⟩
  rw [wp_bind, wp_require]
  refine ⟨fun hbusy => ?_, fun _ => rfl⟩
  rw [wp_bind, wp_callNative]
  refine wp_of_forall (fun _ w => ?_) fun _ _ => rfl
  -- the two lookups after the native call find what was found before it
  have hagain : (s.registry.setDoc (slotIndex docSlot)
      (.vacant (nextDocGeneration generation))).parserAt (doc.ownerSlot - 1).toNat
        doc.ownerGeneration = some owner := howner
  rw [wp_bind, wp_getRegistry, hdoc, wp_bind, wp_modifyRegistry, wp_bind, wp_getRegistry, hagain]
  have hlive := DocLive.of_docAt hslot hhandle hdoc
  obtain ⟨hownerAt, hownerGeneration⟩ := Registry.parserAt_eq_some.mp howner
  obtain ⟨-, rfl⟩ := Registry.docAt_eq_some.mp hdoc
  rw [slotIndex_add_one hslot, UInt32.ofNat_toNat] at hbusy
  exact ⟨docSlot, doc, doc.ownerSlot, owner, hlive,
    ⟨hownerSlot, hslot, hlive.entry_eq, hownerAt, rfl, hownerGeneration.symm, hbusy⟩, rfl⟩

/-! ## Calls on one document -/

/-- A document's entry is the same, but for more issued indices. -/
def EntryIndexed (s s' : DocEntry × W) : Prop :=
  ∃ indices, s.1.descendantIndices ⊆ indices ∧ s'.1 = { s.1 with descendantIndices := indices }

instance : Std.Refl (EntryIndexed (W := W)) := ⟨fun _ => ⟨_, Finset.Subset.refl _, rfl⟩⟩

instance : IsTrans (DocEntry × W) EntryIndexed := by
  refine ⟨?_⟩
  rintro s t u ⟨indices, hsub, ht⟩ ⟨indices', hsub', hu⟩
  rw [ht] at hsub' hu
  exact ⟨indices', hsub.trans hsub', hu⟩

theorem keeps_onDoc {α : Type} (call : Nat → NativeM W α) : Keeps EntryIndexed (onDoc call) := by
  intro s
  rw [wp_onDoc]
  exact wp_of_forall (fun _ _ => Std.Refl.refl (r := EntryIndexed) _)
    fun _ _ => Std.Refl.refl (r := EntryIndexed) _

/-- An issued view names the index it was asked for, and the entry has it from then on. -/
theorem wp_encodeDescendantView (handle : UInt64) (jsonIndex : Nat) (s : DocEntry × W) :
    wp (encodeDescendantView native handle jsonIndex)
      (fun view s' => view.state0 = jsonIndex ∧
        s'.1 = { s.1 with descendantIndices := insert jsonIndex s.1.descendantIndices })
      (fun _ s' => s'.1 = s.1) s := by
  rw [encodeDescendantView, wp_bind, wp_getEntry, wp_bind, wp_require]
  refine ⟨fun _ => ?_, fun _ => rfl⟩
  rw [wp_bind, wp_onDoc]
  exact wp_of_forall (fun _ _ => ⟨rfl, rfl⟩) fun _ _ => rfl

theorem keeps_encodeDescendantView (handle : UInt64) (jsonIndex : Nat) :
    Keeps EntryIndexed (encodeDescendantView native handle jsonIndex) := by
  intro s
  refine wp_mono (wp_encodeDescendantView native handle jsonIndex s) ?_ ?_
  · rintro view s' ⟨-, hs'⟩
    exact ⟨_, Finset.subset_insert _ _, hs'⟩
  · rintro rc s' hs'
    exact ⟨_, Finset.Subset.refl _, hs'⟩

theorem keeps_requireKind (kind : ValueKind) (jsonIndex : Nat) :
    Keeps EntryIndexed (requireKind native kind jsonIndex) :=
  (keeps_onDoc _).bind fun _ => Keeps.require _ _

theorem viewIndex_error {view : ValueView} {entry : DocEntry} {rc : ErrorCode}
    (h : viewIndex view entry = .error rc) : rc = .invalidHandle := by
  simp only [viewIndex, validateDescendant] at h
  split at h
  · split at h
    · exact (Except.error.inj h).symm
    · cases h
  · split at h
    · split at h
      · exact (Except.error.inj h).symm
      · cases h
    · exact (Except.error.inj h).symm

/-- **What resolving a view guarantees.**  Either nothing has changed, or the action
runs on the entry of the live document the view names. -/
theorem wp_withResolvedView {α : Type} {view : Option ValueView}
    {action : Nat → UInt64 → DocM W α} {Q : α → Runtime W → Prop}
    {E : ErrorCode → Runtime W → Prop} {s : Runtime W}
    (hnull : view = none → E .invalidArgument s)
    (hreject : ∀ v, view = some v → E .invalidHandle s)
    (haction : ∀ v slot generation entry jsonIndex, view = some v → slot ≠ 0 →
      v.doc = packHandle slot generation →
      s.registry.docAt (slotIndex slot) generation = some entry →
      viewIndex v entry = .ok jsonIndex →
      wp (action jsonIndex v.doc)
        (fun a e => Q a ⟨s.registry.setDoc (slotIndex slot) (.occupied e.1), e.2⟩)
        (fun rc e => E rc ⟨s.registry.setDoc (slotIndex slot) (.occupied e.1), e.2⟩)
        (entry, s.native)) :
    wp (withResolvedView view action) Q E s := by
  cases view with
  | none =>
    rw [withResolvedView, wp_throw]
    exact hnull rfl
  | some v =>
    have hrc : E .invalidHandle s := hreject v rfl
    rw [withResolvedView, wp_bind, wp_require]
    refine ⟨fun _ => ?_, fun _ => hrc⟩
    rw [wp_bind]
    refine wp_unpackHandle (fun slot generation hslot hhandle => ?_) hrc
    rw [wp_withDoc]
    refine ⟨fun entry hentry => ?_, fun _ => hrc⟩
    rw [wp_bind, wp_getEntry, wp_bind, wp_ofExcept]
    refine ⟨fun jsonIndex hview => ?_, fun rc hview => ?_⟩
    · exact haction v slot generation entry jsonIndex rfl hslot hhandle hentry hview
    · rw [viewIndex_error hview]
      simp only [Registry.setDoc_self hentry]
      exact hrc

/-- A call on a view that only adds to the issued indices. -/
theorem indexed_withResolvedView {α : Type} (view : Option ValueView)
    {action : Nat → UInt64 → DocM W α}
    (h : ∀ jsonIndex doc, Keeps EntryIndexed (action jsonIndex doc)) (s : Runtime W) :
    wp (withResolvedView view action) (fun _ s' => Indexed s.registry s'.registry)
      (fun _ s' => Indexed s.registry s'.registry) s := by
  refine wp_withResolvedView (fun _ => .same rfl rfl) (fun _ _ => .same rfl rfl) ?_
  intro v slot generation entry jsonIndex _ hslot _ hentry _
  have hget := (Registry.docAt_eq_some.mp hentry).1
  refine wp_mono (h jsonIndex v.doc _) ?_ ?_
  · rintro a ⟨entry', w⟩ ⟨indices, hsub, rfl⟩
    exact .more hslot hget hsub rfl rfl
  · rintro rc ⟨entry', w⟩ ⟨indices, hsub, rfl⟩
    exact .more hslot hget hsub rfl rfl

theorem Indexed.trans_same {registry : Registry} {s s' : Runtime W}
    (h : Indexed registry s.registry) (h' : SameTables s s') : Indexed registry s'.registry := by
  cases h with
  | same hparsers hdocs => exact .same (h'.1.trans hparsers) (h'.2.trans hdocs)
  | more hslot hentry hindices hparsers hdocs =>
    exact .more hslot hentry hindices (h'.1.trans hparsers) (h'.2.trans hdocs)

/-- A call that adds to the issued indices and then works on the ledgers. -/
theorem indexed_bind {α β : Type} {m : RuntimeM W β} {f : β → RuntimeM W α} {s : Runtime W}
    (hm : wp m (fun _ s' => Indexed s.registry s'.registry)
      (fun _ s' => Indexed s.registry s'.registry) s)
    (hf : ∀ b, Keeps SameTables (f b)) :
    wp (m >>= f) (fun _ s' => Indexed s.registry s'.registry)
      (fun _ s' => Indexed s.registry s'.registry) s := by
  rw [wp_bind]
  refine wp_mono hm (fun b t ht => ?_) fun _ _ h => h
  exact wp_mono (hf b t) (fun _ _ h => ht.trans_same h) fun _ _ h => ht.trans_same h

theorem indexed_readView {α : Type} (read : ElementRead α) (view : Option ValueView)
    (s : Runtime W) :
    wp (readView native read view) (fun _ s' => Indexed s.registry s'.registry)
      (fun _ s' => Indexed s.registry s'.registry) s :=
  indexed_withResolvedView view (fun _ _ => keeps_onDoc _) s

theorem indexed_materializeBuild (view : Option ValueView) (s : Runtime W) :
    wp (materializeBuild native view) (fun _ s' => Indexed s.registry s'.registry)
      (fun _ s' => Indexed s.registry s'.registry) s :=
  indexed_withResolvedView view (fun _ _ => keeps_onDoc _) s

theorem indexed_elementGetFloat64 (view : Option ValueView) (s : Runtime W) :
    wp (elementGetFloat64 native view) (fun _ s' => Indexed s.registry s'.registry)
      (fun _ s' => Indexed s.registry s'.registry) s := by
  refine indexed_withResolvedView view (fun _ _ => (keeps_onDoc _).bind fun _ => ?_) s
  refine Keeps.ite ?_ (Keeps.ite ?_ (keeps_onDoc _))
  · exact (keeps_onDoc _).bind fun _ => (Keeps.require _ _).bind fun _ => Keeps.pure _
  · exact (keeps_onDoc _).bind fun _ => (Keeps.require _ _).bind fun _ => Keeps.pure _

theorem indexed_elementGetBytesCopy (getter : ElementRead Span) (view : Option ValueView)
    (s : Runtime W) :
    wp (elementGetBytesCopy native getter view) (fun _ s' => Indexed s.registry s'.registry)
      (fun _ s' => Indexed s.registry s'.registry) s := by
  refine indexed_bind (indexed_withResolvedView view (fun _ _ => ?_) s) ?_
  · exact (keeps_onDoc _).bind fun _ => Keeps.ite (Keeps.pure _)
      ((Keeps.require _ _).bind fun _ => (keeps_onDoc _).bind fun _ => Keeps.pure _)
  · rintro ⟨ptr, len⟩
    exact Keeps.ite (Keeps.pure _) (keeps_registerBlock byteLedger_apart _ _ _)

/-- The lookups that issue the one index they find. -/
theorem indexed_lookup {view : Option ValueView} (kind : Nat → DocM W Unit)
    (hkind : ∀ jsonIndex, Keeps EntryIndexed (kind jsonIndex))
    (find : Nat → Nat → NativeM W Nat) (s : Runtime W) :
    wp (withResolvedView view fun jsonIndex doc => do
        kind jsonIndex
        let valueJsonIndex ← onDoc (find · jsonIndex)
        encodeDescendantView native doc valueJsonIndex)
      (fun _ s' => Indexed s.registry s'.registry)
      (fun _ s' => Indexed s.registry s'.registry) s :=
  indexed_withResolvedView view (fun jsonIndex _ => (hkind jsonIndex).bind fun _ =>
    (keeps_onDoc _).bind fun _ => keeps_encodeDescendantView native _ _) s

theorem indexed_size {kind : ValueKind} (read : ElementRead Nat) (view : Option ValueView)
    (s : Runtime W) :
    wp (withResolvedView view fun jsonIndex _ => do
        requireKind native kind jsonIndex
        onDoc (native.read read · jsonIndex))
      (fun _ s' => Indexed s.registry s'.registry)
      (fun _ s' => Indexed s.registry s'.registry) s :=
  indexed_withResolvedView view (fun _ _ => (keeps_requireKind native _ _).bind fun _ =>
    keeps_onDoc _) s

theorem indexed_elementAtPathWildcard (view : Option ValueView) (path : Bytes) (s : Runtime W) :
    wp (elementAtPathWildcard native view path) (fun _ s' => Indexed s.registry s'.registry)
      (fun _ s' => Indexed s.registry s'.registry) s := by
  refine indexed_bind (indexed_withResolvedView view (fun _ doc => ?_) s) fun views => ?_
  · exact (keeps_onDoc _).bind fun indices =>
      Keeps.mapM (fun _ => keeps_encodeDescendantView native doc _) indices
  · exact Keeps.ite (Keeps.pure _)
      ((keeps_callNative _).bind fun _ => keeps_registerBlock viewLedger_apart _ _ _)

/-! ## Iterators -/

/-- **What accepting an iterator guarantees.**  Either nothing has changed, or the
action runs on the entry of the live document the iterator names, whose lease is in
the very state the iterator carries. -/
theorem wp_withIterDoc {α : Type} {iter : Iter} {expectedTag : Nat} {action : DocM W α}
    {Q : α → Runtime W → Prop} {E : ErrorCode → Runtime W → Prop} {s : Runtime W}
    (hreject : E .invalidHandle s)
    (haction : ∀ slot generation entry, iter.reserved = 0 ∧ iter.tag = expectedTag →
      slot ≠ 0 → iter.doc = packHandle slot generation →
      s.registry.docAt (slotIndex slot) generation = some entry →
      entry.iterLeases.lookup iter.index = some ⟨iter.state0, iter.state1, expectedTag⟩ →
      wp action
        (fun a e => Q a ⟨s.registry.setDoc (slotIndex slot) (.occupied e.1), e.2⟩)
        (fun rc e => E rc ⟨s.registry.setDoc (slotIndex slot) (.occupied e.1), e.2⟩)
        (entry, s.native)) :
    wp (withIterDoc iter expectedTag action) Q E s := by
  rw [withIterDoc, wp_bind, wp_require]
  refine ⟨fun hfields => ?_, fun _ => hreject⟩
  rw [wp_bind]
  refine wp_unpackHandle (fun slot generation hslot hhandle => ?_) hreject
  rw [wp_withDoc]
  refine ⟨fun entry hentry => ?_, fun _ => hreject⟩
  have hback : E .invalidHandle
      ⟨s.registry.setDoc (slotIndex slot) (.occupied entry), s.native⟩ := by
    rw [Registry.setDoc_self hentry]
    exact hreject
  have hindex (index : Nat) (rc : ErrorCode)
      (h : validateIterIndex index entry.rootAfterIndex = .error rc) : rc = .invalidHandle := by
    rw [validateIterIndex] at h
    split at h
    · exact (Except.error.inj h).symm
    · cases h
  simp only [wp_bind, wp_getEntry, wp_ofExcept]
  refine ⟨fun _ hlease => ⟨fun _ _ => ⟨fun _ _ => ?_, fun rc h => ?_⟩, fun rc h => ?_⟩,
    fun rc h => ?_⟩
  · exact haction slot generation entry (by tauto) hslot hhandle hentry
      (DocEntry.validateIterLease_ok_iff.mp hlease)
  · rw [hindex _ rc h]
    exact hback
  · rw [hindex _ rc h]
    exact hback
  · have hrc : rc = .invalidHandle := by
      rw [DocEntry.validateIterLease] at h
      repeat' split at h
      all_goals first | exact (Except.error.inj h).symm | cases h
    rw [hrc]
    exact hback

theorem wp_allocLease (tag state0 state1 : Nat) (s : DocEntry × W) :
    wp (allocLease tag state0 state1)
      (fun leaseId s' => s.1.Leased ⟨state0, state1, tag⟩ leaseId s'.1)
      (fun _ s' => s' = s) s := by
  rw [allocLease, wp_bind, wp_getEntry, wp_bind, wp_ofExcept]
  refine ⟨fun a h => ?_, fun _ _ => rfl⟩
  obtain ⟨leaseId, entry⟩ := a
  exact DocEntry.allocIterLease_ok h

/-- Making an iterator adds one lease, which the iterator names. -/
theorem wp_iterNew (kind : ValueKind) (bounds : Nat → NativeM W (Nat × Nat)) (tag : Nat)
    (jsonIndex : Nat) (doc : UInt64) (s : DocEntry × W) :
    wp (do
        requireKind native kind jsonIndex
        let (state0, state1) ← onDoc bounds
        let leaseId ← allocLease tag state0 state1
        pure (⟨doc, state0, state1, leaseId, tag, 0⟩ : Iter))
      (fun iter s' => iter.doc = doc ∧
        s.1.Leased ⟨iter.state0, iter.state1, iter.tag⟩ iter.index s'.1)
      (fun _ s' => s'.1 = s.1) s := by
  rw [wp_bind, requireKind, wp_bind, wp_onDoc]
  refine wp_of_forall (fun _ w => ?_) fun _ _ => rfl
  rw [wp_require]
  refine ⟨fun _ => ?_, fun _ => rfl⟩
  rw [wp_bind, wp_onDoc]
  refine wp_of_forall (fun parts w => ?_) fun _ _ => rfl
  rw [wp_bind]
  refine wp_mono (wp_allocLease tag parts.1 parts.2 _) ?_ ?_
  · intro leaseId s' hleased
    exact ⟨rfl, hleased⟩
  · rintro rc s' rfl
    rfl

/-- Setting the lease an accepted iterator names. -/
theorem wp_updateLease {leaseId : UInt32} {tag before0 before1 : Nat} (state0 state1 : Nat)
    {s : DocEntry × W} (h : s.1.iterLeases.lookup leaseId = some ⟨before0, before1, tag⟩) :
    wp (updateLease leaseId state0 state1 tag)
      (fun _ s' => s' = ({ s.1 with
        iterLeases := s.1.iterLeases.insert leaseId ⟨state0, state1, tag⟩ }, s.2))
      (fun _ _ => False) s := by
  rw [updateLease, wp_bind, wp_getEntry, DocEntry.updateIterLease_of_lookup h]
  rfl

/-- Advancing an accepted iterator: the lease moves on, within its bounds, and the
document may have issued more indices. -/
def Advanced (iter : Iter) (tag : Nat) (s s' : DocEntry × W) : Prop :=
  ∃ indices next, s.1.descendantIndices ⊆ indices ∧ iter.state0 < next ∧ next ≤ iter.state1 ∧
    s'.1 = { s.1 with
      descendantIndices := indices
      iterLeases := s.1.iterLeases.insert iter.index ⟨next, iter.state1, tag⟩ }

theorem wp_arrayIterAdvance {iter : Iter} {s : DocEntry × W}
    (hlease : s.1.iterLeases.lookup iter.index =
      some ⟨iter.state0, iter.state1, arrayIterTag⟩) :
    wp (arrayIterAdvance native iter)
      (fun step s' => step.done = true ∧ s' = s ∨
        step.done = false ∧ step.value.state0 = iter.state0 ∧ Advanced iter arrayIterTag s s')
      (fun _ s' => EntryIndexed s s') s := by
  rw [arrayIterAdvance, wp_ite]
  refine ⟨fun _ => Or.inl ⟨rfl, rfl⟩, fun _ => ?_⟩
  rw [wp_bind]
  refine wp_mono (wp_encodeDescendantView native iter.doc iter.state0 s) ?_ ?_
  · rintro value ⟨entry, w⟩ ⟨hvalue, rfl⟩
    rw [wp_bind, wp_onDoc]
    have hsub := Finset.subset_insert iter.state0 s.1.descendantIndices
    refine wp_of_forall (fun next w' => ?_) fun _ _ => ⟨_, hsub, rfl⟩
    rw [wp_bind, wp_require]
    refine ⟨fun hrange => ?_, fun _ => ⟨_, hsub, rfl⟩⟩
    rw [wp_bind]
    refine wp_mono (wp_updateLease next iter.state1 hlease) ?_ fun _ _ => False.elim
    rintro - s' rfl
    exact Or.inr ⟨rfl, hvalue, _, next, hsub, by omega, by omega, rfl⟩
  · rintro rc s' hs'
    exact ⟨_, Finset.Subset.refl _, hs'⟩

theorem wp_objectIterAdvance {iter : Iter} {s : DocEntry × W}
    (hlease : s.1.iterLeases.lookup iter.index =
      some ⟨iter.state0, iter.state1, objectIterTag⟩) :
    wp (objectIterAdvance native iter)
      (fun step s' => step.done = true ∧ s' = s ∨
        step.done = false ∧ step.key.state0 = iter.state0 ∧ Advanced iter objectIterTag s s')
      (fun _ s' => EntryIndexed s s') s := by
  have hsame (s' : DocEntry × W) (h : s'.1 = s.1) : EntryIndexed s s' :=
    ⟨_, Finset.Subset.refl _, h⟩
  rw [objectIterAdvance, wp_ite]
  refine ⟨fun _ => Or.inl ⟨rfl, rfl⟩, fun _ => ?_⟩
  rw [wp_bind, wp_require]
  refine ⟨fun _ => ?_, fun _ => hsame s rfl⟩
  rw [wp_bind, wp_require]
  refine ⟨fun _ => ?_, fun _ => hsame s rfl⟩
  rw [wp_bind, wp_getEntry, wp_bind, wp_ofExcept]
  refine ⟨fun _ _ => ?_, fun _ _ => hsame s rfl⟩
  rw [wp_bind, wp_onDoc]
  refine wp_of_forall (fun kind w => ?_) fun _ _ => hsame _ rfl
  rw [wp_bind, wp_require]
  refine ⟨fun _ => ?_, fun _ => hsame _ rfl⟩
  rw [wp_bind]
  refine wp_mono (wp_encodeDescendantView native iter.doc iter.state0 _) ?_ fun _ _ => hsame _
  rintro key ⟨entry, w⟩ ⟨hkey, rfl⟩
  have hsub := Finset.subset_insert iter.state0 s.1.descendantIndices
  rw [wp_bind]
  refine wp_mono (wp_encodeDescendantView native iter.doc (iter.state0 + 1) _) ?_ ?_
  · rintro value ⟨entry, w⟩ ⟨-, rfl⟩
    have hsub' := hsub.trans (Finset.subset_insert (iter.state0 + 1) _)
    rw [wp_bind, wp_onDoc]
    refine wp_of_forall (fun next w' => ?_) fun _ _ => ⟨_, hsub', rfl⟩
    rw [wp_bind, wp_require]
    refine ⟨fun hrange => ?_, fun _ => ⟨_, hsub', rfl⟩⟩
    rw [wp_bind]
    refine wp_mono (wp_updateLease next iter.state1 hlease) ?_ fun _ _ => False.elim
    rintro - s' rfl
    exact Or.inr ⟨rfl, hkey, _, next, hsub', by omega, by omega, rfl⟩
  · rintro rc s' hs'
    exact ⟨_, hsub, hs'⟩

/-! ## Every call -/

/-- What a call owes: its move, whether it succeeds or fails. -/
def Moves (s : Runtime W) (call : Call) : Prop :=
  wp (exec native call) (fun reply s' => Moved s.registry (call, .ok reply) s'.registry)
    (fun rc s' => Moved s.registry (call, .error rc) s'.registry) s

section
variable {native} {s : Runtime W} {call : Call} {α : Type} {m : RuntimeM W α} {f : α → Reply}

/-- A call that fails without a change. -/
theorem moved_of_error {rc : ErrorCode} {registry registry' : Registry}
    (hmark : Event.mark (call, .error rc) = .plain) (h : registry' = registry) :
    Moved registry (call, .error rc) registry' :=
  .indexed hmark (.same (h ▸ rfl) (h ▸ rfl))

theorem moves_of_parserMade (hexec : exec native call = f <$> m)
    (hmark : ∀ result, Event.mark (call, result) = .plain)
    (h : wp m (fun _ s' => ∃ slot entry, slot ≠ 0 ∧
        ParserFilled s.registry s'.registry slot entry ∧ entry.state = .idle ∧
        s'.registry.docs = s.registry.docs)
      (fun _ s' => s'.registry = s.registry) s) : Moves native s call := by
  rw [Moves, hexec, wp_map]
  refine wp_mono h ?_ fun _ _ h => moved_of_error (hmark _) h
  rintro a s' ⟨slot, entry, hslot, hfilled, hidle, hdocs⟩
  exact .parserMade (hmark _) ⟨_, rfl⟩ hslot hfilled hidle hdocs

theorem moves_of_iterNew {view : Option ValueView} {action : Nat → UInt64 → DocM W Iter}
    (hexec : exec native call = Reply.iter <$> withResolvedView view action)
    (hmark : ∀ result, Event.mark (call, result) = .plain)
    (h : ∀ jsonIndex doc e, wp (action jsonIndex doc)
      (fun iter e' => iter.doc = doc ∧
        e.1.Leased ⟨iter.state0, iter.state1, iter.tag⟩ iter.index e'.1)
      (fun _ e' => e'.1 = e.1) e) : Moves native s call := by
  rw [Moves, hexec, wp_map]
  refine wp_withResolvedView (fun _ => moved_of_error (hmark _) rfl)
    (fun _ _ => moved_of_error (hmark _) rfl) ?_
  intro v slot generation entry jsonIndex _ hslot _ hentry _
  have hget := (Registry.docAt_eq_some.mp hentry).1
  refine wp_mono (h jsonIndex v.doc _) ?_ ?_
  · rintro iter ⟨entry', w⟩ ⟨-, -, hfree, rfl⟩
    exact .leased (hmark _) ⟨_, rfl⟩ hslot hget hfree rfl rfl
  · rintro rc ⟨entry', w⟩ rfl
    exact moved_of_error (hmark _) (Registry.setDoc_self hentry)

end

/-- An accepted iterator that is not at its end delivers the child it stands on. -/
theorem moved_of_advanced {registry : Registry} {slot generation : UInt32} {entry : DocEntry}
    {iter : Iter} {tag : Nat} {event : Event} {s' : DocEntry × W} {w : W}
    (hslot : slot ≠ 0) (hhandle : iter.doc = packHandle slot generation)
    (hentry : registry.docAt (slotIndex slot) generation = some entry)
    (hlease : entry.iterLeases.lookup iter.index = some ⟨iter.state0, iter.state1, tag⟩)
    (hmark : event.mark = .delivered iter.doc iter.index iter.state0) (hok : event.Succeeded)
    (h : Advanced iter tag (entry, w) s') :
    Moved registry event (registry.setDoc (slotIndex slot) (.occupied s'.1)) := by
  obtain ⟨hget, rfl⟩ := Registry.docAt_eq_some.mp hentry
  obtain ⟨indices, next, hsub, hlt, hle, hs'⟩ := h
  rw [hhandle] at hmark
  refine .advanced hmark hok hslot hget hlease ⟨hlt, hle⟩ hsub rfl ?_
  rw [hs']
  rfl

theorem moves_arrayIterNext (iter : Option Iter) (s : Runtime W) :
    Moves native s (.arrayIterNext iter) := by
  rw [Moves, exec, wp_map]
  cases iter with
  | none => exact moved_of_error rfl rfl
  | some iter =>
    refine wp_withIterDoc (moved_of_error rfl rfl) ?_
    intro slot generation entry _ hslot hhandle hentry hlease
    have hget := (Registry.docAt_eq_some.mp hentry).1
    refine wp_mono (wp_arrayIterAdvance native hlease) ?_ ?_
    · rintro step e (⟨hdone, rfl⟩ | ⟨hdone, hvalue, hadvanced⟩)
      · refine .indexed (by rw [Event.mark, if_pos hdone]) ?_
        rw [Registry.setDoc_self hentry]
        exact .same rfl rfl
      · refine moved_of_advanced hslot hhandle hentry hlease ?_ ⟨_, rfl⟩ hadvanced
        rw [Event.mark, hdone, if_neg Bool.false_ne_true, hvalue]
    · rintro rc ⟨entry', w⟩ ⟨indices, hsub, rfl⟩
      exact .indexed rfl (.more hslot hget hsub rfl rfl)

theorem moves_objectIterNext (iter : Option Iter) (s : Runtime W) :
    Moves native s (.objectIterNext iter) := by
  rw [Moves, exec, wp_map]
  cases iter with
  | none => exact moved_of_error rfl rfl
  | some iter =>
    refine wp_withIterDoc (moved_of_error rfl rfl) ?_
    intro slot generation entry _ hslot hhandle hentry hlease
    have hget := (Registry.docAt_eq_some.mp hentry).1
    refine wp_mono (wp_objectIterAdvance native hlease) ?_ ?_
    · rintro step e (⟨hdone, rfl⟩ | ⟨hdone, hkey, hadvanced⟩)
      · refine .indexed (by rw [Event.mark, if_pos hdone]) ?_
        rw [Registry.setDoc_self hentry]
        exact .same rfl rfl
      · refine moved_of_advanced hslot hhandle hentry hlease ?_ ⟨_, rfl⟩ hadvanced
        rw [Event.mark, hdone, if_neg Bool.false_ne_true, hkey]
    · rintro rc ⟨entry', w⟩ ⟨indices, hsub, rfl⟩
      exact .indexed rfl (.more hslot hget hsub rfl rfl)

theorem moves_parserFree (handle : UInt64) (s : Runtime W) :
    Moves native s (.parserFree handle) := by
  rw [Moves, exec, wp_map]
  refine wp_mono (wp_parserFree native handle s) ?_ fun _ _ h => moved_of_error rfl h
  rintro - ⟨registry', w⟩ ⟨slot, entry, hlive, hidle, rfl⟩
  refine .parserFreed ?_ ⟨_, rfl⟩ hlive.slot_ne hlive.entry_eq hidle rfl rfl
  rw [Event.mark, hlive.handle_eq, packHandle_slot]

theorem moves_parserParse (handle : UInt64) (input : Bytes) {s : Runtime W}
    (hsized : s.registry.Sized) : Moves native s (.parserParse handle input) := by
  rw [Moves, exec, wp_map]
  refine wp_mono (wp_parserParse native handle input hsized) ?_ ?_
  · rintro a s' ⟨slot, entry, docSlot, doc, hlive, hidle, hdocSlot, hfilled, howner, hgeneration,
      hleases, hparsers⟩
    exact .parsed rfl ⟨_, rfl⟩ hlive.slot_ne hdocSlot hlive.entry_eq hidle hfilled
      ⟨howner, hgeneration⟩ hleases hparsers
  · rintro rc ⟨registry', w⟩ (h | ⟨slot, entry, input', hlive, hidle, rfl⟩)
    · exact moved_of_error rfl h
    · exact .refilled rfl hlive.slot_ne hlive.entry_eq hidle rfl rfl

theorem moves_docFree (handle : UInt64) (s : Runtime W) : Moves native s (.docFree handle) := by
  rw [Moves, exec, wp_map]
  refine wp_mono (wp_docFree native handle s) ?_ fun _ _ h => moved_of_error rfl h
  rintro - ⟨registry', w⟩ ⟨docSlot, doc, slot, owner, hlive, hpaired, rfl⟩
  refine .docFreed ?_ ⟨_, rfl⟩ hpaired rfl rfl
  rw [Event.mark, hlive.handle_eq, packHandle_slot]

/-- The calls that make or free nothing and move no lease. -/
def Call.Reads : Call → Prop
  | .parserNew | .parserNewConfigured .. | .parserFree .. | .parserParse .. | .docFree ..
  | .arrayIterNew .. | .arrayIterNext .. | .objectIterNew .. | .objectIterNext .. => False
  | _ => True

theorem Call.Reads.mark_eq {call : Call} (h : call.Reads) (result : Except ErrorCode Reply) :
    Event.mark (call, result) = .plain := by
  cases call <;> first | rfl | exact h.elim

/-- What a call owes that only issues indices. -/
def Indexes (s : Runtime W) (call : Call) : Prop :=
  wp (exec native call) (fun _ s' => Indexed s.registry s'.registry)
    (fun _ s' => Indexed s.registry s'.registry) s

section
variable {native} {s : Runtime W} {call : Call} {α : Type} {m : RuntimeM W α} {f : α → Reply}

theorem indexes_of (hexec : exec native call = f <$> m)
    (h : wp m (fun _ s' => Indexed s.registry s'.registry)
      (fun _ s' => Indexed s.registry s'.registry) s) : Indexes native s call := by
  rw [Indexes, hexec, wp_map]
  exact h

theorem indexes_of_same (hexec : exec native call = f <$> m) (h : Keeps SameTables m) :
    Indexes native s call :=
  indexes_of hexec (wp_mono (h s) (fun _ _ h => .same h.1 h.2) fun _ _ h => .same h.1 h.2)

end

/-- **A call that reads only issues indices.** -/
theorem indexes_of_reads {call : Call} (h : call.Reads) (s : Runtime W) :
    Indexes native s call := by
  cases call with
  | parserNew | parserNewConfigured | parserFree | parserParse | docFree | arrayIterNew
  | arrayIterNext | objectIterNew | objectIterNext => exact h.elim
  | parserLastErrorLen => exact indexes_of_same rfl (keeps_withParser _ _)
  | parserCopyLastError => exact indexes_of_same rfl (keeps_withParser _ _)
  | parserLastErrorOffset => exact indexes_of_same rfl (keeps_withParser _ _)
  | parserLastErrorHasOffset => exact indexes_of_same rfl (keeps_withParser _ _)
  | docRoot => exact indexes_of_same rfl (keeps_docRoot native _)
  | elementType view => exact indexes_of rfl (indexed_readView native _ view s)
  | elementGetInt64 view => exact indexes_of rfl (indexed_readView native _ view s)
  | elementGetUint64 view => exact indexes_of rfl (indexed_readView native _ view s)
  | elementGetFloat64 view => exact indexes_of rfl (indexed_elementGetFloat64 native view s)
  | elementGetString view => exact indexes_of rfl (indexed_elementGetBytesCopy native _ view s)
  | elementGetBigint view => exact indexes_of rfl (indexed_elementGetBytesCopy native _ view s)
  | elementGetBool view => exact indexes_of rfl (indexed_readView native _ view s)
  | elementIsNull view => exact indexes_of rfl (indexed_readView native _ view s)
  | bytesFree => exact indexes_of_same rfl (keeps_freeBlock byteLedger_apart _ _ _)
  | valueViewsFree => exact indexes_of_same rfl (keeps_freeBlock viewLedger_apart _ _ _)
  | objectGetField view key =>
    exact indexes_of rfl
      (indexed_lookup native (requireKind native _) (keeps_requireKind native _) _ s)
  | arrayAt view index =>
    exact indexes_of rfl
      (indexed_lookup native (requireKind native _) (keeps_requireKind native _) _ s)
  | arrayLen view => exact indexes_of rfl (indexed_size native _ view s)
  | objectSize view => exact indexes_of rfl (indexed_size native _ view s)
  | elementAtPointer view pointer =>
    exact indexes_of rfl
      (indexed_lookup native (fun _ => pure ()) (fun _ => Keeps.pure ()) _ s)
  | elementAtPath view path =>
    exact indexes_of rfl
      (indexed_lookup native (fun _ => pure ()) (fun _ => Keeps.pure ()) _ s)
  | elementAtPathWildcard view path =>
    exact indexes_of rfl (indexed_elementAtPathWildcard native view path s)
  | materializeBuild view => exact indexes_of rfl (indexed_materializeBuild native view s)
  | testHoldMaterializeGuard view => exact indexes_of rfl (indexed_readView native _ view s)

/-- **Every call makes one of the moves.** -/
theorem moves_of_sized {s : Runtime W} (hsized : s.registry.Sized) (call : Call) :
    Moves native s call := by
  by_cases hreads : call.Reads
  · exact wp_mono (indexes_of_reads native hreads s) (fun _ _ h => .indexed (hreads.mark_eq _) h)
      fun _ _ h => .indexed (hreads.mark_eq _) h
  cases call with
  | parserNew => exact moves_of_parserMade rfl (fun _ => rfl) (wp_parserNew native hsized)
  | parserNewConfigured maxCapacity maxDepth =>
    exact moves_of_parserMade rfl (fun _ => rfl) (wp_parserNewConfigured native _ _ hsized)
  | parserFree handle => exact moves_parserFree native handle s
  | parserParse handle input => exact moves_parserParse native handle input hsized
  | docFree handle => exact moves_docFree native handle s
  | arrayIterNew view =>
    exact moves_of_iterNew rfl (fun _ => rfl) fun _ _ e => wp_iterNew native _ _ _ _ _ e
  | arrayIterNext iter => exact moves_arrayIterNext native iter s
  | objectIterNew view =>
    exact moves_of_iterNew rfl (fun _ => rfl) fun _ _ e => wp_iterNew native _ _ _ _ _ e
  | objectIterNext iter => exact moves_objectIterNext native iter s
  | _ => exact absurd trivial hreads

theorem moved_of_executes {s s' : Runtime W} {event : Event} (hsized : s.registry.Sized)
    (h : Executes native s event s') : Moved s.registry event s'.registry := by
  obtain ⟨call, result⟩ := event
  exact h.of_wp (P := fun result s' => Moved s.registry (call, result) s'.registry) native
    (moves_of_sized native hsized call)

end PureSimdjson
