import PureSimdjson.Ownership

/-!
# Handles stay fresh

Parser generations are odd and document generations even and not zero, in every slot
of every reachable registry, so a handle never means both a parser and a document.  A
slot's generation moves by one step for each free, along a cycle of length `2 ^ 31` for
parsers and `2 ^ 31 - 1` for documents; until it has come round, a handle whose object
was freed is refused by every call.
-/
namespace PureSimdjson

open Effect SlotTable Runs

/-! ## The two cycles of generations -/

theorem nextParserGeneration_toNat {g : UInt32} (h : g.toNat % 2 = 1) :
    (nextParserGeneration g).toNat = (g.toNat + 2) % 2 ^ 32 := by
  have hlt := g.toNat_lt
  have hadd : (g + 2).toNat = (g.toNat + 2) % 2 ^ 32 := UInt32.toNat_add g 2
  rw [nextParserGeneration, nextGeneration, if_neg, hadd]
  intro h0
  rw [h0] at hadd
  have : (0 : UInt32).toNat = 0 := rfl
  omega

theorem nextParserGeneration_odd {g : UInt32} (h : g.toNat % 2 = 1) :
    (nextParserGeneration g).toNat % 2 = 1 := by
  rw [nextParserGeneration_toNat h]
  omega

theorem nextDocGeneration_toNat {g : UInt32} (h : g.toNat % 2 = 0) :
    (nextDocGeneration g).toNat = if g.toNat + 2 = 2 ^ 32 then 2 else g.toNat + 2 := by
  have hlt := g.toNat_lt
  have hadd : (g + 2).toNat = (g.toNat + 2) % 2 ^ 32 := UInt32.toNat_add g 2
  have hzero : g + 2 = 0 ↔ g.toNat + 2 = 2 ^ 32 := by
    rw [← UInt32.toNat_inj, hadd]
    have : (0 : UInt32).toNat = 0 := rfl
    omega
  rw [nextDocGeneration, nextGeneration]
  by_cases h0 : g.toNat + 2 = 2 ^ 32
  · rw [if_pos (hzero.mpr h0), if_pos h0]
    rfl
  · rw [if_neg (mt hzero.mp h0), if_neg h0, hadd]
    omega

/-- What a document generation is: even, and not zero. -/
def DocGeneration (g : UInt32) : Prop := g.toNat % 2 = 0 ∧ 0 < g.toNat

theorem nextDocGeneration_ok {g : UInt32} (h : DocGeneration g) :
    DocGeneration (nextDocGeneration g) := by
  rw [DocGeneration, nextDocGeneration_toNat h.1]
  have := h.1
  split <;> omega

theorem iterate_nextParserGeneration {g : UInt32} (h : g.toNat % 2 = 1) (k : Nat) :
    (nextParserGeneration^[k] g).toNat = (g.toNat + 2 * k) % 2 ^ 32 := by
  induction k with
  | zero => exact (Nat.mod_eq_of_lt g.toNat_lt).symm
  | succ k ih =>
    have hodd : (nextParserGeneration^[k] g).toNat % 2 = 1 := by
      rw [ih]
      omega
    rw [Function.iterate_succ_apply', nextParserGeneration_toNat hodd, ih]
    omega

/-- **Parser generations come round after `2 ^ 31` frees.** -/
theorem iterate_nextParserGeneration_eq {g : UInt32} (h : g.toNat % 2 = 1) (k : Nat) :
    nextParserGeneration^[k] g = g ↔ 2 ^ 31 ∣ k := by
  rw [← UInt32.toNat_inj, iterate_nextParserGeneration h]
  have hlt := g.toNat_lt
  omega

/-- Half a document generation, counted from zero, goes up by one modulo the period. -/
theorem iterate_nextDocGeneration {g : UInt32} (h : DocGeneration g) (k : Nat) :
    (nextDocGeneration^[k] g).toNat = 2 * ((g.toNat / 2 - 1 + k) % (2 ^ 31 - 1) + 1) := by
  obtain ⟨heven, hpos⟩ := h
  have hlt := g.toNat_lt
  induction k with
  | zero =>
    rw [Function.iterate_zero_apply, Nat.add_zero, Nat.mod_eq_of_lt (by omega)]
    omega
  | succ k ih =>
    have heven' : (nextDocGeneration^[k] g).toNat % 2 = 0 := by
      rw [ih]
      omega
    rw [Function.iterate_succ_apply', nextDocGeneration_toNat heven', ih, ← Nat.add_assoc]
    generalize g.toNat / 2 - 1 + k = m
    split <;> omega

/-- **Document generations come round after `2 ^ 31 - 1` frees.** -/
theorem iterate_nextDocGeneration_eq {g : UInt32} (h : DocGeneration g) (k : Nat) :
    nextDocGeneration^[k] g = g ↔ 2 ^ 31 - 1 ∣ k := by
  rw [← UInt32.toNat_inj, iterate_nextDocGeneration h]
  obtain ⟨heven, hpos⟩ := h
  have hlt := g.toNat_lt
  omega

/-! ## Every call changes the tables by slot-table steps -/

/-- The parser slot an event frees. -/
def Event.parserFreed (event : Event) : Option Nat :=
  match event.mark with
  | .parserFreed slot => some (slotIndex slot)
  | _ => none

/-- The document slot an event frees. -/
def Event.docFreed (event : Event) : Option Nat :=
  match event.mark with
  | .docFreed slot => some (slotIndex slot)
  | _ => none

/-- How the table of parsers changes. -/
abbrev ParserStep :=
  SlotTable.Step ParserEntry.generation nextParserGeneration parserGenerationStart

/-- How the table of documents changes. -/
abbrev DocStep := SlotTable.Step DocEntry.generation nextDocGeneration docGenerationStart

theorem Moved.parserStep {registry registry' : Registry} {event : Event}
    (h : Moved registry event registry') :
    ParserStep registry.parsers event.parserFreed registry'.parsers := by
  unfold Event.parserFreed
  cases h with
  | indexed hmark h =>
    rw [hmark]
    cases h with
    | same hparsers hdocs => exact hparsers ▸ .keep _
    | more hslot hentry hindices hparsers hdocs => exact hparsers ▸ .keep _
  | refilled hmark hslot hentry hidle hparsers hdocs =>
    rw [hmark, hparsers]
    exact .update hentry rfl
  | parserMade hmark hok hslot hfilled hidle hdocs =>
    rw [hmark]
    exact hfilled.step
  | parserFreed hmark hok hslot hentry hidle hparsers hdocs =>
    rw [hmark, hparsers]
    exact .free hentry
  | parsed hmark hok hslot hdocSlot hentry hidle hfilled howner hleases hparsers =>
    rw [hmark, hparsers]
    exact .update hentry rfl
  | docFreed hmark hok hpaired hparsers hdocs =>
    rw [hmark, hparsers]
    exact .update hpaired.entry_eq rfl
  | leased hmark hok hslot hentry hfree hparsers hdocs =>
    rw [hmark]
    exact hparsers ▸ .keep _
  | advanced hmark hok hslot hentry hlease hnext hindices hparsers hdocs =>
    rw [hmark]
    exact hparsers ▸ .keep _

theorem Moved.docStep {registry registry' : Registry} {event : Event}
    (h : Moved registry event registry') :
    DocStep registry.docs event.docFreed registry'.docs := by
  unfold Event.docFreed
  cases h with
  | indexed hmark h =>
    rw [hmark]
    cases h with
    | same hparsers hdocs => exact hdocs ▸ .keep _
    | more hslot hentry hindices hparsers hdocs =>
      rw [hdocs]
      exact .update hentry rfl
  | refilled hmark hslot hentry hidle hparsers hdocs =>
    rw [hmark]
    exact hdocs ▸ .keep _
  | parserMade hmark hok hslot hfilled hidle hdocs =>
    rw [hmark]
    exact hdocs ▸ .keep _
  | parserFreed hmark hok hslot hentry hidle hparsers hdocs =>
    rw [hmark]
    exact hdocs ▸ .keep _
  | parsed hmark hok hslot hdocSlot hentry hidle hfilled howner hleases hparsers =>
    rw [hmark]
    exact hfilled.step
  | docFreed hmark hok hpaired hparsers hdocs =>
    rw [hmark, hdocs]
    exact .free hpaired.doc_eq
  | leased hmark hok hslot hentry hfree hparsers hdocs =>
    rw [hmark, hdocs]
    exact .update hentry rfl
  | advanced hmark hok hslot hentry hlease hnext hindices hparsers hdocs =>
    rw [hmark, hdocs]
    exact .update hentry rfl

section
variable {W : Type} {native : Native W}

/-- A run of calls is a run of each table. -/
theorem parserSteps_of_run {s s' : Runtime W} {events : List Event}
    (hr : Run (Executes native) s events s') (h : s.registry.Sized) :
    Run ParserStep s.registry.parsers (events.map Event.parserFreed) s'.registry.parsers := by
  induction hr with
  | nil s => exact .nil _
  | cons hstep _ ih =>
    have hmoved := moved_of_executes native h hstep
    exact .cons hmoved.parserStep (ih (hmoved.sized h))

theorem docSteps_of_run {s s' : Runtime W} {events : List Event}
    (hr : Run (Executes native) s events s') (h : s.registry.Sized) :
    Run DocStep s.registry.docs (events.map Event.docFreed) s'.registry.docs := by
  induction hr with
  | nil s => exact .nil _
  | cons hstep _ ih =>
    have hmoved := moved_of_executes native h hstep
    exact .cons hmoved.docStep (ih (hmoved.sized h))

/-! ## Handles in a reachable state -/

/-- The handle of what is in slot `index`. -/
def handleAt (index : Nat) (generation : UInt32) : UInt64 :=
  packHandle (UInt32.ofNat (index + 1)) generation

/-- Parser generations are odd, and document generations even and not zero. -/
structure Registry.Parity (registry : Registry) : Prop where
  parsers : ∀ slot ∈ registry.parsers, (slot.generation ParserEntry.generation).toNat % 2 = 1
  docs : ∀ slot ∈ registry.docs, DocGeneration (slot.generation DocEntry.generation)

theorem Moved.parity {registry registry' : Registry} {event : Event}
    (h : Moved registry event registry') (hparity : registry.Parity) : registry'.Parity :=
  ⟨h.parserStep.generations (G := fun g => g.toNat % 2 = 1) rfl
      (fun _ => nextParserGeneration_odd) hparity.parsers,
    h.docStep.generations (G := DocGeneration) ⟨rfl, by decide⟩
      (fun _ => nextDocGeneration_ok) hparity.docs⟩

theorem Reachable.parity {s : Runtime W} (h : Reachable native s) : s.registry.Parity := by
  obtain ⟨w, events, hr⟩ := h
  refine (hr.invariant (I := fun s => s.registry.Sized ∧ s.registry.Parity) ?_ ?_).2
  · rintro s event s' ⟨hsized, hparity⟩ hstep
    have hmoved := moved_of_executes native hsized hstep
    exact ⟨hmoved.sized hsized, hmoved.parity hparity⟩
  · exact ⟨⟨by simp [Registry.empty], by simp [Registry.empty]⟩,
      ⟨by simp [Registry.empty], by simp [Registry.empty]⟩⟩

/-- What is live has a handle of its own. -/
structure Registry.FreshHandles (registry : Registry) : Prop where
  parity : registry.Parity
  parser_ne_zero : ∀ i p, registry.parsers[i]? = some (.occupied p) → handleAt i p.generation ≠ 0
  doc_ne_zero : ∀ i d, registry.docs[i]? = some (.occupied d) → handleAt i d.generation ≠ 0
  parsers_ne : ∀ i j p q, registry.parsers[i]? = some (.occupied p) →
    registry.parsers[j]? = some (.occupied q) →
    handleAt i p.generation = handleAt j q.generation → i = j
  docs_ne : ∀ i j d e, registry.docs[i]? = some (.occupied d) →
    registry.docs[j]? = some (.occupied e) →
    handleAt i d.generation = handleAt j e.generation → i = j
  parser_ne_doc : ∀ i j p d, registry.parsers[i]? = some (.occupied p) →
    registry.docs[j]? = some (.occupied d) → handleAt i p.generation ≠ handleAt j d.generation

theorem handleAt_ne_zero {index : Nat} (h : index + 1 < 2 ^ 32) (generation : UInt32) :
    handleAt index generation ≠ 0 :=
  packHandle_ne_zero (exists_slot h).1 generation

theorem handleAt_inj {i j : Nat} {g g' : UInt32} (hi : i + 1 < 2 ^ 32) (hj : j + 1 < 2 ^ 32)
    (h : handleAt i g = handleAt j g') : i = j ∧ g = g' := by
  obtain ⟨hslot, hgeneration⟩ := packHandle_inj.mp h
  refine ⟨?_, hgeneration⟩
  rw [← (exists_slot hi).2, hslot, (exists_slot hj).2]

theorem freshHandles {registry : Registry} (hsized : registry.Sized) (hparity : registry.Parity) :
    registry.FreshHandles := by
  have hp {i : Nat} {p : ParserEntry} (h : registry.parsers[i]? = some (.occupied p)) :
      i + 1 < 2 ^ 32 := Nat.lt_of_le_of_lt (Registry.lt_of_getElem? h) hsized.parsers
  have hd {i : Nat} {d : DocEntry} (h : registry.docs[i]? = some (.occupied d)) :
      i + 1 < 2 ^ 32 := Nat.lt_of_le_of_lt (Registry.lt_of_getElem? h) hsized.docs
  refine ⟨hparity, fun i p h => handleAt_ne_zero (hp h) _, fun i d h => handleAt_ne_zero (hd h) _,
    fun i j p q h h' heq => (handleAt_inj (hp h) (hp h') heq).1,
    fun i j d e h h' heq => (handleAt_inj (hd h) (hd h') heq).1, ?_⟩
  intro i j p d h h' heq
  have hodd := hparity.parsers _ (List.mem_of_getElem? h)
  have heven := (hparity.docs _ (List.mem_of_getElem? h')).1
  have hgeneration : p.generation = d.generation := (handleAt_inj (hp h) (hd h') heq).2
  simp only [Slot.generation, hgeneration] at hodd heven
  omega

/-! ## Calls that name a dead handle -/

/-- The handle a call is about, if it is about one. -/
def Call.handle : Call → Option UInt64
  | .parserNew | .parserNewConfigured .. | .bytesFree .. | .valueViewsFree .. => none
  | .parserFree handle | .parserParse handle _ | .parserLastErrorLen handle
  | .parserCopyLastError handle .. | .parserLastErrorOffset handle
  | .parserLastErrorHasOffset handle | .docFree handle | .docRoot handle => some handle
  | .arrayIterNext iter | .objectIterNext iter => iter.map Iter.doc
  | .elementType view | .elementGetInt64 view | .elementGetUint64 view | .elementGetFloat64 view
  | .elementGetString view | .elementGetBigint view | .elementGetBool view | .elementIsNull view
  | .arrayIterNew view | .objectIterNew view | .objectGetField view _ | .arrayAt view _
  | .arrayLen view | .objectSize view | .elementAtPointer view _ | .elementAtPath view _
  | .elementAtPathWildcard view _ | .materializeBuild view | .testHoldMaterializeGuard view =>
    view.map ValueView.doc

/-- Every call about the handle is refused, and changes nothing. -/
def Rejected (native : Native W) (s : Runtime W) (handle : UInt64) : Prop :=
  ∀ call : Call, call.handle = some handle →
    (exec native call).run s = .error .invalidHandle s

/-- The handle names neither a parser nor a document. -/
structure Dead (registry : Registry) (handle : UInt64) : Prop where
  parser : ∀ slot entry, ¬ ParserLive registry handle slot entry
  doc : ∀ slot entry, ¬ DocLive registry handle slot entry

/-- A call that fails with an invalid handle and changes nothing. -/
abbrev Refuses {α : Type} (m : RuntimeM W α) (s : Runtime W) : Prop :=
  wp m (fun _ _ => False) (fun rc s' => rc = .invalidHandle ∧ s' = s) s

theorem Refuses.bind {α β : Type} {m : RuntimeM W β} {s : Runtime W} (h : Refuses m s)
    (f : β → RuntimeM W α) : Refuses (m >>= f) s := by
  rw [Refuses, wp_bind]
  exact wp_mono h (fun _ _ => False.elim) fun _ _ => id

section Refuses
variable {s : Runtime W} {handle : UInt64} (hdead : Dead s.registry handle) {α : Type}
include hdead

theorem refuses_lookupParser {slot generation : UInt32} (hslot : slot ≠ 0)
    (hhandle : handle = packHandle slot generation) (f : ParserEntry → RuntimeM W α) :
    Refuses (lookupParser (slotIndex slot) generation >>= f) s := by
  rw [Refuses, wp_bind, wp_lookupParser]
  exact ⟨fun entry h => (hdead.parser slot entry (.of_parserAt hslot hhandle h)).elim,
    fun _ => ⟨rfl, rfl⟩⟩

theorem refuses_lookupDoc {slot generation : UInt32} (hslot : slot ≠ 0)
    (hhandle : handle = packHandle slot generation) (f : DocEntry → RuntimeM W α) :
    Refuses (lookupDoc (slotIndex slot) generation >>= f) s := by
  rw [Refuses, wp_bind, wp_lookupDoc]
  exact ⟨fun entry h => (hdead.doc slot entry (.of_docAt hslot hhandle h)).elim,
    fun _ => ⟨rfl, rfl⟩⟩

theorem parserEntry_dead : s.registry.parserEntry handle = .error .invalidHandle := by
  rw [Registry.parserEntry]
  cases hunpack : unpackHandle handle with
  | error rc => rw [unpackHandle_error hunpack]; rfl
  | ok parts =>
    obtain ⟨index, slot, generation⟩ := parts
    obtain ⟨hslot, rfl, hhandle⟩ := unpackHandle_eq_ok hunpack
    cases hentry : s.registry.parserAt (slot - 1).toNat generation with
    | none => simp [bind, Except.bind, hentry, throw, throwThe, MonadExceptOf.throw]
    | some entry => exact (hdead.parser slot entry (.of_parserAt hslot hhandle hentry)).elim

theorem docEntry_dead : s.registry.docEntry handle = .error .invalidHandle := by
  rw [Registry.docEntry]
  cases hunpack : unpackHandle handle with
  | error rc => rw [unpackHandle_error hunpack]; rfl
  | ok parts =>
    obtain ⟨index, slot, generation⟩ := parts
    obtain ⟨hslot, rfl, hhandle⟩ := unpackHandle_eq_ok hunpack
    cases hentry : s.registry.docAt (slot - 1).toNat generation with
    | none => simp [bind, Except.bind, hentry, throw, throwThe, MonadExceptOf.throw]
    | some entry => exact (hdead.doc slot entry (.of_docAt hslot hhandle hentry)).elim

theorem refuses_withParser (call : Nat → NativeM W α) : Refuses (withParser handle call) s := by
  rw [Refuses, withParser, wp_bind, wp_getRegistry, parserEntry_dead hdead]
  exact ⟨rfl, rfl⟩

theorem refuses_view (view : Option ValueView) (hview : view.map ValueView.doc = some handle)
    (action : Nat → UInt64 → DocM W α) : Refuses (withResolvedView view action) s := by
  obtain ⟨v, rfl, hdoc⟩ := Option.map_eq_some_iff.mp hview
  refine wp_withResolvedView nofun (fun _ _ => ⟨rfl, rfl⟩) ?_
  intro v' slot generation entry jsonIndex hv hslot hhandle hentry _
  cases hv
  exact (hdead.doc slot entry (.of_docAt hslot (hdoc ▸ hhandle) hentry)).elim

theorem refuses_iter {iter : Iter} (hiter : iter.doc = handle) (tag : Nat) (action : DocM W α) :
    Refuses (withIterDoc iter tag action) s := by
  refine wp_withIterDoc ⟨rfl, rfl⟩ ?_
  intro slot generation entry _ hslot hhandle hentry _
  exact (hdead.doc slot entry (.of_docAt hslot (hiter ▸ hhandle) hentry)).elim

theorem refuses_readView (native : Native W) (read : ElementRead α) {view : Option ValueView}
    (hview : view.map ValueView.doc = some handle) : Refuses (readView native read view) s :=
  refuses_view hdead view hview _

theorem refuses_elementGetBytesCopy (native : Native W) (getter : ElementRead Span)
    {view : Option ValueView} (hview : view.map ValueView.doc = some handle) :
    Refuses (elementGetBytesCopy native getter view) s :=
  Refuses.bind (refuses_view hdead view hview _) _

theorem refuses_elementAtPathWildcard (native : Native W) {view : Option ValueView}
    (hview : view.map ValueView.doc = some handle) (path : Bytes) :
    Refuses (elementAtPathWildcard native view path) s :=
  Refuses.bind (refuses_view hdead view hview _) _

end Refuses

/-- **A dead handle is refused by every call.** -/
theorem rejected_of_dead (native : Native W) {s : Runtime W} {handle : UInt64}
    (hdead : Dead s.registry handle) : Rejected native s handle := by
  have hrun {α : Type} {m : RuntimeM W α} (f : α → Reply) (h : Refuses m s) :
      (f <$> m).run s = .error .invalidHandle s := by
    refine run_eq_error ?_
    rw [wp_map]
    exact h
  intro call hcall
  cases call with
  | parserNew | parserNewConfigured | bytesFree | valueViewsFree => cases hcall
  | parserFree parser =>
    cases hcall
    refine hrun _ ?_
    rw [Refuses, parserFree, wp_bind]
    exact wp_unpackHandle (fun _ _ hslot hhandle => refuses_lookupParser hdead hslot hhandle _)
      ⟨rfl, rfl⟩
  | parserParse parser input =>
    cases hcall
    refine hrun _ ?_
    rw [Refuses, parserParse, wp_bind]
    exact wp_unpackHandle (fun _ _ hslot hhandle => refuses_lookupParser hdead hslot hhandle _)
      ⟨rfl, rfl⟩
  | docFree doc =>
    cases hcall
    refine hrun _ ?_
    rw [Refuses, docFree, wp_bind]
    exact wp_unpackHandle (fun _ _ hslot hhandle => refuses_lookupDoc hdead hslot hhandle _)
      ⟨rfl, rfl⟩
  | parserLastErrorLen | parserCopyLastError | parserLastErrorOffset
  | parserLastErrorHasOffset =>
    cases hcall
    exact hrun _ (refuses_withParser hdead _)
  | docRoot doc =>
    cases hcall
    refine hrun _ ?_
    rw [Refuses, docRoot, wp_bind, wp_getRegistry, docEntry_dead hdead]
    exact ⟨rfl, rfl⟩
  | arrayIterNext iter | objectIterNext iter =>
    obtain ⟨iter, rfl, hiter⟩ := Option.map_eq_some_iff.mp hcall
    exact hrun _ (refuses_iter hdead hiter _ _)
  | elementGetString | elementGetBigint =>
    exact hrun _ (refuses_elementGetBytesCopy hdead native _ hcall)
  | elementAtPathWildcard => exact hrun _ (refuses_elementAtPathWildcard hdead native hcall _)
  | elementType | elementGetInt64 | elementGetUint64 | elementGetBool | elementIsNull
  | testHoldMaterializeGuard => exact hrun _ (refuses_readView hdead native _ hcall)
  | elementGetFloat64 view => exact hrun _ (refuses_view hdead view hcall _)
  | arrayIterNew view => exact hrun _ (refuses_view hdead view hcall _)
  | objectIterNew view => exact hrun _ (refuses_view hdead view hcall _)
  | objectGetField view => exact hrun _ (refuses_view hdead view hcall _)
  | arrayAt view => exact hrun _ (refuses_view hdead view hcall _)
  | arrayLen view => exact hrun _ (refuses_view hdead view hcall _)
  | objectSize view => exact hrun _ (refuses_view hdead view hcall _)
  | elementAtPointer view => exact hrun _ (refuses_view hdead view hcall _)
  | elementAtPath view => exact hrun _ (refuses_view hdead view hcall _)
  | materializeBuild view => exact hrun _ (refuses_view hdead view hcall _)

/-! ## How long a handle stays dead -/

/-- How often a run frees the parser in a slot. -/
def parserFrees (slot : UInt32) (events : List Event) : Nat :=
  (events.map Event.parserFreed).count (some (slotIndex slot))

/-- How often a run frees the document in a slot. -/
def docFrees (slot : UInt32) (events : List Event) : Nat :=
  (events.map Event.docFreed).count (some (slotIndex slot))

/-- A handle is live again exactly when its slot is occupied and at its generation. -/
theorem parserLive_iff {registry : Registry} {handle : UInt64} {slot generation : UInt32}
    (hslot : slot ≠ 0) (hhandle : handle = packHandle slot generation) :
    (∃ entry, ParserLive registry handle slot entry) ↔
      generationAt ParserEntry.generation registry.parsers (slotIndex slot) = some generation ∧
        ∃ entry, registry.parsers[slotIndex slot]? = some (.occupied entry) := by
  constructor
  · rintro ⟨entry, h⟩
    have hgeneration := (packHandle_inj.mp (hhandle.symm.trans h.handle_eq)).2
    exact ⟨by rw [generationAt, h.entry_eq, hgeneration]; rfl, entry, h.entry_eq⟩
  · rintro ⟨hgeneration, entry, hentry⟩
    rw [generationAt, hentry] at hgeneration
    have hg : entry.generation = generation := Option.some.inj hgeneration
    exact ⟨entry, hslot, hg ▸ hhandle, hentry⟩

theorem docLive_iff {registry : Registry} {handle : UInt64} {slot generation : UInt32}
    (hslot : slot ≠ 0) (hhandle : handle = packHandle slot generation) :
    (∃ entry, DocLive registry handle slot entry) ↔
      generationAt DocEntry.generation registry.docs (slotIndex slot) = some generation ∧
        ∃ entry, registry.docs[slotIndex slot]? = some (.occupied entry) := by
  constructor
  · rintro ⟨entry, h⟩
    have hgeneration := (packHandle_inj.mp (hhandle.symm.trans h.handle_eq)).2
    exact ⟨by rw [generationAt, h.entry_eq, hgeneration]; rfl, entry, h.entry_eq⟩
  · rintro ⟨hgeneration, entry, hentry⟩
    rw [generationAt, hentry] at hgeneration
    have hg : entry.generation = generation := Option.some.inj hgeneration
    exact ⟨entry, hslot, hg ▸ hhandle, hentry⟩

/-- **A parser handle comes back exactly with the period.** -/
theorem parserLive_after {s s' : Runtime W} {events : List Event} (h : Reachable native s)
    {handle : UInt64} {slot : UInt32} {entry : ParserEntry}
    (hlive : ParserLive s.registry handle slot entry)
    (hr : Run (Executes native) s events s') :
    (∃ entry', ParserLive s'.registry handle slot entry') ↔
      2 ^ 31 ∣ parserFrees slot events ∧
        ∃ entry', s'.registry.parsers[slotIndex slot]? = some (.occupied entry') := by
  have hat : generationAt ParserEntry.generation s.registry.parsers (slotIndex slot) =
      some entry.generation := by
    rw [generationAt, hlive.entry_eq]
    rfl
  have hodd : entry.generation.toNat % 2 = 1 :=
    h.parity.parsers _ (List.mem_of_getElem? hlive.entry_eq)
  rw [parserLive_iff hlive.slot_ne hlive.handle_eq,
    generationAt_of_run (parserSteps_of_run hr h.sized) hat, Option.some.injEq,
    iterate_nextParserGeneration_eq hodd]
  rfl

/-- **A document handle comes back exactly with the period.** -/
theorem docLive_after {s s' : Runtime W} {events : List Event} (h : Reachable native s)
    {handle : UInt64} {slot : UInt32} {doc : DocEntry}
    (hlive : DocLive s.registry handle slot doc) (hr : Run (Executes native) s events s') :
    (∃ doc', DocLive s'.registry handle slot doc') ↔
      2 ^ 31 - 1 ∣ docFrees slot events ∧
        ∃ doc', s'.registry.docs[slotIndex slot]? = some (.occupied doc') := by
  have hat : generationAt DocEntry.generation s.registry.docs (slotIndex slot) =
      some doc.generation := by
    rw [generationAt, hlive.entry_eq]
    rfl
  have heven : DocGeneration doc.generation :=
    h.parity.docs _ (List.mem_of_getElem? hlive.entry_eq)
  rw [docLive_iff hlive.slot_ne hlive.handle_eq,
    generationAt_of_run (docSteps_of_run hr h.sized) hat, Option.some.injEq,
    iterate_nextDocGeneration_eq heven]
  rfl

/-- A handle with a parser's generation never names a document. -/
theorem not_docLive_of_odd {registry : Registry} (hparity : registry.Parity) {handle : UInt64}
    {slot generation : UInt32} (hhandle : handle = packHandle slot generation)
    (hodd : generation.toNat % 2 = 1) (slot' : UInt32) (doc : DocEntry) :
    ¬ DocLive registry handle slot' doc := by
  intro h
  have heven : DocGeneration doc.generation :=
    hparity.docs _ (List.mem_of_getElem? h.entry_eq)
  have hgeneration := (packHandle_inj.mp (hhandle.symm.trans h.handle_eq)).2
  have := heven.1
  rw [hgeneration] at hodd
  omega

/-- A handle with a document's generation never names a parser. -/
theorem not_parserLive_of_even {registry : Registry} (hparity : registry.Parity)
    {handle : UInt64} {slot generation : UInt32} (hhandle : handle = packHandle slot generation)
    (heven : DocGeneration generation) (slot' : UInt32) (entry : ParserEntry) :
    ¬ ParserLive registry handle slot' entry := by
  intro h
  have hodd : entry.generation.toNat % 2 = 1 :=
    hparity.parsers _ (List.mem_of_getElem? h.entry_eq)
  have hgeneration := (packHandle_inj.mp (hhandle.symm.trans h.handle_eq)).2
  have := heven.1
  rw [hgeneration] at this
  omega

theorem Reachable.append {s s' : Runtime W} (h : Reachable native s) {events : List Event}
    (hr : Run (Executes native) s events s') : Reachable native s' := by
  obtain ⟨w, events', hr'⟩ := h
  exact ⟨w, events' ++ events, hr'.append hr⟩

/-- **Handles are fresh, and stale ones refused, over every run of calls.**  In every
reachable state live handles are not zero and pairwise different, across the two kinds
as well.  After a handle's slot has been freed, every call about the handle is refused
until the slot has been freed `2 ^ 31` times (a parser's) or `2 ^ 31 - 1` times (a
document's), its own free counted; with these periods, and only then, the handle is
live again whenever the slot is occupied. -/
theorem handle_freshness (native : Native W) {s : Runtime W} (h : Reachable native s) :
    s.registry.FreshHandles ∧
    (∀ handle slot entry, ParserLive s.registry handle slot entry →
      ∀ events s', Run (Executes native) s events s' →
        (0 < parserFrees slot events → parserFrees slot events < 2 ^ 31 →
          Rejected native s' handle) ∧
        ((∃ entry', ParserLive s'.registry handle slot entry') ↔
          2 ^ 31 ∣ parserFrees slot events ∧
            ∃ entry', s'.registry.parsers[slotIndex slot]? = some (.occupied entry'))) ∧
    (∀ handle slot doc, DocLive s.registry handle slot doc →
      ∀ events s', Run (Executes native) s events s' →
        (0 < docFrees slot events → docFrees slot events < 2 ^ 31 - 1 →
          Rejected native s' handle) ∧
        ((∃ doc', DocLive s'.registry handle slot doc') ↔
          2 ^ 31 - 1 ∣ docFrees slot events ∧
            ∃ doc', s'.registry.docs[slotIndex slot]? = some (.occupied doc'))) := by
  refine ⟨freshHandles h.sized h.parity, ?_, ?_⟩
  · intro handle slot entry hlive events s' hr
    have hafter := parserLive_after h hlive hr
    refine ⟨fun hpos hlt => rejected_of_dead native ⟨fun slot' entry' hlive' => ?_, ?_⟩, hafter⟩
    · have hslot : slot' = slot :=
        (packHandle_inj.mp (hlive'.handle_eq.symm.trans hlive.handle_eq)).1
      subst hslot
      exact Nat.not_dvd_of_pos_of_lt hpos hlt (hafter.mp ⟨entry', hlive'⟩).1
    · have hodd : entry.generation.toNat % 2 = 1 :=
        h.parity.parsers _ (List.mem_of_getElem? hlive.entry_eq)
      exact not_docLive_of_odd (h.append hr).parity hlive.handle_eq hodd
  · intro handle slot doc hlive events s' hr
    have hafter := docLive_after h hlive hr
    refine ⟨fun hpos hlt => rejected_of_dead native ⟨?_, fun slot' doc' hlive' => ?_⟩, hafter⟩
    · have heven : DocGeneration doc.generation :=
        h.parity.docs _ (List.mem_of_getElem? hlive.entry_eq)
      exact not_parserLive_of_even (h.append hr).parity hlive.handle_eq heven
    · have hslot : slot' = slot :=
        (packHandle_inj.mp (hlive'.handle_eq.symm.trans hlive.handle_eq)).1
      subst hslot
      exact Nat.not_dvd_of_pos_of_lt hpos hlt (hafter.mp ⟨doc', hlive'⟩).1

end

/-- The state once the sample document has been freed. -/
def sampleFreed : Runtime SampleWorld where
  registry := ⟨[.occupied ⟨1, 1, .idle, paddedInput [] sampleText 64, defaultMaxCapacity,
    defaultMaxDepth⟩], [.vacant 4], ∅, ∅⟩
  native := ⟨∅, []⟩

/-- The handle of the freed document is refused. -/
theorem handle_freshness_sample : Rejected sampleNative sampleFreed sampleDoc := by
  obtain ⟨-, -, hdocs⟩ := handle_freshness sampleNative sampleState_reachable
  have hlive : DocLive sampleState.registry sampleDoc 1 sampleEntry := ⟨by decide, rfl, rfl⟩
  have hr : Run (Executes sampleNative) sampleState [(.docFree sampleDoc, .ok .done)]
      sampleFreed := .cons rfl (.nil _)
  exact (hdocs _ _ _ hlive _ _ hr).1 (by decide) (by decide)

end PureSimdjson
