import PureSimdjson.NativeFrame

/-!
# What a parse comes to

A parse on a parser that is live and idle comes down to its native part: there is always
room for the new document, for a document needs a busy parser, and this one is not busy.
-/
namespace PureSimdjson

open Effect SlotTable Runs

/-! ## Room for a document -/

section
variable {W : Type} {native : Native W}

/-- Nothing is asked of the native side. -/
theorem Native.quiet_true (native : Native W) : native.Quiet fun _ _ => True where
  parserGetLastErrorLen _ _ := wp_of_forall (fun _ _ => trivial) fun _ _ => trivial
  parserCopyLastError _ _ _ _ _ := wp_of_forall (fun _ _ => trivial) fun _ _ => trivial
  parserGetLastErrorOffset _ _ := wp_of_forall (fun _ _ => trivial) fun _ _ => trivial
  parserGetLastErrorHasOffset _ _ := wp_of_forall (fun _ _ => trivial) fun _ _ => trivial
  docRoot _ _ := wp_of_forall (fun _ _ => trivial) fun _ _ => trivial
  docFree _ _ := wp_of_forall (fun _ _ => trivial) fun _ _ => trivial
  elementType _ _ := wp_of_forall (fun _ _ => trivial) fun _ _ => trivial
  read _ _ _ _ := wp_of_forall (fun _ _ => trivial) fun _ _ => trivial
  leakBytes _ _ := trivial
  leakViews _ _ := trivial
  dropBytes _ _ _ := trivial
  dropViews _ _ _ := trivial

instance refl_true : Std.Refl (fun _ _ : W => True) := ⟨fun _ => trivial⟩

instance isTrans_true : IsTrans W (fun _ _ : W => True) := ⟨fun _ _ _ _ _ => trivial⟩

theorem SameParsers.length {registry registry' : Registry} (h : SameParsers registry registry') :
    registry'.parsers.length = registry.parsers.length := by
  have hlength := congrArg List.length h
  rwa [List.length_map, List.length_map] at hlength

/-- A new parser takes a vacant slot or one below the limit. -/
theorem allocParser_length {registry registry' : Registry} {nativePtr maxCapacity : Nat}
    {maxDepth : UInt32} {handle : UInt64} (h : registry.parsers.length ≤ maxSlotCount)
    (hok : registry.allocParser nativePtr maxCapacity maxDepth = .ok (handle, registry')) :
    registry'.parsers.length ≤ maxSlotCount := by
  rw [Registry.allocParser] at hok
  split at hok
  · cases hok
    rwa [Registry.setParser, List.length_set]
  · split at hok
    · cases hok
    · rename_i hlimit
      cases hok
      rw [List.length_append, List.length_singleton]
      omega

theorem wp_registerParser_length (nativePtr maxCapacity : Nat) (maxDepth : UInt32) {s : Runtime W}
    (h : s.registry.parsers.length ≤ maxSlotCount) :
    wp (registerParser native nativePtr maxCapacity maxDepth)
      (fun _ s' => s'.registry.parsers.length ≤ maxSlotCount)
      (fun _ s' => s'.registry.parsers.length ≤ maxSlotCount) s := by
  rw [registerParser, wp_bind, wp_getRegistry]
  cases hok : s.registry.allocParser nativePtr maxCapacity maxDepth with
  | error rc =>
    dsimp only
    rw [wp_bind, wp_callNative]
    exact wp_of_forall (fun _ _ => h) fun _ _ => h
  | ok made => exact allocParser_length h hok

/-- **There are never more parser slots than the limit.** -/
theorem Executes.parsers_length {s s' : Runtime W} {event : Event} (hsized : s.registry.Sized)
    (h : s.registry.parsers.length ≤ maxSlotCount) (hexec : Executes native s event s') :
    s'.registry.parsers.length ≤ maxSlotCount := by
  refine hexec.of_wp (P := fun _ s' => s'.registry.parsers.length ≤ maxSlotCount) native ?_
  by_cases hcall : event.1.OnParser
  · obtain ⟨call, result⟩ := event
    cases call with
    | parserNew =>
      rw [exec, wp_map, parserNew, wp_bind, wp_callNative]
      refine wp_of_forall (fun _ w => ?_) fun _ _ => h
      exact wp_registerParser_length _ _ _ (s := { s with native := w }) h
    | parserNewConfigured maxCapacity maxDepth =>
      rw [exec, wp_map, parserNewConfigured, wp_bind, wp_ofExcept]
      refine ⟨fun _ _ => ?_, fun _ _ => h⟩
      dsimp only
      rw [wp_bind, wp_callNative]
      refine wp_of_forall (fun _ w => ?_) fun _ _ => h
      exact wp_registerParser_length _ _ _ (s := { s with native := w }) h
    | parserFree handle =>
      rw [exec, wp_map]
      refine wp_mono (wp_parserFree native handle s) ?_ fun _ s' hs' => by rwa [hs']
      intro _ s' hfreed
      obtain ⟨slot, entry, -, -, hs'⟩ := hfreed
      rwa [hs', Registry.setParser, List.length_set]
    | parserParse handle input =>
      rw [exec, wp_map]
      refine wp_mono (wp_parserParse native handle input hsized) ?_ ?_
      · intro _ s' hparsed
        obtain ⟨slot, entry, docSlot, doc, -, -, -, -, -, -, -, hs'⟩ := hparsed
        rwa [hs', occupy, Registry.setParser, List.length_set]
      · intro _ s' hfailed
        obtain hs' | ⟨slot, entry, input', -, -, hs'⟩ := hfailed
        · rwa [hs']
        · rwa [hs', refill, Registry.setParser, List.length_set]
    | _ => exact hcall.elim
  · refine wp_mono (quiet_exec native.quiet_true event.1 hcall s) ?_ ?_
    · intro _ s' hs'
      rwa [hs'.parsers.length]
    · intro _ s' hs'
      rwa [hs'.parsers.length]

theorem Reachable.parsers_length {s : Runtime W} (h : Reachable native s) :
    s.registry.parsers.length ≤ maxSlotCount := by
  obtain ⟨w, events, hr⟩ := h
  have hempty : (Registry.empty).Sized := ⟨by simp [Registry.empty], by simp [Registry.empty]⟩
  refine (hr.invariant (I := fun s => s.registry.Sized ∧ s.registry.parsers.length ≤ maxSlotCount)
    ?_ ⟨hempty, Nat.zero_le _⟩).2
  intro s event s' hs hstep
  exact ⟨(moved_of_executes native hs.1 hstep).sized hs.1, hstep.parsers_length hs.1 hs.2⟩

/-- There is a free document slot, or room for a new one. -/
def Registry.HasDocRoom (registry : Registry) : Prop :=
  (∃ vacant, firstVacant registry.docs = some vacant) ∨ registry.docs.length < maxSlotCount

theorem firstVacant_none {α γ : Type} : ∀ {t : List (Slot γ α)}, firstVacant t = none →
    ∀ i (h : i < t.length), ∃ e, t[i] = .occupied e
  | .vacant g :: t, h, i, hi => by cases h
  | .occupied e :: t, h, 0, hi => ⟨e, rfl⟩
  | .occupied e :: t, h, i + 1, hi => by
      rw [firstVacant, Option.map_eq_none_iff] at h
      exact firstVacant_none h i (Nat.lt_of_succ_lt_succ hi)

/-- **An idle parser leaves room for a document.**  Every document has a busy parser of its
own, so if all document slots are taken there is a parser for each, and the idle one. -/
theorem hasDocRoom {registry : Registry} (hsized : registry.Sized)
    (hlength : registry.parsers.length ≤ maxSlotCount) (hlinked : registry.Linked)
    {handle : UInt64} {slot : UInt32} {entry : ParserEntry}
    (hlive : ParserLive registry handle slot entry) (hidle : entry.state = .idle) :
    registry.HasDocRoom := by
  cases hvacant : firstVacant registry.docs with
  | some vacant => exact Or.inl ⟨vacant, hvacant⟩
  | none =>
    refine Or.inr (lt_of_lt_of_le ?_ hlength)
    have hlt (i : Fin registry.docs.length) : i.val + 1 < 2 ^ 32 :=
      Nat.lt_of_le_of_lt i.isLt hsized.docs
    have howner (i : Fin registry.docs.length) : ∃ j : Fin registry.parsers.length, ∃ owner,
        registry.parsers[j.val]? = some (.occupied owner) ∧
          ∃ generation, owner.state = .busy (UInt32.ofNat (i + 1)) generation := by
      obtain ⟨doc, hdoc⟩ := firstVacant_none hvacant i i.isLt
      obtain ⟨hdocSlot, hindex⟩ := exists_slot (hlt i)
      have hdocLive : DocLive registry (packHandle (UInt32.ofNat (i + 1)) doc.generation)
          (UInt32.ofNat (i + 1)) doc :=
        ⟨hdocSlot, rfl, by rw [hindex, List.getElem?_eq_getElem i.isLt, hdoc]⟩
      obtain ⟨ownerSlot, owner, hpaired⟩ := hlinked.paired hdocLive
      exact ⟨⟨slotIndex ownerSlot, Registry.lt_of_getElem? hpaired.entry_eq⟩, owner,
        hpaired.entry_eq, doc.generation, hpaired.busy⟩
    choose ownerIndex owner hentry hbusy using howner
    -- different documents have different owners
    have hinjective : Function.Injective ownerIndex := by
      intro i i' heq
      have hsame : owner i = owner i' := by
        have hget := hentry i
        rw [heq, hentry i'] at hget
        exact (Slot.occupied.inj (Option.some.inj hget)).symm
      obtain ⟨generation, hstate⟩ := hbusy i
      obtain ⟨generation', hstate'⟩ := hbusy i'
      rw [hsame, hstate'] at hstate
      have hslot := congrArg UInt32.toNat (ParserState.busy.inj hstate).1
      rw [UInt32.toNat_ofNat_of_lt' (hlt i), UInt32.toNat_ofNat_of_lt' (hlt i')] at hslot
      exact Fin.ext (by omega)
    -- and none of them is the idle parser
    have hmissed : (⟨slotIndex slot, Registry.lt_of_getElem? hlive.entry_eq⟩ :
        Fin registry.parsers.length) ∉ Set.range ownerIndex := by
      rintro ⟨i, hi⟩
      have hget := hentry i
      rw [hi, hlive.entry_eq] at hget
      obtain ⟨generation, hstate⟩ := hbusy i
      rw [← Slot.occupied.inj (Option.some.inj hget), hidle] at hstate
      cases hstate
    have hcard := Fintype.card_lt_of_injective_of_notMem ownerIndex hinjective hmissed
    rwa [Fintype.card_fin, Fintype.card_fin] at hcard

theorem allocDoc_of_room {registry : Registry} (h : registry.HasDocRoom)
    (nativePtr rootPtr rootAfterIndex : Nat) (slot generation : UInt32) (input : Bytes) :
    ∃ made,
      registry.allocDoc nativePtr rootPtr rootAfterIndex slot generation input = .ok made := by
  rw [Registry.allocDoc]
  obtain ⟨⟨index, vacant⟩, hvacant⟩ | hlength := h
  · rw [hvacant]
    exact ⟨_, rfl⟩
  · cases firstVacant registry.docs with
    | some vacant => exact ⟨_, rfl⟩
    | none =>
      dsimp only
      rw [if_neg (by omega)]
      exact ⟨_, rfl⟩

/-! ## The native part -/

section
variable (native)

/-- What `native_parser_parse` does with the document the parse made. -/
def parsedDoc (made : Nat) : NativeM W NativeParsedDoc := do
  let doc ← orInternal (· ≠ 0) made
  let root ← tryCatch (native.docRoot doc) fun rc => do
    cleanup (native.docFree doc)
    throw rc
  if root = 0 then do
    cleanup (native.docFree doc)
    throw .internal
  else pure ⟨doc, root⟩

/-- The native calls of a parse once there is a document. -/
def readParsed (made : Nat) : NativeM W Unit := do
  let parsed ← parsedDoc native made
  let _ ← tryCatch (nativeElementAfterIndex native parsed.docPtr rootJsonIndex) fun rc => do
    cleanup (native.docFree parsed.docPtr)
    throw rc

/-- The native calls of a parse. -/
def parseAndRead (parser : Nat) (input : Bytes) (inputLen : Nat) : NativeM W Unit := do
  let parsed ← nativeParserParse native parser input inputLen
  let _ ← tryCatch (nativeElementAfterIndex native parsed.docPtr rootJsonIndex) fun rc => do
    cleanup (native.docFree parsed.docPtr)
    throw rc

/-- How reading a new document ends. -/
def Native.readStatus (w : W) (made : Nat) : Except ErrorCode Unit :=
  match (readParsed native made).run w with
  | .ok _ _ => .ok ()
  | .error rc _ => .error rc

theorem wp_readParsed_status (made : Nat) (w : W) :
    wp (readParsed native made) (fun _ _ => native.readStatus w made = .ok ())
      (fun rc _ => native.readStatus w made = .error rc) w := by
  rw [Native.readStatus, wp]
  cases (readParsed native made).run w with
  | ok a w' => rfl
  | error rc w' => rfl

theorem parseAndRead_eq (parser : Nat) (input : Bytes) (inputLen : Nat) :
    parseAndRead native parser input inputLen =
      native.parserParse parser input inputLen >>= readParsed native := by
  have hparse : nativeParserParse native parser input inputLen =
      native.parserParse parser input inputLen >>= parsedDoc native := rfl
  rw [parseAndRead, hparse, bind_assoc]
  rfl

end

theorem quiet_readParsed {R : W → W → Prop} [Std.Refl R] [IsTrans W R] (h : native.Quiet R)
    (made : Nat) : Keeps R (readParsed native made) := by
  have hcleanup (doc : Nat) : Keeps R (cleanup (native.docFree doc)) :=
    (h.docFree doc).tryCatch fun _ => Keeps.pure _
  refine Keeps.bind ?_ fun parsed =>
    Keeps.bind (Keeps.tryCatch ?_ fun rc => ?_) fun _ => Keeps.pure _
  · refine (quiet_orInternal _ _).bind fun doc => Keeps.bind (Keeps.tryCatch (h.docRoot _) ?_) ?_
    · exact fun rc => (hcleanup _).bind fun _ => Keeps.throw _
    · exact fun root => Keeps.ite ((hcleanup _).bind fun _ => Keeps.throw _) (Keeps.pure _)
  · exact (h.read _ _ _).bind fun _ => quiet_orInternal _ _
  · exact (hcleanup _).bind fun _ => Keeps.throw _

variable {handle : UInt64} {slot : UInt32} {entry : ParserEntry} {input : Bytes} {s : Runtime W}

/-- A handle that names no parser is refused. -/
theorem run_parserParse_dead (hdead : ∀ slot entry, ¬ ParserLive s.registry handle slot entry) :
    (parserParse native handle input).run s = .error .invalidHandle s := by
  refine run_eq_error ?_
  rw [parserParse, wp_bind]
  refine wp_unpackHandle (fun slot generation hslot hhandle => ?_) ⟨rfl, rfl⟩
  rw [wp_bind, wp_lookupParser]
  exact ⟨fun entry hentry =>
    absurd (ParserLive.of_parserAt hslot hhandle hentry) (hdead slot entry),
    fun _ => ⟨rfl, rfl⟩⟩

/-- A parser that is busy is left alone. -/
theorem run_parserParse_busy (hlive : ParserLive s.registry handle slot entry)
    (hbusy : entry.state ≠ .idle) :
    (parserParse native handle input).run s = .error .parserBusy s := by
  refine run_eq_error ?_
  rw [parserParse, wp_bind, hlive.handle_eq, unpackHandle_packHandle hlive.slot_ne,
    wp_ofExcept_ok, wp_bind, show (slot - 1).toNat = slotIndex slot from rfl,
    wp_lookupParser_some hlive.parserAt, wp_bind, wp_require]
  exact ⟨fun hidle => absurd hidle hbusy, fun _ => ⟨rfl, rfl⟩⟩

/-- **An input that is too long** is refused once the diagnostics are reset, and the registry
with all its buffers stays as it is. -/
theorem run_parserParse_capacity (hlive : ParserLive s.registry handle slot entry)
    (hidle : entry.state = .idle) {w : W}
    (hreset : (native.parserResetDiagnostics entry.nativePtr).run s.native = .ok () w)
    (hlong : ¬ input.length ≤ entry.maxCapacity) :
    (parserParse native handle input).run s = .error .capacityLimit ⟨s.registry, w⟩ := by
  refine run_eq_error ?_
  rw [parserParse, wp_bind, hlive.handle_eq, unpackHandle_packHandle hlive.slot_ne,
    wp_ofExcept_ok, wp_bind, show (slot - 1).toNat = slotIndex slot from rfl,
    wp_lookupParser_some hlive.parserAt, wp_bind, wp_require]
  refine ⟨fun _ => ?_, fun hn => absurd hidle hn⟩
  rw [wp_bind, wp_callNative]
  refine wp_of_run_ok hreset ?_
  rw [wp_bind, wp_require]
  exact ⟨fun hfits => absurd hfits hlong, fun _ => ⟨rfl, rfl⟩⟩

/-- **Otherwise the parse comes down to its native part**, on the input and its padding:
what that guarantees of the native side, and of the status, the parse does. -/
theorem wp_parserParse_idle (hlive : ParserLive s.registry handle slot entry)
    (hidle : entry.state = .idle) (hsized : s.registry.Sized)
    (hroom : s.registry.HasDocRoom) {w : W}
    (hreset : (native.parserResetDiagnostics entry.nativePtr).run s.native = .ok () w)
    (hfits : input.length ≤ entry.maxCapacity) {Q : W → Prop} {E : ErrorCode → W → Prop}
    (hpadding : native.paddingBytes = 0 → E .internal w)
    (hlong : native.paddingBytes ≠ 0 → ¬ input.length + (native.paddingBytes) < 2 ^ 64 →
      E .invalidArgument w)
    (h : native.paddingBytes ≠ 0 → input.length + (native.paddingBytes) < 2 ^ 64 →
      wp (parseAndRead native entry.nativePtr
        (input ++ List.replicate native.paddingBytes 0) input.length) (fun _ => Q) E w) :
    wp (parserParse native handle input) (fun _ s' => Q s'.native) (fun rc s' => E rc s'.native)
      s := by
  rw [parserParse, wp_bind, hlive.handle_eq, unpackHandle_packHandle hlive.slot_ne,
    wp_ofExcept_ok, wp_bind, show (slot - 1).toNat = slotIndex slot from rfl,
    wp_lookupParser_some hlive.parserAt, wp_bind, wp_require]
  refine ⟨fun _ => ?_, fun hn => absurd hidle hn⟩
  rw [wp_bind, wp_callNative]
  refine wp_of_run_ok hreset ?_
  rw [wp_bind, wp_require]
  refine ⟨fun _ => ?_, fun hn => absurd hfits hn⟩
  rw [wp_bind, wp_modifyRegistry, wp_bind, paddingBytes]
  by_cases hzero : native.paddingBytes = 0
  · rw [if_pos hzero]
    exact hpadding hzero
  rw [if_neg hzero, wp_ofExcept_ok, wp_bind, wp_require]
  refine ⟨fun hsum => ?_, hlong hzero⟩
  dsimp only
  rw [paddedInput_eq]
  have hnative := h hzero hsum
  generalize input ++ List.replicate native.paddingBytes 0 = ownedInput at hnative ⊢
  rw [parseAndRead, wp_bind] at hnative
  rw [wp_bind, wp_tryCatch, wp_callNative]
  refine wp_mono hnative (fun parsed w hnative => ?_) fun rc w hrc => ?_
  · rw [wp_bind, wp_tryCatch] at hnative
    rw [wp_bind, wp_tryCatch, wp_callNative]
    refine wp_mono hnative (fun rootAfterIndex w hQ => ?_) fun rc w hnative => ?_
    · rw [wp_bind, wp_getRegistry]
      have hroom' : (refill s.registry slot entry []).HasDocRoom := hroom
      obtain ⟨⟨docHandle, made⟩, hmade⟩ := allocDoc_of_room hroom' parsed.docPtr parsed.rootPtr
        rootAfterIndex slot entry.generation ownedInput
      have hsized' : (refill s.registry slot entry []).Sized :=
        ⟨by simpa [refill, Registry.setParser] using hsized.parsers, hsized.docs⟩
      obtain ⟨docSlot, generation, hdocSlot, rfl, -, hparsers⟩ := Registry.allocDoc_ok hsized' hmade
      rw [refill] at hmade
      rw [hmade]
      dsimp only
      rw [wp_bind, wp_modifyRegistry]
      refine wp_mono (hlive.wp_occupyParser native hdocSlot hparsers parsed.docPtr w) ?_
        fun _ _ => id
      intro _ s' hoccupied
      rw [hoccupied.2]
      exact hQ
    · rw [discardParsed, wp_bind, wp_callNative]
      rw [wp_bind] at hnative
      refine wp_mono hnative (fun _ w hrc => ?_) fun _ _ => id
      rw [wp_bind]
      exact hlive.wp_restore [] hidle ownedInput hrc
  · rw [wp_bind]
    exact hlive.wp_restore [] hidle ownedInput hrc

end

end PureSimdjson
