import PureSimdjson.GoParsers
import PureSimdjson.HeldParsers

/-!
# What making a parser and parsing come to

A parser that is made has the limits it was asked for.  A parse by an idle parser ends as that of
a parser would that has never parsed anything else (`freshParse`): either there is a document, or
the error is the one that parser would report, and its diagnostics are there to be read.
-/
namespace PureSimdjson

open Effect SlotTable Runs

theorem ParserLive.of_filled {registry registry' : Registry} {slot : UInt32} {entry : ParserEntry}
    (h : ParserFilled registry registry' slot entry) (hslot : slot ≠ 0) :
    ParserLive registry' (packHandle slot entry.generation) slot entry := by
  have hlive := h.live (slotIndex slot) entry.generation
  rw [if_pos rfl, if_pos rfl] at hlive
  exact ⟨hslot, rfl, (live_eq_some.mp hlive).1⟩

theorem DocLive.of_filled {registry registry' : Registry} {slot : UInt32} {doc : DocEntry}
    (h : DocFilled registry registry' slot doc) (hslot : slot ≠ 0) :
    DocLive registry' (packHandle slot doc.generation) slot doc := by
  have hlive := h.live (slotIndex slot) doc.generation
  rw [if_pos rfl, if_pos rfl] at hlive
  exact ⟨hslot, rfl, (live_eq_some.mp hlive).1⟩

/-- Nothing is returned from what ends in a throw. -/
theorem wp_bind_throw {σ ε α β : Type} {m : EStateM ε σ β} {e : ε} {Q : α → σ → Prop} {s : σ} :
    wp (m >>= fun _ => throw e) Q (fun _ _ => True) s := by
  rw [wp_bind]
  exact wp_of_forall (fun _ _ => trivial) fun _ _ => trivial

section
variable {W : Type} (native : Native W)

theorem wp_discardParsed_never {α : Type} (docPtr index : Nat) (generation : UInt32)
    (input : Bytes) (rc : ErrorCode) {Q : α → Runtime W → Prop} (s : Runtime W) :
    wp (discardParsed native docPtr index generation input rc) Q (fun _ _ => True) s := by
  rw [discardParsed, wp_bind]
  exact wp_of_forall (fun _ _ => wp_bind_throw) fun _ _ => trivial

theorem allocParser_ne_ok {registry : Registry} {nativePtr maxCapacity : Nat} {maxDepth : UInt32}
    {rc : ErrorCode} (h : registry.allocParser nativePtr maxCapacity maxDepth = .error rc) :
    rc ≠ .ok := by
  rw [Registry.allocParser] at h
  split at h
  · cases h
  · split at h
    · cases h
      decide
    · cases h

/-- A new parser has the limits it is made with. -/
theorem wp_parserNewConfigured_limits {maxCapacity : Nat} {maxDepth : UInt32} {s : Runtime W}
    (hsized : s.registry.Sized)
    (hcapacity : minMaxCapacity ≤ maxCapacity ∧ maxCapacity ≤ defaultMaxCapacity)
    (hdepth : maxDepth ≠ 0)
    (hnative : ∀ w, wp (native.parserNewConfigured maxCapacity maxDepth) (fun _ _ => True)
      (fun rc _ => rc ≠ .ok) w) :
    wp (parserNewConfigured native maxCapacity maxDepth)
      (fun handle s' => ∃ slot entry, ParserLive s'.registry handle slot entry ∧
        entry.state = .idle ∧ entry.maxCapacity = maxCapacity ∧ entry.maxDepth = maxDepth)
      (fun rc _ => rc ≠ .ok) s := by
  have heffective : effectiveMaxCapacity maxCapacity = .ok maxCapacity := by
    have hne : maxCapacity ≠ 0 := by
      rintro rfl
      exact absurd hcapacity.1 (by decide)
    rw [effectiveMaxCapacity, if_neg hne, if_neg fun h => h hcapacity]
  rw [parserNewConfigured, heffective, wp_bind, wp_ofExcept_ok]
  dsimp only
  rw [if_neg hdepth, wp_bind, wp_callNative, nativeParserNewConfigured, wp_bind]
  refine wp_mono (hnative _) (fun ptr w _ => ?_) fun _ _ => id
  rw [wp_orInternal]
  refine ⟨fun _ => ?_, fun _ => by decide⟩
  rw [registerParser, wp_bind, wp_getRegistry]
  cases h : s.registry.allocParser ptr maxCapacity maxDepth with
  | error rc =>
    dsimp only
    rw [wp_bind, wp_callNative, wp_cleanup]
    exact wp_of_forall (fun _ _ => allocParser_ne_ok h) fun _ _ => allocParser_ne_ok h
  | ok made =>
    obtain ⟨handle, registry'⟩ := made
    obtain ⟨slot, generation, hslot, hhandle, hfilled, -⟩ := Registry.allocParser_ok hsized h
    have hlive := ParserLive.of_filled hfilled hslot
    dsimp only at hlive ⊢
    rw [wp_bind, wp_modifyRegistry, wp_pure, hhandle]
    exact ⟨slot, _, hlive, rfl, rfl, rfl⟩

/-- A parsed document and its root are somewhere. -/
theorem wp_nativeParserParse_ne_zero (parser : Nat) (input : Bytes) (inputLen : Nat) (w : W) :
    wp (nativeParserParse native parser input inputLen)
      (fun parsed _ => parsed.docPtr ≠ 0 ∧ parsed.rootPtr ≠ 0) (fun _ _ => True) w := by
  rw [nativeParserParse, wp_bind]
  refine wp_of_forall (fun made w => ?_) fun _ _ => trivial
  rw [wp_bind, wp_orInternal]
  refine ⟨fun hmade => ?_, fun _ => trivial⟩
  rw [wp_bind, wp_tryCatch]
  refine wp_of_forall (fun root w => ?_) fun _ _ => ?_
  · rw [wp_ite]
    refine ⟨fun _ => ?_, fun hroot => ⟨of_decide_eq_true hmade, hroot⟩⟩
    exact wp_bind_throw
  · exact wp_bind_throw

/-- The document of a parse is live, and is somewhere. -/
theorem wp_parserParse_doc (handle : UInt64) (input : Bytes) {s : Runtime W}
    (hsized : s.registry.Sized) :
    wp (parserParse native handle input)
      (fun docHandle s' => ∃ docSlot doc, DocLive s'.registry docHandle docSlot doc ∧
        doc.nativePtr ≠ 0 ∧ doc.rootPtr ≠ 0)
      (fun _ _ => True) s := by
  rw [parserParse, wp_bind]
  refine wp_unpackHandle (fun slot generation hslot hhandle => ?_) trivial
  rw [wp_bind, wp_lookupParser]
  refine ⟨fun entry hentry => ?_, fun _ => trivial⟩
  have hlive := ParserLive.of_parserAt hslot hhandle hentry
  obtain ⟨-, rfl⟩ := Registry.parserAt_eq_some.mp hentry
  rw [wp_bind, wp_require]
  refine ⟨fun _ => ?_, fun _ => trivial⟩
  rw [wp_bind, wp_callNative]
  refine wp_of_forall (fun _ w => ?_) fun _ _ => trivial
  rw [wp_bind, wp_require]
  refine ⟨fun _ => ?_, fun _ => trivial⟩
  rw [wp_bind, wp_modifyRegistry, wp_bind, wp_ofExcept]
  refine ⟨fun padding _ => ?_, fun _ _ => trivial⟩
  rw [wp_bind, wp_require]
  refine ⟨fun _ => ?_, fun _ => trivial⟩
  dsimp only
  generalize paddedInput entry.reusableInput input padding = ownedInput
  rw [wp_bind, wp_tryCatch, wp_callNative]
  refine wp_mono (wp_nativeParserParse_ne_zero native _ _ _ _) (fun parsed w hparsed => ?_) ?_
  · rw [wp_bind, wp_tryCatch, wp_callNative]
    refine wp_of_forall (fun rootAfterIndex w => ?_) fun rc w => ?_
    · rw [wp_bind, wp_getRegistry]
      have hsized' : (refill s.registry slot entry []).Sized :=
        ⟨by simpa [refill, Registry.setParser] using hsized.parsers, hsized.docs⟩
      cases halloc : (refill s.registry slot entry []).allocDoc parsed.docPtr parsed.rootPtr
          rootAfterIndex slot entry.generation ownedInput with
      | error rc =>
        rw [refill] at halloc
        rw [halloc]
        exact wp_discardParsed_never native _ _ _ _ _ _
      | ok made =>
        obtain ⟨docHandle, registry'⟩ := made
        obtain ⟨docSlot, generation, hdocSlot, rfl, hfilled, hparsers⟩ :=
          Registry.allocDoc_ok hsized' halloc
        have hdoc := DocLive.of_filled hfilled hdocSlot
        rw [refill] at halloc
        rw [halloc]
        dsimp only at hdoc ⊢
        rw [wp_bind, wp_modifyRegistry]
        refine wp_mono (hlive.wp_occupyParser native hdocSlot hparsers parsed.docPtr w) ?_
          (fun _ _ => id)
        rintro _ s' ⟨rfl, rfl⟩
        exact ⟨docSlot, _, ⟨hdoc.slot_ne, hdoc.handle_eq, hdoc.entry_eq⟩, hparsed⟩
    · exact wp_discardParsed_never native _ _ _ _ _ _
  · exact fun _ _ _ => wp_bind_throw

end

/-! ## A parse by a parser that has not parsed before -/

theorem mapError_ne_ok (error : SimdjsonError) : mapError error ≠ .ok := by
  cases error <;> nofun

section
variable {V : Type} (padding : Nat) (errorMessage : SimdjsonError → Bytes)
  (answers : ParseAnswers V) (inputLen : Nat) {s : ParseState}

/-- A native parse that fails has a status that says so. -/
theorem psimdjsonParserParse_ne_ok (place : Placement) (input : Bytes) {rc : ErrorCode}
    (h : (psimdjsonParserParse padding errorMessage answers place input inputLen s).1 =
      .error rc) : rc ≠ .ok := by
  have hbody : wp (parseBody padding errorMessage answers place input inputLen)
      (fun result _ => ∀ rc, result = .error rc → rc ≠ .ok) (fun _ _ => True) s := by
    rw [parseBody, wp_bind, wp_observe, wp_bind]
    refine wp_of_forall (fun _ _ => ?_) fun _ _ => trivial
    rw [wp_bind, wp_ask, wp_bind, wp_ofExcept]
    refine ⟨fun parsed _ => ?_, fun _ _ => trivial⟩
    cases parsed with
    | error error =>
      dsimp only
      rw [wp_bind]
      refine wp_of_forall (fun _ _ => ?_) fun _ _ => trivial
      rw [wp_bind]
      refine wp_of_forall (fun _ _ rc hrc => ?_) fun _ _ => trivial
      cases hrc
      exact mapError_ne_ok error
    | ok _ =>
      dsimp only
      rw [wp_bind, wp_observe, wp_bind, wp_modifyParser]
      exact fun rc hrc => by cases hrc
  rw [psimdjsonParserParse] at h
  cases hrun : (parseBody padding errorMessage answers place input inputLen).run s with
  | ok result s' =>
    rw [hrun] at h
    exact wp_ok hbody hrun rc h
  | error error s' =>
    rw [hrun] at h
    dsimp only at h
    split at h <;> cases h <;> decide

end

namespace Parsers

open Wrappers

/-- The error for a status, with what the parser tells of it. -/
def parseError (rc : ErrorCode) (parser : NativeParser) : Err :=
  .native
    { code := rc
      offset := if parser.lastErrorHasOffset then parser.lastErrorOffset else 0
      hasOffset := parser.lastErrorHasOffset
      message := parser.lastError
      err := some (sentinelForStatus rc) }

theorem parseError_congr {parser parser' : NativeParser} (h : parser.SameDiagnostics parser')
    (rc : ErrorCode) : parseError rc parser = parseError rc parser' := by
  rw [parseError, h.lastError, h.lastErrorOffset, h.lastErrorHasOffset]
  rfl

section
variable {W V : Type} (up : Upstream W V) (base : Native W)

/-- **What a new parser makes of an input**: a document, or an error. -/
def freshParse (w : ParserWorld W) (ptr : Nat) (config : ParserConfig) (input : Bytes) :
    Except Err Unit :=
  let parser := NativeParser.new config.maxCapacity.toNat config.maxDepth
  match parseRefusal up config.maxCapacity.toNat input with
  | some rc => .error (parseError rc parser)
  | none =>
    let tried := attempt up w ptr parser input
    match tried.1 with
    | .error rc => .error (parseError rc tried.2.parser)
    | .ok doc =>
      match (bridgeParsers up base).readStatus (attemptWorld up w ptr parser input) doc with
      | .error rc => .error (parseError rc tried.2.parser)
      | .ok () => .ok ()

/-- **What the rest of the native side does.**  It knows the kind of an element, it frees a
document, and a call that fails does not say that it went well. -/
structure Regular : Prop where
  allocate : ∀ maxCapacity maxDepth w,
    wp (up.allocate maxCapacity maxDepth) (fun _ _ => True) (fun rc _ => rc ≠ .ok) w
  elementType : ∀ element w, element ≠ 0 →
    wp (base.elementType element) (fun _ _ => True) (fun _ _ => False) w
  docFree : ∀ doc w, doc ≠ 0 →
    wp (base.docFree doc) (fun _ _ => True) (fun _ _ => False) w
  readStatus : ∀ w doc, (bridgeParsers up base).readStatus w doc ≠ .error .ok

variable {up base} {w w' : ParserWorld W} {entry : ParserEntry} {parser : NativeParser}
  {input : Bytes} {config : ParserConfig}

theorem Regular.parserNewConfigured (h : Regular up base) (maxCapacity : Nat) (maxDepth : UInt32)
    (w : ParserWorld W) :
    wp ((bridgeParsers up base).parserNewConfigured maxCapacity maxDepth) (fun _ _ => True)
      (fun rc _ => rc ≠ .ok) w := by
  show wp (parserNewConfiguredWithSelectionLock up maxCapacity maxDepth) _ _ w
  rw [parserNewConfiguredWithSelectionLock, wp_bind, wp_ofExcept]
  refine ⟨fun _ _ => ?_, fun rc hrc => by rw [checkParserLimits_error hrc]; decide⟩
  dsimp only
  rw [wp_bind, onRest, wp_zoom]
  exact wp_mono (h.allocate _ _ _) (fun _ _ _ => trivial) fun _ _ => id

theorem parseRefusal_ne_ok {maxCapacity : Nat} : parseRefusal up maxCapacity input ≠ some .ok := by
  rw [parseRefusal]
  split
  · exact fun h => by cases h
  · split
    · exact fun h => by cases h
    · split
      · exact fun h => by cases h
      · exact fun h => by cases h

/-- **An attempt ends as that of a new parser**, and a failed one leaves the diagnostics that a
new parser has then. -/
theorem attempted_fresh (hup : up.Functional base) (hregular : Regular up base)
    {result : Except ErrorCode Reply} (hcapacity : entry.maxCapacity = config.maxCapacity.toNat)
    (hlimits : parser.limits = ⟨config.maxCapacity.toNat, config.maxDepth⟩)
    (h : Attempted up base w w' entry parser input result) (w₀ : ParserWorld W) (ptr : Nat) :
    (∀ reply, result = .ok reply → freshParse up base w₀ ptr config input = .ok ()) ∧
    ∀ rc, result = .error rc → rc ≠ .ok ∧ ∃ after asked,
      w.Replaced w' entry.nativePtr after asked ∧
      freshParse up base w₀ ptr config input = .error (parseError rc after) := by
  have hnew : (NativeParser.new config.maxCapacity.toNat config.maxDepth).limits =
      parser.limits := hlimits.symm
  have hsame (hreached : parseRefusal up config.maxCapacity.toNat input = none) :=
    attempt_alike hup hnew hreached w w₀ entry.nativePtr ptr
  have hshown (hreached : parseRefusal up config.maxCapacity.toNat input = none) :
      (attempt up w entry.nativePtr parser input).2.parser.SameDiagnostics
        (attempt up w₀ ptr (.new config.maxCapacity.toNat config.maxDepth) input).2.parser := by
    have hparser := (hsame hreached).2.parser
    rw [NativeParser.Shown] at hparser
    rw [hparser]
    exact ⟨rfl, rfl, rfl⟩
  cases h with
  | refused refusal replaced =>
    rename_i rc
    rw [hcapacity] at refusal
    refine ⟨(fun _ hreply => by cases hreply), fun rc' hrc => ?_⟩
    cases hrc
    refine ⟨?_, _, _, replaced, ?_⟩
    · rintro rfl
      exact parseRefusal_ne_ok refusal
    · rw [freshParse, refusal]
      exact congrArg Except.error (parseError_congr ⟨rfl, rfl, rfl⟩ rc)
  | failed reached attempted replaced =>
    rename_i rc
    rw [hcapacity] at reached
    refine ⟨(fun _ hreply => by cases hreply), fun rc' hrc => ?_⟩
    cases hrc
    have hstatus := (hsame reached).1
    rw [attempted] at hstatus
    refine ⟨psimdjsonParserParse_ne_ok _ _ _ _ _ _ attempted, _, _, replaced, ?_⟩
    rw [freshParse, reached]
    dsimp only
    cases hfresh : (attempt up w₀ ptr (.new config.maxCapacity.toNat config.maxDepth) input).1 with
    | ok doc =>
      rw [hfresh] at hstatus
      cases hstatus
    | error rc' =>
      rw [hfresh] at hstatus
      cases hstatus
      exact congrArg Except.error (parseError_congr (hshown reached) rc).symm
  | @parsed doc _ reached attempted status replaced =>
    rw [hcapacity] at reached
    have hstatus := (hsame reached).1
    rw [attempted] at hstatus
    cases hfresh : (attempt up w₀ ptr (.new config.maxCapacity.toNat config.maxDepth) input).1 with
    | error rc' =>
      rw [hfresh] at hstatus
      cases hstatus
    | ok doc' =>
      -- both documents are read alike
      have hread := hup.reads w.rest w₀.rest entry.nativePtr ptr (paddedBuffer up input)
        input.length parser.limits
      have hboth : (bridgeParsers up base).readStatus
          (attemptWorld up w entry.nativePtr parser input) doc =
          (bridgeParsers up base).readStatus (attemptWorld up w₀ ptr
            (.new config.maxCapacity.toNat config.maxDepth) input) doc' := by
        rw [doc_eq_of_attempt attempted, doc_eq_of_attempt hfresh, attemptWorld, attemptWorld, hnew]
        exact hread _ _ _ _
      rw [hboth] at status
      refine ⟨fun reply hreply => ?_, fun rc hrc => ?_⟩
      · rw [freshParse, reached]
        dsimp only
        rw [hfresh]
        dsimp only
        rw [← status, hreply]
        rfl
      · rw [hrc] at status
        have hne : rc ≠ .ok := by
          rintro rfl
          exact hregular.readStatus _ _ status.symm
        refine ⟨hne, _, _, replaced, ?_⟩
        rw [freshParse, reached]
        dsimp only
        rw [hfresh]
        dsimp only
        rw [← status]
        exact congrArg Except.error (parseError_congr (hshown reached) rc).symm

/-- **What the error of a parse says is so.**  An offset lies in the data, and an input over the
capacity is what is said to be wrong with it. -/
structure Truthful (config : ParserConfig) (input : Bytes) (err : Error) : Prop where
  located : err.hasOffset → err.err = some .invalidJson ∧ err.offset.toNat < input.length
  tooLong : config.maxCapacity.toNat < input.length →
    err = ⟨.capacityLimit, 0, false, [], some .capacityLimitExceeded⟩

theorem truthful_parseError {rc : ErrorCode} (hlocated : parser.Unlocated ∨
      rc = .invalidJson ∧ parser.Located input.length)
    (hfits : input.length ≤ config.maxCapacity.toNat) :
    Truthful config input ⟨rc, if parser.lastErrorHasOffset then parser.lastErrorOffset else 0,
      parser.lastErrorHasOffset, parser.lastError, some (sentinelForStatus rc)⟩ where
  located hhas := by
    dsimp only at hhas ⊢
    rw [if_pos hhas]
    obtain hunlocated | ⟨rfl, hlocated⟩ := hlocated
    · rw [hunlocated.hasOffset] at hhas
      cases hhas
    · exact ⟨rfl, hlocated.offset⟩
  tooLong hlong := absurd hlong (Nat.not_lt.mpr hfits)

theorem freshParse_truthful {w : ParserWorld W} {ptr : Nat} {err : Err}
    (h : freshParse up base w ptr config input = .error err) :
    ∃ error, err = .native error ∧ Truthful config input error := by
  have hended := attempt_ended up w ptr (.new config.maxCapacity.toNat config.maxDepth) input
  rw [freshParse] at h
  dsimp only at h
  by_cases hlong : config.maxCapacity.toNat < input.length
  · have hrefusal : parseRefusal up config.maxCapacity.toNat input = some .capacityLimit := by
      rw [parseRefusal, if_pos hlong]
    rw [hrefusal] at h
    cases h
    exact ⟨_, rfl, (fun hhas => by cases hhas), fun _ => rfl⟩
  have hfits := Nat.not_lt.mp hlong
  cases hrefusal : parseRefusal up config.maxCapacity.toNat input with
  | some rc =>
    rw [hrefusal] at h
    cases h
    exact ⟨_, rfl, truthful_parseError (Or.inl ⟨rfl, rfl⟩) hfits⟩
  | none =>
    rw [hrefusal] at h
    dsimp only at h
    cases hresult : (attempt up w ptr (.new config.maxCapacity.toNat config.maxDepth) input).1 with
    | error rc =>
      rw [hresult] at h hended
      cases h
      cases hended with
      | failed _ _ located _ => exact ⟨_, rfl, truthful_parseError located hfits⟩
    | ok doc =>
      rw [hresult] at h hended
      dsimp only at h
      cases hread : (bridgeParsers up base).readStatus (attemptWorld up w ptr
          (.new config.maxCapacity.toNat config.maxDepth) input) doc with
      | ok _ =>
        rw [hread] at h
        cases h
      | error rc =>
        rw [hread] at h
        cases h
        cases hended with
        | parsed _ _ unlocated => exact ⟨_, rfl, truthful_parseError (Or.inl unlocated) hfits⟩

end

end Parsers

end PureSimdjson
