import PureSimdjson.ParseDiagnostics

/-!
# A parse and the place of its input

Where in memory the input lies, and where the new document is put, makes no difference to what
a parse reports (`psimdjsonParserParse_place`): an upstream location only counts by how far
it is from the input, as long as the input does not run over the end of the address space.
-/
namespace PureSimdjson

open Effect

/-- An input of this length fits where it lies. -/
structure Placed (inputAddr : UInt64) (inputLen : Nat) : Prop where
  ne_zero : inputAddr ≠ 0
  fits : inputAddr.toNat + inputLen < 2 ^ 64

section
variable {inputAddr : UInt64} {inputLen : Nat}

/-- **The offset is the distance from the input**, if that is less than its length. -/
theorem Placed.checkedDiagnosticOffset (h : Placed inputAddr inputLen) (distance : UInt64) :
    if distance.toNat < inputLen then
      inputAddr + distance ≠ 0 ∧
        (PureSimdjson.checkedDiagnosticOffset inputAddr (UInt64.ofNat inputLen)
          (inputAddr + distance)).known = true ∧
        (PureSimdjson.checkedDiagnosticOffset inputAddr (UInt64.ofNat inputLen)
          (inputAddr + distance)).offset = distance
    else
      (PureSimdjson.checkedDiagnosticOffset inputAddr (UInt64.ofNat inputLen)
        (inputAddr + distance)).known = false := by
  have hmax : (UInt64.ofNat (2 ^ 64 - 1)).toNat = 2 ^ 64 - 1 := rfl
  have hnone : noOffset.toNat = 2 ^ 64 - 1 := rfl
  have hfits := h.fits
  have hlen : (UInt64.ofNat inputLen).toNat = inputLen := by
    rw [UInt64.toNat_ofNat']
    omega
  have hne : inputAddr.toNat ≠ 0 := fun heq => h.ne_zero (UInt64.toNat_inj.mp heq)
  have hin := inputAddr.toNat_lt
  have hdistance := distance.toNat_lt
  rw [PureSimdjson.checkedDiagnosticOffset]
  dsimp only
  have hoverflow : ¬ UInt64.ofNat inputLen > UInt64.ofNat (2 ^ 64 - 1) - inputAddr := by
    simp only [gt_iff_lt, UInt64.lt_iff_toNat_lt, UInt64.toNat_sub, hmax, hlen]
    omega
  rw [if_neg hoverflow]
  by_cases hlt : distance.toNat < inputLen
  · have hrange : ¬ (inputAddr + distance < inputAddr ∨
        inputAddr + distance > inputAddr + UInt64.ofNat inputLen) := by
      simp only [gt_iff_lt, UInt64.lt_iff_toNat_lt, UInt64.toNat_add, hlen]
      omega
    have hend : ¬ inputAddr + distance = inputAddr + UInt64.ofNat inputLen := by
      simp only [← UInt64.toNat_inj, UInt64.toNat_add, hlen]
      omega
    have hdelta : inputAddr + distance - inputAddr = distance := by
      simp only [← UInt64.toNat_inj, UInt64.toNat_sub, UInt64.toNat_add]
      omega
    rw [if_pos hlt, if_neg hrange, if_neg hend, hdelta, if_neg]
    · refine ⟨?_, rfl, rfl⟩
      simp only [ne_eq, ← UInt64.toNat_inj, UInt64.toNat_add]
      rw [Nat.mod_eq_of_lt (by omega)]
      show ¬ inputAddr.toNat + distance.toNat = 0
      omega
    · simp only [gt_iff_lt, UInt64.lt_iff_toNat_lt, hnone]
      omega
  · rw [if_neg hlt]
    by_cases hrange : inputAddr + distance < inputAddr ∨
        inputAddr + distance > inputAddr + UInt64.ofNat inputLen
    · rw [if_pos hrange]
    · have hend : inputAddr + distance = inputAddr + UInt64.ofNat inputLen := by
        simp only [gt_iff_lt, UInt64.lt_iff_toNat_lt, ← UInt64.toNat_inj, UInt64.toNat_add,
          hlen] at hrange ⊢
        omega
      rw [if_neg hrange, if_pos hend]

end

/-! ## Two parses side by side -/

/-- The parsers differ in the observation at most, and upstream code was asked the same. -/
structure SameShown (s s' : ParseState) : Prop where
  parser : s.parser.Shown s'.parser
  asked : s'.asked = s.asked

theorem SameShown.square {s s' t t' : ParseState} (h : SameShown s s') (ht : SameShown s t)
    (ht' : SameShown s' t') : SameShown t t' := by
  obtain ⟨hparser, hasked⟩ := h
  obtain ⟨htparser, htasked⟩ := ht
  obtain ⟨htparser', htasked'⟩ := ht'
  rw [NativeParser.Shown] at hparser htparser htparser'
  refine ⟨?_, by rw [htasked', hasked, htasked]⟩
  rw [NativeParser.Shown, htparser', htparser, hparser]

/-- Two programs that change nothing but the observation are alike. -/
theorem alike_of_shown {α : Type} {m m' : ParserM α} {a : α}
    (h : ∀ s, wp m (fun b t => b = a ∧ SameShown s t) (fun _ _ => False) s)
    (h' : ∀ s, wp m' (fun b t => b = a ∧ SameShown s t) (fun _ _ => False) s) :
    Alike SameShown Eq m m' := by
  intro s s' hs
  obtain ⟨b, t, hrun, rfl, ht⟩ := exists_run_ok (h s)
  obtain ⟨b', t', hrun', rfl, ht'⟩ := exists_run_ok (h' s')
  rw [hrun, hrun']
  exact .ok rfl (hs.square ht ht')

theorem alike_modifyParser {change change' : NativeParser → NativeParser}
    (h : ∀ parser parser' : NativeParser, parser.Shown parser' →
      (change parser).Shown (change' parser')) :
    Alike SameShown Eq (modifyParser change) (modifyParser change') :=
  Alike.change fun s s' hs => ⟨h s.parser s'.parser hs.parser, hs.asked⟩

theorem alike_observe (change change' : ReplayObservation → ReplayObservation) :
    Alike SameShown Eq (observe change) (observe change') := by
  refine alike_modifyParser fun parser parser' h => ?_
  cases parser
  cases parser'
  cases h
  rfl

theorem alike_ask (call : UpstreamCall) : Alike SameShown Eq (ask call) (ask call) :=
  Alike.change fun s s' hs => ⟨hs.parser, by rw [hs.asked]⟩

theorem alike_setLastErrorMessage (memory : Bool) (message : Bytes) :
    Alike SameShown Eq (setLastErrorMessage memory message)
      (setLastErrorMessage memory message) := by
  refine Alike.bind (Alike.ite (Alike.pure rfl) (Alike.throw _)) fun _ _ _ => ?_
  refine alike_modifyParser fun parser parser' h => ?_
  cases parser
  cases parser'
  cases h
  rfl

theorem alike_captureParserException (memory : Bool) (error : CppException) :
    Alike SameShown Eq (captureParserException memory error)
      (captureParserException memory error) :=
  Alike.tryCatch (alike_setLastErrorMessage memory _) fun _ => Alike.pure rfl

section
variable {V : Type} (padding : Nat) (answers : ReplayAnswers V) {inputAddr inputAddr' : UInt64}
  {inputLen : Nat}

theorem alike_recordReplayFailure (h : Placed inputAddr inputLen) (h' : Placed inputAddr' inputLen)
    (error : SimdjsonError) (pass : ReplayPass) :
    Alike SameShown Eq (recordReplayFailure answers inputAddr inputLen error pass)
      (recordReplayFailure answers inputAddr' inputLen error pass) := by
  rw [recordReplayFailure, recordReplayFailure]
  refine (alike_observe _ _).bind fun _ _ _ => Alike.ite (Alike.pure rfl) ?_
  refine (alike_observe _ _).bind fun _ _ _ => ?_
  cases answers.currentLocation with
  | error e => exact Alike.pure rfl
  | ok distance =>
    have hoffset := h.checkedDiagnosticOffset distance
    have hoffset' := h'.checkedDiagnosticOffset distance
    dsimp only
    by_cases hlt : distance.toNat < inputLen
    · -- both find the offset
      rw [if_pos hlt] at hoffset hoffset'
      obtain ⟨hne, hknown, heq⟩ := hoffset
      obtain ⟨hne', hknown', heq'⟩ := hoffset'
      rw [if_neg hne, if_neg hne', hknown, hknown', heq, heq']
      refine (alike_observe _ _).bind fun _ _ _ => ?_
      refine (alike_modifyParser fun parser parser' h => ?_).bind fun _ _ _ => Alike.pure rfl
      cases parser
      cases parser'
      cases h
      rfl
    · -- neither does
      rw [if_neg hlt] at hoffset hoffset'
      rw [hoffset, hoffset']
      refine alike_of_shown (a := .stopped) (fun s => ?_) fun s => ?_
      · rw [wp_ite, wp_bind, wp_observe]
        exact ⟨fun _ => ⟨rfl, rfl, rfl⟩, fun _ => ⟨rfl, rfl, rfl⟩⟩
      · rw [wp_ite, wp_bind, wp_observe]
        exact ⟨fun _ => ⟨rfl, rfl, rfl⟩, fun _ => ⟨rfl, rfl, rfl⟩⟩

theorem alike_stopReplay (error : SimdjsonError) :
    Alike SameShown Eq (stopReplay error) (stopReplay error) :=
  (alike_observe _ _).bind fun _ _ _ => Alike.pure rfl

theorem alike_replayLocation (h : Placed inputAddr inputLen) (h' : Placed inputAddr' inputLen)
    (pass : ReplayPass) {consume : ParserM (Except SimdjsonError Unit)}
    (hconsume : Alike SameShown Eq consume consume) (input : Bytes)
    (limits : DiagnosticReplayLimits) :
    Alike SameShown Eq
      (replayLocation padding pass consume answers inputAddr input inputLen limits)
      (replayLocation padding pass consume answers inputAddr' input inputLen limits) := by
  rw [replayLocation, replayLocation]
  refine Alike.ite (alike_stopReplay _) (Alike.ite (alike_stopReplay _) ?_)
  refine (alike_ask _).bind fun _ _ _ => (Alike.ofExcept _).bind fun _ _ _ => ?_
  refine (alike_observe _ _).bind fun _ _ _ => (alike_observe _ _).bind fun _ _ _ => ?_
  refine (alike_ask _).bind fun _ _ _ => (Alike.ofExcept _).bind fun allocated _ heq => ?_
  subst heq
  cases allocated with
  | error error => exact alike_stopReplay error
  | ok _ =>
    refine Alike.ite (alike_stopReplay _) ?_
    refine (alike_observe _ _).bind fun _ _ _ => (alike_ask _).bind fun _ _ _ => ?_
    refine (Alike.ofExcept _).bind fun iterated _ heq => ?_
    subst heq
    cases iterated with
    | error error => exact alike_stopReplay error
    | ok _ =>
      refine hconsume.bind fun consumed _ heq => ?_
      subst heq
      cases consumed with
      | error error => exact alike_recordReplayFailure answers h h' error pass
      | ok _ =>
        refine (Alike.ofExcept _).bind fun atEnd _ heq => ?_
        subst heq
        refine Alike.ite ?_ (alike_recordReplayFailure answers h h' _ pass)
        exact (alike_observe _ _).bind fun _ _ _ => Alike.pure rfl

end

section
variable {V : Type} (padding : Nat) (errorMessage : SimdjsonError → Bytes)
  (answers : ParseAnswers V) {inputAddr inputAddr' : UInt64} {inputLen : Nat}

theorem alike_captureDiagnosticLocation (h : Placed inputAddr inputLen)
    (h' : Placed inputAddr' inputLen) (input : Bytes) (error : SimdjsonError) :
    Alike SameShown Eq (captureDiagnosticLocation padding answers inputAddr input inputLen error)
      (captureDiagnosticLocation padding answers inputAddr' input inputLen error) := by
  rw [captureDiagnosticLocation, captureDiagnosticLocation]
  refine (alike_observe _ _).bind fun _ _ _ => Alike.ite ?_ (Alike.pure rfl)
  have hparser : Alike SameShown NativeParser.Shown (ParseState.parser <$> get)
      (ParseState.parser <$> get : ParserM NativeParser) := fun s s' hs => .ok hs.parser hs
  refine hparser.bind fun parser parser' hshown => ?_
  have hlimits : (⟨parser'.maxCapacity, parser'.maxDepth⟩ : DiagnosticReplayLimits) =
      ⟨parser.maxCapacity, parser.maxDepth⟩ := by
    rw [hshown]
  dsimp only
  rw [hlimits]
  refine (alike_replayLocation padding answers.raw h h' .rawJson ?_ input _).bind
    fun disposition _ heq => ?_
  · exact (alike_ask _).bind fun _ _ _ => Alike.ofExcept _
  · subst heq
    refine Alike.ite ?_ (Alike.pure rfl)
    refine (alike_replayLocation padding answers.recursive h h' .recursive ?_ input _).bind
      fun _ _ _ => Alike.pure rfl
    refine (alike_ask _).bind fun _ _ _ => ?_
    cases answers.recursive.walkThrows with
    | some error => exact Alike.throw error
    | none => exact Alike.pure rfl

/-- **Where the input lies makes no difference** to the status, to what the parser shows and
to what upstream code is asked. -/
theorem psimdjsonParserParse_place {place place' : Placement} (h : Placed place.inputAddr inputLen)
    (h' : Placed place'.inputAddr inputLen) (input : Bytes) (s : ParseState) :
    (psimdjsonParserParse padding errorMessage answers place input inputLen s).1.map (fun _ => ()) =
        (psimdjsonParserParse padding errorMessage answers place' input inputLen s).1.map
          (fun _ => ()) ∧
      SameShown (psimdjsonParserParse padding errorMessage answers place input inputLen s).2
        (psimdjsonParserParse padding errorMessage answers place' input inputLen s).2 := by
  have hbody : Alike SameShown (fun r r' : Except ErrorCode Nat =>
      r.map (fun _ => ()) = r'.map (fun _ => ()))
      (parseBody padding errorMessage answers place input inputLen)
      (parseBody padding errorMessage answers place' input inputLen) := by
    rw [parseBody, parseBody]
    refine (alike_observe _ _).bind fun _ _ _ => (Alike.ofExcept _).bind fun _ _ _ => ?_
    refine (alike_ask _).bind fun _ _ _ => (Alike.ofExcept _).bind fun parsed _ heq => ?_
    subst heq
    cases parsed with
    | error error =>
      refine (alike_setLastErrorMessage _ _).bind fun _ _ _ => ?_
      exact (alike_captureDiagnosticLocation padding answers h h' input error).bind
        fun _ _ _ => Alike.pure rfl
    | ok _ =>
      refine (alike_observe _ _).bind fun _ _ _ => ?_
      refine (alike_modifyParser fun parser parser' h => ?_).bind fun _ _ _ => Alike.pure rfl
      cases parser
      cases parser'
      cases h
      rfl
  have hstart : SameShown s s := ⟨rfl, rfl⟩
  have hbody := hbody s s hstart
  rw [psimdjsonParserParse, psimdjsonParserParse]
  generalize (parseBody padding errorMessage answers place input inputLen).run s = outcome at *
  generalize (parseBody padding errorMessage answers place' input inputLen).run s = outcome' at *
  cases hbody with
  | ok hresult hstates => exact ⟨hresult, hstates⟩
  | @error error t t' hstates =>
    have hcapture := alike_captureParserException answers.captureMessage error t t' hstates
    dsimp only
    generalize (captureParserException answers.captureMessage error).run t = captured at *
    generalize (captureParserException answers.captureMessage error).run t' = captured' at *
    cases hcapture with
    | ok _ hstates => exact ⟨rfl, hstates⟩
    | error hstates => exact ⟨rfl, hstates⟩

end

end PureSimdjson
