import PureSimdjson.ParseCalls
import PureSimdjson.ParseDiagnostics

/-!
# The native parsers

The native side with its parsers spelled out: which ones there are, by address, and what
each remembers of its last parse.  The rest of the native side stays a parameter, and so
does what upstream code answers in a parse; it may be different every time.
-/
namespace PureSimdjson

open Effect SlotTable Runs

/-- The native parsers, by address. -/
abbrev NativeParsers := AList fun _ : Nat => NativeParser

/-- The native state with the parsers in it. -/
structure ParserWorld (W : Type) where
  rest : W
  parsers : NativeParsers
  /-- What upstream code was asked in all parses so far. -/
  asked : List UpstreamCall

/-- Upstream code and the allocator, over a state `W`. -/
structure Upstream (W V : Type) where
  /-- `SIMDJSON_PADDING`. -/
  padding : Nat
  /-- `simdjson::error_message`. -/
  errorMessage : SimdjsonError → Bytes
  /-- Choosing the kernel and allocating the document parser. -/
  allocate (maxCapacity : Nat) (maxDepth : UInt32) : NativeM W Unit
  /-- The answers in a parse by the parser at this address. -/
  parse (w : W) (parser : Nat) (input : Bytes) (inputLen : Nat) (limits : DiagnosticReplayLimits) :
    (ParseAnswers V × Placement) × W
  /-- Where a new parser is put. -/
  address : W → NativeParsers → Nat
  address_fresh : ∀ w parsers, address w parsers ∉ parsers
  address_ne_zero : ∀ w parsers, address w parsers ≠ 0

section
variable {W V : Type} (up : Upstream W V)

/-- A call that has nothing to do with the parsers. -/
def onRest {α : Type} (call : NativeM W α) : NativeM (ParserWorld W) α :=
  zoom ParserWorld.rest (fun s w => { s with rest := w }) call

/-- `parser_new_configured_with_selection_lock`.  What it does to the selection is part of
`allocate` here, and is `Kernels.selectForParser` where the selection is the subject. -/
def parserNewConfiguredWithSelectionLock (maxCapacity : Nat) (maxDepth : UInt32) :
    NativeM (ParserWorld W) Nat := do
  ofExcept (checkParserLimits maxCapacity maxDepth.toNat)
  let effectiveMaxCapacity := if maxCapacity = 0 then defaultMaxCapacity else maxCapacity
  let effectiveMaxDepth := if maxDepth = 0 then defaultMaxDepth else maxDepth
  onRest (up.allocate effectiveMaxCapacity effectiveMaxDepth)
  let parser := NativeParser.new effectiveMaxCapacity effectiveMaxDepth
  modifyGet fun s =>
    (up.address s.rest s.parsers,
      { s with parsers := s.parsers.insert (up.address s.rest s.parsers) parser })

/-- The parser a pointer names.  A null pointer names none. -/
def nativeParserAt (parser : Nat) : NativeM (ParserWorld W) NativeParser := do
  match (← get).parsers.lookup parser with
  | some entry => pure entry
  | none => throw .invalidArgument

/-- `psimdjson_parser_free`. -/
def psimdjsonParserFree (parser : Nat) : NativeM (ParserWorld W) Unit := do
  let _ ← nativeParserAt parser
  modify fun s => { s with parsers := s.parsers.erase parser }

/-- `psimdjson_parser_reset_diagnostics`. -/
def psimdjsonParserResetDiagnostics (parser : Nat) : NativeM (ParserWorld W) Unit := do
  let entry ← nativeParserAt parser
  modify fun s => { s with parsers := s.parsers.insert parser (clearLastError entry) }

/-- `psimdjson_parser_parse`, on the parser a pointer names. -/
def psimdjsonParserParseAt (parser : Nat) (input : Bytes) (inputLen : Nat) :
    NativeM (ParserWorld W) Nat := do
  let entry ← nativeParserAt parser
  let s ← get
  let ((answers, place), w) := up.parse s.rest parser input inputLen entry.limits
  let (result, s') := psimdjsonParserParse up.padding up.errorMessage answers place input inputLen
    ⟨entry, []⟩
  set (⟨w, s.parsers.insert parser s'.parser, s.asked ++ s'.asked⟩ : ParserWorld W)
  ofExcept result

/-- `copy_bytes`, to a buffer that is there. -/
def copyBytes (src : Bytes) (dst dstCap outWritten : Nat) : Except ErrorCode Bytes :=
  if outWritten = 0 then .error .invalidArgument
  else if src.length > dstCap then .error .bufferTooSmall
  else if src ≠ [] ∧ dst = 0 then .error .invalidArgument
  else .ok src

/-- The native side with these parsers. -/
def bridgeParsers (base : Native W) : Native (ParserWorld W) where
  paddingBytes := up.padding
  parserNew := parserNewConfiguredWithSelectionLock up defaultMaxCapacity defaultMaxDepth
  parserNewConfigured := parserNewConfiguredWithSelectionLock up
  parserFree := psimdjsonParserFree
  parserResetDiagnostics := psimdjsonParserResetDiagnostics
  parserParse := psimdjsonParserParseAt up
  parserGetLastErrorLen parser := return (← nativeParserAt parser).lastError.length
  parserCopyLastError parser dst dstCap outWritten := do
    ofExcept (copyBytes (← nativeParserAt parser).lastError dst dstCap outWritten)
  parserGetLastErrorOffset parser := return (← nativeParserAt parser).lastErrorOffset.toNat
  parserGetLastErrorHasOffset parser := return (← nativeParserAt parser).lastErrorHasOffset
  docRoot doc := onRest (base.docRoot doc)
  docFree doc := onRest (base.docFree doc)
  elementType element := onRest (base.elementType element)
  read read doc jsonIndex := onRest (base.read read doc jsonIndex)
  memory s := base.memory s.rest
  leakBytes bytes s := ((base.leakBytes bytes s.rest).1,
    { s with rest := (base.leakBytes bytes s.rest).2 })
  leakViews views s := ((base.leakViews views s.rest).1,
    { s with rest := (base.leakViews views s.rest).2 })
  dropBytes ptr len s := { s with rest := base.dropBytes ptr len s.rest }
  dropViews ptr len s := { s with rest := base.dropViews ptr len s.rest }

/-! ## What a parse does to the native parsers -/

/-- The native parsers are the same, and upstream code was asked nothing. -/
def ParserWorld.SameParsers (w w' : ParserWorld W) : Prop :=
  w'.parsers = w.parsers ∧ w'.asked = w.asked

instance : Std.Refl (ParserWorld.SameParsers (W := W)) := ⟨fun _ => ⟨rfl, rfl⟩⟩

instance : IsTrans (ParserWorld W) ParserWorld.SameParsers :=
  ⟨fun _ _ _ h h' => ⟨h'.1.trans h.1, h'.2.trans h.2⟩⟩

theorem keeps_onRest {α : Type} (call : NativeM W α) :
    Keeps ParserWorld.SameParsers (onRest call) := by
  intro s
  rw [onRest, wp_zoom]
  exact wp_of_forall (fun _ _ => ⟨rfl, rfl⟩) fun _ _ => ⟨rfl, rfl⟩

theorem keeps_nativeParserAt (parser : Nat) :
    Keeps (ParserWorld.SameParsers (W := W)) (nativeParserAt parser) := by
  refine Keeps.get.bind fun w => ?_
  cases w.parsers.lookup parser with
  | none => exact Keeps.throw _
  | some entry => exact Keeps.pure _

/-- Only the calls on a parser touch the native parsers. -/
theorem quiet_bridgeParsers (base : Native W) :
    (bridgeParsers up base).Quiet ParserWorld.SameParsers where
  parserGetLastErrorLen _ := (keeps_nativeParserAt _).bind fun _ => Keeps.pure _
  parserCopyLastError _ _ _ _ := (keeps_nativeParserAt _).bind fun _ => Keeps.ofExcept _
  parserGetLastErrorOffset _ := (keeps_nativeParserAt _).bind fun _ => Keeps.pure _
  parserGetLastErrorHasOffset _ := (keeps_nativeParserAt _).bind fun _ => Keeps.pure _
  docRoot _ := keeps_onRest _
  docFree _ := keeps_onRest _
  elementType _ := keeps_onRest _
  read _ _ _ := keeps_onRest _
  leakBytes _ _ := ⟨rfl, rfl⟩
  leakViews _ _ := ⟨rfl, rfl⟩
  dropBytes _ _ _ := ⟨rfl, rfl⟩
  dropViews _ _ _ := ⟨rfl, rfl⟩

/-- The input as the native parser gets it. -/
def paddedBuffer (input : Bytes) : Bytes := input ++ List.replicate up.padding 0

/-- The native part of an attempt to parse the input, by a parser that was reset. -/
def attempt (w : ParserWorld W) (ptr : Nat) (parser : NativeParser) (input : Bytes) :
    Except ErrorCode Nat × ParseState :=
  let ((answers, place), _) :=
    up.parse w.rest ptr (paddedBuffer up input) input.length parser.limits
  psimdjsonParserParse up.padding up.errorMessage answers place (paddedBuffer up input)
    input.length ⟨clearLastError parser, []⟩

/-- How the native part ends. -/
theorem attempt_ended (w : ParserWorld W) (ptr : Nat) (parser : NativeParser) (input : Bytes) :
    ParseEnded (up.parse w.rest ptr (paddedBuffer up input) input.length parser.limits).1.1
      (up.parse w.rest ptr (paddedBuffer up input) input.length parser.limits).1.2
      (paddedBuffer up input) input.length ⟨clearLastError parser, []⟩
      (attempt up w ptr parser input).2 (attempt up w ptr parser input).1 :=
  psimdjsonParserParse_ended _ _ _ _ _ _ ⟨rfl, rfl⟩

/-- One native parser is another one, and upstream code was asked some more. -/
structure ParserWorld.Replaced (w w' : ParserWorld W) (ptr : Nat) (parser : NativeParser)
    (asked : List UpstreamCall) : Prop where
  lookup : ∀ ptr', w'.parsers.lookup ptr' =
    if ptr' = ptr then some parser else w.parsers.lookup ptr'
  asked : w'.asked = w.asked ++ asked

theorem wp_nativeParserAt {Q : NativeParser → ParserWorld W → Prop}
    {E : ErrorCode → ParserWorld W → Prop} {w : ParserWorld W} {ptr : Nat} {parser : NativeParser}
    (h : w.parsers.lookup ptr = some parser) (hQ : Q parser w) :
    wp (nativeParserAt ptr) Q E w := by
  rw [nativeParserAt, wp_bind, wp_get, h]
  exact hQ

/-- The native state after a parser was reset. -/
def ParserWorld.cleared (w : ParserWorld W) (ptr : Nat) (parser : NativeParser) : ParserWorld W :=
  { w with parsers := w.parsers.insert ptr (clearLastError parser) }

theorem ParserWorld.lookup_cleared (w : ParserWorld W) (ptr : Nat) (parser : NativeParser) :
    (w.cleared ptr parser).parsers.lookup ptr = some (clearLastError parser) :=
  AList.lookup_insert _

theorem ParserWorld.replaced_cleared (w : ParserWorld W) (ptr : Nat) (parser : NativeParser) :
    w.Replaced (w.cleared ptr parser) ptr (clearLastError parser) [] := by
  refine ⟨fun ptr' => ?_, (List.append_nil _).symm⟩
  by_cases heq : ptr' = ptr
  · rw [if_pos heq, heq, w.lookup_cleared]
  · rw [if_neg heq]
    exact AList.lookup_insert_ne heq

theorem run_resetDiagnostics {w : ParserWorld W} {ptr : Nat} {parser : NativeParser}
    (h : w.parsers.lookup ptr = some parser) :
    (psimdjsonParserResetDiagnostics ptr).run w = .ok () (w.cleared ptr parser) := by
  refine run_eq_ok ?_
  rw [psimdjsonParserResetDiagnostics, wp_bind]
  exact wp_nativeParserAt h ⟨rfl, rfl⟩

/-- The native state after the native part of an attempt. -/
def attemptWorld (w : ParserWorld W) (ptr : Nat) (parser : NativeParser) (input : Bytes) :
    ParserWorld W :=
  ⟨(up.parse w.rest ptr (paddedBuffer up input) input.length parser.limits).2,
    (w.cleared ptr parser).parsers.insert ptr (attempt up w ptr parser input).2.parser,
    w.asked ++ (attempt up w ptr parser input).2.asked⟩

theorem replaced_attemptWorld (w : ParserWorld W) (ptr : Nat) (parser : NativeParser)
    (input : Bytes) :
    w.Replaced (attemptWorld up w ptr parser input) ptr (attempt up w ptr parser input).2.parser
      (attempt up w ptr parser input).2.asked := by
  refine ⟨fun ptr' => ?_, rfl⟩
  show ((w.cleared ptr parser).parsers.insert ptr _).lookup ptr' = _
  by_cases heq : ptr' = ptr
  · rw [if_pos heq, heq, AList.lookup_insert]
  · rw [if_neg heq, AList.lookup_insert_ne heq]
    exact AList.lookup_insert_ne heq

/-- The native parse of a parser that was reset is the native part of the attempt. -/
theorem wp_psimdjsonParserParseAt {Q : Nat → ParserWorld W → Prop}
    {E : ErrorCode → ParserWorld W → Prop} {w : ParserWorld W} {ptr : Nat} {parser : NativeParser}
    {input : Bytes}
    (hok : ∀ doc, (attempt up w ptr parser input).1 = .ok doc →
      Q doc (attemptWorld up w ptr parser input))
    (herror : ∀ rc, (attempt up w ptr parser input).1 = .error rc →
      E rc (attemptWorld up w ptr parser input)) :
    wp (psimdjsonParserParseAt up ptr (paddedBuffer up input) input.length) Q E
      (w.cleared ptr parser) := by
  rw [psimdjsonParserParseAt, wp_bind]
  refine wp_nativeParserAt (w.lookup_cleared ptr parser) ?_
  rw [wp_bind, wp_get]
  rw [attemptWorld] at hok herror
  rw [attempt] at hok herror
  rw [show (clearLastError parser).limits = parser.limits from rfl,
    show (w.cleared ptr parser).rest = w.rest from rfl]
  generalize up.parse w.rest ptr (paddedBuffer up input) input.length parser.limits = answered at *
  obtain ⟨⟨answers, place⟩, w'⟩ := answered
  dsimp only at hok herror ⊢
  generalize psimdjsonParserParse up.padding up.errorMessage answers place (paddedBuffer up input)
    input.length ⟨clearLastError parser, []⟩ = parsed at *
  obtain ⟨result, s'⟩ := parsed
  rw [wp_bind, wp_set, wp_ofExcept]
  exact ⟨hok, herror⟩

/-- Why an input does not get as far as the native parser. -/
def parseRefusal (maxCapacity : Nat) (input : Bytes) : Option ErrorCode :=
  if maxCapacity < input.length then some .capacityLimit
  else if up.padding = 0 then some .internal
  else if input.length + up.padding < 2 ^ 64 then none
  else some .invalidArgument

/-- **How an attempt to parse ends**, for the native parsers.  Only its own one is
touched; once that has parsed the input, reading the document may still fail. -/
inductive Attempted (base : Native W) (w w' : ParserWorld W) (entry : ParserEntry)
    (parser : NativeParser) (input : Bytes) : Except ErrorCode Reply → Prop where
  | refused {rc : ErrorCode} (refusal : parseRefusal up entry.maxCapacity input = some rc)
      (replaced : w.Replaced w' entry.nativePtr (clearLastError parser) []) :
      Attempted base w w' entry parser input (.error rc)
  | failed {rc : ErrorCode} (reached : parseRefusal up entry.maxCapacity input = none)
      (attempted : (attempt up w entry.nativePtr parser input).1 = .error rc)
      (replaced : w.Replaced w' entry.nativePtr
        (attempt up w entry.nativePtr parser input).2.parser
        (attempt up w entry.nativePtr parser input).2.asked) :
      Attempted base w w' entry parser input (.error rc)
  | parsed {doc : Nat} {result : Except ErrorCode Reply}
      (reached : parseRefusal up entry.maxCapacity input = none)
      (attempted : (attempt up w entry.nativePtr parser input).1 = .ok doc)
      (status : result.map (fun _ => ()) =
        (bridgeParsers up base).readStatus (attemptWorld up w entry.nativePtr parser input) doc)
      (replaced : w.Replaced w' entry.nativePtr
        (attempt up w entry.nativePtr parser input).2.parser
        (attempt up w entry.nativePtr parser input).2.asked) :
      Attempted base w w' entry parser input result

theorem ParserWorld.Replaced.of_same {w w' w'' : ParserWorld W} {ptr : Nat} {parser : NativeParser}
    {asked : List UpstreamCall} (h : w.Replaced w' ptr parser asked)
    (hsame : w'.SameParsers w'') : w.Replaced w'' ptr parser asked :=
  ⟨fun ptr' => by rw [hsame.1, h.lookup], by rw [hsame.2, h.asked]⟩

variable {base : Native W} {handle : UInt64} {slot : UInt32} {entry : ParserEntry} {input : Bytes}
  {s s' : Runtime (ParserWorld W)}

/-- **Every attempt on a parser that is live and idle ends so.** -/
theorem attempted_of_executes {parser : NativeParser} {result : Except ErrorCode Reply}
    (hlive : ParserLive s.registry handle slot entry) (hidle : entry.state = .idle)
    (hsized : s.registry.Sized) (hroom : s.registry.HasDocRoom)
    (hparser : s.native.parsers.lookup entry.nativePtr = some parser)
    (h : Executes (bridgeParsers up base) s (.parserParse handle input, result) s') :
    Attempted up base s.native s'.native entry parser input result := by
  have hreset : ((bridgeParsers up base).parserResetDiagnostics entry.nativePtr).run s.native =
      .ok () (s.native.cleared entry.nativePtr parser) := run_resetDiagnostics hparser
  have hcleared := s.native.replaced_cleared entry.nativePtr parser
  refine h.of_wp (P := fun result s' =>
    Attempted up base s.native s'.native entry parser input result) (bridgeParsers up base) ?_
  rw [exec, wp_map]
  by_cases hfits : input.length ≤ entry.maxCapacity
  · have hcapacity : ¬ entry.maxCapacity < input.length := Nat.not_lt.mpr hfits
    have hmono : wp (parserParse (bridgeParsers up base) handle input)
        (fun _ t => ∀ handle, Attempted up base s.native t.native entry parser input
          (.ok (.handle handle)))
        (fun rc t => Attempted up base s.native t.native entry parser input (.error rc)) s := by
      refine wp_parserParse_idle (Q := fun w => ∀ handle,
          Attempted up base s.native w entry parser input (.ok (.handle handle)))
        (E := fun rc w => Attempted up base s.native w entry parser input (.error rc))
        hlive hidle hsized hroom hreset hfits ?_ ?_ ?_
      · intro hzero
        refine .refused ?_ hcleared
        rw [parseRefusal, if_neg hcapacity]
        exact if_pos hzero
      · intro hzero hlong
        refine .refused ?_ hcleared
        rw [parseRefusal, if_neg hcapacity]
        exact (if_neg hzero).trans (if_neg hlong)
      · intro hzero hsum
        have hreached : parseRefusal up entry.maxCapacity input = none := by
          rw [parseRefusal, if_neg hcapacity]
          exact (if_neg hzero).trans (if_pos hsum)
        have hreplaced := replaced_attemptWorld up s.native entry.nativePtr parser input
        rw [parseAndRead_eq, wp_bind]
        refine wp_psimdjsonParserParseAt up (fun doc hattempt => ?_) fun rc hattempt =>
          .failed hreached hattempt hreplaced
        -- what is read of the document leaves the parsers alone
        refine wp_mono (wp_and (quiet_readParsed (quiet_bridgeParsers up base) doc _)
          (wp_readParsed_status _ doc _)) ?_ ?_
        · intro _ w hw handle
          exact .parsed hreached hattempt hw.2.symm (hreplaced.of_same hw.1)
        · intro rc w hw
          exact .parsed hreached hattempt hw.2.symm (hreplaced.of_same hw.1)
    exact wp_mono hmono (fun handle t ht => ht handle) fun _ _ => id
  · have hrun := run_parserParse_capacity hlive hidle hreset hfits
    refine wp_of_run_error hrun (.refused ?_ hcleared)
    rw [parseRefusal, if_pos (Nat.lt_of_not_le hfits)]

end

end PureSimdjson
