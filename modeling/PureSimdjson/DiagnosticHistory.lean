import PureSimdjson.NativeParserMoves

/-!
# Diagnostics over a run

A run of calls, watched through the handle of one parser: what that parser shows is what
its last attempt left, whatever the calls before and between (`parse_diagnostics`).
-/
namespace PureSimdjson

open Effect SlotTable Runs

/-- An attempt to parse, and how it ended. -/
structure Attempt where
  input : Bytes
  result : Except ErrorCode Reply

/-- The last attempt by the parser of this handle, if it made one.  A call that is rejected as
busy, or whose handle names no parser, is not one. -/
def noteAttempt (registry : Registry) (handle : UInt64) (last : Option Attempt) :
    Event → Option Attempt
  | (.parserNew, .ok (.handle made)) => if made = handle then none else last
  | (.parserNewConfigured _ _, .ok (.handle made)) => if made = handle then none else last
  | (.parserParse parser input, result) =>
    if parser = handle ∧ registry.idleParser handle then some ⟨input, result⟩ else last
  | _ => last

section
variable {W : Type} (native : Native W) (handle : UInt64)

/-- A call, and what is the last attempt then. -/
structure Watches (s : Runtime W × Option Attempt) (event : Event)
    (s' : Runtime W × Option Attempt) : Prop where
  executes : Executes native s.1 event s'.1
  noted : s'.2 = noteAttempt s.1.registry handle s.2 event

/-- What the calls that read diagnostics show of a parser. -/
structure Shows (s : Runtime W) (parser : NativeParser) : Prop where
  messageLen : (parserLastErrorLen native handle).run s = .ok parser.lastError.length s
  message : ∀ dst dstCap outWritten, outWritten ≠ 0 → parser.lastError.length ≤ dstCap →
    (parser.lastError = [] ∨ dst ≠ 0) →
    (parserCopyLastError native handle dst dstCap outWritten).run s = .ok parser.lastError s
  offset : (parserLastErrorOffset native handle).run s = .ok parser.lastErrorOffset.toNat s
  hasOffset : (parserLastErrorHasOffset native handle).run s = .ok parser.lastErrorHasOffset s

end

section
variable {registry : Registry} {handle : UInt64} {last : Option Attempt} {event : Event}

theorem noteAttempt_of_makes (h : event.Makes handle) :
    noteAttempt registry handle last event = none := by
  obtain ⟨call, result⟩ := event
  cases call with
  | parserNew =>
    obtain rfl : result = .ok (.handle handle) := h
    exact if_pos rfl
  | parserNewConfigured _ _ =>
    obtain rfl : result = .ok (.handle handle) := h
    exact if_pos rfl
  | _ => exact h.elim

theorem noteAttempt_of_attempts {input : Bytes} (h : event.Attempts registry handle input) :
    noteAttempt registry handle last event = some ⟨input, event.2⟩ := by
  obtain ⟨call, result⟩ := event
  obtain ⟨rfl, hidle⟩ := h
  exact if_pos ⟨rfl, hidle⟩

theorem noteAttempt_of_other (hmakes : ¬ event.Makes handle)
    (hattempts : ∀ input, ¬ event.Attempts registry handle input) :
    noteAttempt registry handle last event = last := by
  obtain ⟨call, result⟩ := event
  cases call with
  | parserNew =>
    cases result with
    | error rc => rfl
    | ok reply =>
      cases reply with
      | handle made => exact if_neg fun heq => hmakes (by rw [← heq]; rfl)
      | _ => rfl
  | parserNewConfigured _ _ =>
    cases result with
    | error rc => rfl
    | ok reply =>
      cases reply with
      | handle made => exact if_neg fun heq => hmakes (by rw [← heq]; rfl)
      | _ => rfl
  | parserParse parser input =>
    exact if_neg fun h => hattempts input ⟨by rw [← h.1], h.2⟩
  | _ => rfl

end

/-! ## What an attempt leaves -/

/-- The two parsers show the same. -/
structure NativeParser.SameDiagnostics (parser parser' : NativeParser) : Prop where
  lastError : parser.lastError = parser'.lastError
  lastErrorOffset : parser.lastErrorOffset = parser'.lastErrorOffset
  lastErrorHasOffset : parser.lastErrorHasOffset = parser'.lastErrorHasOffset

section
variable {W V : Type} (up : Upstream W V) (base : Native W)

/-- It shows what a parser shows that has made no other attempt than one on this input. -/
def OwnDiagnostics (input : Bytes) (parser : NativeParser) : Prop :=
  parser.SameDiagnostics (.new parser.maxCapacity parser.maxDepth) ∨ ∃ w ptr,
    parser.SameDiagnostics
      (attempt up w ptr (.new parser.maxCapacity parser.maxDepth) input).2.parser

/-- **What a parser may show after its last attempt.** -/
structure LeftBy (attempt : Attempt) (parser : NativeParser) : Prop where
  located : parser.lastErrorHasOffset = true →
    attempt.result = .error .invalidJson ∧ parser.lastErrorOffset.toNat < attempt.input.length
  unlocated : parser.lastErrorHasOffset = false → parser.lastErrorOffset = noOffset
  silent : (∃ reply, attempt.result = .ok reply) ∨ attempt.result = .error .capacityLimit →
    parser.lastError = [] ∧ parser.lastErrorHasOffset = false
  own : OwnDiagnostics up attempt.input parser

/-- What a parser shows, given its last attempt. -/
def Remembers (last : Option Attempt) (parser : NativeParser) : Prop :=
  match last with
  | none => parser.lastError = [] ∧ parser.Unlocated
  | some attempt => LeftBy up attempt parser

/-- **What upstream code is asked during a call**: nothing, unless it is an attempt to parse.
Then it is the document parser, on the input and its padding, and after that at most two
replays, the second if the first went through; all under the limits of the parser. -/
inductive Consulted (s : Runtime (ParserWorld W)) (event : Event) (calls : List UpstreamCall) :
    Prop where
  | nothing (h : calls = [])
  | attempt {handle : UInt64} {input : Bytes} {slot : UInt32} {entry : ParserEntry}
      {limits : DiagnosticReplayLimits} (hcall : event.1 = .parserParse handle input)
      (hlive : ParserLive s.registry handle slot entry)
      (hlimits : limits = ⟨entry.maxCapacity, entry.maxDepth⟩)
      (once : AskedOnce
        (up.parse s.native.rest entry.nativePtr (paddedBuffer up input) input.length limits).1.1
        (paddedBuffer up input) input.length limits calls)
      (accepted : (∃ reply, event.2 = .ok reply) →
        calls = [.parseIntoDocument (paddedBuffer up input) input.length])

variable {up base}

/-- An attempt by a parser that was cleared is the attempt of a new one. -/
theorem attempt_new (w : ParserWorld W) (ptr : Nat) (parser : NativeParser) (input : Bytes) :
    attempt up w ptr parser input =
      attempt up w ptr (.new parser.maxCapacity parser.maxDepth) input :=
  psimdjsonParserParse_clear _ _ _ _ _ _ _

/-- **What an attempt leaves, and what it asks.** -/
theorem Attempted.leaves {w w' : ParserWorld W} {entry : ParserEntry} {parser : NativeParser}
    {input : Bytes} {result : Except ErrorCode Reply}
    (h : Attempted up base w w' entry parser input result) :
    ∃ parser' asked, w.Replaced w' entry.nativePtr parser' asked ∧
      parser'.limits = parser.limits ∧ LeftBy up ⟨input, result⟩ parser' ∧
      (asked = [] ∨ AskedOnce
        (up.parse w.rest entry.nativePtr (paddedBuffer up input) input.length parser.limits).1.1
        (paddedBuffer up input) input.length parser.limits asked ∧
        ((∃ reply, result = .ok reply) →
          asked = [.parseIntoDocument (paddedBuffer up input) input.length])) := by
  have hended := attempt_ended up w entry.nativePtr parser input
  have hlimits := hended.limits
  have hown : OwnDiagnostics up input (attempt up w entry.nativePtr parser input).2.parser := by
    have hcapacity : (attempt up w entry.nativePtr parser input).2.parser.maxCapacity =
        parser.maxCapacity := congrArg DiagnosticReplayLimits.maxCapacity hlimits
    have hdepth : (attempt up w entry.nativePtr parser input).2.parser.maxDepth =
        parser.maxDepth := congrArg DiagnosticReplayLimits.maxDepth hlimits
    refine Or.inr ⟨w, entry.nativePtr, ?_⟩
    rw [hcapacity, hdepth, ← attempt_new]
    exact ⟨rfl, rfl, rfl⟩
  cases h with
  | refused refusal replaced =>
    refine ⟨_, _, replaced, rfl, ⟨(fun h => by cases h), fun _ => rfl, fun _ => ⟨rfl, rfl⟩, ?_⟩,
      Or.inl rfl⟩
    exact Or.inl ⟨rfl, rfl, rfl⟩
  | failed reached attempted replaced =>
    rename_i rc
    rw [attempted] at hended
    obtain _ | ⟨hasked, honce, hlocated, hnative⟩ := hended
    rw [← hasked.asked.trans (List.nil_append _)] at honce
    refine ⟨_, _, replaced, hlimits, ⟨fun hhas => ?_, fun hhas => ?_, fun hsilent => ?_, hown⟩,
      Or.inr ⟨honce, fun hok => ?_⟩⟩
    · obtain hunlocated | ⟨rfl, hlocated⟩ := hlocated
      · rw [hunlocated.hasOffset] at hhas
        cases hhas
      · exact ⟨rfl, hlocated.offset⟩
    · obtain hunlocated | ⟨-, hlocated⟩ := hlocated
      · exact hunlocated.offset
      · rw [hlocated.hasOffset] at hhas
        cases hhas
    · obtain ⟨reply, hreply⟩ | hcapacity := hsilent
      · cases hreply
      · exact absurd (Except.error.inj hcapacity) hnative
    · obtain ⟨reply, hreply⟩ := hok
      cases hreply
  | parsed reached attempted status replaced =>
    -- the document parser went through, so nothing is left to show
    rw [attempted] at hended
    obtain ⟨hasked, hmessage, hunlocated⟩ | _ := hended
    have hasked := hasked.asked.trans (List.nil_append _)
    refine ⟨_, _, replaced, hlimits, ⟨fun hhas => ?_, fun _ => hunlocated.offset,
      fun _ => ⟨hmessage, hunlocated.hasOffset⟩, hown⟩, Or.inr ⟨?_, fun _ => hasked⟩⟩
    · rw [hunlocated.hasOffset] at hhas
      cases hhas
    · exact Or.inr ⟨[], hasked, Replays.none _ _⟩

/-! ## Over a run -/

/-- The parser of the handle, if it is live, shows what its last attempt left. -/
def Remembered (up : Upstream W V) (handle : UInt64)
    (s : Runtime (ParserWorld W) × Option Attempt) : Prop :=
  ∀ slot entry, ParserLive s.1.registry handle slot entry →
    ∃ parser, s.1.native.parsers.lookup entry.nativePtr = some parser ∧ Remembers up s.2 parser

variable {handle : UInt64} {s s' : Runtime (ParserWorld W)} {event : Event}

theorem SameParsers.live {registry registry' : Registry} (h : SameParsers registry registry')
    {slot : UInt32} {entry' : ParserEntry} (hlive : ParserLive registry' handle slot entry') :
    ∃ entry, ParserLive registry handle slot entry ∧ entry'.nativePtr = entry.nativePtr := by
  obtain ⟨entry, hentry, heq⟩ := h.occupied hlive.entry_eq
  refine ⟨entry, ⟨hlive.slot_ne, ?_, hentry⟩, by rw [heq]⟩
  rw [hlive.handle_eq, heq]

/-- One call keeps what the parser shows in step with its last attempt. -/
theorem Remembered.step {last : Option Attempt} (hprovided : Provided s)
    (h : Remembered up handle (s, last)) (hmoved : ParsersMoved up base s s' event) :
    Remembered up handle (s', noteAttempt s.registry handle last event) := by
  intro slot' entry' hlive'
  cases hmoved with
  | quiet hmakes hattempts parsers native =>
    rw [noteAttempt_of_other (hmakes handle) (hattempts handle)]
    obtain ⟨entry, hlive, hptr⟩ := parsers.live hlive'
    obtain ⟨parser, hparser, hremembers⟩ := h slot' entry hlive
    rw [hptr]
    exact ⟨parser, (native.lookup _).trans hparser, hremembers⟩
  | @made slot made hslot hmakes hattempts filled fresh native =>
    obtain ⟨hindex, rfl⟩ | ⟨hindex, hentry⟩ := filled.occupied hlive'.entry_eq
    · -- the new parser, which has made no attempt
      obtain rfl := (slotIndex_inj hlive'.slot_ne hslot).mp hindex
      rw [← hlive'.handle_eq] at hmakes
      rw [noteAttempt_of_makes hmakes]
      exact ⟨_, (native.lookup _).trans (if_pos rfl), rfl, rfl, rfl⟩
    · have hlive : ParserLive s.registry handle slot' entry' :=
        ⟨hlive'.slot_ne, hlive'.handle_eq, hentry⟩
      have hother : ¬ event.Makes handle := by
        intro hmakes'
        have heq := hmakes'.unique hmakes
        rw [hlive'.handle_eq, packHandle_inj] at heq
        exact hindex (congrArg slotIndex heq.1)
      rw [noteAttempt_of_other hother (hattempts handle)]
      obtain ⟨parser, hparser, hremembers⟩ := h slot' entry' hlive
      refine ⟨parser, ?_, hremembers⟩
      rw [native.lookup, if_neg]
      · exact hparser
      · intro heq
        rw [heq, lookup_none fresh] at hparser
        cases hparser
  | @freed slot freed hslot hmakes hattempts hentry parsers lookup _ =>
    rw [noteAttempt_of_other (hmakes handle) (hattempts handle)]
    have hentry' := hlive'.entry_eq
    rw [parsers, List.getElem?_set] at hentry'
    split at hentry'
    · split at hentry' <;> cases hentry'
    · rename_i hne
      have hlive : ParserLive s.registry handle slot' entry' :=
        ⟨hlive'.slot_ne, hlive'.handle_eq, hentry'⟩
      obtain ⟨parser, hparser, hremembers⟩ := h slot' entry' hlive
      refine ⟨parser, ?_, hremembers⟩
      rw [lookup, if_neg fun heq => hne (hprovided.apart _ _ _ _ hentry hentry' heq.symm)]
      exact hparser
  | @attempted parsing slot entry parser input result hevent hlive
        hidle hparser parsers attempted =>
    obtain ⟨entry₀, hlive₀, hptr⟩ := parsers.live hlive'
    obtain ⟨parser', asked, hreplaced, -, hleft, -⟩ := attempted.leaves
    have hmakes : ¬ event.Makes handle := by
      rw [hevent]
      exact id
    rw [hptr]
    by_cases heq : parsing = handle
    · -- its own attempt
      subst heq
      have hattempts : event.Attempts s.registry parsing input :=
        ⟨by rw [hevent], idleParser_eq_true.mpr ⟨slot, entry, hlive, hidle⟩⟩
      rw [noteAttempt_of_attempts hattempts, hevent]
      obtain rfl := parserEntry_unique hlive hlive₀
      exact ⟨parser', (hreplaced.lookup _).trans (if_pos rfl), hleft⟩
    · have hother (input' : Bytes) : ¬ event.Attempts s.registry handle input' := by
        intro hattempts
        have hparse := hattempts.1
        rw [hevent] at hparse
        exact heq (Call.parserParse.inj hparse).1
      rw [noteAttempt_of_other hmakes hother]
      obtain ⟨shown, hshown, hremembers⟩ := h slot' entry₀ hlive₀
      refine ⟨shown, ?_, hremembers⟩
      rw [hreplaced.lookup, if_neg]
      · exact hshown
      · intro hsame
        have hindex := hprovided.apart _ _ _ _ hlive₀.entry_eq hlive.entry_eq hsame
        obtain rfl := (slotIndex_inj hlive₀.slot_ne hlive.slot_ne).mp hindex
        have hentry := hlive₀.entry_eq
        rw [hlive.entry_eq] at hentry
        cases hentry
        exact heq (hlive.handle_eq.trans hlive₀.handle_eq.symm)

/-- In every state of a run it does. -/
theorem remembered_of_run {w : ParserWorld W} {events : List Event}
    {s : Runtime (ParserWorld W) × Option Attempt}
    (h : Run (Watches (bridgeParsers up base) handle) (⟨Registry.empty, w⟩, none) events s) :
    Reachable (bridgeParsers up base) s.1 ∧ Remembered up handle s := by
  refine h.invariant (I := fun s => Reachable (bridgeParsers up base) s.1 ∧
    Remembered up handle s) ?_ ⟨⟨w, [], .nil _⟩, fun slot entry hlive => ?_⟩
  · intro s event s' hs hstep
    obtain ⟨⟨w, events, hrun⟩, hremembered⟩ := hs
    have hreachable : Reachable (bridgeParsers up base) s.1 := ⟨w, events, hrun⟩
    refine ⟨⟨w, events ++ [event], hrun.snoc hstep.executes⟩, ?_⟩
    have hnoted : s' = (s'.1, noteAttempt s.1.registry handle s.2 event) := by
      rw [← hstep.noted]
    rw [hnoted]
    exact hremembered.step hreachable.provided
      (parsersMoved_of_executes hreachable hreachable.provided hstep.executes)
  · have hentry := hlive.entry_eq
    rw [Registry.empty, List.getElem?_nil] at hentry
    cases hentry

theorem run_withParser {α : Type} {s : Runtime W} {slot : UInt32}
    {entry : ParserEntry} {call : Nat → NativeM W α} {a : α}
    (hlive : ParserLive s.registry handle slot entry)
    (hcall : (call entry.nativePtr).run s.native = .ok a s.native) :
    (withParser handle call).run s = .ok a s := by
  refine run_eq_ok ?_
  rw [withParser, wp_bind, wp_getRegistry, wp_bind, parserEntry_eq_ok.mpr ⟨slot, hlive⟩,
    wp_ofExcept_ok, wp_callNative]
  exact wp_of_run_ok hcall ⟨rfl, rfl⟩

theorem run_readParser {α : Type} {w : ParserWorld W} {ptr : Nat} {parser : NativeParser}
    (hparser : w.parsers.lookup ptr = some parser) (read : NativeParser → Except ErrorCode α)
    {a : α} (hread : read parser = .ok a) :
    (nativeParserAt ptr >>= fun parser => ofExcept (read parser)).run w = .ok a w := by
  refine run_eq_ok ?_
  rw [wp_bind]
  refine wp_nativeParserAt hparser ?_
  rw [hread]
  exact ⟨rfl, rfl⟩

/-- The calls that read diagnostics show what the native parser remembers. -/
theorem shows_of_lookup {s : Runtime (ParserWorld W)} {slot : UInt32} {entry : ParserEntry}
    {parser : NativeParser} (hlive : ParserLive s.registry handle slot entry)
    (hparser : s.native.parsers.lookup entry.nativePtr = some parser) :
    Shows (bridgeParsers up base) handle s parser where
  messageLen := run_withParser hlive (run_readParser hparser (.ok ·.lastError.length) rfl)
  message dst dstCap outWritten hout hcap hdst := by
    have hsource : ¬ (parser.lastError ≠ [] ∧ dst = 0) :=
      fun h => hdst.elim h.1 fun hne => hne h.2
    refine run_withParser hlive (run_readParser hparser
      (fun parser => copyBytes parser.lastError dst dstCap outWritten) ?_)
    rw [copyBytes, if_neg hout, if_neg (Nat.not_lt.mpr hcap), if_neg hsource]
  offset := run_withParser hlive (run_readParser hparser (.ok ·.lastErrorOffset.toNat) rfl)
  hasOffset := run_withParser hlive (run_readParser hparser (.ok ·.lastErrorHasOffset) rfl)

theorem Consulted.of_executes {s s' : Runtime (ParserWorld W)} {event : Event}
    (hreachable : Reachable (bridgeParsers up base) s)
    (h : Executes (bridgeParsers up base) s event s') :
    ∃ calls, s'.native.asked = s.native.asked ++ calls ∧ Consulted up s event calls := by
  cases parsersMoved_of_executes hreachable hreachable.provided h with
  | quiet _ _ _ native => exact ⟨[], by rw [native.asked, List.append_nil], .nothing rfl⟩
  | made _ _ _ _ _ native => exact ⟨[], native.asked, .nothing rfl⟩
  | freed _ _ _ _ _ _ asked => exact ⟨[], by rw [asked, List.append_nil], .nothing rfl⟩
  | attempted hevent hlive _ hparser _ attempted =>
    obtain ⟨parser', asked, hreplaced, -, -, hasked⟩ := attempted.leaves
    obtain ⟨parser, hparser', hlimits⟩ := hreachable.provided.held _ _ hlive.entry_eq
    rw [hparser] at hparser'
    cases hparser'
    refine ⟨asked, hreplaced.asked, ?_⟩
    obtain hnothing | ⟨honce, haccepted⟩ := hasked
    · exact .nothing hnothing
    · exact .attempt (by rw [hevent]) hlive hlimits honce (by rw [hevent]; exact haccepted)

/-- **Parse diagnostics describe the last parse only.**  In every state of every run, what the
calls show of a parser is what its last attempt may leave, and its limits are those it was made
with.  Upstream code is asked for a parse, and for the replays of a failed one, at most once
each.  And an attempt that is rejected as busy changes nothing. -/
theorem parse_diagnostics {w : ParserWorld W} {events : List Event}
    {s : Runtime (ParserWorld W)} {last : Option Attempt}
    (h : Run (Watches (bridgeParsers up base) handle) (⟨Registry.empty, w⟩, none) events
      (s, last)) :
    (∀ slot entry, ParserLive s.registry handle slot entry →
      ∃ parser, Shows (bridgeParsers up base) handle s parser ∧
        parser.limits = ⟨entry.maxCapacity, entry.maxDepth⟩ ∧ Remembers up last parser) ∧
    (∀ event s', Executes (bridgeParsers up base) s event s' →
      ∃ calls, s'.native.asked = s.native.asked ++ calls ∧ Consulted up s event calls) ∧
    (∀ slot entry input, ParserLive s.registry handle slot entry → entry.state ≠ .idle →
      (parserParse (bridgeParsers up base) handle input).run s = .error .parserBusy s) := by
  obtain ⟨hreachable, hremembered⟩ := remembered_of_run h
  refine ⟨fun slot entry hlive => ?_, fun event s' => Consulted.of_executes hreachable,
    fun slot entry input hlive hbusy => run_parserParse_busy hlive hbusy⟩
  obtain ⟨parser, hparser, hremembers⟩ := hremembered slot entry hlive
  obtain ⟨parser', hparser', hlimits⟩ := hreachable.provided.held _ _ hlive.entry_eq
  rw [hparser] at hparser'
  cases hparser'
  exact ⟨parser, shows_of_lookup hlive hparser, hlimits, hremembers⟩

end

/-! ## A sample -/

/-- Upstream code that finds an error in the second byte of every input of two bytes. -/
def sampleReplay : ReplayAnswers Unit where
  construct := .ok ()
  allocate := .ok (.ok ())
  iterate := .ok (.ok ())
  rawJson := .ok (.error .tapeError)
  document := ()
  accessors := ⟨fun _ => .error .tapeError, fun _ => .error .tapeError, fun _ => .error .tapeError,
    fun _ => .error .tapeError, fun _ => .error .tapeError, fun _ => .error .tapeError,
    fun _ => .error .tapeError⟩
  walkThrows := none
  atEnd := .ok true
  currentLocation := .ok 1

def freshAddress (parsers : NativeParsers) : Nat := parsers.keys.sum + 1

theorem freshAddress_notMem (parsers : NativeParsers) : freshAddress parsers ∉ parsers := by
  intro h
  have hle := List.le_sum_of_mem (AList.mem_keys.mp h)
  rw [freshAddress] at hle
  omega

def sampleUpstream : Upstream SampleWorld Unit where
  padding := 64
  errorMessage _ := [69]
  allocate _ _ := pure ()
  parse w _ _ inputLen _ :=
    let doc := w.docs.sup id + 1
    if inputLen = 2 then
      ((⟨.ok (), .ok (.error .tapeError), true, true, sampleReplay, sampleReplay⟩, ⟨1, doc⟩), w)
    else ((⟨.ok (), .ok (.ok ()), true, true, sampleReplay, sampleReplay⟩, ⟨1, doc⟩),
      { w with docs := insert doc w.docs })
  address _ := freshAddress
  address_fresh _ := freshAddress_notMem
  address_ne_zero _ _ := Nat.succ_ne_zero _

/-- The native side with its parsers. -/
abbrev sampleParsers : Native (ParserWorld SampleWorld) := bridgeParsers sampleUpstream sampleNative

/-- A parser of capacity 32, new. -/
def sampleNew : Runtime (ParserWorld SampleWorld) :=
  (outcome sampleParsers ⟨Registry.empty, ⟨.empty, ∅, []⟩⟩ (.parserNewConfigured 32 0)).2

/-- Then it failed to parse two bytes. -/
def sampleFailed : Runtime (ParserWorld SampleWorld) :=
  (outcome sampleParsers sampleNew (.parserParse sampleParser [91, 44])).2

/-- Then it was given 33 bytes. -/
def sampleRejected : Runtime (ParserWorld SampleWorld) :=
  (outcome sampleParsers sampleFailed (.parserParse sampleParser (List.replicate 33 32))).2

theorem sampleRejected_run :
    Run (Watches sampleParsers sampleParser) (⟨Registry.empty, ⟨.empty, ∅, []⟩⟩, none)
      [(.parserNewConfigured 32 0, .ok (.handle sampleParser)),
        (.parserParse sampleParser [91, 44], .error .invalidJson),
        (.parserParse sampleParser (List.replicate 33 32), .error .capacityLimit)]
      (sampleRejected, some ⟨List.replicate 33 32, .error .capacityLimit⟩) := by
  have hnew : Watches sampleParsers sampleParser (⟨Registry.empty, ⟨.empty, ∅, []⟩⟩, none)
      (.parserNewConfigured 32 0, .ok (.handle sampleParser)) (sampleNew, none) :=
    ⟨executes_outcome _ _ _, rfl⟩
  have hfailed : Watches sampleParsers sampleParser (sampleNew, none)
      (.parserParse sampleParser [91, 44], .error .invalidJson)
      (sampleFailed, some ⟨[91, 44], .error .invalidJson⟩) :=
    ⟨executes_outcome _ _ _, rfl⟩
  exact .cons hnew (.cons hfailed (.cons ⟨executes_outcome _ _ _, rfl⟩ (.nil _)))

/-- The offset of the first attempt is not seen after the second. -/
theorem parse_diagnostics_sample :
    (parserLastErrorOffset sampleParsers sampleParser).run sampleFailed = .ok 1 sampleFailed ∧
      (parserLastErrorLen sampleParsers sampleParser).run sampleRejected =
        .ok 0 sampleRejected ∧
      (parserLastErrorHasOffset sampleParsers sampleParser).run sampleRejected =
        .ok false sampleRejected := by
  obtain ⟨hshown, -, -⟩ := parse_diagnostics sampleRejected_run
  obtain ⟨parser, hshows, -, hremembers⟩ := hshown 1
    ⟨1, 1, .idle, paddedInput [] [91, 44] 64, 32, 1024⟩ ⟨by decide, rfl, rfl⟩
  obtain ⟨hmessage, hhas⟩ := hremembers.silent (Or.inr rfl)
  refine ⟨rfl, ?_, ?_⟩
  · rw [hshows.messageLen, hmessage]
    rfl
  · rw [hshows.hasOffset, hhas]

end PureSimdjson
