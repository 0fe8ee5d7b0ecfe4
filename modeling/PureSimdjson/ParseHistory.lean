import PureSimdjson.DiagnosticHistory
import PureSimdjson.ParsePlacement

/-!
# Parses and what came before

If the native parse is a function of its buffer, of the length and of the limits, then so is
the whole call: two parsers with the same limits, whatever either has parsed before, answer
the same input alike (`parse_history_independent`).
-/
namespace PureSimdjson

open Effect SlotTable Runs

/-- **The native parse is a function** of the buffer, the length and the limits, with what is
read of the new document.  Buffers lie in the address space, and not at zero. -/
structure Upstream.Functional {W V : Type} (up : Upstream W V) (base : Native W) : Prop where
  answers : ∀ w w' parser parser' input inputLen limits,
    (up.parse w parser input inputLen limits).1.1 = (up.parse w' parser' input inputLen limits).1.1
  inputAddr_ne_zero : ∀ w parser input inputLen limits,
    (up.parse w parser input inputLen limits).1.2.inputAddr ≠ 0
  fits : ∀ w parser (input : Bytes) inputLen limits, input.length < 2 ^ 64 →
    (up.parse w parser input inputLen limits).1.2.inputAddr.toNat + input.length ≤ 2 ^ 64
  reads : ∀ w w' parser parser' input inputLen limits parsers parsers' asked asked',
    (bridgeParsers up base).readStatus
        ⟨(up.parse w parser input inputLen limits).2, parsers, asked⟩
        (up.parse w parser input inputLen limits).1.2.doc =
      (bridgeParsers up base).readStatus
        ⟨(up.parse w' parser' input inputLen limits).2, parsers', asked'⟩
        (up.parse w' parser' input inputLen limits).1.2.doc

section
variable {W V : Type} {up : Upstream W V} {base : Native W}

/-- The status without what a success returns. -/
def statusOf {α : Type} (result : Except ErrorCode α) : Except ErrorCode Unit :=
  result.map fun _ => ()

/-- An input that reaches the native parser fits where it lies. -/
theorem Upstream.Functional.placed (hup : up.Functional base) {maxCapacity : Nat} {input : Bytes}
    (hreached : parseRefusal up maxCapacity input = none) (w : W) (ptr : Nat)
    (limits : DiagnosticReplayLimits) :
    Placed (up.parse w ptr (paddedBuffer up input) input.length limits).1.2.inputAddr
      input.length := by
  rw [parseRefusal] at hreached
  split at hreached
  · cases hreached
  · split at hreached
    · cases hreached
    · rename_i hpadding
      split at hreached
      · rename_i hsum
        have hlength : (paddedBuffer up input).length = input.length + up.padding := by
          rw [paddedBuffer, List.length_append, List.length_replicate]
        have hfits := hup.fits w ptr (paddedBuffer up input) input.length limits
          (by rw [hlength]; exact hsum)
        rw [hlength] at hfits
        exact ⟨hup.inputAddr_ne_zero _ _ _ _ _, by omega⟩
      · cases hreached

variable {parser parser' : NativeParser} {input : Bytes}

/-- The native part of an attempt, by what upstream code answers. -/
theorem attempt_eq (w : ParserWorld W) (ptr : Nat) (parser : NativeParser) (input : Bytes) :
    attempt up w ptr parser input = psimdjsonParserParse up.padding up.errorMessage
      (up.parse w.rest ptr (paddedBuffer up input) input.length parser.limits).1.1
      (up.parse w.rest ptr (paddedBuffer up input) input.length parser.limits).1.2
      (paddedBuffer up input) input.length ⟨clearLastError parser, []⟩ := rfl

/-- The native parts of two attempts are alike. -/
theorem attempt_alike (hup : up.Functional base) (hlimits : parser'.limits = parser.limits)
    {maxCapacity : Nat} (hreached : parseRefusal up maxCapacity input = none)
    (w w' : ParserWorld W) (ptr ptr' : Nat) :
    statusOf (attempt up w ptr parser input).1 = statusOf (attempt up w' ptr' parser' input).1 ∧
      SameShown (attempt up w ptr parser input).2 (attempt up w' ptr' parser' input).2 := by
  have hcapacity : parser'.maxCapacity = parser.maxCapacity :=
    congrArg DiagnosticReplayLimits.maxCapacity hlimits
  have hdepth : parser'.maxDepth = parser.maxDepth :=
    congrArg DiagnosticReplayLimits.maxDepth hlimits
  rw [attempt_new w, attempt_new w', hcapacity, hdepth, attempt_eq w, attempt_eq w',
    hup.answers w'.rest w.rest ptr' ptr]
  exact psimdjsonParserParse_place _ _ _ (hup.placed hreached _ _ _) (hup.placed hreached _ _ _) _ _

/-- The document an attempt makes is where upstream code puts it. -/
theorem doc_eq_of_attempt {w : ParserWorld W} {ptr doc : Nat}
    (h : (attempt up w ptr parser input).1 = .ok doc) :
    doc = (up.parse w.rest ptr (paddedBuffer up input) input.length parser.limits).1.2.doc := by
  have hended := attempt_ended up w ptr parser input
  rw [h] at hended
  cases hended
  rfl

/-- **What reaches upstream code** in an attempt: the input and its padding, first of all, unless
the input is refused or there is no memory for a document. -/
def HandsOver (up : Upstream W V) (answers : ParseAnswers V) (maxCapacity : Nat) (input : Bytes)
    (asked : List UpstreamCall) : Prop :=
  asked = [] ∧ (parseRefusal up maxCapacity input ≠ none ∨ answers.newDoc ≠ .ok ()) ∨
    ∃ more, asked =
      .parseIntoDocument (input ++ List.replicate up.padding 0) input.length :: more

theorem handsOver_of_ended {answers : ParseAnswers V} {place : Placement} {maxCapacity : Nat}
    {s s' : ParseState} {result : Except ErrorCode Nat} (hasked : s.asked = [])
    (h : ParseEnded answers place (paddedBuffer up input) input.length s s' result) :
    HandsOver up answers maxCapacity input s'.asked := by
  cases h with
  | parsed asked _ _ => exact Or.inr ⟨[], by rw [asked.asked, hasked]; rfl⟩
  | failed asked once _ _ =>
    rw [asked.asked, hasked, List.nil_append]
    obtain ⟨hnone, hnewDoc⟩ | ⟨more, hmore, -⟩ := once
    · exact Or.inl ⟨hnone, Or.inr hnewDoc⟩
    · exact Or.inr ⟨more, hmore⟩

/-- **Two attempts are alike** if their parsers have the same limits. -/
theorem Attempted.alike (hup : up.Functional base) {w w' w₁ w₁' : ParserWorld W}
    {entry entry' : ParserEntry} {result result' : Except ErrorCode Reply}
    (hcapacity : entry'.maxCapacity = entry.maxCapacity) (hlimits : parser'.limits = parser.limits)
    (h : Attempted up base w w₁ entry parser input result)
    (h' : Attempted up base w' w₁' entry' parser' input result') :
    statusOf result = statusOf result' ∧ ∃ after after' asked,
      w.Replaced w₁ entry.nativePtr after asked ∧ w'.Replaced w₁' entry'.nativePtr after' asked ∧
      after.SameDiagnostics after' ∧
      HandsOver up
        (up.parse w.rest entry.nativePtr (paddedBuffer up input) input.length parser.limits).1.1
        entry.maxCapacity input asked := by
  have hended := attempt_ended up w entry.nativePtr parser input
  have hsame (hreached : parseRefusal up entry.maxCapacity input = none) :=
    attempt_alike hup hlimits hreached w w' entry.nativePtr entry'.nativePtr
  have hafter (hreached : parseRefusal up entry.maxCapacity input = none)
      (replaced : w.Replaced w₁ entry.nativePtr
        (attempt up w entry.nativePtr parser input).2.parser
        (attempt up w entry.nativePtr parser input).2.asked)
      (replaced' : w'.Replaced w₁' entry'.nativePtr
        (attempt up w' entry'.nativePtr parser' input).2.parser
        (attempt up w' entry'.nativePtr parser' input).2.asked) :
      ∃ after after' asked, w.Replaced w₁ entry.nativePtr after asked ∧
        w'.Replaced w₁' entry'.nativePtr after' asked ∧ after.SameDiagnostics after' ∧
        HandsOver up
          (up.parse w.rest entry.nativePtr (paddedBuffer up input) input.length parser.limits).1.1
          entry.maxCapacity input asked := by
    obtain ⟨-, hshown, hasked⟩ := hsame hreached
    rw [hasked] at replaced'
    refine ⟨_, _, _, replaced, replaced', ?_, handsOver_of_ended rfl hended⟩
    rw [hshown]
    exact ⟨rfl, rfl, rfl⟩
  cases h with
  | refused refusal replaced =>
    cases h' with
    | refused refusal' replaced' =>
      rw [hcapacity, refusal] at refusal'
      cases refusal'
      refine ⟨rfl, _, _, _, replaced, replaced', ⟨rfl, rfl, rfl⟩, Or.inl ⟨rfl, Or.inl ?_⟩⟩
      rw [refusal]
      exact Option.some_ne_none _
    | failed reached' _ _ =>
      rw [hcapacity, refusal] at reached'
      cases reached'
    | parsed reached' _ _ _ =>
      rw [hcapacity, refusal] at reached'
      cases reached'
  | failed reached attempted replaced =>
    have hstatus := (hsame reached).1
    rw [attempted] at hstatus
    cases h' with
    | refused refusal' _ =>
      rw [hcapacity, reached] at refusal'
      cases refusal'
    | failed _ attempted' replaced' =>
      rw [attempted'] at hstatus
      cases hstatus
      exact ⟨rfl, hafter reached replaced replaced'⟩
    | parsed _ attempted' _ _ =>
      rw [attempted'] at hstatus
      cases hstatus
  | parsed reached attempted status replaced =>
    have hstatus := (hsame reached).1
    rw [attempted] at hstatus
    cases h' with
    | refused refusal' _ =>
      rw [hcapacity, reached] at refusal'
      cases refusal'
    | failed _ attempted' _ =>
      rw [attempted'] at hstatus
      cases hstatus
    | parsed _ attempted' status' replaced' =>
      -- both documents are read alike
      have hread := hup.reads w.rest w'.rest entry.nativePtr entry'.nativePtr
        (paddedBuffer up input) input.length parser.limits
      refine ⟨?_, hafter reached replaced replaced'⟩
      rw [statusOf, statusOf, status, status', doc_eq_of_attempt attempted,
        doc_eq_of_attempt attempted', attemptWorld, attemptWorld, hlimits]
      exact hread _ _ _ _

variable {handle handle' : UInt64} {slot slot' : UInt32} {entry entry' : ParserEntry}
  {s s' t t' : Runtime (ParserWorld W)} {result result' : Except ErrorCode Reply}

/-- A parse leaves a parser whose diagnostics are those of its native one. -/
theorem shows_after (hs : Reachable (bridgeParsers up base) s)
    (hlive : ParserLive s.registry handle slot entry)
    (h : Executes (bridgeParsers up base) s (.parserParse handle input, result) s')
    {after : NativeParser} {asked : List UpstreamCall}
    (hreplaced : s.native.Replaced s'.native entry.nativePtr after asked) :
    Shows (bridgeParsers up base) handle s' after := by
  have hsame : SameParsers s.registry s'.registry := by
    refine h.of_wp (P := fun _ s' => SameParsers s.registry s'.registry) _ ?_
    rw [exec, wp_map]
    exact sameParsers_parserParse hs.sized
  have hback : SameParsers s'.registry s.registry := hsame.symm
  obtain ⟨entry', hlive', hptr⟩ := hback.live hlive
  refine shows_of_lookup hlive' ?_
  rw [← hptr, hreplaced.lookup, if_pos rfl]

/-- **A parse does not depend on what came before.**  In any two reachable states, parsers that
are idle and have the same limits answer the same input with the same status and the same
diagnostics.  Upstream code gets the same bytes from both: the input and as many zeros as it
asks for.  An input over the capacity is refused with the registry as it was. -/
theorem parse_history_independent (hup : up.Functional base)
    (hs : Reachable (bridgeParsers up base) s) (ht : Reachable (bridgeParsers up base) t)
    (hlive : ParserLive s.registry handle slot entry) (hidle : entry.state = .idle)
    (hlive' : ParserLive t.registry handle' slot' entry') (hidle' : entry'.state = .idle)
    (hcapacity : entry'.maxCapacity = entry.maxCapacity) (hdepth : entry'.maxDepth = entry.maxDepth)
    (h : Executes (bridgeParsers up base) s (.parserParse handle input, result) s')
    (h' : Executes (bridgeParsers up base) t (.parserParse handle' input, result') t') :
    statusOf result = statusOf result' ∧
    (∃ parser parser', Shows (bridgeParsers up base) handle s' parser ∧
      Shows (bridgeParsers up base) handle' t' parser' ∧ parser.SameDiagnostics parser') ∧
    (∃ asked, s'.native.asked = s.native.asked ++ asked ∧
      t'.native.asked = t.native.asked ++ asked ∧
      HandsOver up (up.parse s.native.rest entry.nativePtr (paddedBuffer up input) input.length
        ⟨entry.maxCapacity, entry.maxDepth⟩).1.1 entry.maxCapacity input asked) ∧
    (entry.maxCapacity < input.length →
      result = .error .capacityLimit ∧ s'.registry = s.registry) := by
  obtain ⟨parser, hparser, hlimits⟩ := hs.provided.held _ _ hlive.entry_eq
  obtain ⟨parser', hparser', hlimits'⟩ := ht.provided.held _ _ hlive'.entry_eq
  have hsame : parser'.limits = parser.limits := by
    rw [hlimits, hlimits', hcapacity, hdepth]
  have hattempted := attempted_of_executes up hlive hidle hs.sized
    (hasDocRoom hs.sized hs.parsers_length hs.linked hlive hidle) hparser h
  have hattempted' := attempted_of_executes up hlive' hidle' ht.sized
    (hasDocRoom ht.sized ht.parsers_length ht.linked hlive' hidle') hparser' h'
  obtain ⟨hstatus, after, after', asked, hreplaced, hreplaced', hshown, hhanded⟩ :=
    hattempted.alike hup hcapacity hsame hattempted'
  rw [hlimits] at hhanded
  refine ⟨hstatus, ⟨after, after', shows_after hs hlive h hreplaced,
    shows_after ht hlive' h' hreplaced', hshown⟩,
    ⟨asked, hreplaced.asked, hreplaced'.asked, hhanded⟩, fun hlong => ?_⟩
  have hreset : ((bridgeParsers up base).parserResetDiagnostics entry.nativePtr).run s.native =
      .ok () (s.native.cleared entry.nativePtr parser) := run_resetDiagnostics hparser
  have hrun := run_parserParse_capacity hlive hidle hreset (Nat.not_le.mpr hlong)
  refine h.of_wp (P := fun result s' => result = .error .capacityLimit ∧ s'.registry = s.registry)
    _ ?_
  rw [exec, wp_map]
  exact wp_of_run_error hrun ⟨rfl, rfl⟩

end

/-! ## A sample -/

theorem sampleUpstream_functional : sampleUpstream.Functional sampleNative where
  answers w w' parser parser' input inputLen limits := by
    rw [sampleUpstream]
    dsimp only
    split <;> rfl
  inputAddr_ne_zero w parser input inputLen limits := by
    rw [sampleUpstream]
    have hne : (1 : UInt64) ≠ 0 := by decide
    dsimp only
    split <;> exact hne
  fits w parser input inputLen limits h := by
    rw [sampleUpstream]
    dsimp only
    split
    · show 1 + input.length ≤ 2 ^ 64
      omega
    · show 1 + input.length ≤ 2 ^ 64
      omega
  reads w w' parser parser' input inputLen limits parsers parsers' asked asked' := by
    rw [sampleUpstream]
    dsimp only
    split <;> rfl

/-- The parser has parsed twenty bytes, that document was freed, and two bytes failed. -/
def sampleUsed : Runtime (ParserWorld SampleWorld) :=
  let parsed :=
    (outcome sampleParsers sampleNew (.parserParse sampleParser (List.replicate 20 49))).2
  let freed := (outcome sampleParsers parsed (.docFree sampleDoc)).2
  (outcome sampleParsers freed (.parserParse sampleParser [91, 44])).2

theorem sampleNew_reachable : Reachable sampleParsers sampleNew :=
  ⟨_, _, .cons (executes_outcome _ _ _) (.nil _)⟩

theorem sampleUsed_reachable : Reachable sampleParsers sampleUsed := by
  obtain ⟨w, events, hrun⟩ := sampleNew_reachable
  exact ⟨w, _, hrun.append (.cons (executes_outcome _ _ _) (.cons (executes_outcome _ _ _)
    (.cons (executes_outcome _ _ _) (.nil _))))⟩

theorem sampleNew_live :
    ParserLive sampleNew.registry sampleParser 1 ⟨1, 1, .idle, [], 32, 1024⟩ :=
  ⟨by decide, rfl, rfl⟩

theorem sampleUsed_live : ParserLive sampleUsed.registry sampleParser 1
    ⟨1, 1, .idle, paddedInput [] [91, 44] 64, 32, 1024⟩ :=
  ⟨by decide, rfl, rfl⟩

/-- It hands over three bytes as a new parser does. -/
theorem parse_history_independent_sample :
    ∃ asked,
      (outcome sampleParsers sampleNew
        (.parserParse sampleParser [49, 50, 51])).2.native.asked = [] ++ asked ∧
      (outcome sampleParsers sampleUsed (.parserParse sampleParser [49, 50, 51])).2.native.asked =
        sampleUsed.native.asked ++ asked := by
  obtain ⟨-, -, ⟨asked, hasked, hasked', -⟩, -⟩ := parse_history_independent
    sampleUpstream_functional sampleNew_reachable sampleUsed_reachable sampleNew_live rfl
    sampleUsed_live rfl rfl rfl
    (executes_outcome sampleParsers sampleNew (.parserParse sampleParser [49, 50, 51]))
    (executes_outcome sampleParsers sampleUsed (.parserParse sampleParser [49, 50, 51]))
  exact ⟨asked, hasked, hasked'⟩

end PureSimdjson
