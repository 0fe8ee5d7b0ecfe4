import PureSimdjson.ParserContracts

/-!
# Parser sessions

A caller has a Go parser and the documents it has made with it, and parses, closes documents and
closes the parser, in any order, while others make native calls of their own.  It is answered as
a small machine answers that knows only whether the parser is closed, which document it is busy
with, and what a new parser makes of an input (`parser_answers`).
-/
namespace PureSimdjson.Parsers

open Interactions Wrappers Runs

/-- What a caller does. -/
inductive Command where
  | parse (data : Bytes)
  | closeDoc (i : Nat)
  | close

/-- What it gets back.  The `none` is for a document it does not have. -/
inductive Answer where
  | parsed
  | closed
  | failed (err : Err)
  | none
  deriving DecidableEq

/-- What `Close` returned. -/
def Answer.ofClose : Option Err → Answer
  | .none => .closed
  | some err => .failed err

/-! ## The caller -/

/-- A caller with its parser, and its documents from the first one on. -/
structure Client where
  parser : Parser
  docs : List Doc

def Client.start (parser : Parser) : Client := ⟨parser, []⟩

/-- What the caller does, as a Go program. -/
def Client.perform (locals : Locals) (c : Client) : Command → GoCall (Answer × Client)
  | .parse data => do
    match ← c.parser.parse locals data with
    | (.ok doc, parser) => return (.parsed, ⟨parser, c.docs ++ [doc]⟩)
    | (.error err, parser) => return (.failed err, { c with parser })
  | .closeDoc i =>
    match c.docs[i]? with
    | .none => return (.none, c)
    | some doc => do
      let (err, doc, parser) ← doc.close c.parser
      return (.ofClose err, ⟨parser, c.docs.set i doc⟩)
  | .close => do
    let (err, parser) ← c.parser.close
    return (.ofClose err, { c with parser })

/-! ## The machine -/

/-- Whether the parser is closed, the document it is busy with, and how many there are. -/
structure Plain where
  closed : Bool
  live : Option Nat
  docs : Nat

def Plain.start : Plain := ⟨false, .none, 0⟩

/-- What the machine answers, if a new parser makes `fresh data` of the data. -/
def Plain.perform (fresh : Bytes → Except Err Unit) (t : Plain) : Command → Answer × Plain
  | .parse data =>
    if t.closed then (.failed (.sentinel .closed), t)
    else if t.live ≠ .none then (.failed (.sentinel .parserBusy), t)
    else
      match fresh data with
      | .error err => (.failed err, t)
      | .ok () => (.parsed, { t with live := some t.docs, docs := t.docs + 1 })
  | .closeDoc i =>
    if t.docs ≤ i then (.none, t)
    else (.closed, if t.live = some i then { t with live := .none } else t)
  | .close =>
    if t.closed then (.closed, t)
    else if t.live ≠ .none then (.failed (.sentinel .parserBusy), t)
    else (.closed, { t with closed := true })

/-! ## The machine's state is the caller's -/

section
variable {W V : Type} (up : Upstream W V) (base : Native W) (config : ParserConfig)

/-- A caller performs a command, or others make a call. -/
abbrev Session (locals : Locals) : Runtime (ParserWorld W) × Client →
    Option (Command × Answer) → Runtime (ParserWorld W) × Client → Prop :=
  Turns (Performs up base) (fun c => Others up base c.parser.handle) (Client.perform locals)

/-- The caller is where the machine is. -/
structure Client.Is (c : Client) (t : Plain) (s : Runtime (ParserWorld W)) : Prop where
  reachable : Reachable (bridgeParsers up base) s
  library : c.parser.library
  closed_eq : c.parser.closed = t.closed
  docs_eq : c.docs.length = t.docs
  shut : ∀ i d, c.docs[i]? = some d → t.live ≠ some i → d.closed
  free : t.live = .none → c.parser.liveDoc = 0
  idle : t.live = .none → ¬ t.closed → Idle up base config c.parser.handle s
  busy : ∀ i, t.live = some i → ¬ t.closed ∧ ∃ d, c.docs[i]? = some d ∧ ¬ d.closed ∧
    c.parser.liveDoc = d.handle ∧ Busy up base config c.parser.handle d.handle s

variable {up base config} {c : Client} {t : Plain} {s : Runtime (ParserWorld W)}

theorem stable_is : Stable (Others up base c.parser.handle) (Client.Is up base config c t) := by
  intro s s' h hothers
  refine { h with
    reachable := stable_reachable s s' h.reachable hothers
    idle := fun hlive hopen => stable_idle s s' (h.idle hlive hopen) hothers
    busy := fun i hlive => ?_ }
  obtain ⟨hopen, d, hd, hdopen, hliveDoc, hbusy⟩ := h.busy i hlive
  exact ⟨hopen, d, hd, hdopen, hliveDoc, stable_busy s s' hbusy hothers⟩

theorem Busy.doc_ne_zero {handle doc : UInt64} (h : Busy up base config handle doc s) :
    doc ≠ 0 := by
  obtain ⟨entry, docSlot, docEntry, h⟩ := h
  rw [h.doc.handle_eq]
  exact packHandle_ne_zero h.doc.slot_ne _

variable (locals : Locals) {fresh : Bytes → Except Err Unit}

/-- A command that only looks at the Go objects. -/
theorem ensures_answer {command : Command} (answer : Answer) (h : Client.Is up base config c t s)
    (hperform : c.perform locals command = .done (answer, c))
    (hplain : t.perform fresh command = (answer, t)) :
    Ensures (Performs up base) (Others up base c.parser.handle) (fun s' => s' = s)
      (c.perform locals command) fun result s =>
        result.1 = (t.perform fresh command).1 ∧
        Client.Is up base config result.2 (t.perform fresh command).2 s := by
  rw [hperform, hplain]
  refine (ensures_done stable_is fun s h => ?_).strengthen fun s' hs' => hs' ▸ h
  exact ⟨rfl, h⟩

theorem Idle.reachable {handle : UInt64} (h : Idle up base config handle s) :
    Reachable (bridgeParsers up base) s := by
  obtain ⟨entry, howned, -⟩ := h
  exact howned.reachable

theorem Busy.reachable {handle doc : UInt64} (h : Busy up base config handle doc s) :
    Reachable (bridgeParsers up base) s := by
  obtain ⟨entry, docSlot, docEntry, h⟩ := h
  exact h.reachable

/-- The parser is busy with a document now. -/
theorem Client.Is.parsed (h : Client.Is up base config c t s) (hopen : ¬ t.closed)
    (hlive : t.live = .none) {doc : UInt64} {view : ValueView} {s' : Runtime (ParserWorld W)}
    (hbusy : Busy up base config c.parser.handle doc s') :
    Client.Is up base config ⟨{ c.parser with liveDoc := doc }, c.docs ++ [⟨doc, view, false⟩]⟩
      { t with live := some t.docs, docs := t.docs + 1 } s' where
  reachable := hbusy.reachable
  library := h.library
  closed_eq := h.closed_eq
  docs_eq := by rw [List.length_append, h.docs_eq, List.length_singleton]
  shut i d hd hne := by
    rw [List.getElem?_append] at hd
    split at hd
    · exact h.shut i d hd (by rw [hlive]; exact fun heq => by cases heq)
    · rename_i hlt
      rw [List.getElem?_singleton] at hd
      split at hd
      · refine absurd (congrArg some ?_) hne
        have hlength := h.docs_eq
        omega
      · cases hd
  free hnone := by cases hnone
  idle hnone := by cases hnone
  busy i hi := by
    cases hi
    refine ⟨hopen, ⟨doc, view, false⟩, ?_, Bool.false_ne_true, rfl, hbusy⟩
    rw [← h.docs_eq, List.getElem?_append_right (Nat.le_refl _), Nat.sub_self]
    rfl

/-- The document is closed now, and the parser idle. -/
theorem Client.Is.docClosed (h : Client.Is up base config c t s) {i : Nat}
    (hlive : t.live = some i) {d : Doc} (hliveDoc : c.parser.liveDoc = d.handle)
    {s' : Runtime (ParserWorld W)} (hidle : Idle up base config c.parser.handle s') :
    Client.Is up base config
      ⟨c.parser.clearLiveDoc d.handle, c.docs.set i { d with closed := true, handle := 0 }⟩
      { t with live := .none } s' := by
  rw [Parser.clearLiveDoc, if_pos hliveDoc]
  exact
    { reachable := hidle.reachable
      library := h.library
      closed_eq := h.closed_eq
      docs_eq := by rw [List.length_set, h.docs_eq]
      shut := by
        intro j d' hd' _
        rw [List.getElem?_set] at hd'
        split at hd'
        · split at hd'
          · cases hd'
            rfl
          · cases hd'
        · rename_i hne
          refine h.shut j d' hd' ?_
          rw [hlive]
          exact fun heq => hne (Option.some.inj heq)
      free := fun _ => rfl
      idle := fun _ _ => hidle
      busy := fun _ hnone => by cases hnone }

/-- The parser is closed now. -/
theorem Client.Is.closed (h : Client.Is up base config c t s) (hlive : t.live = .none)
    {s' : Runtime (ParserWorld W)} (hs' : Reachable (bridgeParsers up base) s') :
    Client.Is up base config ⟨{ c.parser with closed := true, handle := 0, liveDoc := 0 }, c.docs⟩
      { t with closed := true } s' where
  reachable := hs'
  library := h.library
  closed_eq := rfl
  docs_eq := h.docs_eq
  shut := h.shut
  free _ := rfl
  idle _ hopen := absurd rfl hopen
  busy i hi := by
    rw [hlive] at hi
    cases hi

/-- A parser that was just made. -/
theorem isStart {p : Parser} (hp : p = ⟨true, p.handle, config, false, 0⟩)
    (hidle : Idle up base config p.handle s) :
    Client.Is up base config (Client.start p) Plain.start s where
  reachable := hidle.reachable
  library := by
    rw [hp]
    rfl
  closed_eq := by
    rw [hp]
    rfl
  docs_eq := rfl
  shut i d hd := by cases hd
  free _ := by
    rw [hp]
    rfl
  idle _ _ := hidle
  busy i hi := by cases hi

/-- What an answer of the machine says is wrong with the data is so. -/
theorem parse_truthful {w : ParserWorld W} {ptr : Nat} {data : Bytes} {error : Error}
    (h : (t.perform (freshParse up base w ptr config) (.parse data)).1 =
      .failed (.native error)) : Truthful config data error := by
  rw [Plain.perform] at h
  split at h
  · cases h
  · split at h
    · cases h
    · cases hfresh : freshParse up base w ptr config data with
      | ok _ =>
        rw [hfresh] at h
        cases h
      | error err =>
        rw [hfresh] at h
        cases h
        obtain ⟨error', heq, htruthful⟩ := freshParse_truthful hfresh
        cases heq
        exact htruthful

/-- `Parser.Close` is answered as by the machine. -/
theorem ensures_perform_close :
    Ensures (Performs up base) (Others up base c.parser.handle) (Client.Is up base config c t)
      (c.perform locals .close) fun result s =>
        result.1 = (t.perform fresh .close).1 ∧
        Client.Is up base config result.2 (t.perform fresh .close).2 s := by
  refine ensures_from fun s hs => ?_
  by_cases hclosed : t.closed
  · refine ensures_answer locals .closed hs ?_ ?_
    · rw [Client.perform, Parser.close, if_neg fun hn => hn hs.library,
        if_pos (hs.closed_eq ▸ hclosed)]
      rfl
    · rw [Plain.perform, if_pos hclosed]
  have hopen : ¬ c.parser.closed := by
    rw [hs.closed_eq]
    exact hclosed
  cases hlive : t.live with
  | some i =>
    refine ensures_answer locals (.failed (.sentinel .parserBusy)) hs ?_ ?_
    · obtain ⟨-, d, -, -, hliveDoc, hbusy⟩ := hs.busy i hlive
      have hne : c.parser.liveDoc ≠ 0 := hliveDoc ▸ hbusy.doc_ne_zero
      rw [Client.perform, Parser.close, if_neg fun hn => hn hs.library, if_neg hopen, if_pos hne]
      rfl
    · rw [Plain.perform, if_neg hclosed, if_pos (by rw [hlive]; exact Option.some_ne_none i)]
  | none =>
    rw [Plain.perform, if_neg hclosed, if_neg fun hne => hne hlive]
    have hidle := hs.idle hlive hclosed
    refine ((ensures_close hs.library hopen (hs.free hlive) rfl).bind fun closed =>
      ensures_of_and ?_).strengthen fun s' hs' => hs' ▸ hidle
    rintro rfl
    exact ensures_done stable_reachable fun s' hs' => ⟨rfl, hs.closed hlive hs'⟩

variable (hregular : Regular up base)
include hregular

/-- So is `Doc.Close`. -/
theorem ensures_perform_closeDoc (i : Nat) :
    Ensures (Performs up base) (Others up base c.parser.handle) (Client.Is up base config c t)
      (c.perform locals (.closeDoc i)) fun result s =>
        result.1 = (t.perform fresh (.closeDoc i)).1 ∧
        Client.Is up base config result.2 (t.perform fresh (.closeDoc i)).2 s := by
  refine ensures_from fun s hs => ?_
  by_cases hi : t.docs ≤ i
  · refine ensures_answer locals .none hs ?_ ?_
    · rw [Client.perform, List.getElem?_eq_none (by rw [hs.docs_eq]; exact hi)]
      rfl
    · rw [Plain.perform, if_pos hi]
  obtain ⟨d, hd⟩ : ∃ d, c.docs[i]? = some d :=
    ⟨_, List.getElem?_eq_getElem (by rw [hs.docs_eq]; exact Nat.lt_of_not_le hi)⟩
  have hset : c.docs.set i d = c.docs := by
    obtain ⟨hlt, rfl⟩ := List.getElem?_eq_some_iff.mp hd
    exact List.set_getElem_self hlt
  by_cases hlive : t.live = some i
  · obtain ⟨-, d', hd', hdopen, hliveDoc, hbusy⟩ := hs.busy i hlive
    rw [hd] at hd'
    cases hd'
    rw [Plain.perform, if_neg hi, if_pos hlive, Client.perform, hd]
    refine ((ensures_docClose hregular hdopen).bind fun closed =>
      ensures_of_and ?_).strengthen fun s' hs' => hs' ▸ hbusy
    rintro rfl
    exact ensures_done stable_idle fun s' hs' => ⟨rfl, hs.docClosed hlive hliveDoc hs'⟩
  · refine ensures_answer locals .closed hs ?_ ?_
    · rw [Client.perform, hd]
      dsimp only
      rw [Doc.close, if_pos (hs.shut i d hd hlive)]
      show Program.done (Answer.closed, Client.mk c.parser (c.docs.set i d)) = _
      rw [hset]
    · rw [Plain.perform, if_neg hi, if_neg hlive]

variable (hup : up.Functional base) (w₀ : ParserWorld W) (ptr : Nat)
include hup

/-- So is `Parser.Parse`. -/
theorem ensures_perform_parse (data : Bytes) :
    Ensures (Performs up base) (Others up base c.parser.handle) (Client.Is up base config c t)
      (c.perform locals (.parse data)) fun result s =>
        result.1 = (t.perform (freshParse up base w₀ ptr config) (.parse data)).1 ∧
        Client.Is up base config result.2
          (t.perform (freshParse up base w₀ ptr config) (.parse data)).2 s := by
  refine ensures_from fun s hs => ?_
  by_cases hclosed : t.closed
  · refine ensures_answer locals (.failed (.sentinel .closed)) hs ?_ ?_
    · rw [Client.perform, Parser.parse, if_neg fun hn => hn hs.library,
        if_pos (hs.closed_eq ▸ hclosed)]
      rfl
    · rw [Plain.perform, if_pos hclosed]
  have hopen : ¬ c.parser.closed := by
    rw [hs.closed_eq]
    exact hclosed
  cases hlive : t.live with
  | some i =>
    refine ensures_answer locals (.failed (.sentinel .parserBusy)) hs ?_ ?_
    · obtain ⟨-, d, -, -, hliveDoc, hbusy⟩ := hs.busy i hlive
      have hne : c.parser.liveDoc ≠ 0 := hliveDoc ▸ hbusy.doc_ne_zero
      rw [Client.perform, Parser.parse, if_neg fun hn => hn hs.library, if_neg hopen, if_pos hne]
      rfl
    · rw [Plain.perform, if_neg hclosed, if_pos (by rw [hlive]; exact Option.some_ne_none i)]
  | none =>
    rw [Plain.perform, if_neg hclosed, if_neg fun hne => hne hlive]
    have hidle := hs.idle hlive hclosed
    refine ((ensures_parse locals hup hregular hs.library hopen (hs.free hlive) rfl data w₀
      ptr).bind fun parsed => ensures_of_or ?_ ?_).strengthen fun s' hs' => hs' ▸ hidle
    · refine ensures_of_exists fun doc => ensures_of_exists fun view => ensures_of_and fun hfresh =>
        ensures_of_and ?_
      rintro rfl
      rw [hfresh]
      exact ensures_done stable_busy fun s' hbusy => ⟨rfl, hs.parsed hclosed hlive hbusy⟩
    · refine ensures_of_exists fun err => ensures_of_and fun hfresh => ensures_of_and ?_
      rintro rfl
      rw [hfresh]
      refine ensures_done stable_idle fun s' hidle => ⟨rfl, ?_⟩
      refine { hs with
        reachable := hidle.reachable
        idle := fun _ _ => hidle
        busy := fun i hi => ?_ }
      rw [hlive] at hi
      cases hi

variable (config c t) in
/-- **Every command is answered as by the machine.** -/
theorem ensures_perform (command : Command) :
    Ensures (Performs up base) (Others up base c.parser.handle) (Client.Is up base config c t)
      (c.perform locals command) fun result s =>
        result.1 = (t.perform (freshParse up base w₀ ptr config) command).1 ∧
        Client.Is up base config result.2
          (t.perform (freshParse up base w₀ ptr config) command).2 s := by
  cases command with
  | parse data => exact ensures_perform_parse locals hregular hup w₀ ptr data
  | closeDoc i => exact ensures_perform_closeDoc locals hregular i
  | close => exact ensures_perform_close locals

/-! ## Sessions -/

/-- **A parser answers as the machine does**, whatever it was used for before and whatever others
do in the meantime, and what its errors say is so. -/
theorem parser_answers (opts : List ParserOption) (hopts : normalizeParserOptions opts = .ok config)
    {s₀ : Runtime (ParserWorld W)} (hs₀ : Reachable (bridgeParsers up base) s₀) {p : Parser}
    (hnew : Plays (Performs up base) (Others up base p.handle) (newParser opts) s₀ (.ok p) s)
    {steps : List (Option (Command × Answer))} {s' : Runtime (ParserWorld W) × Client}
    (h : Run (Session up base locals) (s, Client.start p) steps s') :
    answers id steps =
        replies (Plain.perform (freshParse up base w₀ ptr config)) Plain.start
          (questions id steps) ∧
      ∀ data error, some (.parse data, .failed (.native error)) ∈ steps →
        Truthful config data error := by
  obtain ⟨hp, hidle⟩ := ensures_newParser hregular hopts s₀ _ s hs₀ hnew p rfl rfl
  have hstart := isStart hp hidle
  have hperform (c : Client) (t : Plain) (command : Command) :=
    ensures_perform config c t locals hregular hup w₀ ptr command
  refine ⟨Turns.answers_eq (fun _ _ => stable_is) hperform h hstart, fun data error hmem => ?_⟩
  -- every answer is the machine's
  refine h.labels_until (I := fun s => ∃ t, Client.Is up base config s.2 t s.1)
    (E := fun _ => False) (P := fun l => l = some (.parse data, .failed (.native error)) →
      Truthful config data error) ?_ ⟨_, hstart⟩ (fun _ _ => id) _ hmem rfl
  rintro s l s' ⟨t, hs⟩ hstep
  cases hstep with
  | other moved => exact ⟨(fun h => by cases h), fun _ => ⟨t, stable_is _ _ hs moved⟩⟩
  | turn played =>
    obtain ⟨hanswer, hs'⟩ := hperform _ t _ _ _ _ hs played
    refine ⟨fun heq => ?_, fun _ => ⟨_, hs'⟩⟩
    cases heq
    exact parse_truthful hanswer.symm

end

/-! ## A sample -/

theorem sample_regular : Regular sampleUpstream sampleNative where
  allocate _ _ _ := trivial
  elementType _ _ _ := trivial
  docFree _ _ _ := trivial
  readStatus w doc h := by
    cases doc with
    | zero => cases h
    | succ _ => cases h

/-- A call in the sample, when nobody else makes one. -/
def sampleCall (s : Runtime (ParserWorld SampleWorld)) (call : Call) :
    Except ErrorCode Reply × Runtime (ParserWorld SampleWorld) := outcome sampleParsers s call

theorem sample_plays {α : Type} {other : Runtime (ParserWorld SampleWorld) →
      Runtime (ParserWorld SampleWorld) → Prop} (p : GoCall α)
    (s : Runtime (ParserWorld SampleWorld)) :
    Plays (Performs sampleUpstream sampleNative) other p s (p.play sampleCall s).1
      (p.play sampleCall s).2 :=
  Program.plays (fun s call => executes_outcome sampleParsers s call) p s

def sampleLocals : Locals := ⟨16, 8, by decide, by decide⟩

def sampleEmpty : Runtime (ParserWorld SampleWorld) := ⟨Registry.empty, ⟨.empty, ∅, []⟩⟩

/-- The runtime in which a parser of capacity 32 was made. -/
def sampleMade : Runtime (ParserWorld SampleWorld) :=
  ((newParser [withMaxCapacity 32]).play sampleCall sampleEmpty).2

/-- A session in the sample, when nobody else makes a call. -/
def sampleSession : Runtime (ParserWorld SampleWorld) × Client → List Command →
    List (Option (Command × Answer)) × (Runtime (ParserWorld SampleWorld) × Client)
  | s, [] => ([], s)
  | (s, c), command :: commands =>
    let ((answer, c'), s') := (c.perform sampleLocals command).play sampleCall s
    let (steps, t) := sampleSession (s', c') commands
    (some (command, answer) :: steps, t)

theorem sampleSession_run (commands : List Command)
    (s : Runtime (ParserWorld SampleWorld) × Client) :
    Run (Session sampleUpstream sampleNative sampleLocals) s (sampleSession s commands).1
      (sampleSession s commands).2 := by
  induction commands generalizing s with
  | nil => exact .nil s
  | cons command commands ih =>
    refine .cons (.turn ?_) (ih _)
    exact sample_plays _ s.1

/-- The session's commands: two bytes that are not JSON, 33 bytes, 20 bytes, and then. -/
def sampleCommands : List Command :=
  [.parse [91, 44], .parse (List.replicate 33 32), .parse (List.replicate 20 49), .parse [], .close,
    .closeDoc 0, .closeDoc 0, .closeDoc 1, .close, .close, .parse []]

def sampleStart : Runtime (ParserWorld SampleWorld) × Client :=
  (sampleMade, Client.start ⟨true, sampleParser, ⟨32, 1024⟩, false, 0⟩)

/-- The machine's answers in that session. -/
theorem parser_answers_sample :
    answers id (sampleSession sampleStart sampleCommands).1 =
      [.failed (.native ⟨.invalidJson, 1, true, [69], some .invalidJson⟩),
        .failed (.native ⟨.capacityLimit, 0, false, [], some .capacityLimitExceeded⟩), .parsed,
        .failed (.sentinel .parserBusy), .failed (.sentinel .parserBusy), .closed, .closed, .none,
        .closed, .closed, .failed (.sentinel .closed)] := by
  rw [(parser_answers sampleLocals sample_regular sampleUpstream_functional sampleEmpty.native 0
    [withMaxCapacity 32] rfl ⟨_, [], .nil _⟩ (sample_plays _ _)
    (sampleSession_run sampleCommands sampleStart)).1]
  rfl

end PureSimdjson.Parsers
