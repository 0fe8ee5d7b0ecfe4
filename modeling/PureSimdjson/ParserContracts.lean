import PureSimdjson.NativeHandles
import PureSimdjson.ParseOutcomes

/-!
# What Go parsers return

Contracts for `NewParser`, `Parser.Parse`, `Parser.Close` and `Doc.Close`, call by call.  Others
may make any native call in between that leaves the parser and its document alone, and what each
contract says of the parser is stable under that.
-/
namespace PureSimdjson

open Effect Runs

section
variable {W : Type} {native : Native W} {s s' t : Runtime W}

theorem Reachable.executes (h : Reachable native s) {event : Event}
    (hexec : Executes native s event s') : Reachable native s' := by
  obtain ⟨w, events, hrun⟩ := h
  exact ⟨w, events ++ [event], hrun.snoc hexec⟩

/-- What a call returns that can only go one way. -/
theorem Executes.of_run {α : Type} {m : RuntimeM W α} {reply : α → Reply} {call : Call} {a : α}
    {result : Except ErrorCode Reply} (h : Executes native s (call, result) t)
    (hexec : exec native call = reply <$> m) (hrun : m.run s = .ok a s') :
    result = .ok (reply a) ∧ t = s' := by
  refine h.of_wp (P := fun result t => result = .ok (reply a) ∧ t = s') _ ?_
  rw [hexec, wp_map]
  exact wp_of_run_ok hrun ⟨rfl, rfl⟩

end

namespace Parsers

open Interactions Wrappers SlotTable

section
variable {W V : Type} (up : Upstream W V) (base : Native W)

/-- A native call, and what it returns. -/
def Performs (s : Runtime (ParserWorld W)) (call : Call) (result : Except ErrorCode Reply)
    (s' : Runtime (ParserWorld W)) : Prop :=
  Executes (bridgeParsers up base) s (call, result) s'

/-- Others make a call that leaves this parser alone. -/
def Others (handle : UInt64) (s s' : Runtime (ParserWorld W)) : Prop :=
  ∃ event, Executes (bridgeParsers up base) s event s' ∧ Aside handle s.registry event

/-! ## A parser with its limits -/

/-- The parser of this handle is `entry`, and has these limits. -/
structure Owned (config : ParserConfig) (handle : UInt64) (entry : ParserEntry)
    (s : Runtime (ParserWorld W)) : Prop where
  reachable : Reachable (bridgeParsers up base) s
  live : ∃ slot, ParserLive s.registry handle slot entry
  maxCapacity : entry.maxCapacity = config.maxCapacity.toNat
  maxDepth : entry.maxDepth = config.maxDepth

/-- The parser is idle. -/
def Idle (config : ParserConfig) (handle : UInt64) (s : Runtime (ParserWorld W)) : Prop :=
  ∃ entry, Owned up base config handle entry s ∧ entry.state = .idle

/-- The parser is idle, and the native parser behind it is `parser`. -/
structure Recalls (config : ParserConfig) (handle : UInt64) (slot : UInt32) (entry : ParserEntry)
    (parser : NativeParser) (s : Runtime (ParserWorld W)) : Prop extends
    Owned up base config handle entry s where
  idle : entry.state = .idle
  held : HeldParser handle slot entry parser s

/-- The parser is busy with this document, which is somewhere. -/
structure BusyOn (config : ParserConfig) (handle doc : UInt64) (entry : ParserEntry)
    (docSlot : UInt32) (docEntry : DocEntry) (s : Runtime (ParserWorld W)) : Prop extends
    Owned up base config handle entry s where
  busy : entry.state = .busy docSlot docEntry.generation
  doc : DocLive s.registry doc docSlot docEntry
  nativePtr_ne : docEntry.nativePtr ≠ 0
  rootPtr_ne : docEntry.rootPtr ≠ 0

def Busy (config : ParserConfig) (handle doc : UInt64) (s : Runtime (ParserWorld W)) : Prop :=
  ∃ entry docSlot docEntry, BusyOn up base config handle doc entry docSlot docEntry s

variable {up base} {config : ParserConfig} {handle doc : UInt64} {slot docSlot : UInt32}
  {entry : ParserEntry} {docEntry : DocEntry} {parser : NativeParser}
  {s s' : Runtime (ParserWorld W)} {result : Except ErrorCode Reply}

theorem stable_reachable :
    Stable (Others up base handle) (Reachable (bridgeParsers up base)) := by
  rintro s s' hs ⟨event, hexec, -⟩
  exact hs.executes hexec

theorem stable_owned :
    Stable (Others up base handle) (Owned up base config handle entry) := by
  rintro s s' h ⟨event, hexec, haside⟩
  obtain ⟨slot, hlive⟩ := h.live
  exact ⟨h.reachable.executes hexec, ⟨slot, hlive.executes h.reachable.sized hexec haside⟩,
    h.maxCapacity, h.maxDepth⟩

theorem stable_idle : Stable (Others up base handle) (Idle up base config handle) := by
  rintro s s' ⟨entry, howned, hidle⟩ hothers
  exact ⟨entry, stable_owned s s' howned hothers, hidle⟩

theorem stable_recalls :
    Stable (Others up base handle) (Recalls up base config handle slot entry parser) := by
  intro s s' h hothers
  have howned := stable_owned s s' h.toOwned hothers
  obtain ⟨event, hexec, haside⟩ := hothers
  exact ⟨howned, h.idle, h.held.executes h.reachable hexec haside⟩

theorem stable_busy : Stable (Others up base handle) (Busy up base config handle doc) := by
  rintro s s' ⟨entry, docSlot, docEntry, h⟩ hothers
  have howned := stable_owned s s' h.toOwned hothers
  obtain ⟨event, hexec, haside⟩ := hothers
  obtain ⟨slot, hlive⟩ := h.live
  have hkept : event.1 ≠ .docFree doc := by
    rw [h.doc.handle_eq]
    exact haside.docKept slot entry _ _ hlive h.busy
  obtain ⟨docEntry', hdoc, hfollows⟩ := h.doc.executes h.reachable.sized hexec hkept
  have hgeneration : docEntry'.generation = docEntry.generation :=
    (packHandle_inj.mp (hdoc.handle_eq.symm.trans h.doc.handle_eq)).2
  refine ⟨entry, docSlot, docEntry', howned, ?_, hdoc, ?_, ?_⟩
  · rw [h.busy, hgeneration]
  · rw [hfollows.nativePtr_eq]
    exact h.nativePtr_ne
  · rw [hfollows.rootPtr_eq]
    exact h.rootPtr_ne

theorem Recalls.toIdle (h : Recalls up base config handle slot entry parser s) :
    Idle up base config handle s := ⟨entry, h.toOwned, h.idle⟩

/-! ## What the native calls come to -/

/-- The calls that read diagnostics change nothing. -/
theorem Recalls.reads {α : Type} {m : RuntimeM (ParserWorld W) α} {reply : α → Reply} {call : Call}
    {a : α} (h : Recalls up base config handle slot entry parser s)
    (hexec : exec (bridgeParsers up base) call = reply <$> m) (hrun : m.run s = .ok a s)
    (hcall : Performs up base s call result s') :
    result = .ok (reply a) ∧ Recalls up base config handle slot entry parser s' := by
  obtain ⟨hresult, rfl⟩ := Executes.of_run hcall hexec hrun
  exact ⟨hresult, h⟩

/-- **A parse by an idle parser.** -/
theorem Idle.parse (hup : up.Functional base) (hregular : Regular up base)
    (h : Idle up base config handle s) {data : Bytes}
    (hcall : Performs up base s (.parserParse handle data) result s') (w₀ : ParserWorld W)
    (ptr : Nat) :
    (∃ doc, result = .ok (.handle doc) ∧ freshParse up base w₀ ptr config data = .ok () ∧
      Busy up base config handle doc s') ∨
    ∃ rc slot entry after, result = .error rc ∧ rc ≠ .ok ∧
      freshParse up base w₀ ptr config data = .error (parseError rc after) ∧
      Recalls up base config handle slot entry after s' := by
  obtain ⟨entry, howned, hidle⟩ := h
  obtain ⟨slot, hlive⟩ := howned.live
  have hs := howned.reachable
  have hs' : Reachable (bridgeParsers up base) s' := hs.executes hcall
  obtain ⟨parser, hparser, hlimits⟩ := hs.provided.held _ _ hlive.entry_eq
  have hattempted := attempted_of_executes up hlive hidle hs.sized
    (hasDocRoom hs.sized hs.parsers_length hs.linked hlive hidle) hparser hcall
  rw [howned.maxCapacity, howned.maxDepth] at hlimits
  obtain ⟨hok, herror⟩ :=
    attempted_fresh hup hregular howned.maxCapacity hlimits hattempted w₀ ptr
  -- and for the registry
  have htables := Executes.spec (f := Reply.handle) rfl hcall
    (wp_and (wp_parserParse_handle (bridgeParsers up base) handle data hs.sized)
      (wp_parserParse_doc (bridgeParsers up base) handle data hs.sized))
  obtain ⟨doc, rfl, hparsed, hdoc⟩ | ⟨rc, rfl, hfailed, -⟩ := htables
  · obtain ⟨slot', entry', docSlot, made, hdocHandle, hlive', -, hdocSlot, hfilled, -, -, -,
      hparsers⟩ := hparsed
    obtain rfl := parserEntry_unique hlive hlive'
    have hslot : slot' = slot :=
      (packHandle_inj.mp (hlive'.handle_eq.symm.trans hlive.handle_eq)).1
    subst hslot
    obtain ⟨docSlot', made', hmade', hnativePtr, hrootPtr⟩ := hdoc
    have hmade := DocLive.of_filled hfilled hdocSlot
    rw [← hdocHandle] at hmade
    have hdocSlot' : docSlot' = docSlot :=
      (packHandle_inj.mp (hmade'.handle_eq.symm.trans hmade.handle_eq)).1
    subst hdocSlot'
    obtain rfl := hmade.unique hmade'
    refine Or.inl ⟨doc, rfl, hok _ rfl, { entry with
      reusableInput := [], state := .busy docSlot' made.generation }, docSlot', made, ?_⟩
    refine ⟨⟨hs', ⟨slot', hlive.slot_ne, hlive.handle_eq, ?_⟩, howned.maxCapacity,
      howned.maxDepth⟩, rfl, hmade, hnativePtr, hrootPtr⟩
    rw [hparsers]
    exact List.getElem?_set_self (Registry.lt_of_getElem? hlive.entry_eq)
  · obtain ⟨hne, after, asked, hreplaced, hfresh⟩ := herror rc rfl
    have hafter : s'.native.parsers.lookup entry.nativePtr = some after := by
      rw [hreplaced.lookup, if_pos rfl]
    obtain hregistry | ⟨slot', entry', input, hlive', -, hregistry⟩ := hfailed
    · have hlive' : ParserLive s'.registry handle slot entry := by
        rw [hregistry]
        exact hlive
      exact Or.inr ⟨rc, slot, entry, after, rfl, hne, hfresh,
        ⟨hs', ⟨slot, hlive'⟩, howned.maxCapacity, howned.maxDepth⟩, hidle, hlive', hafter⟩
    · -- only its buffer is another one
      obtain rfl := parserEntry_unique hlive hlive'
      have hslot : slot' = slot :=
        (packHandle_inj.mp (hlive'.handle_eq.symm.trans hlive.handle_eq)).1
      subst hslot
      have hlive' : ParserLive s'.registry handle slot' { entry with reusableInput := input } := by
        refine ⟨hlive.slot_ne, hlive.handle_eq, ?_⟩
        rw [hregistry]
        exact List.getElem?_set_self (Registry.lt_of_getElem? hlive.entry_eq)
      exact Or.inr ⟨rc, slot', { entry with reusableInput := input }, after, rfl, hne, hfresh,
        ⟨hs', ⟨slot', hlive'⟩, howned.maxCapacity, howned.maxDepth⟩, hidle, hlive', hafter⟩

/-- The root of the document a parser is busy with. -/
theorem Busy.root (hregular : Regular up base) (h : Busy up base config handle doc s)
    (hcall : Performs up base s (.docRoot doc) result s') :
    (∃ view, result = .ok (.view view)) ∧ Busy up base config handle doc s' := by
  obtain ⟨entry, docSlot, docEntry, h⟩ := h
  have hwp : wp (docRoot (bridgeParsers up base) doc)
      (fun _ s' => s'.registry = s.registry) (fun _ _ => False) s := by
    rw [docRoot, wp_bind, wp_getRegistry, wp_bind, docEntry_eq_ok.mpr ⟨_, h.doc⟩,
      wp_ofExcept_ok, wp_bind, wp_callNative]
    have hkind : wp ((bridgeParsers up base).elementType docEntry.rootPtr) (fun _ _ => True)
        (fun _ _ => False) s.native := by
      show wp (onRest (base.elementType docEntry.rootPtr)) _ _ _
      rw [onRest, wp_zoom]
      exact hregular.elementType _ _ h.rootPtr_ne
    exact wp_mono hkind (fun _ _ _ => rfl) fun _ _ hfalse => hfalse
  obtain ⟨view, rfl, hregistry⟩ | ⟨_, -, hfalse⟩ := Executes.spec (f := Reply.view) rfl hcall hwp
  · refine ⟨⟨view, rfl⟩, entry, docSlot, docEntry, ⟨h.reachable.executes hcall, ?_, h.maxCapacity,
      h.maxDepth⟩, h.busy, ?_, h.nativePtr_ne, h.rootPtr_ne⟩
    · rw [hregistry]
      exact h.live
    · rw [hregistry]
      exact h.doc
  · exact hfalse.elim

/-- Freeing it. -/
theorem Busy.free (hregular : Regular up base) (h : Busy up base config handle doc s)
    (hcall : Performs up base s (.docFree doc) result s') :
    result = .ok .done ∧ Idle up base config handle s' := by
  obtain ⟨entry, docSlot, docEntry, h⟩ := h
  obtain ⟨slot, hlive⟩ := h.live
  -- the parser and the document name each other
  have howner := (h.reachable.linked slot entry.generation docSlot docEntry.generation).mp
    ⟨entry, named_eq_some.mpr ⟨hlive.slot_ne, hlive.entry_eq, rfl⟩, h.busy⟩
  obtain ⟨owned, howned, hownerSlot, hownerGeneration⟩ := howner
  obtain ⟨-, hentry, -⟩ := named_eq_some.mp howned
  have hsame := hentry.symm.trans h.doc.entry_eq
  cases hsame
  have hpaired : Paired s.registry docSlot docEntry slot entry :=
    ⟨hlive.slot_ne, h.doc.slot_ne, h.doc.entry_eq, hlive.entry_eq, hownerSlot, hownerGeneration,
      h.busy⟩
  have hwp : wp (docFree (bridgeParsers up base) doc)
      (fun _ s' => s'.registry = release s.registry docSlot docEntry slot entry)
      (fun _ _ => False) s := by
    refine wp_docFree_live (bridgeParsers up base) h.doc hpaired ?_
    have hfreed : wp ((bridgeParsers up base).docFree docEntry.nativePtr) (fun _ _ => True)
        (fun _ _ => False) s.native := by
      show wp (onRest (base.docFree docEntry.nativePtr)) _ _ _
      rw [onRest, wp_zoom]
      exact hregular.docFree _ _ h.nativePtr_ne
    exact wp_mono hfreed (fun _ _ _ => rfl) fun _ _ hfalse => hfalse
  obtain ⟨_, rfl, hregistry⟩ | ⟨_, -, hfalse⟩ :=
    Executes.spec (f := fun _ => Reply.done) rfl hcall hwp
  · refine ⟨rfl, { entry with state := .idle, reusableInput := docEntry.inputStorage },
      ⟨h.reachable.executes hcall, ⟨slot, hlive.slot_ne, hlive.handle_eq, ?_⟩, h.maxCapacity,
        h.maxDepth⟩, rfl⟩
    rw [hregistry]
    exact List.getElem?_set_self (Registry.lt_of_getElem? hlive.entry_eq)
  · exact hfalse.elim

/-- Freeing an idle parser. -/
theorem Idle.free (h : Idle up base config handle s)
    (hcall : Performs up base s (.parserFree handle) result s') :
    result = .ok .done ∧ Reachable (bridgeParsers up base) s' := by
  obtain ⟨entry, howned, hidle⟩ := h
  obtain ⟨slot, hlive⟩ := howned.live
  obtain ⟨parser, hparser, -⟩ := howned.reachable.provided.held _ _ hlive.entry_eq
  have hwp : wp (parserFree (bridgeParsers up base) handle) (fun _ _ => True) (fun _ _ => False)
      s := by
    refine wp_parserFree_live (bridgeParsers up base) hlive (fun hbusy => absurd hidle hbusy)
      fun _ => ?_
    have hfree : ((bridgeParsers up base).parserFree entry.nativePtr).run s.native =
        .ok () { s.native with parsers := s.native.parsers.erase entry.nativePtr } :=
      run_psimdjsonParserFree hparser
    exact wp_of_run_ok hfree trivial
  obtain ⟨_, rfl, -⟩ | ⟨_, -, hfalse⟩ := Executes.spec (f := fun _ => Reply.done) rfl hcall hwp
  · exact ⟨rfl, howned.reachable.executes hcall⟩
  · exact hfalse.elim

/-! ## What the Go functions come to -/

variable (locals : Locals)

/-- A call that reads diagnostics, in a Go function. -/
theorem ensures_read {α γ : Type} {m : RuntimeM (ParserWorld W) α} (reply : α → Reply) {call : Call}
    {a : α} {next : Except ErrorCode Reply → GoCall γ} {Q : γ → Runtime (ParserWorld W) → Prop}
    (hexec : exec (bridgeParsers up base) call = reply <$> m)
    (hrun : ∀ s, Recalls up base config handle slot entry parser s → m.run s = .ok a s)
    (hnext : Ensures (Performs up base) (Others up base handle)
      (Recalls up base config handle slot entry parser) (next (.ok (reply a))) Q) :
    Ensures (Performs up base) (Others up base handle)
      (Recalls up base config handle slot entry parser) (.call call next) Q :=
  ensures_call_eq stable_recalls
    (fun s _ _ h hcall => Recalls.reads h hexec (hrun s h) hcall) hnext

theorem Recalls.shows (h : Recalls up base config handle slot entry parser s) :
    Shows (bridgeParsers up base) handle s parser := shows_of_lookup h.held.live h.held.parser_eq

/-- The message is the parser's. -/
theorem ensures_parserLastError :
    Ensures (Performs up base) (Others up base handle)
      (Recalls up base config handle slot entry parser) (parserLastError locals handle)
      fun result s => result = (parser.lastError, .ok) ∧
        Recalls up base config handle slot entry parser s := by
  simp only [parserLastError, Program.once_bind]
  refine ensures_read Reply.number rfl (fun s h => h.shows.messageLen) ?_
  simp only [status_ok, outNumber_ok, ne_eq, not_true_eq_false, if_false, List.length_eq_zero_iff]
  by_cases hempty : parser.lastError = []
  · rw [if_pos hempty]
    refine ensures_done stable_recalls fun s h => ⟨?_, h⟩
    rw [hempty]
  · rw [if_neg hempty]
    refine ensures_read Reply.bytes rfl (fun s h => h.shows.message _ _ _
      locals.written_ne (Nat.le_refl _) (Or.inr locals.buffer_ne)) ?_
    simp only [status_ok, outBytes_ok, not_true_eq_false, if_false, List.take_length]
    exact ensures_done stable_recalls fun s h => ⟨rfl, h⟩

/-- **The error is the one the parser tells of.** -/
theorem ensures_wrapParserStatus {rc : ErrorCode} (hrc : rc ≠ .ok) :
    Ensures (Performs up base) (Others up base handle)
      (Recalls up base config handle slot entry parser) (wrapParserStatus locals handle rc)
      fun err s => err = some (parseError rc parser) ∧
        Recalls up base config handle slot entry parser s := by
  rw [wrapParserStatus, if_neg hrc]
  refine (ensures_parserLastError locals).bind fun result => ?_
  refine ensures_of_and ?_
  rintro rfl
  simp only [Program.once_bind]
  refine ensures_read Reply.number rfl (fun s h => h.shows.offset) ?_
  refine ensures_read Reply.flag rfl (fun s h => h.shows.hasOffset) ?_
  refine ensures_done stable_recalls fun s h => ⟨?_, h⟩
  simp only [status_ok, outNumber_ok, outFlag_ok, UInt64.ofNat_toNat, true_and]
  rw [newError_of_ne_ok hrc, parseError]
  -- a message that is empty is none, and without an offset it is zero
  by_cases hempty : parser.lastError = [] <;> cases parser.lastErrorHasOffset <;>
    simp [hempty, NativeDetails.zero]

theorem wrapParserStatus_ok : wrapParserStatus locals handle .ok = .done none := rfl

variable {p : Parser} {d : Doc}

/-- **What `Parse` returns** when the parser is idle. -/
theorem ensures_parse (hup : up.Functional base) (hregular : Regular up base)
    (hlibrary : p.library) (hopen : ¬ p.closed) (hfree : p.liveDoc = 0)
    (hhandle : p.handle = handle) (data : Bytes) (w₀ : ParserWorld W) (ptr : Nat) :
    Ensures (Performs up base) (Others up base handle) (Idle up base config handle)
      (p.parse locals data) fun result s =>
        (∃ doc view, freshParse up base w₀ ptr config data = .ok () ∧
          result = (.ok ⟨doc, view, false⟩, { p with liveDoc := doc }) ∧
          Busy up base config handle doc s) ∨
        ∃ err, freshParse up base w₀ ptr config data = .error err ∧ result = (.error err, p) ∧
          Idle up base config handle s := by
  rw [Parser.parse, if_neg fun h => h hlibrary, if_neg hopen, if_neg fun h => h hfree]
  simp only [Program.once_bind]
  rw [hhandle]
  refine ensures_call stable_idle (fun s result s' h hcall =>
    Idle.parse hup hregular h hcall w₀ ptr) fun parsed => ?_
  refine ensures_of_or ?_ ?_
  · refine ensures_of_exists fun doc => ensures_of_and ?_
    rintro rfl
    refine ensures_of_and fun hfresh => ?_
    rw [status_ok, wrapParserStatus_ok]
    simp only [Program.done_bind, outHandle_ok]
    refine ensures_call stable_busy (fun s result s' h hcall => Busy.root hregular h hcall)
      fun root => ensures_of_and ?_
    rintro ⟨view, rfl⟩
    exact ensures_done stable_busy fun s h => Or.inl ⟨doc, view, hfresh, rfl, h⟩
  · refine ensures_of_exists fun rc => ensures_of_exists fun slot => ensures_of_exists fun entry =>
      ensures_of_exists fun after => ensures_of_and ?_
    rintro rfl
    refine ensures_of_and fun hrc => ensures_of_and fun hfresh => ?_
    refine (ensures_wrapParserStatus locals hrc).bind fun err => ensures_of_and ?_
    rintro rfl
    exact ensures_done stable_recalls fun s h => Or.inr ⟨_, hfresh, rfl, h.toIdle⟩

/-- What `Parser.Close` returns when the parser is idle. -/
theorem ensures_close (hlibrary : p.library) (hopen : ¬ p.closed) (hfree : p.liveDoc = 0)
    (hhandle : p.handle = handle) :
    Ensures (Performs up base) (Others up base handle) (Idle up base config handle) p.close
      fun result s => result = (none, { p with closed := true, handle := 0, liveDoc := 0 }) ∧
        Reachable (bridgeParsers up base) s := by
  rw [Parser.close, if_neg fun h => h hlibrary, if_neg hopen, if_neg fun h => h hfree]
  simp only [Program.once_bind]
  rw [hhandle]
  refine ensures_call_eq stable_idle (fun s _ _ h hcall => Idle.free h hcall) ?_
  exact ensures_done stable_reachable fun s h => ⟨rfl, h⟩

/-- What `Doc.Close` returns when the parser is busy with the document. -/
theorem ensures_docClose (hregular : Regular up base) (hopen : ¬ d.closed) :
    Ensures (Performs up base) (Others up base handle) (Busy up base config handle d.handle)
      (d.close p) fun result s =>
        result = (none, { d with closed := true, handle := 0 }, p.clearLiveDoc d.handle) ∧
        Idle up base config handle s := by
  rw [Doc.close, if_neg hopen]
  simp only [Program.once_bind]
  refine ensures_call_eq stable_busy (fun s _ _ h hcall => Busy.free hregular h hcall) ?_
  exact ensures_done stable_idle fun s h => ⟨rfl, h⟩

/-- What `NewParser` returns when the options are accepted. -/
theorem ensures_newParser (hregular : Regular up base) {opts : List ParserOption}
    (hopts : normalizeParserOptions opts = .ok config) :
    Ensures (Performs up base) (Others up base handle) (Reachable (bridgeParsers up base))
      (newParser opts) fun result s => ∀ p, result = .ok p → p.handle = handle →
        p = ⟨true, handle, config, false, 0⟩ ∧ Idle up base config handle s := by
  have haccepted := normalizeParserOptions_accepted hopts
  rw [newParser, hopts]
  simp only [Program.once_bind]
  refine ensures_call stable_reachable (M := fun made s =>
    (∃ rc, made = .error rc ∧ rc ≠ .ok ∧ Reachable (bridgeParsers up base) s) ∨
    ∃ made', made = .ok (.handle made') ∧
      Reachable (bridgeParsers up base) s ∧ (made' = handle → Idle up base config handle s)) ?_
    fun made => ensures_of_or ?_ ?_
  · intro s made s' hs hcall
    have hs' := hs.executes hcall
    have hmade := Executes.spec (f := Reply.handle) rfl hcall
      (wp_parserNewConfigured_limits (bridgeParsers up base) hs.sized
        ⟨haccepted.minCapacity, haccepted.maxCapacity⟩ haccepted.maxDepth_ne
        (hregular.parserNewConfigured _ _))
    obtain ⟨made, rfl, slot, entry, hlive, hidle, hcapacity, hdepth⟩ | ⟨rc, rfl, hrc⟩ := hmade
    · refine Or.inr ⟨made, rfl, hs', ?_⟩
      rintro rfl
      exact ⟨entry, ⟨hs', ⟨slot, hlive⟩, hcapacity, hdepth⟩, hidle⟩
    · exact Or.inl ⟨rc, rfl, hrc, hs'⟩
  · refine ensures_of_exists fun rc => ensures_of_and ?_
    rintro rfl
    refine ensures_of_and fun hrc => ?_
    rw [status_error, wrapStatus, if_neg hrc, newError_of_ne_ok hrc]
    refine ensures_done stable_reachable fun s _ p hp => ?_
    cases hp
  · refine ensures_of_exists fun made' => ensures_of_and ?_
    rintro rfl
    refine ensures_done ?_ ?_
    · rintro s s' ⟨hs, hidle⟩ hothers
      exact ⟨stable_reachable s s' hs hothers,
        fun hhandle => stable_idle s s' (hidle hhandle) hothers⟩
    · rintro s ⟨-, hidle⟩ p hp rfl
      cases hp
      exact ⟨rfl, hidle rfl⟩

end

end Parsers

end PureSimdjson
