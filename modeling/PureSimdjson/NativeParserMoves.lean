import PureSimdjson.NativeParsers

/-!
# What a call does to the parsers

The registry and the native side each keep a table of parsers, and they keep them in step:
behind every parser of the registry is a native parser of its own, with its limits
(`Reachable.provided`).  All a call can do to the two tables is one of four things
(`parsersMoved_of_executes`).
-/
namespace PureSimdjson

open Effect SlotTable Runs

section
variable {W V : Type} {up : Upstream W V} {base : Native W}

/-- **Behind every parser of the registry there is a native one** with its limits, and behind
no two of them the same. -/
structure Provided (s : Runtime (ParserWorld W)) : Prop where
  held : ∀ (i : Nat) (entry : ParserEntry), s.registry.parsers[i]? = some (.occupied entry) →
    ∃ parser, s.native.parsers.lookup entry.nativePtr = some parser ∧
      parser.limits = ⟨entry.maxCapacity, entry.maxDepth⟩
  apart : ∀ (i j : Nat) (entry entry' : ParserEntry),
    s.registry.parsers[i]? = some (.occupied entry) →
    s.registry.parsers[j]? = some (.occupied entry') → entry.nativePtr = entry'.nativePtr → i = j

/-- The native parsers look the same, and upstream code was asked nothing. -/
structure ParserWorld.Alike (w w' : ParserWorld W) : Prop where
  lookup : ∀ ptr, w'.parsers.lookup ptr = w.parsers.lookup ptr
  asked : w'.asked = w.asked

theorem ParserWorld.SameParsers.alike {w w' : ParserWorld W} (h : w.SameParsers w') : w.Alike w' :=
  ⟨fun ptr => by rw [h.1], h.2⟩

/-- Whether a handle names a parser that is idle. -/
def Registry.idleParser (registry : Registry) (handle : UInt64) : Bool :=
  match registry.parserEntry handle with
  | .ok entry => entry.state = .idle
  | .error _ => false

/-- The call makes a parser, and this is its handle. -/
def Event.Makes (event : Event) (handle : UInt64) : Prop :=
  match event.1 with
  | .parserNew => event.2 = .ok (.handle handle)
  | .parserNewConfigured _ _ => event.2 = .ok (.handle handle)
  | _ => False

/-- The call attempts a parse by an idle parser. -/
def Event.Attempts (registry : Registry) (event : Event) (handle : UInt64) (input : Bytes) : Prop :=
  event.1 = .parserParse handle input ∧ registry.idleParser handle = true

variable (up base)

/-- **What a call can do to the parsers.** -/
inductive ParsersMoved (s s' : Runtime (ParserWorld W)) (event : Event) : Prop where
  | quiet (hmakes : ∀ handle, ¬ event.Makes handle)
      (hattempts : ∀ handle input, ¬ event.Attempts s.registry handle input)
      (parsers : SameParsers s.registry s'.registry) (native : s.native.Alike s'.native)
  | made {slot : UInt32} {entry : ParserEntry} (hslot : slot ≠ 0)
      (hmakes : event.Makes (packHandle slot entry.generation))
      (hattempts : ∀ handle input, ¬ event.Attempts s.registry handle input)
      (filled : ParserFilled s.registry s'.registry slot entry)
      (fresh : entry.nativePtr ∉ s.native.parsers)
      (native : s.native.Replaced s'.native entry.nativePtr
        (.new entry.maxCapacity entry.maxDepth) [])
  | freed {slot : UInt32} {entry : ParserEntry} (hslot : slot ≠ 0)
      (hmakes : ∀ handle, ¬ event.Makes handle)
      (hattempts : ∀ handle input, ¬ event.Attempts s.registry handle input)
      (hentry : s.registry.parsers[slotIndex slot]? = some (.occupied entry))
      (parsers : s'.registry.parsers = s.registry.parsers.set (slotIndex slot)
        (.vacant (nextParserGeneration entry.generation)))
      (lookup : ∀ ptr, s'.native.parsers.lookup ptr =
        if ptr = entry.nativePtr then none else s.native.parsers.lookup ptr)
      (asked : s'.native.asked = s.native.asked)
  | attempted {handle : UInt64} {slot : UInt32} {entry : ParserEntry} {parser : NativeParser}
      {input : Bytes} {result : Except ErrorCode Reply}
      (hevent : event = (.parserParse handle input, result))
      (hlive : ParserLive s.registry handle slot entry) (hidle : entry.state = .idle)
      (hparser : s.native.parsers.lookup entry.nativePtr = some parser)
      (parsers : SameParsers s.registry s'.registry)
      (attempted : Attempted up base s.native s'.native entry parser input result)

/-! ## Making and freeing a parser -/

variable {up base}

theorem lookup_none {parsers : NativeParsers} {ptr : Nat} (h : ptr ∉ parsers) :
    parsers.lookup ptr = none := AList.lookup_eq_none.mpr h

/-- A native parser is made at a fresh address, or nothing happens. -/
theorem wp_parserNewConfiguredWithSelectionLock {maxCapacity : Nat} {maxDepth : UInt32}
    (hcapacity : maxCapacity ≠ 0) (hdepth : maxDepth ≠ 0) (w : ParserWorld W) :
    wp (parserNewConfiguredWithSelectionLock up maxCapacity maxDepth)
      (fun ptr w' => ptr ≠ 0 ∧ ptr ∉ w.parsers ∧
        w.Replaced w' ptr (.new maxCapacity maxDepth) [])
      (fun _ w' => w.SameParsers w') w := by
  rw [parserNewConfiguredWithSelectionLock, wp_bind, wp_ofExcept]
  refine ⟨fun _ _ => ?_, fun _ _ => ⟨rfl, rfl⟩⟩
  rw [if_neg hcapacity, if_neg hdepth]
  dsimp only
  rw [wp_bind, onRest, wp_zoom]
  refine wp_of_forall (fun _ rest => ?_) fun _ _ => ⟨rfl, rfl⟩
  refine ⟨up.address_ne_zero _ _, up.address_fresh _ _, fun ptr => ?_, (List.append_nil _).symm⟩
  show (w.parsers.insert (up.address rest w.parsers) _).lookup ptr = _
  by_cases heq : ptr = up.address rest w.parsers
  · rw [if_pos heq, heq, AList.lookup_insert]
  · rw [if_neg heq, AList.lookup_insert_ne heq]

/-- Freeing a native parser that is there. -/
theorem run_psimdjsonParserFree {w : ParserWorld W} {ptr : Nat} {parser : NativeParser}
    (h : w.parsers.lookup ptr = some parser) :
    (psimdjsonParserFree ptr).run w = .ok () { w with parsers := w.parsers.erase ptr } := by
  refine run_eq_ok ?_
  rw [psimdjsonParserFree, wp_bind]
  exact wp_nativeParserAt h ⟨rfl, rfl⟩

theorem lookup_erase (parsers : NativeParsers) (ptr ptr' : Nat) :
    (parsers.erase ptr).lookup ptr' = if ptr' = ptr then none else parsers.lookup ptr' := by
  by_cases heq : ptr' = ptr
  · rw [if_pos heq, heq, AList.lookup_erase]
  · rw [if_neg heq, AList.lookup_erase_ne heq]

/-- A parser that was just made is registered, or freed again. -/
theorem wp_registerParser_made {s : Runtime (ParserWorld W)} {ptr maxCapacity : Nat}
    {maxDepth : UInt32} {w : ParserWorld W} (hsized : s.registry.Sized)
    (hfresh : ptr ∉ s.native.parsers)
    (hreplaced : s.native.Replaced w ptr (.new maxCapacity maxDepth) []) :
    wp (registerParser (bridgeParsers up base) ptr maxCapacity maxDepth)
      (fun handle s' => ∃ slot entry, slot ≠ 0 ∧ handle = packHandle slot entry.generation ∧
        ParserFilled s.registry s'.registry slot entry ∧ entry.nativePtr ∉ s.native.parsers ∧
        s.native.Replaced s'.native entry.nativePtr (.new entry.maxCapacity entry.maxDepth) [])
      (fun _ s' => SameParsers s.registry s'.registry ∧ s.native.Alike s'.native)
      { s with native := w } := by
  rw [registerParser, wp_bind, wp_getRegistry]
  cases h : s.registry.allocParser ptr maxCapacity maxDepth with
  | error rc =>
    have hlookup : w.parsers.lookup ptr = some (.new maxCapacity maxDepth) := by
      rw [hreplaced.lookup, if_pos rfl]
    have hfree : ((bridgeParsers up base).parserFree ptr).run w =
        .ok () { w with parsers := w.parsers.erase ptr } := run_psimdjsonParserFree hlookup
    dsimp only
    rw [wp_bind, wp_callNative, wp_cleanup]
    refine wp_of_run_ok hfree ?_
    rw [wp_throw]
    refine ⟨rfl, fun ptr' => ?_, ?_⟩
    · show (w.parsers.erase ptr).lookup ptr' = _
      rw [lookup_erase]
      by_cases heq : ptr' = ptr
      · rw [if_pos heq, heq, lookup_none hfresh]
      · rw [if_neg heq, hreplaced.lookup, if_neg heq]
    · show w.asked = s.native.asked
      rw [hreplaced.asked, List.append_nil]
  | ok made =>
    obtain ⟨handle, registry'⟩ := made
    obtain ⟨slot, generation, hslot, hhandle, hfilled, -⟩ := Registry.allocParser_ok hsized h
    exact ⟨slot, ⟨generation, ptr, .idle, [], maxCapacity, maxDepth⟩, hslot, hhandle, hfilled,
      hfresh, hreplaced⟩

/-! ## All calls -/

theorem idleParser_eq_true {registry : Registry} {handle : UInt64} :
    registry.idleParser handle = true ↔
      ∃ slot entry, ParserLive registry handle slot entry ∧ entry.state = .idle := by
  rw [Registry.idleParser]
  constructor
  · intro h
    cases hentry : registry.parserEntry handle with
    | error rc =>
      rw [hentry] at h
      cases h
    | ok entry =>
      rw [hentry] at h
      obtain ⟨slot, hlive⟩ := parserEntry_eq_ok.mp hentry
      exact ⟨slot, entry, hlive, of_decide_eq_true h⟩
  · intro h
    obtain ⟨slot, entry, hlive, hidle⟩ := h
    rw [parserEntry_eq_ok.mpr ⟨slot, hlive⟩]
    exact decide_eq_true hidle

theorem Event.Makes.onParser {event : Event} {handle : UInt64} (h : event.Makes handle) :
    event.1.OnParser := by
  obtain ⟨call, result⟩ := event
  cases call with
  | parserNew => trivial
  | parserNewConfigured _ _ => trivial
  | _ => exact h.elim

theorem Event.Makes.unique {event : Event} {handle handle' : UInt64} (h : event.Makes handle)
    (h' : event.Makes handle') : handle = handle' := by
  obtain ⟨call, result⟩ := event
  have heq {result : Except ErrorCode Reply} (h : result = .ok (.handle handle))
      (h' : result = .ok (.handle handle')) : handle = handle' :=
    Reply.handle.inj (Except.ok.inj (h.symm.trans h'))
  cases call with
  | parserNew => exact heq h h'
  | parserNewConfigured _ _ => exact heq h h'
  | _ => exact h.elim

theorem Event.Attempts.onParser {registry : Registry} {event : Event} {handle : UInt64}
    {input : Bytes} (h : event.Attempts registry handle input) : event.1.OnParser := by
  rw [h.1]
  trivial

/-- A parser is made, or nothing happens. -/
theorem wp_makeParser {s : Runtime (ParserWorld W)} {call : NativeM (ParserWorld W) Nat}
    {maxCapacity : Nat} {maxDepth : UInt32} (hsized : s.registry.Sized)
    (hcall : wp call
      (fun ptr w' => ptr ≠ 0 ∧ ptr ∉ s.native.parsers ∧
        s.native.Replaced w' ptr (.new maxCapacity maxDepth) [])
      (fun _ w' => s.native.SameParsers w') s.native) :
    wp (do
        let nativePtr ← callNative (do orInternal (· ≠ 0) (← call))
        registerParser (bridgeParsers up base) nativePtr maxCapacity maxDepth)
      (fun handle s' => ∃ slot entry, slot ≠ 0 ∧ handle = packHandle slot entry.generation ∧
        ParserFilled s.registry s'.registry slot entry ∧ entry.nativePtr ∉ s.native.parsers ∧
        s.native.Replaced s'.native entry.nativePtr (.new entry.maxCapacity entry.maxDepth) [])
      (fun _ s' => SameParsers s.registry s'.registry ∧ s.native.Alike s'.native) s := by
  rw [wp_bind, wp_callNative, wp_bind]
  refine wp_mono hcall (fun ptr w hmade => ?_) fun _ w hsame => ⟨rfl, hsame.alike⟩
  obtain ⟨hne, hfresh, hreplaced⟩ := hmade
  rw [wp_orInternal]
  refine ⟨fun _ => ?_, fun hzero => absurd (decide_eq_true hne) hzero⟩
  exact wp_registerParser_made hsized hfresh hreplaced

theorem effectiveMaxCapacity_ne_zero {maxCapacity capacity : Nat}
    (h : effectiveMaxCapacity maxCapacity = .ok capacity) : capacity ≠ 0 := by
  rw [effectiveMaxCapacity] at h
  split at h
  · cases h
    decide
  · split at h
    · cases h
    · cases h
      assumption

theorem parserEntry_unique {registry : Registry} {handle : UInt64} {slot slot' : UInt32}
    {entry entry' : ParserEntry} (h : ParserLive registry handle slot entry)
    (h' : ParserLive registry handle slot' entry') : entry = entry' := by
  have hentry := parserEntry_eq_ok.mpr ⟨slot, h⟩
  rw [parserEntry_eq_ok.mpr ⟨slot', h'⟩] at hentry
  exact (Except.ok.inj hentry).symm

/-- A parse only changes which parser is busy and who has a buffer. -/
theorem sameParsers_parserParse {native : Native W} {s : Runtime W} {handle : UInt64}
    {input : Bytes} (hsized : s.registry.Sized) :
    wp (parserParse native handle input) (fun _ s' => SameParsers s.registry s'.registry)
      (fun _ s' => SameParsers s.registry s'.registry) s := by
  have hset {slot : UInt32} {entry : ParserEntry} (hlive : ParserLive s.registry handle slot entry)
      (state : ParserState) (input : Bytes) : SameParsers s.registry (s.registry.setParser
        (slotIndex slot) (.occupied { entry with state := state, reusableInput := input })) :=
    sameParsers_setParser hlive.parserAt state input
  refine wp_mono (wp_parserParse native handle input hsized) ?_ ?_
  · intro _ s' hparsed
    obtain ⟨slot, entry, docSlot, doc, hlive, -, -, -, -, -, -, hs'⟩ := hparsed
    rw [SameParsers, hs']
    exact hset hlive _ _
  · intro _ s' hfailed
    obtain hs' | ⟨slot, entry, input', hlive, -, hs'⟩ := hfailed
    · rw [hs']
      rfl
    · rw [hs']
      exact hset hlive entry.state input'

/-- **Every call moves the parsers so.** -/
theorem parsersMoved_of_executes {s s' : Runtime (ParserWorld W)} {event : Event}
    (hreachable : Reachable (bridgeParsers up base) s) (hprovided : Provided s)
    (h : Executes (bridgeParsers up base) s event s') : ParsersMoved up base s s' event := by
  have hsized := hreachable.sized
  obtain ⟨call, result⟩ := event
  by_cases hcall : call.OnParser
  · cases call with
    | parserNew =>
      have hattempts (result : Except ErrorCode Reply) (handle : UInt64) (input : Bytes) :
          ¬ Event.Attempts s.registry (.parserNew, result) handle input := fun h => by cases h.1
      refine h.of_wp (P := fun result s' => ParsersMoved up base s s' (.parserNew, result)) _ ?_
      rw [exec, wp_map]
      refine wp_mono (wp_makeParser hsized (wp_parserNewConfiguredWithSelectionLock
        (by decide : defaultMaxCapacity ≠ 0) (by decide : defaultMaxDepth ≠ 0) s.native)) ?_ ?_
      · intro handle s' hmade
        obtain ⟨slot, entry, hslot, rfl, hfilled, hfresh, hreplaced⟩ := hmade
        exact .made hslot rfl (hattempts _) hfilled hfresh hreplaced
      · intro rc s' hsame
        exact .quiet (fun handle hmakes => by cases hmakes) (hattempts _) hsame.1 hsame.2
    | parserNewConfigured maxCapacity maxDepth =>
      have hattempts (result : Except ErrorCode Reply) (handle : UInt64) (input : Bytes) :
          ¬ Event.Attempts s.registry (.parserNewConfigured maxCapacity maxDepth, result) handle
            input := fun h => by cases h.1
      have hquiet (rc : ErrorCode) (s' : Runtime (ParserWorld W))
          (hsame : SameParsers s.registry s'.registry ∧ s.native.Alike s'.native) :
          ParsersMoved up base s s' (.parserNewConfigured maxCapacity maxDepth, .error rc) :=
        .quiet (fun handle hmakes => by cases hmakes) (hattempts _) hsame.1 hsame.2
      refine h.of_wp (P := fun result s' =>
        ParsersMoved up base s s' (.parserNewConfigured maxCapacity maxDepth, result)) _ ?_
      rw [exec, wp_map, parserNewConfigured, wp_bind, wp_ofExcept]
      refine ⟨fun capacity hcapacity => ?_, fun rc _ => hquiet rc s ⟨rfl, fun _ => rfl, rfl⟩⟩
      dsimp only
      have hdepth : (if maxDepth = 0 then defaultMaxDepth else maxDepth) ≠ 0 := by
        split
        · decide
        · assumption
      refine wp_mono (wp_makeParser hsized (wp_parserNewConfiguredWithSelectionLock
        (effectiveMaxCapacity_ne_zero hcapacity) hdepth s.native)) ?_ fun rc s' => hquiet rc s'
      intro handle s' hmade
      obtain ⟨slot, entry, hslot, rfl, hfilled, hfresh, hreplaced⟩ := hmade
      exact .made hslot rfl (hattempts _) hfilled hfresh hreplaced
    | parserFree handle =>
      have hmakes (result : Except ErrorCode Reply) (made : UInt64) :
          ¬ Event.Makes (.parserFree handle, result) made := fun h => h
      have hattempts (result : Except ErrorCode Reply) (made : UInt64) (input : Bytes) :
          ¬ Event.Attempts s.registry (.parserFree handle, result) made input :=
        fun h => by cases h.1
      have hsame (rc : ErrorCode) : ParsersMoved up base s s (.parserFree handle, .error rc) :=
        .quiet (hmakes _) (hattempts _) rfl ⟨fun _ => rfl, rfl⟩
      refine h.of_wp (P := fun result s' =>
        ParsersMoved up base s s' (.parserFree handle, result)) _ ?_
      rw [exec, wp_map, parserFree, wp_bind]
      refine wp_unpackHandle (fun slot generation hslot hhandle => ?_) (hsame _)
      rw [wp_bind, wp_lookupParser]
      refine ⟨fun entry hentry => ?_, fun _ => hsame _⟩
      have hlive := ParserLive.of_parserAt hslot hhandle hentry
      obtain ⟨-, rfl⟩ := Registry.parserAt_eq_some.mp hentry
      rw [wp_bind, wp_require]
      refine ⟨fun _ => ?_, fun _ => hsame _⟩
      obtain ⟨parser, hparser, -⟩ := hprovided.held _ _ hlive.entry_eq
      have hfree : ((bridgeParsers up base).parserFree entry.nativePtr).run s.native =
          .ok () { s.native with parsers := s.native.parsers.erase entry.nativePtr } :=
        run_psimdjsonParserFree hparser
      rw [wp_bind, wp_callNative]
      refine wp_of_run_ok hfree ?_
      rw [wp_modifyRegistry]
      exact .freed hslot (hmakes _) (hattempts _) hlive.entry_eq rfl
        (lookup_erase s.native.parsers entry.nativePtr) rfl
    | parserParse handle input =>
      have hmakes (made : UInt64) : ¬ Event.Makes (.parserParse handle input, result) made :=
        fun h => h
      have hsame (h : s' = s)
          (hidle : ∀ slot entry, ParserLive s.registry handle slot entry → entry.state ≠ .idle) :
          ParsersMoved up base s s' (.parserParse handle input, result) := by
        subst h
        refine .quiet hmakes (fun handle' input' hattempts => ?_) rfl ⟨fun _ => rfl, rfl⟩
        obtain ⟨hparse, hidle'⟩ := hattempts
        cases hparse
        obtain ⟨slot, entry, hlive, hentry⟩ := idleParser_eq_true.mp hidle'
        exact hidle slot entry hlive hentry
      by_cases hdead : ∀ slot entry, ¬ ParserLive s.registry handle slot entry
      · refine hsame ?_ fun slot entry hlive => absurd hlive (hdead slot entry)
        refine h.of_wp (P := fun _ s' => s' = s) _ ?_
        rw [exec, wp_map]
        exact wp_of_run_error (run_parserParse_dead hdead) rfl
      · simp only [not_forall, not_not] at hdead
        obtain ⟨slot, entry, hlive⟩ := hdead
        by_cases hidle : entry.state = .idle
        · obtain ⟨parser, hparser, -⟩ := hprovided.held _ _ hlive.entry_eq
          have hroom := hasDocRoom hsized hreachable.parsers_length hreachable.linked hlive hidle
          refine .attempted rfl hlive hidle hparser ?_
            (attempted_of_executes up hlive hidle hsized hroom hparser h)
          refine h.of_wp (P := fun _ s' => SameParsers s.registry s'.registry) _ ?_
          rw [exec, wp_map]
          exact sameParsers_parserParse hsized
        · refine hsame ?_ fun slot' entry' hlive' => ?_
          · refine h.of_wp (P := fun _ s' => s' = s) _ ?_
            rw [exec, wp_map]
            exact wp_of_run_error (run_parserParse_busy hlive hidle) rfl
          · obtain rfl := parserEntry_unique hlive hlive'
            exact hidle
    | _ => exact hcall.elim
  · refine h.of_wp (P := fun result s' => ParsersMoved up base s s' (call, result)) _ ?_
    refine wp_mono (quiet_exec (quiet_bridgeParsers up base) call hcall s) ?_ ?_
    · intro _ s' hs'
      exact .quiet (fun _ hmakes => hcall hmakes.onParser) (fun _ _ hattempts =>
        hcall hattempts.onParser) hs'.parsers hs'.native.alike
    · intro _ s' hs'
      exact .quiet (fun _ hmakes => hcall hmakes.onParser) (fun _ _ hattempts =>
        hcall hattempts.onParser) hs'.parsers hs'.native.alike

/-! ## The two tables stay in step -/

theorem SameParsers.occupied {registry registry' : Registry} (h : SameParsers registry registry')
    {i : Nat} {entry' : ParserEntry} (hentry : registry'.parsers[i]? = some (.occupied entry')) :
    ∃ entry, registry.parsers[i]? = some (.occupied entry) ∧
      entry' = { entry with state := entry'.state, reusableInput := entry'.reusableInput } := by
  have hget := congrArg (fun t : List (Slot UInt32 ParserEntry) => t[i]?) h
  simp only [List.getElem?_map, hentry, Option.map_some] at hget
  obtain ⟨found, hfound, heq⟩ := Option.map_eq_some_iff.mp hget.symm
  cases found with
  | vacant generation => cases heq
  | occupied entry =>
    refine ⟨entry, hfound, ?_⟩
    cases entry
    cases entry'
    cases heq
    rfl

/-- An attempt leaves its parser the limits it has. -/
theorem Attempted.parser {w w' : ParserWorld W} {entry : ParserEntry} {parser : NativeParser}
    {input : Bytes} {result : Except ErrorCode Reply}
    (h : Attempted up base w w' entry parser input result) :
    ∃ parser' asked, w.Replaced w' entry.nativePtr parser' asked ∧
      parser'.limits = parser.limits := by
  have hlimits := (attempt_ended up w entry.nativePtr parser input).limits
  cases h with
  | refused _ replaced => exact ⟨_, _, replaced, rfl⟩
  | failed _ _ replaced => exact ⟨_, _, replaced, hlimits⟩
  | parsed _ _ _ replaced => exact ⟨_, _, replaced, hlimits⟩

theorem Provided.of_same {s s' : Runtime (ParserWorld W)} (h : Provided s)
    (hparsers : SameParsers s.registry s'.registry)
    (hnative : ∀ ptr parser, s.native.parsers.lookup ptr = some parser →
      ∃ parser', s'.native.parsers.lookup ptr = some parser' ∧ parser'.limits = parser.limits) :
    Provided s' := by
  refine ⟨fun i entry' hentry' => ?_, fun i j entry entry' hentry hentry' heq => ?_⟩
  · obtain ⟨entry, hentry, heq⟩ := hparsers.occupied hentry'
    obtain ⟨parser, hparser, hlimits⟩ := h.held i entry hentry
    obtain ⟨parser', hparser', hlimits'⟩ := hnative _ _ hparser
    rw [heq]
    exact ⟨parser', hparser', hlimits'.trans hlimits⟩
  · obtain ⟨entry₀, hentry₀, heq₀⟩ := hparsers.occupied hentry
    obtain ⟨entry₁, hentry₁, heq₁⟩ := hparsers.occupied hentry'
    rw [heq₀, heq₁] at heq
    exact h.apart i j entry₀ entry₁ hentry₀ hentry₁ heq

/-- One step keeps them in step. -/
theorem Provided.step {s s' : Runtime (ParserWorld W)} {event : Event} (h : Provided s)
    (hmoved : ParsersMoved up base s s' event) : Provided s' := by
  cases hmoved with
  | quiet _ _ parsers native =>
    exact h.of_same parsers fun ptr parser hparser =>
      ⟨parser, (native.lookup ptr).trans hparser, rfl⟩
  | @made slot made _ _ _ filled fresh native =>
    have hfresh {i : Nat} {entry : ParserEntry}
        (hentry : s.registry.parsers[i]? = some (.occupied entry)) :
        entry.nativePtr ≠ made.nativePtr := by
      intro heq
      obtain ⟨parser, hparser, -⟩ := h.held i entry hentry
      rw [heq, lookup_none fresh] at hparser
      cases hparser
    refine ⟨fun i entry hentry => ?_, fun i j entry entry' hentry hentry' heq => ?_⟩
    · obtain ⟨-, rfl⟩ | ⟨-, hold⟩ := filled.occupied hentry
      · exact ⟨_, (native.lookup _).trans (if_pos rfl), rfl⟩
      · obtain ⟨parser, hparser, hlimits⟩ := h.held i entry hold
        refine ⟨parser, ?_, hlimits⟩
        rw [native.lookup, if_neg (hfresh hold)]
        exact hparser
    · obtain ⟨rfl, rfl⟩ | ⟨-, hold⟩ := filled.occupied hentry
      · obtain ⟨rfl, -⟩ | ⟨-, hold'⟩ := filled.occupied hentry'
        · rfl
        · exact absurd heq.symm (hfresh hold')
      · obtain ⟨-, rfl⟩ | ⟨-, hold'⟩ := filled.occupied hentry'
        · exact absurd heq (hfresh hold)
        · exact h.apart i j entry entry' hold hold' heq
  | @freed slot freed _ _ _ hentry parsers lookup _ =>
    have hold {i : Nat} {entry : ParserEntry}
        (h' : s'.registry.parsers[i]? = some (.occupied entry)) :
        i ≠ slotIndex slot ∧ s.registry.parsers[i]? = some (.occupied entry) := by
      rw [parsers, List.getElem?_set] at h'
      split at h'
      · split at h' <;> cases h'
      · rename_i hne
        exact ⟨Ne.symm hne, h'⟩
    refine ⟨fun i entry h' => ?_, fun i j entry entry' h₁ h₂ heq =>
      h.apart i j entry entry' (hold h₁).2 (hold h₂).2 heq⟩
    obtain ⟨hne, hentry'⟩ := hold h'
    obtain ⟨parser, hparser, hlimits⟩ := h.held i entry hentry'
    refine ⟨parser, ?_, hlimits⟩
    rw [lookup, if_neg fun heq => hne (h.apart _ _ _ _ hentry' hentry heq)]
    exact hparser
  | attempted _ _ _ hparser parsers attempted =>
    obtain ⟨parser', asked, hreplaced, hlimits⟩ := attempted.parser
    refine h.of_same parsers fun ptr old hold => ?_
    rw [hreplaced.lookup]
    split
    · rename_i heq
      rw [heq, hparser] at hold
      cases hold
      exact ⟨parser', rfl, hlimits⟩
    · exact ⟨old, hold, rfl⟩

/-- **In every reachable state they are in step.** -/
theorem Reachable.provided {s : Runtime (ParserWorld W)}
    (h : Reachable (bridgeParsers up base) s) : Provided s := by
  obtain ⟨w, events, hrun⟩ := h
  have hempty (i : Nat) (entry : ParserEntry) :
      Registry.empty.parsers[i]? ≠ some (.occupied entry) := by
    rw [Registry.empty, List.getElem?_nil]
    exact fun h => by cases h
  refine (hrun.invariant (I := fun s => Reachable (bridgeParsers up base) s ∧ Provided s) ?_
    ⟨⟨w, [], .nil _⟩, fun i entry h => absurd h (hempty i entry),
      fun i _ entry _ h => absurd h (hempty i entry)⟩).2
  intro s event s' hs hstep
  obtain ⟨w, events, hrun⟩ := hs.1
  exact ⟨⟨w, events ++ [event], hrun.snoc hstep⟩,
    hs.2.step (parsersMoved_of_executes hs.1 hs.2 hstep)⟩

end

end PureSimdjson
