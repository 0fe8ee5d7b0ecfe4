import PureSimdjson.OpenDocuments
import PureSimdjson.ParseHistory

/-!
# A parser that one caller holds

As long as nobody else parses with a parser, frees it, or frees the document it is busy with, no
call touches it: its entry stays what it is, the native parser behind it remembers what it
remembered, and its document stays.
-/
namespace PureSimdjson

open Effect SlotTable Runs

section
variable {W : Type} {native : Native W} {s s' : Runtime W} {registry registry' : Registry}
  {handle : UInt64} {slot : UInt32} {entry : ParserEntry} {event : Event}

/-! ## The entry of a parser -/

/-- A parser in another slot stays as it is. -/
theorem ParserLive.set_ne (hlive : ParserLive registry handle slot entry) {slot' : UInt32}
    (hslot' : slot' ≠ 0) (hne : slot' ≠ slot) {a : Slot UInt32 ParserEntry}
    (hparsers : registry'.parsers = registry.parsers.set (slotIndex slot') a) :
    ParserLive registry' handle slot entry := by
  refine ⟨hlive.slot_ne, hlive.handle_eq, ?_⟩
  have hindex : slotIndex slot' ≠ slotIndex slot := fun h =>
    hne ((slotIndex_inj hslot' hlive.slot_ne).mp h)
  rw [hparsers, List.getElem?_set_ne hindex, hlive.entry_eq]

theorem ParserLive.congr (hlive : ParserLive registry handle slot entry)
    (hparsers : registry'.parsers = registry.parsers) : ParserLive registry' handle slot entry :=
  ⟨hlive.slot_ne, hlive.handle_eq, hparsers ▸ hlive.entry_eq⟩

/-- A new parser takes a slot that was free. -/
theorem ParserLive.filled (hlive : ParserLive registry handle slot entry) {slot' : UInt32}
    {made : ParserEntry} (hfilled : ParserFilled registry registry' slot' made) :
    ParserLive registry' handle slot entry := by
  have hne : slotIndex slot' ≠ slotIndex slot := by
    intro heq
    have hfree := hfilled.live_before entry.generation
    have hthere : live ParserEntry.generation registry.parsers (slotIndex slot) entry.generation =
      some entry := hlive.parserAt
    rw [heq, hthere] at hfree
    cases hfree
  have hlive' := hfilled.live (slotIndex slot) entry.generation
  rw [if_neg hne] at hlive'
  exact ⟨hlive.slot_ne, hlive.handle_eq, (live_eq_some.mp (hlive'.trans hlive.parserAt)).1⟩

/-- Two handles in one slot are the same. -/
theorem ParserLive.handle_unique {handle' : UInt64} {entry' : ParserEntry}
    (h : ParserLive registry handle slot entry) (h' : ParserLive registry handle' slot entry') :
    handle' = handle := by
  have heq := h'.entry_eq.symm.trans h.entry_eq
  cases heq
  exact h'.handle_eq.trans h.handle_eq.symm

/-- The event neither uses the parser nor frees its document. -/
structure Aside (handle : UInt64) (registry : Registry) (event : Event) : Prop where
  notParsed : ∀ input, event.1 ≠ .parserParse handle input
  notFreed : event.1 ≠ .parserFree handle
  docKept : ∀ slot entry docSlot docGeneration, ParserLive registry handle slot entry →
    entry.state = .busy docSlot docGeneration →
    event.1 ≠ .docFree (packHandle docSlot docGeneration)

/-- The calls that work on one document leave the parsers alone. -/
theorem parsers_withResolvedView {α : Type} (view : Option ValueView)
    (action : Nat → UInt64 → DocM W α) :
    wp (withResolvedView view action)
      (fun _ s' => s'.registry.parsers = s.registry.parsers)
      (fun _ s' => s'.registry.parsers = s.registry.parsers) s :=
  wp_withResolvedView (fun _ => rfl) (fun _ _ => rfl) fun _ _ _ _ _ _ _ _ _ _ =>
    wp_of_forall (fun _ _ => rfl) fun _ _ => rfl

theorem parsers_withIterDoc {α : Type} (iter : Iter) (tag : Nat) (action : DocM W α) :
    wp (withIterDoc iter tag action)
      (fun _ s' => s'.registry.parsers = s.registry.parsers)
      (fun _ s' => s'.registry.parsers = s.registry.parsers) s :=
  wp_withIterDoc rfl fun _ _ _ _ _ _ _ _ => wp_of_forall (fun _ _ => rfl) fun _ _ => rfl

/-- **The entry of a parser that is held stays what it is.** -/
theorem ParserLive.executes (hlive : ParserLive s.registry handle slot entry)
    (hsized : s.registry.Sized) (h : Executes native s event s')
    (haside : Aside handle s.registry event) : ParserLive s'.registry handle slot entry := by
  refine h.of_wp (P := fun _ s' => ParserLive s'.registry handle slot entry) _ ?_
  have hsame {α : Type} {m : RuntimeM W α} {reply : α → Reply}
      (hm : wp m (fun _ s' => s'.registry.parsers = s.registry.parsers)
        (fun _ s' => s'.registry.parsers = s.registry.parsers) s) :
      wp (reply <$> m) (fun _ s' => ParserLive s'.registry handle slot entry)
        (fun _ s' => ParserLive s'.registry handle slot entry) s := by
    rw [wp_map]
    exact wp_mono hm (fun _ _ => hlive.congr) fun _ _ => hlive.congr
  obtain ⟨call, result⟩ := event
  by_cases hreads : call.Reads
  · have hindexed {registry' : Registry} (h : Indexed s.registry registry') :
        ParserLive registry' handle slot entry := by
      cases h with
      | same hparsers _ => exact hlive.congr hparsers
      | more _ _ _ hparsers _ => exact hlive.congr hparsers
    exact wp_mono (indexes_of_reads native hreads s) (fun _ _ => hindexed) fun _ _ => hindexed
  cases call with
  | parserNew =>
    rw [exec, wp_map]
    refine wp_mono (wp_parserNew native hsized) ?_ fun _ _ h => hlive.congr (by rw [h])
    rintro _ s' ⟨slot', made, -, hfilled, -⟩
    exact hlive.filled hfilled
  | parserNewConfigured maxCapacity maxDepth =>
    rw [exec, wp_map]
    refine wp_mono (wp_parserNewConfigured native _ _ hsized) ?_ fun _ _ h =>
      hlive.congr (by rw [h])
    rintro _ s' ⟨slot', made, -, hfilled, -⟩
    exact hlive.filled hfilled
  | parserFree handle' =>
    rw [exec, wp_map]
    refine wp_mono (wp_parserFree native handle' s) ?_ fun _ _ h => hlive.congr (by rw [h])
    rintro _ s' ⟨slot', entry', hlive', -, hregistry⟩
    have hne : slot' ≠ slot := by
      rintro rfl
      exact haside.notFreed (by rw [hlive.handle_unique hlive'])
    exact hlive.set_ne hlive'.slot_ne hne (by rw [hregistry]; rfl)
  | parserParse handle' input =>
    have hne {slot' : UInt32} {entry' : ParserEntry}
        (hlive' : ParserLive s.registry handle' slot' entry') : slot' ≠ slot := by
      rintro rfl
      exact haside.notParsed input (by rw [hlive.handle_unique hlive'])
    rw [exec, wp_map]
    refine wp_mono (wp_parserParse native handle' input hsized) ?_ ?_
    · rintro _ s' ⟨slot', entry', docSlot, doc, hlive', -, -, -, -, -, -, hparsers⟩
      exact hlive.set_ne hlive'.slot_ne (hne hlive') hparsers
    · rintro _ s' (hregistry | ⟨slot', entry', input', hlive', -, hregistry⟩)
      · exact hlive.congr (by rw [hregistry])
      · exact hlive.set_ne hlive'.slot_ne (hne hlive') (by rw [hregistry]; rfl)
  | docFree doc =>
    rw [exec, wp_map]
    refine wp_mono (wp_docFree native doc s) ?_ fun _ _ h => hlive.congr (by rw [h])
    rintro _ s' ⟨docSlot, freed, slot', owner, hdoc, hpaired, hregistry⟩
    have hne : slot' ≠ slot := by
      rintro rfl
      have heq := hpaired.entry_eq.symm.trans hlive.entry_eq
      cases heq
      exact haside.docKept slot' entry _ _ hlive hpaired.busy (by rw [hdoc.handle_eq])
    exact hlive.set_ne hpaired.slot_ne hne (by rw [hregistry]; rfl)
  | arrayIterNew view => exact hsame (parsers_withResolvedView view _)
  | objectIterNew view => exact hsame (parsers_withResolvedView view _)
  | arrayIterNext iter =>
    cases iter with
    | none => exact hlive
    | some iter => exact hsame (parsers_withIterDoc iter _ _)
  | objectIterNext iter =>
    cases iter with
    | none => exact hlive
    | some iter => exact hsame (parsers_withIterDoc iter _ _)
  | _ => exact absurd trivial hreads

/-! ## The entry of a document -/

/-- **A document that nobody frees stays.** -/
theorem DocLive.executes {doc : UInt64} {docEntry : DocEntry}
    (hlive : DocLive s.registry doc slot docEntry) (hsized : s.registry.Sized)
    (h : Executes native s event s') (hkept : event.1 ≠ .docFree doc) :
    ∃ docEntry', DocLive s'.registry doc slot docEntry' ∧ Follows ∅ docEntry docEntry' := by
  refine (moved_of_executes native hsized h).follows hlive ⟨fun hmark => ?_, fun _ hid => hid.elim⟩
  obtain ⟨call, result⟩ := event
  rw [Event.mark.eq_def] at hmark
  split at hmark
  · cases hmark
  · rename_i handle reply hevent
    -- freeing a handle in this slot would free this document
    cases hevent
    obtain ⟨docSlot, freed, hfreed⟩ : ∃ docSlot freed, DocLive s.registry handle docSlot freed := by
      refine h.of_wp (P := fun result _ => result = .ok reply →
        ∃ docSlot freed, DocLive s.registry handle docSlot freed) _ ?_ rfl
      rw [exec, wp_map]
      refine wp_mono (wp_docFree native handle s) ?_ fun _ _ _ herror => by cases herror
      rintro _ s' ⟨docSlot, freed, _, _, hfreed, -⟩ _
      exact ⟨docSlot, freed, hfreed⟩
    have hslot : docSlot = slot := by
      rw [hfreed.handle_eq, packHandle_slot] at hmark
      exact Mark.docFreed.inj hmark
    subst hslot
    have heq := hfreed.entry_eq.symm.trans hlive.entry_eq
    cases heq
    exact hkept (congrArg Call.docFree (hfreed.handle_eq.trans hlive.handle_eq.symm))
  · split at hmark <;> cases hmark
  · split at hmark <;> cases hmark
  · cases hmark

end

/-! ## The native parser -/

section
variable {W V : Type} {up : Upstream W V} {base : Native W} {s s' : Runtime (ParserWorld W)}
  {handle : UInt64} {slot : UInt32} {entry : ParserEntry} {parser : NativeParser} {event : Event}

/-- A parser of the registry, with the native parser behind it. -/
structure HeldParser (handle : UInt64) (slot : UInt32) (entry : ParserEntry) (parser : NativeParser)
    (s : Runtime (ParserWorld W)) : Prop where
  live : ParserLive s.registry handle slot entry
  parser_eq : s.native.parsers.lookup entry.nativePtr = some parser

/-- **The native parser of a parser that is held remembers what it remembered.** -/
theorem HeldParser.executes (hs : Reachable (bridgeParsers up base) s)
    (h : HeldParser handle slot entry parser s)
    (hexec : Executes (bridgeParsers up base) s event s')
    (haside : Aside handle s.registry event) : HeldParser handle slot entry parser s' := by
  have hlive' := h.live.executes hs.sized hexec haside
  refine ⟨hlive', ?_⟩
  -- the native parser of another slot is another one
  have hother {slot' : UInt32} {entry' : ParserEntry} (hslot' : slot' ≠ 0)
      (hentry' : s.registry.parsers[slotIndex slot']? = some (.occupied entry'))
      (hne : slot' ≠ slot) : entry.nativePtr ≠ entry'.nativePtr := fun heq =>
    hne ((slotIndex_inj hslot' h.live.slot_ne).mp
      (hs.provided.apart _ _ _ _ h.live.entry_eq hentry' heq).symm)
  cases parsersMoved_of_executes hs hs.provided hexec with
  | quiet _ _ _ native => exact (native.lookup _).trans h.parser_eq
  | made _ _ _ _ fresh native =>
    rw [native.lookup, if_neg]
    · exact h.parser_eq
    · intro heq
      have hlookup := h.parser_eq
      rw [heq, lookup_none fresh] at hlookup
      cases hlookup
  | @freed slot' freed hslot' _ _ hentry' parsers lookup _ =>
    rw [lookup, if_neg]
    · exact h.parser_eq
    · refine hother hslot' hentry' ?_
      rintro rfl
      have hentry := hlive'.entry_eq
      rw [parsers, List.getElem?_set_self (Registry.lt_of_getElem? hentry')] at hentry
      cases hentry
  | @attempted handle' slot' entry' parser' input result hevent hlive₁ _ _ _ attempted =>
    obtain ⟨parser₁, asked, hreplaced, -⟩ := attempted.parser
    rw [hreplaced.lookup, if_neg]
    · exact h.parser_eq
    · refine hother hlive₁.slot_ne hlive₁.entry_eq ?_
      rintro rfl
      refine haside.notParsed input ?_
      rw [hevent, h.live.handle_unique hlive₁]

end

end PureSimdjson
