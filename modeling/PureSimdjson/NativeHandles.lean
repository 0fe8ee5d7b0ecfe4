import PureSimdjson.Ownership
import PureSimdjson.Wrappers

/-!
# Native handles

What the parser calls of the registry come to for someone who only sees handles: a parser's
handle is dead, idle, or busy with a document's handle, and a document is live if a parser is
busy with it.
-/
namespace PureSimdjson

open Effect SlotTable Runs

/-- The handle of the document a parser is busy with. -/
def ParserState.doc : ParserState → Option UInt64
  | .idle => none
  | .busy docSlot docGeneration => some (packHandle docSlot docGeneration)

/-- What a handle is to the parser calls. -/
def Registry.parserStatus (registry : Registry) (handle : UInt64) : Option (Option UInt64) :=
  match registry.parserEntry handle with
  | .ok entry => some entry.state.doc
  | .error _ => none

theorem packHandle_self (handle : UInt64) :
    packHandle handle.toUInt32 (handle >>> 32).toUInt32 = handle := by
  apply UInt64.toNat_inj.mp
  rw [packHandle_toNat, UInt64.toNat_toUInt32, UInt64.toNat_toUInt32, UInt64.toNat_shiftRight,
    show (32 : UInt64).toNat % 64 = 32 from rfl, Nat.shiftRight_eq_div_pow]
  have hlt := handle.toNat_lt
  omega

section
variable {registry registry' : Registry} {slot generation : UInt32}

theorem parserStatus_packHandle (slot generation : UInt32) :
    registry.parserStatus (packHandle slot generation) =
      (registry.parserOf slot generation).map fun entry => entry.state.doc := by
  unfold Registry.parserStatus Registry.parserEntry Registry.parserOf named
  by_cases hslot : slot = 0
  · have hunpack : unpackHandle (packHandle slot generation) = .error .invalidHandle := by
      unfold unpackHandle
      split
      · rfl
      · simp only [packHandle_slot, if_pos hslot]
    rw [hunpack, if_pos hslot]
    rfl
  · rw [unpackHandle_packHandle hslot, if_neg hslot]
    simp only [bind, Except.bind, Registry.parserAt, slotIndex]
    cases live ParserEntry.generation registry.parsers (slot - 1).toNat generation with
    | none => rfl
    | some entry => rfl

/-- Only one slot and generation have this handle. -/
theorem parserStatus_ext {statuses : UInt64 → Option (Option UInt64)}
    (h : ∀ slot generation, (registry.parserOf slot generation).map (fun entry => entry.state.doc) =
      statuses (packHandle slot generation)) : registry.parserStatus = statuses := by
  funext handle
  rw [← packHandle_self handle, parserStatus_packHandle]
  exact h _ _

section
variable {handle : UInt64} {entry : ParserEntry}

theorem ParserLive.parserOf (hlive : ParserLive registry handle slot entry) :
    registry.parserOf slot entry.generation = some entry :=
  named_eq_some.mpr ⟨hlive.slot_ne, hlive.entry_eq, rfl⟩

theorem ParserLive.parserStatus (hlive : ParserLive registry handle slot entry) :
    registry.parserStatus handle = some entry.state.doc := by
  rw [hlive.handle_eq, parserStatus_packHandle, hlive.parserOf]
  rfl

/-- A live parser's slot is written: what the slot has at the parser's generation is what its
handle is then, and no other handle changes. -/
theorem ParserLive.parserStatus_write {written : Slot UInt32 ParserEntry}
    {status : Option (Option UInt64)} (hlive : ParserLive registry handle slot entry)
    (h : registry'.parsers = registry.parsers.set (slotIndex slot) written)
    (hself : ∀ generation, (registry'.parserOf slot generation).map (fun e => e.state.doc) =
      if entry.generation = generation then status else none) :
    registry'.parserStatus = Function.update registry.parserStatus handle status := by
  refine parserStatus_ext fun slot' generation => ?_
  rw [hlive.handle_eq]
  by_cases hslot : slot = slot'
  · subst hslot
    rw [hself]
    by_cases hsame : entry.generation = generation
    · rw [if_pos hsame, hsame, Function.update_self]
    · have hnone : registry.parserOf slot generation = none := by
        refine Option.eq_none_iff_forall_ne_some.mpr fun e he => ?_
        obtain ⟨-, hentry, hgen⟩ := named_eq_some.mp he
        cases hlive.entry_eq.symm.trans hentry
        exact hsame hgen
      have hne : packHandle slot generation ≠ packHandle slot entry.generation :=
        fun heq => hsame (packHandle_inj.mp heq).2.symm
      rw [if_neg hsame, Function.update_of_ne hne, parserStatus_packHandle, hnone]
      rfl
  · have hne : packHandle slot' generation ≠ packHandle slot entry.generation :=
      fun heq => hslot (packHandle_inj.mp heq).1.symm
    rw [Registry.parserOf, h, named_set_ne hlive.slot_ne hslot, Function.update_of_ne hne,
      parserStatus_packHandle]
    rfl

/-- A parser's entry is replaced. -/
theorem ParserLive.parserStatus_set {entry' : ParserEntry}
    (hlive : ParserLive registry handle slot entry)
    (h : registry'.parsers = registry.parsers.set (slotIndex slot) (.occupied entry'))
    (hgeneration : entry'.generation = entry.generation) :
    registry'.parserStatus =
      Function.update registry.parserStatus handle (some entry'.state.doc) := by
  refine hlive.parserStatus_write h fun generation => ?_
  rw [Registry.parserOf, h, named_set_occupied hlive.slot_ne hlive.entry_eq, hgeneration]
  split <;> rfl

/-- A parser's slot is vacated. -/
theorem ParserLive.parserStatus_vacate {generation' : UInt32}
    (hlive : ParserLive registry handle slot entry)
    (h : registry'.parsers = registry.parsers.set (slotIndex slot) (.vacant generation')) :
    registry'.parserStatus = Function.update registry.parserStatus handle none := by
  refine hlive.parserStatus_write h fun generation => ?_
  rw [Registry.parserOf, h, named_set_vacant, ite_self]
  rfl

/-- A parser is put into a slot. -/
theorem parserStatus_filled (hslot : slot ≠ 0)
    (hfilled : ParserFilled registry registry' slot entry) :
    registry.parserStatus (packHandle slot entry.generation) = none ∧
      registry'.parserStatus = Function.update registry.parserStatus
        (packHandle slot entry.generation) (some entry.state.doc) := by
  have hbefore (generation : UInt32) : registry.parserOf slot generation = none :=
    named_before_filled hfilled
  refine ⟨by rw [parserStatus_packHandle, hbefore]; rfl,
    parserStatus_ext fun slot' generation => ?_⟩
  unfold Registry.parserOf
  by_cases heq : slot = slot'
  · subst heq
    rw [named_filled hslot hfilled]
    by_cases hsame : entry.generation = generation
    · subst hsame
      rw [if_pos rfl, Function.update_self]
      rfl
    · rw [if_neg hsame, Function.update_of_ne, parserStatus_packHandle, hbefore]
      exact fun heq => hsame (packHandle_inj.mp heq).2.symm
  · rw [named_filled_ne hslot heq hfilled, Function.update_of_ne, parserStatus_packHandle]
    · rfl
    · exact fun h => heq (packHandle_inj.mp h).1.symm

end

end

/-- A call that runs `m` does what `m` guarantees. -/
theorem Executes.spec {W α : Type} {native : Native W} {call : Call} {f : α → Reply}
    {m : RuntimeM W α} (hrun : exec native call = f <$> m) {s s' : Runtime W}
    {result : Except ErrorCode Reply} (h : Executes native s (call, result) s')
    {Q : α → Runtime W → Prop} {E : ErrorCode → Runtime W → Prop} (hwp : wp m Q E s) :
    (∃ a, result = .ok (f a) ∧ Q a s') ∨ ∃ rc, result = .error rc ∧ E rc s' := by
  refine h.of_wp (P := fun result s' =>
    (∃ a, result = .ok (f a) ∧ Q a s') ∨ ∃ rc, result = .error rc ∧ E rc s') native ?_
  rw [hrun, wp_map]
  exact wp_mono hwp (fun a s' ha => Or.inl ⟨a, rfl, ha⟩) fun rc s' hrc => Or.inr ⟨rc, rfl, hrc⟩

/-! ## Documents -/

section
variable {registry : Registry} {handle doc : UInt64}

/-- A parser that is busy with a document. -/
theorem parserStatus_busy (h : registry.parserStatus handle = some (some doc)) :
    ∃ slot generation docSlot docGeneration, handle = packHandle slot generation ∧
      doc = packHandle docSlot docGeneration ∧
      registry.BusyWith slot generation docSlot docGeneration := by
  rw [← packHandle_self handle, parserStatus_packHandle] at h
  obtain ⟨entry, hentry, hstate⟩ := Option.map_eq_some_iff.mp h
  cases hbusy : entry.state with
  | idle =>
    rw [hbusy] at hstate
    cases hstate
  | busy docSlot docGeneration =>
    rw [hbusy] at hstate
    cases hstate
    exact ⟨_, _, docSlot, docGeneration, (packHandle_self handle).symm, rfl, entry, hentry, hbusy⟩

theorem BusyWith.parserStatus {slot generation docSlot docGeneration : UInt32}
    (h : registry.BusyWith slot generation docSlot docGeneration) :
    registry.parserStatus (packHandle slot generation) =
      some (some (packHandle docSlot docGeneration)) := by
  obtain ⟨entry, hentry, hbusy⟩ := h
  rw [parserStatus_packHandle, hentry, Option.map_some, hbusy]
  rfl

/-- **A document's handle is valid exactly when a parser is busy with it.** -/
theorem Registry.Linked.docLive_iff (h : registry.Linked) :
    (∃ handle, registry.parserStatus handle = some (some doc)) ↔
      ∃ docSlot entry, DocLive registry doc docSlot entry := by
  constructor
  · rintro ⟨handle, hbusy⟩
    obtain ⟨slot, generation, docSlot, docGeneration, rfl, rfl, hb⟩ := parserStatus_busy hbusy
    obtain ⟨entry, hentry, _⟩ := (h _ _ _ _).mp hb
    obtain ⟨hslot, hfound, rfl⟩ := named_eq_some.mp hentry
    exact ⟨docSlot, entry, hslot, rfl, hfound⟩
  · rintro ⟨docSlot, entry, hlive⟩
    have howned : registry.OwnedBy docSlot entry.generation entry.ownerSlot entry.ownerGeneration :=
      ⟨entry, named_eq_some.mpr ⟨hlive.slot_ne, hlive.entry_eq, rfl⟩, rfl, rfl⟩
    rw [hlive.handle_eq]
    exact ⟨_, BusyWith.parserStatus ((h _ _ _ _).mpr howned)⟩

end

namespace Wrappers

/-! ## Handles -/

/-- What the parsers' handles are. -/
abbrev Handles := UInt64 → Option (Option UInt64)

/-- No two parsers are busy with one document. -/
def Handles.Separate (handles : Handles) : Prop :=
  ∀ parser parser' doc, handles parser = some (some doc) →
    handles parser' = some (some doc) → parser = parser'

/-- The call is on a handle that is valid for it, and has nothing else that it can fail for. -/
def NativeCall.Valid (handles : Handles) : NativeCall → Prop
  | .parserNew _ | .parserParse _ _ => False
  | .parserFree parser => handles parser = some none
  | .docRoot doc | .docFree doc => ∃ parser, handles parser = some (some doc)

/-- **What a native call does to the handles.** -/
inductive HandleStep (handles : Handles) : NativeCall → Wrappers.Reply → Handles → Prop where
  | parserNew {config : ParserConfig} {parser : UInt64} (hne : parser ≠ 0)
      (hnew : handles parser = none) :
      HandleStep handles (.parserNew config) (.ok parser)
        (Function.update handles parser (some none))
  | parserFree {parser reply : UInt64} (hidle : handles parser = some none) :
      HandleStep handles (.parserFree parser) (.ok reply) (Function.update handles parser none)
  | parserParse {parser doc : UInt64} {data : Bytes} (hidle : handles parser = some none)
      (hne : doc ≠ 0) (hnew : ∀ parser', handles parser' ≠ some (some doc)) :
      HandleStep handles (.parserParse parser data) (.ok doc)
        (Function.update handles parser (some (some doc)))
  | docRoot {doc reply : UInt64} (hlive : ∃ parser, handles parser = some (some doc)) :
      HandleStep handles (.docRoot doc) (.ok reply) handles
  | docFree {parser doc reply : UInt64} (hbusy : handles parser = some (some doc)) :
      HandleStep handles (.docFree doc) (.ok reply) (Function.update handles parser (some none))
  | failed {call : NativeCall} {rc : ErrorCode} (hinvalid : ¬ call.Valid handles) :
      HandleStep handles call (.error rc) handles

theorem HandleStep.doc_ne_zero {handles handles' : Handles} {parser doc : UInt64} {data : Bytes}
    (h : HandleStep handles (.parserParse parser data) (.ok doc) handles') : doc ≠ 0 := by
  cases h with
  | parserParse _ hne _ => exact hne

/-- A new parser has a handle of its own. -/
theorem HandleStep.new_spec {handles handles' : Handles} {config : ParserConfig} {parser : UInt64}
    (h : HandleStep handles (.parserNew config) (.ok parser) handles') : parser ≠ 0 ∧
      handles parser = none ∧ handles' = Function.update handles parser (some none) := by
  cases h with
  | parserNew hne hnew => exact ⟨hne, hnew, rfl⟩

theorem HandleStep.failed_spec {handles handles' : Handles} {call : NativeCall} {rc : ErrorCode}
    (h : HandleStep handles call (.error rc) handles') : handles' = handles := by
  cases h with
  | failed _ => rfl

theorem HandleStep.separate {handles handles' : Handles} {call : NativeCall} {reply : Reply}
    (h : HandleStep handles call reply handles') (hs : handles.Separate) : handles'.Separate := by
  -- one handle changes, to a status that no other has
  have hset (handle : UInt64) (status : Option (Option UInt64))
      (hnew : ∀ doc, status = some (some doc) → ∀ handle', handles handle' ≠ some (some doc)) :
      Handles.Separate (Function.update handles handle status) := by
    intro parser parser' doc hbusy hbusy'
    by_cases hp : parser = handle
    · subst hp
      rw [Function.update_self] at hbusy
      by_cases hp' : parser' = parser
      · exact hp'.symm
      · rw [Function.update_of_ne hp'] at hbusy'
        exact absurd hbusy' (hnew doc hbusy parser')
    · rw [Function.update_of_ne hp] at hbusy
      by_cases hp' : parser' = handle
      · subst hp'
        rw [Function.update_self] at hbusy'
        exact absurd hbusy (hnew doc hbusy' parser)
      · rw [Function.update_of_ne hp'] at hbusy'
        exact hs _ _ _ hbusy hbusy'
  cases h with
  | parserNew _ _ => exact hset _ (some none) fun doc heq => by cases heq
  | parserFree _ => exact hset _ none fun doc heq => by cases heq
  | parserParse _ _ hnew =>
    refine hset _ _ fun doc heq => ?_
    cases heq
    exact hnew
  | docFree _ => exact hset _ (some none) fun doc heq => by cases heq
  | docRoot _ => exact hs
  | failed _ => exact hs

/-- A native side that keeps handles. -/
structure HandleSide (ν : Type) extends NativeSide ν where
  handles : ν → Handles
  step : ∀ {call : NativeCall} {w w' : ν} {reply : Wrappers.Reply}, answers call w reply w' →
    HandleStep (handles w) call reply (handles w')

/-! ## The registry -/

/-- The exported function a wrapper calls. -/
def NativeCall.toCall : NativeCall → Call
  | .parserNew config => .parserNewConfigured config.maxCapacity.toNat config.maxDepth
  | .parserFree parser => .parserFree parser
  | .parserParse parser data => .parserParse parser data
  | .docRoot doc => .docRoot doc
  | .docFree doc => .docFree doc

/-- The status and the handle among the out-parameters. -/
def replyOf : Except ErrorCode PureSimdjson.Reply → Wrappers.Reply
  | .ok (.handle handle) => .ok handle
  | .ok _ => .ok 0
  | .error rc => .error rc

section
variable {W : Type} (native : Native W)

/-- The registry answers, and calls on valid handles succeed. -/
def RegistryAnswers (call : NativeCall) (s : Runtime W) (reply : Wrappers.Reply) (s' : Runtime W) :
    Prop :=
  ∃ result, Executes native s (call.toCall, result) s' ∧ reply = replyOf result ∧
    (call.Valid s.registry.parserStatus → ∃ handle, reply = .ok handle)

variable {native} {s s' : Runtime W}

/-- **The registry keeps its handles.** -/
theorem registry_handleStep (hsized : s.registry.Sized) (hlinked : s.registry.Linked)
    {call : NativeCall} {reply : Wrappers.Reply} (h : RegistryAnswers native call s reply s') :
    HandleStep s.registry.parserStatus call reply s'.registry.parserStatus := by
  obtain ⟨result, hexec, rfl, hvalid⟩ := h
  -- a call that fails leaves the handles as they are
  have hfailed {rc : ErrorCode} (hrc : result = .error rc)
      (hsame : s'.registry.parserStatus = s.registry.parserStatus) :
      HandleStep s.registry.parserStatus call (replyOf result) s'.registry.parserStatus := by
    subst hrc
    rw [hsame]
    refine .failed fun hv => ?_
    obtain ⟨handle, hok⟩ := hvalid hv
    cases hok
  cases call with
  | parserNew config =>
    rcases hexec.spec rfl (wp_parserNewConfigured_handle native _ _ hsized) with
      ⟨handle, rfl, slot, entry, rfl, hslot, hfilled, hidle, -⟩ | ⟨rc, hrc, hsame⟩
    · obtain ⟨hnew, hstatus⟩ := parserStatus_filled hslot hfilled
      rw [hstatus, hidle]
      exact .parserNew (packHandle_ne_zero hslot _) hnew
    · exact hfailed hrc (by rw [hsame])
  | parserFree parser =>
    rcases hexec.spec rfl (wp_parserFree native parser s) with
      ⟨_, rfl, slot, entry, hlive, hidle, hafter⟩ | ⟨rc, hrc, hsame⟩
    · have hstatus := hlive.parserStatus
      rw [hidle] at hstatus
      have hparsers : s'.registry.parsers = s.registry.parsers.set (slotIndex slot)
          (.vacant (nextParserGeneration entry.generation)) := by rw [hafter, Registry.setParser]
      rw [hlive.parserStatus_vacate hparsers]
      exact .parserFree hstatus
    · exact hfailed hrc (by rw [hsame])
  | parserParse parser data =>
    rcases hexec.spec rfl (wp_parserParse_handle native parser data hsized) with
      ⟨handle, rfl, slot, entry, docSlot, doc, rfl, hlive, hidle, hdocSlot,
        hfilled, -, -, -, hafter⟩ |
        ⟨rc, hrc, hsame | ⟨slot, entry, input, hlive, hidle, hafter⟩⟩
    · have hstatus := hlive.parserStatus
      rw [hidle] at hstatus
      rw [occupy, Registry.setParser] at hafter
      rw [hlive.parserStatus_set hafter rfl]
      refine .parserParse hstatus (packHandle_ne_zero hdocSlot _) fun parser' hbusy => ?_
      -- a document that is live already is in another slot
      obtain ⟨docSlot', entry', hdoc⟩ := hlinked.docLive_iff.mp ⟨parser', hbusy⟩
      obtain ⟨rfl, _⟩ := packHandle_inj.mp hdoc.handle_eq
      have hfound : named DocEntry.generation s.registry.docs docSlot entry'.generation =
          some entry' := named_eq_some.mpr ⟨hdoc.slot_ne, hdoc.entry_eq, rfl⟩
      cases (named_before_filled hfilled).symm.trans hfound
    · exact hfailed hrc (by rw [hsame])
    · refine hfailed hrc ?_
      have hparsers : s'.registry.parsers = s.registry.parsers.set (slotIndex slot)
          (.occupied { entry with reusableInput := input }) := by
        rw [hafter, refill, Registry.setParser]
      rw [hlive.parserStatus_set hparsers rfl]
      exact Function.update_eq_self_iff.mpr hlive.parserStatus.symm
  | docRoot doc =>
    have hwp : wp (docRoot native doc)
        (fun _ s' => s'.registry = s.registry ∧
          ∃ docSlot entry, DocLive s.registry doc docSlot entry)
        (fun _ s' => s'.registry = s.registry) s := by
      rw [docRoot, wp_bind, wp_getRegistry, wp_bind, wp_ofExcept]
      refine ⟨fun entry hentry => ?_, fun _ _ => rfl⟩
      obtain ⟨docSlot, hlive⟩ := docEntry_eq_ok.mp hentry
      rw [wp_bind, wp_callNative]
      exact wp_of_forall (fun _ _ => ⟨rfl, docSlot, entry, hlive⟩) fun _ _ => rfl
    rcases hexec.spec rfl hwp with ⟨view, rfl, hsame, hlive⟩ | ⟨rc, hrc, hsame⟩
    · rw [hsame]
      exact .docRoot (hlinked.docLive_iff.mpr hlive)
    · exact hfailed hrc (by rw [hsame])
  | docFree doc =>
    rcases hexec.spec rfl (wp_docFree native doc s) with
      ⟨_, rfl, docSlot, entry, slot, owner, hdoc, hpaired, hafter⟩ | ⟨rc, hrc, hsame⟩
    · have hlive : ParserLive s.registry (packHandle slot owner.generation) slot owner :=
        ⟨hpaired.slot_ne, rfl, hpaired.entry_eq⟩
      have hstatus := hlive.parserStatus
      rw [hpaired.busy, ParserState.doc, ← hdoc.handle_eq] at hstatus
      have hparsers : s'.registry.parsers = s.registry.parsers.set (slotIndex slot)
          (.occupied { owner with state := .idle, reusableInput := entry.inputStorage }) := by
        rw [hafter]
        rfl
      rw [hlive.parserStatus_set hparsers rfl]
      exact .docFree hstatus
    · exact hfailed hrc (by rw [hsame])

variable (native) in
/-- The registry in a reachable state, as the wrappers' native side. -/
def registrySide : HandleSide {s : Runtime W // Reachable native s} where
  answers call s reply s' := RegistryAnswers native call s.1 reply s'.1
  doc_ne_zero {_ _ _ w _} h :=
    (registry_handleStep w.2.sized w.2.linked h).doc_ne_zero
  handles s := s.1.registry.parserStatus
  step {_ w _ _} h := registry_handleStep w.2.sized w.2.linked h

end

end Wrappers

end PureSimdjson
