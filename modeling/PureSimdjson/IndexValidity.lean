import PureSimdjson.SampleDocument
import PureSimdjson.TapeSafety

/-!
# What the native side is asked

A native side can keep a log of the reads it is asked for.  Over the logged one, safety
says that every index in the log was the start of an element: were another index ever
asked for, nothing would be known about what followed.

The bridge over a simdjson that does its part is safe in this sense.
-/
namespace PureSimdjson

open Effect SlotTable Runs Json

/-- **What is assumed of the native side**: documents come and go as they should, and a
read at the start of an element is safe. -/
abbrev TapeSafe {W : Type} (native : Native W) (tape : W → Nat → Option Json) : Prop :=
  Respects native tape (fun _ => True) fun _ => False

section
variable {W : Type} {native : Native W} {tape : W → Nat → Option Json} {ptr : Nat} {root : Json}

theorem kept_of_eq {w w' : W} (h : tape w' = tape w) (hkept : tape w ptr = some root) :
    tape w' ptr = some root := by
  rw [h, hkept]

theorem leaves_keeping {α : Type} {call : NativeM W α}
    (hcall : Leaves tape (fun _ => True) call) :
    Leaves tape (fun w => tape w ptr = some root) call := by
  rintro t w ⟨rfl, hkept⟩
  refine wp_mono (hcall _ w ⟨rfl, trivial⟩) ?_ ?_
  · rintro a w' ⟨⟨htape, -⟩, -⟩
    exact ⟨⟨htape, kept_of_eq htape hkept⟩, trivial⟩
  · rintro rc w' ⟨htape, -⟩
    exact ⟨htape, kept_of_eq htape hkept⟩

/-- **A document stays what it is** while it is not freed. -/
theorem TapeSafe.keeping (h : TapeSafe native tape) :
    Respects native tape (fun w => tape w ptr = some root) (· = ptr) where
  parserNew := leaves_keeping h.parserNew
  parserNewConfigured _ _ := leaves_keeping (h.parserNewConfigured _ _)
  parserFree _ := leaves_keeping (h.parserFree _)
  parserResetDiagnostics _ := leaves_keeping (h.parserResetDiagnostics _)
  parserGetLastErrorLen _ := leaves_keeping (h.parserGetLastErrorLen _)
  parserCopyLastError _ _ _ _ := leaves_keeping (h.parserCopyLastError _ _ _ _)
  parserGetLastErrorOffset _ := leaves_keeping (h.parserGetLastErrorOffset _)
  parserGetLastErrorHasOffset _ := leaves_keeping (h.parserGetLastErrorHasOffset _)
  docRoot _ := leaves_keeping (h.docRoot _)
  elementType _ := leaves_keeping (h.elementType _)
  parserParse parser input inputLen w hkept := by
    refine wp_mono (h.parserParse parser input inputLen w trivial) ?_ ?_
    · rintro doc w' ⟨-, -, hnone, root', htape⟩
      have hne : ptr ≠ doc := by
        rintro rfl
        rw [hkept] at hnone
        cases hnone
      refine ⟨?_, hne.symm, hnone, root', htape⟩
      rw [htape, Function.update_of_ne hne]
      exact hkept
    · rintro rc w' ⟨-, htape⟩
      exact ⟨kept_of_eq htape hkept, htape⟩
  docFree doc w hkept := by
    refine wp_mono (h.docFree doc w trivial) ?_ ?_
    · rintro - w' ⟨-, htape⟩
      refine ⟨fun hne => ?_, htape⟩
      rw [htape, Function.update_of_ne (Ne.symm hne)]
      exact hkept
    · rintro rc w' ⟨-, htape⟩
      exact ⟨kept_of_eq htape hkept, htape⟩
  read read t doc j root' u ht hat := by
    rintro w ⟨rfl, hkept⟩
    refine wp_mono (h.read read _ doc j root' u ht hat w ⟨rfl, trivial⟩) ?_ ?_
    · rintro a w' ⟨⟨htape, -⟩, hsafe⟩
      exact ⟨⟨htape, kept_of_eq htape hkept⟩, hsafe⟩
    · rintro rc w' ⟨htape, -⟩
      exact ⟨htape, kept_of_eq htape hkept⟩
  leakBytes bytes w hkept :=
    have htape := (h.leakBytes bytes w trivial).1
    ⟨htape, kept_of_eq htape hkept⟩
  leakViews views w hkept :=
    have htape := (h.leakViews views w trivial).1
    ⟨htape, kept_of_eq htape hkept⟩
  dropBytes ptr len w hkept :=
    have htape := (h.dropBytes ptr len w trivial).1
    ⟨htape, kept_of_eq htape hkept⟩
  dropViews ptr len w hkept :=
    have htape := (h.dropViews ptr len w trivial).1
    ⟨htape, kept_of_eq htape hkept⟩

end

/-! ## The log -/

/-- A read of the element at an index, and the state it was made in. -/
structure Query (W : Type) where
  world : W
  doc : Nat
  jsonIndex : Nat

/-- The document is there, and the index is the start of an element of it, between the
root word and the end of the root. -/
def Query.Valid {W : Type} (tape : W → Nat → Option Json) (q : Query W) : Prop :=
  ∃ root u, tape q.world q.doc = some root ∧ root.At q.jsonIndex u ∧
    1 ≤ q.jsonIndex ∧ q.jsonIndex < 1 + root.width

section
variable {W : Type}

/-- A call that is not a read. -/
def quiet {α : Type} (call : NativeM W α) : NativeM (W × List (Query W)) α :=
  zoom Prod.fst (fun s w => (w, s.2)) call

/-- The same native side, with a log of the reads. -/
def Native.logged (native : Native W) : Native (W × List (Query W)) where
  paddingBytes := native.paddingBytes
  parserNew := quiet native.parserNew
  parserNewConfigured maxCapacity maxDepth :=
    quiet (native.parserNewConfigured maxCapacity maxDepth)
  parserFree parser := quiet (native.parserFree parser)
  parserResetDiagnostics parser := quiet (native.parserResetDiagnostics parser)
  parserParse parser input inputLen := quiet (native.parserParse parser input inputLen)
  parserGetLastErrorLen parser := quiet (native.parserGetLastErrorLen parser)
  parserCopyLastError parser dst dstCap outWritten :=
    quiet (native.parserCopyLastError parser dst dstCap outWritten)
  parserGetLastErrorOffset parser := quiet (native.parserGetLastErrorOffset parser)
  parserGetLastErrorHasOffset parser := quiet (native.parserGetLastErrorHasOffset parser)
  docRoot doc := quiet (native.docRoot doc)
  docFree doc := quiet (native.docFree doc)
  elementType element := quiet (native.elementType element)
  read read doc jsonIndex := do
    modify fun s => (s.1, ⟨s.1, doc, jsonIndex⟩ :: s.2)
    quiet (native.read read doc jsonIndex)
  memory s := native.memory s.1
  leakBytes bytes s := ((native.leakBytes bytes s.1).1, (native.leakBytes bytes s.1).2, s.2)
  leakViews views s := ((native.leakViews views s.1).1, (native.leakViews views s.1).2, s.2)
  dropBytes ptr len s := (native.dropBytes ptr len s.1, s.2)
  dropViews ptr len s := (native.dropViews ptr len s.1, s.2)

/-- Every index in the log was valid. -/
def LogValid (tape : W → Nat → Option Json) (s : W × List (Query W)) : Prop :=
  ∀ q ∈ s.2, q.Valid tape

variable {native : Native W} {tape : W → Nat → Option Json}

theorem maintains_quiet {α : Type} {t : Nat → Option Json} {call : NativeM W α} {Q : α → Prop}
    (h : Maintains (fun w => tape w = t ∧ True) call Q) :
    Maintains (fun s => tape s.1 = t ∧ LogValid tape s) (quiet call) Q :=
  h.zoom (fun _ hs => ⟨hs.1, trivial⟩) fun _ _ hs hw => ⟨hw.1, hs.2⟩

/-- **A log is kept of valid reads only**, when all that is known is that those are
safe. -/
theorem TapeSafe.logged (h : TapeSafe native tape) :
    Respects native.logged (fun s => tape s.1) (LogValid tape) fun _ => False where
  parserNew t := maintains_quiet (h.parserNew t)
  parserNewConfigured _ _ t := maintains_quiet (h.parserNewConfigured _ _ t)
  parserFree _ t := maintains_quiet (h.parserFree _ t)
  parserResetDiagnostics _ t := maintains_quiet (h.parserResetDiagnostics _ t)
  parserGetLastErrorLen _ t := maintains_quiet (h.parserGetLastErrorLen _ t)
  parserCopyLastError _ _ _ _ t := maintains_quiet (h.parserCopyLastError _ _ _ _ t)
  parserGetLastErrorOffset _ t := maintains_quiet (h.parserGetLastErrorOffset _ t)
  parserGetLastErrorHasOffset _ t := maintains_quiet (h.parserGetLastErrorHasOffset _ t)
  docRoot _ t := maintains_quiet (h.docRoot _ t)
  elementType _ t := maintains_quiet (h.elementType _ t)
  parserParse parser input inputLen s hs := by
    refine (wp_zoom ..).mpr (wp_mono (h.parserParse parser input inputLen s.1 trivial) ?_ ?_)
    · rintro doc w ⟨-, hnew⟩
      exact ⟨hs, hnew⟩
    · rintro rc w ⟨-, hsame⟩
      exact ⟨hs, hsame⟩
  docFree doc s hs := by
    refine (wp_zoom ..).mpr (wp_mono (h.docFree doc s.1 trivial) ?_ ?_)
    · rintro - w ⟨-, hgone⟩
      exact ⟨fun _ => hs, hgone⟩
    · rintro rc w ⟨-, hsame⟩
      exact ⟨hs, hsame⟩
  read read t doc j root u ht hat := by
    rintro s ⟨rfl, hs⟩
    show wp (modify _ >>= _) _ _ s
    rw [wp_bind, wp_modify]
    refine maintains_quiet (h.read read _ doc j root u ht hat) _ ⟨rfl, ?_⟩
    intro q hq
    rcases List.mem_cons.mp hq with rfl | hq
    · exact ⟨root, u, ht, hat, hat.range.1, hat.lt⟩
    · exact hs q hq
  leakBytes bytes s hs := ⟨(h.leakBytes bytes s.1 trivial).1, hs⟩
  leakViews views s hs := ⟨(h.leakViews views s.1 trivial).1, hs⟩
  dropBytes ptr len s hs := ⟨(h.dropBytes ptr len s.1 trivial).1, hs⟩
  dropViews ptr len s hs := ⟨(h.dropViews ptr len s.1 trivial).1, hs⟩

end

/-! ## The bridge -/

section
variable {W : Type} {sj : Simdjson W} {base : Native W} {tape : W → Nat → Option Json}

theorem maintains_getOrReturn {σ α : Type} {I : σ → Prop} (result : Except SimdjsonError α) :
    Maintains I (getOrReturn result : EStateM ErrorCode σ α) fun a => result = .ok a := by
  cases result with
  | ok a => exact Maintains.pure rfl
  | error error => exact Maintains.throw _

theorem maintains_psimdjsonMaterializeBuild {I : W → Prop} (held : Bool) (dom : Dom Nat)
    (j : Nat) : Maintains I (psimdjsonMaterializeBuild held dom j) fun _ => True := by
  refine Maintains.ite (fun _ => Maintains.throw _) fun _ => ?_
  split
  · rename_i frames _
    intro w hw
    rw [wp_orInternal]
    exact ⟨fun _ => ⟨hw, trivial⟩, fun _ => hw⟩
  · exact Maintains.throw _

/-- A read the bridge makes at the start of an element is safe. -/
theorem maintains_readElement (hsj : sj.Faithful base.memory tape) {α : Type}
    (read : ElementRead α) {w : W} {doc j : Nat} {root u : Json} {I : W → Prop}
    (hroot : tape w doc = some root) (hat : root.At j u) :
    Maintains I (readElement sj (sj.document w doc) w doc j read) (ReadSafe root j u read) := by
  have hafter := hsj.after w doc root j u hroot hat
  have htype := hsj.tapeType w doc root j u hroot hat
  have any {β : Type} {call : NativeM W β} {R : β → Prop} (hcall : Maintains I call R) :
      Maintains I call fun _ => True := hcall.mono fun _ _ => trivial
  cases read with
  | elementTypeAt => exact Maintains.pure trivial
  | elementGetInt64At => exact any (maintains_getOrReturn _)
  | elementGetUint64At => exact any (maintains_getOrReturn _)
  | elementGetFloat64At => exact any (maintains_getOrReturn _)
  | elementGetStringView => exact (any (maintains_getOrReturn _)).map
  | elementGetBigintView => exact (any (maintains_getOrReturn _)).map
  | elementGetBoolAt => exact any (maintains_getOrReturn _)
  | elementIsNullAt => exact Maintains.pure trivial
  | elementAfterIndex => exact Maintains.pure hafter
  | arrayIterBounds =>
    refine (Maintains.require _ _).bind fun _ hkind => Maintains.pure ?_
    rw [htype] at hkind
    cases u with
    | array items =>
      refine ⟨items, rfl, ?_⟩
      rw [hafter, width]
      exact Prod.ext rfl (by simp only; omega)
    | _ => cases hkind
  | objectIterBounds =>
    refine (Maintains.require _ _).bind fun _ hkind => Maintains.pure ?_
    rw [htype] at hkind
    cases u with
    | object fields =>
      refine ⟨fields, rfl, ?_⟩
      rw [hafter, width]
      exact Prod.ext rfl (by simp only; omega)
    | _ => cases hkind
  | objectGetFieldIndex key =>
    refine (maintains_getOrReturn _).bind fun _ _ => (maintains_getOrReturn _).mono fun k hk => ?_
    exact hsj.atKey w doc root j u key k hroot hat hk
  | arrayAtIndex index =>
    refine (maintains_getOrReturn _).bind fun _ _ => (maintains_getOrReturn _).mono fun k hk => ?_
    exact hsj.atIndex w doc root j u index k hroot hat hk
  | arraySize => exact (maintains_getOrReturn _).bind fun _ _ => any (maintains_getOrReturn _)
  | objectSize => exact (maintains_getOrReturn _).bind fun _ _ => any (maintains_getOrReturn _)
  | elementAtPointerIndex pointer =>
    refine (maintains_getOrReturn _).mono fun k hk => ?_
    exact hsj.atPointer w doc root j u pointer k hroot hat hk
  | elementAtPathIndex path =>
    refine (maintains_getOrReturn _).mono fun k hk => ?_
    exact hsj.atPath w doc root j u path k hroot hat hk
  | elementAtPathWildcardIndices path =>
    rw [readElement]
    split
    · exact Maintains.throw _
    · refine (Maintains.ofExcept _).mono fun ks hks => ?_
      refine traverseWildcardPath_forall (P := fun k => ∃ v, root.At k v) ?_ ?_ ⟨u, hat⟩ hks
      · rintro k path k' ⟨v, hv⟩ hk'
        exact hsj.atPath w doc root k v path k' hroot hv hk'
      · rintro k path found ⟨v, hv⟩ hfound
        exact hsj.atPathWithWildcard w doc root k v path found hroot hv hfound
  | materializeBuild => exact maintains_psimdjsonMaterializeBuild false _ j
  | testHoldMaterializeGuard =>
    exact (maintains_psimdjsonMaterializeBuild true _ j).bind fun _ _ => Maintains.pure trivial

/-- **The bridge is safe** over a simdjson that does its part. -/
theorem bridge_tapeSafe (hbase : Lifecycle base tape (fun _ => True) fun _ => False)
    (hsj : sj.Faithful base.memory tape) : TapeSafe (bridge sj base) tape where
  toLifecycle := ⟨hbase.parserNew, hbase.parserNewConfigured, hbase.parserFree,
    hbase.parserResetDiagnostics, hbase.parserGetLastErrorLen, hbase.parserCopyLastError,
    hbase.parserGetLastErrorOffset, hbase.parserGetLastErrorHasOffset, hbase.docRoot,
    hbase.elementType, hbase.parserParse, hbase.docFree, hbase.leakBytes, hbase.leakViews,
    hbase.dropBytes, hbase.dropViews⟩
  read read t doc j root u ht hat := by
    rintro w ⟨rfl, -⟩
    show wp (bridgeRead sj read doc j) _ _ w
    rw [bridgeRead, wp_ite]
    refine ⟨fun _ => ⟨rfl, trivial⟩, fun _ => ?_⟩
    rw [wp_bind, wp_get]
    exact maintains_readElement hsj read ht hat w ⟨rfl, trivial⟩

end

/-! ## The sample -/

theorem sample_lifecycle :
    Lifecycle sampleBase SampleWorld.tape (fun _ => True) fun _ => False where
  parserNew _ := Maintains.pure trivial
  parserNewConfigured _ _ _ := Maintains.pure trivial
  parserFree _ _ := Maintains.pure trivial
  parserResetDiagnostics _ _ := Maintains.pure trivial
  parserGetLastErrorLen _ _ := Maintains.pure trivial
  parserCopyLastError _ _ _ _ _ := Maintains.pure trivial
  parserGetLastErrorOffset _ _ := Maintains.pure trivial
  parserGetLastErrorHasOffset _ _ := Maintains.pure trivial
  docRoot _ _ := Maintains.pure trivial
  elementType _ _ := Maintains.pure trivial
  parserParse parser input inputLen w _ := by
    have hnew : w.docs.sup id + 1 ∉ w.docs := by
      intro hmem
      have : w.docs.sup id + 1 ≤ w.docs.sup id := Finset.le_sup (f := id) hmem
      omega
    refine ⟨trivial, not_false, ?_, sampleDocument, ?_⟩
    · simp [SampleWorld.tape, hnew]
    · funext doc
      by_cases heq : doc = w.docs.sup id + 1
      · subst heq
        simp [SampleWorld.tape]
      · simp [SampleWorld.tape, heq]
  docFree doc w _ := by
    refine ⟨fun _ => trivial, ?_⟩
    funext doc'
    by_cases heq : doc' = doc
    · subst heq
      simp [SampleWorld.tape]
    · simp [SampleWorld.tape, heq]
  leakBytes _ _ _ := ⟨rfl, trivial⟩
  leakViews _ _ _ := ⟨rfl, trivial⟩
  dropBytes _ _ _ _ := ⟨rfl, trivial⟩
  dropViews _ _ _ _ := ⟨rfl, trivial⟩

theorem sample_tapeSafe : TapeSafe sampleNative SampleWorld.tape :=
  bridge_tapeSafe sample_lifecycle sample_faithful

/-- The root of the sample, as a view. -/
def sampleRoot : ValueView := ⟨sampleDoc, 1, rootViewTag, ValueKind.object.code, 0⟩

/-- An iterator of its fields. -/
def sampleIter : Iter := ⟨sampleDoc, 2, 11, 1, objectIterTag, 0⟩

/-- A run that makes the iterator and uses it once. -/
def sampleEvents : List Event :=
  [(.parserNew, .ok (.handle sampleParser)),
    (.parserParse sampleParser sampleText, .ok (.handle sampleDoc)),
    (.objectIterNew (some sampleRoot), .ok (.iter sampleIter)),
    (.objectIterNext (some sampleIter), .ok (.objectStep ⟨{ sampleIter with state0 := 8 },
      ⟨sampleDoc, 2, descViewTag, ValueKind.string.code, 0⟩,
      ⟨sampleDoc, 3, descViewTag, ValueKind.array.code, 0⟩, false⟩))]

/-! ## Every index that is asked for -/

/-- **Index validity.**  In every run, whatever views and iterators the callers make up:
every index the native side was asked to read was the start of an element of a document
that was there, at least 1 and before the end of the root; every index a live document
has issued is the start of an element of its tape, and every lease stands at a child
boundary of a container of its tape and ends where the container does. -/
theorem index_validity {W : Type} {native : Native W} {tape : W → Nat → Option Json}
    (hsafe : TapeSafe native tape) {w : W} {events : List Event}
    {s : Runtime (W × List (Query W))}
    (hrun : Run (Executes native.logged) ⟨Registry.empty, (w, [])⟩ events s) :
    (∀ q ∈ s.native.2, q.Valid tape) ∧
      ∀ (i : Nat) (entry : DocEntry), s.registry.docs[i]? = some (.occupied entry) →
        ∃ root, tape s.native.1 entry.nativePtr = some root ∧ DocOk root entry := by
  have hnone : LogValid tape (w, []) := List.forall_mem_nil _
  have hs := safe_of_run hsafe.logged hnone hrun
  exact ⟨hs.inv, hs.docs.entries⟩

theorem index_validity_sample : ∃ s : Runtime (SampleWorld × List (Query SampleWorld)),
    Run (Executes sampleNative.logged) ⟨Registry.empty, (.empty, [])⟩ sampleEvents s ∧
      s.native.2.map Query.jsonIndex = [3, 3, 2, 2, 1, 1, 1] ∧
      ((∀ q ∈ s.native.2, q.Valid SampleWorld.tape) ∧
        ∀ (i : Nat) (entry : DocEntry), s.registry.docs[i]? = some (.occupied entry) →
          ∃ root, s.native.1.tape entry.nativePtr = some root ∧ DocOk root entry) := by
  have hrun : ∃ s,
      Run (Executes sampleNative.logged) ⟨Registry.empty, (.empty, [])⟩ sampleEvents s ∧
      s.native.2.map Query.jsonIndex = [3, 3, 2, 2, 1, 1, 1] :=
    ⟨_, .cons rfl (.cons rfl (.cons rfl (.cons rfl (.nil _)))), rfl⟩
  obtain ⟨s, hrun, hlog⟩ := hrun
  exact ⟨s, hrun, hlog, index_validity sample_tapeSafe hrun⟩

end PureSimdjson
