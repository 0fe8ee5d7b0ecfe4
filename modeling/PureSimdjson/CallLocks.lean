import PureSimdjson.LockOrder

/-!
# What the calls do with locks

The scripts of the package's calls, of its finalizers, of the bootstrap and of the native
calls below them.  A branch stands for each test of data: an early return, an error, a value
that is cached.  How many blocks a native call allocates and frees, and how many native calls
a walk makes, are parameters.  Each call takes locks in one order, so that no interleaving of
them deadlocks (`calls_return`).
-/
namespace PureSimdjson.Locks

open Runs Locking

/-- What the first caller who needs it sets up while the others wait: the `OnceLock`s, and the
statics of `implementation_selection_state` and `telemetry_state`. -/
inductive Cell where
  | testForcedImplementationOverride
  | forcedImplementationName
  | testFallbackAllowedOverride
  | fallbackAllowed
  | registry
  | implementationSelectionState
  | telemetryState
deriving DecidableEq

/-- The locks of the process.  Parsers and documents have one each, and an artifact's cache
directory has one on disk. -/
inductive Lock (P D F : Type) where
  | kernelMu
  | docMu (d : D)
  | parserMu (p : P)
  | artifactLock (f : F)
  | libraryMu
  | failureCacheMu
  | fallbackWarningOnce
  | setUp (cell : Cell)
  | forcedImplementationOverride
  | fallbackAllowedOverride
  | registry
  | selectionMutex
  | telemetryMutex
deriving DecidableEq

/-- A cell ranks with the lock that is in it, or is taken after it. -/
def Cell.rank : Cell → Nat
  | .telemetryState => 5
  | .implementationSelectionState => 4
  | _ => 3

/-- The order in which locks are taken. -/
def Lock.rank {P D F : Type} : Lock P D F → Nat
  | .kernelMu => 0
  | .docMu _ | .parserMu _ | .artifactLock _ => 1
  | .libraryMu | .failureCacheMu | .fallbackWarningOnce => 2
  | .setUp cell => cell.rank
  | .forcedImplementationOverride | .fallbackAllowedOverride | .registry => 3
  | .selectionMutex => 4
  | .telemetryMutex => 5

variable {P D F : Type}

open Script

/-! ## Native calls -/

/-- `get_or_init`, or a C++ function's static: whoever comes first sets the cell up. -/
def getOrInit (cell : Cell) : Script (Lock P D F) := branch .done (locked (.setUp cell) .done)

/-- Each function of the telemetry takes its mutex once. -/
def telemetrySection : Script (Lock P D F) :=
  (getOrInit .telemetryState).then (locked .telemetryMutex .done)

/-- `record_allocation` and `remove_allocation`, so many times. -/
def allocations (n : Nat) : Script (Lock P D F) := times n telemetrySection

/-- `registry_guard`, and what is done with the registry in hand. -/
def withRegistry (n : Nat) : Script (Lock P D F) :=
  (getOrInit .registry).then (locked .registry (allocations n))

/-- A native call with the registry in hand.  Most return before they are there, if an argument
is missing. -/
def registryCall (n : Nat) : Script (Lock P D F) := branch .done (withRegistry n)

/-- What is done with the implementation selection in hand. -/
def withSelection (n : Nat) : Script (Lock P D F) :=
  (getOrInit .implementationSelectionState).then (locked .selectionMutex (allocations n))

/-- `forced_implementation_name_for_parser_new` -/
def forcedImplementationNameForParserNew : Script (Lock P D F) :=
  (getOrInit .testForcedImplementationOverride).then <|
    (locked .forcedImplementationOverride .done).then <|
      branch .done (getOrInit .forcedImplementationName)

/-- `fallback_allowed_for_tests` -/
def fallbackAllowedForTests : Script (Lock P D F) :=
  (getOrInit .testFallbackAllowedOverride).then <|
    (locked .fallbackAllowedOverride .done).then <|
      branch .done (getOrInit .fallbackAllowed)

/-- `reject_fallback_implementation` -/
def rejectFallbackImplementation : Script (Lock P D F) :=
  forcedImplementationNameForParserNew.then (branch .done fallbackAllowedForTests)

/-- `pure_simdjson_parser_new_configured`.  The parser is made before the registry is taken, and
is freed with the registry in hand if there is no slot. -/
def parserNewConfigured (made listed : Nat) : Script (Lock P D F) :=
  rejectFallbackImplementation.then <|
    branch .done ((withSelection made).then (branch .done (withRegistry listed)))

/-- `pure_simdjson_minify` and `pure_simdjson_validate_utf8`, whose scan is after the selection
is given back. -/
def utilityCall (checked scanned : Nat) : Script (Lock P D F) :=
  rejectFallbackImplementation.then <|
    branch .done ((withSelection checked).then (branch .done (allocations scanned)))

/-- `pure_simdjson_set_implementation` and `pure_simdjson_lock_implementation_selection` -/
def setImplementation (n : Nat) : Script (Lock P D F) := branch .done (withSelection n)

/-- `Bindings.ImplementationName`, which asks for the length first. -/
def implementationName (len copy : Nat) : Script (Lock P D F) :=
  (allocations len).then (branch .done (allocations copy))

/-- `pure_simdjson_native_alloc_stats_reset` and `..._snapshot` -/
def nativeAllocStats : Script (Lock P D F) := branch .done telemetrySection

/-- `test_set_forced_implementation_override` and `test_set_fallback_allowed_override` -/
def testOverrides : Script (Lock P D F) :=
  branch
    ((getOrInit .testForcedImplementationOverride).then
      (locked .forcedImplementationOverride .done))
    ((getOrInit .testFallbackAllowedOverride).then (locked .fallbackAllowedOverride .done))

/-! ## Bootstrap and library loading -/

/-- `ensureArtifact`.  `withProcessFileLock` asks for the lock until it has it, or until the
context ends. -/
def ensureArtifact (f : F) : Script (Lock P D F) :=
  branch .done (branch .done (locked (.artifactLock f) .done))

/-- `BootstrapSync` -/
def bootstrapSync (f : F) : Script (Lock P D F) :=
  branch .done <|
    -- `peek`
    (locked .failureCacheMu .done).then <|
      branch .done <|
        (ensureArtifact f).then
          -- `record` or `forget`
          (locked .failureCacheMu .done)

/-- `resolveLibraryPath` -/
def resolveLibraryPath (f : F) : Script (Lock P D F) := branch .done (bootstrapSync f)

/-- `activeLibrary` -/
def activeLibrary (f : F) (len copy : Nat) : Script (Lock P D F) :=
  (locked .libraryMu .done).then <|
    branch .done <|
      (resolveLibraryPath f).then <|
        -- what cannot be resolved, loaded, probed or bound is an error
        branch .done <|
          (implementationName len copy).then <|
            branch .done (locked .libraryMu .done)

/-! ## Parsers, pools and documents

`work` is how much the native calls allocate and free, in the order of the calls. -/

/-- `newParserWithConfig` -/
def newParserWithConfig (f : F) (work : Nat → Nat) : Script (Lock P D F) :=
  written .kernelMu <|
    (activeLibrary f (work 0) (work 1)).then <|
      branch .done (parserNewConfigured (work 2) (work 3))

/-- `NewParser` -/
def newParser (f : F) (work : Nat → Nat) : Script (Lock P D F) :=
  branch .done (newParserWithConfig f work)

/-- `wrapParserStatus`: `ParserLastError`, which makes two calls, `ParserLastErrorOffset` and
`ParserLastErrorHasOffset`. -/
def wrapParserStatus (work : Nat → Nat) : Script (Lock P D F) :=
  branch .done <|
    (registryCall (work 0)).then <|
      (branch .done (registryCall (work 1))).then <|
        (registryCall (work 2)).then (registryCall (work 3))

/-- `Parser.Parse` -/
def parserParse (p : P) (work : Nat → Nat) : Script (Lock P D F) :=
  locked (.parserMu p) <|
    branch .done <|
      (registryCall (work 0)).then <|
        (wrapParserStatus fun i => work (i + 1)).then <|
          branch .done <|
            -- `DocRoot`, and `DocFree` if that fails
            (registryCall (work 5)).then (branch .done (registryCall (work 6)))

/-- `Parser.Close` -/
def parserClose (p : P) (work : Nat → Nat) : Script (Lock P D F) :=
  locked (.parserMu p) (branch .done (registryCall (work 0)))

/-- `Parser.clearLiveDoc`, and `hasLeakedState`, which returns after it if nothing leaked. -/
def parserSection (p : P) : Script (Lock P D F) := locked (.parserMu p) .done

/-- The finalizer of a parser: `hasLeakedState` and `finalizeLeaked`, which calls native code
without the lock. -/
def finalizeParser (p : P) (work : Nat → Nat) : Script (Lock P D F) :=
  (parserSection p).then <|
    branch .done <|
      .lock (.parserMu p) <|
        .branch (.unlock (.parserMu p) .done) <|
          .unlock (.parserMu p) <|
            (branch .done (registryCall (work 0))).then <|
              (branch .done (registryCall (work 1))).then (parserSection p)

/-- `Doc.Close`.  The parser's lock is taken after the document's is given back. -/
def docClose (d : D) (p : P) (work : Nat → Nat) : Script (Lock P D F) :=
  .lock (.docMu d) <|
    .branch (.unlock (.docMu d) .done) <|
      (registryCall (work 0)).then <|
        .branch (.unlock (.docMu d) .done) <|
          .unlock (.docMu d) (parserSection p)

/-- `Doc.hasLeakedState` -/
def docSection (d : D) : Script (Lock P D F) := locked (.docMu d) .done

/-- The finalizer of a document. -/
def finalizeDoc (d : D) (p : P) (work : Nat → Nat) : Script (Lock P D F) :=
  (docSection d).then <|
    branch .done <|
      .lock (.docMu d) <|
        .branch (.unlock (.docMu d) .done) <|
          .unlock (.docMu d) <|
            (registryCall (work 0)).then <|
              (docSection d).then (branch .done (parserSection p))

/-- `NewParserPool` -/
def newParserPool : Script (Lock P D F) := branch .done (written .kernelMu .done)

/-- `ParserPool.Get` -/
def poolGet (f : F) (work : Nat → Nat) : Script (Lock P D F) :=
  branch .done (newParserWithConfig f work)

/-- `ParserPool.Put` -/
def poolPut (p : P) : Script (Lock P D F) := branch .done (locked (.parserMu p) .done)

/-! ## Elements -/

/-- `Doc.isClosed` -/
def docIsClosed (d : D) : Script (Lock P D F) := trying (.docMu d) .done .done

/-- An accessor or an iterator's step: `usableDoc` and some native calls, `BytesFree` and
`ValueViewsFree` among them. -/
def accessor (d : D) (work : List Nat) : Script (Lock P D F) :=
  (docIsClosed d).then (branch .done (seq (work.map registryCall)))

/-- `materializeElementViaAccessors`, and every other walk through elements. -/
def accessorWalk (d : D) (walk : List (List Nat)) : Script (Lock P D F) :=
  seq (walk.map (accessor d))

/-- `fastMaterializeElement` -/
def fastMaterializeElement (d : D) (n : Nat) (walk : List (List Nat)) : Script (Lock P D F) :=
  (docIsClosed d).then <|
    branch .done <|
      trying (.docMu d)
        (branch .done <|
          branch
            ((branch .done (locked .fallbackWarningOnce .done)).then (accessorWalk d walk))
            (registryCall n))
        .done

/-! ## Kernel selection -/

/-- `Kernel` -/
def kernel (len copy : Nat) : Script (Lock P D F) :=
  reading .kernelMu <|
    (locked .libraryMu .done).then (branch .done (implementationName len copy))

/-- `SetKernel` -/
def setKernel (f : F) (work : Nat → Nat) : Script (Lock P D F) :=
  written .kernelMu <|
    branch .done <|
      .await <|
        branch .done <|
          (activeLibrary f (work 0) (work 1)).then <|
            branch .done <|
              (setImplementation (work 2)).then <|
                branch .done <|
                  (implementationName (work 3) (work 4)).then <|
                    branch .done (locked .libraryMu .done)

/-- `beginUtilityKernel`, up to the hook. -/
def beginUtilityKernel : Script (Lock P D F) := written .kernelMu (.reserve .done)

/-- `cancel`, and `finish` before it, which marks the selection in the same section. -/
def releaseUtilityKernel (released : Bool) : Script (Lock P D F) :=
  written .kernelMu (if released then .done else .release .done)

/-- `MinifyInto` and `ValidateUTF8`.  Where the hook panics or there is no library, the
reservation is released by `cancel`; otherwise by `finish`, and the deferred `cancel` finds it
released. -/
def utility (f : F) (work : Nat → Nat) : Script (Lock P D F) :=
  branch .done <|
    beginUtilityKernel.then <|
      branch (releaseUtilityKernel false) <|
        (activeLibrary f (work 0) (work 1)).then <|
          branch (releaseUtilityKernel false) <|
            (utilityCall (work 2) (work 3)).then <|
              (releaseUtilityKernel false).then (releaseUtilityKernel true)

/-! ## All calls -/

/-- The calls. -/
inductive Entry (P D F : Type) where
  | newParser (f : F) (work : Nat → Nat)
  | parse (p : P) (work : Nat → Nat)
  | closeParser (p : P) (work : Nat → Nat)
  | finalizeParser (p : P) (work : Nat → Nat)
  | closeDoc (d : D) (p : P) (work : Nat → Nat)
  | finalizeDoc (d : D) (p : P) (work : Nat → Nat)
  | newParserPool
  | poolGet (f : F) (work : Nat → Nat)
  | poolPut (p : P)
  | accessorWalk (d : D) (walk : List (List Nat))
  | fastMaterialize (d : D) (n : Nat) (walk : List (List Nat))
  | kernel (len copy : Nat)
  | setKernel (f : F) (work : Nat → Nat)
  | utility (f : F) (work : Nat → Nat)
  | bootstrapSync (f : F)
  -- the native library's own interface
  | native (n : Nat)
  | nativeParserNew (made listed : Nat)
  | nativeUtility (checked scanned : Nat)
  | nativeSelection (n : Nat)
  -- the calls about the implementation's name, and those that take no lock of their own
  | nativeName (n : Nat)
  | nativeAllocStats
  | testOverrides

/-- What a call does with locks. -/
def Entry.script : Entry P D F → Script (Lock P D F)
  | .newParser f work => Locks.newParser f work
  | .parse p work => parserParse p work
  | .closeParser p work => parserClose p work
  | .finalizeParser p work => Locks.finalizeParser p work
  | .closeDoc d p work => docClose d p work
  | .finalizeDoc d p work => Locks.finalizeDoc d p work
  | .newParserPool => Locks.newParserPool
  | .poolGet f work => Locks.poolGet f work
  | .poolPut p => Locks.poolPut p
  | .accessorWalk d walk => Locks.accessorWalk d walk
  | .fastMaterialize d n walk => fastMaterializeElement d n walk
  | .kernel len copy => Locks.kernel len copy
  | .setKernel f work => Locks.setKernel f work
  | .utility f work => Locks.utility f work
  | .bootstrapSync f => Locks.bootstrapSync f
  | .native n => registryCall n
  | .nativeParserNew made listed => parserNewConfigured made listed
  | .nativeUtility checked scanned => utilityCall checked scanned
  | .nativeSelection n => setImplementation n
  | .nativeName n => allocations n
  | .nativeAllocStats => Locks.nativeAllocStats
  | .testOverrides => Locks.testOverrides

/-! ## The order -/

section
variable [DecidableEq P] [DecidableEq D] [DecidableEq F] {hand : Hand (Lock P D F)}
  {l : Lock P D F} {n m : Nat}

/-- All that is in hand ranks below `n`. -/
def Under (n : Nat) (hand : Hand (Lock P D F)) : Prop :=
  ∀ k ∈ hand.written ++ hand.read, k.rank < n

/-- A script gives back what it takes, wherever all in hand ranks below `n`. -/
def TakesFrom (n : Nat) (s : Script (Lock P D F)) : Prop :=
  ∀ hand : Hand (Lock P D F), Under n hand → s.Leads Lock.rank .kernelMu hand hand

omit [DecidableEq P] [DecidableEq D] [DecidableEq F] in
theorem Under.below (h : Under n hand) (hle : n ≤ l.rank) : hand.Below Lock.rank l :=
  fun k hk => lt_of_lt_of_le (h k hk) hle

omit [DecidableEq P] [DecidableEq D] [DecidableEq F] in
theorem Under.write (h : Under n hand) (hle : n ≤ m) (hlt : l.rank < m) :
    Under m { hand with written := l :: hand.written } := by
  intro k hk
  rcases List.mem_cons.mp hk with rfl | hk
  · exact hlt
  · exact lt_of_lt_of_le (h k hk) hle

theorem TakesFrom.mono {s : Script (Lock P D F)} (h : TakesFrom m s) (hle : n ≤ m) :
    TakesFrom n s :=
  fun hand hunder => h hand fun k hk => lt_of_lt_of_le (hunder k hk) hle

theorem TakesFrom.done : TakesFrom n (.done : Script (Lock P D F)) := fun _ _ => rfl

theorem TakesFrom.then {a b : Script (Lock P D F)} (ha : TakesFrom n a) (hb : TakesFrom n b) :
    TakesFrom n (a.then b) :=
  fun hand hunder => (ha hand hunder).then (hb hand hunder)

theorem TakesFrom.branch {a b : Script (Lock P D F)} (ha : TakesFrom n a)
    (hb : TakesFrom n b) : TakesFrom n (Script.branch a b) :=
  fun hand hunder => (ha hand hunder).branch (hb hand hunder)

theorem TakesFrom.optional {a : Script (Lock P D F)} (ha : TakesFrom n a) :
    TakesFrom n (Script.branch .done a) := .branch .done ha

theorem TakesFrom.seq {ss : List (Script (Lock P D F))} (h : ∀ s ∈ ss, TakesFrom n s) :
    TakesFrom n (Script.seq ss) :=
  fun _ hunder => .seq fun s hs => h s hs _ hunder

theorem TakesFrom.locked {a : Script (Lock P D F)} (hle : n ≤ l.rank)
    (ha : TakesFrom (l.rank + 1) a) : TakesFrom n (Script.locked l a) :=
  fun _ hunder => .locked (hunder.below hle)
    (ha _ (hunder.write (Nat.le_succ_of_le hle) (Nat.lt_succ_self _)))

theorem TakesFrom.section (hle : n ≤ l.rank) :
    TakesFrom n (Script.locked l .done) := .locked hle .done

theorem TakesFrom.trying {a b : Script (Lock P D F)} (hlt : l.rank < m) (hle : n ≤ m)
    (ha : TakesFrom m a) (hb : TakesFrom n b) : TakesFrom n (Script.trying l a b) :=
  fun hand hunder => .trying (ha _ (hunder.write hle hlt)) (hb hand hunder)

/-! ### Native calls -/

theorem getOrInit_takesFrom {cell : Cell} (hle : n ≤ cell.rank) :
    TakesFrom n (getOrInit cell : Script (Lock P D F)) :=
  .optional (.section hle)

theorem telemetrySection_takesFrom : TakesFrom 5 (telemetrySection : Script (Lock P D F)) :=
  .then (getOrInit_takesFrom le_rfl) (.section le_rfl)

theorem allocations_takesFrom (i : Nat) :
    TakesFrom 5 (allocations i : Script (Lock P D F)) :=
  fun hand hunder => .times (telemetrySection_takesFrom hand hunder) i

theorem withRegistry_takesFrom (i : Nat) :
    TakesFrom 3 (withRegistry i : Script (Lock P D F)) :=
  .then (getOrInit_takesFrom le_rfl)
    (.locked le_rfl ((allocations_takesFrom i).mono (by simp [Lock.rank])))

theorem registryCall_takesFrom (i : Nat) :
    TakesFrom 3 (registryCall i : Script (Lock P D F)) :=
  .optional (withRegistry_takesFrom i)

theorem withSelection_takesFrom (i : Nat) :
    TakesFrom 4 (withSelection i : Script (Lock P D F)) :=
  .then (getOrInit_takesFrom le_rfl) (.locked le_rfl (allocations_takesFrom i))

theorem rejectFallbackImplementation_takesFrom :
    TakesFrom 3 (rejectFallbackImplementation : Script (Lock P D F)) := by
  have hcell {cell : Cell} (hle : 3 ≤ cell.rank) :
      TakesFrom 3 (getOrInit cell : Script (Lock P D F)) := getOrInit_takesFrom hle
  exact .then (.then (hcell le_rfl) (.then (.section le_rfl) (.optional (hcell le_rfl))))
    (.optional (.then (hcell le_rfl) (.then (.section le_rfl) (.optional (hcell le_rfl)))))

theorem parserNewConfigured_takesFrom (i j : Nat) :
    TakesFrom 3 (parserNewConfigured i j : Script (Lock P D F)) := by
  have hmade := (withSelection_takesFrom (P := P) (D := D) (F := F) i).mono (n := 3) (by decide)
  exact .then rejectFallbackImplementation_takesFrom
    (.optional (hmade.then (.optional (withRegistry_takesFrom j))))

theorem utilityCall_takesFrom (i j : Nat) :
    TakesFrom 3 (utilityCall i j : Script (Lock P D F)) := by
  have hchecked := (withSelection_takesFrom (P := P) (D := D) (F := F) i).mono (n := 3) (by decide)
  have hscanned := (allocations_takesFrom (P := P) (D := D) (F := F) j).mono (n := 3) (by decide)
  exact .then rejectFallbackImplementation_takesFrom
    (.optional (hchecked.then (.optional hscanned)))

theorem setImplementation_takesFrom (i : Nat) :
    TakesFrom 4 (setImplementation i : Script (Lock P D F)) :=
  .optional (withSelection_takesFrom i)

theorem implementationName_takesFrom (i j : Nat) :
    TakesFrom 5 (implementationName i j : Script (Lock P D F)) :=
  .then (allocations_takesFrom i) (.optional (allocations_takesFrom j))

/-! ### The package -/

theorem bootstrapSync_takesFrom (f : F) :
    TakesFrom 1 (bootstrapSync f : Script (Lock P D F)) := by
  have hmemo : TakesFrom 1 (Script.locked .failureCacheMu .done : Script (Lock P D F)) :=
    .section (by simp [Lock.rank])
  have hensure : TakesFrom 1 (ensureArtifact f : Script (Lock P D F)) :=
    .optional (.optional (.section le_rfl))
  exact .optional (hmemo.then (.optional (hensure.then hmemo)))

theorem libraryMu_takesFrom :
    TakesFrom 1 (Script.locked .libraryMu .done : Script (Lock P D F)) :=
  .section (by simp [Lock.rank])

theorem activeLibrary_takesFrom (f : F) (i j : Nat) :
    TakesFrom 1 (activeLibrary f i j : Script (Lock P D F)) := by
  have hname := (implementationName_takesFrom (P := P) (D := D) (F := F) i j).mono (n := 1)
    (by decide)
  exact .then libraryMu_takesFrom (.optional (.then (.optional (bootstrapSync_takesFrom f))
    (.optional (hname.then (.optional libraryMu_takesFrom)))))

theorem registryCall_takesFrom_two (i : Nat) :
    TakesFrom 2 (registryCall i : Script (Lock P D F)) :=
  (registryCall_takesFrom i).mono (by decide)

theorem parserParse_takesFrom (p : P) (work : Nat → Nat) :
    TakesFrom 1 (parserParse p work : Script (Lock P D F)) := by
  have hcall := registryCall_takesFrom_two (P := P) (D := D) (F := F)
  have hstatus : TakesFrom 2 (wrapParserStatus fun i => work (i + 1) : Script (Lock P D F)) :=
    .optional (.then (hcall _) (.then (.optional (hcall _)) (.then (hcall _) (hcall _))))
  exact .locked le_rfl (.optional (.then (hcall _) (.then hstatus
    (.optional (.then (hcall _) (.optional (hcall _)))))))

theorem parserClose_takesFrom (p : P) (work : Nat → Nat) :
    TakesFrom 1 (parserClose p work : Script (Lock P D F)) :=
  .locked le_rfl (.optional (registryCall_takesFrom_two _))

theorem parserSection_takesFrom (p : P) : TakesFrom 1 (parserSection p : Script (Lock P D F)) :=
  .section le_rfl

theorem docSection_takesFrom (d : D) : TakesFrom 1 (docSection d : Script (Lock P D F)) :=
  .section le_rfl

/-- A script that takes a lock, may return, gives the lock back and goes on. -/
theorem TakesFrom.returning {a : Script (Lock P D F)} (hle : n ≤ l.rank)
    (ha : TakesFrom n a) :
    TakesFrom n (Script.lock l (.branch (.unlock l .done) (.unlock l a))) := by
  intro hand hunder
  have herase : (l :: hand.written).erase l = hand.written := List.erase_cons_head l _
  refine ⟨hunder.below hle, ⟨List.mem_cons_self, ?_⟩, List.mem_cons_self, ?_⟩
  · show Hand.mk ((l :: hand.written).erase l) hand.read hand.reserved = hand
    rw [herase]
  · show a.Leads Lock.rank .kernelMu
      (Hand.mk ((l :: hand.written).erase l) hand.read hand.reserved) hand
    rw [herase]
    exact ha hand hunder

theorem finalizeParser_takesFrom (p : P) (work : Nat → Nat) :
    TakesFrom 1 (finalizeParser p work : Script (Lock P D F)) := by
  have hcall : ∀ i, TakesFrom 1 (registryCall i : Script (Lock P D F)) := fun i =>
    (registryCall_takesFrom i).mono (by decide)
  exact .then (parserSection_takesFrom p) (.optional (.returning le_rfl
    (.then (.optional (hcall _)) (.then (.optional (hcall _)) (parserSection_takesFrom p)))))

theorem finalizeDoc_takesFrom (d : D) (p : P) (work : Nat → Nat) :
    TakesFrom 1 (finalizeDoc d p work : Script (Lock P D F)) := by
  have hcall : ∀ i, TakesFrom 1 (registryCall i : Script (Lock P D F)) := fun i =>
    (registryCall_takesFrom i).mono (by decide)
  exact .then (docSection_takesFrom d) (.optional (.returning le_rfl
    (.then (hcall _) (.then (docSection_takesFrom d) (.optional (parserSection_takesFrom p))))))

theorem docClose_takesFrom (d : D) (p : P) (work : Nat → Nat) :
    TakesFrom 1 (docClose d p work : Script (Lock P D F)) := by
  intro hand hunder
  have herase : (Lock.docMu d :: hand.written).erase (.docMu d) = hand.written :=
    List.erase_cons_head _ _
  have hheld : Under 2 { hand with written := .docMu d :: hand.written } :=
    hunder.write (by decide) (by simp [Lock.rank])
  have hback : Hand.mk ((Lock.docMu d :: hand.written).erase (.docMu d)) hand.read
      hand.reserved = hand := by
    rw [herase]
  have hreturn : (Script.unlock (Lock.docMu d) .done).Leads Lock.rank .kernelMu
      { hand with written := .docMu d :: hand.written } hand := ⟨List.mem_cons_self, hback⟩
  have hfree := registryCall_takesFrom_two (work 0) _ hheld
  refine ⟨hunder.below le_rfl, hreturn, hfree.then ⟨hreturn, List.mem_cons_self, ?_⟩⟩
  show (parserSection p).Leads Lock.rank .kernelMu
    (Hand.mk ((Lock.docMu d :: hand.written).erase (.docMu d)) hand.read hand.reserved) hand
  rw [herase]
  exact parserSection_takesFrom p hand hunder

theorem docIsClosed_takesFrom (d : D) :
    TakesFrom 2 (docIsClosed d : Script (Lock P D F)) :=
  .trying (m := 2) (by simp [Lock.rank]) le_rfl .done .done

theorem accessor_takesFrom (d : D) (work : List Nat) :
    TakesFrom 2 (accessor d work : Script (Lock P D F)) := by
  refine .then (docIsClosed_takesFrom d) (.optional (.seq fun s hs => ?_))
  obtain ⟨i, -, rfl⟩ := List.mem_map.mp hs
  exact registryCall_takesFrom_two i

theorem accessorWalk_takesFrom (d : D) (walk : List (List Nat)) :
    TakesFrom 2 (accessorWalk d walk : Script (Lock P D F)) := by
  refine .seq fun s hs => ?_
  obtain ⟨work, -, rfl⟩ := List.mem_map.mp hs
  exact accessor_takesFrom d work

theorem fastMaterializeElement_takesFrom (d : D) (i : Nat) (walk : List (List Nat)) :
    TakesFrom 1 (fastMaterializeElement d i walk : Script (Lock P D F)) := by
  have hwarning : TakesFrom 2 (Script.locked .fallbackWarningOnce .done : Script (Lock P D F)) :=
    .section le_rfl
  exact .then ((docIsClosed_takesFrom d).mono (by decide)) (.optional (.trying (m := 2)
    (by simp [Lock.rank]) (by decide) (.optional (.branch
      (.then (.optional hwarning) (accessorWalk_takesFrom d walk))
      (registryCall_takesFrom_two i))) .done))

/-! ### Kernel selection -/

omit [DecidableEq P] [DecidableEq D] [DecidableEq F] in
theorem under_empty : Under n (.empty : Hand (Lock P D F)) := fun k hk => by cases hk

/-- A script of a writer of `kernelMu`. -/
theorem kernelMu_orderly {a : Script (Lock P D F)} (ha : TakesFrom 1 a) :
    (Script.written .kernelMu a).Orderly Lock.rank .kernelMu :=
  .written (under_empty.below (Nat.zero_le _))
    (ha _ (under_empty.write (n := 1) le_rfl (by simp [Lock.rank])))

theorem newParserWithConfig_orderly (f : F) (work : Nat → Nat) :
    (newParserWithConfig f work : Script (Lock P D F)).Orderly Lock.rank .kernelMu :=
  kernelMu_orderly (.then (activeLibrary_takesFrom f _ _)
    (.optional ((parserNewConfigured_takesFrom _ _).mono (by decide))))

theorem kernel_orderly (len copy : Nat) :
    (kernel len copy : Script (Lock P D F)).Orderly Lock.rank .kernelMu := by
  have hname := (implementationName_takesFrom (P := P) (D := D) (F := F) len copy).mono (n := 1)
    (by decide)
  have hbody := libraryMu_takesFrom.then hname.optional
  refine .reading (under_empty.below (Nat.zero_le _)) (hbody _ fun k hk => ?_)
  rcases List.mem_cons.mp hk with rfl | hk
  · simp [Lock.rank]
  · cases hk

theorem setKernel_orderly (f : F) (work : Nat → Nat) :
    (setKernel f work : Script (Lock P D F)).Orderly Lock.rank .kernelMu := by
  have hselected : TakesFrom 1 (setImplementation (work 2) : Script (Lock P D F)) :=
    (setImplementation_takesFrom _).mono (by decide)
  have hname := (implementationName_takesFrom (P := P) (D := D) (F := F) (work 3) (work 4)).mono
    (n := 1) (by decide)
  have hrest := (TakesFrom.optional libraryMu_takesFrom (P := P) (D := D) (F := F))
  have hafter := (activeLibrary_takesFrom (P := P) (D := D) f (work 0) (work 1)).then
    (.optional (hselected.then (.optional (hname.then hrest))))
  have hheld : Under 1 (Hand.mk [(Lock.kernelMu : Lock P D F)] [] false) :=
    under_empty.write (n := 1) le_rfl (by simp [Lock.rank])
  -- it waits with `kernelMu` in hand and nothing else
  exact .written (under_empty.below (Nat.zero_le _)) ⟨rfl, rfl, hafter.optional _ hheld⟩

theorem utility_orderly (f : F) (work : Nat → Nat) :
    (utility f work : Script (Lock P D F)).Orderly Lock.rank .kernelMu := by
  have hnothing : ∀ n, Under n (Hand.mk [] [] true : Hand (Lock P D F)) := fun n k hk => by
    cases hk
  have hbegin : (beginUtilityKernel : Script (Lock P D F)).Leads Lock.rank .kernelMu .empty
      ⟨[], [], true⟩ :=
    .written (under_empty.below (Nat.zero_le _)) ⟨List.mem_cons_self, rfl, rfl⟩
  have hrelease : (releaseUtilityKernel false : Script (Lock P D F)).Leads Lock.rank .kernelMu
      ⟨[], [], true⟩ .empty :=
    .written ((hnothing 0).below (Nat.zero_le _)) ⟨List.mem_cons_self, rfl, rfl⟩
  have hreleased : (releaseUtilityKernel true : Script (Lock P D F)).Leads Lock.rank .kernelMu
      .empty .empty := kernelMu_orderly .done
  have hlibrary := activeLibrary_takesFrom (P := P) (D := D) f (work 0) (work 1) _
    (hnothing 1)
  have hcall := (utilityCall_takesFrom (P := P) (D := D) (F := F) (work 2) (work 3)).mono
    (n := 1) (by decide) _ (hnothing 1)
  exact ⟨rfl, hbegin.then ⟨hrelease, hlibrary.then ⟨hrelease, hcall.then
    (hrelease.then hreleased)⟩⟩⟩

theorem TakesFrom.orderly {s : Script (Lock P D F)} (h : TakesFrom n s) :
    s.Orderly Lock.rank .kernelMu :=
  h .empty under_empty

/-- **Every call takes locks in their order.** -/
theorem Entry.orderly (e : Entry P D F) : e.script.Orderly Lock.rank .kernelMu := by
  cases e with
  | newParser f work => exact ⟨rfl, newParserWithConfig_orderly f work⟩
  | parse p work => exact (parserParse_takesFrom p work).orderly
  | closeParser p work => exact (parserClose_takesFrom p work).orderly
  | finalizeParser p work => exact (finalizeParser_takesFrom p work).orderly
  | closeDoc d p work => exact (docClose_takesFrom d p work).orderly
  | finalizeDoc d p work => exact (finalizeDoc_takesFrom d p work).orderly
  | newParserPool => exact ⟨rfl, kernelMu_orderly .done⟩
  | poolGet f work => exact ⟨rfl, newParserWithConfig_orderly f work⟩
  | poolPut p => exact (parserSection_takesFrom p).optional.orderly
  | accessorWalk d walk => exact (accessorWalk_takesFrom d walk).orderly
  | fastMaterialize d i walk => exact (fastMaterializeElement_takesFrom d i walk).orderly
  | kernel len copy => exact kernel_orderly len copy
  | setKernel f work => exact setKernel_orderly f work
  | utility f work => exact utility_orderly f work
  | bootstrapSync f => exact (bootstrapSync_takesFrom f).orderly
  | native i => exact (registryCall_takesFrom i).orderly
  | nativeParserNew made listed => exact (parserNewConfigured_takesFrom made listed).orderly
  | nativeUtility checked scanned => exact (utilityCall_takesFrom checked scanned).orderly
  | nativeSelection i => exact (setImplementation_takesFrom i).orderly
  | nativeName i => exact (allocations_takesFrom i).orderly
  | nativeAllocStats => exact telemetrySection_takesFrom.optional.orderly
  | testOverrides =>
    have hcell {cell : Cell} (hle : 3 ≤ cell.rank) :
        TakesFrom 3 (getOrInit cell : Script (Lock P D F)) := getOrInit_takesFrom hle
    exact (TakesFrom.branch ((hcell le_rfl).then (.section le_rfl))
      ((hcell le_rfl).then (.section le_rfl))).orderly

end

theorem Lock.rank_lt (l : Lock P D F) : l.rank < 6 := by
  cases l with
  | setUp cell => cases cell <;> simp [Lock.rank, Cell.rank]
  | _ => simp [Lock.rank]

/-- Some call's script. -/
def Calls (s : Script (Lock P D F)) : Prop := ∃ e : Entry P D F, s = e.script

/-- **Calls return.**  However the calls of any number of goroutines have interleaved, those
under way take a bounded number of steps if no more begin; as long as there are any, one of
them can go on; a reservation that is released is there; and when all have returned, every
lock is free and no reservation is left. -/
theorem calls_return {T P D F : Type} [Fintype T] [DecidableEq T] [DecidableEq P]
    [DecidableEq D] [DecidableEq F] {c c' : Config T (Lock P D F)} {before after : List T}
    (hreach : Run (Moves .kernelMu Calls) Config.start before c)
    (hrun : Run (fun c t c' => Advances .kernelMu c t c') c after c') :
    after.length ≤ c.cost ∧
      ((∃ t, ¬ (c'.place t).Idle) → ∃ t c'', Advances .kernelMu c' t c'') ∧
      (∀ t rest, c'.place t = .running (.release rest) → c'.reserved ≠ 0) ∧
      ((∀ t, (c'.place t).Idle) → c' = Config.start) := by
  have horder : ∀ s : Script (Lock P D F), Calls s → s.Orderly Lock.rank .kernelMu := by
    rintro s ⟨e, rfl⟩
    exact e.orderly
  exact orderly_return Lock.rank_lt horder hreach hrun

/-- A caller of `SetKernel` waits for the reservation of a utility whose hook panics. -/
theorem calls_return_sample : ∃ (c c' : Config (Fin 2) (Lock Unit Unit Unit)) (rest : _),
    c.place 1 = .parked rest ∧ 5 ≤ c.cost ∧ ∃ t c'', Advances .kernelMu c' t c'' := by
  have hreach : ∃ c : Config (Fin 2) (Lock Unit Unit Unit), ∃ rest,
      Run (Moves .kernelMu Calls) Config.start [0, 0, 0, 0, 0, 0, 1, 1, 1, 1, 1] c ∧
      c.place 1 = .parked rest ∧
      ∃ c', Run (fun c t c' => Advances .kernelMu c t c') c [0, 0, 0, 0, 0] c' ∧
        ¬ (c'.place 1).Idle :=
    ⟨_, _, .cons (.begin rfl ⟨.utility () fun _ => 0, rfl⟩) <|
      .cons (.advance (.right rfl)) <| .cons (.advance (.lock rfl rfl)) <|
      .cons (.advance (.drain rfl rfl)) <| .cons (.advance (.reserve rfl)) <|
      .cons (.advance (.unlock rfl)) <|
      .cons (.begin rfl ⟨.setKernel () fun _ => 0, rfl⟩) <|
      .cons (.advance (.lock rfl rfl)) <| .cons (.advance (.drain rfl rfl)) <|
      .cons (.advance (.right rfl)) <| .cons (.advance (.park rfl (by decide))) <| .nil _,
      rfl,
      _, .cons (.left rfl) <| .cons (.lock rfl rfl) <| .cons (.drain rfl rfl) <|
      .cons (.release rfl) <| .cons (.unlock rfl) <| .nil _, id⟩
  obtain ⟨c, rest, hrun, hparked, c', hrun', hin⟩ := hreach
  have h := calls_return hrun hrun'
  exact ⟨c, c', rest, hparked, h.1, h.2.1 ⟨1, hin⟩⟩

end PureSimdjson.Locks
