import PureSimdjson.Threads

/-!
# The active library

Goroutines ask for the process's one library, each of them loading one where there is none
yet.  Every step of loading may fail, and may find another file than it found before.
-/
namespace PureSimdjson.Library

open Runs Threads

/-! ## Binding -/

/-- How a library answers while its symbols are bound. -/
structure SymbolAnswers where
  lookup : String → Except String UInt64
  registrar : String → UInt64 → Except String Unit

/-- `registerFuncWithRegistrar` -/
def registerFunc (answers : SymbolAnswers) (name : String) : Except String UInt64 :=
  match answers.lookup name with
  | .error err => .error ("lookup " ++ name ++ ": " ++ err)
  | .ok sym =>
      match answers.registrar name sym with
      | .error err => .error err
      | .ok () => .ok sym

/-- `registerOptionalFuncWithRegistrar`: a symbol that is not there is a missing feature. -/
def registerOptionalFunc (answers : SymbolAnswers) (name : String) : Except String Bool :=
  match answers.lookup name with
  | .error _ => .ok false
  | .ok sym =>
      match answers.registrar name sym with
      | .error err => .error err
      | .ok () => .ok true

/-- The table of `bindWithRegistrar`. -/
def requiredSymbols : List String :=
  ["pure_simdjson_get_abi_version", "pure_simdjson_set_implementation",
    "pure_simdjson_lock_implementation_selection", "pure_simdjson_get_implementation_name_len",
    "pure_simdjson_copy_implementation_name", "pure_simdjson_native_alloc_stats_reset",
    "pure_simdjson_native_alloc_stats_snapshot", "pure_simdjson_parser_new",
    "pure_simdjson_parser_new_configured", "pure_simdjson_parser_free",
    "pure_simdjson_parser_parse", "pure_simdjson_parser_get_last_error_len",
    "pure_simdjson_parser_copy_last_error", "pure_simdjson_parser_get_last_error_offset",
    "pure_simdjson_parser_get_last_error_has_offset", "pure_simdjson_doc_free",
    "pure_simdjson_doc_root", "pure_simdjson_element_type", "pure_simdjson_element_get_int64",
    "pure_simdjson_element_get_uint64", "pure_simdjson_element_get_float64",
    "pure_simdjson_element_get_string", "pure_simdjson_element_get_bigint",
    "pure_simdjson_bytes_free", "pure_simdjson_element_get_bool",
    "pure_simdjson_element_is_null", "pure_simdjson_array_iter_new",
    "pure_simdjson_array_iter_next", "pure_simdjson_object_iter_new",
    "pure_simdjson_object_iter_next", "pure_simdjson_object_get_field",
    "pure_simdjson_element_at_pointer", "pure_simdjson_element_at_path",
    "pure_simdjson_element_at_path_wildcard", "pure_simdjson_value_views_free",
    "pure_simdjson_array_at", "pure_simdjson_array_len", "pure_simdjson_object_size",
    "pure_simdjson_minify", "pure_simdjson_validate_utf8"]

/-- `symbols` has the target of each registered function, in the order of the table. -/
structure Bindings where
  handle : UInt64
  symbols : List (String × UInt64)
  hasNativeAllocStats : Bool
  hasInternalMaterializer : Bool

/-- The loop of `bindWithRegistrar`. -/
def bindSymbols (answers : SymbolAnswers) : List String → Except String (List (String × UInt64))
  | [] => .ok []
  | name :: names =>
      match registerFunc answers name with
      | .error err => .error err
      | .ok sym =>
          match bindSymbols answers names with
          | .error err => .error err
          | .ok symbols => .ok ((name, sym) :: symbols)

/-- `bindWithRegistrar` -/
def bindWithRegistrar (handle : UInt64) (answers : SymbolAnswers) : Except String Bindings :=
  match bindSymbols answers requiredSymbols with
  | .error err => .error err
  | .ok symbols =>
      match registerOptionalFunc answers "psdj_internal_materialize_build" with
      | .error err => .error err
      | .ok registered => .ok ⟨handle, symbols, true, registered⟩

/-- The function has been found, registered and kept. -/
def Bound (answers : SymbolAnswers) (symbols : List (String × UInt64)) (name : String) : Prop :=
  ∃ sym, answers.lookup name = .ok sym ∧ answers.registrar name sym = .ok () ∧
    (name, sym) ∈ symbols

theorem registerFunc_spec {answers : SymbolAnswers} {name : String} {sym : UInt64}
    (h : registerFunc answers name = .ok sym) :
    answers.lookup name = .ok sym ∧ answers.registrar name sym = .ok () := by
  rw [registerFunc] at h
  split at h
  · cases h
  · next hlookup =>
    split at h
    · cases h
    · next hregister =>
      cases h
      exact ⟨hlookup, hregister⟩

theorem bindSymbols_spec {answers : SymbolAnswers} {names : List String}
    {symbols : List (String × UInt64)} (h : bindSymbols answers names = .ok symbols) :
    ∀ name ∈ names, Bound answers symbols name := by
  induction names generalizing symbols with
  | nil =>
    intro name hname
    cases hname
  | cons first names ih =>
    rw [bindSymbols] at h
    split at h
    · cases h
    · next hfirst =>
      split at h
      · cases h
      · next hrest =>
        cases h
        intro name hname
        rcases List.mem_cons.mp hname with rfl | hname
        · obtain ⟨hlookup, hregister⟩ := registerFunc_spec hfirst
          exact ⟨_, hlookup, hregister, List.mem_cons_self⟩
        · obtain ⟨sym, hlookup, hregister, hmem⟩ := ih hrest name hname
          exact ⟨sym, hlookup, hregister, List.mem_cons_of_mem _ hmem⟩

/-- **All that is required is bound.** -/
theorem bindWithRegistrar_spec {handle : UInt64} {answers : SymbolAnswers} {bindings : Bindings}
    (h : bindWithRegistrar handle answers = .ok bindings) :
    bindings.handle = handle ∧ ∀ name ∈ requiredSymbols, Bound answers bindings.symbols name := by
  rw [bindWithRegistrar] at h
  split at h
  · cases h
  · next hsymbols =>
    split at h
    · cases h
    · cases h
      exact ⟨rfl, bindSymbols_spec hsymbols⟩

/-! ## Probing -/

def abiVersion : UInt32 := 0x00010003

/-- `isCompatibleABI` -/
def isCompatibleABI (actual : UInt32) : Bool :=
  actual &&& 0xffff0000 = abiVersion &&& 0xffff0000 && actual ≥ abiVersion

/-- `probeABIWithRegistrar`, where `getABI` calls the function. -/
def probeABIWithRegistrar (answers : SymbolAnswers) (getABI : UInt64 → Int × UInt32) :
    Except String UInt32 :=
  match registerFunc answers "pure_simdjson_get_abi_version" with
  | .error err => .error err
  | .ok sym =>
      if (getABI sym).1 ≠ 0 then
        .error ("call pure_simdjson_get_abi_version: status " ++ toString (getABI sym).1)
      else .ok (getABI sym).2

/-- The library speaks the expected major version, and at least the required minor one. -/
def Compatible (abi : UInt32) : Prop :=
  abi.toNat / 2 ^ 16 = abiVersion.toNat / 2 ^ 16 ∧ abiVersion.toNat ≤ abi.toNat

/-- What the mask leaves of a word is its upper half. -/
theorem and_majorMask (n : Nat) : (n &&& 0xffff0000) / 2 ^ 16 = n / 2 ^ 16 % 2 ^ 16 := by
  rw [← Nat.shiftRight_eq_div_pow, ← Nat.shiftRight_eq_div_pow, Nat.shiftRight_and_distrib]
  exact Nat.and_two_pow_sub_one_eq_mod _ 16

theorem isCompatibleABI_spec {actual : UInt32} (h : isCompatibleABI actual = true) :
    Compatible actual := by
  rw [isCompatibleABI, Bool.and_eq_true, decide_eq_true_eq, decide_eq_true_eq] at h
  obtain ⟨hmask, hle⟩ := h
  have hmajor : (actual.toNat &&& 0xffff0000) / 2 ^ 16 = 1 := by
    have hnat := congrArg UInt32.toNat hmask
    rw [UInt32.toNat_and] at hnat
    exact congrArg (· / 2 ^ 16) hnat
  have hlt : actual.toNat < 2 ^ 32 := actual.toNat_lt
  rw [and_majorMask, Nat.mod_eq_of_lt (by omega)] at hmajor
  exact ⟨hmajor, UInt32.le_iff_toNat_le.mp hle⟩

/-- `Bindings.ImplementationName`, where `nameLen` and `copyName` call the library: `copyName`
fills a buffer, and says how much it wrote. -/
def implementationName (nameLen : Int × Nat) (copyName : Nat → Int × List UInt8 × Nat) :
    List UInt8 × Int :=
  if nameLen.1 ≠ 0 then ([], nameLen.1)
  else if nameLen.2 = 0 then ([], 0)
  else
    let copied := copyName nameLen.2
    if copied.1 ≠ 0 then ([], copied.1)
    else (copied.2.1.take (min copied.2.2 nameLen.2), 0)

/-! ## Loading -/

/-- Errors of the loading path. -/
inductive LibraryError where
  | loadLibrary (message err : String)
  | abiMismatch (expected actual : UInt32) (libraryPath : String)
  | status (code : Int)

/-- `formatAttemptedPaths` -/
def formatAttemptedPaths (paths : List String) : String :=
  if paths = [] then "attempted paths: none"
  else "attempted paths: " ++ String.intercalate ", " paths

structure LoadedLibrary where
  path : String
  handle : UInt64
  implementationName : List UInt8
  bindings : Bindings

/-- `cachedLibrary` points to a library; `allocated` has those that were allocated. -/
structure LibraryState (T : Type) where
  libraryMu : Option T
  cachedLibrary : Option Nat
  allocated : List LoadedLibrary

/-- Where a goroutine is in `activeLibraryWithOps`. -/
inductive LibraryThread where
  | idle
  | readLock
  | read
  | readUnlock (cached : Option Nat)
  | resolvePath
  | load (path : String)
  | probeABI (path : String) (handle : UInt64)
  | bind (path : String) (handle : UInt64)
  | implementationName (path : String) (handle : UInt64) (bindings : Bindings)
  | installLock (library : Nat)
  | installCheck (library : Nat)
  | install (library : Nat)
  | installUnlock (library : Nat)

/-- What a step shows. -/
inductive LibraryAction where
  | tau
  | resolved (path : String)
  | loaded (handle : UInt64)
  | probed (abi : UInt32)
  | bound (answers : SymbolAnswers) (bindings : Bindings)
  | named (name : List UInt8) (library : Nat)
  | installed (library : Nat)
  | returned (result : Except LibraryError Nat)

/-- `wrapLoadFailure` -/
def wrapLoadFailure (message err : String) : LibraryAction :=
  .returned (.error (.loadLibrary message err))

section
variable {T : Type}

inductive LibraryStep (t : T) : LibraryState T → LibraryThread → LibraryAction →
    LibraryState T → LibraryThread → Prop where
  | call {s : LibraryState T} : LibraryStep t s .idle .tau s .readLock
  -- the fast path
  | readLock {s : LibraryState T} (hmu : s.libraryMu = none) :
      LibraryStep t s .readLock .tau { s with libraryMu := some t } .read
  | read {s : LibraryState T} : LibraryStep t s .read .tau s (.readUnlock s.cachedLibrary)
  | readCached {s : LibraryState T} {library : Nat} :
      LibraryStep t s (.readUnlock (some library)) (.returned (.ok library))
        { s with libraryMu := none } .idle
  | readNone {s : LibraryState T} :
      LibraryStep t s (.readUnlock none) .tau { s with libraryMu := none } .resolvePath
  -- the slow path
  | unresolved {s : LibraryState T} (attempted : List String) (err : String) :
      LibraryStep t s .resolvePath (wrapLoadFailure (formatAttemptedPaths attempted) err) s .idle
  | resolved {s : LibraryState T} (path : String) :
      LibraryStep t s .resolvePath (.resolved path) s (.load path)
  | unloaded {s : LibraryState T} {path : String} (err : String) :
      LibraryStep t s (.load path) (wrapLoadFailure (formatAttemptedPaths [path]) err) s .idle
  | loaded {s : LibraryState T} {path : String} (handle : UInt64) :
      LibraryStep t s (.load path) (.loaded handle) s (.probeABI path handle)
  | unprobed {s : LibraryState T} {path : String} {handle : UInt64} {answers : SymbolAnswers}
      {getABI : UInt64 → Int × UInt32} {err : String}
      (h : probeABIWithRegistrar answers getABI = .error err) :
      LibraryStep t s (.probeABI path handle) (wrapLoadFailure ("probe ABI from " ++ path) err)
        s .idle
  | incompatible {s : LibraryState T} {path : String} {handle : UInt64} {answers : SymbolAnswers}
      {getABI : UInt64 → Int × UInt32} {actualABI : UInt32}
      (h : probeABIWithRegistrar answers getABI = .ok actualABI)
      (hold : isCompatibleABI actualABI = false) :
      LibraryStep t s (.probeABI path handle)
        (.returned (.error (.abiMismatch abiVersion actualABI path))) s .idle
  | probed {s : LibraryState T} {path : String} {handle : UInt64} {answers : SymbolAnswers}
      {getABI : UInt64 → Int × UInt32} {actualABI : UInt32}
      (h : probeABIWithRegistrar answers getABI = .ok actualABI)
      (hcompatible : isCompatibleABI actualABI = true) :
      LibraryStep t s (.probeABI path handle) (.probed actualABI) s (.bind path handle)
  | unbound {s : LibraryState T} {path : String} {handle : UInt64} {answers : SymbolAnswers}
      {err : String} (h : bindWithRegistrar handle answers = .error err) :
      LibraryStep t s (.bind path handle) (wrapLoadFailure ("bind symbols from " ++ path) err)
        s .idle
  | bound {s : LibraryState T} {path : String} {handle : UInt64} {answers : SymbolAnswers}
      {bindings : Bindings} (h : bindWithRegistrar handle answers = .ok bindings) :
      LibraryStep t s (.bind path handle) (.bound answers bindings) s
        (.implementationName path handle bindings)
  | unnamed {s : LibraryState T} {path : String} {handle : UInt64} {bindings : Bindings}
      {nameLen : Int × Nat} {copyName : Nat → Int × List UInt8 × Nat}
      (h : (implementationName nameLen copyName).2 ≠ 0) :
      LibraryStep t s (.implementationName path handle bindings)
        (.returned (.error (.status (implementationName nameLen copyName).2))) s .idle
  | named {s : LibraryState T} {path : String} {handle : UInt64} {bindings : Bindings}
      {nameLen : Int × Nat} {copyName : Nat → Int × List UInt8 × Nat} {name : List UInt8}
      (h : implementationName nameLen copyName = (name, 0)) :
      LibraryStep t s (.implementationName path handle bindings) (.named name s.allocated.length)
        { s with allocated := s.allocated ++ [⟨path, handle, name, bindings⟩] }
        (.installLock s.allocated.length)
  -- the check and the installation
  | installLock {s : LibraryState T} {library : Nat} (hmu : s.libraryMu = none) :
      LibraryStep t s (.installLock library) .tau { s with libraryMu := some t }
        (.installCheck library)
  | lost {s : LibraryState T} {library cached : Nat} (hcached : s.cachedLibrary = some cached) :
      LibraryStep t s (.installCheck library) .tau s (.installUnlock cached)
  | won {s : LibraryState T} {library : Nat} (hcached : s.cachedLibrary = none) :
      LibraryStep t s (.installCheck library) .tau s (.install library)
  | install {s : LibraryState T} {library : Nat} :
      LibraryStep t s (.install library) (.installed library)
        { s with cachedLibrary := some library } (.installUnlock library)
  | installUnlock {s : LibraryState T} {library : Nat} :
      LibraryStep t s (.installUnlock library) (.returned (.ok library))
        { s with libraryMu := none } .idle

end

/-! ## Places -/

/-- The goroutine has `libraryMu`. -/
def LibraryThread.Holding : LibraryThread → Prop
  | .read | .readUnlock _ | .installCheck _ | .install _ | .installUnlock _ => True
  | _ => False

/-- The goroutine is about to return the library. -/
def LibraryThread.Returns (library : Nat) : LibraryThread → Prop
  | .readUnlock cached => cached = some library
  | .installUnlock cached => cached = library
  | _ => False

/-- The goroutine has loaded the library itself. -/
def LibraryThread.Made (library : Nat) : LibraryThread → Prop
  | .installLock made | .installCheck made | .install made => made = library
  | _ => False

variable {T : Type} {t : T} {s s' : LibraryState T} {x x' : LibraryThread} {a : LibraryAction}

/-- What a goroutine relies on where it is. -/
structure LibraryThread.Relies (t : T) (s : LibraryState T) (x : LibraryThread) : Prop where
  mu : x.Holding ↔ s.libraryMu = some t
  empty : ∀ library, x = .install library → s.cachedLibrary = none
  returns : ∀ library, x.Returns library → s.cachedLibrary = some library
  made : ∀ library, x.Made library → library < s.allocated.length

/-- The cache points to a library. -/
def LibraryState.Pointing (s : LibraryState T) : Prop :=
  ∀ library, s.cachedLibrary = some library → library < s.allocated.length

/-! ## One step -/

theorem LibraryStep.locks (h : LibraryStep t s x a s' x') (hx : x.Relies t s) :
    LockStep t s.libraryMu s'.libraryMu := by
  cases h with
  | readLock hmu => exact hmu ▸ .acquire
  | readCached => exact hx.mu.mp trivial ▸ .release
  | readNone => exact hx.mu.mp trivial ▸ .release
  | installLock hmu => exact hmu ▸ .acquire
  | installUnlock => exact hx.mu.mp trivial ▸ .release
  | _ => exact .keep _

/-- **The cache is written by who installs, and by nobody else.** -/
theorem LibraryStep.caches (h : LibraryStep t s x a s' x') :
    (s'.cachedLibrary = s.cachedLibrary ∧ ∀ library, a ≠ .installed library) ∨
      ∃ library, x = .install library ∧ x' = .installUnlock library ∧ a = .installed library ∧
        s'.cachedLibrary = some library := by
  cases h with
  | install => exact Or.inr ⟨_, rfl, rfl, rfl, rfl⟩
  | _ => exact Or.inl ⟨rfl, (fun _ h => by cases h)⟩

theorem LibraryStep.allocates (h : LibraryStep t s x a s' x') :
    s'.allocated = s.allocated ∨ ∃ path handle bindings name,
      x = .implementationName path handle bindings ∧ a = .named name s.allocated.length ∧
        s'.allocated = s.allocated ++ [⟨path, handle, name, bindings⟩] := by
  cases h with
  | named _ => exact Or.inr ⟨_, _, _, _, rfl, rfl, rfl⟩
  | _ => exact Or.inl rfl

theorem LibraryStep.allocated_le (h : LibraryStep t s x a s' x') :
    s.allocated.length ≤ s'.allocated.length := by
  obtain hsame | ⟨_, _, _, _, -, -, hnew⟩ := h.allocates
  · rw [hsame]
  · rw [hnew, List.length_append]
    omega

/-- A cached library stays cached. -/
theorem LibraryStep.keeps_cached (h : LibraryStep t s x a s' x') (hx : x.Relies t s)
    {library : Nat} (hcached : s.cachedLibrary = some library) :
    s'.cachedLibrary = some library := by
  obtain ⟨hsame, -⟩ | ⟨_, rfl, -, -, -⟩ := h.caches
  · rw [hsame, hcached]
  · rw [hx.empty _ rfl] at hcached
    cases hcached

theorem LibraryStep.holds (h : LibraryStep t s x a s' x') (hx : x.Relies t s) :
    x'.Holding ↔ s'.libraryMu = some t := by
  have hmu := hx.mu
  cases h with
  | readLock _ => exact iff_of_true trivial rfl
  | installLock _ => exact iff_of_true trivial rfl
  | readCached => exact iff_of_false id (fun h => by cases h)
  | readNone => exact iff_of_false id (fun h => by cases h)
  | installUnlock => exact iff_of_false id (fun h => by cases h)
  | _ => exact hmu

/-- Who returns a library after a step has read or written the cache. -/
theorem LibraryStep.returns (h : LibraryStep t s x a s' x') {library : Nat}
    (hx' : x'.Returns library) : s'.cachedLibrary = some library := by
  cases h with
  | read => exact hx'
  | lost hcached =>
    obtain rfl := hx'
    exact hcached
  | install =>
    obtain rfl := hx'
    rfl
  | _ => exact hx'.elim

/-- Who has a library after a step had it before, or has just allocated it. -/
theorem LibraryStep.makes (h : LibraryStep t s x a s' x') (hx : x.Relies t s) {library : Nat}
    (hx' : x'.Made library) : library < s'.allocated.length := by
  cases h with
  | named _ =>
    obtain rfl := hx'
    rw [List.length_append]
    exact Nat.lt_succ_self _
  | installLock _ => exact hx.made _ hx'
  | won _ => exact hx.made _ hx'
  | _ => exact hx'.elim

theorem LibraryStep.relies (h : LibraryStep t s x a s' x') (hx : x.Relies t s) :
    x'.Relies t s' where
  mu := h.holds hx
  empty library hx' := by
    cases h with
    | won hcached => exact hcached
    | _ => cases hx'
  returns _ := h.returns
  made _ := h.makes hx

theorem LibraryStep.pointing (h : LibraryStep t s x a s' x') (hs : s.Pointing)
    (hx : x.Relies t s) : s'.Pointing := by
  intro library hcached
  have hle := h.allocated_le
  obtain ⟨hsame, -⟩ | ⟨_, rfl, -, -, hset⟩ := h.caches
  · have := hs library (hsame ▸ hcached)
    omega
  · obtain rfl := Option.some.inj (hset.symm.trans hcached)
    have := hx.made _ rfl
    omega

/-- **The outline stands.** -/
theorem library_outline : Outline (LibraryStep (T := T)) LibraryState.Pointing
    fun t s x => x.Relies t s where
  keeps hs hx h := ⟨h.pointing hs hx, h.relies hx⟩
  stable {t t' s s' x x' y a} hne hs hx h hy := by
    have hmu := (h.locks hx).other hne
    refine ⟨hy.mu.trans hmu.symm, ?_, ?_, ?_⟩
    · rintro library rfl
      obtain ⟨hsame, -⟩ | ⟨_, rfl, -, -, -⟩ := h.caches
      · rw [hsame]
        exact hy.empty library rfl
      · -- both would have the lock
        have hown := hx.mu.mp trivial
        rw [hy.mu.mp trivial] at hown
        exact absurd (Option.some.inj hown) hne
    · intro library hreturns
      exact h.keeps_cached hx (hy.returns library hreturns)
    · intro library hmade
      exact lt_of_lt_of_le (hy.made library hmade) h.allocated_le

/-! ## Attempts -/

section
variable [DecidableEq T]

/-- What a goroutine has done. -/
def mine (t : T) (ls : List (T × LibraryAction)) : List LibraryAction :=
  ls.filterMap fun l => if l.1 = t then some l.2 else none

theorem mine_self (t : T) (ls : List (T × LibraryAction)) (a : LibraryAction) :
    mine t (ls ++ [(t, a)]) = mine t ls ++ [a] := by
  simp [mine]

theorem mine_other {t t' : T} (hne : t' ≠ t) (ls : List (T × LibraryAction)) (a : LibraryAction) :
    mine t' (ls ++ [(t, a)]) = mine t' ls := by
  simp [mine, Ne.symm hne]

/-- What a goroutine did right before it came where it is. -/
def LibraryThread.Attempt (actions : List LibraryAction) : LibraryThread → Prop
  | .load path => [.resolved path] <:+ actions
  | .probeABI path handle => [.resolved path, .loaded handle] <:+ actions
  | .bind path handle => ∃ abi, Compatible abi ∧
      [.resolved path, .loaded handle, .probed abi] <:+ actions
  | .implementationName path handle bindings => ∃ abi answers, Compatible abi ∧
      (∀ name ∈ requiredSymbols, Bound answers bindings.symbols name) ∧
      [.resolved path, .loaded handle, .probed abi, .bound answers bindings] <:+ actions
  | _ => True

omit [DecidableEq T] in
theorem LibraryStep.attempts (h : LibraryStep t s x a s' x') {actions : List LibraryAction}
    (hx : x.Attempt actions) : x'.Attempt (actions ++ [a]) := by
  have hsnoc {before : List LibraryAction} (hbefore : before <:+ actions) :
      before ++ [a] <:+ actions ++ [a] := by
    obtain ⟨earlier, rfl⟩ := hbefore
    exact ⟨earlier, by rw [List.append_assoc]⟩
  cases h with
  | resolved path => exact List.suffix_append _ _
  | loaded handle => exact hsnoc hx
  | probed _ hcompatible => exact ⟨_, isCompatibleABI_spec hcompatible, hsnoc hx⟩
  | bound hbound =>
    obtain ⟨abi, hcompatible, hx⟩ := hx
    exact ⟨abi, _, hcompatible, (bindWithRegistrar_spec hbound).2, hsnoc hx⟩
  | _ => trivial

/-- **A vetted library.**  One goroutine, one step after the other, has resolved its path, loaded
it, seen a compatible ABI, bound all that is required, and read its name. -/
def Vetted (ls : List (T × LibraryAction)) (allocated : List LoadedLibrary) (library : Nat) :
    Prop :=
  ∃ lib t abi answers, allocated[library]? = some lib ∧ Compatible abi ∧
    (∀ name ∈ requiredSymbols, Bound answers lib.bindings.symbols name) ∧
    [.resolved lib.path, .loaded lib.handle, .probed abi, .bound answers lib.bindings,
      .named lib.implementationName library] <:+: mine t ls

theorem Vetted.mono {ls : List (T × LibraryAction)} {allocated : List LoadedLibrary}
    {library : Nat} (h : Vetted ls allocated library) (l : T × LibraryAction)
    (more : List LoadedLibrary) : Vetted (ls ++ [l]) (allocated ++ more) library := by
  obtain ⟨lib, t, abi, answers, hlib, hcompatible, hbound, hinfix⟩ := h
  refine ⟨lib, t, abi, answers, ?_, hcompatible, hbound, hinfix.trans ?_⟩
  · rw [List.getElem?_append_left (List.getElem?_eq_some_iff.mp hlib).1, hlib]
  · rw [mine, mine, List.filterMap_append]
    exact (List.prefix_append _ _).isInfix

theorem LibraryStep.vets (h : LibraryStep t s x a s' x') {ls : List (T × LibraryAction)}
    (hx : x.Attempt (mine t ls))
    (hs : ∀ library < s.allocated.length, Vetted ls s.allocated library) :
    ∀ library < s'.allocated.length, Vetted (ls ++ [(t, a)]) s'.allocated library := by
  intro library hlt
  obtain hsame | ⟨path, handle, bindings, name, rfl, rfl, hnew⟩ := h.allocates
  · rw [hsame] at hlt ⊢
    simpa using (hs library hlt).mono (t, a) []
  · rw [hnew] at hlt ⊢
    by_cases hold : library < s.allocated.length
    · exact (hs library hold).mono _ _
    · -- this is the one that was allocated
      have hlibrary : library = s.allocated.length := by
        rw [List.length_append, List.length_singleton] at hlt
        omega
      obtain rfl := hlibrary
      obtain ⟨abi, answers, hcompatible, hbound, earlier, hearlier⟩ := hx
      refine ⟨⟨path, handle, name, bindings⟩, t, abi, answers, ?_, hcompatible, hbound, ?_⟩
      · rw [List.getElem?_append_right (le_refl _), Nat.sub_self]
        rfl
      · rw [mine_self, ← hearlier]
        exact ⟨earlier, [], by simp⟩

/-! ## Every run -/

/-- The library a step installs. -/
def LibraryAction.installs : LibraryAction → Option Nat
  | .installed library => some library
  | _ => none

/-- What a goroutine that has just installed a library does next. -/
structure Installs (actions : List LibraryAction) (x : LibraryThread) : Prop where
  next : ∀ before library a after, actions = before ++ .installed library :: a :: after →
    a = .returned (.ok library)
  last : ∀ before library, actions = before ++ [.installed library] → x = .installUnlock library

omit [DecidableEq T] in
theorem LibraryStep.next (h : LibraryStep t s x a s' x') {actions : List LibraryAction}
    (hx : Installs actions x) : Installs (actions ++ [a]) x' := by
  refine ⟨fun before library b after heq => ?_, fun before library heq => ?_⟩
  · rcases List.eq_nil_or_concat after with rfl | ⟨after, c, rfl⟩
    · have hsplit : actions ++ [a] = (before ++ [.installed library]) ++ [b] := by
        rw [heq, List.append_assoc]
        rfl
      obtain ⟨hactions, hb⟩ := List.append_inj' hsplit rfl
      obtain rfl := hx.last _ _ hactions
      obtain rfl := (List.singleton_inj.mp hb)
      cases h
      rfl
    · have hsplit : actions ++ [a] = (before ++ .installed library :: b :: after) ++ [c] := by
        rw [heq, List.concat_eq_append, List.append_assoc]
        rfl
      exact hx.next _ _ _ _ (List.append_inj' hsplit rfl).1
  · obtain ⟨-, ha⟩ := List.append_inj' heq rfl
    obtain rfl := List.singleton_inj.mp ha
    obtain ⟨-, hnone⟩ | ⟨_, -, hx', ha, -⟩ := h.caches
    · exact absurd rfl (hnone library)
    · cases ha
      exact hx'

/-- A process that has loaded no library. -/
def LibraryState.start : LibraryState T := ⟨none, none, []⟩

/-- What holds after some moves. -/
structure After (ls : List (T × LibraryAction)) (c : Config T (LibraryState T) LibraryThread) :
    Prop where
  holds : Holds LibraryState.Pointing (fun t s x => x.Relies t s) c
  attempts : ∀ t, (c.own t).Attempt (mine t ls)
  vetted : ∀ library < c.shared.allocated.length, Vetted ls c.shared.allocated library
  installed : ls.filterMap (·.2.installs) = c.shared.cachedLibrary.toList
  returned : ∀ l ∈ ls, ∀ library, l.2 = .returned (.ok library) →
    c.shared.cachedLibrary = some library
  next : ∀ t, Installs (mine t ls) (c.own t)

theorem after_nil : After [] (⟨.start, fun _ => .idle⟩ : Config T _ _) where
  holds := ⟨(fun _ h => by cases h), fun _ =>
    ⟨iff_of_false id (fun h => by cases h), (fun _ h => by cases h), fun _ => False.elim,
      fun _ => False.elim⟩⟩
  attempts _ := trivial
  vetted _ h := by cases h
  installed := rfl
  returned _ hl := absurd hl List.not_mem_nil
  next _ := ⟨(fun before _ _ _ h => by cases before <;> cases h),
    (fun before _ h => by cases before <;> cases h)⟩

omit [DecidableEq T] in
theorem LibraryStep.installs_spec (h : LibraryStep t s x a s' x') (hx : x.Relies t s) :
    s.cachedLibrary.toList ++ a.installs.toList = s'.cachedLibrary.toList := by
  obtain ⟨hsame, hnone⟩ | ⟨_, rfl, -, rfl, hset⟩ := h.caches
  · have hinstalls : a.installs = none := by
      cases a with
      | installed library => exact absurd rfl (hnone library)
      | _ => rfl
    rw [hsame, hinstalls]
    exact List.append_nil _
  · rw [hx.empty _ rfl, hset]
    rfl

omit [DecidableEq T] in
/-- What is returned was cached before. -/
theorem LibraryStep.returned_spec {library : Nat}
    (h : LibraryStep t s x (.returned (.ok library)) s' x') (hx : x.Relies t s) :
    s.cachedLibrary = some library := by
  generalize ha : LibraryAction.returned (.ok library) = a at h
  cases h with
  | readCached =>
    cases ha
    exact hx.returns _ rfl
  | installUnlock =>
    cases ha
    exact hx.returns _ rfl
  | _ => cases ha

theorem after_move {ls : List (T × LibraryAction)} {c c' : Config T (LibraryState T) LibraryThread}
    {l : T × LibraryAction} (hc : After ls c) (hmove : Threads.Moves LibraryStep c l c') :
    After (ls ++ [l]) c' := by
  have hholds := library_outline.move hc.holds hmove
  cases hmove with
  | @move s s' own t x' a taken =>
    have hx := hc.holds.own t
    have hown {P : LibraryThread → List LibraryAction → Prop}
        (hself : P x' (mine t ls ++ [a])) (hother : ∀ t', P (own t') (mine t' ls)) (t' : T) :
        P (Function.update own t x' t') (mine t' (ls ++ [(t, a)])) := by
      by_cases heq : t' = t
      · rw [heq, Function.update_self, mine_self]
        exact hself
      · rw [Function.update_of_ne heq, mine_other heq]
        exact hother t'
    refine ⟨hholds, ?_, taken.vets (hc.attempts t) hc.vetted, ?_, ?_, ?_⟩
    · exact hown (P := fun x actions => x.Attempt actions) (taken.attempts (hc.attempts t))
        hc.attempts
    · have hinstalls := taken.installs_spec hx
      rw [List.filterMap_append, hc.installed, ← hinstalls]
      cases hinstall : a.installs <;> simp [hinstall]
    · intro l hl library hlibrary
      rcases List.mem_append.mp hl with hl | hl
      · exact taken.keeps_cached hx (hc.returned l hl library hlibrary)
      · obtain rfl := List.mem_singleton.mp hl
        obtain rfl := hlibrary
        exact taken.keeps_cached hx (taken.returned_spec hx)
    · exact hown (P := fun x actions => Installs actions x) (taken.next (hc.next t)) hc.next

theorem after_run {ls : List (T × LibraryAction)} {c : Config T (LibraryState T) LibraryThread}
    (h : Run (Threads.Moves LibraryStep) ⟨.start, fun _ => .idle⟩ ls c) : After ls c :=
  h.history (fun _ _ _ _ hc hmove => after_move hc hmove) after_nil

/-! ## Another attempt -/

/-- A library file that can be loaded, and what loading it yields. -/
structure LibraryFile where
  path : String
  handle : UInt64
  answers : SymbolAnswers
  getABI : UInt64 → Int × UInt32
  abi : UInt32
  bindings : Bindings
  nameLen : Int × Nat
  copyName : Nat → Int × List UInt8 × Nat
  name : List UInt8
  probed : probeABIWithRegistrar answers getABI = .ok abi
  compatible : isCompatibleABI abi = true
  bound : bindWithRegistrar handle answers = .ok bindings
  named : implementationName nameLen copyName = (name, 0)

omit [DecidableEq T] in
/-- Who has the lock can release it. -/
theorem unlock_alone (hx : x.Holding) :
    ∃ as s' x', Alone LibraryStep t s x as s' x' ∧ s'.libraryMu = none := by
  have hread (cached : Option Nat) :
      ∃ a s' x', LibraryStep t s (.readUnlock cached) a s' x' ∧ s'.libraryMu = none := by
    cases cached with
    | none => exact ⟨_, _, _, .readNone, rfl⟩
    | some library => exact ⟨_, _, _, .readCached, rfl⟩
  match x, hx with
  | .read, _ =>
    obtain ⟨a, s', x', hstep, hmu⟩ := hread s.cachedLibrary
    exact ⟨_, s', x', .cons .read (.cons hstep (.nil _ _)), hmu⟩
  | .readUnlock cached, _ =>
    obtain ⟨a, s', x', hstep, hmu⟩ := hread cached
    exact ⟨_, s', x', .cons hstep (.nil _ _), hmu⟩
  | .installCheck library, _ =>
    cases hcached : s.cachedLibrary with
    | none =>
      exact ⟨_, _, _, .cons (.won hcached) <| .cons .install <| .cons .installUnlock <| .nil _ _,
        rfl⟩
    | some cached => exact ⟨_, _, _, .cons (.lost hcached) (.cons .installUnlock (.nil _ _)), rfl⟩
  | .install library, _ => exact ⟨_, _, _, .cons .install (.cons .installUnlock (.nil _ _)), rfl⟩
  | .installUnlock library, _ => exact ⟨_, _, _, .cons .installUnlock (.nil _ _), rfl⟩

omit [DecidableEq T] in
/-- With the lock free and a good file, a call returns a library. -/
theorem succeed_alone (file : LibraryFile) (hmu : s.libraryMu = none) :
    ∃ as s' library, Alone LibraryStep t s .idle (as ++ [.returned (.ok library)]) s' .idle := by
  obtain ⟨mu, cached, allocated⟩ := s
  obtain rfl : mu = none := hmu
  cases cached with
  | some library =>
    exact ⟨[.tau, .tau, .tau], _, library, .cons .call <| .cons (.readLock rfl) <| .cons .read <|
      .cons .readCached <| .nil _ _⟩
  | none =>
    exact ⟨[.tau, .tau, .tau, .tau, .resolved file.path, .loaded file.handle, .probed file.abi,
      .bound file.answers file.bindings, .named file.name allocated.length, .tau, .tau,
      .installed allocated.length], _, allocated.length,
      .cons .call <| .cons (.readLock rfl) <| .cons .read <| .cons .readNone <|
      .cons (.resolved _) <| .cons (.loaded _) <| .cons (.probed file.probed file.compatible) <|
      .cons (.bound file.bound) <| .cons (.named file.named) <| .cons (.installLock rfl) <|
      .cons (.won rfl) <| .cons .install <| .cons .installUnlock <| .nil _ _⟩

/-- **Whatever has failed, a later call can succeed.** -/
theorem succeed_later {ls : List (T × LibraryAction)}
    {c : Config T (LibraryState T) LibraryThread} (hc : After ls c) (file : LibraryFile)
    (hidle : c.own t = .idle) : ∃ ls' library c',
      Run (Threads.Moves LibraryStep) c (ls' ++ [(t, .returned (.ok library))]) c' := by
  obtain ⟨s, own⟩ := c
  have hfree : ∃ ls' s' own', Run (Threads.Moves LibraryStep) ⟨s, own⟩ ls' ⟨s', own'⟩ ∧
      s'.libraryMu = none ∧ own' t = .idle := by
    cases hmu : s.libraryMu with
    | none => exact ⟨[], s, own, .nil _, hmu, hidle⟩
    | some t' =>
      -- another goroutine has the lock, and may release it first
      have hholding := (hc.holds.own t').mu.mpr hmu
      have hne : t ≠ t' := by
        rintro rfl
        have hholding : (own t).Holding := hholding
        rw [show own t = .idle from hidle] at hholding
        exact hholding
      obtain ⟨as, s', x', hrun, hmu'⟩ := unlock_alone (t := t') (s := s) hholding
      refine ⟨_, s', _, hrun.run rfl, hmu', ?_⟩
      rw [Function.update_of_ne hne]
      exact hidle
  obtain ⟨ls', s', own', hrun, hmu, hidle'⟩ := hfree
  obtain ⟨as, s'', library, halone⟩ := succeed_alone (t := t) file hmu
  have hlater := halone.run hidle'
  rw [List.map_append] at hlater
  have hboth := hrun.append hlater
  rw [← List.append_assoc] at hboth
  exact ⟨_, library, _, hboth⟩

/-- Once there is a library in the cache it stays. -/
theorem cached_stays {ls ls' : List (T × LibraryAction)}
    {c c' : Config T (LibraryState T) LibraryThread} (hc : After ls c)
    (h : Run (Threads.Moves LibraryStep) c ls' c') {library : Nat}
    (hcached : c.shared.cachedLibrary = some library) :
    c'.shared.cachedLibrary = some library := by
  induction h generalizing ls with
  | nil _ => exact hcached
  | cons hmove _ ih =>
    refine ih (after_move hc hmove) ?_
    have hown := hc.holds.own
    cases hmove with
    | move taken => exact taken.keeps_cached (hown _) hcached

omit [DecidableEq T] in
/-- A step that reports an error changes nothing. -/
theorem LibraryStep.failed {err : LibraryError}
    (h : LibraryStep t s x (.returned (.error err)) s' x') : s' = s := by
  generalize ha : LibraryAction.returned (.error err) = a at h
  cases h with
  | readCached => cases ha
  | readNone => cases ha
  | readLock _ => cases ha
  | named _ => cases ha
  | installLock _ => cases ha
  | install => cases ha
  | installUnlock => cases ha
  | _ => rfl

/-- **A single library is ever activated.**  In every run, all calls that succeed return the same
library; the cache is set once at most, and never replaced or cleared; what is cached or returned
has been vetted; a failed attempt changes nothing, installs nothing, and after it, as at any
other time, a call that finds a good file can succeed. -/
theorem single_library_activated {ls : List (T × LibraryAction)}
    {c : Config T (LibraryState T) LibraryThread}
    (h : Run (Threads.Moves LibraryStep) ⟨.start, fun _ => .idle⟩ ls c) :
    (∀ t t' library library', (t, .returned (.ok library)) ∈ ls →
      (t', .returned (.ok library')) ∈ ls → library = library') ∧
    (ls.filterMap (·.2.installs)).length ≤ 1 ∧
    (∀ library, c.shared.cachedLibrary = some library → ∀ ls' c',
      Run (Threads.Moves LibraryStep) c ls' c' → c'.shared.cachedLibrary = some library) ∧
    (∀ library, c.shared.cachedLibrary = some library ∨
        (∃ t, (t, .returned (.ok library)) ∈ ls) → Vetted ls c.shared.allocated library) ∧
    (∀ t err c', Threads.Moves LibraryStep c (t, .returned (.error err)) c' →
      c'.shared = c.shared) ∧
    (∀ t before library a after, mine t ls = before ++ .installed library :: a :: after →
      a = .returned (.ok library)) ∧
    (∀ t, c.own t = .idle → LibraryFile → ∃ ls' library c',
      Run (Threads.Moves LibraryStep) c (ls' ++ [(t, .returned (.ok library))]) c') := by
  have hafter := after_run h
  refine ⟨?_, ?_, ?_, ?_, ?_, fun t => (hafter.next t).next, ?_⟩
  · intro t t' library library' hlibrary hlibrary'
    have hcached := hafter.returned _ hlibrary _ rfl
    have hcached' := hafter.returned _ hlibrary' _ rfl
    exact Option.some.inj (hcached.symm.trans hcached')
  · rw [hafter.installed]
    cases c.shared.cachedLibrary <;> simp
  · intro library hcached ls' c' hrun
    exact cached_stays hafter hrun hcached
  · intro library hlibrary
    have hcached : c.shared.cachedLibrary = some library := by
      rcases hlibrary with hcached | ⟨t, hreturned⟩
      · exact hcached
      · exact hafter.returned _ hreturned _ rfl
    exact hafter.vetted _ (hafter.holds.shared _ hcached)
  · intro t err c' hmove
    cases hmove with
    | move taken => exact taken.failed
  · intro t hidle file
    exact succeed_later hafter file hidle

end

/-! ## A sample -/

/-- A library where everything is found. -/
def sampleAnswers : SymbolAnswers := ⟨fun _ => .ok 16, fun _ _ => .ok ()⟩

def sampleFile : LibraryFile where
  path := "/cache/libpure_simdjson.so"
  handle := 1
  answers := sampleAnswers
  getABI := fun _ => (0, abiVersion)
  abi := abiVersion
  bindings := ⟨1, requiredSymbols.map (·, 16), true, true⟩
  nameLen := (0, 7)
  copyName := fun _ => (0, [104, 97, 115, 119, 101, 108, 108], 7)
  name := [104, 97, 115, 119, 101, 108, 108]
  probed := rfl
  compatible := by decide
  bound := rfl
  named := rfl

/-- A goroutine that has found nothing in the cache. -/
theorem sampleFile_missed (t : Bool) {s : LibraryState Bool} (hmu : s.libraryMu = none)
    (hnone : s.cachedLibrary = none) :
    Alone LibraryStep t s .idle [.tau, .tau, .tau, .tau] s .resolvePath := by
  obtain ⟨mu, cached, allocated⟩ := s
  obtain rfl : mu = none := hmu
  obtain rfl : cached = none := hnone
  exact .cons .call <| .cons (.readLock rfl) <| .cons .read <| .cons .readNone <| .nil _ _

/-- What it does then, up to the installation. -/
theorem sampleFile_loaded (t : Bool) (s : LibraryState Bool) :
    Alone LibraryStep t s .resolvePath [.resolved sampleFile.path, .loaded 1, .probed abiVersion,
      .bound sampleAnswers sampleFile.bindings, .named sampleFile.name s.allocated.length]
      { s with allocated := s.allocated ++ [⟨sampleFile.path, 1, sampleFile.name,
        sampleFile.bindings⟩] } (.installLock s.allocated.length) :=
  .cons (.resolved _) <| .cons (.loaded _) <| .cons (.probed sampleFile.probed rfl) <|
    .cons (.bound sampleFile.bound) <| .cons (.named sampleFile.named) <| .nil _ _

/-- Two goroutines load the library at the same time; one installs it, and the other one returns
that one too. -/
theorem sampleFile_run : ∃ (ls : List (Bool × LibraryAction))
    (c : Config Bool (LibraryState Bool) LibraryThread),
    Run (Threads.Moves LibraryStep) ⟨.start, fun _ => .idle⟩ ls c ∧
      (true, .returned (.ok 0)) ∈ ls ∧ (false, .returned (.ok 0)) ∈ ls ∧
      c.shared.cachedLibrary = some 0 ∧ c.shared.allocated.length = 2 := by
  have hfirst : Run (Threads.Moves LibraryStep) ⟨.start, fun _ : Bool => .idle⟩ _ _ :=
    (sampleFile_missed true rfl rfl).run rfl
  have hmissed := hfirst.append ((sampleFile_missed false rfl rfl).run rfl)
  have hloaded := (hmissed.append ((sampleFile_loaded true _).run rfl)).append
    ((sampleFile_loaded false _).run rfl)
  have hwon := hloaded.append (Alone.run (t := true) (.cons (.installLock rfl) <|
    .cons (.won rfl) <| .cons .install <| .cons .installUnlock <| .nil _ _) rfl)
  have hlost := hwon.append (Alone.run (t := false) (.cons (.installLock rfl) <|
    .cons (.lost rfl) <| .cons .installUnlock <| .nil _ _) rfl)
  exact ⟨_, _, hlost, by simp [LibraryState.start], by simp [LibraryState.start], rfl, rfl⟩

/-- The one that both return is the only one installed, and has been vetted. -/
theorem single_library_activated_sample : ∃ (ls : List (Bool × LibraryAction))
    (c : Config Bool (LibraryState Bool) LibraryThread),
    Run (Threads.Moves LibraryStep) ⟨.start, fun _ => .idle⟩ ls c ∧
      (true, .returned (.ok 0)) ∈ ls ∧ (false, .returned (.ok 0)) ∈ ls ∧
      (ls.filterMap (·.2.installs)).length ≤ 1 ∧ c.shared.allocated.length = 2 ∧
      Vetted ls c.shared.allocated 0 := by
  obtain ⟨ls, c, hrun, htrue, hfalse, hcached, hallocated⟩ := sampleFile_run
  obtain ⟨-, hone, -, hvetted, -⟩ := single_library_activated hrun
  exact ⟨ls, c, hrun, htrue, hfalse, hone, hallocated, hvetted 0 (Or.inl hcached)⟩

end PureSimdjson.Library
