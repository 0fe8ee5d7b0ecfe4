import PureSimdjson.Threads
import PureSimdjson.VerifiedDownloads

/-!
# Installations

Goroutines of any number of processes want the same artifact at the same cache path.  Each
looks, takes the file lock, looks again, downloads, compares and renames; any step may fail,
and a process may crash between two steps, which gives up its locks and may leave a temporary
file behind.
-/
namespace PureSimdjson.Bootstrap

open Runs Threads Texts

/-! ## Places -/

/-- What makes a cache path: `artifactCachePath` of it. -/
structure Target where
  dir : Text
  version : Text
  goos : Text
  goarch : Text
  deriving DecidableEq

/-- `effectiveCacheDir` -/
def BootstrapConfig.effectiveCacheDir (cfg : BootstrapConfig) : Text :=
  if cfg.destDir ≠ [] then cfg.destDir else cfg.cacheDir

def BootstrapConfig.target (cfg : BootstrapConfig) : Target :=
  ⟨cfg.effectiveCacheDir, cfg.version, cfg.goos, cfg.goarch⟩

/-- A caller of `ensureArtifact`, and what it will meet. -/
structure Caller where
  cfg : BootstrapConfig
  encounter : Encounter

/-- The lock file and the cache directory. -/
structure InstallState (T : Type) where
  lock : Option T
  disk : Disk

/-- Where a goroutine is in `ensureArtifact`. -/
inductive InstallThread where
  | idle
  | stat (caller : Caller)
  | makeDir (caller : Caller)
  -- `withProcessFileLock`
  | lockFile (caller : Caller)
  | statAgain (caller : Caller)
  -- `downloadAndVerify`
  | resolve (caller : Caller)
  | startDownload (caller : Caller) (expected : Text) (now : Nat)
  | download (caller : Caller) (expected : Text) (now : Nat)
  | compare (caller : Caller) (expected : Text) (tmpPath : Nat) (digest : Text)
  | install (caller : Caller) (expected : Text) (tmpPath : Nat) (digest : Text)
  | unlockFile (result : Except Err Unit)
  | leave (result : Except Err Unit)

/-- What a step shows. -/
inductive InstallAction where
  | tau
  | resolved (caller : Caller) (expected : Text)
  | downloading
  | renamed
  | returned (result : Except Err Unit)
  | crashed

/-- The goroutine has the file lock. -/
def InstallThread.Holding : InstallThread → Prop
  | .statAgain _ | .resolve _ | .startDownload _ _ _ | .download _ _ _ | .compare _ _ _ _
  | .install _ _ _ _ | .unlockFile _ => True
  | _ => False

/-- The goroutine has found nothing under the lock. -/
def InstallThread.Missing : InstallThread → Prop
  | .resolve _ | .startDownload _ _ _ | .download _ _ _ | .compare _ _ _ _ | .install _ _ _ _ =>
      True
  | _ => False

/-- The goroutine has downloaded to the temporary file. -/
def InstallThread.Downloaded (tmpPath : Nat) (digest : Text) : InstallThread → Prop
  | .compare _ _ tmpPath' digest' | .install _ _ tmpPath' digest' =>
      tmpPath' = tmpPath ∧ digest' = digest
  | _ => False

/-- The goroutine knows the digest that is expected. -/
def InstallThread.Expects (caller : Caller) (expected : Text) : InstallThread → Prop
  | .startDownload caller' expected' _ | .download caller' expected' _
  | .compare caller' expected' _ _ | .install caller' expected' _ _ =>
      caller' = caller ∧ expected' = expected
  | _ => False

/-- The goroutine is about to return success. -/
def InstallThread.Succeeds : InstallThread → Prop
  | .unlockFile result | .leave result => result = .ok ()
  | _ => False

/-- What a crash leaves in the cache directory. -/
def InstallThread.Leaves (d d' : Disk) : InstallThread → Prop
  | .download _ _ _ => d' = d ∨ ∃ path content, d.Adds d' path content
  | _ => d' = d

/-- The error of `downloadAndVerify` for another digest. -/
def Caller.mismatch (caller : Caller) (expected digest : Text) : Err :=
  markPermanentBootstrapError (.wrap (text "expected " ++ expected ++ text ", got " ++ digest ++
    text " for " ++ checksumKey caller.cfg.version caller.cfg.goos caller.cfg.goarch)
    (.sentinel .checksumMismatch))

/-- `resolveExpectedChecksum` -/
def Caller.resolves (caller : Caller) (now : Nat) : Except Err Text × Nat :=
  resolveExpectedChecksum caller.encounter.checksums caller.encounter.sums caller.cfg now

/-! ## Steps -/

section
variable {T : Type}

/-- **One step of a goroutine.** -/
inductive InstallStep (sha256 : Text → Text) (target : Target) (t : T) :
    InstallState T → InstallThread → InstallAction → InstallState T → InstallThread → Prop where
  | call {s : InstallState T} {caller : Caller} (htarget : caller.cfg.target = target) :
      InstallStep sha256 target t s .idle .tau s (.stat caller)
  | hit {s : InstallState T} {caller : Caller} (hcached : s.disk.cached.isSome) :
      InstallStep sha256 target t s (.stat caller) .tau s (.leave (.ok ()))
  | miss {s : InstallState T} {caller : Caller} (hcached : s.disk.cached = none) :
      InstallStep sha256 target t s (.stat caller) .tau s (.makeDir caller)
  | unmade {s : InstallState T} {caller : Caller} (err : Err) :
      -- one of the two directories cannot be made, or the lock file cannot be opened
      InstallStep sha256 target t s (.makeDir caller) .tau s (.leave (.error err))
  | made {s : InstallState T} {caller : Caller} :
      InstallStep sha256 target t s (.makeDir caller) .tau s (.lockFile caller)
  | unlocked {s : InstallState T} {caller : Caller} (err : Err) :
      -- the lock fails, or the caller has waited too long, or its context has ended
      InstallStep sha256 target t s (.lockFile caller) .tau s (.leave (.error err))
  | locked {s : InstallState T} {caller : Caller} (hlock : s.lock = none) :
      InstallStep sha256 target t s (.lockFile caller) .tau { s with lock := some t }
        (.statAgain caller)
  | hitAgain {s : InstallState T} {caller : Caller} (hcached : s.disk.cached.isSome) :
      InstallStep sha256 target t s (.statAgain caller) .tau s (.unlockFile (.ok ()))
  | missAgain {s : InstallState T} {caller : Caller} (hcached : s.disk.cached = none) :
      InstallStep sha256 target t s (.statAgain caller) .tau s (.resolve caller)
  | unresolved {s : InstallState T} {caller : Caller} {now now' : Nat} {err : Err}
      (h : caller.resolves now = (.error err, now')) :
      InstallStep sha256 target t s (.resolve caller) .tau s (.unlockFile (.error err))
  | resolved {s : InstallState T} {caller : Caller} {now now' : Nat} {expected : Text}
      (h : caller.resolves now = (.ok expected, now')) :
      InstallStep sha256 target t s (.resolve caller) (.resolved caller expected) s
        (.startDownload caller expected now')
  | startDownload {s : InstallState T} {caller : Caller} {expected : Text} {now : Nat} :
      InstallStep sha256 target t s (.startDownload caller expected now) .downloading s
        (.download caller expected now)
  | undownloaded {s : InstallState T} {caller : Caller} {expected : Text} {now : Nat} {err : Err}
      {after : Clocked Disk}
      (h : downloadArtifact sha256 caller.encounter caller.cfg ⟨now, s.disk⟩ =
        (.error err, after)) :
      InstallStep sha256 target t s (.download caller expected now) .tau
        { s with disk := after.disk } (.unlockFile (.error err))
  | downloaded {s : InstallState T} {caller : Caller} {expected : Text} {now tmpPath : Nat}
      {digest : Text} {after : Clocked Disk}
      (h : downloadArtifact sha256 caller.encounter caller.cfg ⟨now, s.disk⟩ =
        (.ok (tmpPath, digest), after)) :
      InstallStep sha256 target t s (.download caller expected now) .tau
        { s with disk := after.disk } (.compare caller expected tmpPath digest)
  | mismatch {s : InstallState T} {caller : Caller} {expected digest : Text} {tmpPath : Nat}
      (h : equalFold digest expected = false) :
      InstallStep sha256 target t s (.compare caller expected tmpPath digest) .tau
        { s with disk := s.disk.remove tmpPath }
        (.unlockFile (.error (caller.mismatch expected digest)))
  | verified {s : InstallState T} {caller : Caller} {expected digest : Text} {tmpPath : Nat}
      (h : equalFold digest expected = true) :
      InstallStep sha256 target t s (.compare caller expected tmpPath digest) .tau s
        (.install caller expected tmpPath digest)
  | uninstalled {s : InstallState T} {caller : Caller} {expected digest : Text} {tmpPath : Nat}
      {err : Err} {disk : Disk}
      (h : atomicInstall caller.encounter.install tmpPath s.disk = (.error err, disk)) :
      InstallStep sha256 target t s (.install caller expected tmpPath digest) .tau { s with disk }
        (.unlockFile (.error err))
  | installed {s : InstallState T} {caller : Caller} {expected digest : Text} {tmpPath : Nat}
      {disk : Disk} (h : atomicInstall caller.encounter.install tmpPath s.disk = (.ok (), disk)) :
      InstallStep sha256 target t s (.install caller expected tmpPath digest) .renamed
        { s with disk } (.unlockFile (.ok ()))
  | unlockFile {s : InstallState T} {result : Except Err Unit} :
      InstallStep sha256 target t s (.unlockFile result) .tau { s with lock := none }
        (.leave result)
  | unlockFailed {s : InstallState T} {result : Except Err Unit} (err : Err) :
      -- closing the file gives up the lock all the same
      InstallStep sha256 target t s (.unlockFile result) .tau { s with lock := none }
        (.leave (.error err))
  | leave {s : InstallState T} {result : Except Err Unit} :
      InstallStep sha256 target t s (.leave result) (.returned result) s .idle
  | crash {s : InstallState T} {x : InstallThread} (h : ¬ x.Holding) :
      InstallStep sha256 target t s x .crashed s .idle
  | crashHolding {s : InstallState T} {x : InstallThread} {disk : Disk} (h : x.Holding)
      (hdisk : x.Leaves s.disk disk) :
      InstallStep sha256 target t s x .crashed ⟨none, disk⟩ .idle

end

/-! ## One step -/

section
variable {T : Type} {sha256 : Text → Text} {target : Target} {t : T} {s s' : InstallState T}
  {x x' : InstallThread} {a : InstallAction}

/-- What a goroutine relies on where it is. -/
structure InstallThread.Relies (sha256 : Text → Text) (t : T) (s : InstallState T)
    (x : InstallThread) : Prop where
  lock : x.Holding ↔ s.lock = some t
  missing : x.Missing → s.disk.cached = none
  downloaded : ∀ tmpPath digest, x.Downloaded tmpPath digest → ∃ content,
    s.disk.temps.find? (·.1 = tmpPath) = some (tmpPath, content) ∧ digest = sha256 content
  verified : ∀ caller expected tmpPath digest, x = .install caller expected tmpPath digest →
    equalFold digest expected = true
  succeeds : x.Succeeds → s.disk.cached.isSome

theorem InstallThread.Missing.holding (h : x.Missing) : x.Holding := by
  cases x <;> trivial

theorem InstallThread.Downloaded.missing {tmpPath : Nat} {digest : Text}
    (h : x.Downloaded tmpPath digest) : x.Missing := by
  cases x <;> trivial

theorem InstallStep.locks (h : InstallStep sha256 target t s x a s' x')
    (hx : x.Relies sha256 t s) : LockStep t s.lock s'.lock := by
  cases h with
  | locked hlock => exact hlock ▸ .acquire
  | unlockFile => exact hx.lock.mp trivial ▸ .release
  | unlockFailed err => exact hx.lock.mp trivial ▸ .release
  | crashHolding hholding _ => exact hx.lock.mp hholding ▸ .release
  | _ => exact .keep _

theorem atomicInstall_ok {reply : InstallReply} {tmpPath : Nat} {d d' : Disk}
    (h : atomicInstall reply tmpPath d = (.ok (), d')) : d' = d.rename tmpPath := by
  rw [atomicInstall] at h
  split at h
  · cases h
  split at h
  · cases h
  · exact (congrArg Prod.snd h).symm

/-- An installation that fails installs nothing. -/
theorem atomicInstall_error {reply : InstallReply} {tmpPath : Nat} {d d' : Disk} {err : Err}
    (h : atomicInstall reply tmpPath d = (.error err, d')) : d'.cached = d.cached := by
  rw [atomicInstall] at h
  split at h
  · obtain rfl := congrArg Prod.snd h
    rfl
  split at h
  · obtain rfl := congrArg Prod.snd h
    rfl
  · cases h

theorem InstallThread.Leaves.cached {d d' : Disk} (h : x.Leaves d d') : d'.cached = d.cached := by
  cases x with
  | download caller expected now =>
    rcases h with rfl | ⟨path, content, hadds⟩
    · rfl
    · exact hadds.cached
  | _ =>
    obtain rfl := h
    rfl

/-- **Only who has the lock changes the cache directory.** -/
theorem InstallStep.changes (h : InstallStep sha256 target t s x a s' x') :
    s'.disk = s.disk ∨ x.Holding := by
  cases h with
  | undownloaded _ => exact Or.inr trivial
  | downloaded _ => exact Or.inr trivial
  | mismatch _ => exact Or.inr trivial
  | uninstalled _ => exact Or.inr trivial
  | installed _ => exact Or.inr trivial
  | crashHolding hholding _ => exact Or.inr hholding
  | _ => exact Or.inl rfl

/-- **Only an installation changes what is cached.** -/
theorem InstallStep.caches (h : InstallStep sha256 target t s x a s' x') :
    (s'.disk.cached = s.disk.cached ∧ a ≠ .renamed) ∨
      ∃ caller expected tmpPath digest, x = .install caller expected tmpPath digest ∧
        a = .renamed ∧ s'.disk = s.disk.rename tmpPath := by
  have hkept {a : InstallAction} (hcached : s'.disk.cached = s.disk.cached) (ha : a ≠ .renamed) :
      (s'.disk.cached = s.disk.cached ∧ a ≠ .renamed) ∨
        ∃ caller expected tmpPath digest, x = .install caller expected tmpPath digest ∧
          a = .renamed ∧ s'.disk = s.disk.rename tmpPath := Or.inl ⟨hcached, ha⟩
  cases h with
  | undownloaded hdownload => exact hkept (downloadArtifact_error hdownload).2 (by simp)
  | downloaded hdownload =>
    obtain ⟨content, hadds, -⟩ := downloadArtifact_ok hdownload
    exact hkept hadds.cached (by simp)
  | mismatch _ => exact hkept rfl (by simp)
  | uninstalled hinstall => exact hkept (atomicInstall_error hinstall) (by simp)
  | installed hinstall => exact Or.inr ⟨_, _, _, _, rfl, rfl, atomicInstall_ok hinstall⟩
  | crashHolding _ hdisk => exact hkept hdisk.cached (by simp)
  | _ => exact hkept rfl (by simp)

/-- What the rename puts in place is what was downloaded and compared. -/
theorem InstallThread.Relies.renamed {caller : Caller} {expected digest : Text} {tmpPath : Nat}
    (hx : InstallThread.Relies sha256 t s (.install caller expected tmpPath digest)) :
    ∃ content, (s.disk.rename tmpPath).cached = some content ∧
      equalFold (sha256 content) expected = true := by
  obtain ⟨content, hfind, rfl⟩ := hx.downloaded tmpPath digest ⟨rfl, rfl⟩
  refine ⟨content, ?_, hx.verified _ _ _ _ rfl⟩
  rw [Disk.rename, hfind]
  rfl

/-- What is cached stays cached. -/
theorem InstallStep.keeps_cached (h : InstallStep sha256 target t s x a s' x')
    (hx : x.Relies sha256 t s) {content : Text} (hcached : s.disk.cached = some content) :
    s'.disk.cached = some content ∧ a ≠ .renamed ∧ a ≠ .downloading := by
  have hmissing : ¬ x.Missing := by
    intro hmissing
    rw [hx.missing hmissing] at hcached
    cases hcached
  rcases h.caches with ⟨hsame, hrenamed⟩ | ⟨_, _, _, _, rfl, _, _⟩
  · refine ⟨hsame.trans hcached, hrenamed, ?_⟩
    rintro rfl
    cases h
    exact hmissing trivial
  · exact absurd trivial hmissing

theorem InstallStep.holds (h : InstallStep sha256 target t s x a s' x')
    (hx : x.Relies sha256 t s) : x'.Holding ↔ s'.lock = some t := by
  have hlock := hx.lock
  cases h with
  | locked _ => exact iff_of_true trivial rfl
  | unlockFile => exact iff_of_false id (fun h => by cases h)
  | unlockFailed _ => exact iff_of_false id (fun h => by cases h)
  | crash hholding => exact iff_of_false id fun h => hholding (hlock.mpr h)
  | crashHolding _ _ => exact iff_of_false id (fun h => by cases h)
  | _ => exact hlock

theorem InstallStep.missing (h : InstallStep sha256 target t s x a s' x')
    (hx : x.Relies sha256 t s) (hx' : x'.Missing) : s'.disk.cached = none := by
  cases h with
  | missAgain hcached => exact hcached
  | resolved _ => exact hx.missing trivial
  | startDownload => exact hx.missing trivial
  | downloaded hdownload =>
    obtain ⟨content, hadds, -⟩ := downloadArtifact_ok hdownload
    exact hadds.cached.trans (hx.missing trivial)
  | verified _ => exact hx.missing trivial
  | _ => exact hx'.elim

theorem InstallStep.downloads (h : InstallStep sha256 target t s x a s' x')
    (hx : x.Relies sha256 t s) {tmpPath : Nat} {digest : Text}
    (hx' : x'.Downloaded tmpPath digest) : ∃ content,
      s'.disk.temps.find? (·.1 = tmpPath) = some (tmpPath, content) ∧ digest = sha256 content := by
  cases h with
  | downloaded hdownload =>
    obtain ⟨content, hadds, hdigest⟩ := downloadArtifact_ok hdownload
    obtain ⟨rfl, rfl⟩ := hx'
    refine ⟨content, ?_, hdigest⟩
    dsimp only
    rw [hadds.temps, List.find?_cons_of_pos (by simp)]
  | verified _ => exact hx.downloaded tmpPath digest hx'
  | _ => exact hx'.elim

theorem InstallStep.succeeds (h : InstallStep sha256 target t s x a s' x')
    (hx : x.Relies sha256 t s) (hx' : x'.Succeeds) : s'.disk.cached.isSome := by
  cases h with
  | hit hcached => exact hcached
  | hitAgain hcached => exact hcached
  | unlockFile => exact hx.succeeds hx'
  | installed hinstall =>
    obtain ⟨content, hcached, -⟩ := hx.renamed
    rw [atomicInstall_ok hinstall, hcached]
    rfl
  | unmade err => cases hx'
  | unlocked err => cases hx'
  | unresolved _ => cases hx'
  | undownloaded _ => cases hx'
  | mismatch _ => cases hx'
  | uninstalled _ => cases hx'
  | unlockFailed err => cases hx'
  | _ => exact hx'.elim

theorem InstallStep.relies (h : InstallStep sha256 target t s x a s' x')
    (hx : x.Relies sha256 t s) : x'.Relies sha256 t s' where
  lock := h.holds hx
  missing := h.missing hx
  downloaded _ _ := h.downloads hx
  verified caller expected tmpPath digest hx' := by
    cases h with
    | verified hequal =>
      cases hx'
      exact hequal
    | _ => cases hx'
  succeeds := h.succeeds hx

/-- **The outline stands**: where one goroutine has the lock, no other touches the directory. -/
theorem install_outline : Outline (InstallStep (T := T) sha256 target) (fun _ => True)
    fun t s x => x.Relies sha256 t s where
  keeps _ hx h := ⟨trivial, h.relies hx⟩
  stable {t t' s s' x x' y a} hne _ hx h hy := by
    have hdisk (hholding : y.Holding) : s'.disk = s.disk := by
      refine h.changes.resolve_right fun hother => ?_
      have hown := hx.lock.mp hother
      rw [hy.lock.mp hholding] at hown
      exact hne (Option.some.inj hown)
    refine ⟨hy.lock.trans ((h.locks hx).other hne).symm, ?_, ?_, hy.verified, ?_⟩
    · intro hmissing
      rw [hdisk hmissing.holding]
      exact hy.missing hmissing
    · intro tmpPath digest hdownloaded
      rw [hdisk hdownloaded.missing.holding]
      exact hy.downloaded tmpPath digest hdownloaded
    · intro hsucceeds
      obtain ⟨content, hcached⟩ := Option.isSome_iff_exists.mp (hy.succeeds hsucceeds)
      rw [(h.keeps_cached hx hcached).1]
      rfl

/-! ## Runs -/

variable [DecidableEq T]

/-- A caller of the target has resolved the digest. -/
def ResolvedIn (target : Target) (ls : List (T × InstallAction)) (t : T) (caller : Caller)
    (expected : Text) : Prop :=
  (t, .resolved caller expected) ∈ ls ∧ caller.cfg.target = target ∧
    ∃ now now', caller.resolves now = (.ok expected, now')

omit [DecidableEq T] in
theorem ResolvedIn.snoc {ls : List (T × InstallAction)} {caller : Caller} {expected : Text}
    (h : ResolvedIn target ls t caller expected) (l : T × InstallAction) :
    ResolvedIn target (ls ++ [l]) t caller expected :=
  ⟨List.mem_append_left _ h.1, h.2⟩

/-- The caller in the place. -/
def InstallThread.caller : InstallThread → Option Caller
  | .stat caller | .makeDir caller | .lockFile caller | .statAgain caller | .resolve caller
  | .startDownload caller _ _ | .download caller _ _ | .compare caller _ _ _
  | .install caller _ _ _ => some caller
  | .idle | .unlockFile _ | .leave _ => none

omit [DecidableEq T] in
theorem InstallStep.caller (h : InstallStep sha256 target t s x a s' x')
    (hx : ∀ caller ∈ x.caller, caller.cfg.target = target) :
    ∀ caller ∈ x'.caller, caller.cfg.target = target := by
  cases h with
  | call htarget =>
    rintro caller hcaller
    cases hcaller
    exact htarget
  | _ => first | exact hx | (rintro _ hcaller; cases hcaller)

omit [DecidableEq T] in
theorem InstallStep.expects (h : InstallStep sha256 target t s x a s' x')
    {ls : List (T × InstallAction)} (htarget : ∀ caller ∈ x.caller, caller.cfg.target = target)
    (hx : ∀ caller expected, x.Expects caller expected → ResolvedIn target ls t caller expected)
    {caller : Caller} {expected : Text} (hx' : x'.Expects caller expected) :
    ResolvedIn target (ls ++ [(t, a)]) t caller expected := by
  cases h with
  | resolved hresolves =>
    obtain ⟨rfl, rfl⟩ := hx'
    exact ⟨by simp, htarget _ rfl, _, _, hresolves⟩
  | startDownload => exact (hx _ _ hx').snoc _
  | downloaded _ => exact (hx _ _ hx').snoc _
  | verified _ => exact (hx _ _ hx').snoc _
  | _ => exact hx'.elim

/-- What holds after some moves. -/
structure InstallAfter (sha256 : Text → Text) (target : Target) (ls : List (T × InstallAction))
    (c : Config T (InstallState T) InstallThread) : Prop where
  holds : Holds (fun _ => True) (fun t s x => x.Relies sha256 t s) c
  callers : ∀ t, ∀ caller ∈ (c.own t).caller, caller.cfg.target = target
  expects : ∀ t caller expected, (c.own t).Expects caller expected →
    ResolvedIn target ls t caller expected
  cached : ∀ content, c.shared.disk.cached = some content → ∃ t caller expected,
    ResolvedIn target ls t caller expected ∧ equalFold (sha256 content) expected = true

theorem installAfter_move {ls : List (T × InstallAction)}
    {c c' : Config T (InstallState T) InstallThread} {l : T × InstallAction}
    (hc : InstallAfter sha256 target ls c)
    (hmove : Threads.Moves (InstallStep sha256 target) c l c') :
    InstallAfter sha256 target (ls ++ [l]) c' := by
  have hholds := install_outline.move hc.holds hmove
  cases hmove with
  | @move s s' own t x' a taken =>
    have hx : (own t).Relies sha256 t s := hc.holds.own t
    refine ⟨hholds, ?_, ?_, ?_⟩
    · intro t'
      show ∀ caller ∈ (Function.update own t x' t').caller, _
      by_cases heq : t' = t
      · rw [heq, Function.update_self]
        exact taken.caller (hc.callers t)
      · rw [Function.update_of_ne heq]
        exact hc.callers t'
    · intro t' caller expected
      show (Function.update own t x' t').Expects caller expected → _
      by_cases heq : t' = t
      · rw [heq, Function.update_self]
        exact taken.expects (hc.callers t) (hc.expects t)
      · rw [Function.update_of_ne heq]
        exact fun hexpects => (hc.expects t' caller expected hexpects).snoc _
    · intro content hcached
      rcases taken.caches with ⟨hsame, -⟩ | ⟨caller, expected, tmpPath, digest, hinstall, -, hdisk⟩
      · obtain ⟨t', caller, expected, hresolved, hequal⟩ :=
          hc.cached content (hsame.symm.trans hcached)
        exact ⟨t', caller, expected, hresolved.snoc _, hequal⟩
      · rw [hinstall] at hx
        obtain ⟨content', hrenamed, hequal⟩ := hx.renamed
        have hcontent : content' = content := by
          have hcached' : s'.disk.cached = some content := hcached
          rw [hdisk, hrenamed] at hcached'
          exact Option.some.inj hcached'
        have hexpects : (own t).Expects caller expected := by
          rw [hinstall]
          exact ⟨rfl, rfl⟩
        refine ⟨t, caller, expected, (hc.expects t caller expected hexpects).snoc _, ?_⟩
        rw [← hcontent]
        exact hequal

omit [DecidableEq T] in
/-- Nobody has called yet, and nothing is cached. -/
theorem installAfter_nil {disk : Disk} (hdisk : disk.cached = none) :
    InstallAfter sha256 target [] (⟨⟨none, disk⟩, fun _ => .idle⟩ : Config T _ _) := by
  refine ⟨⟨trivial, fun t => ⟨?_, ?_, ?_, ?_, ?_⟩⟩, ?_, ?_, ?_⟩
  · exact iff_of_false id (fun h => by cases h)
  · exact False.elim
  · exact fun _ _ => False.elim
  · exact fun _ _ _ _ h => by cases h
  · exact False.elim
  · exact fun _ _ h => by cases h
  · exact fun _ _ _ => False.elim
  · intro content hcached
    rw [hdisk] at hcached
    cases hcached

theorem installAfter_run {disk : Disk} (hdisk : disk.cached = none)
    {ls : List (T × InstallAction)} {c : Config T (InstallState T) InstallThread}
    (h : Run (Threads.Moves (InstallStep sha256 target)) ⟨⟨none, disk⟩, fun _ => .idle⟩ ls c) :
    InstallAfter sha256 target ls c :=
  h.history (fun _ _ _ _ hc hmove => installAfter_move hc hmove) (installAfter_nil hdisk)

theorem cached_stays_move {c c' : Config T (InstallState T) InstallThread} {l : T × InstallAction}
    (hmove : Threads.Moves (InstallStep sha256 target) c l c')
    (hc : Holds (fun _ => True) (fun t s x => InstallThread.Relies sha256 t s x) c)
    {content : Text} (hcached : c.shared.disk.cached = some content) :
    c'.shared.disk.cached = some content ∧ l.2 ≠ .renamed ∧ l.2 ≠ .downloading := by
  have hown := hc.own
  cases hmove with
  | move taken => exact taken.keeps_cached (hown _) hcached

/-- Once there is a file it stays, and nobody downloads or renames any more. -/
theorem cached_stays_run {c c' : Config T (InstallState T) InstallThread}
    {ls : List (T × InstallAction)}
    (h : Run (Threads.Moves (InstallStep sha256 target)) c ls c')
    (hc : Holds (fun _ => True) (fun t s x => InstallThread.Relies sha256 t s x) c)
    {content : Text} (hcached : c.shared.disk.cached = some content) :
    c'.shared.disk.cached = some content ∧ ∀ l ∈ ls, l.2 ≠ .renamed ∧ l.2 ≠ .downloading := by
  induction h with
  | nil c => exact ⟨hcached, fun l hl => absurd hl List.not_mem_nil⟩
  | cons hmove _ ih =>
    obtain ⟨hcached', hnone⟩ := cached_stays_move hmove hc hcached
    obtain ⟨hlast, hrest⟩ := ih (install_outline.move hc hmove) hcached'
    refine ⟨hlast, fun l hl => ?_⟩
    rcases List.mem_cons.mp hl with rfl | hl
    · exact hnone
    · exact hrest l hl

omit [DecidableEq T] in
/-- Who reports success was about to. -/
theorem InstallStep.returned (h : InstallStep sha256 target t s x (.returned (.ok ())) s' x') :
    x.Succeeds ∧ s' = s := by
  generalize ha : InstallAction.returned (.ok ()) = a at h
  cases h with
  | leave =>
    cases ha
    exact ⟨rfl, rfl⟩
  | _ => cases ha

/-- **Artifact installation is safe.**  In every run, from an empty cache path: what is there has
the digest that one of the callers resolved; no caller returns success while there is nothing;
and once there is something it stays, and no further download is started and no further file
renamed. -/
theorem installation_safe {disk : Disk} (hdisk : disk.cached = none)
    {ls : List (T × InstallAction)} {c : Config T (InstallState T) InstallThread}
    (h : Run (Threads.Moves (InstallStep sha256 target)) ⟨⟨none, disk⟩, fun _ => .idle⟩ ls c) :
    (∀ content, c.shared.disk.cached = some content → ∃ t caller expected,
      ResolvedIn target ls t caller expected ∧ equalFold (sha256 content) expected = true) ∧
    (∀ t c', Threads.Moves (InstallStep sha256 target) c (t, .returned (.ok ())) c' →
      c.shared.disk.cached.isSome ∧ c'.shared.disk.cached.isSome) ∧
    (∀ content, c.shared.disk.cached = some content → ∀ ls' c',
      Run (Threads.Moves (InstallStep sha256 target)) c ls' c' →
        c'.shared.disk.cached = some content ∧
        ∀ l ∈ ls', l.2 ≠ .renamed ∧ l.2 ≠ .downloading) := by
  have hafter := installAfter_run hdisk h
  refine ⟨hafter.cached, ?_, fun content hcached ls' c' hrun =>
    cached_stays_run hrun hafter.holds hcached⟩
  intro t c' hmove
  have hown := hafter.holds.own
  cases hmove with
  | move taken =>
    obtain ⟨hsucceeds, rfl⟩ := taken.returned
    have hcached := (hown t).succeeds hsucceeds
    exact ⟨hcached, hcached⟩

end

/-! ## A goroutine that is let alone -/

/-- From where the lock is held and nothing is there, a goroutine that is let alone does what
`downloadAndVerify` does. -/
theorem alone_downloadAndVerify {T : Type} (sha256 : Text → Text) (target : Target) (t : T)
    (caller : Caller) (now : Nat) (s : InstallState T) :
    let result := downloadAndVerify sha256 caller.encounter caller.cfg ⟨now, s.disk⟩
    ∃ as, Alone (InstallStep sha256 target) t s (.resolve caller) as
      { s with disk := result.2.disk } (.unlockFile result.1) := by
  intro result
  rcases hresolved : caller.resolves now with ⟨resolved, now'⟩
  have hresult : result = downloadAndVerify sha256 caller.encounter caller.cfg ⟨now, s.disk⟩ := rfl
  rw [downloadAndVerify] at hresult
  rw [Caller.resolves] at hresolved
  simp only [hresolved] at hresult
  cases resolved with
  | error err =>
    rw [hresult]
    exact ⟨_, .cons (.unresolved hresolved) (.nil _ _)⟩
  | ok expected =>
    dsimp only at hresult
    rcases hdownload : downloadArtifact sha256 caller.encounter caller.cfg ⟨now', s.disk⟩ with
      ⟨downloaded, after⟩
    rw [hdownload] at hresult
    cases downloaded with
    | error err =>
      rw [hresult]
      exact ⟨_, .cons (.resolved hresolved) <| .cons .startDownload <|
        .cons (.undownloaded hdownload) <| .nil _ _⟩
    | ok tmp =>
      obtain ⟨tmpPath, digest⟩ := tmp
      dsimp only at hresult
      cases hequal : equalFold digest expected with
      | false =>
        rw [hequal] at hresult
        rw [hresult]
        exact ⟨_, .cons (.resolved hresolved) <| .cons .startDownload <|
          .cons (.downloaded hdownload) <| .cons (.mismatch hequal) <| .nil _ _⟩
      | true =>
        rw [hequal] at hresult
        rcases hinstall : atomicInstall caller.encounter.install tmpPath after.disk with
          ⟨installed, disk⟩
        rw [if_neg (by simp), hinstall] at hresult
        rw [hresult]
        cases installed with
        | error err =>
          exact ⟨_, .cons (.resolved hresolved) <| .cons .startDownload <|
            .cons (.downloaded hdownload) <| .cons (.verified hequal) <|
            .cons (.uninstalled hinstall) <| .nil _ _⟩
        | ok done =>
          exact ⟨_, .cons (.resolved hresolved) <| .cons .startDownload <|
            .cons (.downloaded hdownload) <| .cons (.verified hequal) <|
            .cons (.installed hinstall) <| .nil _ _⟩

/-! ## A sample -/

/-- Everything succeeds. -/
def sampleCaller : Caller := ⟨sampleConfig, { sampleUnmade with install := ⟨none, none⟩ }⟩

/-- One goroutine installs the artifact while another one waits for the lock; that one finds it
there, and downloads nothing. -/
theorem installation_safe_sample : ∃ (ls ls' : List (Bool × InstallAction))
    (c c' c'' : Config Bool (InstallState Bool) InstallThread) (content : Text),
    Run (Threads.Moves (InstallStep (fun _ => sampleDigest) sampleConfig.target))
      ⟨⟨none, sampleState.disk⟩, fun _ => .idle⟩ ls c ∧
    c.shared.disk.cached = some content ∧
    (∃ t caller expected, ResolvedIn sampleConfig.target ls t caller expected ∧
      equalFold sampleDigest expected = true) ∧
    Run (Threads.Moves (InstallStep (fun _ => sampleDigest) sampleConfig.target)) c ls' c' ∧
    (∀ l ∈ ls', l.2 ≠ .renamed ∧ l.2 ≠ .downloading) ∧
    Threads.Moves (InstallStep (fun _ => sampleDigest) sampleConfig.target) c'
      (false, .returned (.ok ())) c'' ∧
    c''.shared.disk.cached.isSome := by
  have hresult : (downloadAndVerify (fun _ => sampleDigest) sampleCaller.encounter sampleCaller.cfg
      ⟨0, sampleState.disk⟩).2.disk.cached.isSome := by
    decide +kernel
  obtain ⟨as, hrest⟩ := alone_downloadAndVerify (fun _ => sampleDigest) sampleConfig.target true
    sampleCaller 0 ⟨some true, sampleState.disk⟩
  dsimp only at hrest
  generalize downloadAndVerify _ _ _ _ = r at hresult hrest
  obtain ⟨result, now, disk⟩ := r
  obtain ⟨content, hcontent⟩ := Option.isSome_iff_exists.mp hresult
  have hcalls (t : Bool) (s : InstallState Bool) :
      InstallStep (fun _ => sampleDigest) sampleConfig.target t s .idle .tau s
        (.stat sampleCaller) :=
    .call rfl
  have hwaits : Run (Threads.Moves (InstallStep (fun _ => sampleDigest) sampleConfig.target))
      ⟨⟨none, sampleState.disk⟩, fun _ : Bool => .idle⟩ _ _ :=
    Alone.run (t := false) (.cons (hcalls _ _) <| .cons (.miss rfl) <| .cons .made <| .nil _ _) rfl
  have hinstalls := hwaits.append (Alone.run (t := true)
    (.cons (hcalls _ _) <| .cons (.miss rfl) <| .cons .made <|
      .cons (.locked rfl) <| .cons (.missAgain rfl) hrest) rfl)
  have hreleases : Alone (InstallStep (fun _ => sampleDigest) sampleConfig.target) true
      ⟨some true, disk⟩ (.unlockFile result) _ _ _ := .cons .unlockFile <| .nil _ _
  have hfinds : Alone (InstallStep (fun _ => sampleDigest) sampleConfig.target) false
      ⟨none, disk⟩ (.lockFile sampleCaller) _ _ (.leave (.ok ())) :=
    .cons (.locked rfl) <| .cons (.hitAgain hresult) <| .cons .unlockFile <| .nil _ _
  have hreleased : Run (Threads.Moves (InstallStep (fun _ => sampleDigest) sampleConfig.target))
      ⟨⟨some true, disk⟩, Function.update (Function.update (fun _ => .idle) false
        (.lockFile sampleCaller)) true (.unlockFile result)⟩ _ _ := hreleases.run rfl
  have hafter := hreleased.append (hfinds.run rfl)
  obtain ⟨hcached, -, hstays⟩ := installation_safe rfl hinstalls
  obtain ⟨-, hreturns, -⟩ := installation_safe rfl (hinstalls.append hafter)
  refine ⟨_, _, _, _, _, content, hinstalls, hcontent, hcached content hcontent, hafter,
    (hstays content hcontent _ _ hafter).2, .move .leave, ?_⟩
  exact (hreturns _ _ (.move .leave)).2

end PureSimdjson.Bootstrap
