import PureSimdjson.BootstrapSync
import PureSimdjson.ChecksumLadder

/-!
# A call's own trouble

What can go wrong for one caller of `BootstrapSync` and not for another: its context ends, its
lock is not free in time, and its directories and files cannot be used.  All else that a download
fails with comes from the network.
-/
namespace PureSimdjson.Bootstrap

open Texts Retry

/-! ## One attempt -/

/-- A response is there whose body may be read. -/
structure Opened (requestErr : Option Text) (exchange : Except TransportError Response)
    (max : Nat) (resp : Response) : Prop where
  made : requestErr = none
  response : exchange = .ok resp
  status : resp.statusCode = 200
  length : resp.contentLength ≤ max

/-- The context ends the exchange, or the body in it. -/
inductive CutOff (requestErr : Option Text) (exchange : Except TransportError Response)
    (max : Nat) : Prop where
  | exchange {c : ContextError} (made : requestErr = none)
      (ended : exchange = .error (.stream (.context c)))
  | body {resp : Response} {c : ContextError} (opened : Opened requestErr exchange max resp)
      (short : len resp.body.content ≤ max) (ended : resp.body.failure = some (.context c))

/-- The attempt at a `SHA256SUMS` is disturbed by what is the caller's own. -/
def SumsReply.Disturbed (reply : SumsReply) : Prop :=
  CutOff reply.requestErr reply.exchange maxChecksumsMetadataBytes

/-- The attempt at an artifact is disturbed by what is the caller's own: its context, or its
temporary file. -/
inductive ArtifactReply.Disturbed (reply : ArtifactReply) : Prop where
  | cutOff (h : CutOff reply.requestErr reply.exchange maxBootstrapArtifactBytes)
  | unwritten {resp : Response}
      (opened : Opened reply.requestErr reply.exchange maxBootstrapArtifactBytes resp)
      (fault : reply.mkdirErr ≠ none ∨ reply.createTempErr ≠ none ∨ reply.writeErr ≠ none)
  | unsaved {resp : Response} {content : Text}
      (opened : Opened reply.requestErr reply.exchange maxBootstrapArtifactBytes resp)
      (read : resp.body.readLimited maxBootstrapArtifactBytes = .ok (some content))
      (fault : reply.syncErr ≠ none ∨ reply.chmodErr ≠ none)

section
variable {createMessage rawURL : Text} {requestErr : Option Text}
  {exchange : Except TransportError Response} {max : Nat} {err : Err} {resp : Response}

theorem statusError_ne_context (resp : Response) (rawURL : Text) (c : ContextError) :
    (statusError resp rawURL).is (.context c) = false := by
  rw [statusError]
  dsimp only
  split
  · exact is_mark _ _
  · split <;> rfl

/-- Before its body is read an exchange fails with the context's error only if that ends it. -/
theorem getOK_ne_context (hcut : ¬ CutOff requestErr exchange max)
    (h : getOK createMessage rawURL requestErr exchange = .error err) (c : ContextError) :
    err.is (.context c) = false := by
  unfold getOK at h
  cases hmade : requestErr with
  | some message =>
    rw [hmade] at h
    obtain rfl := Except.error.inj h
    exact is_mark _ _
  | none =>
    rw [hmade] at h
    dsimp only at h
    rcases hexchange : exchange with (_ | (c' | message)) | resp
    · rw [hexchange] at h
      obtain rfl := Except.error.inj h
      rfl
    · exact (hcut (.exchange hmade hexchange)).elim
    · rw [hexchange] at h
      obtain rfl := Except.error.inj h
      rfl
    · rw [hexchange] at h
      dsimp only at h
      split at h
      · obtain rfl := Except.error.inj h
        exact statusError_ne_context resp rawURL c
      · cases h

/-- What lets the body be read. -/
theorem getOK_opened (h : getOK createMessage rawURL requestErr exchange = .ok resp)
    (hlength : ¬ resp.contentLength > max) : Opened requestErr exchange max resp := by
  unfold getOK at h
  cases requestErr with
  | some message => cases h
  | none =>
    dsimp only at h
    cases exchange with
    | error e =>
      dsimp only at h
      split at h <;> cases h
    | ok resp' =>
      dsimp only at h
      split at h
      · cases h
      · next hstatus =>
        obtain rfl := Except.ok.inj h
        exact ⟨rfl, rfl, not_not.mp hstatus, not_lt.mp hlength⟩

/-- The body fails with the context's error only if that ends it. -/
theorem readLimited_ne_context (hcut : ¬ CutOff requestErr exchange max)
    (hopened : Opened requestErr exchange max resp) (h : resp.body.readLimited max = .error err)
    (c : ContextError) : err.is (.context c) = false := by
  rw [Body.readLimited] at h
  split at h
  · cases h
  · next hshort =>
    cases hfailure : resp.body.failure with
    | none =>
      rw [hfailure] at h
      cases h
    | some failure =>
      cases failure with
      | context c' => exact (hcut (.body hopened (not_lt.mp hshort) hfailure)).elim
      | other message =>
        rw [hfailure] at h
        obtain rfl := Except.error.inj h
        rfl

end

/-- **An attempt at a `SHA256SUMS` that is not disturbed does not fail with the context's
error.** -/
theorem SumsReply.ne_context {reply : SumsReply} (hreply : ¬ reply.Disturbed) {rawURL key : Text}
    {err : Err} (h : fetchChecksumFromURL reply rawURL key = .error err) (c : ContextError) :
    err.is (.context c) = false := by
  rw [fetchChecksumFromURL] at h
  rcases hok : getOK (text "create checksum request: ") rawURL reply.requestErr reply.exchange with
    e | resp
  · rw [hok] at h
    obtain rfl := Except.error.inj h
    exact getOK_ne_context hreply hok c
  · rw [hok] at h
    dsimp only at h
    split at h
    · obtain rfl := Except.error.inj h
      exact is_mark _ _
    · next hlength =>
      rcases hread : resp.body.readLimited maxChecksumsMetadataBytes with e | (_ | body)
      · rw [hread] at h
        obtain rfl := Except.error.inj h
        exact readLimited_ne_context hreply (getOK_opened hok hlength) hread c
      · rw [hread] at h
        obtain rfl := Except.error.inj h
        exact is_mark _ _
      · rw [hread] at h
        dsimp only at h
        split at h
        · cases h
        · obtain rfl := Except.error.inj h
          exact is_mark _ _
        · obtain rfl := Except.error.inj h
          exact is_mark _ _

/-- Writing the temporary file fails with the context's error only if that ends the body. -/
theorem writeTemp_ne_context {sha256 : Text → Text} {reply : ArtifactReply} {resp : Response}
    {rawURL : Text} {err : Err}
    (hcut : ¬ CutOff reply.requestErr reply.exchange maxBootstrapArtifactBytes)
    (hopened : Opened reply.requestErr reply.exchange maxBootstrapArtifactBytes resp)
    (h : writeTemp sha256 reply resp rawURL = .error err) (c : ContextError) :
    err.is (.context c) = false := by
  rw [writeTemp] at h
  split at h
  · cases h
    rfl
  · rcases hread : resp.body.readLimited maxBootstrapArtifactBytes with e | (_ | body)
    · rw [hread] at h
      obtain rfl := Except.error.inj h
      exact readLimited_ne_context hcut hopened hread c
    · rw [hread] at h
      obtain rfl := Except.error.inj h
      exact is_mark _ _
    · rw [hread] at h
      dsimp only at h
      split at h
      · cases h
        rfl
      · split at h
        · cases h
          rfl
        · cases h

/-- **An attempt at an artifact that is not disturbed does not fail with the context's error.** -/
theorem ArtifactReply.ne_context {reply : ArtifactReply} (hreply : ¬ reply.Disturbed)
    {sha256 : Text → Text} {rawURL : Text} {d : Disk} {err : Err}
    (h : (downloadOnce sha256 reply rawURL d).1 = .error err) (c : ContextError) :
    err.is (.context c) = false := by
  have hcut : ¬ CutOff reply.requestErr reply.exchange maxBootstrapArtifactBytes :=
    fun hcut => hreply (.cutOff hcut)
  rw [downloadOnce] at h
  rcases hok : getOK (text "create request: ") rawURL reply.requestErr reply.exchange with e | resp
  · rw [hok] at h
    obtain rfl := Except.error.inj h
    exact getOK_ne_context hcut hok c
  · rw [hok] at h
    dsimp only at h
    split at h
    · obtain rfl := Except.error.inj h
      exact is_mark _ _
    · next hlength =>
      have hopened := getOK_opened hok hlength
      split at h
      · obtain rfl := Except.error.inj h
        exact is_mark _ _
      · split at h
        · obtain rfl := Except.error.inj h
          exact is_mark _ _
        · rcases hwrite : writeTemp sha256 reply resp rawURL with e | tmp
          · rw [hwrite] at h
            obtain rfl := Except.error.inj h
            exact writeTemp_ne_context hcut hopened hwrite c
          · rw [hwrite] at h
            cases h

/-! ## One download -/

/-- Nothing of the caller's own disturbs a ladder: it is not called off, and no attempt is
disturbed. -/
structure Undisturbed {ρ δ α : Type} (Disturbed : ρ → Prop) (E : Conditions ρ)
    (run : Climb Source (Clocked δ) Err α Duration ContextError) : Prop where
  uninterrupted : ∀ c, run.exit ≠ .interrupted c
  tries : ∀ a ∈ attempts run.events, ¬ Disturbed (E.reply a.source.index a.number)

/-- How a download looks for the digest, where that is not known. -/
def Encounter.sumsVisit (E : Encounter) (cfg : BootstrapConfig) (now : Nat) :
    Climb Source (Clocked Unit) Err Text Duration ContextError :=
  sumsRun E.sums (checksumKey cfg.version cfg.goos cfg.goarch)
    (r2ChecksumsURL cfg.r2Base cfg.version)
    (if cfg.disableGH then [] else githubChecksumsURL cfg.githubBaseURL cfg.version) now

/-- How a download looks for the artifact. -/
def Encounter.artifactVisit (sha256 : Text → Text) (E : Encounter) (cfg : BootstrapConfig)
    (s : Clocked Disk) : Climb Source (Clocked Disk) Err (Nat × Text) Duration ContextError :=
  downloadRun sha256 E.artifact (r2ArtifactURL cfg.r2Base cfg.version cfg.goos cfg.goarch)
    (if cfg.disableGH then []
      else githubArtifactURL cfg.githubBaseURL cfg.version cfg.goos cfg.goarch) s

/-- **The download has no trouble of its own**: nothing disturbs the two ladders, as far as it
climbs them, and the artifact can be renamed into place if it gets so far. -/
structure Encounter.Untroubled (sha256 : Text → Text) (E : Encounter) (cfg : BootstrapConfig)
    (s : Clocked Disk) : Prop where
  sums : E.checksums (checksumKey cfg.version cfg.goos cfg.goarch) = none →
    Undisturbed SumsReply.Disturbed E.sums (E.sumsVisit cfg s.now)
  artifact : ∀ expected now,
    resolveExpectedChecksum E.checksums E.sums cfg s.now = (.ok expected, now) →
      Undisturbed ArtifactReply.Disturbed E.artifact
        (E.artifactVisit sha256 cfg { s with now := now })
  installs : ∀ expected now tmpPath digest s',
    resolveExpectedChecksum E.checksums E.sums cfg s.now = (.ok expected, now) →
    downloadArtifact sha256 E cfg { s with now := now } = (.ok (tmpPath, digest), s') →
    equalFold digest expected = true → E.install.mkdirErr = none ∧ E.install.renameErr = none

section
variable {sha256 : Text → Text} {E : Encounter} {cfg : BootstrapConfig} {s s' : Clocked Disk}
  {err : Err}

/-- No digest is found, and not because of the context. -/
theorem Undisturbed.sums_ne_context {now : Nat}
    (h : Undisturbed SumsReply.Disturbed E.sums (E.sumsVisit cfg now))
    (herr : sumsResult (checksumKey cfg.version cfg.goos cfg.goarch) (E.sumsVisit cfg now).exit =
      .error err) (c : ContextError) : err.is (.context c) = false := by
  have hclimbs : Climbs _ _ _ _ _ _ (E.sumsVisit cfg now).events (E.sumsVisit cfg now).exit _ :=
    sumsRun_climbs _ _ _ _ _
  have htried : ∀ a ∈ attempts (E.sumsVisit cfg now).events, ∀ e, a.result = .error e →
      e.is (.context c) = false := by
    intro a ha e hresult
    obtain ⟨-, -, -, hmade⟩ := hclimbs.attempted a ha
    exact SumsReply.ne_context (h.tries a ha) ((congrArg Prod.fst hmade).trans hresult) c
  cases hexit : (E.sumsVisit cfg now).exit with
  | success digest =>
    rw [hexit] at herr
    cases herr
  | interrupted c' => exact (h.uninterrupted c' hexit).elim
  | stopped u n e =>
    rw [hexit] at hclimbs herr
    obtain rfl := Except.error.inj herr
    obtain ⟨init, a, heq, -, -, hresult, -⟩ := hclimbs.stopped_spec
    exact htried a (heq ▸ List.mem_append_right init List.mem_cons_self) e hresult
  | exhausted last =>
    rw [hexit] at hclimbs herr
    rcases last with _ | ⟨u, n, e⟩
    · obtain rfl := Except.error.inj herr
      rfl
    · rw [sumsResult] at herr
      dsimp only at herr
      split at herr
      · obtain rfl := Except.error.inj herr
        rfl
      · obtain rfl := Except.error.inj herr
        obtain hnone | ⟨a, ha, hresult⟩ := hclimbs.last_spec
        · cases hnone
        · exact htried a ha e hresult

/-- There is no artifact, and not because of the context. -/
theorem Undisturbed.artifact_ne_context
    (h : Undisturbed ArtifactReply.Disturbed E.artifact (E.artifactVisit sha256 cfg s))
    (herr : downloadResult (E.artifactVisit sha256 cfg s).exit = .error err) (c : ContextError) :
    err.is (.context c) = false := by
  have hclimbs : Climbs _ _ _ _ _ _ (E.artifactVisit sha256 cfg s).events
      (E.artifactVisit sha256 cfg s).exit _ := downloadRun_climbs _ _ _ _ _
  cases hexit : (E.artifactVisit sha256 cfg s).exit with
  | success tmp =>
    rw [hexit] at herr
    cases herr
  | interrupted c' => exact (h.uninterrupted c' hexit).elim
  | stopped u n e =>
    rw [hexit] at hclimbs herr
    obtain rfl := Except.error.inj herr
    obtain ⟨init, a, heq, -, -, hresult, -⟩ := hclimbs.stopped_spec
    have ha : a ∈ attempts (E.artifactVisit sha256 cfg s).events :=
      heq ▸ List.mem_append_right init List.mem_cons_self
    obtain ⟨-, -, -, hmade⟩ := hclimbs.attempted a ha
    rw [is_mark]
    exact ArtifactReply.ne_context (h.tries a ha) ((congrArg Prod.fst hmade).trans hresult) c
  | exhausted last =>
    rw [hexit] at herr
    rcases last with _ | ⟨u, n, e⟩ <;>
      (obtain rfl := Except.error.inj herr; rfl)

/-- **A download without trouble of its own does not fail with the context's error.** -/
theorem Encounter.Untroubled.ne_context (hE : E.Untroubled sha256 cfg s)
    (h : (downloadAndVerify sha256 E cfg s).1 = .error err) (c : ContextError) :
    err.is (.context c) = false := by
  obtain ⟨hsums, hartifact, hinstalls⟩ := hE
  rw [downloadAndVerify] at h
  rcases hresolved : resolveExpectedChecksum E.checksums E.sums cfg s.now with ⟨e | expected, now⟩
  · rw [hresolved] at h
    obtain rfl := Except.error.inj h
    rw [resolveExpectedChecksum] at hresolved
    dsimp only at hresolved
    cases hknown : E.checksums (checksumKey cfg.version cfg.goos cfg.goarch) with
    | some digest =>
      rw [hknown] at hresolved
      dsimp only at hresolved
      split at hresolved
      · cases hresolved
      · cases hresolved
        rfl
    | none =>
      rw [hknown] at hresolved
      exact (hsums hknown).sums_ne_context (congrArg Prod.fst hresolved) c
  · rw [hresolved] at h
    dsimp only at h
    have hundisturbed := hartifact expected now hresolved
    rcases hdownload : downloadArtifact sha256 E cfg { s with now := now } with ⟨e | tmp, t⟩
    · rw [hdownload] at h
      obtain rfl := Except.error.inj h
      exact hundisturbed.artifact_ne_context (congrArg Prod.fst hdownload) c
    · rw [hdownload] at h
      dsimp only at h
      split at h
      · obtain rfl := Except.error.inj h
        exact is_mark _ _
      · next hequal =>
        obtain ⟨hmkdir, hrename⟩ := hinstalls expected now tmp.1 tmp.2 t hresolved hdownload
          (by simpa using hequal)
        rw [atomicInstall, hmkdir] at h
        dsimp only at h
        rw [hrename] at h
        cases h

end

/-! ## One call -/

/-- The caller has the lock. -/
def Visit.locked (v : Visit) (ctx : ContextEnds) (s : Clocked Disk) : Clocked Disk :=
  ⟨(v.lock.acquire ctx s.now).2, s.disk.receive v.lock.installed⟩

/-- **The call has no trouble of its own**: the two directories can be made, the lock file can be
opened, locked in time, unlocked and closed, and the download has no trouble of its own. -/
structure Visit.Untroubled (sha256 : Text → Text) (v : Visit) (ctx : ContextEnds)
    (cfg : BootstrapConfig) (s : Clocked Disk) : Prop where
  made : v.mkdirErr = none
  lockMade : v.lock.mkdirErr = none
  lockOpened : v.lock.openErr = none
  locks : (v.lock.acquire ctx s.now).1 = .ok ()
  downloads : (v.locked ctx s).disk.cached = none →
    (v.encounter ctx).Untroubled sha256 cfg (v.locked ctx s)
  unlocks : v.lock.unlockErr = none
  closes : v.lock.closeErr = none

/-- **What a call fails with that has no trouble of its own**: the error of its download, where
there was no artifact. -/
theorem Visit.Untroubled.error {sha256 : Text → Text} {v : Visit} {ctx : ContextEnds}
    {cfg : BootstrapConfig} {s : Clocked Disk} {err : EnsureErr}
    (hv : v.Untroubled sha256 ctx cfg s)
    (h : (ensureArtifact sha256 v ctx cfg s).1 = .error err) :
    ∃ e, err = .joined [e] ∧ (∀ c, err.is (.context c) = false) ∧
      (downloadAndVerify sha256 (v.encounter ctx) cfg (v.locked ctx s)).1 = .error e := by
  rw [ensureArtifact] at h
  split at h
  · cases h
  · rw [hv.made] at h
    dsimp only at h
    rw [withProcessFileLock, hv.lockMade] at h
    dsimp only at h
    rw [hv.lockOpened] at h
    dsimp only at h
    rw [hv.locks, hv.unlocks, hv.closes] at h
    change errorsJoin [errOf (ensureLocked sha256 v ctx cfg (v.locked ctx s)).1, none, none] = _
      at h
    rw [ensureLocked] at h
    split at h
    · cases h
    · next hmissing =>
      have hdownloads := hv.downloads (Option.not_isSome_iff_eq_none.mp hmissing)
      cases hresult : (downloadAndVerify sha256 (v.encounter ctx) cfg (v.locked ctx s)).1 with
      | ok done =>
        rw [hresult] at h
        cases h
      | error e =>
        rw [hresult] at h
        obtain rfl := Except.error.inj h
        refine ⟨e, rfl, fun c => ?_, rfl⟩
        exact (Bool.or_false _).trans (hdownloads.ne_context hresult c)

end PureSimdjson.Bootstrap
