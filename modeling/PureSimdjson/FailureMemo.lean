import PureSimdjson.CallTrouble
import PureSimdjson.Runs

/-!
# The memo of failures

What a call of `BootstrapSync` leaves to the calls after it.  A call that is turned away or gets
what the memo holds leaves nothing; any other leaves its artifact, or its error for thirty
seconds.
-/
namespace PureSimdjson.Bootstrap

open Texts Retry Runs

/-! ## What a download depends on -/

section
variable (sha256 : Text → Text)

/-- The digest does not depend on the files. -/
theorem downloadOnce_digest (reply : ArtifactReply) (rawURL : Text) (d d' : Disk) :
    (downloadOnce sha256 reply rawURL d).1.map Prod.snd =
      (downloadOnce sha256 reply rawURL d').1.map Prod.snd := by
  rw [downloadOnce, downloadOnce]
  cases getOK (text "create request: ") rawURL reply.requestErr reply.exchange with
  | error err => rfl
  | ok resp =>
    dsimp only
    split
    · rfl
    · cases reply.mkdirErr with
      | some err => rfl
      | none =>
        cases reply.createTempErr with
        | some err => rfl
        | none => cases hwrite : writeTemp sha256 reply resp rawURL <;> rfl

theorem artifactLadder_sees (E : Conditions ArtifactReply) :
    Sees (artifactLadder sha256 E) Clocked.now Prod.snd where
  pause u n hint s s' h := by
    show (E.sleepWithJitter u n hint s).1 = (E.sleepWithJitter u n hint s').1 ∧
      (E.sleepWithJitter u n hint s).2.now = (E.sleepWithJitter u n hint s').2.now
    rw [Conditions.sleepWithJitter, Conditions.sleepWithJitter, h]
    cases E.contextEnds with
    | none => exact ⟨rfl, rfl⟩
    | some p =>
      dsimp only
      split <;> exact ⟨rfl, rfl⟩
  check {s s'} h := congrArg E.contextErr h
  attempt u n s s' h :=
    ⟨downloadOnce_digest sha256 (E.reply u.index n) u.url s.disk s'.disk,
      congrArg (· + (E.reply u.index n).took) h⟩

/-- **What a download returns does not depend on the files**, but for the name of the temporary
one. -/
theorem downloadWithRetry_sees (E : Conditions ArtifactReply) (primaryURL fallbackURL : Text)
    {s s' : Clocked Disk} (h : s.now = s'.now) :
    (downloadWithRetry sha256 E primaryURL fallbackURL s).1.map Prod.snd =
        (downloadWithRetry sha256 E primaryURL fallbackURL s').1.map Prod.snd ∧
      (downloadWithRetry sha256 E primaryURL fallbackURL s).2.now =
        (downloadWithRetry sha256 E primaryURL fallbackURL s').2.now := by
  obtain ⟨hexit, hstate⟩ :=
    (artifactLadder_sees sha256 E).climb (sources primaryURL fallbackURL) none h
  refine ⟨?_, hstate⟩
  rw [downloadWithRetry, downloadWithRetry, downloadRun, downloadRun]
  generalize ((artifactLadder sha256 E).climb (sources primaryURL fallbackURL) none s).exit = x
    at hexit ⊢
  generalize ((artifactLadder sha256 E).climb (sources primaryURL fallbackURL) none s').exit = x'
    at hexit ⊢
  cases x with
  | success tmp =>
    cases x' with
    | success tmp' => exact congrArg Except.ok (Exit.success.inj hexit)
    | _ => cases hexit
  | _ => cases x' <;> first | (cases hexit; rfl) | cases hexit

theorem atomicInstall_result (reply : InstallReply) (path path' : Nat) (d d' : Disk) :
    (atomicInstall reply path d).1 = (atomicInstall reply path' d').1 := by
  rw [atomicInstall, atomicInstall]
  cases reply.mkdirErr with
  | some err => rfl
  | none => cases reply.renameErr <;> rfl

/-- **What `downloadAndVerify` returns does not depend on the files.** -/
theorem downloadAndVerify_sees (E : Encounter) (cfg : BootstrapConfig) {s s' : Clocked Disk}
    (h : s.now = s'.now) :
    (downloadAndVerify sha256 E cfg s).1 = (downloadAndVerify sha256 E cfg s').1 ∧
      (downloadAndVerify sha256 E cfg s).2.now = (downloadAndVerify sha256 E cfg s').2.now := by
  rw [downloadAndVerify, downloadAndVerify, h]
  rcases hresolved : resolveExpectedChecksum E.checksums E.sums cfg s'.now with ⟨expected, now⟩
  cases expected with
  | error err => exact ⟨rfl, rfl⟩
  | ok expected =>
    dsimp only
    obtain ⟨hdigest, hnow⟩ := downloadWithRetry_sees sha256 E.artifact
      (r2ArtifactURL cfg.r2Base cfg.version cfg.goos cfg.goarch)
      (if cfg.disableGH then []
        else githubArtifactURL cfg.githubBaseURL cfg.version cfg.goos cfg.goarch)
      (show (Clocked.mk now s.disk).now = (Clocked.mk now s'.disk).now from rfl)
    rw [downloadArtifact, downloadArtifact]
    generalize downloadWithRetry sha256 E.artifact _ _ (Clocked.mk now s.disk) = r
      at hdigest hnow ⊢
    generalize downloadWithRetry sha256 E.artifact _ _ (Clocked.mk now s'.disk) = r'
      at hdigest hnow ⊢
    obtain ⟨result, t⟩ := r
    obtain ⟨result', t'⟩ := r'
    cases result with
    | error err =>
      cases result' with
      | error err' => exact ⟨congrArg Except.error (Except.error.inj hdigest), hnow⟩
      | ok tmp => cases hdigest
    | ok tmp =>
      cases result' with
      | error err => cases hdigest
      | ok tmp' =>
        obtain ⟨path, digest⟩ := tmp
        obtain ⟨path', digest'⟩ := tmp'
        obtain rfl : digest = digest' := Except.ok.inj hdigest
        dsimp only
        split
        · exact ⟨rfl, hnow⟩
        · exact ⟨atomicInstall_result _ _ _ _ _, hnow⟩

/-- **What is cached after `downloadAndVerify`**: the artifact if it succeeds, and otherwise what
there was. -/
theorem downloadAndVerify_cached (E : Encounter) (cfg : BootstrapConfig) (s : Clocked Disk) :
    match (downloadAndVerify sha256 E cfg s).1 with
    | .error _ => (downloadAndVerify sha256 E cfg s).2.disk.cached = s.disk.cached
    | .ok () => (downloadAndVerify sha256 E cfg s).2.disk.cached.isSome := by
  rw [downloadAndVerify]
  rcases resolveExpectedChecksum E.checksums E.sums cfg s.now with ⟨expected, now⟩
  cases expected with
  | error err => rfl
  | ok expected =>
    dsimp only
    rcases hdownload : downloadArtifact sha256 E cfg { s with now := now } with ⟨result, t⟩
    cases result with
    | error err => exact (downloadArtifact_error hdownload).2
    | ok tmp =>
      obtain ⟨tmpPath, digest⟩ := tmp
      obtain ⟨content, hadds, -⟩ := downloadArtifact_ok hdownload
      dsimp only
      cases equalFold digest expected with
      | false => exact hadds.cached
      | true =>
        rcases hinstall : atomicInstall E.install tmpPath t.disk with ⟨installed, disk⟩
        cases installed with
        | error err => exact (atomicInstall_error hinstall).trans hadds.cached
        | ok done =>
          obtain rfl := atomicInstall_ok hinstall
          exact Option.isSome_iff_exists.mpr ⟨content, hadds.rename.2⟩

end

/-! ## What `ensureArtifact` depends on -/

section
variable {sha256 : Text → Text} {v : Visit} {ctx : ContextEnds} {cfg cfg' : BootstrapConfig}
  {s s' : Clocked Disk}

/-- The clocks are the same, and the artifact is there in both or in neither. -/
structure Agree (s s' : Clocked Disk) : Prop where
  now : s.now = s'.now
  cached : s.disk.cached.isSome = s'.disk.cached.isSome

variable (sha256 v ctx cfg) in
theorem ensureLocked_agree (h : Agree s s') :
    (ensureLocked sha256 v ctx cfg s).1 = (ensureLocked sha256 v ctx cfg s').1 ∧
      Agree (ensureLocked sha256 v ctx cfg s).2 (ensureLocked sha256 v ctx cfg s').2 := by
  rw [ensureLocked, ensureLocked, ← h.cached]
  split
  · exact ⟨rfl, h⟩
  · obtain ⟨hresult, hnow⟩ := downloadAndVerify_sees sha256 (v.encounter ctx) cfg h.now
    have hcached := downloadAndVerify_cached sha256 (v.encounter ctx) cfg s
    have hcached' := downloadAndVerify_cached sha256 (v.encounter ctx) cfg s'
    rw [← hresult] at hcached'
    refine ⟨hresult, hnow, ?_⟩
    cases hdone : (downloadAndVerify sha256 (v.encounter ctx) cfg s).1 with
    | error err =>
      rw [hdone] at hcached hcached'
      rw [hcached, hcached', h.cached]
    | ok done =>
      rw [hdone] at hcached hcached'
      exact hcached.trans hcached'.symm

variable (sha256 v ctx cfg) in
/-- **What `ensureArtifact` returns depends on the files by the artifact only.** -/
theorem ensureArtifact_agree (h : Agree s s') :
    (ensureArtifact sha256 v ctx cfg s).1 = (ensureArtifact sha256 v ctx cfg s').1 ∧
      Agree (ensureArtifact sha256 v ctx cfg s).2 (ensureArtifact sha256 v ctx cfg s').2 := by
  rw [ensureArtifact, ensureArtifact, ← h.cached]
  split
  · exact ⟨rfl, h⟩
  · cases v.mkdirErr with
    | some err => exact ⟨rfl, h⟩
    | none =>
      dsimp only
      rw [withProcessFileLock, withProcessFileLock]
      cases v.lock.mkdirErr with
      | some err => exact ⟨rfl, h⟩
      | none =>
        cases v.lock.openErr with
        | some err => exact ⟨rfl, h⟩
        | none =>
          dsimp only
          rw [← h.now]
          rcases v.lock.acquire ctx s.now with ⟨waited, now⟩
          cases waited with
          | error err => exact ⟨rfl, rfl, h.cached⟩
          | ok done =>
            have hreceived : Agree ⟨now, s.disk.receive v.lock.installed⟩
                ⟨now, s'.disk.receive v.lock.installed⟩ := by
              refine ⟨rfl, ?_⟩
              rw [Disk.receive, Disk.receive, Option.isSome_or, Option.isSome_or, h.cached]
            obtain ⟨hresult, hagree⟩ := ensureLocked_agree sha256 v ctx cfg hreceived
            dsimp only
            rw [hresult]
            exact ⟨rfl, hagree⟩

/-- Nothing is missing where the artifact is there. -/
theorem ensureArtifact_error {err : EnsureErr}
    (h : ensureArtifact sha256 v ctx cfg s = (.error err, s')) : s.disk.cached = none := by
  rw [ensureArtifact] at h
  split at h
  · cases h
  · next hcached => exact Option.not_isSome_iff_eq_none.mp hcached

/-- The two configurations have the same network settings: the key of the memo, and the URL of the
fallback where there is one. -/
structure BootstrapConfig.SameNetwork (cfg cfg' : BootstrapConfig) : Prop where
  key : failureKey cfg = failureKey cfg'
  github : cfg.disableGH = false → cfg.githubBaseURL = cfg'.githubBaseURL

/-- **A download depends on the network settings only.** -/
theorem BootstrapConfig.SameNetwork.downloadAndVerify_eq (h : cfg.SameNetwork cfg') (E : Encounter)
    (s : Clocked Disk) : downloadAndVerify sha256 E cfg s = downloadAndVerify sha256 E cfg' s := by
  obtain ⟨hkey, hgithub⟩ := h
  obtain ⟨cacheDir, version, mirrorURL, disableGH, githubBaseURL, goos, goarch, destDir⟩ := cfg
  obtain ⟨cacheDir', version', mirrorURL', disableGH', githubBaseURL', goos', goarch', destDir'⟩ :=
    cfg'
  obtain ⟨rfl, rfl, rfl, rfl, rfl⟩ := BootstrapFailureKey.mk.inj hkey
  cases disableGH with
  | true => rfl
  | false =>
    obtain rfl := hgithub rfl
    rfl

end

/-! ## The memo -/

section
variable {c : BootstrapFailureCache} {key key' : BootstrapFailureKey} {err : EnsureErr}
  {now t : Nat}

theorem peek_of_ne {c' : BootstrapFailureCache} (h : c' key = c key) :
    (c'.peek key now).1 = (c.peek key now).1 := by
  rw [BootstrapFailureCache.peek, BootstrapFailureCache.peek, h]
  cases c key with
  | none => rfl
  | some entry =>
    dsimp only
    split <;> rfl

theorem peek_some (h : (c.peek key now).1 = some err) :
    (∃ entry, c key = some entry ∧ entry.err = err ∧ now < entry.expiresAt) ∧
      (c.peek key now).2 = c := by
  rw [BootstrapFailureCache.peek] at h ⊢
  cases hentry : c key with
  | none =>
    rw [hentry] at h
    cases h
  | some entry =>
    rw [hentry] at h
    dsimp only at h ⊢
    by_cases hlt : now < entry.expiresAt
    · rw [if_pos hlt] at h ⊢
      exact ⟨⟨entry, rfl, Option.some.inj h, hlt⟩, rfl⟩
    · rw [if_neg hlt] at h
      cases h

/-- An entry that is not valid any more does not become it again. -/
theorem peek_none_mono (h : (c.peek key now).1 = none) (hle : now ≤ t) :
    (c.peek key t).1 = none := by
  cases hpeek : (c.peek key t).1 with
  | none => rfl
  | some err =>
    obtain ⟨⟨entry, hentry, -, hlt⟩, -⟩ := peek_some hpeek
    rw [BootstrapFailureCache.peek, hentry] at h
    dsimp only at h
    rw [if_pos (lt_of_le_of_lt hle hlt)] at h
    cases h

/-- A miss changes no entry of another key. -/
theorem peek_update (h : (c.peek key now).1 = none) (entry : Option BootstrapFailureEntry) :
    Function.update (c.peek key now).2 key entry = Function.update c key entry := by
  rw [BootstrapFailureCache.peek] at h ⊢
  cases hentry : c key with
  | none => rfl
  | some old =>
    rw [hentry] at h
    dsimp only at h ⊢
    by_cases hlt : now < old.expiresAt
    · rw [if_pos hlt] at h
      cases h
    · rw [if_neg hlt, BootstrapFailureCache.forget, Function.update_idem]

theorem peek_record (t' : Nat) : ((c.record key err now).peek key t').1 =
    if t' < now + bootstrapFailureTTL then some err else none := by
  rw [BootstrapFailureCache.peek, BootstrapFailureCache.record, Function.update_self]
  dsimp only
  split <;> rfl

end

/-! ## One call -/

section
variable {sha256 : Text → Text} {v : Visit} {ctx : ContextEnds} {cfg : BootstrapConfig}
  {h h' : Host}

/-- The call asks the memo. -/
structure Visit.Consults (v : Visit) (ctx : ContextEnds) (cfg : BootstrapConfig) : Prop where
  has : v.ctx = some ctx
  live : ctx.err v.start = none
  config : v.config = .ok cfg

/-- What `ensureArtifact` does in the call. -/
def Visit.ensures (sha256 : Text → Text) (v : Visit) (ctx : ContextEnds) (cfg : BootstrapConfig)
    (h : Host) : Except EnsureErr Unit × Clocked Disk :=
  ensureArtifact sha256 v ctx cfg ⟨v.start, h.disks cfg.target⟩

/-- What a call does that asks the memo: it gets what is there, or its own result. -/
inductive Synced (sha256 : Text → Text) (v : Visit) (cfg : BootstrapConfig) (h : Host)
    (ensured : Except EnsureErr Unit × Clocked Disk) : Except SyncErr Unit → Host → Prop where
  | memoized {err : EnsureErr} (hpeek : (h.memo.peek (failureKey cfg) v.start).1 = some err) :
      Synced sha256 v cfg h ensured (.error (.memoized err)) h
  | failed {err : EnsureErr} (hpeek : (h.memo.peek (failureKey cfg) v.start).1 = none)
      (hensured : ensured.1 = .error err) :
      Synced sha256 v cfg h ensured (.error (.failed err))
        ⟨h.memo.record (failureKey cfg) err v.finish,
          Function.update h.disks cfg.target ensured.2.disk⟩
  | done (hpeek : (h.memo.peek (failureKey cfg) v.start).1 = none) (hensured : ensured.1 = .ok ()) :
      Synced sha256 v cfg h ensured (.ok ())
        ⟨h.memo.forget (failureKey cfg), Function.update h.disks cfg.target ensured.2.disk⟩

variable (sha256) in
theorem Visit.Consults.synced (hv : v.Consults ctx cfg) (h : Host) :
    Synced sha256 v cfg h (v.ensures sha256 ctx cfg h) (bootstrapSync sha256 v h).1
      (bootstrapSync sha256 v h).2 := by
  rw [bootstrapSync, hv.has]
  dsimp only
  rw [hv.live, hv.config]
  dsimp only
  cases hpeek : (h.memo.peek (failureKey cfg) v.start).1 with
  | some err =>
    dsimp only
    rw [(peek_some hpeek).2]
    exact .memoized hpeek
  | none =>
    dsimp only
    cases hensured : (v.ensures sha256 ctx cfg h).1 with
    | error err =>
      rw [Visit.ensures] at hensured
      rw [hensured]
      dsimp only
      rw [BootstrapFailureCache.record, peek_update hpeek]
      exact .failed hpeek hensured
    | ok done =>
      rw [Visit.ensures] at hensured
      rw [hensured]
      dsimp only
      rw [BootstrapFailureCache.forget, peek_update hpeek]
      exact .done hpeek hensured

variable (sha256) in
/-- A call that does not ask the memo is turned away. -/
theorem turned_away (hv : ∀ ctx cfg, ¬ v.Consults ctx cfg) :
    ∃ err, (∀ e, err ≠ .memoized e) ∧ ∀ h, bootstrapSync sha256 v h = (.error err, h) := by
  cases hctx : v.ctx with
  | none =>
    refine ⟨.nilContext, (fun e he => by cases he), fun h => ?_⟩
    rw [bootstrapSync, hctx]
  | some ctx =>
    cases hlive : ctx.err v.start with
    | some err =>
      refine ⟨.context err, (fun e he => by cases he), fun h => ?_⟩
      rw [bootstrapSync, hctx]
      dsimp only
      rw [hlive]
    | none =>
      cases hconfig : v.config with
      | error err =>
        refine ⟨.config err, (fun e he => by cases he), fun h => ?_⟩
        rw [bootstrapSync, hctx]
        dsimp only
        rw [hlive, hconfig]
      | ok cfg => exact (hv ctx cfg ⟨hctx, hlive, hconfig⟩).elim

end

/-! ## Two processes that differ by one entry -/

/-- From `now` on the memos answer alike, but for one key before `expiry`; and the same artifacts
are there. -/
structure Host.Alike (key : BootstrapFailureKey) (expiry now : Nat) (h h' : Host) : Prop where
  memo : ∀ key' t, now ≤ t → (key' = key → expiry ≤ t) →
    (h.memo.peek key' t).1 = (h'.memo.peek key' t).1
  disks : ∀ target, (h.disks target).cached.isSome = (h'.disks target).cached.isSome

section
variable {sha256 : Text → Text} {key : BootstrapFailureKey} {expiry now : Nat} {v : Visit}
  {h h' : Host}

theorem Host.Alike.later (hh : h.Alike key expiry now h') {t : Nat} (hle : now ≤ t) :
    h.Alike key expiry t h' :=
  ⟨fun key' t' hle' => hh.memo key' t' (hle.trans hle'), hh.disks⟩

/-- The same entry for the same key, and the same artifact at the same cache path. -/
theorem Host.Alike.update (hh : h.Alike key expiry now h') (key' : BootstrapFailureKey)
    (entry : Option BootstrapFailureEntry) (target : Target) {d d' : Disk}
    (hcached : d.cached.isSome = d'.cached.isSome) :
    Host.Alike key expiry now ⟨Function.update h.memo key' entry, Function.update h.disks target d⟩
      ⟨Function.update h'.memo key' entry, Function.update h'.disks target d'⟩ := by
  constructor
  · intro key'' t hle hexpiry
    by_cases heq : key'' = key'
    · subst heq
      refine peek_of_ne ?_
      dsimp only
      rw [Function.update_self, Function.update_self]
    · have hother := hh.memo key'' t hle hexpiry
      rw [peek_of_ne (Function.update_of_ne heq entry h.memo), hother]
      exact (peek_of_ne (Function.update_of_ne heq entry h'.memo)).symm
  · intro target'
    show (Function.update h.disks target d target').cached.isSome =
      (Function.update h'.disks target d' target').cached.isSome
    by_cases heq : target' = target
    · rw [heq, Function.update_self, Function.update_self]
      exact hcached
    · rw [Function.update_of_ne heq, Function.update_of_ne heq]
      exact hh.disks target'

variable (sha256) in
/-- **A call that does not see the difference returns the same**, and does not make it bigger. -/
theorem Host.Alike.sync (hh : h.Alike key expiry now h') (hle : now ≤ v.start)
    (hexpiry : ∀ ctx cfg, v.Consults ctx cfg → failureKey cfg = key → expiry ≤ v.start) :
    (bootstrapSync sha256 v h).1 = (bootstrapSync sha256 v h').1 ∧
      (bootstrapSync sha256 v h).2.Alike key expiry v.start (bootstrapSync sha256 v h').2 := by
  by_cases hv : ∃ ctx cfg, v.Consults ctx cfg
  · obtain ⟨ctx, cfg, hv⟩ := hv
    have hlater := hh.later hle
    have hpeek := hlater.memo (failureKey cfg) v.start (le_refl _) (hexpiry ctx cfg hv)
    obtain ⟨hresult, hagree⟩ := ensureArtifact_agree sha256 v ctx cfg
      (show Agree ⟨v.start, h.disks cfg.target⟩ ⟨v.start, h'.disks cfg.target⟩ from
        ⟨rfl, hh.disks cfg.target⟩)
    have hsync := hv.synced sha256 h
    have hsync' := hv.synced sha256 h'
    rw [Visit.ensures] at hsync hsync'
    generalize bootstrapSync sha256 v h = r at hsync ⊢
    generalize bootstrapSync sha256 v h' = r' at hsync' ⊢
    obtain ⟨result, after⟩ := r
    obtain ⟨result', after'⟩ := r'
    cases hsync with
    | memoized hmemo =>
      cases hsync' with
      | memoized hmemo' =>
        rw [hmemo, hmemo'] at hpeek
        cases hpeek
        exact ⟨rfl, hlater⟩
      | failed hmemo' _ =>
        rw [hmemo, hmemo'] at hpeek
        cases hpeek
      | done hmemo' _ =>
        rw [hmemo, hmemo'] at hpeek
        cases hpeek
    | failed hmemo hensured =>
      cases hsync' with
      | memoized hmemo' =>
        rw [hmemo, hmemo'] at hpeek
        cases hpeek
      | failed _ hensured' =>
        cases hensured.symm.trans (hresult.trans hensured')
        exact ⟨rfl, hlater.update _ _ _ hagree.cached⟩
      | done _ hensured' => cases hensured.symm.trans (hresult.trans hensured')
    | done hmemo hensured =>
      cases hsync' with
      | memoized hmemo' =>
        rw [hmemo, hmemo'] at hpeek
        cases hpeek
      | failed _ hensured' => cases hensured.symm.trans (hresult.trans hensured')
      | done _ hensured' => exact ⟨rfl, hlater.update _ _ _ hagree.cached⟩
  · obtain ⟨err, -, haway⟩ := turned_away sha256 fun ctx cfg h => hv ⟨ctx, cfg, h⟩
    rw [haway h, haway h']
    exact ⟨rfl, hh.later hle⟩

end

/-! ## Sequences of calls -/

/-- One call, and what it returns. -/
def Syncs (sha256 : Text → Text) (h : Host) (l : Visit × Except SyncErr Unit) (h' : Host) : Prop :=
  bootstrapSync sha256 l.1 h = (l.2, h')

theorem syncs_of_result {sha256 : Text → Text} {h : Host} {v : Visit} {r : Except SyncErr Unit}
    (hresult : (bootstrapSync sha256 v h).1 = r) :
    Syncs sha256 h (v, r) (bootstrapSync sha256 v h).2 := Prod.ext hresult rfl

/-- The calls start one after the other. -/
def Sequential (ls : List (Visit × Except SyncErr Unit)) : Prop :=
  ls.Pairwise fun l l' => l.1.start ≤ l'.1.start

/-- What the call finds when it starts, at its own cache path. -/
def Visit.finds (v : Visit) (cfg : BootstrapConfig) (h : Host) : Clocked Disk :=
  ⟨v.start, h.disks cfg.target⟩

/-- The call `i` fails after `before`, has trouble of its own, and has not installed its
artifact. -/
structure FailsTroubled (sha256 : Text → Text) (h₀ : Host)
    (before : List (Visit × Except SyncErr Unit)) (i : Visit) (err : SyncErr) : Prop where
  troubled : ∀ h ctx cfg, Run (Syncs sha256) h₀ before h → i.Consults ctx cfg →
    ¬ i.Untroubled sha256 ctx cfg (i.finds cfg h)
  missing : ∀ h ctx cfg, Run (Syncs sha256) h₀ (before ++ [(i, .error err)]) h →
    i.Consults ctx cfg → (h.disks cfg.target).cached = none

/-- The call `i`, from `h`, fails with `err` less than thirty seconds before `j` starts, from `h'`.
It has no trouble of its own; the error is none of a context, and it is what the download of `j`
itself fails with over the network of `i`, whatever its files are; and if the artifact of `j` is
there, `i` has the same cache path. -/
structure Reflects (sha256 : Text → Text) (i : Visit) (ctx : ContextEnds) (cfg : BootstrapConfig)
    (h : Host) (err : EnsureErr) (j : Visit) (cfg' : BootstrapConfig) (h' : Host) : Prop where
  soon : j.start < i.finish + bootstrapFailureTTL
  untroubled : i.Untroubled sha256 ctx cfg (i.finds cfg h)
  network : cfg.SameNetwork cfg'
  places : (h'.disks cfg'.target).cached.isSome → cfg.target = cfg'.target
  context : ∀ c, err.is (.context c) = false
  error : ∃ e now, err = .joined [e] ∧
    ∀ d, (downloadAndVerify sha256 (i.encounter ctx) cfg' ⟨now, d⟩).1 = .error e

/-- **The memo does not leak one caller's trouble into another's call.**  Without a call that
fails and has trouble of its own, all others return what they do with it; and a memoized error is
one of the network that the call itself is configured for. -/
structure NoLeak (sha256 : Text → Text) (h₀ : Host) (ls : List (Visit × Except SyncErr Unit)) :
    Prop where
  removed : ∀ before i err after, ls = before ++ (i, .error err) :: after →
    FailsTroubled sha256 h₀ before i err → ∃ h, Run (Syncs sha256) h₀ (before ++ after) h
  memoized : ∀ before j err after h', ls = before ++ (j, .error (.memoized err)) :: after →
    Run (Syncs sha256) h₀ before h' → ∃ first i mid h ctx ctx' cfg cfg',
      before = first ++ (i, .error (.failed err)) :: mid ∧ Run (Syncs sha256) h₀ first h ∧
        i.Consults ctx cfg ∧ j.Consults ctx' cfg' ∧ Reflects sha256 i ctx cfg h err j cfg' h'

/-- The call `j` asks the memo under the key of `i`, before thirty seconds have passed. -/
structure Follows (i j : Visit) (ctx ctx' : ContextEnds) (cfg cfg' : BootstrapConfig) : Prop where
  first : i.Consults ctx cfg
  second : j.Consults ctx' cfg'
  key : failureKey cfg = failureKey cfg'
  soon : j.start < i.finish + bootstrapFailureTTL

/-- **The condition**: a call whose failure is recorded and that is followed so has no trouble of
its own, and the network settings of both are the same; and where the artifact of the later one is
there by then, they have the same cache path. -/
def MemoSafe (sha256 : Text → Text) (h₀ : Host) (ls : List (Visit × Except SyncErr Unit)) : Prop :=
  ∀ before i err mid j r after,
    ls = before ++ (i, .error (.failed err)) :: (mid ++ (j, r) :: after) →
    ∀ ctx ctx' cfg cfg' h h', Follows i j ctx ctx' cfg cfg' → Run (Syncs sha256) h₀ before h →
      Run (Syncs sha256) h₀ (before ++ (i, .error (.failed err)) :: mid) h' →
        i.Untroubled sha256 ctx cfg (i.finds cfg h) ∧ cfg.SameNetwork cfg' ∧
          ((h'.disks cfg'.target).cached.isSome → cfg.target = cfg'.target)

section
variable {sha256 : Text → Text} {key : BootstrapFailureKey} {expiry now : Nat} {h h' h₀ : Host}
  {ls : List (Visit × Except SyncErr Unit)}

/-- **Calls that do not see the difference return the same.** -/
theorem Host.Alike.run (hrun : Run (Syncs sha256) h ls h₀) (hh : h.Alike key expiry now h')
    (hstarts : ls.Pairwise fun l l' => l.1.start ≤ l'.1.start) (hnow : ∀ l ∈ ls, now ≤ l.1.start)
    (hexpiry : ∀ l ∈ ls, ∀ ctx cfg, l.1.Consults ctx cfg → failureKey cfg = key →
      expiry ≤ l.1.start) : ∃ h₀', Run (Syncs sha256) h' ls h₀' := by
  induction hrun generalizing now h' with
  | nil _ => exact ⟨h', .nil _⟩
  | @cons s₁ s₂ s₃ l ls hsync _ ih =>
    obtain ⟨hresult, halike⟩ := hh.sync sha256 (hnow l List.mem_cons_self)
      (hexpiry l List.mem_cons_self)
    rw [Syncs] at hsync
    rw [hsync] at hresult halike
    obtain ⟨h₀', hrest⟩ := ih halike hstarts.of_cons
      (fun l' hl' => List.rel_of_pairwise_cons hstarts hl')
      (fun l' hl' => hexpiry l' (List.mem_cons_of_mem _ hl'))
    exact ⟨h₀', .cons (syncs_of_result hresult.symm) hrest⟩

variable (sha256) in
/-- A run is the only one. -/
theorem syncs_unique {h h₁ h₂ : Host} (hrun : Run (Syncs sha256) h ls h₁)
    (hrun' : Run (Syncs sha256) h ls h₂) : h₁ = h₂ := by
  induction hrun with
  | nil _ =>
    cases hrun'
    rfl
  | cons hsync _ ih =>
    cases hrun' with
    | cons hsync' hrest =>
      obtain rfl := congrArg Prod.snd (hsync.symm.trans hsync')
      exact ih hrest

/-! ## Where an entry comes from -/

/-- Every entry is the failure of a call. -/
def AllRecorded (ls : List (Visit × Except SyncErr Unit)) (h : Host) : Prop :=
  ∀ key entry, h.memo key = some entry → ∃ before i after ctx cfg,
    ls = before ++ (i, .error (.failed entry.err)) :: after ∧ i.Consults ctx cfg ∧
      failureKey cfg = key ∧ entry.expiresAt = i.finish + bootstrapFailureTTL

theorem AllRecorded.snoc {h : Host} (hall : AllRecorded ls h) (l : Visit × Except SyncErr Unit) :
    AllRecorded (ls ++ [l]) h := by
  intro key entry hentry
  obtain ⟨before, i, after, ctx, cfg, rfl, hrecorded⟩ := hall key entry hentry
  exact ⟨before, i, after ++ [l], ctx, cfg, by rw [List.append_assoc, List.cons_append], hrecorded⟩

theorem AllRecorded.sync {l : Visit × Except SyncErr Unit} (hall : AllRecorded ls h)
    (hsync : Syncs sha256 h l h') : AllRecorded (ls ++ [l]) h' := by
  obtain ⟨v, result⟩ := l
  rw [Syncs] at hsync
  by_cases hv : ∃ ctx cfg, v.Consults ctx cfg
  · obtain ⟨ctx, cfg, hv⟩ := hv
    have hsynced := hv.synced sha256 h
    rw [hsync] at hsynced
    cases hsynced with
    | memoized hpeek => exact hall.snoc _
    | failed hpeek hensured =>
      intro key entry hentry
      dsimp only at hentry
      by_cases heq : key = failureKey cfg
      · rw [heq, BootstrapFailureCache.record, Function.update_self] at hentry
        obtain rfl := Option.some.inj hentry
        exact ⟨ls, v, [], ctx, cfg, rfl, hv, heq.symm, rfl⟩
      · rw [BootstrapFailureCache.record, Function.update_of_ne heq] at hentry
        exact hall.snoc _ key entry hentry
    | done hpeek hensured =>
      intro key entry hentry
      dsimp only at hentry
      by_cases heq : key = failureKey cfg
      · rw [heq, BootstrapFailureCache.forget, Function.update_self] at hentry
        cases hentry
      · rw [BootstrapFailureCache.forget, Function.update_of_ne heq] at hentry
        exact hall.snoc _ key entry hentry
  · obtain ⟨err, -, haway⟩ := turned_away sha256 fun ctx cfg h => hv ⟨ctx, cfg, h⟩
    obtain ⟨rfl, rfl⟩ := Prod.mk.inj ((haway h).symm.trans hsync)
    exact hall.snoc _

theorem allRecorded_run (hempty : ∀ key, h₀.memo key = none) (hrun : Run (Syncs sha256) h₀ ls h) :
    AllRecorded ls h := by
  have hinit : AllRecorded [] h₀ := by
    intro key entry hentry
    rw [hempty] at hentry
    cases hentry
  exact hrun.history (fun _ _ _ _ hall hsync => hall.sync hsync) hinit

/-- What a memoized error says of the state before the call. -/
theorem Syncs.memoized {j : Visit} {err : EnsureErr}
    (hsync : Syncs sha256 h (j, .error (.memoized err)) h') : ∃ ctx cfg entry, j.Consults ctx cfg ∧
      h.memo (failureKey cfg) = some entry ∧ entry.err = err ∧ j.start < entry.expiresAt := by
  rw [Syncs] at hsync
  by_cases hj : ∃ ctx cfg, j.Consults ctx cfg
  · obtain ⟨ctx, cfg, hj⟩ := hj
    have hsynced := hj.synced sha256 h
    rw [hsync] at hsynced
    cases hsynced with
    | memoized hpeek =>
      obtain ⟨⟨entry, hentry, herr, hlt⟩, -⟩ := peek_some hpeek
      exact ⟨ctx, cfg, entry, hj, hentry, herr, hlt⟩
  · obtain ⟨err', hnot, haway⟩ := turned_away sha256 fun ctx cfg h => hj ⟨ctx, cfg, h⟩
    have hsame := congrArg Prod.fst ((haway h).symm.trans hsync)
    exact (hnot err (Except.error.inj hsame)).elim

/-- What a failure says of the call. -/
theorem Syncs.failed {i : Visit} {ctx : ContextEnds} {cfg : BootstrapConfig} {err : EnsureErr}
    (hsync : Syncs sha256 h (i, .error (.failed err)) h') (hi : i.Consults ctx cfg) :
    (h.memo.peek (failureKey cfg) i.start).1 = none ∧
      i.ensures sha256 ctx cfg h = (.error err, (i.ensures sha256 ctx cfg h).2) ∧
      h' = ⟨h.memo.record (failureKey cfg) err i.finish,
        Function.update h.disks cfg.target (i.ensures sha256 ctx cfg h).2.disk⟩ := by
  rw [Syncs] at hsync
  have hsynced := hi.synced sha256 h
  rw [hsync] at hsynced
  cases hsynced with
  | failed hpeek hensured => exact ⟨hpeek, Prod.ext hensured rfl, rfl⟩

/-! ## How long an entry stays -/

/-- A call that starts while an entry is valid leaves it, and returns its error if it asks for
it. -/
theorem Syncs.entry {l : Visit × Except SyncErr Unit} {entry : BootstrapFailureEntry}
    (hsync : Syncs sha256 h l h') (hentry : h.memo key = some entry)
    (hvalid : l.1.start < entry.expiresAt) : h'.memo key = some entry ∧
      ∀ ctx cfg, l.1.Consults ctx cfg → failureKey cfg = key →
        l.2 = .error (.memoized entry.err) := by
  obtain ⟨v, r⟩ := l
  rw [Syncs] at hsync
  by_cases hv : ∃ ctx cfg, v.Consults ctx cfg
  · obtain ⟨ctx, cfg, hv⟩ := hv
    have hpeek : (h.memo.peek key v.start).1 = some entry.err := by
      rw [BootstrapFailureCache.peek, hentry]
      exact congrArg Prod.fst (if_pos hvalid)
    have hkey (hmiss : (h.memo.peek (failureKey cfg) v.start).1 = none) : key ≠ failureKey cfg := by
      rintro rfl
      rw [hpeek] at hmiss
      cases hmiss
    have hother (hmiss : key ≠ failureKey cfg) : ∀ ctx' cfg', v.Consults ctx' cfg' →
        failureKey cfg' = key → r = .error (.memoized entry.err) := by
      intro ctx' cfg' hv' heq
      obtain rfl : cfg = cfg' := Except.ok.inj (hv.config.symm.trans hv'.config)
      exact (hmiss heq.symm).elim
    have hsynced := hv.synced sha256 h
    rw [hsync] at hsynced
    cases hsynced with
    | memoized hmemo =>
      refine ⟨hentry, fun ctx' cfg' hv' heq => ?_⟩
      obtain rfl : cfg = cfg' := Except.ok.inj (hv.config.symm.trans hv'.config)
      rw [heq, hpeek] at hmemo
      rw [Option.some.inj hmemo]
    | failed hmiss _ =>
      exact ⟨(Function.update_of_ne (hkey hmiss) _ _).trans hentry, hother (hkey hmiss)⟩
    | done hmiss _ =>
      exact ⟨(Function.update_of_ne (hkey hmiss) _ _).trans hentry, hother (hkey hmiss)⟩
  · obtain ⟨err, -, haway⟩ := turned_away sha256 fun ctx cfg h => hv ⟨ctx, cfg, h⟩
    obtain ⟨-, rfl⟩ := Prod.mk.inj ((haway h).symm.trans hsync)
    exact ⟨hentry, fun ctx cfg hv' _ => (hv ⟨ctx, cfg, hv'⟩).elim⟩

/-- **An entry stays as long as it is valid**, and the calls that ask for it return it. -/
theorem entry_stays {entry : BootstrapFailureEntry} (hrun : Run (Syncs sha256) h ls h')
    (hentry : h.memo key = some entry) (hvalid : ∀ l ∈ ls, l.1.start < entry.expiresAt) :
    ∀ l ∈ ls, ∀ ctx cfg, l.1.Consults ctx cfg → failureKey cfg = key →
      l.2 = .error (.memoized entry.err) := by
  induction hrun with
  | nil _ => exact fun l hl => absurd hl List.not_mem_nil
  | @cons s₁ s₂ s₃ l ls hsync _ ih =>
    obtain ⟨hstays, hreturns⟩ := hsync.entry hentry (hvalid l List.mem_cons_self)
    intro l' hl'
    rcases List.mem_cons.mp hl' with rfl | hl'
    · exact hreturns
    · exact ih hstays (fun l hl => hvalid l (List.mem_cons_of_mem _ hl)) l' hl'

/-- **A recorded error is what a call gets that follows**, and what all get between them. -/
theorem Follows.memoized {before mid : List (Visit × Except SyncErr Unit)} {i j : Visit}
    {err : EnsureErr} {r : Except SyncErr Unit} {ctx ctx' : ContextEnds}
    {cfg cfg' : BootstrapConfig} (hfollows : Follows i j ctx ctx' cfg cfg')
    (hrun : Run (Syncs sha256) h₀ (before ++ (i, .error (.failed err)) :: (mid ++ [(j, r)])) h)
    (hseq : Sequential (before ++ (i, .error (.failed err)) :: (mid ++ [(j, r)]))) :
    ∀ l ∈ mid ++ [(j, r)], ∀ ctx'' cfg'', l.1.Consults ctx'' cfg'' →
      failureKey cfg'' = failureKey cfg → l.2 = .error (.memoized err) := by
  obtain ⟨t₁, t₂, -, hfailed, hrest⟩ := hrun.at_move
  obtain ⟨-, -, rfl⟩ := hfailed.failed hfollows.first
  have hentry : (BootstrapFailureCache.record t₁.memo (failureKey cfg) err i.finish)
      (failureKey cfg) = some ⟨err, i.finish + bootstrapFailureTTL⟩ := Function.update_self _ _ _
  refine entry_stays hrest hentry fun l hl => ?_
  have hstarts : (mid ++ [(j, r)]).Pairwise fun l l' => l.1.start ≤ l'.1.start :=
    (List.pairwise_append.mp hseq).2.1.of_cons
  refine lt_of_le_of_lt ?_ hfollows.soon
  rcases List.mem_append.mp hl with hl | hl
  · exact (List.pairwise_append.mp hstarts).2.2 l hl _ List.mem_cons_self
  · rw [List.mem_singleton.mp hl]

/-! ## The condition is enough -/

/-- **A memoized error is one of the same network.** -/
theorem memoized_reflects (hempty : ∀ key, h₀.memo key = none) (hrun : Run (Syncs sha256) h₀ ls h)
    (hsafe : MemoSafe sha256 h₀ ls) {before after : List (Visit × Except SyncErr Unit)} {j : Visit}
    {err : EnsureErr} (hls : ls = before ++ (j, .error (.memoized err)) :: after)
    (hs : Run (Syncs sha256) h₀ before h') : ∃ first i mid s ctx ctx' cfg cfg',
      before = first ++ (i, .error (.failed err)) :: mid ∧ Run (Syncs sha256) h₀ first s ∧
        i.Consults ctx cfg ∧ j.Consults ctx' cfg' ∧ Reflects sha256 i ctx cfg s err j cfg' h' := by
  subst hls
  obtain ⟨s₁, s₂, hbefore, hsync, -⟩ := hrun.at_move
  obtain rfl := syncs_unique sha256 hs hbefore
  obtain ⟨ctx', cfg', entry, hj, hentry, rfl, hlt⟩ := hsync.memoized
  obtain ⟨first, i, mid, ctx, cfg, rfl, hi, hkey, hexpires⟩ :=
    allRecorded_run hempty hs _ entry hentry
  obtain ⟨s, t, hfirst, hfailed, -⟩ := hs.at_move
  obtain ⟨-, hensured, -⟩ := hfailed.failed hi
  have hfollows : Follows i j ctx ctx' cfg cfg' := ⟨hi, hj, hkey, hexpires ▸ hlt⟩
  obtain ⟨huntroubled, hnetwork, hplaces⟩ := hsafe first i _ mid j _ after
    (by rw [List.append_assoc, List.cons_append]) ctx ctx' cfg cfg' s h' hfollows hfirst hs
  obtain ⟨e, herr, hcontext, hdownload⟩ := huntroubled.error (congrArg Prod.fst hensured)
  refine ⟨first, i, mid, s, ctx, ctx', cfg, cfg', rfl, hfirst, hi, hj, hfollows.soon, huntroubled,
    hnetwork, hplaces, hcontext, e, (i.locked ctx (i.finds cfg s)).now, herr, fun d => ?_⟩
  rw [← hnetwork.downloadAndVerify_eq, ← hdownload]
  exact (downloadAndVerify_sees sha256 (i.encounter ctx) cfg
    (show (Clocked.mk _ d).now = (i.locked ctx (i.finds cfg s)).now from rfl)).1

/-- After a failure the memo differs by one entry. -/
theorem Syncs.alike {i : Visit} {ctx : ContextEnds} {cfg : BootstrapConfig} {err : EnsureErr}
    (hsync : Syncs sha256 h (i, .error (.failed err)) h') (hi : i.Consults ctx cfg)
    (hstill : (h'.disks cfg.target).cached = none) :
    h'.Alike (failureKey cfg) (i.finish + bootstrapFailureTTL) i.start h := by
  obtain ⟨hpeek, hensured, rfl⟩ := hsync.failed hi
  constructor
  · intro key t hle hexpiry
    by_cases heq : key = failureKey cfg
    · rw [heq, peek_record, if_neg (not_lt.mpr (hexpiry heq)), peek_none_mono hpeek hle]
    · exact peek_of_ne (Function.update_of_ne heq _ _)
  · intro target
    by_cases heq : target = cfg.target
    · rw [heq, hstill, ensureArtifact_error hensured]
    · exact congrArg (fun d : Disk => d.cached.isSome) (Function.update_of_ne heq _ _)

/-- **A call that fails and has trouble of its own can be removed.** -/
theorem troubled_removed (hrun : Run (Syncs sha256) h₀ ls h) (hseq : Sequential ls)
    (hsafe : MemoSafe sha256 h₀ ls) {before after : List (Visit × Except SyncErr Unit)} {i : Visit}
    {err : SyncErr} (hls : ls = before ++ (i, .error err) :: after)
    (hfails : FailsTroubled sha256 h₀ before i err) :
    ∃ h, Run (Syncs sha256) h₀ (before ++ after) h := by
  subst hls
  obtain ⟨s₁, s₂, hbefore, hsync, hafter⟩ := hrun.at_move
  by_cases hi : ∃ ctx cfg, i.Consults ctx cfg
  · obtain ⟨ctx, cfg, hi⟩ := hi
    have hstill := hfails.missing s₂ ctx cfg (hbefore.snoc hsync) hi
    have hsynced := hi.synced sha256 s₁
    have heq := hsync
    rw [Syncs] at heq
    rw [heq] at hsynced
    cases hsynced with
    | memoized _ => exact ⟨h, hbefore.append hafter⟩
    | failed _ _ =>
      obtain ⟨-, hstarts, -⟩ := List.pairwise_append.mp hseq
      have hlate : ∀ l ∈ after, ∀ ctx' cfg', l.1.Consults ctx' cfg' →
          failureKey cfg' = failureKey cfg → i.finish + bootstrapFailureTTL ≤ l.1.start := by
        intro l hl ctx' cfg' hj hkey
        by_contra hlt
        obtain ⟨mid, rest, rfl⟩ := List.append_of_mem hl
        obtain ⟨s₃, hmid, -⟩ := hafter.split
        exact hfails.troubled s₁ ctx cfg hbefore hi
          (hsafe before i _ mid l.1 l.2 rest rfl ctx ctx' cfg cfg' s₁ s₃
            ⟨hi, hj, hkey.symm, not_le.mp hlt⟩ hbefore (hbefore.append (.cons hsync hmid))).1
      obtain ⟨h', hrun'⟩ := (hsync.alike hi hstill).run hafter hstarts.of_cons
        (fun l hl => List.rel_of_pairwise_cons hstarts hl) hlate
      exact ⟨h', hbefore.append hrun'⟩
  · obtain ⟨err', -, haway⟩ := turned_away sha256 fun ctx cfg h => hi ⟨ctx, cfg, h⟩
    obtain ⟨-, rfl⟩ := Prod.mk.inj ((haway s₁).symm.trans hsync)
    exact ⟨h, hbefore.append hafter⟩

/-! ## The condition is needed -/

/-- **The error a call gets has one source**: of two failures that it follows, the earlier one would
have been the error of the later one. -/
theorem Follows.recorder {before mid first mid' : List (Visit × Except SyncErr Unit)}
    {i i' j : Visit} {err err' : EnsureErr} {r : Except SyncErr Unit}
    {ctx ctx' ctx₁ ctx₂ : ContextEnds} {cfg cfg' cfg₁ cfg₂ : BootstrapConfig}
    (hfollows : Follows i j ctx ctx' cfg cfg') (hfollows' : Follows i' j ctx₁ ctx₂ cfg₁ cfg₂)
    (heq : before ++ (i, .error (.failed err)) :: mid =
      first ++ (i', .error (.failed err')) :: mid')
    (hrun : Run (Syncs sha256) h₀ ((before ++ (i, .error (.failed err)) :: mid) ++ [(j, r)]) h)
    (hseq : Sequential ((before ++ (i, .error (.failed err)) :: mid) ++ [(j, r)])) :
    before = first ∧ i = i' := by
  have hsame : failureKey cfg = failureKey cfg₁ := by
    obtain rfl : cfg' = cfg₂ :=
      Except.ok.inj (hfollows.second.config.symm.trans hfollows'.second.config)
    exact hfollows.key.trans hfollows'.key.symm
  have hrun' := hrun
  have hseq' := hseq
  rw [heq] at hrun' hseq'
  rw [List.append_assoc, List.cons_append] at hrun hseq hrun' hseq'
  have hlater := hfollows.memoized hrun hseq
  have hlater' := hfollows'.memoized hrun' hseq'
  rcases List.append_eq_append_iff.mp heq with ⟨gap, rfl, hrest⟩ | ⟨gap, rfl, hrest⟩
  · rcases gap with _ | ⟨l, gap⟩
    · obtain ⟨hhead, -⟩ := List.cons.inj hrest
      exact ⟨(List.append_nil _).symm, congrArg Prod.fst hhead⟩
    · obtain ⟨-, rfl⟩ := List.cons.inj hrest
      have hgot := hlater (i', .error (.failed err'))
        (List.mem_append_left _ (List.mem_append_right gap List.mem_cons_self)) ctx₁ cfg₁
        hfollows'.first hsame.symm
      cases hgot
  · rcases gap with _ | ⟨l, gap⟩
    · obtain ⟨hhead, -⟩ := List.cons.inj hrest
      exact ⟨List.append_nil _, (congrArg Prod.fst hhead).symm⟩
    · obtain ⟨-, rfl⟩ := List.cons.inj hrest
      have hgot := hlater' (i, .error (.failed err))
        (List.mem_append_left _ (List.mem_append_right gap List.mem_cons_self)) ctx cfg
        hfollows.first hsame
      cases hgot

/-- **Where nothing leaks the condition holds.** -/
theorem NoLeak.memoSafe (hrun : Run (Syncs sha256) h₀ ls h) (hseq : Sequential ls)
    (hsafe : NoLeak sha256 h₀ ls) : MemoSafe sha256 h₀ ls := by
  intro before i err mid j r after hls ctx ctx' cfg cfg' s s' hfollows hs hs'
  subst hls
  have hsplit : before ++ (i, .error (.failed err)) :: (mid ++ (j, r) :: after) =
      ((before ++ (i, .error (.failed err)) :: mid) ++ [(j, r)]) ++ after := by
    simp only [List.append_assoc, List.cons_append, List.nil_append]
  rw [hsplit] at hrun hseq hsafe
  obtain ⟨t, hrun, -⟩ := hrun.split
  have hseq : Sequential ((before ++ (i, .error (.failed err)) :: mid) ++ [(j, r)]) :=
    (List.pairwise_append.mp hseq).1
  have hgot : r = .error (.memoized err) := by
    have hrun' := hrun
    have hseq' := hseq
    rw [List.append_assoc, List.cons_append] at hrun' hseq'
    exact hfollows.memoized hrun' hseq' (j, r) (List.mem_append_right mid List.mem_cons_self)
      ctx' cfg' hfollows.second hfollows.key.symm
  subst hgot
  obtain ⟨first, i', mid', s₁, ctx₁, ctx₂, cfg₁, cfg₂, heq, hfirst, hi', hj, hreflects⟩ :=
    hsafe.memoized _ j err after s' (by rw [List.append_assoc, List.singleton_append]) hs'
  have hfollows' : Follows i' j ctx₁ ctx₂ cfg₁ cfg₂ :=
    ⟨hi', hj, hreflects.network.key, hreflects.soon⟩
  obtain ⟨rfl, rfl⟩ := hfollows.recorder hfollows' heq hrun hseq
  obtain rfl := syncs_unique sha256 hs hfirst
  obtain rfl := Option.some.inj (hfollows.first.has.symm.trans hi'.has)
  obtain rfl : cfg = cfg₁ := Except.ok.inj (hfollows.first.config.symm.trans hi'.config)
  obtain rfl : cfg' = cfg₂ := Except.ok.inj (hfollows.second.config.symm.trans hj.config)
  exact ⟨hreflects.untroubled, hreflects.network, hreflects.places⟩

/-- **The memo of failures does not leak one caller's trouble into another's call exactly in the
sequences of calls that meet the condition.** -/
theorem failure_memo_safe (hempty : ∀ key, h₀.memo key = none)
    (hrun : Run (Syncs sha256) h₀ ls h) (hseq : Sequential ls) :
    NoLeak sha256 h₀ ls ↔ MemoSafe sha256 h₀ ls := by
  refine ⟨fun hsafe => hsafe.memoSafe hrun hseq, fun hsafe => ⟨?_, ?_⟩⟩
  · intro before i err after hls hfails
    exact troubled_removed hrun hseq hsafe hls hfails
  · intro before j err after h' hls hs
    exact memoized_reflects hempty hrun hsafe hls hs

end

/-! ## Samples -/

/-- Nothing has been memoized yet, and nothing is cached. -/
def sampleHost : Host := ⟨fun _ => none, fun _ => sampleState.disk⟩

def sampleLock : LockReply :=
  ⟨text "\"/cache/.lock\"", none, none, fun _ => .locked, fun _ => false, none, none, none⟩

/-- Everything is as it should be. -/
def sampleLive (start : Nat) : Visit where
  start := start
  finish := start + 1000000000
  ctx := some none
  config := .ok sampleConfig
  mkdirErr := none
  lock := sampleLock
  download := sampleCaller.encounter

/-- The context is cancelled half a second into the download. -/
def sampleAborted : Visit :=
  { sampleLive 0 with
    finish := 500000000
    ctx := some (some (500000000, .canceled))
    download := { sampleCaller.encounter with
      artifact := { sampleCaller.encounter.artifact with
        reply := fun _ _ => { sampleReply with
          took := 500000000
          exchange := .error (.stream (.context .canceled)) } } } }

/-- The server does not have the artifact. -/
def sampleMissing : Visit :=
  { sampleLive 0 with
    download := { sampleCaller.encounter with
      artifact := { sampleCaller.encounter.artifact with
        reply := fun _ _ => { sampleReply with
          exchange := .ok { sampleResponse with statusCode := 404 } } } } }

/-- What a call returns first, and then another one after it. -/
def sampleCalls (first second : Visit) : List (Visit × Except SyncErr Unit) :=
  let called := bootstrapSync (fun _ => sampleDigest) first sampleHost
  [(first, called.1), (second, (bootstrapSync (fun _ => sampleDigest) second called.2).1)]

theorem sampleCalls_run (first second : Visit) :
    ∃ h, Run (Syncs fun _ => sampleDigest) sampleHost (sampleCalls first second) h :=
  ⟨_, .cons rfl <| .cons rfl <| .nil _⟩

/-- The aborted call fails with the error of its context. -/
theorem sampleAborted_fails : ∃ err, (bootstrapSync (fun _ => sampleDigest) sampleAborted
    sampleHost).1 = .error (.failed err) ∧ err.is (.context .canceled) = true :=
  ⟨_, rfl, rfl⟩

/-- A second after a call whose context was cancelled, another one gets that error; without it the
other one succeeds. -/
theorem failure_memo_counterexample :
    (∃ h, Run (Syncs fun _ => sampleDigest) sampleHost
      (sampleCalls sampleAborted (sampleLive 1000000000)) h) ∧
      ¬ NoLeak (fun _ => sampleDigest) sampleHost
        (sampleCalls sampleAborted (sampleLive 1000000000)) := by
  refine ⟨sampleCalls_run _ _, fun hsafe => ?_⟩
  obtain ⟨err, hresult, hcontext⟩ := sampleAborted_fails
  have hmemoized : (bootstrapSync (fun _ => sampleDigest) (sampleLive 1000000000)
      (bootstrapSync (fun _ => sampleDigest) sampleAborted sampleHost).2).1.isOk = false := by
    decide +kernel
  have halone : (bootstrapSync (fun _ => sampleDigest) (sampleLive 1000000000) sampleHost).1.isOk =
      true := by
    decide +kernel
  have hcached : ((bootstrapSync (fun _ => sampleDigest) sampleAborted sampleHost).2.disks
      sampleConfig.target).cached.isNone = true := by
    decide +kernel
  have hfails :
      FailsTroubled (fun _ => sampleDigest) sampleHost [] sampleAborted (.failed err) := by
    constructor
    · intro h ctx cfg hrun hi huntroubled
      cases hrun
      obtain ⟨-, hensured, -⟩ := (syncs_of_result hresult).failed hi
      obtain ⟨e, -, hnot, -⟩ := huntroubled.error (congrArg Prod.fst hensured)
      cases hcontext.symm.trans (hnot .canceled)
    · intro h ctx cfg hrun hi
      obtain rfl : sampleConfig = cfg := Except.ok.inj hi.config
      cases hrun with
      | cons hsync hrest =>
        cases hrest
        obtain rfl : (bootstrapSync (fun _ => sampleDigest) sampleAborted sampleHost).2 = h :=
          congrArg Prod.snd hsync
        exact Option.isNone_iff_eq_none.mp hcached
  have hplace : sampleCalls sampleAborted (sampleLive 1000000000) =
      [] ++ (sampleAborted, .error (.failed err)) ::
        [(sampleLive 1000000000, (bootstrapSync (fun _ => sampleDigest) (sampleLive 1000000000)
          (bootstrapSync (fun _ => sampleDigest) sampleAborted sampleHost).2).1)] := by
    rw [sampleCalls, hresult, List.nil_append]
  obtain ⟨h, hrun⟩ := hsafe.removed [] sampleAborted _ _ hplace hfails
  cases hrun with
  | cons hsync _ =>
    have hsame := congrArg Prod.fst hsync
    dsimp only at hsame
    rw [hsame, hmemoized] at halone
    cases halone

/-- Another caller installs at a cache path of its own. -/
def sampleElsewhere : Visit :=
  { sampleLive 1000000000 with config := .ok { sampleConfig with cacheDir := text "/other" } }

/-- Where the artifact is cached does not matter to the network. -/
theorem sameNetwork_cacheDir (cfg : BootstrapConfig) (dir : Text) :
    cfg.SameNetwork { cfg with cacheDir := dir } := ⟨rfl, fun _ => rfl⟩

/-- That the server does not have the artifact is no trouble of the caller's own. -/
theorem sampleMissing_untroubled : sampleMissing.Untroubled (fun _ => sampleDigest) none
    sampleConfig (sampleMissing.finds sampleConfig sampleHost) where
  made := rfl
  lockMade := rfl
  lockOpened := rfl
  locks := rfl
  unlocks := rfl
  closes := rfl
  downloads _ := by
    have hstatus : ∀ resp, ¬ Opened none (.ok { sampleResponse with statusCode := 404 })
        maxBootstrapArtifactBytes resp := by
      rintro resp ⟨-, hresponse, hstatus, -⟩
      obtain rfl := Except.ok.inj hresponse
      exact absurd hstatus (by decide)
    refine ⟨fun hunknown => ?_, fun expected now _ => ⟨?_, fun a _ hdisturbed => ?_⟩, ?_⟩
    · cases hunknown
    · exact (downloadRun_climbs _ _ _ _ _).uninterrupted (fun _ _ _ _ => rfl) (fun _ => rfl)
    · rcases hdisturbed with (⟨-, hended⟩ | ⟨hopened, -, -⟩) | ⟨hopened, -⟩ | ⟨hopened, -, -⟩
      · cases hended
      · exact hstatus _ hopened
      · exact hstatus _ hopened
      · exact hstatus _ hopened
    · intro expected now tmpPath digest s' hresolved hdownload
      obtain rfl : 0 = now := congrArg Prod.snd hresolved
      have hfails : (downloadArtifact (fun _ => sampleDigest) (sampleMissing.encounter none)
          sampleConfig
          { sampleMissing.locked none (sampleMissing.finds sampleConfig sampleHost) with
            now := 0 }).1.isOk = false := by
        decide +kernel
      rw [hdownload] at hfails
      cases hfails

theorem sampleMissing_fails : ∃ err,
    (bootstrapSync (fun _ => sampleDigest) sampleMissing sampleHost).1 = .error (.failed err) :=
  ⟨_, rfl⟩

/-- A second after a call to a server that does not have the artifact, another one with a cache
path of its own gets that error, and nothing leaks. -/
theorem failure_memo_safe_sample :
    (∃ err, (sampleCalls sampleMissing sampleElsewhere).map Prod.snd =
      [.error (.failed err), .error (.memoized err)]) ∧
      NoLeak (fun _ => sampleDigest) sampleHost (sampleCalls sampleMissing sampleElsewhere) := by
  obtain ⟨err, hfails⟩ := sampleMissing_fails
  obtain ⟨h, hrun⟩ := sampleCalls_run sampleMissing sampleElsewhere
  have hseq : Sequential (sampleCalls sampleMissing sampleElsewhere) :=
    .cons (by simp [sampleMissing, sampleLive]) (List.pairwise_singleton _ _)
  constructor
  · obtain ⟨r, hr⟩ : ∃ r, (bootstrapSync (fun _ => sampleDigest) sampleElsewhere
        (bootstrapSync (fun _ => sampleDigest) sampleMissing sampleHost).2).1 = r := ⟨_, rfl⟩
    have hcalls : sampleCalls sampleMissing sampleElsewhere =
        [] ++ (sampleMissing, .error (.failed err)) :: ([] ++ [(sampleElsewhere, r)]) := by
      rw [sampleCalls, hfails, hr, List.nil_append, List.nil_append]
    have hlater : Follows sampleMissing sampleElsewhere none none sampleConfig
        { sampleConfig with cacheDir := text "/other" } :=
      ⟨⟨rfl, rfl, rfl⟩, ⟨rfl, rfl, rfl⟩, (sameNetwork_cacheDir _ _).key, by decide⟩
    rw [hcalls] at hrun hseq ⊢
    obtain rfl : r = .error (.memoized err) :=
      hlater.memoized hrun hseq _ List.mem_cons_self _ _ hlater.second hlater.key.symm
    exact ⟨err, rfl⟩
  refine (failure_memo_safe (fun _ => rfl) hrun hseq).mpr ?_
  intro before i err mid j r after hls ctx ctx' cfg cfg' s s' hfollows hs hs'
  have hlength := congrArg List.length hls
  rw [sampleCalls] at hls hlength
  rcases before with _ | ⟨l, before⟩
  · rcases mid with _ | ⟨l, mid⟩
    · obtain ⟨hfirst, hrest⟩ := List.cons.inj hls
      obtain ⟨hsecond, -⟩ := List.cons.inj hrest
      obtain rfl := congrArg Prod.fst hfirst
      obtain rfl := congrArg Prod.fst hsecond
      obtain rfl : sampleConfig = cfg := Except.ok.inj hfollows.first.config
      obtain rfl := Except.ok.inj hfollows.second.config
      obtain rfl := Option.some.inj hfollows.first.has
      cases hs
      refine ⟨sampleMissing_untroubled, sameNetwork_cacheDir _ _, fun hthere => ?_⟩
      have hmissing :
          ((bootstrapSync (fun _ => sampleDigest) sampleMissing sampleHost).2.disks
            ({ sampleConfig with
              cacheDir := text "/other" } : BootstrapConfig).target).cached.isSome = false := by
        decide +kernel
      cases hs' with
      | cons hsync hrest =>
        cases hrest
        obtain rfl : (bootstrapSync (fun _ => sampleDigest) sampleMissing sampleHost).2 = s' :=
          congrArg Prod.snd hsync
        rw [hmissing] at hthere
        cases hthere
    · simp only [List.nil_append, List.length_cons, List.length_append, List.length_nil] at hlength
      omega
  · simp only [List.cons_append, List.length_cons, List.length_append, List.length_nil] at hlength
    omega

end PureSimdjson.Bootstrap
