import PureSimdjson.ChecksumLadder

/-!
# Verified downloads

`downloadAndVerify`: the digest that is expected, the artifact and its digest, and the
installation.
-/
namespace PureSimdjson.Bootstrap

open Texts Retry

/-! ## Configuration -/

/-- `bootstrapConfig`, without the client. -/
structure BootstrapConfig where
  cacheDir : Text
  version : Text
  mirrorURL : Text
  disableGH : Bool
  githubBaseURL : Text
  goos : Text
  goarch : Text
  destDir : Text
  deriving DecidableEq

/-- `strings.TrimRight(s, "/")` -/
def trimRightSlash (t : Text) : Text := t.rdropWhile (· = .char '/')

def defaultR2BaseURL : Text := text "https://releases.amikos.tech/pure-simdjson"

def defaultGitHubBaseURL : Text :=
  text "https://github.com/amikos-tech/pure-simdjson/releases/download"

/-- `PlatformLibraryName` -/
def platformLibraryName (goos : Text) : Text :=
  if goos = text "darwin" then text "libpure_simdjson.dylib"
  else if goos = text "linux" then text "libpure_simdjson.so"
  else if goos = text "windows" then text "pure_simdjson-msvc.dll"
  else text "libpure_simdjson"

def githubAssetName (goos goarch : Text) : Text :=
  if goos = text "darwin" then
    text "libpure_simdjson-" ++ goos ++ text "-" ++ goarch ++ text ".dylib"
  else if goos = text "linux" then
    text "libpure_simdjson-" ++ goos ++ text "-" ++ goarch ++ text ".so"
  else if goos = text "windows" then
    text "pure_simdjson-" ++ goos ++ text "-" ++ goarch ++ text "-msvc.dll"
  else text "libpure_simdjson-" ++ goos ++ text "-" ++ goarch

def r2ArtifactURL (baseURL version goos goarch : Text) : Text :=
  trimRightSlash baseURL ++ text "/v" ++ version ++ text "/" ++ (goos ++ text "-" ++ goarch) ++
    text "/" ++ platformLibraryName goos

def githubArtifactURL (baseURL version goos goarch : Text) : Text :=
  let base := if baseURL = [] then defaultGitHubBaseURL else baseURL
  trimRightSlash base ++ text "/v" ++ version ++ text "/" ++ githubAssetName goos goarch

def r2ChecksumsURL (baseURL version : Text) : Text :=
  trimRightSlash baseURL ++ text "/v" ++ version ++ text "/SHA256SUMS"

def githubChecksumsURL (baseURL version : Text) : Text :=
  let base := if baseURL = [] then defaultGitHubBaseURL else baseURL
  trimRightSlash base ++ text "/v" ++ version ++ text "/SHA256SUMS"

/-- `ChecksumKey` -/
def checksumKey (version goos goarch : Text) : Text :=
  text "v" ++ version ++ text "/" ++ goos ++ text "-" ++ goarch ++ text "/" ++
    platformLibraryName goos

def BootstrapConfig.r2Base (cfg : BootstrapConfig) : Text :=
  if cfg.mirrorURL = [] then defaultR2BaseURL else cfg.mirrorURL

/-! ## The expected digest -/

/-- `resolveExpectedChecksum`, where `checksums` is the map `Checksums`. -/
def resolveExpectedChecksum (checksums : Text → Option Text) (E : Conditions SumsReply)
    (cfg : BootstrapConfig) (now : Nat) : Except Err Text × Nat :=
  let key := checksumKey cfg.version cfg.goos cfg.goarch
  match checksums key with
  | some digest =>
      let digest := toLower (trimSpace digest)
      if looksLikeSHA256Hex digest then (.ok digest, now)
      else (.error (.text (text "invalid checksum override for " ++ key ++
        text ": " ++ digest)), now)
  | none =>
      resolveChecksumFromPublishedSums E key (r2ChecksumsURL cfg.r2Base cfg.version)
        (if cfg.disableGH then [] else githubChecksumsURL cfg.githubBaseURL cfg.version) now

/-! ## The installation -/

/-- What meets an installation. -/
structure InstallReply where
  mkdirErr : Option Text
  renameErr : Option Text

/-- `atomicInstall` -/
def atomicInstall (reply : InstallReply) (tmpPath : Nat) (d : Disk) : Except Err Unit × Disk :=
  match reply.mkdirErr with
  | some err => (.error (.wrap (text "create artifact dir: ") (.text err)), d)
  | none =>
      match reply.renameErr with
      | some err => (.error (.wrap (text "atomic rename: ") (.text err)), d.remove tmpPath)
      | none => (.ok (), d.rename tmpPath)

/-- What meets a download. -/
structure Encounter where
  checksums : Text → Option Text
  sums : Conditions SumsReply
  artifact : Conditions ArtifactReply
  install : InstallReply

/-- The artifact, downloaded as `downloadAndVerify` does it. -/
def downloadArtifact (sha256 : Text → Text) (E : Encounter) (cfg : BootstrapConfig)
    (s : Clocked Disk) : Except Err (Nat × Text) × Clocked Disk :=
  downloadWithRetry sha256 E.artifact
    (r2ArtifactURL cfg.r2Base cfg.version cfg.goos cfg.goarch)
    (if cfg.disableGH then []
      else githubArtifactURL cfg.githubBaseURL cfg.version cfg.goos cfg.goarch) s

/-- `downloadAndVerify` -/
def downloadAndVerify (sha256 : Text → Text) (E : Encounter) (cfg : BootstrapConfig)
    (s : Clocked Disk) : Except Err Unit × Clocked Disk :=
  let resolved := resolveExpectedChecksum E.checksums E.sums cfg s.now
  match resolved.1 with
  | .error err => (.error err, { s with now := resolved.2 })
  | .ok expected =>
      let downloaded := downloadArtifact sha256 E cfg { s with now := resolved.2 }
      match downloaded.1 with
      | .error err => (.error err, downloaded.2)
      | .ok (tmpPath, digest) =>
          let s := downloaded.2
          if !equalFold digest expected then
            (.error (markPermanentBootstrapError (.wrap (text "expected " ++ expected ++
              text ", got " ++ digest ++ text " for " ++
              checksumKey cfg.version cfg.goos cfg.goarch) (.sentinel .checksumMismatch))),
              { s with disk := s.disk.remove tmpPath })
          else
            let installed := atomicInstall E.install tmpPath s.disk
            (installed.1, { s with disk := installed.2 })

/-! ## The disk -/

/-- The files are the same; the name of the next temporary one may not be. -/
def Disk.Same (d d' : Disk) : Prop := d'.temps = d.temps ∧ d'.cached = d.cached

/-- There is one more temporary file. -/
structure Disk.Adds (d d' : Disk) (path : Nat) (content : Text) : Prop where
  temps : d'.temps = (path, content) :: d.temps
  cached : d'.cached = d.cached
  fresh : ∀ temp ∈ d.temps, temp.1 ≠ path

theorem Disk.Same.trans {d d' d'' : Disk} (h : d.Same d') (h' : d'.Same d'') : d.Same d'' :=
  ⟨h'.1.trans h.1, h'.2.trans h.2⟩

theorem Disk.Same.adds {d d' d'' : Disk} {path : Nat} {content : Text} (h : d.Same d')
    (h' : d'.Adds d'' path content) : d.Adds d'' path content :=
  ⟨h.1 ▸ h'.temps, h'.cached.trans h.2, h.1 ▸ h'.fresh⟩

theorem Disk.createTemp_adds (d : Disk) : d.Adds d.createTemp.2 d.createTemp.1 [] where
  temps := rfl
  cached := rfl
  fresh temp htemp := Nat.ne_of_lt (d.fresh temp htemp)

theorem Disk.Adds.write {d d' : Disk} {path : Nat} {content : Text} (h : d.Adds d' path content)
    (content' : Text) : d.Adds (d'.write path content') path content' where
  temps := by
    show d'.temps.map _ = _
    rw [h.temps, List.map_cons, if_pos rfl]
    refine congrArg _ ((List.map_congr_left fun temp htemp => ?_).trans (List.map_id _))
    exact if_neg (h.fresh temp htemp)
  cached := h.cached
  fresh := h.fresh

theorem Disk.Adds.remove {d d' : Disk} {path : Nat} {content : Text} (h : d.Adds d' path content) :
    d.Same (d'.remove path) := by
  refine ⟨?_, h.cached⟩
  show d'.temps.filter _ = _
  rw [h.temps, List.filter_cons_of_neg (by simp), List.filter_eq_self]
  exact fun temp htemp => decide_eq_true (h.fresh temp htemp)

theorem Disk.Adds.rename {d d' : Disk} {path : Nat} {content : Text} (h : d.Adds d' path content) :
    (d'.rename path).temps = d.temps ∧ (d'.rename path).cached = some content := by
  refine ⟨h.remove.1, ?_⟩
  show (d'.temps.find? _).map _ = _
  rw [h.temps, List.find?_cons_of_pos (by simp)]
  rfl

/-! ## One attempt -/

theorem writeTemp_ok {sha256 : Text → Text} {reply : ArtifactReply} {resp : Response}
    {rawURL content digest : Text}
    (h : writeTemp sha256 reply resp rawURL = .ok (content, digest)) : digest = sha256 content := by
  unfold writeTemp at h
  split at h
  · cases h
  · split at h
    · cases h
    · cases h
    · split at h
      · cases h
      · split at h
        · cases h
        · cases h
          rfl

/-- **An attempt leaves the files as they were, or adds the one it returns.** -/
theorem downloadOnce_disk (sha256 : Text → Text) (reply : ArtifactReply) (rawURL : Text)
    (d : Disk) :
    match (downloadOnce sha256 reply rawURL d).1 with
    | .error _ => d.Same (downloadOnce sha256 reply rawURL d).2
    | .ok (tmpPath, digest) => ∃ content,
        d.Adds (downloadOnce sha256 reply rawURL d).2 tmpPath content ∧
          digest = sha256 content := by
  rw [downloadOnce]
  cases getOK (text "create request: ") rawURL reply.requestErr reply.exchange with
  | error err => exact ⟨rfl, rfl⟩
  | ok resp =>
    dsimp only
    by_cases hlong : resp.contentLength > maxBootstrapArtifactBytes
    · rw [if_pos hlong]
      exact ⟨rfl, rfl⟩
    · rw [if_neg hlong]
      cases reply.mkdirErr with
      | some err => exact ⟨rfl, rfl⟩
      | none =>
        cases reply.createTempErr with
        | some err => exact ⟨rfl, rfl⟩
        | none =>
          dsimp only
          cases hwrite : writeTemp sha256 reply resp rawURL with
          | error err => exact d.createTemp_adds.remove
          | ok p => exact ⟨p.1, d.createTemp_adds.write p.1, writeTemp_ok hwrite⟩

theorem artifactLadder_disk (sha256 : Text → Text) (E : Conditions ArtifactReply) (u : Source)
    (n : Nat) (s : Clocked Disk) :
    match ((artifactLadder sha256 E).attempt u n s).1 with
    | .error _ => s.disk.Same ((artifactLadder sha256 E).attempt u n s).2.disk
    | .ok (tmpPath, digest) => ∃ content,
        s.disk.Adds ((artifactLadder sha256 E).attempt u n s).2.disk tmpPath content ∧
          digest = sha256 content :=
  downloadOnce_disk sha256 (E.reply u.index n) u.url s.disk

theorem artifactLadder_kept (sha256 : Text → Text) (E : Conditions ArtifactReply) :
    Kept (artifactLadder sha256 E) fun s s' => s.disk.Same s'.disk where
  refl _ := ⟨rfl, rfl⟩
  trans := Disk.Same.trans
  pause u n hint s := by
    show s.disk.Same (E.sleepWithJitter u n hint s).2.disk
    rw [Conditions.sleepWithJitter]
    cases E.contextEnds with
    | none => exact ⟨rfl, rfl⟩
    | some p =>
      dsimp only
      split <;> exact ⟨rfl, rfl⟩
  failed {u n s e s'} h := by
    have hdisk := artifactLadder_disk sha256 E u n s
    rw [h] at hdisk
    exact hdisk

/-- **A download leaves the files as they were, or adds the one it returns.** -/
theorem downloadWithRetry_disk (sha256 : Text → Text) (E : Conditions ArtifactReply)
    (primaryURL fallbackURL : Text) (s : Clocked Disk) :
    match (downloadWithRetry sha256 E primaryURL fallbackURL s).1 with
    | .error _ => s.disk.Same (downloadWithRetry sha256 E primaryURL fallbackURL s).2.disk
    | .ok (tmpPath, digest) => ∃ content,
        s.disk.Adds (downloadWithRetry sha256 E primaryURL fallbackURL s).2.disk tmpPath content ∧
          digest = sha256 content := by
  obtain ⟨hsuccess, hfailed⟩ := (downloadRun_climbs sha256 E primaryURL fallbackURL s).kept
    (artifactLadder_kept sha256 E)
  rw [downloadWithRetry]
  dsimp only
  cases hexit : (downloadRun sha256 E primaryURL fallbackURL s).exit with
  | success tmp =>
    obtain ⟨s₁, u, k, hsame, hmade⟩ := hsuccess tmp hexit
    have hdisk := artifactLadder_disk sha256 E u k s₁
    rw [hmade] at hdisk
    obtain ⟨content, hadds, hdigest⟩ := hdisk
    exact ⟨content, hsame.adds hadds, hdigest⟩
  | stopped u n err => exact hfailed fun res h => by rw [hexit] at h; cases h
  | interrupted c => exact hfailed fun res h => by rw [hexit] at h; cases h
  | exhausted last =>
    have hsame := hfailed fun res h => by rw [hexit] at h; cases h
    cases last <;> exact hsame

/-! ## The whole -/

/-- What a download that fails leaves. -/
theorem downloadArtifact_error {sha256 : Text → Text} {E : Encounter} {cfg : BootstrapConfig}
    {d after : Clocked Disk} {err : Err}
    (h : downloadArtifact sha256 E cfg d = (.error err, after)) : d.disk.Same after.disk := by
  have hdisk := downloadWithRetry_disk sha256 E.artifact
    (r2ArtifactURL cfg.r2Base cfg.version cfg.goos cfg.goarch)
    (if cfg.disableGH then []
      else githubArtifactURL cfg.githubBaseURL cfg.version cfg.goos cfg.goarch) d
  rw [downloadArtifact] at h
  rw [h] at hdisk
  exact hdisk

/-- What a download that succeeds adds. -/
theorem downloadArtifact_ok {sha256 : Text → Text} {E : Encounter} {cfg : BootstrapConfig}
    {d after : Clocked Disk} {tmpPath : Nat} {digest : Text}
    (h : downloadArtifact sha256 E cfg d = (.ok (tmpPath, digest), after)) :
    ∃ content, d.disk.Adds after.disk tmpPath content ∧ digest = sha256 content := by
  have hdisk := downloadWithRetry_disk sha256 E.artifact
    (r2ArtifactURL cfg.r2Base cfg.version cfg.goos cfg.goarch)
    (if cfg.disableGH then []
      else githubArtifactURL cfg.githubBaseURL cfg.version cfg.goos cfg.goarch) d
  rw [downloadArtifact] at h
  rw [h] at hdisk
  exact hdisk

/-- **A verified download is atomic and leaves nothing behind**: the verified artifact is at the
cache path, or the file there is what it was; and there are the temporary files there were. -/
structure CleanDownload (sha256 : Text → Text) (expected : Except Err Text) (d d' : Disk)
    (result : Except Err Unit) : Prop where
  installed : result = .ok () → ∃ content digest, d'.cached = some content ∧
    expected = .ok digest ∧ equalFold (sha256 content) digest = true
  unchanged : ∀ err, result = .error err → d'.cached = d.cached
  clean : d'.temps = d.temps

/-- The directory can be made for an artifact that has been downloaded and verified. -/
def CanInstall (sha256 : Text → Text) (E : Encounter) (cfg : BootstrapConfig) (s : Clocked Disk) :
    Prop :=
  ∀ expected now tmpPath digest s',
    resolveExpectedChecksum E.checksums E.sums cfg s.now = (.ok expected, now) →
    downloadArtifact sha256 E cfg { s with now := now } = (.ok (tmpPath, digest), s') →
    equalFold digest expected = true → E.install.mkdirErr = none

/-- **A verified download is clean exactly where** the directory of an artifact that has been
downloaded and verified can be made. -/
theorem verified_download_iff (sha256 : Text → Text) (E : Encounter) (cfg : BootstrapConfig)
    (s : Clocked Disk) :
    CleanDownload sha256 (resolveExpectedChecksum E.checksums E.sums cfg s.now).1 s.disk
        (downloadAndVerify sha256 E cfg s).2.disk (downloadAndVerify sha256 E cfg s).1 ↔
      CanInstall sha256 E cfg s := by
  have hsame {err : Err} {expected : Except Err Text} {d' : Disk} (h : s.disk.Same d') :
      CleanDownload sha256 expected s.disk d' (.error err) :=
    ⟨(fun h => by cases h), (fun _ _ => h.2), h.1⟩
  rw [downloadAndVerify, CanInstall]
  rcases hresolved : resolveExpectedChecksum E.checksums E.sums cfg s.now with ⟨expected, now⟩
  dsimp only
  cases expected with
  | error err => exact iff_of_true (hsame ⟨rfl, rfl⟩) (fun _ _ _ _ _ h => by cases h)
  | ok expected =>
    dsimp only
    rcases hdownload : downloadArtifact sha256 E cfg { s with now := now } with ⟨result, s'⟩
    cases result with
    | error err =>
      have hdisk := downloadArtifact_error (d := { s with now := now }) hdownload
      refine iff_of_true (hsame hdisk) fun _ _ _ _ _ h h' => ?_
      cases h
      rw [hdownload] at h'
      cases h'
    | ok tmp =>
      obtain ⟨tmpPath, digest⟩ := tmp
      obtain ⟨content, hadds, rfl⟩ := downloadArtifact_ok (d := { s with now := now }) hdownload
      dsimp only at hadds ⊢
      by_cases hequal : equalFold (sha256 content) expected = true
      · rw [if_neg (by rw [hequal]; exact Bool.false_ne_true), atomicInstall]
        cases hmkdir : E.install.mkdirErr with
        | some err =>
          -- the temporary file is left behind
          refine iff_of_false (fun h => ?_) fun h => ?_
          · have hlength := congrArg List.length (hadds.temps.symm.trans h.clean)
            rw [List.length_cons] at hlength
            omega
          · cases h _ _ _ _ _ rfl hdownload hequal
        | none =>
          refine iff_of_true ?_ fun _ _ _ _ _ _ _ _ => rfl
          cases E.install.renameErr with
          | some err => exact hsame hadds.remove
          | none =>
            obtain ⟨htemps, hcached⟩ := hadds.rename
            exact ⟨fun _ => ⟨content, expected, hcached, rfl, hequal⟩, (fun _ h => by cases h),
              htemps⟩
      · rw [if_pos (by rw [Bool.eq_false_of_not_eq_true hequal]; rfl)]
        refine iff_of_true (hsame hadds.remove) fun _ _ _ _ _ h h' hequal' => ?_
        cases h
        rw [hdownload] at h'
        cases h'
        exact absurd hequal' hequal

/-! ## A sample -/

def sampleConfig : BootstrapConfig :=
  ⟨text "/cache", text "0.1.4", [], true, [], text "linux", text "amd64", []⟩

/-- Everything succeeds, until the directory of the artifact cannot be made. -/
def sampleUnmade : Encounter where
  checksums _ := some sampleDigest
  sums := sampleDowngrade
  artifact := ⟨none, fun _ _ => sampleReply, fun _ _ => 0, fun _ _ => false⟩
  install := ⟨some (text "input/output error"), none⟩

/-- The temporary file is left behind. -/
theorem verified_download_counterexample :
    ¬ CleanDownload (fun _ => sampleDigest)
      (resolveExpectedChecksum sampleUnmade.checksums sampleUnmade.sums sampleConfig
        sampleState.now).1 sampleState.disk
      (downloadAndVerify (fun _ => sampleDigest) sampleUnmade sampleConfig sampleState).2.disk
      (downloadAndVerify (fun _ => sampleDigest) sampleUnmade sampleConfig sampleState).1 := by
  intro h
  have hlength := congrArg List.length h.clean
  revert hlength
  decide +kernel

end PureSimdjson.Bootstrap
