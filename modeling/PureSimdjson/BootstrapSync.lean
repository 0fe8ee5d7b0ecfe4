import PureSimdjson.RetryViews
import PureSimdjson.Installations

/-!
# Bootstraps

`BootstrapSync`: the memo of failures, the cache, the file lock, and the download under it.
-/
namespace PureSimdjson.Bootstrap

open Texts Retry

/-! ## Errors -/

/-- The error of `ensureArtifact`; `joined` is what `errors.Join` makes. -/
inductive EnsureErr where
  | plain (err : Err)
  | joined (errs : List Err)

/-- `errors.Is` -/
def EnsureErr.is (s : Sentinel) : EnsureErr → Bool
  | .plain err => err.is s
  | .joined errs => errs.any (·.is s)

/-- The error of `BootstrapSync`. -/
inductive SyncErr where
  | nilContext
  | context (err : ContextError)
  | config (err : Err)
  | memoized (err : EnsureErr)
  | failed (err : EnsureErr)

/-- `errors.Join` -/
def errorsJoin (errs : List (Option Err)) : Except EnsureErr Unit :=
  match errs.reduceOption with
  | [] => .ok ()
  | errs => .error (.joined errs)

/-! ## The file lock -/

/-- `lockAcquireTimeout` -/
def lockAcquireTimeout : Nat := 120 * 1000000000

/-- `lockRetryInterval` -/
def lockRetryInterval : Nat := 200 * 1000000

/-- What `lockFile` returns. -/
inductive LockResult where
  | locked
  | wouldBlock
  | failed (err : Text)

/-- What meets a caller at the lock file. -/
structure LockReply where
  /-- The path, as `%q` shows it. -/
  lockPath : Text
  mkdirErr : Option Text
  openErr : Option Text
  lockFile : Nat → LockResult
  timerFirst : Nat → Bool
  /-- What another process installs while this one waits. -/
  installed : Option Text
  unlockErr : Option Text
  closeErr : Option Text

/-- When a context ends, and how. -/
abbrev ContextEnds := Option (Nat × ContextError)

/-- `ctx.Err()` -/
def ContextEnds.err (ctx : ContextEnds) (now : Nat) : Option ContextError :=
  match ctx with
  | some (ends, err) => if ends ≤ now then some err else none
  | none => none

/-- The loop of `withProcessFileLock`, about to try for the `n`-th time; it gives up after `left`
more. -/
def waitForLock (E : LockReply) (ctx : ContextEnds) :
    (left n now : Nat) → Except Err Unit × Nat
  | left, n, now =>
      match E.lockFile n with
      | .locked => (.ok (), now)
      | .failed err =>
          (.error (.wrap (text "acquire lock " ++ E.lockPath ++ text ": ") (.text err)), now)
      | .wouldBlock =>
          match left with
          | 0 =>
              (.error (.text (text "timed out acquiring lock " ++ E.lockPath ++
                text " after 2m0s")), now)
          | left + 1 =>
              let wake := now + lockRetryInterval
              match ctx with
              | none => waitForLock E ctx left (n + 1) wake
              | some (ends, err) =>
                  if ends < wake ∨ ends = wake ∧ E.timerFirst n = false then
                    (.error (.sentinel (.context err)), max now ends)
                  else waitForLock E ctx left (n + 1) wake

/-- Waiting for the lock, from the start. -/
def LockReply.acquire (E : LockReply) (ctx : ContextEnds) (now : Nat) : Except Err Unit × Nat :=
  waitForLock E ctx (lockAcquireTimeout / lockRetryInterval) 0 now

/-- Another process may have installed the artifact. -/
def Disk.receive (d : Disk) (installed : Option Text) : Disk :=
  { d with cached := d.cached.or installed }

/-- What there is of an error. -/
def errOf {α : Type} : Except Err α → Option Err
  | .error err => some err
  | .ok _ => none

/-- `withProcessFileLock` -/
def withProcessFileLock (E : LockReply) (ctx : ContextEnds)
    (fn : Clocked Disk → Except Err Unit × Clocked Disk) (s : Clocked Disk) :
    Except EnsureErr Unit × Clocked Disk :=
  match E.mkdirErr with
  | some err => (.error (.plain (.wrap (text "create lock dir: ") (.text err))), s)
  | none =>
      match E.openErr with
      | some err =>
          (.error (.plain (.wrap (text "open lock file " ++ E.lockPath ++ text ": ") (.text err))),
            s)
      | none =>
          let waited := E.acquire ctx s.now
          match waited.1 with
          | .error err => (.error (.plain err), { s with now := waited.2 })
          | .ok () =>
              let r := fn ⟨waited.2, s.disk.receive E.installed⟩
              (errorsJoin [errOf r.1, E.unlockErr.map .text, E.closeErr.map .text], r.2)

/-! ## The artifact -/

/-- A call of `BootstrapSync`, and what meets it: the context, which may be nil, what
`resolveConfig` makes of the options, the directory of the artifact, the lock, and the download.
It starts at one reading of the clock; another one is taken for what it failed with. -/
structure Visit where
  start : Nat
  finish : Nat
  ctx : Option ContextEnds
  config : Except Err BootstrapConfig
  mkdirErr : Option Text
  lock : LockReply
  download : Encounter

/-- What meets the download, under the context of the call. -/
def Visit.encounter (v : Visit) (ctx : ContextEnds) : Encounter :=
  { v.download with
    sums := { v.download.sums with contextEnds := ctx }
    artifact := { v.download.artifact with contextEnds := ctx } }

/-- What `ensureArtifact` does under the lock. -/
def ensureLocked (sha256 : Text → Text) (v : Visit) (ctx : ContextEnds) (cfg : BootstrapConfig)
    (s : Clocked Disk) : Except Err Unit × Clocked Disk :=
  if s.disk.cached.isSome then (.ok (), s)
  else downloadAndVerify sha256 (v.encounter ctx) cfg s

/-- `ensureArtifact` -/
def ensureArtifact (sha256 : Text → Text) (v : Visit) (ctx : ContextEnds) (cfg : BootstrapConfig)
    (s : Clocked Disk) : Except EnsureErr Unit × Clocked Disk :=
  if s.disk.cached.isSome then (.ok (), s)
  else
    match v.mkdirErr with
    | some err => (.error (.plain (.wrap (text "create cache dir: ") (.text err))), s)
    | none => withProcessFileLock v.lock ctx (ensureLocked sha256 v ctx cfg) s

/-! ## The memo -/

/-- `bootstrapFailureTTL` -/
def bootstrapFailureTTL : Nat := 30 * 1000000000

/-- `bootstrapFailureKey` -/
structure BootstrapFailureKey where
  mirrorURL : Text
  disableGH : Bool
  goos : Text
  goarch : Text
  version : Text
  deriving DecidableEq

/-- `failureKey` -/
def failureKey (cfg : BootstrapConfig) : BootstrapFailureKey :=
  ⟨cfg.mirrorURL, cfg.disableGH, cfg.goos, cfg.goarch, cfg.version⟩

/-- `bootstrapFailureEntry` -/
structure BootstrapFailureEntry where
  err : EnsureErr
  expiresAt : Nat

/-- The entries of `bootstrapFailureCache`. -/
abbrev BootstrapFailureCache := BootstrapFailureKey → Option BootstrapFailureEntry

def BootstrapFailureCache.forget (c : BootstrapFailureCache) (key : BootstrapFailureKey) :
    BootstrapFailureCache := Function.update c key none

def BootstrapFailureCache.record (c : BootstrapFailureCache) (key : BootstrapFailureKey)
    (err : EnsureErr) (now : Nat) : BootstrapFailureCache :=
  Function.update c key (some ⟨err, now + bootstrapFailureTTL⟩)

def BootstrapFailureCache.peek (c : BootstrapFailureCache) (key : BootstrapFailureKey) (now : Nat) :
    Option EnsureErr × BootstrapFailureCache :=
  match c key with
  | none => (none, c)
  | some entry => if now < entry.expiresAt then (some entry.err, c) else (none, c.forget key)

/-! ## The call -/

/-- The memo of a process, and the files at the cache paths. -/
structure Host where
  memo : BootstrapFailureCache
  disks : Target → Disk

/-- `BootstrapSync` -/
def bootstrapSync (sha256 : Text → Text) (v : Visit) (h : Host) : Except SyncErr Unit × Host :=
  match v.ctx with
  | none => (.error .nilContext, h)
  | some ctx =>
      match ctx.err v.start with
      | some err => (.error (.context err), h)
      | none =>
          match v.config with
          | .error err => (.error (.config err), h)
          | .ok cfg =>
              let key := failureKey cfg
              let peeked := h.memo.peek key v.start
              match peeked.1 with
              | some err => (.error (.memoized err), { h with memo := peeked.2 })
              | none =>
                  let ensured := ensureArtifact sha256 v ctx cfg ⟨v.start, h.disks cfg.target⟩
                  let disks := Function.update h.disks cfg.target ensured.2.disk
                  match ensured.1 with
                  | .error err => (.error (.failed err), ⟨peeked.2.record key err v.finish, disks⟩)
                  | .ok () => (.ok (), ⟨peeked.2.forget key, disks⟩)

end PureSimdjson.Bootstrap
