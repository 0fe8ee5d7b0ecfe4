import PureSimdjson.ChecksumFiles
import PureSimdjson.Backoff
import PureSimdjson.Redirects
import PureSimdjson.RetrySchedules

/-!
# Downloads

`download.go` and `checksum_resolution.go`: one attempt at an artifact, one at a published
`SHA256SUMS`, and the two ladders of such attempts.
-/
namespace PureSimdjson.Bootstrap

open Texts Retry

/-! ## Errors -/

/-- The error of a context that has ended. -/
inductive ContextError where
  | canceled
  | deadlineExceeded
  deriving DecidableEq

inductive Sentinel where
  | checksumMismatch
  | noChecksum
  | allSourcesFailed
  | httpsDowngrade
  | context (err : ContextError)
  deriving DecidableEq

/-- The errors of the bootstrap.  `wrap` is `fmt.Errorf` with `%w`, `url` is `*url.Error`,
`permanent` is `permanentBootstrapError`, and `retryHint` is `retryHintError`.  `allSourcesFailed`
wraps only its sentinel: of the last error it has the text. -/
inductive Err where
  | sentinel (s : Sentinel)
  | text (message : Text)
  | wrap (message : Text) (err : Err)
  | url (err : Err)
  | permanent (err : Err)
  | retryHint (err : Err) (after : Duration)
  | allSourcesFailed (last : Err)

/-- `errors.Is` -/
def Err.is (s : Sentinel) : Err → Bool
  | .sentinel s' => s' = s
  | .text _ => false
  | .wrap _ err | .url err | .permanent err | .retryHint err _ => err.is s
  | .allSourcesFailed _ => s = .allSourcesFailed

/-- The error itself, or one that it wraps. -/
inductive Err.Wraps : Err → Err → Prop where
  | refl (err : Err) : Wraps err err
  | wrap {err inner : Err} (message : Text) (h : Wraps err inner) : Wraps (.wrap message err) inner
  | permanent {err inner : Err} (h : Wraps err inner) : Wraps (.permanent err) inner

/-- `isPermanentBootstrapError` -/
def isPermanentBootstrapError : Err → Bool
  | .permanent _ => true
  | .wrap _ err | .url err | .retryHint err _ => isPermanentBootstrapError err
  | .sentinel _ | .text _ | .allSourcesFailed _ => false

/-- `markPermanentBootstrapError` -/
def markPermanentBootstrapError (err : Err) : Err :=
  if isPermanentBootstrapError err then err else .permanent err

/-- The hint that `errors.As` finds. -/
def Err.hint : Err → Option Duration
  | .retryHint _ after => some after
  | .wrap _ err | .url err | .permanent err => err.hint
  | .sentinel _ | .text _ | .allSourcesFailed _ => none

/-- What the `*url.Error` wraps that `errors.As` finds. -/
def Err.urlErr : Err → Option Err
  | .url err => some err
  | .wrap _ err | .permanent err | .retryHint err _ => err.urlErr
  | .sentinel _ | .text _ | .allSourcesFailed _ => none

/-- `isBootstrapRedirectPolicyError` -/
def isBootstrapRedirectPolicyError (err : Err) : Bool :=
  if err.is .httpsDowngrade then true
  else
    match err.urlErr with
    | some inner => inner.is .httpsDowngrade
    | none => false

/-- `isLadderFatalError` -/
def isLadderFatalError (err : Err) : Bool :=
  if err.is .checksumMismatch || err.is .noChecksum then true
  else isBootstrapRedirectPolicyError err

/-! ## Requests -/

/-- What ends a connection. -/
inductive StreamError where
  | context (err : ContextError)
  | other (message : Text)

def StreamError.err : StreamError → Err
  | .context err => .sentinel (.context err)
  | .other message => .text message

/-- Why there is no response: `rejectHTTPSDowngrade`, or the connection. -/
inductive TransportError where
  | downgrade
  | stream (err : StreamError)

/-- What `http.Client.Do` returns. -/
def TransportError.err : TransportError → Err
  | .downgrade => .url (.sentinel .httpsDowngrade)
  | .stream err => .url err.err

/-- What arrives of a body, and what ends it early. -/
structure Body where
  content : Text
  failure : Option StreamError

structure Response where
  statusCode : Int
  /-- The header `Retry-After`. -/
  retryAfter : Text
  /-- `time.Until` of `http.ParseTime`. -/
  untilTime : Text → Option Duration
  /-- The header `X-RateLimit-Remaining`. -/
  rateLimitRemaining : Text
  contentLength : Int
  /-- The first 512 bytes of the body. -/
  snippet : Text
  body : Body

/-- `isRetryable` -/
def isRetryable (resp : Response) : Bool :=
  if resp.statusCode = 408 ∨ resp.statusCode = 429 then true
  else if resp.statusCode ≥ 500 then true
  else if resp.statusCode = 403 then
    let lower := toLower resp.snippet
    resp.retryAfter ≠ [] || trimSpace resp.rateLimitRemaining = text "0" ||
      text "rate limit exceeded" <:+: lower || text "secondary rate limit" <:+: lower
  else false

/-- The error of a status other than 200. -/
def statusError (resp : Response) (rawURL : Text) : Err :=
  let statusErr : Err := .text (text "HTTP " ++ text (toString resp.statusCode) ++ text " from " ++
    rawURL ++ text ": " ++ trimSpace resp.snippet)
  if !isRetryable resp then markPermanentBootstrapError statusErr
  else
    let hint := parseRetryAfter resp.untilTime resp.retryAfter
    if hint > 0 then .retryHint statusErr hint else statusErr

/-- How both kinds of attempts begin; `createMessage` is what each says of a request that cannot
be made. -/
def getOK (createMessage rawURL : Text) (requestErr : Option Text)
    (exchange : Except TransportError Response) : Except Err Response :=
  match requestErr with
  | some err => .error (markPermanentBootstrapError (.wrap createMessage (.text err)))
  | none =>
      match exchange with
      | .error err =>
          if isBootstrapRedirectPolicyError err.err then
            .error (markPermanentBootstrapError (.wrap (text "redirect policy: ") err.err))
          else .error err.err
      | .ok resp => if resp.statusCode ≠ 200 then .error (statusError resp rawURL) else .ok resp

/-- Reading an `io.LimitReader` that ends one byte beyond `max`: there may be more than `max`. -/
def Body.readLimited (body : Body) (max : Nat) : Except Err (Option Text) :=
  if len body.content > max then .ok none
  else
    match body.failure with
    | some err => .error err.err
    | none => .ok (some body.content)

/-! ## Files -/

/-- The files an installation is about: the temporary ones, by their names, and the one at the
cache path.  `os.CreateTemp` makes a new name. -/
structure Disk where
  temps : List (Nat × Text)
  nextTemp : Nat
  cached : Option Text
  fresh : ∀ temp ∈ temps, temp.1 < nextTemp

/-- `os.CreateTemp` -/
def Disk.createTemp (d : Disk) : Nat × Disk :=
  (d.nextTemp,
    { d with
      temps := (d.nextTemp, []) :: d.temps
      nextTemp := d.nextTemp + 1
      fresh := by
        intro temp htemp
        rcases List.mem_cons.mp htemp with rfl | htemp
        · exact Nat.lt_succ_self _
        · exact Nat.lt_succ_of_lt (d.fresh temp htemp) })

def Disk.write (d : Disk) (path : Nat) (content : Text) : Disk :=
  { d with
    temps := d.temps.map fun temp => if temp.1 = path then (path, content) else temp
    fresh := by
      intro temp htemp
      obtain ⟨old, hold, rfl⟩ := List.mem_map.mp htemp
      have hlt := d.fresh old hold
      split
      · next heq => exact heq ▸ hlt
      · exact hlt }

/-- `os.Remove` -/
def Disk.remove (d : Disk) (path : Nat) : Disk :=
  { d with
    temps := d.temps.filter (·.1 ≠ path)
    fresh := fun temp htemp => d.fresh temp (List.mem_filter.mp htemp).1 }

/-- `os.Rename` of a temporary file to the cache path. -/
def Disk.rename (d : Disk) (path : Nat) : Disk :=
  { d.remove path with cached := (d.temps.find? (·.1 = path)).map (·.2) }

/-! ## Attempts -/

/-- `maxBootstrapArtifactBytes` -/
def maxBootstrapArtifactBytes : Nat := 128 * 2 ^ 20

/-- `maxChecksumsMetadataBytes` -/
def maxChecksumsMetadataBytes : Nat := 2 ^ 20

/-- What meets one attempt at an artifact. -/
structure ArtifactReply where
  took : Nat
  requestErr : Option Text
  exchange : Except TransportError Response
  mkdirErr : Option Text
  createTempErr : Option Text
  writeErr : Option Text
  syncErr : Option Text
  chmodErr : Option Text

/-- What `downloadOnce` does with its temporary file: the digest, if all goes well. -/
def writeTemp (sha256 : Text → Text) (reply : ArtifactReply) (resp : Response) (rawURL : Text) :
    Except Err (Text × Text) :=
  match reply.writeErr with
  | some err => .error (.wrap (text "write to temp: ") (.text err))
  | none =>
      match resp.body.readLimited maxBootstrapArtifactBytes with
      | .error err => .error (.wrap (text "write to temp: ") err)
      | .ok none =>
          .error (markPermanentBootstrapError (.text (text "response too large: " ++
            text (toString (maxBootstrapArtifactBytes + 1)) ++ text " bytes from " ++ rawURL)))
      | .ok (some content) =>
          match reply.syncErr with
          | some err => .error (.wrap (text "fsync temp: ") (.text err))
          | none =>
              match reply.chmodErr with
              | some err => .error (.wrap (text "chmod temp: ") (.text err))
              | none => .ok (content, sha256 content)

/-- `downloadOnce`: the path of the temporary file, and the digest of its content. -/
def downloadOnce (sha256 : Text → Text) (reply : ArtifactReply) (rawURL : Text) (d : Disk) :
    Except Err (Nat × Text) × Disk :=
  match getOK (text "create request: ") rawURL reply.requestErr reply.exchange with
  | .error err => (.error err, d)
  | .ok resp =>
      if resp.contentLength > maxBootstrapArtifactBytes then
        (.error (markPermanentBootstrapError (.text (text "advertised response too large: " ++
          text (toString resp.contentLength) ++ text " bytes from " ++ rawURL ++ text " (cap: " ++
          text (toString maxBootstrapArtifactBytes) ++ text ")"))), d)
      else
        match reply.mkdirErr with
        | some err =>
            (.error (markPermanentBootstrapError
              (.wrap (text "create cache dir: ") (.text err))), d)
        | none =>
            match reply.createTempErr with
            | some err =>
                (.error (markPermanentBootstrapError (.wrap (text "create temp: ") (.text err))), d)
            | none =>
                let (createdTmp, d) := d.createTemp
                match writeTemp sha256 reply resp rawURL with
                | .error err => (.error err, d.remove createdTmp)
                | .ok (content, digest) => (.ok (createdTmp, digest), d.write createdTmp content)

/-- What meets one attempt at a published `SHA256SUMS`. -/
structure SumsReply where
  took : Nat
  requestErr : Option Text
  exchange : Except TransportError Response

/-- `fetchChecksumFromURL` -/
def fetchChecksumFromURL (reply : SumsReply) (rawURL key : Text) : Except Err Text :=
  match getOK (text "create checksum request: ") rawURL reply.requestErr reply.exchange with
  | .error err => .error err
  | .ok resp =>
      if resp.contentLength > maxChecksumsMetadataBytes then
        .error (markPermanentBootstrapError
          (.text (text "advertised checksum metadata too large: " ++
            text (toString resp.contentLength) ++ text " bytes from " ++ rawURL ++
            text " (cap: " ++ text (toString maxChecksumsMetadataBytes) ++ text ")")))
      else
        match resp.body.readLimited maxChecksumsMetadataBytes with
        | .error err => .error (.wrap (text "read checksum metadata: ") err)
        | .ok none =>
            .error (markPermanentBootstrapError (.text (text "checksum metadata too large: " ++
              text (toString (maxChecksumsMetadataBytes + 1)) ++ text " bytes from " ++ rawURL)))
        | .ok (some body) =>
            match parseChecksumFromSHA256SUMS body key with
            | .digest digest => .ok digest
            | .absent => .error (markPermanentBootstrapError (.wrap key (.sentinel .noChecksum)))
            | .invalid => .error (markPermanentBootstrapError (.text (text "invalid SHA256SUMS")))

/-! ## Ladders -/

/-- The URLs of a ladder, in order. -/
structure Source where
  index : Nat
  url : Text
  deriving DecidableEq

/-- `urls`; without a fallback its URL is empty. -/
def sources (primaryURL fallbackURL : Text) : List Source :=
  if fallbackURL = [] then [⟨0, primaryURL⟩] else [⟨0, primaryURL⟩, ⟨1, fallbackURL⟩]

/-- What a ladder meets: when its context ends, what each attempt at each source meets, and the
jitter of each pause.  A pause and the context may end at the same time. -/
structure Conditions (ρ : Type) where
  contextEnds : Option (Nat × ContextError)
  reply : Nat → Nat → ρ
  jitter : Nat → Nat → Duration
  timerFirst : Nat → Nat → Bool

/-- The time, and what else a ladder works on. -/
structure Clocked (δ : Type) where
  now : Nat
  disk : δ

section
variable {ρ δ : Type} (E : Conditions ρ)

/-- `ctx.Err()` -/
def Conditions.contextErr (now : Nat) : Option ContextError :=
  match E.contextEnds with
  | some (ends, err) => if ends ≤ now then some err else none
  | none => none

/-- `sleepWithJitter` -/
def Conditions.sleepWithJitter (u : Source) (attempt : Nat) (hint : Duration) (s : Clocked δ) :
    Option ContextError × Clocked δ :=
  let d := sleepDuration (.ofNat attempt) (E.jitter u.index attempt) hint
  let wake := s.now + d.toInt.toNat
  match E.contextEnds with
  | some (ends, err) =>
      if ends < wake ∨ ends = wake ∧ E.timerFirst u.index attempt = false then
        (some err, { s with now := max s.now ends })
      else (none, { s with now := wake })
  | none => (none, { s with now := wake })

end

/-- `bootstrapRetryAttempt` -/
def bootstrapRetryAttempt : Nat := 3

/-- The error of an attempt, as the ladders report it. -/
def attemptError (u : Source) (attempt : Nat) (err : Err) : Err :=
  .wrap (text "attempt " ++ text (toString (attempt + 1)) ++ text "/" ++
    text (toString bootstrapRetryAttempt) ++ text " " ++ u.url ++ text ": ") err

/-- The loops of `downloadWithRetry`. -/
def artifactLadder (sha256 : Text → Text) (E : Conditions ArtifactReply) :
    Ladder Source (Clocked Disk) Err (Nat × Text) Duration ContextError where
  limit := bootstrapRetryAttempt
  noHint := 0
  pause := E.sleepWithJitter
  check s := E.contextErr s.now
  attempt u attempt s :=
    let reply := E.reply u.index attempt
    let r := downloadOnce sha256 reply u.url s.disk
    (r.1, ⟨s.now + reply.took, r.2⟩)
  verdict err :=
    if isLadderFatalError err then .stop
    else if isPermanentBootstrapError err then .giveUp
    else .again (err.hint.getD 0)

/-- What `downloadWithRetry` goes through. -/
def downloadRun (sha256 : Text → Text) (E : Conditions ArtifactReply)
    (primaryURL fallbackURL : Text) (s : Clocked Disk) :
    Climb Source (Clocked Disk) Err (Nat × Text) Duration ContextError :=
  (artifactLadder sha256 E).climb (sources primaryURL fallbackURL) none s

/-- What `downloadWithRetry` returns. -/
def downloadResult (x : Exit Source Err (Nat × Text) ContextError) : Except Err (Nat × Text) :=
  match x with
  | .success tmp => .ok tmp
  | .stopped u attempt err => .error (markPermanentBootstrapError (attemptError u attempt err))
  | .interrupted err => .error (.sentinel (.context err))
  | .exhausted (some (u, attempt, err)) => .error (.allSourcesFailed (attemptError u attempt err))
  | .exhausted none => .error (.allSourcesFailed (.text (text "no URLs attempted")))

/-- `downloadWithRetry` -/
def downloadWithRetry (sha256 : Text → Text) (E : Conditions ArtifactReply)
    (primaryURL fallbackURL : Text) (s : Clocked Disk) : Except Err (Nat × Text) × Clocked Disk :=
  let run := downloadRun sha256 E primaryURL fallbackURL s
  (downloadResult run.exit, run.state)

/-- The loops of `resolveChecksumFromPublishedSums`. -/
def sumsLadder (E : Conditions SumsReply) (key : Text) :
    Ladder Source (Clocked Unit) Err Text Duration ContextError where
  limit := bootstrapRetryAttempt
  noHint := 0
  pause := E.sleepWithJitter
  check s := E.contextErr s.now
  attempt u attempt s :=
    let reply := E.reply u.index attempt
    (fetchChecksumFromURL reply u.url key, ⟨s.now + reply.took, ()⟩)
  verdict err :=
    if isPermanentBootstrapError err then .giveUp else .again (err.hint.getD 0)

/-- What `resolveChecksumFromPublishedSums` goes through. -/
def sumsRun (E : Conditions SumsReply) (key primaryURL fallbackURL : Text) (now : Nat) :
    Climb Source (Clocked Unit) Err Text Duration ContextError :=
  (sumsLadder E key).climb (sources primaryURL fallbackURL) none ⟨now, ()⟩

/-- What `resolveChecksumFromPublishedSums` returns. -/
def sumsResult (key : Text) (x : Exit Source Err Text ContextError) : Except Err Text :=
  let noChecksum : Err := .wrap key (.sentinel .noChecksum)
  let failed (lastErr : Err) : Except Err Text :=
    if lastErr.is .noChecksum then .error (markPermanentBootstrapError noChecksum)
    else .error lastErr
  match x with
  | .success digest => .ok digest
  | .stopped u attempt err => .error (attemptError u attempt err)
  | .interrupted err => .error (.sentinel (.context err))
  | .exhausted (some (u, attempt, err)) => failed (attemptError u attempt err)
  | .exhausted none => failed noChecksum

/-- `resolveChecksumFromPublishedSums` -/
def resolveChecksumFromPublishedSums (E : Conditions SumsReply)
    (key primaryURL fallbackURL : Text) (now : Nat) : Except Err Text × Nat :=
  let run := sumsRun E key primaryURL fallbackURL now
  (sumsResult key run.exit, run.state.now)

end PureSimdjson.Bootstrap
