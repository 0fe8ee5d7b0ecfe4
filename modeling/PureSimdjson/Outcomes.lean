import PureSimdjson.Downloads

/-!
# Outcomes

What meets an attempt, in the classes the ladders are written for, and what the error of the
attempt says of it.
-/
namespace PureSimdjson.Bootstrap

open Texts Retry

/-- A transient outcome has the hint that reaches the next pause. -/
inductive Outcome where
  | success
  | transient (hint : Duration)
  | status
  | downgrade
  | oversized
  | unrequestable
  | localFault
  | noEntry
  | badFile
  deriving DecidableEq

/-- Another attempt at the same URL may do better. -/
def Outcome.Transient : Outcome → Prop
  | .transient _ => True
  | _ => False

instance : DecidablePred Outcome.Transient := fun o => by
  cases o <;> unfold Outcome.Transient <;> infer_instance

/-- What an exchange comes to, before its body is read. -/
def answered (requestErr : Option Text) (exchange : Except TransportError Response) :
    Except Outcome Response :=
  match requestErr with
  | some _ => .error .unrequestable
  | none =>
      match exchange with
      | .error .downgrade => .error .downgrade
      | .error (.stream _) => .error (.transient 0)
      | .ok resp =>
          if resp.statusCode = 200 then .ok resp
          else if isRetryable resp then
            .error (.transient (serverHint (parseRetryAfter resp.untilTime resp.retryAfter)))
          else .error .status

/-- What meets an attempt at an artifact. -/
def ArtifactReply.outcome (reply : ArtifactReply) : Outcome :=
  match answered reply.requestErr reply.exchange with
  | .error o => o
  | .ok resp =>
      if resp.contentLength > maxBootstrapArtifactBytes then .oversized
      else if reply.mkdirErr.isSome ∨ reply.createTempErr.isSome then .localFault
      else if reply.writeErr.isSome then .transient 0
      else
        match resp.body.readLimited maxBootstrapArtifactBytes with
        | .error _ => .transient 0
        | .ok none => .oversized
        | .ok (some _) =>
            if reply.syncErr.isSome ∨ reply.chmodErr.isSome then .transient 0 else .success

/-- What meets an attempt at a published `SHA256SUMS`. -/
def SumsReply.outcome (key : Text) (reply : SumsReply) : Outcome :=
  match answered reply.requestErr reply.exchange with
  | .error o => o
  | .ok resp =>
      if resp.contentLength > maxChecksumsMetadataBytes then .oversized
      else
        match resp.body.readLimited maxChecksumsMetadataBytes with
        | .error _ => .transient 0
        | .ok none => .oversized
        | .ok (some body) =>
            match parseChecksumFromSHA256SUMS body key with
            | .digest _ => .success
            | .absent => .noEntry
            | .invalid => .badFile

/-! ## Errors -/

/-- What an error says of an outcome. -/
structure Means (o : Outcome) (err : Err) : Prop where
  permanent : isPermanentBootstrapError err = decide (¬ o.Transient)
  hint : ∀ h, o = .transient h → err.hint.getD 0 = h
  downgrade : isBootstrapRedirectPolicyError err = decide (o = .downgrade)
  mismatch : err.is .checksumMismatch = false
  noChecksum : err.is .noChecksum = decide (o = .noEntry)
  allFailed : err.is .allSourcesFailed = false

/-- The result of an attempt says what met it. -/
inductive Answers {α : Type} : Outcome → Except Err α → Prop where
  | success (a : α) : Answers .success (.ok a)
  | failed {o : Outcome} {err : Err} (hne : o ≠ .success) (h : Means o err) :
      Answers o (.error err)

@[simp] theorem isPermanent_mark (err : Err) :
    isPermanentBootstrapError (markPermanentBootstrapError err) = true := by
  rw [markPermanentBootstrapError]
  split
  · assumption
  · rfl

/-- Marking an error changes nothing of what it is. -/
@[simp] theorem is_mark (err : Err) (s : Sentinel) :
    (markPermanentBootstrapError err).is s = err.is s := by
  rw [markPermanentBootstrapError]
  split <;> rfl

@[simp] theorem urlErr_mark (err : Err) :
    (markPermanentBootstrapError err).urlErr = err.urlErr := by
  rw [markPermanentBootstrapError]
  split <;> rfl

/-- The bootstrap's own sentinels, which no connection reports. -/
def Plain (err : Err) : Prop :=
  err.is .checksumMismatch = false ∧ err.is .noChecksum = false ∧
    err.is .allSourcesFailed = false ∧ isBootstrapRedirectPolicyError err = false

theorem StreamError.plain (err : StreamError) : Plain err.err := by
  cases err <;> exact ⟨rfl, rfl, rfl, rfl⟩

theorem StreamError.not_permanent (err : StreamError) :
    isPermanentBootstrapError err.err = false := by
  cases err <;> rfl

theorem StreamError.no_hint (err : StreamError) : err.err.hint = none := by
  cases err <;> rfl

/-- A plain error that is marked is given up for an outcome of its own. -/
theorem Plain.marked {err : Err} (h : Plain err) {o : Outcome} (ho : ¬ o.Transient)
    (hdowngrade : o ≠ .downgrade) (hentry : o ≠ .noEntry) :
    Means o (markPermanentBootstrapError err) where
  permanent := by rw [isPermanent_mark, decide_eq_true ho]
  hint _ heq := by
    rw [heq] at ho
    exact absurd trivial ho
  downgrade := by
    have hpolicy := h.2.2.2
    rw [isBootstrapRedirectPolicyError] at hpolicy
    rw [isBootstrapRedirectPolicyError, is_mark, urlErr_mark, hpolicy, decide_eq_false hdowngrade]
  mismatch := (is_mark _ _).trans h.1
  noChecksum := by rw [is_mark, h.2.1, decide_eq_false hentry]
  allFailed := (is_mark _ _).trans h.2.2.1

/-- A plain error that is not marked is transient, with its hint. -/
theorem Plain.transient {err : Err} (h : Plain err)
    (hperm : isPermanentBootstrapError err = false) :
    Means (.transient (err.hint.getD 0)) err where
  permanent := hperm
  hint _ heq := Outcome.transient.inj heq
  downgrade := h.2.2.2
  mismatch := h.1
  noChecksum := h.2.1
  allFailed := h.2.2.1

theorem Plain.text (message : Text) : Plain (.text message) := ⟨rfl, rfl, rfl, rfl⟩

theorem Plain.wrap {err : Err} (h : Plain err) (message : Text) : Plain (.wrap message err) := h

/-- A local error that is not marked is transient, and has no hint. -/
theorem Plain.retried {err : Err} (h : Plain err) (hperm : isPermanentBootstrapError err = false)
    (hhint : err.hint = none) (message : Text) : Means (.transient 0) (.wrap message err) := by
  have hmeans := (h.wrap message).transient hperm
  rwa [show (Err.wrap message err).hint = none from hhint] at hmeans

/-! ## Attempts -/

/-- A status says whether it is retried, and with which hint. -/
theorem statusError_means (resp : Response) (rawURL : Text) :
    Means (if isRetryable resp then
      .transient (serverHint (parseRetryAfter resp.untilTime resp.retryAfter)) else .status)
      (statusError resp rawURL) := by
  rw [statusError]
  dsimp only
  by_cases hretry : isRetryable resp = true
  · rw [if_pos hretry, if_neg (by rw [hretry]; exact Bool.false_ne_true), serverHint]
    generalize parseRetryAfter resp.untilTime resp.retryAfter = hint
    by_cases hhint : hint > 0
    · rw [if_pos hhint, if_pos hhint]
      exact ⟨rfl, fun h heq => Outcome.transient.inj heq, rfl, rfl, rfl, rfl⟩
    · rw [if_neg hhint, if_neg hhint]
      exact (Plain.text _).transient rfl
  · rw [if_neg hretry, if_pos (by rw [Bool.eq_false_of_not_eq_true hretry]; rfl)]
    exact (Plain.text _).marked id (fun h => by cases h) (fun h => by cases h)

/-- **How an attempt begins.** -/
theorem getOK_spec (createMessage rawURL : Text) (requestErr : Option Text)
    (exchange : Except TransportError Response) :
    match answered requestErr exchange with
    | .ok resp => getOK createMessage rawURL requestErr exchange = .ok resp
    | .error o => o ≠ .success ∧
        ∃ err, getOK createMessage rawURL requestErr exchange = .error err ∧ Means o err := by
  unfold answered getOK
  cases requestErr with
  | some err =>
    refine ⟨(fun h => by cases h), _, rfl, ?_⟩
    exact ((Plain.text err).wrap createMessage).marked id (fun h => by cases h)
      (fun h => by cases h)
  | none =>
    cases exchange with
    | error err =>
      cases err with
      | downgrade =>
        exact ⟨(fun h => by cases h), _, rfl, rfl, (fun _ h => by cases h), rfl, rfl, rfl, rfl⟩
      | stream err =>
        refine ⟨(fun h => by cases h), .url err.err, ?_, ?_⟩
        · cases err <;> rfl
        · cases err <;> exact ⟨rfl, fun h heq => Outcome.transient.inj heq, rfl, rfl, rfl, rfl⟩
    | ok resp =>
      by_cases hok : resp.statusCode = 200
      · simp only [if_pos hok, if_neg (not_not_intro hok)]
      · have hmeans := statusError_means resp rawURL
        simp only [if_neg hok, if_pos hok]
        by_cases hretry : isRetryable resp = true
        · rw [hretry] at hmeans ⊢
          exact ⟨(fun h => by cases h), _, rfl, hmeans⟩
        · rw [Bool.eq_false_of_not_eq_true hretry] at hmeans ⊢
          exact ⟨(fun h => by cases h), _, rfl, hmeans⟩

/-- What `downloadOnce` does with its file says what met it. -/
theorem writeTemp_answers (sha256 : Text → Text) (reply : ArtifactReply) (resp : Response)
    (rawURL : Text) :
    Answers (if reply.writeErr.isSome then .transient 0
      else
        match resp.body.readLimited maxBootstrapArtifactBytes with
        | .error _ => .transient 0
        | .ok none => .oversized
        | .ok (some _) =>
            if reply.syncErr.isSome ∨ reply.chmodErr.isSome then .transient 0 else .success)
      (writeTemp sha256 reply resp rawURL) := by
  have hlocal (message err : Text) : Answers (α := Text × Text) (.transient 0)
      (.error (.wrap message (.text err))) :=
    .failed (fun h => by cases h) ((Plain.text err).retried rfl rfl message)
  rw [writeTemp]
  cases reply.writeErr with
  | some err => exact hlocal _ err
  | none =>
    rw [if_neg (by simp), Body.readLimited]
    dsimp only
    by_cases hlong : len resp.body.content > maxBootstrapArtifactBytes
    · rw [if_pos hlong]
      exact .failed (fun h => by cases h)
        ((Plain.text _).marked id (fun h => by cases h) (fun h => by cases h))
    · rw [if_neg hlong]
      cases resp.body.failure with
      | some err =>
        exact .failed (fun h => by cases h)
          (err.plain.retried err.not_permanent err.no_hint _)
      | none =>
        cases reply.syncErr with
        | some err => exact hlocal _ err
        | none =>
          cases reply.chmodErr with
          | some err => exact hlocal _ err
          | none => exact .success _

/-- **The result of `downloadOnce` says what met it.** -/
theorem downloadOnce_answers (sha256 : Text → Text) (reply : ArtifactReply) (rawURL : Text)
    (d : Disk) : Answers reply.outcome (downloadOnce sha256 reply rawURL d).1 := by
  have hspec := getOK_spec (text "create request: ") rawURL reply.requestErr reply.exchange
  rw [ArtifactReply.outcome, downloadOnce]
  cases hanswered : answered reply.requestErr reply.exchange with
  | error o =>
    rw [hanswered] at hspec
    obtain ⟨hne, err, herr, hmeans⟩ := hspec
    rw [herr]
    exact .failed hne hmeans
  | ok resp =>
    rw [hanswered] at hspec
    rw [show getOK _ _ _ _ = .ok resp from hspec]
    have hmarked (o : Outcome) (ho : ¬ o.Transient) (hdowngrade : o ≠ .downgrade)
        (hentry : o ≠ .noEntry) (hsuccess : o ≠ .success) {err : Err} (h : Plain err) :
        Answers (α := Nat × Text) o (.error (markPermanentBootstrapError err)) :=
      .failed hsuccess (h.marked ho hdowngrade hentry)
    dsimp only
    by_cases hlong : resp.contentLength > maxBootstrapArtifactBytes
    · rw [if_pos hlong, if_pos hlong]
      exact hmarked _ id (fun h => by cases h) (fun h => by cases h) (fun h => by cases h)
        (.text _)
    · rw [if_neg hlong, if_neg hlong]
      cases hmkdir : reply.mkdirErr with
      | some err =>
        exact hmarked _ id (fun h => by cases h) (fun h => by cases h) (fun h => by cases h)
          ((Plain.text err).wrap _)
      | none =>
        cases htemp : reply.createTempErr with
        | some err =>
          exact hmarked _ id (fun h => by cases h) (fun h => by cases h) (fun h => by cases h)
            ((Plain.text err).wrap _)
        | none =>
          have hwrite := writeTemp_answers sha256 reply resp rawURL
          rw [if_neg (by simp)]
          dsimp only
          generalize writeTemp sha256 reply resp rawURL = r at hwrite ⊢
          generalize (if reply.writeErr.isSome = true then Outcome.transient 0 else _) = o
            at hwrite ⊢
          cases hwrite with
          | success p => exact .success _
          | failed hne hmeans => exact .failed hne hmeans

/-- **The result of `fetchChecksumFromURL` says what met it.** -/
theorem fetchChecksumFromURL_answers (reply : SumsReply) (rawURL key : Text) :
    Answers (reply.outcome key) (fetchChecksumFromURL reply rawURL key) := by
  have hspec := getOK_spec (text "create checksum request: ") rawURL reply.requestErr reply.exchange
  rw [SumsReply.outcome, fetchChecksumFromURL]
  cases hanswered : answered reply.requestErr reply.exchange with
  | error o =>
    rw [hanswered] at hspec
    obtain ⟨hne, err, herr, hmeans⟩ := hspec
    rw [herr]
    exact .failed hne hmeans
  | ok resp =>
    rw [hanswered] at hspec
    rw [show getOK _ _ _ _ = .ok resp from hspec]
    have hmarked (o : Outcome) (ho : ¬ o.Transient) (hdowngrade : o ≠ .downgrade)
        (hentry : o ≠ .noEntry) (hsuccess : o ≠ .success) (message : Text) :
        Answers (α := Text) o (.error (markPermanentBootstrapError (.text message))) :=
      .failed hsuccess ((Plain.text message).marked ho hdowngrade hentry)
    dsimp only
    by_cases hlong : resp.contentLength > maxChecksumsMetadataBytes
    · rw [if_pos hlong, if_pos hlong]
      exact hmarked _ id (fun h => by cases h) (fun h => by cases h) (fun h => by cases h) _
    · rw [if_neg hlong, if_neg hlong, Body.readLimited]
      by_cases hmore : len resp.body.content > maxChecksumsMetadataBytes
      · rw [if_pos hmore]
        exact hmarked _ id (fun h => by cases h) (fun h => by cases h) (fun h => by cases h) _
      · rw [if_neg hmore]
        cases resp.body.failure with
        | some err =>
          exact .failed (fun h => by cases h)
            (err.plain.retried err.not_permanent err.no_hint _)
        | none =>
          dsimp only
          cases parseChecksumFromSHA256SUMS resp.body.content key with
          | digest digest => exact .success digest
          | absent =>
            exact .failed (fun h => by cases h) ⟨rfl, (fun _ h => by cases h), rfl, rfl, rfl, rfl⟩
          | invalid =>
            exact hmarked _ id (fun h => by cases h) (fun h => by cases h)
              (fun h => by cases h) _

end PureSimdjson.Bootstrap
