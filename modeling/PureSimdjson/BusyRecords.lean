import PureSimdjson.SampleDocument
import PureSimdjson.WrapperAgreement

/-!
# Three records of one fact

That a parser is busy is recorded in the parser, in a document and in the registry.  While
nobody is in a call the three say the same, and every handle is freed once.  What `Doc.Close`
says when it returns is true if no other `Doc.Close` of the document has yet to clear the mark.
-/
namespace PureSimdjson.Wrappers

open Runs Threads

variable {T ν : Type}

/-! ## What the calls return -/

/-- Fails on its own account. -/
def NativeCall.MayFail : NativeCall → Prop
  | .parserNew _ | .parserParse _ _ => True
  | _ => False

def Action.issuesParser (handle : UInt64) : Action → Bool
  | .native (.parserNew _) (.ok parser) => parser = handle
  | _ => false

def Action.freesParser (handle : UInt64) : Action → Bool
  | .native (.parserFree parser) (.ok _) => parser = handle
  | _ => false

def Action.issuesDoc (handle : UInt64) : Action → Bool
  | .native (.parserParse _ _) (.ok doc) => doc = handle
  | _ => false

def Action.freesDoc (handle : UInt64) : Action → Bool
  | .native (.docFree doc) (.ok _) => doc = handle
  | _ => false

/-- How often an action of a kind has been taken. -/
def times (P : Action → Bool) (ls : List (T × Action)) : Nat := ls.countP fun l => P l.2

@[simp] theorem times_snoc (P : Action → Bool) (ls : List (T × Action)) (l : T × Action) :
    times P (ls ++ [l]) = times P ls + if P l.2 then 1 else 0 := by
  rw [times, List.countP_append, List.countP_singleton]
  rfl

/-- There is a live document with the handle. -/
def Handles.DocLive (handles : Handles) (doc : UInt64) : Prop :=
  ∃ parser, handles parser = some (some doc)

/-- **The handles are what has been issued and not been freed.** -/
structure Accounts (ls : List (T × Action)) (handles : Handles) : Prop where
  zero : handles 0 = none
  separate : handles.Separate
  parser : ∀ handle, times (Action.issuesParser handle) ls =
    times (Action.freesParser handle) ls + if (handles handle).isSome then 1 else 0
  docLive : ∀ doc, handles.DocLive doc →
    times (Action.issuesDoc doc) ls = times (Action.freesDoc doc) ls + 1
  docDead : ∀ doc, ¬ handles.DocLive doc →
    times (Action.issuesDoc doc) ls = times (Action.freesDoc doc) ls

section
variable {ls : List (T × Action)} {handles handles' : Handles} {t : T} {a : Action}

/-- An action that is no native call, or is one that changes nothing. -/
theorem Accounts.keep (h : Accounts ls handles) (hip : ∀ handle, a.issuesParser handle = false)
    (hfp : ∀ handle, a.freesParser handle = false) (hid : ∀ doc, a.issuesDoc doc = false)
    (hfd : ∀ doc, a.freesDoc doc = false) : Accounts (ls ++ [(t, a)]) handles where
  zero := h.zero
  separate := h.separate
  parser handle := by simpa [hip, hfp] using h.parser handle
  docLive doc hlive := by simpa [hid, hfd] using h.docLive doc hlive
  docDead doc hdead := by simpa [hid, hfd] using h.docDead doc hdead

theorem Handles.docLive_update {parser doc : UInt64} {status : Option (Option UInt64)} :
    Handles.DocLive (Function.update handles parser status) doc ↔ status = some (some doc) ∨
      ∃ parser', parser' ≠ parser ∧ handles parser' = some (some doc) := by
  constructor
  · rintro ⟨parser', hbusy⟩
    by_cases heq : parser' = parser
    · subst heq
      rw [Function.update_self] at hbusy
      exact Or.inl hbusy
    · rw [Function.update_of_ne heq] at hbusy
      exact Or.inr ⟨parser', heq, hbusy⟩
  · rintro (hself | ⟨parser', hne, hbusy⟩)
    · exact ⟨parser, by rw [Function.update_self]; exact hself⟩
    · exact ⟨parser', by rw [Function.update_of_ne hne]; exact hbusy⟩

/-- A parser that is not busy has no part in which documents are live. -/
theorem Handles.docLive_of_idle {parser doc : UInt64}
    (h : ∀ doc, handles parser ≠ some (some doc)) :
    (∃ parser', parser' ≠ parser ∧ handles parser' = some (some doc)) ↔ handles.DocLive doc := by
  constructor
  · rintro ⟨parser', _, hbusy⟩
    exact ⟨parser', hbusy⟩
  · rintro ⟨parser', hbusy⟩
    refine ⟨parser', ?_, hbusy⟩
    rintro rfl
    exact h doc hbusy

theorem Accounts.ne_zero (h : Accounts ls handles) {parser : UInt64} {status : Option UInt64}
    (hfound : handles parser = some status) : 0 ≠ parser := by
  rintro rfl
  cases h.zero.symm.trans hfound

/-- One handle changes its status, and with it at most one document is made or freed. -/
theorem Accounts.update (h : Accounts ls handles) {parser : UInt64}
    {status : Option (Option UInt64)} (hzero : 0 ≠ parser)
    (hseparate : Handles.Separate (Function.update handles parser status))
    (hself : (if a.issuesParser parser then 1 else 0) + (if (handles parser).isSome then 1 else 0) =
      (if a.freesParser parser then 1 else 0) + if status.isSome then 1 else 0)
    (hother : ∀ handle, handle ≠ parser → a.issuesParser handle = a.freesParser handle)
    (hdocs : ∀ doc, a.issuesDoc doc = a.freesDoc doc ∧
        (Handles.DocLive (Function.update handles parser status) doc ↔ handles.DocLive doc) ∨
      a.issuesDoc doc = true ∧ a.freesDoc doc = false ∧ ¬ handles.DocLive doc ∧
        Handles.DocLive (Function.update handles parser status) doc ∨
      a.issuesDoc doc = false ∧ a.freesDoc doc = true ∧ handles.DocLive doc ∧
        ¬ Handles.DocLive (Function.update handles parser status) doc) :
    Accounts (ls ++ [(t, a)]) (Function.update handles parser status) where
  zero := (Function.update_of_ne hzero _ _).trans h.zero
  separate := hseparate
  parser handle := by
    have hbefore := h.parser handle
    simp only [times_snoc]
    by_cases heq : handle = parser
    · subst heq
      rw [Function.update_self]
      omega
    · rw [Function.update_of_ne heq, hother handle heq]
      omega
  docLive doc hlive := by
    simp only [times_snoc]
    rcases hdocs doc with ⟨hsame, hiff⟩ | ⟨hissues, hfrees, hbefore, _⟩ | ⟨_, _, _, hafter⟩
    · have hbefore := h.docLive doc (hiff.mp hlive)
      rw [hsame]
      omega
    · have hcount := h.docDead doc hbefore
      simp [hissues, hfrees, hcount]
    · exact absurd hlive hafter
  docDead doc hdead := by
    simp only [times_snoc]
    rcases hdocs doc with ⟨hsame, hiff⟩ | ⟨_, _, _, hafter⟩ | ⟨hissues, hfrees, hbefore, _⟩
    · have hcount := h.docDead doc fun hlive => hdead (hiff.mpr hlive)
      rw [hsame, hcount]
    · exact absurd hafter hdead
    · have hcount := h.docLive doc hbefore
      simp [hissues, hfrees, hcount]

theorem Accounts.native (h : Accounts ls handles) {call : NativeCall} {reply : Reply}
    (hstep : HandleStep handles call reply handles') :
    Accounts (ls ++ [(t, .native call reply)]) handles' := by
  have hseparate := hstep.separate h.separate
  -- the documents, where none is parsed or freed
  have hdocs {parser doc : UInt64} {status : Option (Option UInt64)}
      (hbefore : ∀ doc, handles parser ≠ some (some doc))
      (hafter : ∀ doc, status ≠ some (some doc)) :
      Handles.DocLive (Function.update handles parser status) doc ↔ handles.DocLive doc := by
    rw [Handles.docLive_update, or_iff_right (hafter doc), Handles.docLive_of_idle hbefore]
  cases hstep with
  | @parserNew config parser hne hnew =>
    have hidle (doc : UInt64) : handles parser ≠ some (some doc) := by
      rw [hnew]
      exact fun heq => by cases heq
    refine h.update hne.symm hseparate ?_ (fun handle hne => ?_)
      fun doc => .inl ⟨rfl, hdocs hidle fun doc heq => by cases heq⟩
    · simp [Action.issuesParser, Action.freesParser, hnew]
    · simp [Action.issuesParser, Action.freesParser, Ne.symm hne]
  | @parserFree parser reply hfound =>
    have hidle (doc : UInt64) : handles parser ≠ some (some doc) := by
      rw [hfound]
      exact fun heq => by cases heq
    refine h.update (h.ne_zero hfound) hseparate ?_ (fun handle hne => ?_)
      fun doc => .inl ⟨rfl, hdocs hidle fun doc heq => by cases heq⟩
    · simp [Action.issuesParser, Action.freesParser, hfound]
    · simp [Action.issuesParser, Action.freesParser, Ne.symm hne]
  | @parserParse parser parsed data hfound hne hnew =>
    have hidle (doc : UInt64) : handles parser ≠ some (some doc) := by
      rw [hfound]
      exact fun heq => by cases heq
    refine h.update (h.ne_zero hfound) hseparate ?_ (fun handle hne => rfl) fun doc => ?_
    · simp [Action.issuesParser, Action.freesParser, hfound]
    · rw [Handles.docLive_update, Handles.docLive_of_idle hidle]
      by_cases heq : parsed = doc
      · subst heq
        have hdead : ¬ handles.DocLive parsed := fun ⟨parser', hbusy⟩ => hnew parser' hbusy
        exact .inr (.inl ⟨by simp [Action.issuesDoc], rfl, hdead, .inl rfl⟩)
      · refine .inl ⟨by simp [Action.issuesDoc, Action.freesDoc, heq], or_iff_right ?_⟩
        rintro hsame
        cases hsame
        exact heq rfl
  | docRoot _ => exact h.keep (fun _ => rfl) (fun _ => rfl) (fun _ => rfl) fun _ => rfl
  | @docFree parser freed reply hbusy =>
    refine h.update (h.ne_zero hbusy) hseparate ?_ (fun handle hne => rfl) fun doc => ?_
    · simp [Action.issuesParser, Action.freesParser, hbusy]
    -- the document is gone, and the others are as they were
    have hidle : (some none : Option (Option UInt64)) ≠ some (some doc) := fun heq => by cases heq
    rw [Handles.docLive_update, or_iff_right hidle]
    by_cases heq : freed = doc
    · subst heq
      refine .inr (.inr ⟨rfl, by simp [Action.freesDoc], ⟨parser, hbusy⟩, ?_⟩)
      rintro ⟨parser', hne, hbusy'⟩
      exact hne (h.separate _ _ _ hbusy' hbusy)
    · refine .inl ⟨by simp [Action.issuesDoc, Action.freesDoc, heq],
        fun ⟨parser', _, hbusy'⟩ => ⟨parser', hbusy'⟩, ?_⟩
      rintro ⟨parser', hbusy'⟩
      refine ⟨parser', ?_, hbusy'⟩
      rintro rfl
      cases hbusy.symm.trans hbusy'
      exact heq rfl
  | failed _ =>
    cases call <;> exact h.keep (fun _ => rfl) (fun _ => rfl) (fun _ => rfl) fun _ => rfl

end

/-! ## What one step does -/

section
variable {native : HandleSide ν} {s s' : State T ν} {own : T → Place} {t : T} {x x' : Place}
  {a : Action} {p d : Nat}

theorem Accounts.step {ls : List (T × Action)} (h : Accounts ls (native.handles s.native))
    (hstep : Step native.toNativeSide t s x a s' x') :
    Accounts (ls ++ [(t, a)]) (native.handles s'.native) := by
  rcases hstep.keeps_native with ⟨call, reply, rfl, _, hanswer, _⟩ | ⟨hother, hsame⟩
  · exact h.native (native.step hanswer)
  · rw [hsame]
    cases a with
    | native call reply => exact absurd rfl (hother call reply)
    | _ => exact h.keep (fun _ => rfl) (fun _ => rfl) (fun _ => rfl) fun _ => rfl

/-- No call fails that is on a handle that must be valid. -/
theorem Agreement.no_failure (hc : Agreement native.handles ⟨s, own⟩) (hown : own t = x)
    {call : NativeCall} {rc : ErrorCode}
    (h : Step native.toNativeSide t s x (.native call (.error rc)) s' x') : call.MayFail := by
  rcases h.keeps_native with ⟨call', reply, heq, hcall, hanswer, rfl⟩ | ⟨hother, _⟩
  · cases heq
    cases habout : x.about with
    | none =>
      obtain ⟨config, pool, rfl⟩ := Place.new_of_call hcall habout
      cases hcall
      trivial
    | some p =>
      obtain ⟨parser, hp⟩ := ((hc.relies hown).grip habout).found hc.holds.shared.1
      obtain ⟨hat, hafter, _⟩ :=
        (hc.found_at hown habout hp).resume habout hc.separate hcall (native.step hanswer)
      cases x with
      | parse p₁ handle data =>
        cases hcall
        trivial
      | root p₁ doc => exact absurd hat.fits id
      | rollback p₁ doc rc => exact absurd (hc.found_at hown habout hp).fits id
      | free p₁ handle => exact absurd hat.fits id
      | docFree d handle p₁ => cases hafter
      | finDocFree d handle p₁ => cases hat.fits
      | finParserDoc p₁ handle liveDoc => cases hat.fits.2.2
      | finParserFree p₁ handle done => cases hat.fits.2.2
      | new config pool => cases habout
      | _ => cases hcall
  · exact absurd rfl (hother call _)

/-- A parser in its finalizer has no document. -/
theorem At.idle {handles : Handles} {parser : Parser T} (h : At handles parser x)
    (hx : x.finalizes) : parser.liveDoc = 0 := by
  cases x with
  | finParser p₁ => exact h.fits
  | finParserDoc p₁ handle liveDoc => exact h.fits.2.1
  | finParserFree p₁ handle done => exact h.fits.2.1
  | finParserCommit p₁ done done' => exact h.fits.1
  | _ => exact absurd hx id

/-- A marked parser has a document that is not closed, or whose closer has yet to clear the
mark. -/
theorem Agreement.marked (hc : Agreement native.handles ⟨s, own⟩) {parser : Parser T}
    (hp : s.parsers p = some parser) (hlive : parser.liveDoc ≠ 0) :
    ∃ d doc, s.Marks d doc ∧ doc.parser = p := by
  by_cases hquiet : ∀ t, (own t).about ≠ some p
  · obtain ⟨d, doc, hopen⟩ := (hc.quiet p parser hp hquiet).doc hlive
    exact ⟨d, doc, ⟨hopen.found, hc.alive hopen.found hopen.closed, Or.inl hopen.closed⟩,
      hopen.parser⟩
  · obtain ⟨t, ht⟩ := not_forall.mp hquiet
    have habout := not_not.mp ht
    cases (hc.relies rfl).grip habout with
    | lock hlocked =>
      cases hp.symm.trans hlocked.found
      exact absurd hlocked.liveDoc hlive
    | doc hparser hmarks _ => exact ⟨_, _, hmarks, hparser⟩
    | finalizer _ hx => exact absurd ((hc.found_at rfl habout hp).idle hx) hlive

/-- A handle that is busy is a parser's that is being freed, one that a parse is under way with,
or the parser's of an open document. -/
theorem Agreement.busy (hc : Agreement native.handles ⟨s, own⟩)
    (hzero : native.handles s.native 0 = none) {parser : Parser T} {handle : UInt64}
    (hp : s.parsers p = some parser)
    (hbusy : native.handles s.native parser.handle = some (some handle)) :
    (∃ t, (own t).about = some p ∧ (own t).expects = none) ∨
      (∃ t, own t = .root p handle ∨ own t = .publish p handle) ∨
      ∃ d doc, OpenDoc s p d handle doc := by
  by_cases hquiet : ∀ t, (own t).about ≠ some p
  · have hagree := hc.quiet p parser hp hquiet
    have hne : parser.handle ≠ 0 := by
      intro heq
      rw [heq, hzero] at hbusy
      cases hbusy
    have hstatus := (hagree.status hne).symm.trans hbusy
    unfold statusOf at hstatus
    split at hstatus
    · cases hstatus
    next hlive =>
      cases hstatus
      exact Or.inr (Or.inr (hagree.doc hlive))
  · obtain ⟨t, ht⟩ := not_forall.mp hquiet
    have habout := not_not.mp ht
    have hat := hc.found_at rfl habout hp
    have hrelies := hc.relies (x := own t) rfl
    cases hexpects : (own t).expects with
    | none => exact Or.inl ⟨t, habout, hexpects⟩
    | some status =>
      obtain rfl := Option.some.inj ((hat.status status hexpects).2.symm.trans hbusy)
      refine Or.inr ?_
      generalize hown : own t = x at habout hat hrelies hexpects
      cases x with
      | root p₁ doc =>
        cases habout
        cases hexpects
        exact Or.inl ⟨t, Or.inl hown⟩
      | rollback p₁ doc rc => exact absurd hat.fits id
      | publish p₁ doc =>
        cases habout
        cases hexpects
        exact Or.inl ⟨t, Or.inr hown⟩
      | docFree d handle p₁ =>
        cases habout
        cases hexpects
        obtain ⟨doc, hclosing⟩ := hrelies
        exact Or.inr ⟨d, doc, hclosing.found, hclosing.closed, hclosing.parser, hclosing.handle⟩
      | finDocFree d handle p₁ =>
        cases habout
        cases hexpects
        obtain ⟨doc, hfin, hopen, hhandle, hparser⟩ := hrelies
        exact Or.inr ⟨d, doc, hfin.found, hopen, hparser, hhandle⟩
      | _ => cases hexpects

/-- A document that is closed and whose mark has been cleared. -/
def State.Done (s : State T ν) (d : Nat) : Prop :=
  ∃ doc, s.docs d = some doc ∧ doc.closed = true ∧ doc.clearing = none

theorem Step.done (h : Step native.toNativeSide t s x a s' x') (hrelies : Relies t s x)
    (hdone : s.Done d) : s'.Done d := by
  obtain ⟨doc, hd, hclosed, hclearing⟩ := hdone
  have hset {d₁ : Nat} {doc₁ doc₂ : Doc T} (hdocs : s'.docs = (s.setDoc d₁ doc₂).docs)
      (h₁ : s.docs d₁ = some doc₁) (hkeeps : doc₁.closed = true → doc₂.closed = true ∧
        (doc₁.clearing = none → doc₂.clearing = none)) : s'.Done d := by
    by_cases hdd : d = d₁
    · subst hdd
      cases hd.symm.trans h₁
      obtain ⟨hclosed', hclearing'⟩ := hkeeps hclosed
      exact ⟨doc₂, hdocs ▸ State.setDoc_docs_self, hclosed', hclearing' hclearing⟩
    · exact ⟨doc, hdocs ▸ (State.setDoc_docs_of_ne hdd).trans hd, hclosed, hclearing⟩
  cases h with
  | @publish p₁ d₁ _ _ h₁ hnone =>
    have hdd : d ≠ d₁ := by
      rintro rfl
      cases hd.symm.trans hnone
    exact ⟨doc, (State.setDoc_docs_of_ne (s := s) hdd).trans hd, hclosed, hclearing⟩
  | docClose _ h₁ _ _ => exact hset rfl h₁ fun hc => ⟨hc, id⟩
  | docFreed h₁ =>
    refine hset rfl h₁ fun hc => ?_
    obtain ⟨doc₁, hclosing⟩ := hrelies
    cases h₁.symm.trans hclosing.found
    cases hc.symm.trans hclosing.closed
  | docFreeFailed h₁ => exact hset rfl h₁ fun hc => ⟨hc, id⟩
  | clear h₁ _ _ => exact hset rfl h₁ fun hc => ⟨hc, fun _ => rfl⟩
  | finDocIdle _ h₁ _ _ _ => exact hset rfl h₁ fun hc => ⟨hc, id⟩
  | finDoc _ h₁ _ _ _ => exact hset rfl h₁ fun hc => ⟨hc, id⟩
  | finDocClosed h₁ _ _ => exact hset rfl h₁ fun hc => ⟨hc, id⟩
  | finDocKept h₁ _ => exact hset rfl h₁ fun hc => ⟨hc, id⟩
  | finDocFreed h₁ _ =>
    refine hset rfl h₁ fun hc => ?_
    obtain ⟨doc₁, hfin, hopen, _⟩ := hrelies
    cases h₁.symm.trans hfin.found
    cases hc.symm.trans hopen
  | finClear h₁ _ _ => exact hset rfl h₁ fun hc => ⟨hc, fun _ => rfl⟩
  | _ => exact ⟨doc, hd, hclosed, hclearing⟩

/-- A `Doc.Close` that returns `nil` is done, unless it finds the document closed by someone who
has yet to clear the mark. -/
theorem Agreement.closed (hc : Agreement native.handles ⟨s, own⟩) (hown : own t = x)
    (h : Step native.toNativeSide t s x (.docClosed d) s' x')
    (hprompt : x = .idle → ∀ t', (own t').clears ≠ some d) : s'.Done d := by
  have hrelies := hc.relies hown
  generalize ha : Action.docClosed d = a at h
  cases h with
  | stop hstop =>
    subst ha
    cases hstop with
    | docClose _ hd _ hclosed =>
      refine ⟨_, hd, hclosed, Option.eq_none_iff_forall_ne_some.mpr fun t' ht' => ?_⟩
      exact hprompt rfl t' (hc.clearing d _ t' hd ht')
  | clear hd _ _ =>
    cases ha
    obtain ⟨doc, hclearing, _⟩ := hrelies
    cases hd.symm.trans hclearing.found
    exact ⟨_, State.setDoc_docs_self (s := s), hclearing.closed, rfl⟩
  | _ => cases ha

end

/-! ## Every run -/

/-- Nobody is in a call on a parser or one of its documents. -/
def Resting (c : Config T (State T ν) Place) : Prop := ∀ t, (c.own t).about = none

/-- **What the parsers, the documents and the handles say is the same.** -/
structure Agrees (handles : Handles) (s : State T ν) : Prop where
  native : ∀ p parser handle, s.parsers p = some parser → handle ≠ 0 →
    (parser.liveDoc = handle ↔ handles parser.handle = some (some handle))
  docs : ∀ p parser handle, s.parsers p = some parser → handle ≠ 0 →
    (parser.liveDoc = handle ↔ ∃ d doc, OpenDoc s p d handle doc ∧
      ∀ d' doc', s.docs d' = some doc' → doc'.closed = false → doc'.handle = handle → d' = d)

/-- Every handle that is issued is freed at most once, and nobody tries to free it again. -/
structure FreedOnce (ls : List (T × Action)) : Prop where
  parser : ∀ handle, times (Action.freesParser handle) ls ≤ times (Action.issuesParser handle) ls ∧
    times (Action.issuesParser handle) ls ≤ times (Action.freesParser handle) ls + 1
  doc : ∀ doc, times (Action.freesDoc doc) ls ≤ times (Action.issuesDoc doc) ls ∧
    times (Action.issuesDoc doc) ls ≤ times (Action.freesDoc doc) ls + 1
  succeeds : ∀ t call rc, (t, .native call (.error rc)) ∈ ls → call.MayFail

/-- An open document has its mark on its parser. -/
def State.MarksKept (s : State T ν) : Prop :=
  ∀ d doc parser, s.docs d = some doc → doc.closed = false →
    s.parsers doc.parser = some parser → parser.liveDoc = doc.handle

/-- A document is closed, and if its parser is busy, it is so for another: in the parser for one
that is open or whose mark is about to be cleared, in the registry for one that is open or is
being parsed, or the handle is the parser's no more. -/
structure Released (handles : Handles) (c : Config T (State T ν) Place) (d : Nat) (doc : Doc T) :
    Prop where
  found : c.shared.docs d = some doc
  closed : doc.closed = true
  wrapper : ∀ parser, c.shared.parsers doc.parser = some parser → parser.liveDoc ≠ 0 →
    ∃ d' doc', d' ≠ d ∧ c.shared.docs d' = some doc' ∧ doc'.parser = doc.parser ∧
      (doc'.closed = false ∨ ∃ t, (c.own t).clears = some d')
  native : ∀ parser handle, c.shared.parsers doc.parser = some parser →
    handles parser.handle = some (some handle) →
    (∃ t, (c.own t).about = some doc.parser ∧ (c.own t).expects = none) ∨
      (∃ t, c.own t = .root doc.parser handle ∨ c.own t = .publish doc.parser handle) ∨
      ∃ d' doc', d' ≠ d ∧ OpenDoc c.shared doc.parser d' handle doc'

/-- A `Doc.Close` that returns at once finds nobody about to clear the document's mark. -/
def Prompt (c : Config T (State T ν) Place) (l : T × Action) : Prop :=
  ∀ d, l.2 = .docClosed d → c.own l.1 = .idle → ∀ t, (c.own t).clears ≠ some d

section
variable {native : HandleSide ν} {c : Config T (State T ν) Place} {d : Nat}

theorem Agreement.agrees (hc : Agreement native.handles c)
    (hzero : native.handles c.shared.native 0 = none) (hrest : Resting c) :
    Agrees (native.handles c.shared.native) c.shared := by
  have hnobody (p : Nat) (t : T) : (c.own t).about ≠ some p := by
    rw [hrest t]
    exact fun heq => by cases heq
  have hquiet {p : Nat} {parser : Parser T} (hp : c.shared.parsers p = some parser) :=
    hc.quiet p parser hp (hnobody p)
  have hne {p : Nat} {parser : Parser T} (hp : c.shared.parsers p = some parser)
      (hlive : parser.liveDoc ≠ 0) : parser.handle ≠ 0 :=
    fun heq => hlive ((hquiet hp).zero heq)
  have hstatus {p : Nat} {parser : Parser T} (hp : c.shared.parsers p = some parser)
      (hlive : parser.liveDoc ≠ 0) :
      native.handles c.shared.native parser.handle = some (some parser.liveDoc) := by
    rw [(hquiet hp).status (hne hp hlive), statusOf, if_neg hlive]
  have hmark {p d : Nat} {parser : Parser T} {doc : Doc T} {handle : UInt64}
      (hp : c.shared.parsers p = some parser) (hopen : OpenDoc c.shared p d handle doc) :
      c.shared.Marks d doc ∧ parser.liveDoc = handle := by
    obtain rfl := hopen.parser
    have hmarks : c.shared.Marks d doc :=
      ⟨hopen.found, hc.alive hopen.found hopen.closed, Or.inl hopen.closed⟩
    exact ⟨hmarks, ((hc.holds.shared.2.marked hmarks hp).2 hopen.closed).trans hopen.handle⟩
  refine ⟨fun p parser handle hp hhandle => ?_, fun p parser handle hp hhandle => ?_⟩
  · constructor
    · rintro rfl
      exact hstatus hp hhandle
    · intro hbusy
      rcases hc.busy hzero hp hbusy with ⟨t, habout, _⟩ | ⟨t, hroot | hpublish⟩ | ⟨d, doc, hopen⟩
      · exact absurd habout (hnobody p t)
      · exact absurd (congrArg Place.about hroot) (hnobody p t)
      · exact absurd (congrArg Place.about hpublish) (hnobody p t)
      · exact (hmark hp hopen).2
  · constructor
    · rintro rfl
      obtain ⟨d, doc, hopen⟩ := (hquiet hp).doc hhandle
      refine ⟨d, doc, hopen, fun d' doc' hd' hclosed' hhandle' => ?_⟩
      -- another document with the handle is of the same parser, which has one
      obtain ⟨parser', hp'⟩ := hc.holds.shared.1.parser d' doc' hd'
      obtain ⟨hmarks', hlive'⟩ := hmark hp' ⟨hd', hclosed', rfl, hhandle'⟩
      have hbusy' := hstatus hp' (hlive' ▸ hhandle)
      rw [hlive'] at hbusy'
      have hsame := hc.separate _ _ _ hbusy' (hstatus hp hhandle)
      have hholder {p : Nat} {parser₁ : Parser T} (hp₁ : c.shared.parsers p = some parser₁)
          (heq : parser₁.handle = parser.handle) : Holder c parser.handle (.inl p) :=
        .parser hp₁ heq (hne hp hhandle) fun t ht => absurd ht (hnobody p t)
      cases hc.distinct _ _ _ (hholder hp' hsame) (hholder hp rfl)
      exact hc.holds.shared.2.unique hmarks' (hmark hp hopen).1 hopen.parser.symm
    · rintro ⟨d, doc, hopen, _⟩
      exact (hmark hp hopen).2

theorem Agreement.marksKept (hc : Agreement native.handles c) : c.shared.MarksKept :=
  fun _ _ _ hd hopen hp =>
    (hc.holds.shared.2.marked ⟨hd, hc.alive hd hopen, Or.inl hopen⟩ hp).2 hopen

theorem Agreement.released (hc : Agreement native.handles c)
    (hzero : native.handles c.shared.native 0 = none) (hdone : c.shared.Done d) :
    ∃ doc, Released (native.handles c.shared.native) c d doc := by
  obtain ⟨doc, hd, hclosed, hclearing⟩ := hdone
  -- a document that is open or owes its mark is another
  have hother {d' : Nat} {doc' : Doc T} (hd' : c.shared.docs d' = some doc') (howing : doc'.Owing) :
      d' ≠ d := by
    rintro rfl
    cases hd.symm.trans hd'
    rcases howing with hopen | howed
    · cases hclosed.symm.trans hopen
    · exact howed hclearing
  refine ⟨doc, hd, hclosed, fun parser hp hlive => ?_, fun parser handle hp hbusy => ?_⟩
  · obtain ⟨d', doc', hmarks, hparser⟩ := hc.marked hp hlive
    refine ⟨d', doc', hother hmarks.1 hmarks.2.2, hmarks.1, hparser, ?_⟩
    rcases hmarks.2.2 with hopen | howed
    · exact Or.inl hopen
    · obtain ⟨t, ht⟩ := Option.ne_none_iff_exists'.mp howed
      exact Or.inr ⟨t, hc.clearing d' doc' t hmarks.1 ht⟩
  · rcases hc.busy hzero hp hbusy with hfreed | hparse | ⟨d', doc', hopen⟩
    · exact Or.inl hfreed
    · exact Or.inr (Or.inl hparse)
    · exact Or.inr (Or.inr ⟨d', doc', hother hopen.found (Or.inl hopen.closed), hopen⟩)

variable [DecidableEq T]

/-- What is true of a run so far. -/
structure AfterCalls (native : HandleSide ν) (ls : List (T × Action))
    (c : Config T (State T ν) Place) : Prop where
  agreement : Agreement native.handles c
  accounts : Accounts ls (native.handles c.shared.native)
  succeeds : ∀ t call rc, (t, .native call (.error rc)) ∈ ls → call.MayFail

theorem afterCalls_move {c' : Config T (State T ν) Place} {ls : List (T × Action)} {l : T × Action}
    (hc : AfterCalls native ls c) (hmove : Threads.Moves (Step native.toNativeSide) c l c') :
    AfterCalls native (ls ++ [l]) c' := by
  cases hmove with
  | @move s s' own t x' a taken =>
    refine ⟨hc.agreement.step taken, hc.accounts.step taken, fun t' call rc hmem => ?_⟩
    rcases List.mem_append.mp hmem with hbefore | hlast
    · exact hc.succeeds t' call rc hbefore
    · cases List.mem_singleton.mp hlast
      exact hc.agreement.no_failure rfl taken

omit [DecidableEq T] in
/-- Before anything has been called: no handle is live. -/
theorem afterCalls_start {w : ν} (hw : native.handles w = fun _ => none) :
    AfterCalls native [] (⟨.start w, fun _ => .idle⟩ : Config T _ _) := by
  have hseparate : (native.handles w).Separate := by
    intro parser parser' doc hbusy
    rw [hw] at hbusy
    cases hbusy
  have hdead (doc : UInt64) : ¬ (native.handles w).DocLive doc := by
    rintro ⟨parser, hbusy⟩
    rw [hw] at hbusy
    cases hbusy
  refine ⟨.start hseparate, ⟨congrFun hw 0, hseparate, fun handle => ?_,
    fun doc hlive => absurd hlive (hdead doc), fun doc _ => rfl⟩, fun t call rc hmem => ?_⟩
  · have hnone : (native.handles w handle).isSome = false := by
      rw [hw]
      rfl
    simp [times, State.start, hnone]
  · cases hmem

theorem afterCalls_run {w : ν} (hw : native.handles w = fun _ => none) {ls : List (T × Action)}
    (h : Run (Threads.Moves (Step native.toNativeSide)) ⟨.start w, fun _ => .idle⟩ ls c) :
    AfterCalls native ls c :=
  h.history (fun _ _ _ _ hc hmove => afterCalls_move hc hmove) (afterCalls_start hw)

omit [DecidableEq T] in
theorem AfterCalls.freedOnce {ls : List (T × Action)} (h : AfterCalls native ls c) :
    FreedOnce ls := by
  refine ⟨fun handle => ?_, fun doc => ?_, h.succeeds⟩
  · rw [h.accounts.parser handle]
    split <;> omega
  · by_cases hlive : (native.handles c.shared.native).DocLive doc
    · rw [h.accounts.docLive doc hlive]
      omega
    · rw [h.accounts.docDead doc hlive]
      omega

/-- What is true of a run of prompt steps so far: whatever `Doc.Close` has returned `nil` for is
done. -/
structure AfterPrompt (native : HandleSide ν) (ls : List (T × Action))
    (c : Config T (State T ν) Place) : Prop where
  agreement : Agreement native.handles c
  done : ∀ t d, (t, .docClosed d) ∈ ls → c.shared.Done d

theorem afterPrompt_move {c' : Config T (State T ν) Place} {ls : List (T × Action)}
    {l : T × Action} (hc : AfterPrompt native ls c)
    (hmove : Threads.Moves (Step native.toNativeSide) c l c') (hprompt : Prompt c l) :
    AfterPrompt native (ls ++ [l]) c' := by
  cases hmove with
  | @move s s' own t x' a taken =>
    refine ⟨hc.agreement.step taken, fun t' d hmem => ?_⟩
    rcases List.mem_append.mp hmem with hbefore | hlast
    · exact taken.done (hc.agreement.relies rfl) (hc.done t' d hbefore)
    · cases List.mem_singleton.mp hlast
      exact hc.agreement.closed rfl taken (hprompt d rfl)

theorem afterPrompt_run {w : ν} (hw : native.handles w = fun _ => none) {ls : List (T × Action)}
    (h : Run (fun c l c' => Threads.Moves (Step native.toNativeSide) c l c' ∧ Prompt c l)
      ⟨.start w, fun _ => .idle⟩ ls c) : AfterPrompt native ls c := by
  refine h.history (fun _ _ _ _ hc hmove => afterPrompt_move hc hmove.1 hmove.2)
    (⟨(afterCalls_start hw).agreement, ?_⟩ : AfterPrompt native [] _)
  intro t d hmem
  cases hmem

end

/-! ## On the registry -/

theorem parserStatus_empty : Registry.empty.parserStatus = fun _ => none := by
  refine parserStatus_ext fun slot generation => ?_
  have hnone : Registry.empty.parserOf slot generation = none := by
    refine Option.eq_none_iff_forall_ne_some.mpr fun entry hentry => ?_
    obtain ⟨_, hfound, _⟩ := named_eq_some.mp hentry
    cases hfound
  rw [hnone]
  rfl

section
variable {W : Type} (up : Native W)

/-- A process before its first call. -/
def registryStart (w : W) : Config T (State T {s : Runtime W // Reachable up s}) Place :=
  ⟨.start ⟨⟨Registry.empty, w⟩, w, [], .nil _⟩, fun _ => .idle⟩

/-- **The wrappers agree with the registry.**  When nobody is in a call, a parser's mark is what
the registry has it busy with, and the handle of exactly one open document; every handle is freed
at most once, and no call on one fails that must be valid; and an open document never loses its
mark to another.  If every `Doc.Close` that finds its document closed finds the mark cleared as
well, then what `Doc.Close` has returned `nil` for keeps its parser busy in neither layer. -/
theorem wrappers_agree [DecidableEq T] {w : W} {ls : List (T × Action)}
    {c : Config T (State T {s : Runtime W // Reachable up s}) Place}
    (h : Run (Threads.Moves (Step (registrySide up).toNativeSide)) (registryStart up w) ls c) :
    (Resting c → Agrees ((registrySide up).handles c.shared.native) c.shared) ∧
    FreedOnce ls ∧ c.shared.MarksKept ∧
    (Run (fun c l c' => Threads.Moves (Step (registrySide up).toNativeSide) c l c' ∧ Prompt c l)
        (registryStart up w) ls c →
      ∀ t d, (t, .docClosed d) ∈ ls →
        ∃ doc, Released ((registrySide up).handles c.shared.native) c d doc) := by
  have hc := afterCalls_run parserStatus_empty h
  refine ⟨hc.agreement.agrees hc.accounts.zero, hc.freedOnce, hc.agreement.marksKept,
    fun hprompt t d hmem => ?_⟩
  have hdone := (afterPrompt_run parserStatus_empty hprompt).done t d hmem
  exact hc.agreement.released hc.accounts.zero hdone

variable {up}

/-- What the registry does next. -/
def registryNext (s : {s : Runtime W // Reachable up s}) (call : NativeCall) :
    {s : Runtime W // Reachable up s} where
  val := (outcome up s.1 call.toCall).2
  property := by
    obtain ⟨w, events, hrun⟩ := s.2
    exact ⟨w, _, hrun.snoc (executes_outcome up s.1 call.toCall)⟩

theorem registryNext_answers {s : {s : Runtime W // Reachable up s}} {call : NativeCall}
    {handle : UInt64} (h : replyOf (outcome up s.1 call.toCall).1 = .ok handle) :
    (registrySide up).answers call s (.ok handle) (registryNext s call) :=
  ⟨_, executes_outcome up s.1 call.toCall, h.symm, fun _ => ⟨handle, rfl⟩⟩

end

/-! ## A document closed twice -/

def sampleDefaults : ParserConfig := ⟨defaultMaxCapacity.toUInt64, defaultMaxDepth⟩

abbrev SampleRuntime := {s : Runtime SampleWorld // Reachable PureSimdjson.sampleNative s}

def sampleSide : HandleSide SampleRuntime := registrySide PureSimdjson.sampleNative

def sampleFresh : SampleRuntime := ⟨⟨Registry.empty, .empty⟩, .empty, [], .nil _⟩
def sampleMade : SampleRuntime := registryNext sampleFresh (.parserNew sampleDefaults)
def sampleParsed : SampleRuntime :=
  registryNext sampleMade (.parserParse PureSimdjson.sampleParser sampleText)
def sampleRooted : SampleRuntime := registryNext sampleParsed (.docRoot sampleDoc)
def sampleFreed : SampleRuntime := registryNext sampleRooted (.docFree sampleDoc)

theorem sampleMade_answers : sampleSide.answers (.parserNew sampleDefaults) sampleFresh
    (.ok PureSimdjson.sampleParser) sampleMade := registryNext_answers rfl

theorem sampleParsed_answers : sampleSide.answers
    (.parserParse PureSimdjson.sampleParser sampleText) sampleMade (.ok sampleDoc) sampleParsed :=
  registryNext_answers rfl

theorem sampleRooted_answers :
    sampleSide.answers (.docRoot sampleDoc) sampleParsed (.ok 0) sampleRooted :=
  registryNext_answers rfl

theorem sampleFreed_answers :
    sampleSide.answers (.docFree sampleDoc) sampleRooted (.ok 0) sampleFreed :=
  registryNext_answers rfl

/-- A goroutine makes a parser, parses, lets another have the document, and closes it. -/
def sampleClose : List Action :=
  [.tau, .native (.parserNew sampleDefaults) (.ok PureSimdjson.sampleParser), .created none 0, .tau,
    .native (.parserParse PureSimdjson.sampleParser sampleText) (.ok sampleDoc),
    .native (.docRoot sampleDoc) (.ok 0), .parsed 0 0, .tau, .tau,
    .native (.docFree sampleDoc) (.ok 0), .tau]

/-- What the goroutine has left when it has yet to clear the mark. -/
structure SampleUncleared (s : State Bool SampleRuntime) : Prop where
  ref : s.refs false (.doc 0)
  doc : ∃ doc, s.docs 0 = some doc ∧ doc.mu = none ∧ doc.closed = true ∧ doc.parser = 0
  docs : ∀ d doc, s.docs d = some doc → d = 0
  parser : ∃ parser, s.parsers 0 = some parser ∧ parser.mu = none ∧ parser.liveDoc = sampleDoc

theorem sampleClose_alone : ∃ s : State Bool SampleRuntime,
    Alone (Step sampleSide.toNativeSide) true (.start sampleFresh) .idle sampleClose s
      (.clear 0 sampleDoc 0) ∧ SampleUncleared s := by
  refine ⟨_, .cons (.newParser sampleDefaults) <| .cons (.native rfl sampleMade_answers) <|
    .cons (.made 0 rfl) <| .cons (.parse (p := 0) sampleText (Or.inr ⟨rfl, rfl⟩) rfl rfl rfl) <|
    .cons (.native rfl sampleParsed_answers) <| .cons (.native rfl sampleRooted_answers) <|
    .cons (.publish (d := 0) rfl rfl) <| .cons (.share (o := .doc 0) false (Or.inr ⟨rfl, rfl⟩)) <|
    .cons (.docClose (d := 0) (Or.inl (Or.inr ⟨rfl, rfl⟩)) rfl rfl rfl) <|
    .cons (.native rfl sampleFreed_answers) <| .cons (.docFreed rfl) <| .nil _ _, ?_⟩
  refine ⟨Or.inr ⟨rfl, rfl⟩, ⟨_, rfl, rfl, rfl, rfl⟩, fun d doc hd => ?_, ⟨_, rfl, rfl, rfl⟩⟩
  by_contra hne
  have hclosing := (State.setDoc_docs_of_ne hne).symm.trans hd
  have hpublished := (State.setDoc_docs_of_ne hne).symm.trans hclosing
  have hfresh : (none : Option (Doc Bool)) = some doc :=
    (State.setDoc_docs_of_ne hne).symm.trans hpublished
  cases hfresh

theorem sampleClose_run {s : State Bool SampleRuntime}
    (h : Alone (Step sampleSide.toNativeSide) true (.start sampleFresh) .idle sampleClose s
      (.clear 0 sampleDoc 0)) :
    Run (Threads.Moves (Step sampleSide.toNativeSide))
      (registryStart PureSimdjson.sampleNative SampleWorld.empty) (sampleClose.map (true, ·))
      ⟨s, Function.update (fun _ => .idle) true (.clear 0 sampleDoc 0)⟩ := h.run rfl

/-- The other goroutine closes the document too, and is told that it is closed: the parser is busy
still, and with nothing else. -/
theorem close_returns_early : ¬ ∀ (w : SampleWorld) (ls : List (Bool × Action))
    (c : Config Bool (State Bool SampleRuntime) Place),
    Run (Threads.Moves (Step sampleSide.toNativeSide)) (registryStart PureSimdjson.sampleNative w)
      ls c →
    ∀ t d, (t, .docClosed d) ∈ ls →
      ∃ doc, Released (sampleSide.handles c.shared.native) c d doc := by
  intro h
  obtain ⟨s, halone, hs⟩ := sampleClose_alone
  obtain ⟨doc₀, hd₀, hmu, hclosed, hparser⟩ := hs.doc
  obtain ⟨parser, hp, _, hlive⟩ := hs.parser
  have hrun := (sampleClose_run halone).snoc
    (.move (t := false) (.stop (.docClose hs.ref hd₀ hmu hclosed)))
  obtain ⟨doc, hreleased⟩ := h _ _ _ hrun false 0 (by simp)
  cases hreleased.found.symm.trans hd₀
  obtain ⟨d', doc', hne, hd', _⟩ := hreleased.wrapper parser (hparser ▸ hp) (by rw [hlive]; decide)
  exact hne (hs.docs d' doc' hd')

/-- A document parsed and closed, with nobody else about. -/
theorem wrappers_agree_sample : ∃ c : Config Bool (State Bool SampleRuntime) Place, ∃ doc,
    Released (sampleSide.handles c.shared.native) c 0 doc ∧
      FreedOnce (sampleClose.map (true, ·) ++ [(true, .docClosed 0)]) := by
  obtain ⟨s, halone, hs⟩ := sampleClose_alone
  obtain ⟨doc₀, hd₀, _⟩ := hs.doc
  obtain ⟨parser, hp, hmu, _⟩ := hs.parser
  have hmove : Threads.Moves (Step sampleSide.toNativeSide)
      ⟨s, Function.update (fun _ => .idle) true (.clear 0 sampleDoc 0)⟩ (true, .docClosed 0) _ :=
    .move (.clear hd₀ hp hmu)
  have hrun := sampleClose_run halone
  obtain ⟨_, hfreed, _, hreleased⟩ := wrappers_agree _ (hrun.snoc hmove)
  -- the only step that closes a document is the one that clears its mark
  have hprompt : Run (fun (c : Config Bool (State Bool SampleRuntime) Place) l c' =>
      Threads.Moves (Step sampleSide.toNativeSide) c l c' ∧ Prompt c l)
      (registryStart PureSimdjson.sampleNative SampleWorld.empty) (sampleClose.map (true, ·))
      ⟨s, Function.update (fun _ => .idle) true (.clear 0 sampleDoc 0)⟩ := by
    refine hrun.mono fun c l c' hmem hstep => ⟨hstep, fun d heq => ?_⟩
    obtain ⟨t, a⟩ := l
    cases heq
    simp [sampleClose] at hmem
  obtain ⟨doc, hdoc⟩ := hreleased (hprompt.snoc ⟨hmove, fun d heq hidle => by cases hidle⟩) true 0
    (by simp)
  exact ⟨_, doc, hdoc, hfreed⟩

end PureSimdjson.Wrappers
