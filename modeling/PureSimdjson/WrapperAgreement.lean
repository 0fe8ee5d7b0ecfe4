import PureSimdjson.NativeHandles
import PureSimdjson.WrapperInvariants

/-!
# The wrappers agree with the registry

Who owns what is recorded three times: a parser names its document, a document its parser, and
the registry has both.  One goroutine at a time changes the records of a parser, and they agree
before it starts and when it is done.
-/
namespace PureSimdjson.Wrappers

open Runs Threads

variable {T ν : Type}

/-! ## Who is at a parser -/

/-- The parser whose records a goroutine is changing. -/
def Place.about : Place → Option Nat
  | .parse p _ _ | .root p _ | .rollback p _ _ | .publish p _ | .unlock p _ | .free p _
  | .freed p | .freeFailed p _ | .docFree _ _ p | .docFreed _ _ p | .clear _ _ p
  | .finDocFree _ _ p | .finDocCommit _ _ p _ | .finClear _ _ p | .finParser p
  | .finParserDoc p _ _ | .finParserFree p _ _ | .finParserCommit p _ _ => some p
  | _ => none

/-- What the registry has of the parser meanwhile, if it has not been freed. -/
def Place.expects : Place → Option (Option UInt64)
  | .root _ doc | .rollback _ doc _ | .publish _ doc => some (some doc)
  | .docFree _ handle _ | .finDocFree _ handle _ => some (some handle)
  | .freed _ | .finParserCommit _ _ _ => none
  | _ => some none

/-- In a parser's finalizer. -/
def Place.finalizes : Place → Prop
  | .finParser _ | .finParserDoc _ _ _ | .finParserFree _ _ _ | .finParserCommit _ _ _ => True
  | _ => False

/-- How a goroutine comes to be the only one at a parser. -/
inductive Grip (s : State T ν) (t : T) (p : Nat) (x : Place) : Prop where
  | lock {parser : Parser T} (h : Locked s t p parser)
  | doc {d : Nat} {doc : Doc T} (hparser : doc.parser = p) (hmarks : s.Marks d doc)
      (hhas : s.Has t d doc)
  | finalizer {parser : Parser T} (h : FinalizingParser s t p parser) (hx : x.finalizes)

section
variable {s s' : State T ν} {t t' : T} {x x' : Place} {a : Action} {p : Nat}

theorem Closing.grip {d : Nat} {handle : UInt64} {doc : Doc T} (h : Closing s t d handle p doc) :
    Grip s t p x :=
  .doc h.parser ⟨h.found, Or.inl ⟨t, h.ref⟩, Or.inl h.closed⟩ h.has

theorem Relies.grip (h : Relies t s x) (hx : x.about = some p) : Grip s t p x := by
  cases x with
  | parse p₁ handle data =>
    cases hx
    obtain ⟨parser, hlocked⟩ := h
    exact .lock hlocked
  | root p₁ doc =>
    cases hx
    obtain ⟨_, parser, hlocked⟩ := h
    exact .lock hlocked
  | rollback p₁ doc rc =>
    cases hx
    obtain ⟨parser, hlocked⟩ := h
    exact .lock hlocked
  | publish p₁ doc =>
    cases hx
    obtain ⟨_, parser, hlocked⟩ := h
    exact .lock hlocked
  | unlock p₁ err =>
    cases hx
    obtain ⟨parser, hlocked⟩ := h
    exact .lock hlocked
  | free p₁ handle =>
    cases hx
    obtain ⟨parser, hlocked⟩ := h
    exact .lock hlocked
  | freed p₁ =>
    cases hx
    obtain ⟨parser, hlocked⟩ := h
    exact .lock hlocked
  | freeFailed p₁ rc =>
    cases hx
    obtain ⟨parser, hlocked⟩ := h
    exact .lock hlocked
  | docFree d handle p₁ =>
    cases hx
    obtain ⟨doc, hclosing⟩ := h
    exact hclosing.grip
  | docFreed d handle p₁ =>
    cases hx
    obtain ⟨doc, hclosing⟩ := h
    exact hclosing.grip
  | clear d handle p₁ =>
    cases hx
    obtain ⟨doc, hclearing, href⟩ := h
    exact .doc hclearing.parser (hclearing.marks (Or.inl ⟨t, href⟩)) (hclearing.has href)
  | finDocFree d handle p₁ =>
    cases hx
    obtain ⟨doc, hfin, hopen, _, hparser⟩ := h
    exact .doc hparser ⟨hfin.found, hfin.alive, Or.inl hopen⟩ hfin.has
  | finDocCommit d handle p₁ freed =>
    cases hx
    obtain ⟨doc, hfin, hopen, _, hparser⟩ := h
    exact .doc hparser ⟨hfin.found, hfin.alive, Or.inl hopen⟩ hfin.has
  | finClear d handle p₁ =>
    cases hx
    obtain ⟨doc, hfin, hclearing⟩ := h
    exact .doc hclearing.parser (hclearing.marks hfin.alive) hfin.has
  | finParser p₁ =>
    cases hx
    obtain ⟨parser, hfin⟩ := h
    exact .finalizer hfin trivial
  | finParserDoc p₁ handle liveDoc =>
    cases hx
    obtain ⟨parser, hfin⟩ := h
    exact .finalizer hfin trivial
  | finParserFree p₁ handle docFreed =>
    cases hx
    obtain ⟨parser, hfin⟩ := h
    exact .finalizer hfin trivial
  | finParserCommit p₁ docFreed parserFreed =>
    cases hx
    obtain ⟨parser, hfin⟩ := h
    exact .finalizer hfin trivial
  | _ => cases hx

/-- **One goroutine at a time is at a parser.** -/
theorem Grip.unique (hs : Marked s) (h : Grip s t p x) (h' : Grip s t' p x') : t' = t := by
  cases h with
  | lock hlocked =>
    cases h' with
    | lock hlocked' =>
      cases hlocked.found.symm.trans hlocked'.found
      exact Option.some.inj (hlocked'.mu.symm.trans hlocked.mu)
    | doc hparser hmarks _ =>
      subst hparser
      exact absurd hlocked.liveDoc (hs.marked hmarks hlocked.found).1
    | finalizer hfin _ => exact absurd hlocked.ref (hfin.dead.refs t)
  | doc hparser hmarks hhas =>
    cases h' with
    | lock hlocked =>
      subst hparser
      exact absurd hlocked.liveDoc (hs.marked hmarks hlocked.found).1
    | doc hparser' hmarks' hhas' =>
      obtain rfl := hs.unique hmarks hmarks' (hparser.trans hparser'.symm)
      cases hmarks.1.symm.trans hmarks'.1
      exact hhas.unique hhas'
    | finalizer hfin _ => exact absurd hmarks.2.1 (hfin.dead.docs _ _ hmarks.1 hparser)
  | finalizer hfin _ =>
    cases h' with
    | lock hlocked => exact absurd hlocked.ref (hfin.dead.refs t')
    | doc hparser hmarks _ => exact absurd hmarks.2.1 (hfin.dead.docs _ _ hmarks.1 hparser)
    | finalizer hfin' _ =>
      cases hfin.found.symm.trans hfin'.found
      cases hfin.finalizer.symm.trans hfin'.finalizer
      rfl

end

/-! ## Records -/

/-- What there is to agree on in a parser. -/
structure SameRecord (parser parser' : Parser T) : Prop where
  handle : parser'.handle = parser.handle
  liveDoc : parser'.liveDoc = parser.liveDoc
  closed : parser'.closed = parser.closed
  library : parser'.library = parser.library

/-- An open document of a parser. -/
structure OpenDoc (s : State T ν) (p d : Nat) (handle : UInt64) (doc : Doc T) : Prop where
  found : s.docs d = some doc
  closed : doc.closed = false
  parser : doc.parser = p
  handle : doc.handle = handle

/-- What the registry has of a parser with this mark. -/
def statusOf (liveDoc : UInt64) : Option UInt64 := if liveDoc = 0 then none else some liveDoc

/-- **The records of a parser agree.** -/
structure Quiet (handles : Handles) (s : State T ν) (p : Nat) (parser : Parser T) : Prop where
  zero : parser.handle = 0 → parser.liveDoc = 0
  status : parser.handle ≠ 0 → handles parser.handle = some (statusOf parser.liveDoc)
  doc : parser.liveDoc ≠ 0 → ∃ d doc, OpenDoc s p d parser.liveDoc doc

/-- What a goroutine has read of a parser is so, and no native call has failed. -/
def Place.Fits (parser : Parser T) : Place → Prop
  | .parse _ handle _ | .free _ handle => parser.handle = handle
  | .rollback _ _ _ | .freeFailed _ _ => False
  | .finDocCommit _ _ _ done => done = true
  | .finParser _ => parser.liveDoc = 0
  | .finParserDoc _ handle liveDoc =>
      parser.handle = handle ∧ parser.liveDoc = 0 ∧ liveDoc = 0
  | .finParserFree _ handle done => parser.handle = handle ∧ parser.liveDoc = 0 ∧ done = true
  | .finParserCommit _ done done' => parser.liveDoc = 0 ∧ done = true ∧ done' = true
  | _ => True

/-- The records of a parser while a goroutine is at it. -/
structure At (handles : Handles) (parser : Parser T) (x : Place) : Prop where
  status : ∀ status, x.expects = some status →
    parser.handle ≠ 0 ∧ handles parser.handle = some status
  fits : x.Fits parser

theorem At.same {handles handles' : Handles} {parser parser' : Parser T} {x : Place}
    (h : At handles parser x) (hrecord : SameRecord parser parser')
    (hkept : x.expects ≠ none → handles' parser.handle = handles parser.handle) :
    At handles' parser' x := by
  refine ⟨fun status hstatus => ?_, ?_⟩
  · rw [hrecord.handle, hkept (by rw [hstatus]; exact Option.some_ne_none _)]
    exact h.status status hstatus
  · have hfits := h.fits
    cases x with
    | parse p handle data => exact hrecord.handle.trans hfits
    | free p handle => exact hrecord.handle.trans hfits
    | finParser p => exact hrecord.liveDoc.trans hfits
    | finParserDoc p handle liveDoc =>
      exact ⟨hrecord.handle.trans hfits.1, hrecord.liveDoc.trans hfits.2.1, hfits.2.2⟩
    | finParserFree p handle done =>
      exact ⟨hrecord.handle.trans hfits.1, hrecord.liveDoc.trans hfits.2.1, hfits.2.2⟩
    | finParserCommit p done done' => exact ⟨hrecord.liveDoc.trans hfits.1, hfits.2⟩
    | _ => exact hfits

/-- The document a goroutine is closing. -/
def Place.closing : Place → Option Nat
  | .docFree d _ _ | .docFreed d _ _ => some d
  | _ => none

/-- The document whose mark a goroutine is about to clear. -/
def Place.clears : Place → Option Nat
  | .clear d _ _ | .finClear d _ _ => some d
  | _ => none

/-- Who has a parser's handle: a parser that has not been freed, or a goroutine that is making
one. -/
inductive Holder (c : Config T (State T ν) Place) (handle : UInt64) : Nat ⊕ T → Prop where
  | parser {p : Nat} {parser : Parser T} (found : c.shared.parsers p = some parser)
      (hhandle : parser.handle = handle) (hne : handle ≠ 0)
      (hexpects : ∀ t, (c.own t).about = some p → (c.own t).expects ≠ none) :
      Holder c handle (.inl p)
  | made {t : T} {config : ParserConfig} {pool : Option Nat}
      (h : c.own t = .made handle config pool) : Holder c handle (.inr t)

/-- **The wrappers agree with the handles.** -/
structure Agreement (handles : ν → Handles) (c : Config T (State T ν) Place) : Prop where
  holds : Holds (fun s => Known s ∧ Marked s) Relies c
  possible : ∀ t d rc, c.own t ≠ .docFreeFailed d rc
  /-- A parser without a handle is closed, or was never opened. -/
  noHandle : ∀ p parser, c.shared.parsers p = some parser →
    (parser.handle = 0 ↔ parser.closed = true ∨ parser.library = none)
  /-- An open document has a finalizer, or is being closed. -/
  openDoc : ∀ d doc, c.shared.docs d = some doc → doc.closed = false → doc.handle ≠ 0 ∧
    (doc.finalizer = .cleared → ∃ t, (c.own t).closing = some d)
  clearing : ∀ d doc t, c.shared.docs d = some doc → doc.clearing = some t →
    (c.own t).clears = some d
  at' : ∀ t p parser, (c.own t).about = some p → c.shared.parsers p = some parser →
    At (handles c.shared.native) parser (c.own t)
  quiet : ∀ p parser, c.shared.parsers p = some parser → (∀ t, (c.own t).about ≠ some p) →
    Quiet (handles c.shared.native) c.shared p parser
  made : ∀ t handle config pool, c.own t = .made handle config pool →
    handle ≠ 0 ∧ handles c.shared.native handle = some none
  distinct : ∀ handle k k', Holder c handle k → Holder c handle k' → k = k'
  separate : (handles c.shared.native).Separate

section
variable {native : NativeSide ν} {s s' : State T ν} {t t' : T} {x x' : Place} {a : Action}
  {p : Nat}

/-- **Only a goroutine at a parser changes its records.** -/
theorem Step.same_record (h : Step native t s x a s' x') (hx : x.about ≠ some p)
    {parser' : Parser T} (hp : s'.parsers p = some parser') :
    (∃ parser, s.parsers p = some parser ∧ SameRecord parser parser') ∨
      s.parsers p = none ∧ parser'.liveDoc = 0 ∧ parser'.closed = false ∧
        (parser'.library = none ∧ parser'.handle = 0 ∨ parser'.library ≠ none ∧
          ∃ config pool, x = .made parser'.handle config pool) := by
  have hsame (hp : s.parsers p = some parser') :
      ∃ parser, s.parsers p = some parser ∧ SameRecord parser parser' :=
    ⟨parser', hp, rfl, rfl, rfl, rfl⟩
  have hset {p₁ : Nat} {parser₁ parser₂ : Parser T} (h₁ : s.parsers p₁ = some parser₁)
      (hafter : (s.setParser p₁ parser₂).parsers p = some parser')
      (hrecord : SameRecord parser₁ parser₂ ∨ x.about = some p₁) :
      ∃ parser, s.parsers p = some parser ∧ SameRecord parser parser' := by
    by_cases hpp : p = p₁
    · subst hpp
      rw [State.setParser_parsers_self] at hafter
      cases hafter
      rcases hrecord with hrecord | habout
      · exact ⟨parser₁, h₁, hrecord⟩
      · exact absurd habout hx
    · exact hsame ((State.setParser_parsers_of_ne hpp).symm.trans hafter)
  cases h with
  | @zeroParser p₁ h₁ =>
    by_cases hpp : p = p₁
    · subst hpp
      have hself := (State.setParser_parsers_self (s := s)).symm.trans hp
      cases hself
      exact Or.inr ⟨h₁, rfl, rfl, Or.inl ⟨rfl, rfl⟩⟩
    · exact Or.inl (hsame ((State.setParser_parsers_of_ne (s := s) hpp).symm.trans hp))
  | @made handle config pool p₁ library h₁ =>
    by_cases hpp : p = p₁
    · subst hpp
      have hself := (State.setParser_parsers_self (s := s)).symm.trans hp
      cases hself
      exact Or.inr ⟨h₁, rfl, rfl, Or.inr ⟨Option.some_ne_none _, config, pool, rfl⟩⟩
    · exact Or.inl (hsame ((State.setParser_parsers_of_ne (s := s) hpp).symm.trans hp))
  | parse data _ h₁ _ _ => exact Or.inl (hset h₁ hp (Or.inl ⟨rfl, rfl, rfl, rfl⟩))
  | publish h₁ _ => exact Or.inl (hset h₁ hp (Or.inr rfl))
  | unlock h₁ => exact Or.inl (hset h₁ hp (Or.inr rfl))
  | close _ h₁ _ _ => exact Or.inl (hset h₁ hp (Or.inl ⟨rfl, rfl, rfl, rfl⟩))
  | freed h₁ => exact Or.inl (hset h₁ hp (Or.inr rfl))
  | freeFailed h₁ => exact Or.inl (hset h₁ hp (Or.inr rfl))
  | clear _ h₁ _ => exact Or.inl (hset h₁ hp (Or.inr rfl))
  | finClear _ h₁ _ => exact Or.inl (hset h₁ hp (Or.inr rfl))
  | finParserIdle _ h₁ _ _ _ => exact Or.inl (hset h₁ hp (Or.inl ⟨rfl, rfl, rfl, rfl⟩))
  | finParser _ h₁ _ _ _ => exact Or.inl (hset h₁ hp (Or.inl ⟨rfl, rfl, rfl, rfl⟩))
  | finParserClosed h₁ _ _ => exact Or.inl (hset h₁ hp (Or.inr rfl))
  | finParserCommit h₁ _ => exact Or.inl (hset h₁ hp (Or.inr rfl))
  | _ => exact Or.inl (hsame hp)

theorem Step.made_spec {parser' : Parser T} {handle : UInt64} {config : ParserConfig}
    {pool : Option Nat} (h : Step native t s (.made handle config pool) a s' x')
    (hnone : s.parsers p = none) (hp : s'.parsers p = some parser') :
    x' = .idle ∧ ∀ p', s.parsers p' = none → s'.parsers p' ≠ none → p' = p := by
  cases h with
  | @made _ _ _ p₁ library _ =>
    have hone {p' : Nat} (hnone : s.parsers p' = none)
        (hsome : (s.setParser p₁ ⟨none, some library, handle, config, false, 0, .attached⟩).parsers
          p' ≠ none) : p' = p₁ := by
      by_contra hne
      rw [State.setParser_parsers_of_ne hne] at hsome
      exact hsome hnone
    refine ⟨rfl, fun p' hnone' hsome => ?_⟩
    rw [hone hnone' hsome, hone hnone (fun heq => by cases hp.symm.trans heq)]
  | native hcall _ => cases hcall
  | _ => cases hnone.symm.trans hp

theorem Place.resume_made {reply : Reply} {handle : UInt64} {config : ParserConfig}
    {pool : Option Nat} (h : .made handle config pool = x.resume reply) :
    x = .made handle config pool ∨ x = .new config pool ∧ reply = .ok handle := by
  cases x with
  | new config' pool' =>
    cases reply with
    | ok handle' =>
      cases h
      exact Or.inr ⟨rfl, rfl⟩
    | error rc => cases h
  | made handle' config' pool' => exact Or.inl h.symm
  | _ => cases reply <;> cases h

/-- Only a native call makes a parser. -/
theorem Step.comes_made {handle : UInt64} {config : ParserConfig} {pool : Option Nat}
    (h : Step native t s x a s' (.made handle config pool)) : x = .made handle config pool ∨
      x = .new config pool ∧
        native.answers (.parserNew config) s.native (.ok handle) s'.native := by
  generalize hx' : Place.made handle config pool = x' at h
  cases h with
  | forget _ => exact Or.inl rfl
  | evict _ => exact Or.inl rfl
  | native hcall hanswer =>
    rcases Place.resume_made hx' with rfl | ⟨rfl, rfl⟩
    · cases hcall
    · cases hcall
      exact Or.inr ⟨rfl, hanswer⟩
  | _ => cases hx'

/-- Only a goroutine at a parser closes its documents. -/
theorem Step.open_stays (h : Step native t s x a s' x') (hrelies : Relies t s x)
    (hx : x.about ≠ some p) {d : Nat} {handle : UInt64} {doc : Doc T}
    (hd : OpenDoc s p d handle doc) : ∃ doc', OpenDoc s' p d handle doc' := by
  have hset {d₁ : Nat} {doc₁ doc₂ : Doc T} (hdocs : s'.docs = (s.setDoc d₁ doc₂).docs)
      (h₁ : s.docs d₁ = some doc₁)
      (hsame : doc₂.closed = doc₁.closed ∧ doc₂.parser = doc₁.parser ∧ doc₂.handle = doc₁.handle ∨
        x.about = some doc₁.parser) : ∃ doc', OpenDoc s' p d handle doc' := by
    by_cases hdd : d = d₁
    · subst hdd
      cases hd.found.symm.trans h₁
      rcases hsame with ⟨hclosed, hparser, hhandle⟩ | habout
      · exact ⟨doc₂, hdocs ▸ State.setDoc_docs_self, hclosed.trans hd.closed,
          hparser.trans hd.parser, hhandle.trans hd.handle⟩
      · exact absurd (habout.trans (congrArg some hd.parser)) hx
    · exact ⟨doc, hdocs ▸ (State.setDoc_docs_of_ne hdd).trans hd.found, hd.closed, hd.parser,
        hd.handle⟩
  cases h with
  | @publish p₁ d₁ _ _ h₁ hnone =>
    have hdd : d ≠ d₁ := by
      rintro rfl
      cases hd.found.symm.trans hnone
    exact ⟨doc, (State.setDoc_docs_of_ne (s := s) hdd).trans hd.found, hd.closed, hd.parser,
      hd.handle⟩
  | docClose _ h₁ _ _ => exact hset rfl h₁ (Or.inl ⟨rfl, rfl, rfl⟩)
  | docFreed h₁ =>
    obtain ⟨doc₁, hclosing⟩ := hrelies
    cases h₁.symm.trans hclosing.found
    exact hset rfl h₁ (Or.inr (congrArg some hclosing.parser.symm))
  | docFreeFailed h₁ => exact hset rfl h₁ (Or.inl ⟨rfl, rfl, rfl⟩)
  | clear h₁ _ _ => exact hset rfl h₁ (Or.inl ⟨rfl, rfl, rfl⟩)
  | finDocIdle _ h₁ _ _ _ => exact hset rfl h₁ (Or.inl ⟨rfl, rfl, rfl⟩)
  | finDoc _ h₁ _ _ _ => exact hset rfl h₁ (Or.inl ⟨rfl, rfl, rfl⟩)
  | finDocClosed h₁ _ _ => exact hset rfl h₁ (Or.inl ⟨rfl, rfl, rfl⟩)
  | finDocKept h₁ _ => exact hset rfl h₁ (Or.inl ⟨rfl, rfl, rfl⟩)
  | finDocFreed h₁ _ =>
    obtain ⟨doc₁, hfin, _, _, hparser⟩ := hrelies
    cases h₁.symm.trans hfin.found
    exact hset rfl h₁ (Or.inr (congrArg some hparser.symm))
  | finClear h₁ _ _ => exact hset rfl h₁ (Or.inl ⟨rfl, rfl, rfl⟩)
  | _ => exact ⟨doc, hd.found, hd.closed, hd.parser, hd.handle⟩

end

/-! ## Native calls -/

section
variable {handles handles' : Handles} {parser : Parser T} {x : Place} {p : Nat} {call : NativeCall}
  {reply : Reply}

/-- **A call of a goroutine at a parser succeeds where it must**, and changes the handle of that
parser alone. -/
theorem At.resume (h : At handles parser x) (hx : x.about = some p) (hseparate : handles.Separate)
    (hcall : x.call = some call) (hstep : HandleStep handles call reply handles') :
    At handles' parser (x.resume reply) ∧ (x.resume reply).about = some p ∧
      ∀ handle, handle ≠ parser.handle → handles' handle = handles handle := by
  -- the handle of the parser changes, to what is expected next
  have hnext {y : Place} {status : Option (Option UInt64)} {handle : UInt64}
      (heq : parser.handle = handle) (hne : parser.handle ≠ 0)
      (hexpects : ∀ next, y.expects = some next → status = some next) (hfits : y.Fits parser)
      (hchanged : handles' = Function.update handles handle status) :
      At handles' parser y ∧
        ∀ handle', handle' ≠ parser.handle → handles' handle' = handles handle' := by
    subst heq hchanged
    refine ⟨⟨fun next hy => ⟨hne, ?_⟩, hfits⟩, fun handle' hne' => Function.update_of_ne hne' _ _⟩
    rw [Function.update_self, hexpects next hy]
  cases x with
  | parse p₁ handle data =>
    cases hcall
    have hhandle : parser.handle = handle := h.fits
    obtain ⟨hne, hstatus⟩ := h.status none rfl
    cases hstep with
    | parserParse _ _ _ =>
      obtain ⟨hat, hother⟩ := hnext (y := .root p₁ _) hhandle hne
        (fun next hy => by cases hy; rfl) trivial rfl
      exact ⟨hat, hx, hother⟩
    | failed _ => exact ⟨⟨fun next hy => by cases hy; exact ⟨hne, hstatus⟩, trivial⟩, hx,
        fun _ _ => rfl⟩
  | root p₁ doc =>
    cases hcall
    obtain ⟨hne, hstatus⟩ := h.status (some doc) rfl
    cases hstep with
    | docRoot _ => exact ⟨⟨fun next hy => by cases hy; exact ⟨hne, hstatus⟩, trivial⟩, hx,
        fun _ _ => rfl⟩
    | failed hinvalid => exact absurd ⟨_, hstatus⟩ hinvalid
  | rollback p₁ doc rc => exact absurd h.fits id
  | free p₁ handle =>
    cases hcall
    have hhandle : parser.handle = handle := h.fits
    obtain ⟨hne, hstatus⟩ := h.status none rfl
    cases hstep with
    | parserFree _ =>
      obtain ⟨hat, hother⟩ := hnext (y := .freed p₁) hhandle hne (fun next hy => by cases hy)
        trivial rfl
      exact ⟨hat, hx, hother⟩
    | failed hinvalid => exact absurd (hhandle ▸ hstatus) hinvalid
  | docFree d handle p₁ =>
    cases hcall
    obtain ⟨hne, hstatus⟩ := h.status (some handle) rfl
    cases hstep with
    | docFree hbusy =>
      obtain ⟨hat, hother⟩ := hnext (y := .docFreed d handle p₁) (hseparate _ _ _ hstatus hbusy) hne
        (fun next hy => by cases hy; rfl) trivial rfl
      exact ⟨hat, hx, hother⟩
    | failed hinvalid => exact absurd ⟨_, hstatus⟩ hinvalid
  | finDocFree d handle p₁ =>
    cases hcall
    obtain ⟨hne, hstatus⟩ := h.status (some handle) rfl
    cases hstep with
    | docFree hbusy =>
      obtain ⟨hat, hother⟩ := hnext (y := .finDocCommit d handle p₁ true)
        (hseparate _ _ _ hstatus hbusy) hne (fun next hy => by cases hy; rfl) rfl rfl
      exact ⟨hat, hx, hother⟩
    | failed hinvalid => exact absurd ⟨_, hstatus⟩ hinvalid
  | finParserDoc p₁ handle liveDoc =>
    -- there is no document, so there is no call
    rw [Place.call, if_pos h.fits.2.2] at hcall
    cases hcall
  | finParserFree p₁ handle done =>
    obtain ⟨hhandle, hlive, hdone⟩ := h.fits
    obtain ⟨hne, hstatus⟩ := h.status none rfl
    rw [Place.call, if_neg (hhandle ▸ hne)] at hcall
    cases hcall
    cases hstep with
    | parserFree _ =>
      obtain ⟨hat, hother⟩ := hnext (y := .finParserCommit p₁ done true) hhandle hne
        (fun next hy => by cases hy) ⟨hlive, hdone, rfl⟩ rfl
      exact ⟨hat, hx, hother⟩
    | failed hinvalid => exact absurd (hhandle ▸ hstatus) hinvalid
  | new config pool => cases hx
  | _ => cases hcall

end

/-! ## A goroutine's own parser -/

/-- What a step of a goroutine at a parser comes to. -/
structure Lands (handles : Handles) (s' : State T ν) (p : Nat) (parser parser' : Parser T)
    (x x' : Place) : Prop where
  at' : x'.about = some p → At handles parser' x'
  quiet : x'.about ≠ some p → Quiet handles s' p parser'
  handle : parser'.handle ≠ 0 → (x'.about = some p → x'.expects ≠ none) →
    parser'.handle = parser.handle ∧ x.expects ≠ none
  noHandle : parser'.handle = 0 ↔ parser'.closed = true ∨ parser'.library = none

@[simp] theorem Parser.clearLiveDoc_handle (doc : UInt64) (parser : Parser T) :
    (parser.clearLiveDoc doc).handle = parser.handle := by
  rw [clearLiveDoc]
  split <;> rfl

@[simp] theorem Parser.clearLiveDoc_library (doc : UInt64) (parser : Parser T) :
    (parser.clearLiveDoc doc).library = parser.library := by
  rw [clearLiveDoc]
  split <;> rfl

theorem Parser.clearLiveDoc_self {doc : UInt64} {parser : Parser T} (h : parser.liveDoc = doc) :
    (parser.clearLiveDoc doc).liveDoc = 0 := by
  rw [clearLiveDoc, if_pos h]

theorem Parser.parseGate_library {parser : Parser T} (h : parser.parseGate = .ok ()) :
    parser.library ≠ none := by
  intro hnone
  rw [parseGate, if_pos hnone] at h
  cases h

theorem Parser.closeGate_library {parser : Parser T} (h : parser.closeGate = none) :
    parser.library ≠ none := by
  intro hnone
  rw [closeGate, if_pos hnone] at h
  cases h

theorem Parser.handle_of_leaked {parser : Parser T} (h : parser.hasLeakedState = true)
    (hlive : parser.liveDoc = 0) : parser.handle ≠ 0 := by
  intro hzero
  rw [hasLeakedState, hzero, hlive] at h
  simp at h

theorem Quiet.of_idle {handles : Handles} {s : State T ν} {p : Nat} {parser : Parser T}
    (hlive : parser.liveDoc = 0) (hstatus : parser.handle ≠ 0 → handles parser.handle = some none) :
    Quiet handles s p parser := by
  refine ⟨fun _ => hlive, fun hne => ?_, fun hne => absurd hlive hne⟩
  rw [hstatus hne, hlive]
  rfl

theorem Place.expects_of_call {x : Place} {call : NativeCall} {p : Nat}
    (hcall : x.call = some call) (hx : x.about = some p) : x.expects ≠ none := by
  cases x with
  | freed p₁ => cases hcall
  | finParserCommit p₁ done done' => cases hcall
  | _ => exact Option.some_ne_none _

section
variable {native : HandleSide ν} {s s' : State T ν} {own : T → Place} {t : T} {x x' : Place}
  {a : Action} {p : Nat} {parser parser' : Parser T}

theorem Agreement.relies (hc : Agreement native.handles ⟨s, own⟩) (hown : own t = x) :
    Relies t s x := hown ▸ hc.holds.own t

theorem Agreement.found_at (hc : Agreement native.handles ⟨s, own⟩) (hown : own t = x)
    (hx : x.about = some p) (hp : s.parsers p = some parser) :
    At (native.handles s.native) parser x := by
  have hat : At (native.handles s.native) parser (own t) :=
    hc.at' t p parser ((congrArg Place.about hown).trans hx) hp
  rwa [hown] at hat

theorem Agreement.lands (hc : Agreement native.handles ⟨s, own⟩) (hown : own t = x)
    (h : Step native.toNativeSide t s x a s' x') (hx : x.about = some p)
    (hp : s.parsers p = some parser) (hp' : s'.parsers p = some parser') :
    Lands (native.handles s'.native) s' p parser parser' x x' := by
  have hrelies := hc.relies hown
  have hat := hc.found_at hown hx hp
  have hnoHandle := hc.noHandle p parser hp
  -- the parser is the one it was, and the goroutine is still at it
  have hstays {s'' : State T ν} (hparsers : s''.parsers p = some parser)
      (hsame : s''.parsers p = some parser') (hexpects : x'.expects ≠ none → x.expects ≠ none)
      (habout : x'.about = some p) (hat' : At (native.handles s'.native) parser x') :
      Lands (native.handles s'.native) s' p parser parser' x x' := by
    cases hparsers.symm.trans hsame
    exact ⟨fun _ => hat', fun hne => absurd habout hne,
      fun _ hne => ⟨rfl, hexpects (hne habout)⟩, hnoHandle⟩
  -- the goroutine leaves it, idle and with its handle
  have hleaves {parser₁ : Parser T} (hself : s'.parsers p = some parser₁)
      (hnative : s'.native = s.native) (hexpects : x.expects = some none)
      (hhandle : parser₁.handle = parser.handle) (hlive : parser₁.liveDoc = 0)
      (hclosed : parser₁.closed = parser.closed) (hlibrary : parser₁.library = parser.library)
      (habout : x'.about ≠ some p) :
      Lands (native.handles s'.native) s' p parser parser' x x' := by
    cases hself.symm.trans hp'
    refine ⟨fun heq => absurd heq habout, fun _ => .of_idle hlive fun _ => ?_,
      fun _ _ => ⟨hhandle, ?_⟩, ?_⟩
    · rw [hhandle, hnative]
      exact (hat.status none hexpects).2
    · rw [hexpects]
      exact Option.some_ne_none _
    · rw [hhandle, hclosed, hlibrary]
      exact hnoHandle
  -- the goroutine leaves it closed
  have hcloses {parser₁ : Parser T} (hself : s'.parsers p = some parser₁)
      (hhandle : parser₁.handle = 0) (hlive : parser₁.liveDoc = 0) (hclosed : parser₁.closed = true)
      (habout : x'.about ≠ some p) :
      Lands (native.handles s'.native) s' p parser parser' x x' := by
    cases hself.symm.trans hp'
    exact ⟨fun heq => absurd heq habout, fun _ => .of_idle hlive fun hne => absurd hhandle hne,
      fun hne => absurd hhandle hne, fun _ => Or.inl hclosed, fun _ => hhandle⟩
  cases h with
  | forget _ => exact hstays hp hp' id hx hat
  | evict _ => exact hstays hp hp' id hx hat
  | native hcall hanswer =>
    obtain ⟨hat', habout, _⟩ := hat.resume hx hc.separate hcall (native.step hanswer)
    exact hstays hp hp' (fun _ => Place.expects_of_call hcall hx) habout hat'
  | publish h₁ _ =>
    cases hx
    cases hp.symm.trans h₁
    have hself := (State.setParser_parsers_self (s := s)).symm.trans hp'
    cases hself
    obtain ⟨hne, hstatus⟩ := hat.status _ rfl
    have hdoc := hrelies.1
    refine ⟨(fun heq => by cases heq), fun _ => ⟨fun hzero => absurd hzero hne, fun _ => ?_,
      fun _ => ⟨_, _, State.setDoc_docs_self (s := s), rfl, rfl, rfl⟩⟩,
      fun _ _ => ⟨rfl, Option.some_ne_none _⟩, hnoHandle⟩
    rw [statusOf, if_neg hdoc]
    exact hstatus
  | unlock h₁ =>
    cases hx
    cases hp.symm.trans h₁
    obtain ⟨_, hlocked⟩ := hrelies
    cases hp.symm.trans hlocked.found
    exact hleaves State.setParser_parsers_self rfl rfl rfl hlocked.liveDoc rfl rfl
      fun heq => by cases heq
  | freed h₁ =>
    cases hx
    exact hcloses State.setParser_parsers_self rfl rfl rfl fun heq => by cases heq
  | freeFailed _ => exact absurd hat.fits id
  | docFreed _ => exact hstays hp hp' id hx ⟨hat.status, trivial⟩
  | clear _ h₁ _ =>
    cases hx
    cases hp.symm.trans h₁
    obtain ⟨_, hclearing, _⟩ := hrelies
    obtain ⟨_, hmarked, hlive⟩ := hclearing.marked
    cases hp.symm.trans hmarked
    exact hleaves State.setParser_parsers_self rfl rfl (Parser.clearLiveDoc_handle _ _)
      (Parser.clearLiveDoc_self hlive) (Parser.clearLiveDoc_closed _ _)
      (Parser.clearLiveDoc_library _ _) fun heq => by cases heq
  | finDocKept _ _ => cases hat.fits
  | finDocFreed _ _ => exact hstays hp hp' id hx ⟨hat.status, trivial⟩
  | finClear _ h₁ _ =>
    cases hx
    cases hp.symm.trans h₁
    obtain ⟨_, _, hclearing⟩ := hrelies
    obtain ⟨_, hmarked, hlive⟩ := hclearing.marked
    cases hp.symm.trans hmarked
    exact hleaves State.setParser_parsers_self rfl rfl (Parser.clearLiveDoc_handle _ _)
      (Parser.clearLiveDoc_self hlive) (Parser.clearLiveDoc_closed _ _)
      (Parser.clearLiveDoc_library _ _) fun heq => by cases heq
  | finParserClosed h₁ _ hclosed =>
    cases hx
    cases hp.symm.trans h₁
    exact absurd (hnoHandle.mpr (Or.inl hclosed)) (hat.status none rfl).1
  | finParserRead h₁ _ _ =>
    cases hx
    cases hp.symm.trans h₁
    exact hstays hp hp' id rfl ⟨hat.status, rfl, hat.fits, hat.fits⟩
  | finParserNoDoc => exact hstays hp hp' id hx ⟨hat.status, hat.fits.1, hat.fits.2.1, rfl⟩
  | finParserNoHandle => exact absurd hat.fits.1 (hat.status none rfl).1
  | finParserCommit h₁ _ =>
    cases hx
    obtain ⟨_, rfl, rfl⟩ := hat.fits
    exact hcloses State.setParser_parsers_self rfl rfl rfl fun heq => by cases heq
  | _ => cases hx

theorem Place.about_resume {reply : Reply} (h : (x.resume reply).about = some p) :
    x.about = some p := by
  cases x with
  | docFree d handle p₁ =>
    cases reply with
    | ok _ => exact h
    | error rc => cases h
  | _ =>
    cases reply with
    | ok _ => exact h
    | error rc => exact h

/-- An open document is alive. -/
theorem Agreement.alive (hc : Agreement native.handles ⟨s, own⟩) {d : Nat} {doc : Doc T}
    (hd : s.docs d = some doc) (hopen : doc.closed = false) : s.Alive d doc := by
  by_cases hfin : doc.finalizer = .cleared
  · obtain ⟨t, hclosing⟩ := (hc.openDoc d doc hd hopen).2 hfin
    have hrelies : Relies t s (own t) := hc.holds.own t
    dsimp only at hclosing
    generalize own t = y at hclosing hrelies
    cases y with
    | docFree d₁ handle p₁ =>
      cases hclosing
      obtain ⟨doc₁, hclosing⟩ := hrelies
      exact Or.inl ⟨t, hclosing.ref⟩
    | docFreed d₁ handle p₁ =>
      cases hclosing
      obtain ⟨doc₁, hclosing⟩ := hrelies
      exact Or.inl ⟨t, hclosing.ref⟩
    | _ => cases hclosing
  · exact Or.inr hfin

/-- A parser that is open has a handle. -/
theorem Agreement.handle_ne (hc : Agreement native.handles ⟨s, own⟩)
    (hp : s.parsers p = some parser) (hopen : parser.closed = false)
    (hlibrary : parser.library ≠ none) : parser.handle ≠ 0 := by
  intro hzero
  rcases (hc.noHandle p parser hp).mp hzero with hclosed | hnone
  · cases hopen.symm.trans hclosed
  · exact hlibrary hnone

/-- Nobody is at a parser that a goroutine comes to. -/
theorem Agreement.nobody (hc : Agreement native.handles ⟨s, own⟩) (hown : own t = x)
    (h : Step native.toNativeSide t s x a s' x') (hx : x.about ≠ some p) (hx' : x'.about = some p)
    (t' : T) : (own t').about ≠ some p := by
  intro habout
  have hne : t' ≠ t := by
    rintro rfl
    rw [hown] at habout
    exact hx habout
  obtain ⟨hshared, hmine⟩ := (outline native.toNativeSide).keeps hc.holds.shared (hc.relies hown) h
  have hother := (outline native.toNativeSide).stable hne hc.holds.shared (hc.relies hown) h
    (hc.holds.own t')
  exact hne ((hmine.grip hx').unique hshared.2 (hother.grip habout))

/-- A goroutine that comes to a parser finds what it expects. -/
theorem Agreement.arrives (hc : Agreement native.handles ⟨s, own⟩) (hown : own t = x)
    (h : Step native.toNativeSide t s x a s' x') (hx : x.about ≠ some p)
    (hx' : x'.about = some p) (hp' : s'.parsers p = some parser') :
    At (native.handles s'.native) parser' x' := by
  have hquiet {parser : Parser T} (hp : s.parsers p = some parser) :
      Quiet (native.handles s.native) s p parser :=
    hc.quiet p parser hp (hc.nobody hown h hx hx')
  -- an idle parser that is open
  have hidle {parser : Parser T} (hp : s.parsers p = some parser) (hlive : parser.liveDoc = 0)
      (hne : parser.handle ≠ 0) : native.handles s.native parser.handle = some none := by
    have hstatus := (hquiet hp).status hne
    rwa [statusOf, if_pos hlive] at hstatus
  -- the parser of an open document
  have hbusy {d : Nat} {doc : Doc T} (hd : s.docs d = some doc) (hopen : doc.closed = false)
      (hparser : doc.parser = p) (hp : s.parsers p = some parser') :
      parser'.handle ≠ 0 ∧ native.handles s.native parser'.handle = some (some doc.handle) := by
    subst hparser
    have hhandle := (hc.openDoc d doc hd hopen).1
    obtain ⟨hmark, hsame⟩ := hc.holds.shared.2.marked ⟨hd, hc.alive hd hopen, Or.inl hopen⟩ hp
    have hne : parser'.handle ≠ 0 := fun hzero => hmark ((hquiet hp).zero hzero)
    have hstatus := (hquiet hp).status hne
    rw [statusOf, hsame hopen, if_neg hhandle] at hstatus
    exact ⟨hne, hstatus⟩
  cases h with
  | forget _ => exact absurd hx' hx
  | evict _ => exact absurd hx' hx
  | native _ _ => exact absurd (Place.about_resume hx') hx
  | parse data _ h₁ _ hgate =>
    cases hx'
    have hself := (State.setParser_parsers_self (s := s)).symm.trans hp'
    cases hself
    obtain ⟨hopen, hlive⟩ := Parser.parseGate_ok hgate
    have hne := hc.handle_ne h₁ hopen (Parser.parseGate_library hgate)
    have hstatus := hidle h₁ hlive hne
    exact ⟨fun status heq => by cases heq; exact ⟨hne, hstatus⟩, rfl⟩
  | close _ h₁ _ hgate =>
    cases hx'
    have hself := (State.setParser_parsers_self (s := s)).symm.trans hp'
    cases hself
    obtain ⟨hopen, hlive⟩ := Parser.closeGate_none hgate
    have hne := hc.handle_ne h₁ hopen (Parser.closeGate_library hgate)
    have hstatus := hidle h₁ hlive hne
    exact ⟨fun status heq => by cases heq; exact ⟨hne, hstatus⟩, rfl⟩
  | docClose _ hd _ hopen =>
    have hparser := Option.some.inj hx'
    exact ⟨fun status heq => by cases heq; exact hbusy hd hopen hparser hp', trivial⟩
  | finDocRead hd _ hopen =>
    have hparser := Option.some.inj hx'
    exact ⟨fun status heq => by cases heq; exact hbusy hd hopen hparser hp', trivial⟩
  | finParser hdead h₁ _ _ hleaked =>
    cases hx'
    have hself := (State.setParser_parsers_self (s := s)).symm.trans hp'
    cases hself
    -- nothing leads to it, so no document of it is open
    have hlive := not_not.mp fun hmark => by
      obtain ⟨d, doc, hopen⟩ := (hquiet h₁).doc hmark
      exact hdead.docs d doc hopen.found hopen.parser (hc.alive hopen.found hopen.closed)
    have hne := Parser.handle_of_leaked hleaked hlive
    have hstatus := hidle h₁ hlive hne
    exact ⟨fun status heq => by cases heq; exact ⟨hne, hstatus⟩, hlive⟩
  | _ => first | exact absurd hx' hx | cases hx'

/-! ## The handles -/

/-- Only a native call, which shows, changes what the native side has. -/
theorem Step.keeps_native {native : NativeSide ν} (h : Step native t s x a s' x') :
    (∃ call reply, a = .native call reply ∧ x.call = some call ∧
      native.answers call s.native reply s'.native ∧ x' = x.resume reply) ∨
    (∀ call reply, a ≠ .native call reply) ∧ s'.native = s.native := by
  cases h with
  | native hcall hanswer => exact Or.inl ⟨_, _, rfl, hcall, hanswer, rfl⟩
  | stop hstop => cases hstop <;> exact Or.inr ⟨(fun _ _ heq => by cases heq), rfl⟩
  | _ => exact Or.inr ⟨(fun _ _ heq => by cases heq), rfl⟩

theorem Place.new_of_call {call : NativeCall} (hcall : x.call = some call)
    (hx : x.about = none) : ∃ config pool, x = .new config pool := by
  cases x with
  | new config pool => exact ⟨config, pool, rfl⟩
  | _ => first | (cases hx; done) | cases hcall

theorem Grip.found (hknown : Known s) (h : Grip s t p x) : ∃ parser, s.parsers p = some parser := by
  cases h with
  | lock hlocked => exact ⟨_, hlocked.found⟩
  | doc hparser hmarks _ =>
    subst hparser
    exact hknown.parser _ _ hmarks.1
  | finalizer hfin _ => exact ⟨_, hfin.found⟩

/-- A goroutine at a parser is alone there. -/
theorem Agreement.alone (hc : Agreement native.handles ⟨s, own⟩) {t' : T}
    (h : (own t).about = some p) (h' : (own t').about = some p) : t' = t :=
  ((hc.holds.own t).grip h).unique hc.holds.shared.2 ((hc.holds.own t').grip h')

/-- The handles that someone has are live. -/
theorem Agreement.live (hc : Agreement native.handles ⟨s, own⟩) {handle : UInt64} {k : Nat ⊕ T}
    (h : Holder ⟨s, own⟩ handle k) : native.handles s.native handle ≠ none := by
  cases h with
  | @parser p parser hfound hhandle hne hexpects =>
    subst hhandle
    by_cases hquiet : ∀ t, (own t).about ≠ some p
    · rw [(hc.quiet p parser hfound hquiet).status hne]
      exact Option.some_ne_none _
    · obtain ⟨t, ht⟩ := not_forall.mp hquiet
      have habout := not_not.mp ht
      obtain ⟨status, hstatus⟩ := Option.ne_none_iff_exists'.mp (hexpects t habout)
      rw [((hc.at' t p parser habout hfound).status status hstatus).2]
      exact Option.some_ne_none _
  | made h =>
    rw [(hc.made _ _ _ _ h).2]
    exact Option.some_ne_none _

/-- A step changes no handle of anyone else. -/
theorem Agreement.handles_kept (hc : Agreement native.handles ⟨s, own⟩) (hown : own t = x)
    (h : Step native.toNativeSide t s x a s' x') {handle : UInt64} {k : Nat ⊕ T}
    (hk : Holder ⟨s, own⟩ handle k) (hne : ∀ p, x.about = some p → k ≠ .inl p) :
    native.handles s'.native handle = native.handles s.native handle := by
  rcases h.keeps_native with ⟨call, reply, _, hcall, hanswer, rfl⟩ | ⟨_, hsame⟩
  · have hstep := native.step hanswer
    cases habout : x.about with
    | none =>
      -- only a new parser is made then
      obtain ⟨config, pool, rfl⟩ := Place.new_of_call hcall habout
      cases hcall
      cases reply with
      | ok parser =>
        obtain ⟨_, hnew, hafter⟩ := hstep.new_spec
        rw [hafter]
        refine Function.update_of_ne ?_ _ _
        rintro rfl
        exact hc.live hk hnew
      | error rc => rw [hstep.failed_spec]
    | some p =>
      obtain ⟨parser, hp⟩ := ((hc.relies hown).grip habout).found hc.holds.shared.1
      have hthere : (own t).about = some p := (congrArg Place.about hown).trans habout
      have hat := hc.found_at hown habout hp
      obtain ⟨_, _, hother⟩ := hat.resume habout hc.separate hcall hstep
      refine hother handle fun heq => hne p habout ?_
      subst heq
      have hexpects := Place.expects_of_call hcall habout
      obtain ⟨status, hstatus⟩ := Option.ne_none_iff_exists'.mp hexpects
      refine hc.distinct _ _ _ hk (.parser hp rfl (hat.status status hstatus).1 fun t' ht' => ?_)
      cases hc.alone hthere ht'
      exact (congrArg Place.expects hown).trans_ne hexpects
  · rw [hsame]

theorem Agreement.possible_step (hc : Agreement native.handles ⟨s, own⟩) (hown : own t = x)
    (h : Step native.toNativeSide t s x a s' x') (d : Nat) (rc : ErrorCode) :
    x' ≠ .docFreeFailed d rc := by
  rintro rfl
  have hx : x ≠ .docFreeFailed d rc := hown ▸ hc.possible t d rc
  generalize hx' : Place.docFreeFailed d rc = x' at h
  cases h with
  | forget _ => exact hx hx'.symm
  | evict _ => exact hx hx'.symm
  | native hcall hanswer =>
    cases habout : x.about with
    | none =>
      obtain ⟨config, pool, rfl⟩ := Place.new_of_call hcall habout
      rename_i reply _
      cases reply <;> cases hx'
    | some p =>
      obtain ⟨parser, hp⟩ := ((hc.relies hown).grip habout).found hc.holds.shared.1
      have hat := hc.found_at hown habout hp
      obtain ⟨_, hafter, _⟩ := hat.resume habout hc.separate hcall (native.step hanswer)
      rw [← hx'] at hafter
      cases hafter
  | _ => cases hx'

variable [DecidableEq T]

/-- Who has a handle after a step has had it before, has just got it, or has just been made with
it. -/
theorem Agreement.holder_before (hc : Agreement native.handles ⟨s, own⟩) (hown : own t = x)
    (h : Step native.toNativeSide t s x a s' x') {handle : UInt64} {k : Nat ⊕ T}
    (hk : Holder ⟨s', Function.update own t x'⟩ handle k) :
    Holder ⟨s, own⟩ handle k ∨ k = .inr t ∧ native.handles s.native handle = none ∨
      (∃ config pool, x = .made handle config pool) ∧ x' = .idle ∧
        ∃ p, k = .inl p ∧ s.parsers p = none ∧ s'.parsers p ≠ none ∧
          ∀ p', s.parsers p' = none → s'.parsers p' ≠ none → p' = p := by
  have hother {t' : T} (hne : t' ≠ t) : Function.update own t x' t' = own t' :=
    Function.update_of_ne hne _ _
  have hmine : Function.update own t x' t = x' := Function.update_self ..
  cases hk with
  | @parser p parser' hfound hhandle hne hexpects =>
    subst hhandle
    by_cases habout : x.about = some p
    · -- the goroutine's own parser
      left
      obtain ⟨parser, hp⟩ := ((hc.relies hown).grip habout).found hc.holds.shared.1
      have hthere : (own t).about = some p := (congrArg Place.about hown).trans habout
      obtain ⟨hsame, hbefore⟩ := (hc.lands hown h habout hp hfound).handle hne fun hx' => by
        have hlater := hexpects t
        dsimp only at hlater
        rw [hmine] at hlater
        exact hlater hx'
      refine .parser hp hsame.symm hne fun t' ht' => ?_
      cases hc.alone hthere ht'
      exact (congrArg Place.expects hown).trans_ne hbefore
    · rcases h.same_record habout hfound with ⟨parser, hp, hrecord⟩ | ⟨hnone, _, _, hnew⟩
      · refine Or.inl (.parser hp hrecord.handle.symm hne fun t' ht' => ?_)
        by_cases heq : t' = t
        · subst heq
          exact absurd ((congrArg Place.about hown).symm.trans ht') habout
        · have hlater := hexpects t'
          dsimp only at hlater ht' ⊢
          rw [hother heq] at hlater
          exact hlater ht'
      · rcases hnew with ⟨_, hzero⟩ | ⟨_, config, pool, rfl⟩
        · exact absurd hzero hne
        · obtain ⟨hidle, hone⟩ := h.made_spec hnone hfound
          have hsome : s'.parsers p ≠ none := by
            rw [hfound]
            exact Option.some_ne_none _
          exact Or.inr (Or.inr ⟨⟨config, pool, rfl⟩, hidle, p, rfl, hnone, hsome, hone⟩)
  | @made t' config pool hmade =>
    dsimp only at hmade
    by_cases heq : t' = t
    · subst heq
      rw [hmine] at hmade
      subst hmade
      rcases h.comes_made with hx | ⟨rfl, hanswer⟩
      · exact Or.inl (.made (hown.trans hx))
      · exact Or.inr (Or.inl ⟨rfl, (native.step hanswer).new_spec.2.1⟩)
    · rw [hother heq] at hmade
      exact Or.inl (.made hmade)

/-! ## Every step -/

theorem Agreement.openDoc_step (hc : Agreement native.handles ⟨s, own⟩) (hown : own t = x)
    (h : Step native.toNativeSide t s x a s' x') {d : Nat} {doc' : Doc T}
    (hd : s'.docs d = some doc') (hopen : doc'.closed = false) : doc'.handle ≠ 0 ∧
      (doc'.finalizer = .cleared → ∃ t', (Function.update own t x' t').closing = some d) := by
  -- a document that is as it was
  have hkeep (hbefore : s.docs d = some doc') (hx : x.closing = some d → x'.closing = some d) :
      doc'.handle ≠ 0 ∧
        (doc'.finalizer = .cleared → ∃ t', (Function.update own t x' t').closing = some d) := by
    obtain ⟨hne, hclosing⟩ := hc.openDoc d doc' hbefore hopen
    refine ⟨hne, fun hfin => ?_⟩
    obtain ⟨t', ht'⟩ := hclosing hfin
    dsimp only at ht'
    refine ⟨t', ?_⟩
    by_cases heq : t' = t
    · subst heq
      rw [Function.update_self]
      exact hx (hown ▸ ht')
    · rw [Function.update_of_ne heq]
      exact ht'
  -- the document that the step writes, and the others
  have hset {d₁ : Nat} {doc₁ doc₂ : Doc T} (h₁ : s.docs d₁ = some doc₁)
      (hdocs : s'.docs = (s.setDoc d₁ doc₂).docs)
      (hself : doc₂.closed = false → doc₁.closed = false ∧ doc₂.handle = doc₁.handle ∧
        (doc₁.handle ≠ 0 → doc₂.finalizer = .cleared → x'.closing = some d₁))
      (hx : ∀ d, x.closing = some d → d = d₁) : doc'.handle ≠ 0 ∧
        (doc'.finalizer = .cleared → ∃ t', (Function.update own t x' t').closing = some d) := by
    rw [hdocs] at hd
    by_cases hdd : d = d₁
    · subst hdd
      rw [State.setDoc_docs_self] at hd
      cases hd
      obtain ⟨hbefore, hhandle, hclosing⟩ := hself hopen
      have hne := (hc.openDoc d doc₁ h₁ hbefore).1
      refine ⟨hhandle ▸ hne, fun hfin => ⟨t, ?_⟩⟩
      rw [Function.update_self]
      exact hclosing hne hfin
    · rw [State.setDoc_docs_of_ne hdd] at hd
      exact hkeep hd fun hclosing => absurd (hx d hclosing) hdd
  have hrelies := hc.relies hown
  cases h with
  | forget _ => exact hkeep hd id
  | evict _ => exact hkeep hd id
  | @native _ _ reply _ hcall hanswer =>
    refine hkeep hd fun hclosing => ?_
    have hpossible := hc.possible_step hown (.native hcall hanswer)
    cases x with
    | docFree d₁ handle p₁ =>
      cases reply with
      | ok _ => exact hclosing
      | error rc => exact absurd rfl (hpossible d₁ rc)
    | docFreed d₁ handle p₁ => cases hcall
    | _ => cases hclosing
  | @publish p₁ d₁ parser₁ handle _ hnone =>
    by_cases hdd : d = d₁
    · subst hdd
      have hself := (State.setDoc_docs_self (s := s)).symm.trans hd
      cases hself
      exact ⟨hrelies.1, fun hfin => by cases hfin⟩
    · exact hkeep ((State.setDoc_docs_of_ne (s := s) hdd).symm.trans hd) id
  | docClose _ h₁ _ hfound =>
    exact hset h₁ rfl (fun _ => ⟨hfound, rfl, fun _ _ => rfl⟩) fun d hx => by cases hx
  | docFreed h₁ =>
    exact hset h₁ rfl (fun hclosed => by cases hclosed) fun d hx => (Option.some.inj hx).symm
  | docFreeFailed _ => exact absurd hown (hc.possible t _ _)
  | clear h₁ _ _ =>
    obtain ⟨doc₁, hclearing, _⟩ := hrelies
    cases h₁.symm.trans hclearing.found
    refine hset h₁ rfl (fun hclosed => ?_) fun d hx => by cases hx
    cases hclosed.symm.trans hclearing.closed
  | @finDocIdle d₁ doc₁ _ h₁ _ _ hleaked =>
    refine hset h₁ rfl (fun hclosed => ⟨hclosed, rfl, fun hne _ => ?_⟩) fun d hx => by cases hx
    -- an open document with a handle would be freed
    rw [Doc.hasLeakedState, show doc₁.closed = false from hclosed, bne_iff_ne.mpr hne] at hleaked
    cases hleaked
  | finDoc _ h₁ _ _ _ =>
    exact hset h₁ rfl (fun hclosed => ⟨hclosed, rfl, fun _ hfin => by cases hfin⟩)
      fun d hx => by cases hx
  | finDocClosed h₁ _ hfound =>
    refine hset h₁ rfl (fun hclosed => ?_) fun d hx => by cases hx
    cases hfound.symm.trans hclosed
  | finDocKept h₁ _ =>
    obtain ⟨parser, hp⟩ := (hrelies.grip rfl).found hc.holds.shared.1
    cases (hc.found_at hown rfl hp).fits
  | finDocFreed h₁ _ =>
    exact hset h₁ rfl (fun hclosed => by cases hclosed) fun d hx => by cases hx
  | finClear h₁ _ _ =>
    obtain ⟨doc₁, _, hclearing⟩ := hrelies
    cases h₁.symm.trans hclearing.found
    refine hset h₁ rfl (fun hclosed => ?_) fun d hx => by cases hx
    cases hclosed.symm.trans hclearing.closed
  | _ => exact hkeep hd fun hclosing => by cases hclosing

theorem Agreement.clearing_step (hc : Agreement native.handles ⟨s, own⟩) (hown : own t = x)
    (h : Step native.toNativeSide t s x a s' x') {d : Nat} {doc' : Doc T} {t' : T}
    (hd : s'.docs d = some doc') (hclearing : doc'.clearing = some t') :
    (Function.update own t x' t').clears = some d := by
  have hkeep (hbefore : s.docs d = some doc') (hx : x.clears = some d → x'.clears = some d) :
      (Function.update own t x' t').clears = some d := by
    have hclears := hc.clearing d doc' t' hbefore hclearing
    dsimp only at hclears
    by_cases heq : t' = t
    · subst heq
      rw [Function.update_self]
      exact hx (hown ▸ hclears)
    · rw [Function.update_of_ne heq]
      exact hclears
  have hset {d₁ : Nat} {doc₁ doc₂ : Doc T} (h₁ : s.docs d₁ = some doc₁)
      (hdocs : s'.docs = (s.setDoc d₁ doc₂).docs)
      (hself : doc₂.clearing = doc₁.clearing ∧ x.clears = none ∨ doc₂.clearing = none ∨
        doc₂.clearing = some t ∧ x'.clears = some d₁)
      (hx : ∀ d, x.clears = some d → d = d₁) : (Function.update own t x' t').clears = some d := by
    rw [hdocs] at hd
    by_cases hdd : d = d₁
    · subst hdd
      rw [State.setDoc_docs_self] at hd
      cases hd
      rcases hself with ⟨hsame, hnone⟩ | hnone | ⟨hmine, hclears⟩
      · have hother := hc.clearing d doc₁ t' h₁ (hsame.symm.trans hclearing)
        dsimp only at hother
        have hne : t' ≠ t := by
          rintro rfl
          rw [hown, hnone] at hother
          cases hother
        rw [Function.update_of_ne hne]
        exact hother
      · cases hnone.symm.trans hclearing
      · cases hmine.symm.trans hclearing
        rw [Function.update_self]
        exact hclears
    · rw [State.setDoc_docs_of_ne hdd] at hd
      exact hkeep hd fun hclears => absurd (hx d hclears) hdd
  cases h with
  | forget _ => exact hkeep hd id
  | evict _ => exact hkeep hd id
  | native hcall _ =>
    refine hkeep hd fun hclears => ?_
    cases x with
    | clear _ _ _ => cases hcall
    | finClear _ _ _ => cases hcall
    | _ => cases hclears
  | @publish p₁ d₁ parser₁ handle _ hnone =>
    by_cases hdd : d = d₁
    · subst hdd
      have hself := (State.setDoc_docs_self (s := s)).symm.trans hd
      cases hself
      cases hclearing
    · exact hkeep ((State.setDoc_docs_of_ne (s := s) hdd).symm.trans hd) fun hx => by cases hx
  | docClose _ h₁ _ _ => exact hset h₁ rfl (Or.inl ⟨rfl, rfl⟩) fun d hx => by cases hx
  | docFreed h₁ => exact hset h₁ rfl (Or.inr (Or.inr ⟨rfl, rfl⟩)) fun d hx => by cases hx
  | docFreeFailed h₁ => exact hset h₁ rfl (Or.inl ⟨rfl, rfl⟩) fun d hx => by cases hx
  | clear h₁ _ _ => exact hset h₁ rfl (Or.inr (Or.inl rfl)) fun d hx => (Option.some.inj hx).symm
  | finDocIdle _ h₁ _ _ _ => exact hset h₁ rfl (Or.inl ⟨rfl, rfl⟩) fun d hx => by cases hx
  | finDoc _ h₁ _ _ _ => exact hset h₁ rfl (Or.inl ⟨rfl, rfl⟩) fun d hx => by cases hx
  | finDocClosed h₁ _ _ => exact hset h₁ rfl (Or.inl ⟨rfl, rfl⟩) fun d hx => by cases hx
  | finDocKept h₁ _ => exact hset h₁ rfl (Or.inl ⟨rfl, rfl⟩) fun d hx => by cases hx
  | finDocFreed h₁ _ => exact hset h₁ rfl (Or.inr (Or.inr ⟨rfl, rfl⟩)) fun d hx => by cases hx
  | finClear h₁ _ _ =>
    exact hset h₁ rfl (Or.inr (Or.inl rfl)) fun d hx => (Option.some.inj hx).symm
  | _ => exact hkeep hd fun hclears => by cases hclears

theorem Agreement.at_step (hc : Agreement native.handles ⟨s, own⟩) (hown : own t = x)
    (h : Step native.toNativeSide t s x a s' x') {t' : T}
    (habout : (Function.update own t x' t').about = some p) (hp' : s'.parsers p = some parser') :
    At (native.handles s'.native) parser' (Function.update own t x' t') := by
  by_cases heq : t' = t
  · subst heq
    rw [Function.update_self] at habout ⊢
    by_cases hx : x.about = some p
    · obtain ⟨parser, hp⟩ := ((hc.relies hown).grip hx).found hc.holds.shared.1
      exact (hc.lands hown h hx hp hp').at' habout
    · exact hc.arrives hown h hx habout hp'
  · rw [Function.update_of_ne heq] at habout ⊢
    have hx : x.about ≠ some p := fun hx =>
      heq (hc.alone ((congrArg Place.about hown).trans hx) habout)
    obtain ⟨parser₁, hp₁⟩ := ((hc.holds.own t').grip habout).found hc.holds.shared.1
    rcases h.same_record hx hp' with ⟨parser, hp, hrecord⟩ | ⟨hnone, _⟩
    · have hat := hc.found_at rfl habout hp
      refine hat.same hrecord fun hexpects => ?_
      obtain ⟨status, hstatus⟩ := Option.ne_none_iff_exists'.mp hexpects
      refine hc.handles_kept hown h
        (.parser hp rfl (hat.status status hstatus).1 fun t'' ht'' => ?_)
        fun p' hp' heq => hx (hp'.trans ?_)
      · cases hc.alone habout ht''
        exact hexpects
      · cases heq
        rfl
    · cases hnone.symm.trans hp₁

theorem Agreement.quiet_step (hc : Agreement native.handles ⟨s, own⟩) (hown : own t = x)
    (h : Step native.toNativeSide t s x a s' x') (hp' : s'.parsers p = some parser')
    (hquiet : ∀ t', (Function.update own t x' t').about ≠ some p) :
    Quiet (native.handles s'.native) s' p parser' := by
  by_cases hx : x.about = some p
  · obtain ⟨parser, hp⟩ := ((hc.relies hown).grip hx).found hc.holds.shared.1
    refine (hc.lands hown h hx hp hp').quiet fun hx' => hquiet t ?_
    rw [Function.update_self]
    exact hx'
  · have hnobody (t' : T) : (own t').about ≠ some p := by
      by_cases heq : t' = t
      · subst heq
        rw [hown]
        exact hx
      · have hlater := hquiet t'
        rwa [Function.update_of_ne heq] at hlater
    rcases h.same_record hx hp' with ⟨parser, hp, hrecord⟩ | ⟨hnone, hlive, _, hnew⟩
    · have hbefore := hc.quiet p parser hp hnobody
      refine ⟨?_, fun hne => ?_, fun hlive => ?_⟩
      · rw [hrecord.handle, hrecord.liveDoc]
        exact hbefore.zero
      · rw [hrecord.handle] at hne ⊢
        rw [hrecord.liveDoc, hc.handles_kept hown h
          (.parser hp rfl hne fun t' ht' => absurd ht' (hnobody t')) fun p' hx' heq => ?_]
        · exact hbefore.status hne
        · cases heq
          exact hx hx'
      · rw [hrecord.liveDoc] at hlive ⊢
        obtain ⟨d, doc, hopen⟩ := hbefore.doc hlive
        exact ⟨d, h.open_stays (hc.relies hown) hx hopen⟩
    · refine .of_idle hlive fun hne => ?_
      rcases hnew with ⟨_, hzero⟩ | ⟨_, config, pool, rfl⟩
      · exact absurd hzero hne
      · rw [hc.handles_kept hown h (.made hown) fun p' hx' => by cases hx']
        exact (hc.made t _ _ _ hown).2

/-- **Every step keeps the agreement.** -/
theorem Agreement.step (hc : Agreement native.handles ⟨s, own⟩)
    (h : Step native.toNativeSide t s (own t) a s' x') :
    Agreement native.handles ⟨s', Function.update own t x'⟩ where
  holds := (outline native.toNativeSide).move hc.holds (.move h)
  possible t' d rc := by
    by_cases heq : t' = t
    · subst heq
      dsimp only
      rw [Function.update_self]
      exact hc.possible_step rfl h d rc
    · dsimp only
      rw [Function.update_of_ne heq]
      exact hc.possible t' d rc
  noHandle p parser' hp' := by
    by_cases hx : (own t).about = some p
    · obtain ⟨parser, hp⟩ := ((hc.relies rfl).grip hx).found hc.holds.shared.1
      exact (hc.lands rfl h hx hp hp').noHandle
    · rcases h.same_record hx hp' with ⟨parser, hp, hrecord⟩ | ⟨_, _, hopen, hnew⟩
      · rw [hrecord.handle, hrecord.closed, hrecord.library]
        exact hc.noHandle p parser hp
      · rcases hnew with ⟨hnone, hzero⟩ | ⟨hsome, config, pool, hmade⟩
        · exact ⟨fun _ => Or.inr hnone, fun _ => hzero⟩
        · refine ⟨fun hzero => absurd hzero (hc.made t _ _ _ hmade).1, ?_⟩
          rintro (hclosed | hnone)
          · cases hopen.symm.trans hclosed
          · exact absurd hnone hsome
  openDoc _ _ hd hopen := hc.openDoc_step rfl h hd hopen
  clearing _ _ _ hd hclearing := hc.clearing_step rfl h hd hclearing
  at' _ _ _ habout hp' := hc.at_step rfl h habout hp'
  quiet _ _ hp' hquiet := hc.quiet_step rfl h hp' hquiet
  made t' handle config pool hmade := by
    have hkept {t' : T} (hbefore : own t' = .made handle config pool) :
        handle ≠ 0 ∧ native.handles s'.native handle = some none := by
      obtain ⟨hne, hidle⟩ := hc.made t' handle config pool hbefore
      refine ⟨hne, ?_⟩
      rw [hc.handles_kept rfl h (.made hbefore) fun p hx heq => by cases heq]
      exact hidle
    dsimp only at hmade
    by_cases heq : t' = t
    · subst heq
      rw [Function.update_self] at hmade
      subst hmade
      rcases h.comes_made with hbefore | ⟨_, hanswer⟩
      · exact hkept hbefore
      · obtain ⟨hne, _, hafter⟩ := (native.step hanswer).new_spec
        dsimp only
        rw [hafter, Function.update_self]
        exact ⟨hne, rfl⟩
    · rw [Function.update_of_ne heq] at hmade
      exact hkept hmade
  distinct handle k k' hk hk' := by
    -- a goroutine that has turned its handle into a parser has it no longer
    have hgone {k : Nat ⊕ T} (hmade : ∃ config pool, own t = .made handle config pool)
        (hidle : x' = .idle) (hafter : Holder ⟨s', Function.update own t x'⟩ handle k) :
        ¬ Holder ⟨s, own⟩ handle k := by
      intro hbefore
      obtain ⟨config, pool, hmade⟩ := hmade
      cases hc.distinct _ _ _ hbefore (.made hmade)
      cases hafter with
      | made hlater =>
        dsimp only at hlater
        rw [Function.update_self, hidle] at hlater
        cases hlater
    have hlive (hmade : ∃ config pool, own t = .made handle config pool) :
        native.handles s.native handle ≠ none := by
      obtain ⟨config, pool, hmade⟩ := hmade
      exact hc.live (.made hmade)
    rcases hc.holder_before rfl h hk with hb | ⟨rfl, hnone⟩ | ⟨hmade, hidle, p, rfl, hp, _, hone⟩
    · rcases hc.holder_before rfl h hk' with hb' | ⟨rfl, hnone'⟩ | ⟨hmade, hidle, _⟩
      · exact hc.distinct _ _ _ hb hb'
      · exact absurd hnone' (hc.live hb)
      · exact absurd hb (hgone hmade hidle hk)
    · rcases hc.holder_before rfl h hk' with hb' | ⟨rfl, _⟩ | ⟨hmade, _⟩
      · exact absurd hnone (hc.live hb')
      · rfl
      · exact absurd hnone (hlive hmade)
    · rcases hc.holder_before rfl h hk' with hb' | ⟨_, hnone'⟩ | ⟨_, _, p', rfl, hp', hsome', _⟩
      · exact absurd hb' (hgone hmade hidle hk')
      · exact absurd hnone' (hlive hmade)
      · rw [hone p' hp' hsome']
  separate := by
    rcases h.keeps_native with ⟨call, reply, _, _, hanswer, _⟩ | ⟨_, hsame⟩
    · exact (native.step hanswer).separate hc.separate
    · dsimp only
      rw [hsame]
      exact hc.separate

omit [DecidableEq T] in
theorem Agreement.start {w : ν} (h : (native.handles w).Separate) :
    Agreement native.handles (⟨.start w, fun _ => .idle⟩ : Config T _ _) where
  holds := holds_start w
  possible _ _ _ heq := by cases heq
  noHandle _ _ hp := by cases hp
  openDoc _ _ hd := by cases hd
  clearing _ _ _ hd := by cases hd
  at' _ _ _ habout := by cases habout
  quiet _ _ hp := by cases hp
  made _ _ _ _ heq := by cases heq
  distinct _ _ _ hk := by
    cases hk with
    | parser hfound _ _ _ => cases hfound
    | made heq => cases heq
  separate := h

end

end PureSimdjson.Wrappers
