import PureSimdjson.Wrappers

/-!
# What the wrappers rely on

Whatever the native side answers, a parser's mark stands for one document that is not closed or
whose closer has yet to clear it; what a goroutine has locked, is about to clear or finalizes is
left alone by the others.
-/
namespace PureSimdjson.Wrappers

open Runs Threads

variable {T ν : Type}

/-! ## Gates -/

theorem Parser.parseGate_ok {parser : Parser T} (h : parser.parseGate = .ok ()) :
    parser.closed = false ∧ parser.liveDoc = 0 := by
  rw [parseGate] at h
  split at h
  · cases h
  split at h
  · cases h
  next hclosed =>
  split at h
  · cases h
  next hbusy => exact ⟨Bool.eq_false_of_not_eq_true hclosed, not_not.mp hbusy⟩

theorem Parser.closeGate_none {parser : Parser T} (h : parser.closeGate = none) :
    parser.closed = false ∧ parser.liveDoc = 0 := by
  rw [closeGate] at h
  split at h
  · cases h
  split at h
  · cases h
  next hclosed =>
  split at h
  · cases h
  next hbusy => exact ⟨Bool.eq_false_of_not_eq_true hclosed, not_not.mp hbusy⟩

theorem putGate_ok {config : ParserConfig} {parser : Parser T}
    (h : putGate config parser = .ok ()) :
    parser.closed = false ∧ parser.liveDoc = 0 ∧ parser.config = config := by
  rw [putGate] at h
  split at h
  · cases h
  next hclosed =>
  split at h
  · cases h
  next hbusy =>
  split at h
  · cases h
  next hconfig =>
    exact ⟨Bool.eq_false_of_not_eq_true hclosed, not_not.mp hbusy, not_not.mp hconfig⟩

@[simp] theorem Parser.clearLiveDoc_config (doc : UInt64) (parser : Parser T) :
    (parser.clearLiveDoc doc).config = parser.config := by
  rw [clearLiveDoc]
  split <;> rfl

@[simp] theorem Parser.clearLiveDoc_closed (doc : UInt64) (parser : Parser T) :
    (parser.clearLiveDoc doc).closed = parser.closed := by
  rw [clearLiveDoc]
  split <;> rfl

@[simp] theorem Parser.finalized_config (docFreed parserFreed : Bool) (parser : Parser T) :
    (parser.finalized docFreed parserFreed).config = parser.config := by
  unfold finalized
  dsimp only
  split_ifs <;> rfl

/-! ## Updates -/

section
variable {s : State T ν} {p p' d d' : Nat} {parser : Parser T} {doc : Doc T}

@[simp] theorem State.setParser_parsers_self :
    (s.setParser p parser).parsers p = some parser := Function.update_self ..

theorem State.setParser_parsers_of_ne (h : p' ≠ p) :
    (s.setParser p parser).parsers p' = s.parsers p' := Function.update_of_ne h ..

@[simp] theorem State.setDoc_docs_self : (s.setDoc d doc).docs d = some doc :=
  Function.update_self ..

theorem State.setDoc_docs_of_ne (h : d' ≠ d) : (s.setDoc d doc).docs d' = s.docs d' :=
  Function.update_of_ne h ..

@[simp] theorem State.setParser_docs : (s.setParser p parser).docs = s.docs := rfl
@[simp] theorem State.setDoc_parsers : (s.setDoc d doc).parsers = s.parsers := rfl

end

/-! ## Places -/

/-- The goroutine has the lock of an idle parser. -/
structure Locked (s : State T ν) (t : T) (p : Nat) (parser : Parser T) : Prop where
  found : s.parsers p = some parser
  mu : parser.mu = some t
  closed : parser.closed = false
  liveDoc : parser.liveDoc = 0
  ref : s.refs t (.parser p)

/-- The goroutine has the lock of a document it closes. -/
structure Closing (s : State T ν) (t : T) (d : Nat) (handle : UInt64) (p : Nat) (doc : Doc T) :
    Prop where
  found : s.docs d = some doc
  mu : doc.mu = some t
  closed : doc.closed = false
  handle : doc.handle = handle
  parser : doc.parser = p
  ref : s.refs t (.doc d)

/-- The goroutine is about to clear the mark of a document it has closed. -/
structure Clearing (s : State T ν) (t : T) (d : Nat) (handle : UInt64) (p : Nat) (doc : Doc T) :
    Prop where
  found : s.docs d = some doc
  closed : doc.closed = true
  clearing : doc.clearing = some t
  parser : doc.parser = p
  marked : ∃ parser, s.parsers p = some parser ∧ parser.liveDoc = handle

/-- The goroutine runs the finalizer of a document. -/
structure Finalizing (s : State T ν) (t : T) (d : Nat) (doc : Doc T) : Prop where
  found : s.docs d = some doc
  finalizer : doc.finalizer = .running t
  ref : ∀ t', ¬ s.refs t' (.doc d)

/-- The goroutine runs the finalizer of a parser. -/
structure FinalizingParser (s : State T ν) (t : T) (p : Nat) (parser : Parser T) : Prop where
  found : s.parsers p = some parser
  finalizer : parser.finalizer = .running t
  dead : s.Unreachable p

/-- What a goroutine relies on where it is. -/
def Relies (t : T) (s : State T ν) : Place → Prop
  | .new config pool | .made _ config pool => ∀ q, pool = some q → s.pools q = some config
  | .root p doc | .publish p doc => doc ≠ 0 ∧ ∃ parser, Locked s t p parser
  | .parse p _ _ | .rollback p _ _ | .unlock p _ | .free p _ | .freed p | .freeFailed p _ =>
      ∃ parser, Locked s t p parser
  | .docFree d handle p | .docFreed d handle p => ∃ doc, Closing s t d handle p doc
  | .docFreeFailed d _ => ∃ handle p doc, Closing s t d handle p doc
  | .clear d handle p => ∃ doc, Clearing s t d handle p doc ∧ s.refs t (.doc d)
  | .finDoc d => ∃ doc, Finalizing s t d doc
  | .finDocFree d handle p | .finDocCommit d handle p _ => ∃ doc, Finalizing s t d doc ∧
      doc.closed = false ∧ doc.handle = handle ∧ doc.parser = p
  | .finClear d handle p => ∃ doc, Finalizing s t d doc ∧ Clearing s t d handle p doc
  | .finParser p | .finParserDoc p _ _ | .finParserFree p _ _ | .finParserCommit p _ _ =>
      ∃ parser, FinalizingParser s t p parser
  | _ => True

/-! ## Others leave it alone -/

section
variable {native : NativeSide ν} {s s' : State T ν} {t t' : T} {x x' : Place} {a : Action}

theorem Step.refs_of_ne (h : Step native t s x a s' x') (hne : t' ≠ t) {o : Ref}
    (href : s.refs t' o) : s'.refs t' o := by
  cases h with
  | share t'' _ => exact Or.inl href
  | forget _ => exact ⟨href, fun heq => hne heq.1⟩
  | zeroParser _ => exact Or.inl href
  | made library _ => exact Or.inl href
  | get _ => exact Or.inl href
  | publish _ _ => exact Or.inl href
  | _ => exact href

/-- Only those who have a parser's lock, or find it free, change the parser. -/
theorem Step.parsers_of_locked (h : Step native t s x a s' x') (hx : Relies t s x) {p : Nat}
    {parser : Parser T} (hp : s.parsers p = some parser) (hmu : parser.mu = some t')
    (hne : t' ≠ t) : s'.parsers p = some parser := by
  -- a parser another goroutine has locked is not the one that changes
  have hfree {p₁ : Nat} {parser₁ : Parser T} (h₁ : s.parsers p₁ = some parser₁)
      (hmu₁ : parser₁.mu = none) : p ≠ p₁ := by
    rintro rfl
    cases hp.symm.trans h₁
    rw [hmu] at hmu₁
    cases hmu₁
  have hmine {p₁ : Nat} (h₁ : ∃ parser₁, Locked s t p₁ parser₁) : p ≠ p₁ := by
    rintro rfl
    obtain ⟨parser₁, hlocked⟩ := h₁
    cases hp.symm.trans hlocked.found
    exact hne (Option.some.inj (hmu.symm.trans hlocked.mu))
  have hnew {p₁ : Nat} (h₁ : s.parsers p₁ = none) : p ≠ p₁ := by
    rintro rfl
    cases hp.symm.trans h₁
  cases h with
  | zeroParser h₁ => exact (State.setParser_parsers_of_ne (hnew h₁)).trans hp
  | made library h₁ => exact (State.setParser_parsers_of_ne (hnew h₁)).trans hp
  | parse data _ h₁ hmu₁ _ => exact (State.setParser_parsers_of_ne (hfree h₁ hmu₁)).trans hp
  | publish h₁ _ => exact (State.setParser_parsers_of_ne (hmine hx.2)).trans hp
  | unlock h₁ => exact (State.setParser_parsers_of_ne (hmine hx)).trans hp
  | close _ h₁ hmu₁ _ => exact (State.setParser_parsers_of_ne (hfree h₁ hmu₁)).trans hp
  | freed h₁ => exact (State.setParser_parsers_of_ne (hmine hx)).trans hp
  | freeFailed h₁ => exact (State.setParser_parsers_of_ne (hmine hx)).trans hp
  | clear _ h₁ hmu₁ => exact (State.setParser_parsers_of_ne (hfree h₁ hmu₁)).trans hp
  | finClear _ h₁ hmu₁ => exact (State.setParser_parsers_of_ne (hfree h₁ hmu₁)).trans hp
  | finParserIdle _ h₁ hmu₁ _ _ =>
    exact (State.setParser_parsers_of_ne (hfree h₁ hmu₁)).trans hp
  | finParser _ h₁ hmu₁ _ _ => exact (State.setParser_parsers_of_ne (hfree h₁ hmu₁)).trans hp
  | finParserClosed h₁ hmu₁ _ => exact (State.setParser_parsers_of_ne (hfree h₁ hmu₁)).trans hp
  | finParserCommit h₁ hmu₁ => exact (State.setParser_parsers_of_ne (hfree h₁ hmu₁)).trans hp
  | _ => exact hp

/-- A goroutine that has a document to itself. -/
def State.Has (s : State T ν) (t : T) (d : Nat) (doc : Doc T) : Prop :=
  s.refs t (.doc d) ∧
      (doc.closed = false ∧ doc.mu = some t ∨ doc.closed = true ∧ doc.clearing = some t) ∨
    (∀ t', ¬ s.refs t' (.doc d)) ∧ doc.finalizer = .running t

theorem Closing.has {d p : Nat} {handle : UInt64} {doc : Doc T}
    (h : Closing s t d handle p doc) : s.Has t d doc := Or.inl ⟨h.ref, Or.inl ⟨h.closed, h.mu⟩⟩

theorem Clearing.has {d p : Nat} {handle : UInt64} {doc : Doc T}
    (h : Clearing s t d handle p doc) (href : s.refs t (.doc d)) : s.Has t d doc :=
  Or.inl ⟨href, Or.inr ⟨h.closed, h.clearing⟩⟩

theorem Finalizing.has {d : Nat} {doc : Doc T} (h : Finalizing s t d doc) : s.Has t d doc :=
  Or.inr ⟨h.ref, h.finalizer⟩

/-- Only one goroutine has a document to itself. -/
theorem State.Has.unique {d : Nat} {doc : Doc T} (h : s.Has t d doc) (h' : s.Has t' d doc) :
    t' = t := by
  rcases h with ⟨href, ⟨hclosed, hmu⟩ | ⟨hclosed, hclearing⟩⟩ | ⟨href, hfin⟩
  · rcases h' with ⟨_, ⟨_, hmu'⟩ | ⟨hclosed', _⟩⟩ | ⟨href', _⟩
    · exact Option.some.inj (hmu'.symm.trans hmu)
    · cases hclosed.symm.trans hclosed'
    · exact absurd href (href' t)
  · rcases h' with ⟨_, ⟨hclosed', _⟩ | ⟨_, hclearing'⟩⟩ | ⟨href', _⟩
    · cases hclosed.symm.trans hclosed'
    · exact Option.some.inj (hclearing'.symm.trans hclearing)
    · exact absurd href (href' t)
  · rcases h' with ⟨href', _⟩ | ⟨_, hfin'⟩
    · exact absurd href' (href t')
    · cases hfin.symm.trans hfin'
      rfl

/-- A goroutine that can change a document: it has it to itself, or can lock or finalize it. -/
def State.Touches (s : State T ν) (t : T) (d : Nat) (doc : Doc T) : Prop :=
  s.Has t d doc ∨ s.refs t (.doc d) ∧ doc.closed = false ∧ doc.mu = none ∨
    (∀ t', ¬ s.refs t' (.doc d)) ∧ doc.finalizer = .attached

theorem Step.docs_of_untouched (h : Step native t s x a s' x') (hx : Relies t s x) {d : Nat}
    {doc : Doc T} (hd : s.docs d = some doc) (huntouched : ¬ s.Touches t d doc) :
    s'.docs d = some doc := by
  have hne {d₁ : Nat} {doc₁ : Doc T} (h₁ : s.docs d₁ = some doc₁)
      (htouches : s.Touches t d₁ doc₁) : d ≠ d₁ := by
    rintro rfl
    cases hd.symm.trans h₁
    exact huntouched htouches
  cases h with
  | @publish _ d₁ _ _ _ h₁ =>
    have hnew : d ≠ d₁ := by
      rintro rfl
      cases hd.symm.trans h₁
    exact (State.setDoc_docs_of_ne hnew).trans hd
  | docClose href h₁ hmu hopen =>
    exact (State.setDoc_docs_of_ne (hne h₁ (Or.inr (Or.inl ⟨href, hopen, hmu⟩)))).trans hd
  | docFreed _ =>
    obtain ⟨doc₁, hclosing⟩ := hx
    exact (State.setDoc_docs_of_ne (hne hclosing.found (Or.inl hclosing.has))).trans hd
  | docFreeFailed _ =>
    obtain ⟨handle, p, doc₁, hclosing⟩ := hx
    exact (State.setDoc_docs_of_ne (hne hclosing.found (Or.inl hclosing.has))).trans hd
  | clear _ _ _ =>
    obtain ⟨doc₁, hclearing, href⟩ := hx
    exact (State.setDoc_docs_of_ne
      (hne hclearing.found (Or.inl (hclearing.has href)))).trans hd
  | finDocIdle href h₁ _ hfin _ =>
    exact (State.setDoc_docs_of_ne (hne h₁ (Or.inr (Or.inr ⟨href, hfin⟩)))).trans hd
  | finDoc href h₁ _ hfin _ =>
    exact (State.setDoc_docs_of_ne (hne h₁ (Or.inr (Or.inr ⟨href, hfin⟩)))).trans hd
  | finDocClosed _ _ _ =>
    obtain ⟨doc₁, hfin⟩ := hx
    exact (State.setDoc_docs_of_ne (hne hfin.found (Or.inl hfin.has))).trans hd
  | finDocKept _ _ =>
    obtain ⟨doc₁, hfin, _⟩ := hx
    exact (State.setDoc_docs_of_ne (hne hfin.found (Or.inl hfin.has))).trans hd
  | finDocFreed _ _ =>
    obtain ⟨doc₁, hfin, _⟩ := hx
    exact (State.setDoc_docs_of_ne (hne hfin.found (Or.inl hfin.has))).trans hd
  | finClear _ _ _ =>
    obtain ⟨doc₁, hfin, _⟩ := hx
    exact (State.setDoc_docs_of_ne (hne hfin.found (Or.inl hfin.has))).trans hd
  | _ => exact hd

/-- Others leave a document alone that a goroutine has to itself. -/
theorem State.Has.untouched {d : Nat} {doc : Doc T} (h : s.Has t' d doc) (hne : t' ≠ t) :
    ¬ s.Touches t d doc := by
  rintro (hhas | ⟨href, hopen, hmu⟩ | ⟨href, hfin⟩)
  · exact hne (hhas.unique h)
  · rcases h with ⟨_, ⟨_, hmu'⟩ | ⟨hclosed, _⟩⟩ | ⟨hnone, _⟩
    · cases hmu.symm.trans hmu'
    · cases hopen.symm.trans hclosed
    · exact hnone t href
  · rcases h with ⟨href', _⟩ | ⟨_, hfin'⟩
    · exact href t' href'
    · cases hfin.symm.trans hfin'

/-! ## What nobody reaches -/

/-- Nobody gets hold of what nobody reaches. -/
theorem Step.no_refs (h : Step native t s x a s' x') {o : Ref}
    (hknown : ∀ p, o = .parser p → s.parsers p ≠ none ∧ ∀ q, (q, p) ∉ s.stored)
    (hdoc : ∀ d, o = .doc d → s.docs d ≠ none) (href : ∀ t', ¬ s.refs t' o) (t' : T) :
    ¬ s'.refs t' o := by
  cases h with
  | share t'' hshared =>
    rintro (hbefore | ⟨_, rfl⟩)
    · exact href _ hbefore
    · exact href _ hshared
  | forget _ => exact fun hafter => href _ hafter.1
  | zeroParser hnew =>
    rintro (hbefore | ⟨_, rfl⟩)
    · exact href _ hbefore
    · exact (hknown _ rfl).1 hnew
  | made library hnew =>
    rintro (hbefore | ⟨_, rfl⟩)
    · exact href _ hbefore
    · exact (hknown _ rfl).1 hnew
  | get hstored =>
    rintro (hbefore | ⟨_, rfl⟩)
    · exact href _ hbefore
    · exact (hknown _ rfl).2 _ hstored
  | publish _ hnew =>
    rintro (hbefore | ⟨_, rfl⟩)
    · exact href _ hbefore
    · exact hdoc _ rfl hnew
  | _ => exact href _

/-- A document that is gone stays gone. -/
theorem Step.not_alive (h : Step native t s x a s' x') (hx : Relies t s x) {d : Nat}
    {doc doc' : Doc T} (hd : s.docs d = some doc) (hd' : s'.docs d = some doc')
    (hdead : ¬ s.Alive d doc) : ¬ s'.Alive d doc' ∧ doc'.parser = doc.parser := by
  have href : ∀ t', ¬ s.refs t' (.doc d) := fun t' href => hdead (Or.inl ⟨t', href⟩)
  have hfin : doc.finalizer = .cleared := not_not.mp fun hfin => hdead (Or.inr hfin)
  have hrefs := h.no_refs (o := .doc d) (fun _ heq => by cases heq)
    (fun _ heq => by
      cases heq
      rw [hd]
      exact Option.some_ne_none _) href
  have huntouched : ¬ s.Touches t d doc := by
    rintro ((⟨href', _⟩ | ⟨_, hfin'⟩) | ⟨href', _⟩ | ⟨_, hfin'⟩)
    · exact href t href'
    · cases hfin.symm.trans hfin'
    · exact href t href'
    · cases hfin.symm.trans hfin'
  cases hd'.symm.trans (h.docs_of_untouched hx hd huntouched)
  refine ⟨?_, rfl⟩
  rintro (⟨t', href'⟩ | hfin')
  · exact hrefs t' href'
  · exact hfin' hfin

/-! ## What there is -/

/-- Objects stay, with what identifies them. -/
theorem Step.parser_stays (h : Step native t s x a s' x') {p : Nat} {parser : Parser T}
    (hp : s.parsers p = some parser) :
    ∃ parser', s'.parsers p = some parser' ∧ parser'.config = parser.config := by
  have hset {p₁ : Nat} {parser₁ parser' : Parser T} (h₁ : s.parsers p₁ = some parser₁)
      (hconfig : parser'.config = parser₁.config) :
      ∃ parser'', (s.setParser p₁ parser').parsers p = some parser'' ∧
        parser''.config = parser.config := by
    by_cases hpp : p = p₁
    · subst hpp
      cases hp.symm.trans h₁
      exact ⟨parser', State.setParser_parsers_self, hconfig⟩
    · exact ⟨parser, (State.setParser_parsers_of_ne hpp).trans hp, rfl⟩
  have hnew {p₁ : Nat} {parser' : Parser T} (h₁ : s.parsers p₁ = none) :
      ∃ parser'', (s.setParser p₁ parser').parsers p = some parser'' ∧
        parser''.config = parser.config := by
    refine ⟨parser, (State.setParser_parsers_of_ne ?_).trans hp, rfl⟩
    rintro rfl
    cases hp.symm.trans h₁
  cases h with
  | zeroParser h₁ => exact hnew h₁
  | made library h₁ => exact hnew h₁
  | parse data _ h₁ _ _ => exact hset h₁ rfl
  | publish h₁ _ => exact hset h₁ rfl
  | unlock h₁ => exact hset h₁ rfl
  | close _ h₁ _ _ => exact hset h₁ rfl
  | freed h₁ => exact hset h₁ rfl
  | freeFailed h₁ => exact hset h₁ rfl
  | clear _ h₁ _ => exact hset h₁ (Parser.clearLiveDoc_config _ _)
  | finClear _ h₁ _ => exact hset h₁ (Parser.clearLiveDoc_config _ _)
  | finParserIdle _ h₁ _ _ _ => exact hset h₁ rfl
  | finParser _ h₁ _ _ _ => exact hset h₁ rfl
  | finParserClosed h₁ _ _ => exact hset h₁ rfl
  | finParserCommit h₁ _ => exact hset h₁ (Parser.finalized_config _ _ _)
  | _ => exact ⟨parser, hp, rfl⟩

/-- The documents after a step: they were there before, or have just been parsed. -/
theorem Step.doc_before (h : Step native t s x a s' x') (hx : Relies t s x) {d : Nat}
    {doc' : Doc T} (hd : s'.docs d = some doc') :
    (∃ doc, s.docs d = some doc ∧ doc'.parser = doc.parser) ∨
      s.refs t (.parser doc'.parser) := by
  have hset {d₁ : Nat} {doc₁ doc'' : Doc T} (h₁ : s.docs d₁ = some doc₁)
      (hafter : (s.setDoc d₁ doc'').docs d = some doc') (hparser : doc''.parser = doc₁.parser) :
      ∃ doc, s.docs d = some doc ∧ doc'.parser = doc.parser := by
    by_cases hdd : d = d₁
    · subst hdd
      rw [State.setDoc_docs_self] at hafter
      cases hafter
      exact ⟨doc₁, h₁, hparser⟩
    · exact ⟨doc', (State.setDoc_docs_of_ne hdd).symm.trans hafter, rfl⟩
  cases h with
  | @publish p d₁ parser _ h₁ _ =>
    by_cases hdd : d = d₁
    · subst hdd
      have hdoc := State.setDoc_docs_self.symm.trans hd
      cases hdoc
      obtain ⟨_, _, hlocked⟩ := hx
      exact Or.inr hlocked.ref
    · exact Or.inl ⟨doc', (State.setDoc_docs_of_ne hdd).symm.trans hd, rfl⟩
  | docClose _ h₁ _ _ => exact Or.inl (hset h₁ hd rfl)
  | docFreed h₁ => exact Or.inl (hset h₁ hd rfl)
  | docFreeFailed h₁ => exact Or.inl (hset h₁ hd rfl)
  | clear h₁ _ _ => exact Or.inl (hset h₁ hd rfl)
  | finDocIdle _ h₁ _ _ _ => exact Or.inl (hset h₁ hd rfl)
  | finDoc _ h₁ _ _ _ => exact Or.inl (hset h₁ hd rfl)
  | finDocClosed h₁ _ _ => exact Or.inl (hset h₁ hd rfl)
  | finDocKept h₁ _ => exact Or.inl (hset h₁ hd rfl)
  | finDocFreed h₁ _ => exact Or.inl (hset h₁ hd rfl)
  | finClear h₁ _ _ => exact Or.inl (hset h₁ hd rfl)
  | _ => exact Or.inl ⟨doc', hd, rfl⟩

theorem Step.doc_stays (h : Step native t s x a s' x') {d : Nat} (hd : s.docs d ≠ none) :
    s'.docs d ≠ none := by
  have hset {d₁ : Nat} {doc' : Doc T} : (s.setDoc d₁ doc').docs d ≠ none := by
    by_cases hdd : d = d₁
    · subst hdd
      rw [State.setDoc_docs_self]
      exact Option.some_ne_none _
    · rw [State.setDoc_docs_of_ne hdd]
      exact hd
  cases h with
  | publish _ _ => exact hset
  | docClose _ _ _ _ => exact hset
  | docFreed _ => exact hset
  | docFreeFailed _ => exact hset
  | clear _ _ _ => exact hset
  | finDocIdle _ _ _ _ _ => exact hset
  | finDoc _ _ _ _ _ => exact hset
  | finDocClosed _ _ _ => exact hset
  | finDocKept _ _ => exact hset
  | finDocFreed _ _ => exact hset
  | finClear _ _ _ => exact hset
  | _ => exact hd

/-- What is referred to is there, and a pool has parsers of its own configuration. -/
structure Known (s : State T ν) : Prop where
  refs : ∀ t p, s.refs t (.parser p) → ∃ parser, s.parsers p = some parser
  docRefs : ∀ t d, s.refs t (.doc d) → s.docs d ≠ none
  stored : ∀ q p, (q, p) ∈ s.stored →
    ∃ parser, s.parsers p = some parser ∧ s.pools q = some parser.config
  parser : ∀ d doc, s.docs d = some doc → ∃ parser, s.parsers doc.parser = some parser

theorem Step.pools_stay (h : Step native t s x a s' x') {q : Nat} {config : ParserConfig}
    (hq : s.pools q = some config) : s'.pools q = some config := by
  cases h with
  | @newPool q₁ _ h₁ =>
    refine (Function.update_of_ne ?_ ..).trans hq
    rintro rfl
    cases hq.symm.trans h₁
  | _ => exact hq

/-- What is in a pool was there before, or has just been put. -/
theorem Step.stored_before (h : Step native t s x a s' x') {q p : Nat}
    (hstored : (q, p) ∈ s'.stored) : (q, p) ∈ s.stored ∨ a = .put q p ∧
      s.refs t (.parser p) ∧ ∃ parser, s.parsers p = some parser ∧ s.pools q = some parser.config ∧
        parser.mu = none ∧ parser.closed = false ∧ parser.liveDoc = 0 := by
  cases h with
  | get _ => exact Or.inl (List.mem_of_mem_erase hstored)
  | evict _ => exact Or.inl (List.mem_of_mem_erase hstored)
  | put href hpool hp hmu hgate =>
    rcases List.mem_cons.mp hstored with heq | hbefore
    · cases heq
      obtain ⟨hclosed, hlive, rfl⟩ := putGate_ok hgate
      exact Or.inr ⟨rfl, href, _, hp, hpool, hmu, hclosed, hlive⟩
    · exact Or.inl hbefore
  | _ => exact Or.inl hstored

/-- Whoever reaches something new shares it, has made it, or has got it from a pool. -/
theorem Step.refs_before (h : Step native t s x a s' x') {t' : T} {o : Ref}
    (href : s'.refs t' o) : (∃ t'', s.refs t'' o) ∨
      (∃ p, o = .parser p ∧ ((s.parsers p = none ∧ ∃ parser, s'.parsers p = some parser) ∨
        ∃ q, (q, p) ∈ s.stored)) ∨
      ∃ d, o = .doc d ∧ s'.docs d ≠ none := by
  cases h with
  | share t'' hshared =>
    rcases href with hbefore | ⟨_, rfl⟩
    · exact Or.inl ⟨_, hbefore⟩
    · exact Or.inl ⟨_, hshared⟩
  | forget _ => exact Or.inl ⟨_, href.1⟩
  | zeroParser hnew =>
    rcases href with hbefore | ⟨_, rfl⟩
    · exact Or.inl ⟨_, hbefore⟩
    · exact Or.inr (Or.inl ⟨_, rfl, Or.inl ⟨hnew, _, State.setParser_parsers_self⟩⟩)
  | made library hnew =>
    rcases href with hbefore | ⟨_, rfl⟩
    · exact Or.inl ⟨_, hbefore⟩
    · exact Or.inr (Or.inl ⟨_, rfl, Or.inl ⟨hnew, _, State.setParser_parsers_self⟩⟩)
  | get hstored =>
    rcases href with hbefore | ⟨_, rfl⟩
    · exact Or.inl ⟨_, hbefore⟩
    · exact Or.inr (Or.inl ⟨_, rfl, Or.inr ⟨_, hstored⟩⟩)
  | @publish p d _ doc _ _ =>
    rcases href with hbefore | ⟨_, rfl⟩
    · exact Or.inl ⟨_, hbefore⟩
    · refine Or.inr (Or.inr ⟨d, rfl, ?_⟩)
      have hdoc : (s.setDoc d ⟨none, p, doc, false, .attached, none⟩).docs d = some _ :=
        State.setDoc_docs_self
      intro hnone
      cases hdoc.symm.trans hnone
  | _ => exact Or.inl ⟨_, href⟩

theorem Step.known (h : Step native t s x a s' x') (hs : Known s) (hx : Relies t s x) :
    Known s' where
  refs t' p href := by
    rcases h.refs_before href with ⟨t'', hbefore⟩ | ⟨p', heq, hthere⟩ | ⟨d, heq, _⟩
    · obtain ⟨parser, hp⟩ := hs.refs t'' p hbefore
      obtain ⟨parser', hp', _⟩ := h.parser_stays hp
      exact ⟨parser', hp'⟩
    · cases heq
      rcases hthere with ⟨_, hmade⟩ | ⟨q, hstored⟩
      · exact hmade
      · obtain ⟨parser, hp, _⟩ := hs.stored q p hstored
        obtain ⟨parser', hp', _⟩ := h.parser_stays hp
        exact ⟨parser', hp'⟩
    · cases heq
  docRefs t' d href := by
    rcases h.refs_before href with ⟨t'', hbefore⟩ | ⟨p', heq, _⟩ | ⟨d', heq, hthere⟩
    · exact h.doc_stays (hs.docRefs t'' d hbefore)
    · cases heq
    · cases heq
      exact hthere
  stored q p hstored := by
    have hkept : ∃ parser, s.parsers p = some parser ∧ s.pools q = some parser.config := by
      rcases h.stored_before hstored with hbefore | ⟨_, _, parser, hp, hpool, _⟩
      · exact hs.stored q p hbefore
      · exact ⟨parser, hp, hpool⟩
    obtain ⟨parser, hp, hpool⟩ := hkept
    obtain ⟨parser', hp', hconfig⟩ := h.parser_stays hp
    exact ⟨parser', hp', hconfig ▸ h.pools_stay hpool⟩
  parser d doc' hd := by
    have hthere : ∃ parser, s.parsers doc'.parser = some parser := by
      rcases h.doc_before hx hd with ⟨doc, hdoc, hparser⟩ | href
      · rw [hparser]
        exact hs.parser d doc hdoc
      · exact hs.refs t _ href
    obtain ⟨parser, hp⟩ := hthere
    obtain ⟨parser', hp', _⟩ := h.parser_stays hp
    exact ⟨parser', hp'⟩

/-! ## Marks -/

/-- The document is not closed, or its closer has yet to clear its mark. -/
def Doc.Owing (doc : Doc T) : Prop := doc.closed = false ∨ doc.clearing ≠ none

/-- A document that still has its mark on its parser. -/
def State.Marks (s : State T ν) (d : Nat) (doc : Doc T) : Prop :=
  s.docs d = some doc ∧ s.Alive d doc ∧ doc.Owing

/-- **A mark stands for one document.** -/
structure Marked (s : State T ν) : Prop where
  marked : ∀ {d : Nat} {doc : Doc T} {parser : Parser T}, s.Marks d doc →
    s.parsers doc.parser = some parser →
    parser.liveDoc ≠ 0 ∧ (doc.closed = false → parser.liveDoc = doc.handle)
  unique : ∀ {d d' : Nat} {doc doc' : Doc T}, s.Marks d doc → s.Marks d' doc' →
    doc.parser = doc'.parser → d = d'

/-- Documents have the marks they had before, or fewer. -/
structure Eases (s s' : State T ν) : Prop where
  parsers : ∀ {p : Nat} {parser' : Parser T}, s'.parsers p = some parser' →
    (∃ parser, s.parsers p = some parser ∧ parser'.liveDoc = parser.liveDoc) ∨
      ∀ d doc', s'.Marks d doc' → doc'.parser ≠ p
  docs : ∀ {d : Nat} {doc' : Doc T}, s'.Marks d doc' → ∃ doc, s.Marks d doc ∧
    doc'.parser = doc.parser ∧
    (doc'.closed = false → doc.closed = false ∧ doc'.handle = doc.handle)

theorem Eases.marked (h : Eases s s') (hs : Marked s) : Marked s' where
  marked {d doc' parser'} hd hp := by
    obtain ⟨doc, hmarks, hparser, hopen⟩ := h.docs hd
    rcases h.parsers hp with ⟨parser, hbefore, hlive⟩ | hnone
    · rw [hparser] at hbefore
      obtain ⟨hne, hhandle⟩ := hs.marked hmarks hbefore
      rw [hlive]
      refine ⟨hne, fun hclosed => ?_⟩
      obtain ⟨hclosed, hsame⟩ := hopen hclosed
      rw [hsame]
      exact hhandle hclosed
    · exact absurd rfl (hnone d doc' hd)
  unique {d d' doc doc'} hd hd' heq := by
    obtain ⟨doc₁, h₁, hparser₁, _⟩ := h.docs hd
    obtain ⟨doc₂, h₂, hparser₂, _⟩ := h.docs hd'
    exact hs.unique h₁ h₂ (hparser₁.symm.trans (heq.trans hparser₂))

/-- Only the references to documents matter. -/
theorem State.Alive.mono {d : Nat} {doc : Doc T} (h : s'.Alive d doc)
    (hrefs : ∀ t d, s'.refs t (.doc d) → ∃ t', s.refs t' (.doc d)) : s.Alive d doc := by
  rcases h with ⟨t, href⟩ | hfin
  · exact Or.inl (hrefs t d href)
  · exact Or.inr hfin

/-- The parsers change nothing but what is no mark. -/
theorem Eases.of_parsers
    (hparsers : ∀ p parser', s'.parsers p = some parser' →
      (∃ parser, s.parsers p = some parser ∧ parser'.liveDoc = parser.liveDoc) ∨
        ∀ d doc, s.Marks d doc → doc.parser ≠ p)
    (hdocs : s'.docs = s.docs) (hrefs : ∀ t d, s'.refs t (.doc d) → ∃ t', s.refs t' (.doc d)) :
    Eases s s' := by
  have hmarks {d : Nat} {doc : Doc T} (h : s'.Marks d doc) : s.Marks d doc :=
    ⟨hdocs ▸ h.1, h.2.1.mono hrefs, h.2.2⟩
  refine ⟨fun {p parser'} hp => ?_, fun {d doc'} hd => ⟨doc', hmarks hd, rfl, fun h => ⟨h, rfl⟩⟩⟩
  rcases hparsers p parser' hp with hsame | hnone
  · exact Or.inl hsame
  · exact Or.inr fun d doc hd => hnone d doc (hmarks hd)

theorem Eases.setParser {p : Nat} {parser parser' : Parser T} (hp : s.parsers p = some parser)
    (hlive : parser'.liveDoc = parser.liveDoc ∨ ∀ d doc, s.Marks d doc → doc.parser ≠ p) :
    Eases s (s.setParser p parser') := by
  refine .of_parsers (fun p' parser'' h => ?_) rfl fun t d href => ⟨t, href⟩
  by_cases hpp : p' = p
  · subst hpp
    rw [State.setParser_parsers_self] at h
    cases h
    rcases hlive with hlive | hnone
    · exact Or.inl ⟨parser, hp, hlive⟩
    · exact Or.inr hnone
  · rw [State.setParser_parsers_of_ne hpp] at h
    exact Or.inl ⟨parser'', h, rfl⟩

theorem Eases.newParser {p : Nat} {parser' : Parser T} {t : T} (hs : Known s)
    (hp : s.parsers p = none) : Eases s ((s.setParser p parser').learn t (.parser p)) := by
  refine .of_parsers (fun p' parser'' h => ?_) rfl ?_
  · by_cases hpp : p' = p
    · subst hpp
      refine Or.inr fun d doc hd heq => ?_
      obtain ⟨parser, hparser⟩ := hs.parser d doc hd.1
      rw [heq, hp] at hparser
      cases hparser
    · exact Or.inl ⟨parser'', (State.setParser_parsers_of_ne hpp).symm.trans h, rfl⟩
  · rintro t' d (href | ⟨_, heq⟩)
    · exact ⟨t', href⟩
    · cases heq

theorem Eases.setDoc {d : Nat} {doc doc' : Doc T} (hd : s.docs d = some doc)
    (halive : doc'.finalizer ≠ .cleared → s.Alive d doc) (howing : doc'.Owing → doc.Owing)
    (hparser : doc'.parser = doc.parser)
    (hopen : doc'.closed = false → doc.closed = false ∧ doc'.handle = doc.handle) :
    Eases s (s.setDoc d doc') := by
  refine ⟨fun {p parser'} hp => Or.inl ⟨parser', hp, rfl⟩, fun {d' doc''} h => ?_⟩
  obtain ⟨hd', halive', howing'⟩ := h
  by_cases hdd : d' = d
  · subst hdd
    rw [State.setDoc_docs_self] at hd'
    cases hd'
    refine ⟨doc, ⟨hd, ?_, howing howing'⟩, hparser, hopen⟩
    rcases halive' with href | hfin
    · exact Or.inl href
    · exact halive hfin
  · rw [State.setDoc_docs_of_ne hdd] at hd'
    exact ⟨doc'', ⟨hd', halive', howing'⟩, rfl, fun h => ⟨h, rfl⟩⟩

theorem Clearing.marks {d p : Nat} {handle : UInt64} {doc : Doc T}
    (h : Clearing s t d handle p doc) (halive : s.Alive d doc) : s.Marks d doc :=
  ⟨h.found, halive, Or.inr (by rw [h.clearing]; exact Option.some_ne_none t)⟩

/-- Clearing a mark takes it from the one document that has it. -/
theorem Eases.clear {d p : Nat} {handle : UInt64} {doc doc' : Doc T} {parser : Parser T}
    (hs : Marked s) (h : Clearing s t d handle p doc) (halive : s.Alive d doc)
    (hp : s.parsers p = some parser) (hclosed : doc'.closed = true)
    (hclearing : doc'.clearing = none) :
    Eases s ((s.setDoc d doc').setParser p (parser.clearLiveDoc handle)) := by
  have hmarks {d' : Nat} {doc'' : Doc T}
      (hd' : ((s.setDoc d doc').setParser p (parser.clearLiveDoc handle)).Marks d' doc'') :
      d' ≠ d ∧ s.Marks d' doc'' := by
    obtain ⟨hfound, halive', howing⟩ := hd'
    by_cases hdd : d' = d
    · subst hdd
      rw [State.setParser_docs, State.setDoc_docs_self] at hfound
      cases hfound
      rcases howing with hopen | howed
      · cases hopen.symm.trans hclosed
      · exact absurd hclearing howed
    · rw [State.setParser_docs, State.setDoc_docs_of_ne hdd] at hfound
      exact ⟨hdd, hfound, halive', howing⟩
  refine ⟨fun {p' parser'} hp' => ?_,
    fun {d' doc''} hd' => ⟨doc'', (hmarks hd').2, rfl, fun h => ⟨h, rfl⟩⟩⟩
  by_cases hpp : p' = p
  · subst hpp
    refine Or.inr fun d' doc'' hd' hparser => ?_
    obtain ⟨hne, hd'⟩ := hmarks hd'
    exact hne (hs.unique hd' (h.marks halive) (hparser.trans h.parser.symm))
  · exact Or.inl ⟨parser', (State.setParser_parsers_of_ne hpp).symm.trans hp', rfl⟩

/-- **A step other than a parse makes no mark.** -/
theorem Step.eases (h : Step native t s x a s' x') (hknown : Known s) (hs : Marked s)
    (hx : Relies t s x) : (∃ p d, a = .parsed p d) ∨ Eases s s' := by
  have hsame {s'' : State T ν} (hparsers : s''.parsers = s.parsers) (hdocs : s''.docs = s.docs)
      (hrefs : ∀ t d, s''.refs t (.doc d) → ∃ t', s.refs t' (.doc d)) : Eases s s'' :=
    .of_parsers (fun p parser' hp => Or.inl ⟨parser', hparsers ▸ hp, rfl⟩) hdocs hrefs
  have hkept (t : T) (d : Nat) (href : s.refs t (.doc d)) : ∃ t', s.refs t' (.doc d) := ⟨t, href⟩
  cases h with
  | share t'' hshared =>
    refine Or.inr (hsame rfl rfl ?_)
    rintro t' d (href | ⟨_, rfl⟩)
    · exact ⟨t', href⟩
    · exact ⟨t, hshared⟩
  | forget _ => exact Or.inr (hsame rfl rfl fun t' d href => ⟨t', href.1⟩)
  | zeroParser hp => exact Or.inr (.newParser hknown hp)
  | newPool config _ => exact Or.inr (hsame rfl rfl hkept)
  | stop _ => exact Or.inr (hsame rfl rfl hkept)
  | failed => exact Or.inr (hsame rfl rfl hkept)
  | native _ _ => exact Or.inr (hsame rfl rfl hkept)
  | newParser config => exact Or.inr (hsame rfl rfl hkept)
  | made library hp => exact Or.inr (.newParser hknown hp)
  | getMiss _ => exact Or.inr (hsame rfl rfl hkept)
  | get _ =>
    refine Or.inr (hsame rfl rfl ?_)
    rintro t' d (href | ⟨_, heq⟩)
    · exact ⟨t', href⟩
    · cases heq
  | put _ _ _ _ _ => exact Or.inr (hsame rfl rfl hkept)
  | evict _ => exact Or.inr (hsame rfl rfl hkept)
  | parse data _ hp _ _ => exact Or.inr (.setParser hp (Or.inl rfl))
  | publish _ _ => exact Or.inl ⟨_, _, rfl⟩
  | unlock hp => exact Or.inr (.setParser hp (Or.inl rfl))
  | close _ hp _ _ => exact Or.inr (.setParser hp (Or.inl rfl))
  | freed hp =>
    refine Or.inr (.setParser hp (Or.inr fun d doc hd heq => ?_))
    obtain ⟨parser, hlocked⟩ := hx
    exact (hs.marked hd (heq ▸ hlocked.found)).1 hlocked.liveDoc
  | freeFailed hp => exact Or.inr (.setParser hp (Or.inl rfl))
  | docClose href hd _ _ =>
    exact Or.inr (.setDoc hd (fun hfin => absurd rfl hfin) id rfl fun h => ⟨h, rfl⟩)
  | docFreed hd =>
    obtain ⟨doc, hclosing⟩ := hx
    cases hd.symm.trans hclosing.found
    exact Or.inr (.setDoc hd (fun _ => Or.inl ⟨t, hclosing.ref⟩) (fun _ => Or.inl hclosing.closed)
      rfl fun h => by cases h)
  | docFreeFailed hd =>
    obtain ⟨handle, p, doc, hclosing⟩ := hx
    exact Or.inr (.setDoc hd (fun _ => Or.inl ⟨t, hclosing.ref⟩) id rfl fun h => ⟨h, rfl⟩)
  | clear hd hp _ =>
    obtain ⟨doc, hclearing, href⟩ := hx
    cases hd.symm.trans hclearing.found
    exact Or.inr (.clear hs hclearing (Or.inl ⟨t, href⟩) hp hclearing.closed rfl)
  | finDocIdle _ hd _ hfin _ =>
    exact Or.inr (.setDoc hd (fun hfin => absurd rfl hfin) id rfl fun h => ⟨h, rfl⟩)
  | finDoc _ hd _ hfin _ =>
    refine Or.inr (.setDoc hd (fun _ => Or.inr ?_) id rfl fun h => ⟨h, rfl⟩)
    rw [hfin]
    exact fun h => by cases h
  | finDocClosed hd _ _ =>
    exact Or.inr (.setDoc hd (fun hfin => absurd rfl hfin) id rfl fun h => ⟨h, rfl⟩)
  | finDocRead _ _ _ => exact Or.inr (hsame rfl rfl hkept)
  | finDocKept hd _ =>
    exact Or.inr (.setDoc hd (fun hfin => absurd rfl hfin) id rfl fun h => ⟨h, rfl⟩)
  | finDocFreed hd _ =>
    obtain ⟨doc, hfin, hopen, _⟩ := hx
    cases hd.symm.trans hfin.found
    exact Or.inr (.setDoc hd (fun hattached => Or.inr hattached) (fun _ => Or.inl hopen)
      rfl fun h => by cases h)
  | finClear hd hp _ =>
    obtain ⟨doc, hfin, hclearing⟩ := hx
    have hrunning : doc.finalizer ≠ .cleared := by
      rw [hfin.finalizer]
      exact fun h => by cases h
    cases hd.symm.trans hclearing.found
    exact Or.inr (.clear hs hclearing (Or.inr hrunning) hp hclearing.closed rfl)
  | finParserIdle _ hp _ _ _ => exact Or.inr (.setParser hp (Or.inl rfl))
  | finParser _ hp _ _ _ => exact Or.inr (.setParser hp (Or.inl rfl))
  | finParserClosed hp _ _ => exact Or.inr (.setParser hp (Or.inl rfl))
  | finParserRead _ _ _ => exact Or.inr (hsame rfl rfl hkept)
  | finParserNoDoc => exact Or.inr (hsame rfl rfl hkept)
  | finParserNoHandle => exact Or.inr (hsame rfl rfl hkept)
  | finParserCommit hp _ =>
    refine Or.inr (.setParser hp (Or.inr fun d doc hd heq => ?_))
    obtain ⟨parser, hfin⟩ := hx
    exact hfin.dead.docs d doc hd.1 heq hd.2.1

/-- A new document has the only mark of its parser. -/
theorem Step.marked_parsed {p d : Nat} (h : Step native t s x (.parsed p d) s' x')
    (hs : Marked s) (hx : Relies t s x) : Marked s' := by
  generalize ha : Action.parsed p d = a at h
  cases h with
  | @publish p₁ d₁ parser₁ handle hp hd =>
    cases ha
    obtain ⟨hne, parser, hlocked⟩ := hx
    cases hp.symm.trans hlocked.found
    -- no other document has a mark there, since the parser has none
    have hold {d' : Nat} {doc' : Doc T} (hd' : s.Marks d' doc') : doc'.parser ≠ p := by
      intro heq
      exact (hs.marked hd' (heq ▸ hp)).1 hlocked.liveDoc
    have hmarks {d' : Nat} {doc' : Doc T}
        (hd' : (((s.setDoc d ⟨none, p, handle, false, .attached, none⟩).setParser p
          { parser₁ with mu := none, liveDoc := handle }).learn t (.doc d)).Marks d' doc') :
        d' = d ∧ doc' = ⟨none, p, handle, false, .attached, none⟩ ∨ d' ≠ d ∧ s.Marks d' doc' := by
      obtain ⟨hfound, halive, howing⟩ := hd'
      by_cases hdd : d' = d
      · subst hdd
        have hself := (State.setDoc_docs_self (s := s)).symm.trans hfound
        cases hself
        exact Or.inl ⟨rfl, rfl⟩
      · refine Or.inr ⟨hdd, (State.setDoc_docs_of_ne hdd).symm.trans hfound, ?_, howing⟩
        rcases halive with ⟨t', href | ⟨_, heq⟩⟩ | hfin
        · exact Or.inl ⟨t', href⟩
        · cases heq
          exact absurd rfl hdd
        · exact Or.inr hfin
    refine ⟨fun {d' doc' parser'} hd' hp' => ?_, fun {d' d'' doc' doc''} hd' hd'' heq => ?_⟩
    · rcases hmarks hd' with ⟨_, rfl⟩ | ⟨_, hbefore⟩
      · have hself := (State.setParser_parsers_self (s := s)).symm.trans hp'
        cases hself
        exact ⟨hne, fun _ => rfl⟩
      · have hother := (State.setParser_parsers_of_ne (s := s) (hold hbefore)).symm.trans hp'
        exact hs.marked hbefore hother
    · rcases hmarks hd' with ⟨rfl, rfl⟩ | ⟨_, hbefore⟩
      · rcases hmarks hd'' with ⟨rfl, _⟩ | ⟨_, hbefore'⟩
        · rfl
        · exact absurd heq.symm (hold hbefore')
      · rcases hmarks hd'' with ⟨rfl, rfl⟩ | ⟨_, hbefore'⟩
        · exact absurd heq (hold hbefore)
        · exact hs.unique hbefore hbefore' heq
  | stop hstop =>
    subst ha
    cases hstop
  | _ => cases ha

theorem Step.marked (h : Step native t s x a s' x') (hknown : Known s) (hs : Marked s)
    (hx : Relies t s x) : Marked s' := by
  rcases h.eases hknown hs hx with ⟨p, d, rfl⟩ | heases
  · exact h.marked_parsed hs hx
  · exact heases.marked hs

/-! ## The outline -/

/-- What a goroutine relies on does not depend on the native side, on references it does not use,
or on what the pools let go of. -/
theorem Relies.mono (h : Relies t s x) (hparsers : s'.parsers = s.parsers)
    (hdocs : s'.docs = s.docs) (hpools : s'.pools = s.pools)
    (huses : ∀ o, x.Uses o → s.refs t o → s'.refs t o) (hrefs : ∀ t o, s'.refs t o → s.refs t o)
    (hstored : ∀ q p, (q, p) ∈ s'.stored → (q, p) ∈ s.stored) : Relies t s' x := by
  have hlocked {p : Nat} (hu : x.Uses (.parser p)) (h : ∃ parser, Locked s t p parser) :
      ∃ parser, Locked s' t p parser := by
    obtain ⟨parser, hp⟩ := h
    exact ⟨parser, hparsers ▸ hp.found, hp.mu, hp.closed, hp.liveDoc, huses _ hu hp.ref⟩
  have hclosing {d p : Nat} {handle : UInt64} {doc : Doc T} (hu : x.Uses (.doc d))
      (h : Closing s t d handle p doc) : Closing s' t d handle p doc :=
    ⟨hdocs ▸ h.found, h.mu, h.closed, h.handle, h.parser, huses _ hu h.ref⟩
  have hclearing {d p : Nat} {handle : UInt64} {doc : Doc T}
      (h : Clearing s t d handle p doc) : Clearing s' t d handle p doc :=
    ⟨hdocs ▸ h.found, h.closed, h.clearing, h.parser, hparsers ▸ h.marked⟩
  have hfinalizing {d : Nat} {doc : Doc T} (h : Finalizing s t d doc) : Finalizing s' t d doc :=
    ⟨hdocs ▸ h.found, h.finalizer, fun t' href => h.ref t' (hrefs t' _ href)⟩
  have hparser {p : Nat} (h : ∃ parser, FinalizingParser s t p parser) :
      ∃ parser, FinalizingParser s' t p parser := by
    obtain ⟨parser, hp⟩ := h
    refine ⟨parser, hparsers ▸ hp.found, hp.finalizer,
      fun t' href => hp.dead.refs t' (hrefs t' _ href),
      fun q hq => hp.dead.stored q (hstored q p hq), fun d doc hd heq halive => ?_⟩
    refine hp.dead.docs d doc (hdocs ▸ hd) heq ?_
    exact halive.mono fun t' d' href => ⟨t', hrefs t' _ href⟩
  cases x with
  | new config pool => exact fun q hq => hpools ▸ h q hq
  | made handle config pool => exact fun q hq => hpools ▸ h q hq
  | parse p handle data => exact hlocked rfl h
  | root p doc => exact ⟨h.1, hlocked rfl h.2⟩
  | rollback p doc rc => exact hlocked rfl h
  | publish p doc => exact ⟨h.1, hlocked rfl h.2⟩
  | unlock p err => exact hlocked rfl h
  | free p handle => exact hlocked rfl h
  | freed p => exact hlocked rfl h
  | freeFailed p rc => exact hlocked rfl h
  | docFree d handle p =>
    obtain ⟨doc, hdoc⟩ := h
    exact ⟨doc, hclosing rfl hdoc⟩
  | docFreed d handle p =>
    obtain ⟨doc, hdoc⟩ := h
    exact ⟨doc, hclosing rfl hdoc⟩
  | docFreeFailed d rc =>
    obtain ⟨handle, p, doc, hdoc⟩ := h
    exact ⟨handle, p, doc, hclosing rfl hdoc⟩
  | clear d handle p =>
    obtain ⟨doc, hdoc, href⟩ := h
    exact ⟨doc, hclearing hdoc, huses _ rfl href⟩
  | finDoc d =>
    obtain ⟨doc, hdoc⟩ := h
    exact ⟨doc, hfinalizing hdoc⟩
  | finDocFree d handle p =>
    obtain ⟨doc, hdoc, hrest⟩ := h
    exact ⟨doc, hfinalizing hdoc, hrest⟩
  | finDocCommit d handle p freed =>
    obtain ⟨doc, hdoc, hrest⟩ := h
    exact ⟨doc, hfinalizing hdoc, hrest⟩
  | finClear d handle p =>
    obtain ⟨doc, hdoc, hclear⟩ := h
    exact ⟨doc, hfinalizing hdoc, hclearing hclear⟩
  | finParser p => exact hparser h
  | finParserDoc p handle liveDoc => exact hparser h
  | finParserFree p handle freed => exact hparser h
  | finParserCommit p docFreed parserFreed => exact hparser h
  | _ => trivial

/-- A native call leads on to where the same is relied on. -/
theorem Relies.resume (h : Relies t s x) {call : NativeCall} {reply : Reply} {w w' : ν}
    (hcall : x.call = some call) (hanswer : native.answers call w reply w') :
    Relies t s (x.resume reply) := by
  cases x with
  | new config pool =>
    cases reply with
    | ok handle => exact h
    | error rc => trivial
  | parse p handle data =>
    cases hcall
    cases reply with
    | ok doc => exact ⟨native.doc_ne_zero hanswer, h⟩
    | error rc => exact h
  | root p doc =>
    cases reply with
    | ok _ => exact h
    | error rc => exact h.2
  | rollback p doc rc => exact h
  | free p handle =>
    cases reply with
    | ok _ => exact h
    | error rc => exact h
  | docFree d handle p =>
    cases reply with
    | ok _ => exact h
    | error rc => exact ⟨_, _, h⟩
  | finDocFree d handle p => exact h
  | finParserDoc p handle liveDoc => exact h
  | finParserFree p handle freed => exact h
  | _ => cases hcall

/-- An open document's handle is its parser's mark. -/
theorem Marked.open_doc (hs : Marked s) (hknown : Known s) {d : Nat} {doc : Doc T}
    (hd : s.docs d = some doc) (halive : s.Alive d doc) (hopen : doc.closed = false) :
    ∃ parser, s.parsers doc.parser = some parser ∧ parser.liveDoc = doc.handle := by
  obtain ⟨parser, hp⟩ := hknown.parser d doc hd
  exact ⟨parser, hp, (hs.marked ⟨hd, halive, Or.inl hopen⟩ hp).2 hopen⟩

theorem Finalizing.alive {d : Nat} {doc : Doc T} (h : Finalizing s t d doc) : s.Alive d doc := by
  refine Or.inr ?_
  rw [h.finalizer]
  exact fun heq => by cases heq

/-- What the goroutine that takes a step relies on after it. -/
theorem Step.relies (h : Step native t s x a s' x') (hknown : Known s) (hs : Marked s)
    (hx : Relies t s x) : Relies t s' x' := by
  cases h with
  | @forget _ o hfree =>
    refine hx.mono rfl rfl rfl (fun o' huses href => ⟨href, ?_⟩) (fun t' o' href => href.1)
      fun q p hq => hq
    rintro ⟨_, rfl⟩
    exact hfree huses
  | evict _ =>
    exact hx.mono rfl rfl rfl (fun o' _ href => href) (fun t' o' href => href)
      fun q p hq => List.mem_of_mem_erase hq
  | native hcall hanswer =>
    exact (hx.resume hcall hanswer).mono rfl rfl rfl
      (fun o' _ href => href) (fun t' o' href => href)
      fun q p hq => hq
  | newParser config => exact fun q hq => by cases hq
  | getMiss hpool =>
    intro q hq
    cases hq
    exact hpool
  | parse data href hp _ hgate =>
    obtain ⟨hclosed, hlive⟩ := Parser.parseGate_ok hgate
    exact ⟨_, State.setParser_parsers_self, rfl, hclosed, hlive, href⟩
  | close href hp _ hgate =>
    obtain ⟨hclosed, hlive⟩ := Parser.closeGate_none hgate
    exact ⟨_, State.setParser_parsers_self, rfl, hclosed, hlive, href⟩
  | docClose href hd _ hopen =>
    exact ⟨_, State.setDoc_docs_self, rfl, hopen, rfl, rfl, href⟩
  | docFreed hd =>
    obtain ⟨doc, hclosing⟩ := hx
    have hmarked := hs.open_doc hknown hclosing.found (Or.inl ⟨t, hclosing.ref⟩) hclosing.closed
    rw [hclosing.parser, hclosing.handle] at hmarked
    cases hd.symm.trans hclosing.found
    exact ⟨_, ⟨State.setDoc_docs_self, rfl, rfl, hclosing.parser, hmarked⟩, hclosing.ref⟩
  | finDoc href hd _ _ _ => exact ⟨_, State.setDoc_docs_self, rfl, href⟩
  | finDocRead hd _ hopen =>
    obtain ⟨doc, hfin⟩ := hx
    cases hd.symm.trans hfin.found
    exact ⟨_, hfin, hopen, rfl, rfl⟩
  | finDocFreed hd _ =>
    obtain ⟨doc, hfin, hopen, hhandle, hparser⟩ := hx
    have hmarked := hs.open_doc hknown hfin.found hfin.alive hopen
    rw [hparser, hhandle] at hmarked
    cases hd.symm.trans hfin.found
    exact ⟨_, ⟨State.setDoc_docs_self, hfin.finalizer, hfin.ref⟩, State.setDoc_docs_self, rfl, rfl,
      hparser, hmarked⟩
  | finParser hdead hp _ _ _ =>
    exact ⟨_, State.setParser_parsers_self, rfl, hdead.refs, hdead.stored, hdead.docs⟩
  | finParserRead _ _ _ => exact hx
  | finParserNoDoc => exact hx
  | finParserNoHandle => exact hx
  | _ => trivial

/-- Only a parse, on an idle parser, sets a mark. -/
theorem Step.parsers_parsed {p d : Nat} (h : Step native t s x (.parsed p d) s' x')
    (hx : Relies t s x) : (∃ parser, s.parsers p = some parser ∧ parser.liveDoc = 0) ∧
      ∀ p', p' ≠ p → s'.parsers p' = s.parsers p' := by
  generalize ha : Action.parsed p d = a at h
  cases h with
  | publish hp hd =>
    cases ha
    obtain ⟨_, parser, hlocked⟩ := hx
    exact ⟨⟨parser, hlocked.found, hlocked.liveDoc⟩,
      fun p' hne => State.setParser_parsers_of_ne (s := s) hne⟩
  | stop hstop =>
    subst ha
    cases hstop
  | _ => cases ha

/-- A mark stays as long as the document has it. -/
theorem Step.liveDoc_of_marks (h : Step native t s x a s' x') (hknown : Known s) (hs : Marked s)
    (hx : Relies t s x) {d : Nat} {doc : Doc T} (hd : s.Marks d doc) (hd' : s'.Marks d doc)
    {handle : UInt64} (hmarked : ∃ parser, s.parsers doc.parser = some parser ∧
      parser.liveDoc = handle) :
    ∃ parser, s'.parsers doc.parser = some parser ∧ parser.liveDoc = handle := by
  obtain ⟨parser, hp, hlive⟩ := hmarked
  rcases h.eases hknown hs hx with ⟨p, d₁, rfl⟩ | heases
  · obtain ⟨⟨parser₁, hp₁, hzero⟩, hother⟩ := h.parsers_parsed hx
    refine ⟨parser, (hother _ ?_).trans hp, hlive⟩
    rintro rfl
    exact (hs.marked hd hp₁).1 hzero
  · obtain ⟨parser', hp', _⟩ := h.parser_stays hp
    rcases heases.parsers hp' with ⟨parser₁, hp₁, hsame⟩ | hnone
    · cases hp.symm.trans hp₁
      exact ⟨parser', hp', hsame.trans hlive⟩
    · exact absurd rfl (hnone d doc hd')

/-- Others leave a parser alone that is finalized. -/
theorem Step.finalizing (h : Step native t s x a s' x') (hx : Relies t s x) (hne : t' ≠ t)
    {p : Nat} {parser : Parser T} (hp : FinalizingParser s t' p parser) :
    FinalizingParser s' t' p parser := by
  have href {p₁ : Nat} (href : s.refs t (.parser p₁)) : p ≠ p₁ := by
    rintro rfl
    exact hp.dead.refs t href
  have hnew {p₁ : Nat} (h₁ : s.parsers p₁ = none) : p ≠ p₁ := by
    rintro rfl
    cases hp.found.symm.trans h₁
  have hdoc {d : Nat} {doc : Doc T} (hd : s.docs d = some doc) (halive : s.Alive d doc) :
      p ≠ doc.parser := fun heq => hp.dead.docs d doc hd heq.symm halive
  have hfin {p₁ : Nat} {parser₁ : Parser T} (h₁ : s.parsers p₁ = some parser₁)
      (hfin₁ : parser₁.finalizer = .attached ∨ parser₁.finalizer = .running t) : p ≠ p₁ := by
    rintro rfl
    cases hp.found.symm.trans h₁
    rw [hp.finalizer] at hfin₁
    rcases hfin₁ with heq | heq
    · cases heq
    · cases heq
      exact hne rfl
  refine ⟨?_, hp.finalizer, ?_, fun q hq => ?_, fun d doc' hd' heq => ?_⟩
  · have hfound := hp.found
    cases h with
    | zeroParser h₁ => exact (State.setParser_parsers_of_ne (hnew h₁)).trans hfound
    | made library h₁ => exact (State.setParser_parsers_of_ne (hnew h₁)).trans hfound
    | parse data href₁ _ _ _ => exact (State.setParser_parsers_of_ne (href href₁)).trans hfound
    | publish _ _ =>
      obtain ⟨_, parser₁, hlocked⟩ := hx
      exact (State.setParser_parsers_of_ne (href hlocked.ref)).trans hfound
    | unlock _ =>
      obtain ⟨parser₁, hlocked⟩ := hx
      exact (State.setParser_parsers_of_ne (href hlocked.ref)).trans hfound
    | close href₁ _ _ _ => exact (State.setParser_parsers_of_ne (href href₁)).trans hfound
    | freed _ =>
      obtain ⟨parser₁, hlocked⟩ := hx
      exact (State.setParser_parsers_of_ne (href hlocked.ref)).trans hfound
    | freeFailed _ =>
      obtain ⟨parser₁, hlocked⟩ := hx
      exact (State.setParser_parsers_of_ne (href hlocked.ref)).trans hfound
    | clear _ _ _ =>
      obtain ⟨doc, hclearing, href₁⟩ := hx
      have hne₁ := hdoc hclearing.found (Or.inl ⟨t, href₁⟩)
      rw [hclearing.parser] at hne₁
      exact (State.setParser_parsers_of_ne hne₁).trans hfound
    | finClear _ _ _ =>
      obtain ⟨doc, hfin₁, hclearing⟩ := hx
      have hne₁ := hdoc hclearing.found hfin₁.alive
      rw [hclearing.parser] at hne₁
      exact (State.setParser_parsers_of_ne hne₁).trans hfound
    | finParserIdle _ h₁ _ hfin₁ _ =>
      exact (State.setParser_parsers_of_ne (hfin h₁ (Or.inl hfin₁))).trans hfound
    | finParser _ h₁ _ hfin₁ _ =>
      exact (State.setParser_parsers_of_ne (hfin h₁ (Or.inl hfin₁))).trans hfound
    | finParserClosed _ _ _ =>
      obtain ⟨parser₁, hfin₁⟩ := hx
      exact (State.setParser_parsers_of_ne
        (hfin hfin₁.found (Or.inr hfin₁.finalizer))).trans hfound
    | finParserCommit _ _ =>
      obtain ⟨parser₁, hfin₁⟩ := hx
      exact (State.setParser_parsers_of_ne
        (hfin hfin₁.found (Or.inr hfin₁.finalizer))).trans hfound
    | _ => exact hfound
  · refine h.no_refs (fun p' heq => ?_) (fun d heq => by cases heq) hp.dead.refs
    cases heq
    exact ⟨by rw [hp.found]; exact Option.some_ne_none _, hp.dead.stored⟩
  · rcases h.stored_before hq with hbefore | ⟨_, href₁, _⟩
    · exact hp.dead.stored q hbefore
    · exact href href₁ rfl
  · rcases h.doc_before hx hd' with ⟨doc, hd, hparser⟩ | href₁
    · exact (h.not_alive hx hd hd' (hp.dead.docs d doc hd (hparser.symm.trans heq))).1
    · exact absurd heq.symm (href href₁)

/-- **Nothing disturbs what another goroutine relies on.** -/
theorem Step.stable (h : Step native t s x a s' x') (hknown : Known s) (hs : Marked s)
    (hx : Relies t s x) (hne : t' ≠ t) {y : Place} (hy : Relies t' s y) : Relies t' s' y := by
  have hlocked {p : Nat} (hp : ∃ parser, Locked s t' p parser) :
      ∃ parser, Locked s' t' p parser := by
    obtain ⟨parser, hp⟩ := hp
    exact ⟨parser, h.parsers_of_locked hx hp.found hp.mu hne, hp.mu, hp.closed, hp.liveDoc,
      h.refs_of_ne hne hp.ref⟩
  have hkept {d : Nat} {doc : Doc T} (hd : s.docs d = some doc) (hhas : s.Has t' d doc) :
      s'.docs d = some doc := h.docs_of_untouched hx hd (hhas.untouched hne)
  have hclosing {d p : Nat} {handle : UInt64} {doc : Doc T} (hd : Closing s t' d handle p doc) :
      Closing s' t' d handle p doc :=
    ⟨hkept hd.found hd.has, hd.mu, hd.closed, hd.handle, hd.parser, h.refs_of_ne hne hd.ref⟩
  have hfinalizing {d : Nat} {doc : Doc T} (hd : Finalizing s t' d doc) :
      Finalizing s' t' d doc := by
    refine ⟨hkept hd.found hd.has, hd.finalizer, ?_⟩
    refine h.no_refs (fun _ heq => by cases heq) (fun d' heq => ?_) hd.ref
    cases heq
    rw [hd.found]
    exact Option.some_ne_none _
  have hclearing {d p : Nat} {handle : UInt64} {doc : Doc T}
      (hd : Clearing s t' d handle p doc) (hhas : s.Has t' d doc) (halive : s.Alive d doc)
      (halive' : s'.Alive d doc) : Clearing s' t' d handle p doc := by
    have howing := (hd.marks halive).2.2
    have hfound := hkept hd.found hhas
    obtain rfl := hd.parser
    exact ⟨hfound, hd.closed, hd.clearing, rfl, h.liveDoc_of_marks hknown hs hx (hd.marks halive)
      ⟨hfound, halive', howing⟩ hd.marked⟩
  cases y with
  | new config pool => exact fun q hq => h.pools_stay (hy q hq)
  | made handle config pool => exact fun q hq => h.pools_stay (hy q hq)
  | parse p handle data => exact hlocked hy
  | root p doc => exact ⟨hy.1, hlocked hy.2⟩
  | rollback p doc rc => exact hlocked hy
  | publish p doc => exact ⟨hy.1, hlocked hy.2⟩
  | unlock p err => exact hlocked hy
  | free p handle => exact hlocked hy
  | freed p => exact hlocked hy
  | freeFailed p rc => exact hlocked hy
  | docFree d handle p =>
    obtain ⟨doc, hd⟩ := hy
    exact ⟨doc, hclosing hd⟩
  | docFreed d handle p =>
    obtain ⟨doc, hd⟩ := hy
    exact ⟨doc, hclosing hd⟩
  | docFreeFailed d rc =>
    obtain ⟨handle, p, doc, hd⟩ := hy
    exact ⟨handle, p, doc, hclosing hd⟩
  | clear d handle p =>
    obtain ⟨doc, hd, href⟩ := hy
    have href' := h.refs_of_ne hne href
    exact ⟨doc, hclearing hd (hd.has href) (Or.inl ⟨t', href⟩) (Or.inl ⟨t', href'⟩), href'⟩
  | finDoc d =>
    obtain ⟨doc, hd⟩ := hy
    exact ⟨doc, hfinalizing hd⟩
  | finDocFree d handle p =>
    obtain ⟨doc, hd, hrest⟩ := hy
    exact ⟨doc, hfinalizing hd, hrest⟩
  | finDocCommit d handle p freed =>
    obtain ⟨doc, hd, hrest⟩ := hy
    exact ⟨doc, hfinalizing hd, hrest⟩
  | finClear d handle p =>
    obtain ⟨doc, hd, hclear⟩ := hy
    exact ⟨doc, hfinalizing hd, hclearing hclear hd.has hd.alive (hfinalizing hd).alive⟩
  | finParser p =>
    obtain ⟨parser, hp⟩ := hy
    exact ⟨parser, h.finalizing hx hne hp⟩
  | finParserDoc p handle liveDoc =>
    obtain ⟨parser, hp⟩ := hy
    exact ⟨parser, h.finalizing hx hne hp⟩
  | finParserFree p handle freed =>
    obtain ⟨parser, hp⟩ := hy
    exact ⟨parser, h.finalizing hx hne hp⟩
  | finParserCommit p docFreed parserFreed =>
    obtain ⟨parser, hp⟩ := hy
    exact ⟨parser, h.finalizing hx hne hp⟩
  | _ => trivial

/-- **The wrappers' outline.** -/
theorem outline (native : NativeSide ν) :
    Outline (Step (T := T) native) (fun s => Known s ∧ Marked s) Relies where
  keeps hs hx h := ⟨⟨h.known hs.1 hx, h.marked hs.1 hs.2 hx⟩, h.relies hs.1 hs.2 hx⟩
  stable hne hs hx h hy := h.stable hs.1 hs.2 hx hne hy

end

theorem holds_start (w : ν) : Holds (fun s => Known s ∧ Marked s) Relies
    (⟨.start w, fun _ => .idle⟩ : Config T (State T ν) Place) := by
  refine ⟨⟨⟨fun _ _ h => h.elim, fun _ _ h => h.elim, fun q p h => ?_, fun d doc h => ?_⟩, ?_, ?_⟩,
    fun _ => trivial⟩
  · cases h
  · cases h
  · intro d doc parser hd
    cases hd.1
  · intro d d' doc doc' hd
    cases hd.1

end PureSimdjson.Wrappers
