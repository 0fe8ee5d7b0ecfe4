import PureSimdjson.WrapperInvariants

/-!
# What a pool hands out

`Put` looks at a parser once, and whoever put it can still reach it; `Get` looks at nothing.
-/
namespace PureSimdjson.Wrappers

open Runs Threads

variable {T ν : Type}

/-! ## The history of a parser -/

/-- What an action does to the number of times a parser is in the pools. -/
def pooledAfter (p n : Nat) : Action → Nat
  | .put _ p' => if p' = p then n + 1 else n
  | .got _ p' | .evicted _ p' => if p' = p then n - 1 else n
  | _ => n

/-- How many times the parser is in the pools. -/
def pooled (p : Nat) (ls : List (T × Action)) : Nat :=
  ls.foldl (fun n l => pooledAfter p n l.2) 0

/-- What an action does to the number of times a parser is held. -/
def heldAfter (p n : Nat) : Action → Nat
  | .got _ p' | .created _ p' => if p' = p then n + 1 else n
  | .put _ p' => if p' = p then n - 1 else n
  | _ => n

/-- How many times the parser has been got or made and not been put back, whoever did it. -/
def held (p : Nat) (ls : List (T × Action)) : Nat :=
  ls.foldl (fun n l => heldAfter p n l.2) 0

/-- What an action does to whether a parser has parsed since it was put. -/
def parsedAfter (p : Nat) (parsed : Bool) : Action → Bool
  | .put _ p' => if p' = p then false else parsed
  | .parsed p' _ => if p' = p then true else parsed
  | _ => parsed

/-- A `Parse` has succeeded on the parser since it was last put. -/
def parsedSincePut (p : Nat) (ls : List (T × Action)) : Bool :=
  ls.foldl (fun parsed l => parsedAfter p parsed l.2) false

@[simp] theorem pooled_snoc (p : Nat) (ls : List (T × Action)) (l : T × Action) :
    pooled p (ls ++ [l]) = pooledAfter p (pooled p ls) l.2 := by
  simp [pooled]

@[simp] theorem held_snoc (p : Nat) (ls : List (T × Action)) (l : T × Action) :
    held p (ls ++ [l]) = heldAfter p (held p ls) l.2 := by
  simp [held]

@[simp] theorem parsedSincePut_snoc (p : Nat) (ls : List (T × Action)) (l : T × Action) :
    parsedSincePut p (ls ++ [l]) = parsedAfter p (parsedSincePut p ls) l.2 := by
  simp [parsedSincePut]

/-- Nobody closes the parser while it is in a pool. -/
def NotClosedInPool (p : Nat) : List (T × Action) → Prop :=
  Each fun before l => l.2 = .closed p → pooled p before = 0

/-- The parser is never put more often than it has been got or made. -/
def PutsCovered (p : Nat) : List (T × Action) → Prop :=
  Each fun before l => ∀ q, l.2 = .put q p → 0 < held p before

/-- `Get` on the pool has returned the parser. -/
def Action.Hands (q p : Nat) (a : Action) : Prop := a = .got q p ∨ a = .created (some q) p

/-! ## One step -/

section
variable {native : NativeSide ν} {s s' : State T ν} {t : T} {x x' : Place} {a : Action}

theorem Parser.clearLiveDoc_liveDoc {doc : UInt64} {parser : Parser T}
    (h : (parser.clearLiveDoc doc).liveDoc ≠ 0) : parser.liveDoc ≠ 0 := by
  rw [clearLiveDoc] at h
  split at h
  · exact absurd rfl h
  · exact h

theorem Parser.finalized_liveDoc {docFreed parserFreed : Bool} {parser : Parser T}
    (h : (parser.finalized docFreed parserFreed).liveDoc ≠ 0) : parser.liveDoc ≠ 0 := by
  unfold finalized at h
  dsimp only at h
  cases docFreed with
  | true =>
    rw [if_pos rfl] at h
    split_ifs at h <;> exact absurd rfl h
  | false =>
    rw [if_neg Bool.false_ne_true] at h
    split_ifs at h <;> exact h

/-- A parser before a step: it is not closed or marked without a reason. -/
structure ParserBefore (s : State T ν) (a : Action) (p : Nat) (parser' parser : Parser T) :
    Prop where
  found : s.parsers p = some parser
  closed : parser'.closed = true → parser.closed = true ∨ a = .closed p ∨ s.Unreachable p
  liveDoc : parser'.liveDoc ≠ 0 → parser.liveDoc ≠ 0 ∨ ∃ d, a = .parsed p d

theorem Step.parser_before (h : Step native t s x a s' x') (hx : Relies t s x) {p : Nat}
    {parser' : Parser T} (hp : s'.parsers p = some parser') :
    (∃ parser, ParserBefore s a p parser' parser) ∨
      s.parsers p = none ∧ parser'.closed = false ∧ parser'.liveDoc = 0 := by
  have hsame (hp : s.parsers p = some parser') : ∃ parser, ParserBefore s a p parser' parser :=
    ⟨parser', hp, Or.inl, Or.inl⟩
  have hset {p₁ : Nat} {parser₁ parser₂ : Parser T} (h₁ : s.parsers p₁ = some parser₁)
      (hafter : (s.setParser p₁ parser₂).parsers p = some parser')
      (hclosed : parser₂.closed = true → parser₁.closed = true ∨ a = .closed p₁ ∨ s.Unreachable p₁)
      (hlive : parser₂.liveDoc ≠ 0 → parser₁.liveDoc ≠ 0 ∨ ∃ d, a = .parsed p₁ d) :
      ∃ parser, ParserBefore s a p parser' parser := by
    by_cases hpp : p = p₁
    · subst hpp
      rw [State.setParser_parsers_self] at hafter
      cases hafter
      exact ⟨parser₁, h₁, hclosed, hlive⟩
    · exact hsame ((State.setParser_parsers_of_ne hpp).symm.trans hafter)
  have hnew {p₁ : Nat} {parser₁ : Parser T} (h₁ : s.parsers p₁ = none)
      (hafter : (s.setParser p₁ parser₁).parsers p = some parser')
      (hopen : parser₁.closed = false) (hidle : parser₁.liveDoc = 0) :
      (∃ parser, ParserBefore s a p parser' parser) ∨
        s.parsers p = none ∧ parser'.closed = false ∧ parser'.liveDoc = 0 := by
    by_cases hpp : p = p₁
    · subst hpp
      rw [State.setParser_parsers_self] at hafter
      cases hafter
      exact Or.inr ⟨h₁, hopen, hidle⟩
    · exact Or.inl (hsame ((State.setParser_parsers_of_ne hpp).symm.trans hafter))
  cases h with
  | zeroParser h₁ => exact hnew h₁ hp rfl rfl
  | made library h₁ => exact hnew h₁ hp rfl rfl
  | parse data _ h₁ _ _ => exact Or.inl (hset h₁ hp Or.inl Or.inl)
  | publish h₁ _ => exact Or.inl (hset h₁ hp Or.inl fun _ => Or.inr ⟨_, rfl⟩)
  | unlock h₁ => exact Or.inl (hset h₁ hp Or.inl Or.inl)
  | close _ h₁ _ _ => exact Or.inl (hset h₁ hp Or.inl Or.inl)
  | freed h₁ =>
    exact Or.inl (hset h₁ hp (fun _ => Or.inr (Or.inl rfl)) fun hlive => absurd rfl hlive)
  | freeFailed h₁ => exact Or.inl (hset h₁ hp Or.inl Or.inl)
  | clear _ h₁ _ =>
    refine Or.inl (hset h₁ hp (fun hclosed => ?_)
      fun hlive => Or.inl (Parser.clearLiveDoc_liveDoc hlive))
    rw [Parser.clearLiveDoc_closed] at hclosed
    exact Or.inl hclosed
  | finClear _ h₁ _ =>
    refine Or.inl (hset h₁ hp (fun hclosed => ?_)
      fun hlive => Or.inl (Parser.clearLiveDoc_liveDoc hlive))
    rw [Parser.clearLiveDoc_closed] at hclosed
    exact Or.inl hclosed
  | finParserIdle _ h₁ _ _ _ => exact Or.inl (hset h₁ hp Or.inl Or.inl)
  | finParser _ h₁ _ _ _ => exact Or.inl (hset h₁ hp Or.inl Or.inl)
  | finParserClosed h₁ _ _ => exact Or.inl (hset h₁ hp Or.inl Or.inl)
  | finParserCommit h₁ _ =>
    obtain ⟨parser₁, hfin⟩ := hx
    exact Or.inl (hset h₁ hp (fun _ => Or.inr (Or.inr hfin.dead))
      fun hlive => Or.inl (Parser.finalized_liveDoc hlive))
  | _ => exact Or.inl (hsame hp)

/-- How often a parser is in the pools, in the pools themselves. -/
def State.count (s : State T ν) (p : Nat) : Nat := s.stored.countP (·.2 = p)

theorem State.count_pos {q p : Nat} (h : (q, p) ∈ s.stored) : 0 < s.count p :=
  List.countP_pos_iff.mpr ⟨(q, p), h, decide_eq_true rfl⟩

theorem State.not_stored {p : Nat} (h : s.count p = 0) (q : Nat) : (q, p) ∉ s.stored := by
  intro hstored
  have hpos := State.count_pos hstored
  omega

theorem Step.count (h : Step native t s x a s' x') (p : Nat) :
    s'.count p = pooledAfter p (s.count p) a := by
  have herase {q p' : Nat} (hstored : (q, p') ∈ s.stored) :
      (s.stored.erase (q, p')).countP (·.2 = p) =
        if p' = p then s.count p - 1 else s.count p := by
    rw [List.countP_erase, State.count]
    by_cases hpp : p' = p
    · simp [hpp, hpp ▸ hstored]
    · simp [hpp]
  cases h with
  | stop hstop => cases hstop <;> rfl
  | get hstored => exact herase hstored
  | evict hstored => exact herase hstored
  | @put q p' config parser _ _ _ _ _ =>
    show ((q, p') :: s.stored).countP (·.2 = p) = if p' = p then s.count p + 1 else s.count p
    rw [List.countP_cons, State.count]
    by_cases hpp : p' = p <;> simp [hpp]
  | _ => rfl

theorem State.count_eq_zero {p : Nat} (h : ∀ q, (q, p) ∉ s.stored) : s.count p = 0 := by
  refine List.countP_eq_zero.mpr ?_
  rintro ⟨q, p'⟩ hmem heq
  obtain rfl : p' = p := of_decide_eq_true heq
  exact h q hmem

theorem Step.got_spec {q p : Nat} (h : Step native t s x (.got q p) s' x') :
    (q, p) ∈ s.stored ∧ s'.parsers = s.parsers ∧ s'.docs = s.docs ∧ s'.pools = s.pools := by
  generalize ha : Action.got q p = a at h
  cases h with
  | get hstored =>
    cases ha
    exact ⟨hstored, rfl, rfl, rfl⟩
  | stop hstop =>
    subst ha
    cases hstop
  | _ => cases ha

theorem Step.put_idle {q p : Nat} (h : Step native t s x (.put q p) s' x') :
    ∃ parser, s.parsers p = some parser ∧ parser.liveDoc = 0 := by
  generalize ha : Action.put q p = a at h
  cases h with
  | put _ _ hp _ hgate =>
    cases ha
    exact ⟨_, hp, (putGate_ok hgate).2.1⟩
  | stop hstop =>
    subst ha
    cases hstop
  | _ => cases ha

theorem Step.created_spec {pool : Option Nat} {p : Nat}
    (h : Step native t s x (.created pool p) s' x') (hx : Relies t s x) :
    s.parsers p = none ∧ ∃ parser', s'.parsers p = some parser' ∧
      ∀ q, pool = some q → s'.pools q = some parser'.config := by
  generalize ha : Action.created pool p = a at h
  cases h with
  | zeroParser hp =>
    cases ha
    exact ⟨hp, _, State.setParser_parsers_self (s := s), fun q hq => by cases hq⟩
  | made library hp =>
    cases ha
    exact ⟨hp, _, State.setParser_parsers_self (s := s), hx⟩
  | stop hstop =>
    subst ha
    cases hstop
  | _ => cases ha

end

/-! ## Every run -/

section
variable {native : NativeSide ν}

/-- What is true of a run so far. -/
structure After (ls : List (T × Action)) (c : Config T (State T ν) Place) : Prop where
  holds : Holds (fun s => Known s ∧ Marked s) Relies c
  counted : ∀ p, pooled p ls = c.shared.count p
  unused : ∀ p, c.shared.parsers p = none → held p ls = 0
  closed : ∀ p, NotClosedInPool p ls → ∀ q parser, (q, p) ∈ c.shared.stored →
    c.shared.parsers p = some parser → parser.closed = false
  idle : ∀ p, parsedSincePut p ls = false → ∀ q parser, (q, p) ∈ c.shared.stored →
    c.shared.parsers p = some parser → parser.liveDoc = 0
  once : ∀ p, PutsCovered p ls → pooled p ls + held p ls ≤ 1

theorem after_start (w : ν) : After [] (⟨.start w, fun _ => .idle⟩ : Config T _ _) where
  holds := holds_start w
  counted _ := rfl
  unused _ _ := rfl
  closed p _ q parser hq := by cases hq
  idle p _ q parser hq := by cases hq
  once _ _ := Nat.zero_le 1

variable {ls : List (T × Action)} {s s' : State T ν} {own : T → Place} {t : T} {x' : Place}
  {a : Action} {p : Nat}

/-- A parser that is not there is neither held nor in a pool. -/
theorem After.absent (hc : After ls (⟨s, own⟩ : Config T _ _)) (hp : s.parsers p = none) :
    held p ls = 0 ∧ pooled p ls = 0 := by
  refine ⟨hc.unused p hp, (hc.counted p).trans (State.count_eq_zero fun q hq => ?_)⟩
  obtain ⟨parser, hparser, _⟩ := hc.holds.shared.1.stored q p hq
  cases hp.symm.trans hparser

theorem After.unused_step (hc : After ls (⟨s, own⟩ : Config T _ _))
    (h : Step native t s (own t) a s' x') (hp : s'.parsers p = none) :
    held p (ls ++ [(t, a)]) = 0 := by
  have hbefore : s.parsers p = none := by
    by_contra hsome
    obtain ⟨parser, hparser⟩ := Option.ne_none_iff_exists'.mp hsome
    obtain ⟨parser', hparser', _⟩ := h.parser_stays hparser
    cases hp.symm.trans hparser'
  rw [held_snoc, (hc.absent hbefore).1]
  cases a with
  | got q p' =>
    refine if_neg fun hpp => ?_
    subst hpp
    obtain ⟨parser, hparser, _⟩ := hc.holds.shared.1.stored q p' h.got_spec.1
    cases hbefore.symm.trans hparser
  | created pool p' =>
    refine if_neg fun hpp => ?_
    subst hpp
    obtain ⟨_, parser', hparser', _⟩ := h.created_spec (hc.holds.own t)
    cases hp.symm.trans hparser'
  | put q p' =>
    show (if p' = p then 0 - 1 else 0) = 0
    split <;> rfl
  | _ => rfl

/-- A parser in a pool is open, as long as nobody closes it there. -/
theorem After.closed_step (hc : After ls (⟨s, own⟩ : Config T _ _))
    (h : Step native t s (own t) a s' x') (hls : NotClosedInPool p (ls ++ [(t, a)])) {q : Nat}
    {parser' : Parser T} (hq : (q, p) ∈ s'.stored) (hp : s'.parsers p = some parser') :
    parser'.closed = false := by
  rcases h.parser_before (hc.holds.own t) hp with ⟨parser, hbefore⟩ | ⟨_, hopen, _⟩
  · refine Bool.eq_false_of_not_eq_true fun hclosed => ?_
    rcases h.stored_before hq with hstored | ⟨rfl, href, parser₁, hp₁, _, _, hopen, _⟩
    · rcases hbefore.closed hclosed with hclosed | rfl | hdead
      · cases (hc.closed p hls.init q parser hstored hbefore.found).symm.trans hclosed
      · have hzero : pooled p ls = 0 := hls.last rfl
        rw [hc.counted] at hzero
        exact State.not_stored hzero q hstored
      · exact hdead.stored q hstored
    · cases hp₁.symm.trans hbefore.found
      rcases hbefore.closed hclosed with hclosed | heq | hdead
      · cases hopen.symm.trans hclosed
      · cases heq
      · exact hdead.refs t href
  · exact hopen

/-- A parser in a pool is idle, as long as it does not parse after it has been put. -/
theorem After.idle_step (hc : After ls (⟨s, own⟩ : Config T _ _))
    (h : Step native t s (own t) a s' x')
    (hls : parsedSincePut p (ls ++ [(t, a)]) = false) {q : Nat}
    {parser' : Parser T} (hq : (q, p) ∈ s'.stored) (hp : s'.parsers p = some parser') :
    parser'.liveDoc = 0 := by
  rw [parsedSincePut_snoc] at hls
  rcases h.parser_before (hc.holds.own t) hp with ⟨parser, hbefore⟩ | ⟨_, _, hidle⟩
  · by_contra hlive
    rcases hbefore.liveDoc hlive with hlive | ⟨d, rfl⟩
    · rcases h.stored_before hq with hstored | ⟨rfl, _, parser₁, hp₁, _, _, _, hidle⟩
      · -- it has been there before, and nothing but a put forgets that it has parsed
        by_cases hput : ∃ q', a = .put q' p
        · obtain ⟨q', rfl⟩ := hput
          obtain ⟨parser₁, hp₁, hidle⟩ := h.put_idle
          cases hp₁.symm.trans hbefore.found
          exact hlive hidle
        · have hunchanged : parsedSincePut p ls = false := by
            cases a with
            | put q' p' =>
              have hpp : p' ≠ p := fun hpp => hput ⟨q', by rw [hpp]⟩
              exact (if_neg hpp).symm.trans hls
            | parsed p' d =>
              by_cases hpp : p' = p
              · cases (if_pos hpp).symm.trans hls
              · exact (if_neg hpp).symm.trans hls
            | _ => exact hls
          exact hlive (hc.idle p hunchanged q parser hstored hbefore.found)
      · cases hp₁.symm.trans hbefore.found
        exact hlive hidle
    · cases (if_pos rfl).symm.trans hls
  · exact hidle

/-- A parser is in a pool once or held once, as long as the puts are covered. -/
theorem After.once_step (hc : After ls (⟨s, own⟩ : Config T _ _))
    (h : Step native t s (own t) a s' x') (hls : PutsCovered p (ls ++ [(t, a)])) :
    pooled p (ls ++ [(t, a)]) + held p (ls ++ [(t, a)]) ≤ 1 := by
  have honce := hc.once p hls.init
  rw [pooled_snoc, held_snoc]
  cases a with
  | got q p' =>
    show (if p' = p then pooled p ls - 1 else pooled p ls) +
      (if p' = p then held p ls + 1 else held p ls) ≤ 1
    by_cases hpp : p' = p
    · subst hpp
      have hpos := State.count_pos h.got_spec.1
      rw [← hc.counted] at hpos
      rw [if_pos rfl, if_pos rfl]
      omega
    · rwa [if_neg hpp, if_neg hpp]
  | created pool p' =>
    show pooled p ls + (if p' = p then held p ls + 1 else held p ls) ≤ 1
    by_cases hpp : p' = p
    · subst hpp
      obtain ⟨hnone, hzero⟩ := hc.absent (h.created_spec (hc.holds.own t)).1
      rw [if_pos rfl, hnone, hzero]
    · rwa [if_neg hpp]
  | put q p' =>
    show (if p' = p then pooled p ls + 1 else pooled p ls) +
      (if p' = p then held p ls - 1 else held p ls) ≤ 1
    by_cases hpp : p' = p
    · subst hpp
      have hpos : 0 < held p' ls := hls.last q rfl
      rw [if_pos rfl, if_pos rfl]
      omega
    · rwa [if_neg hpp, if_neg hpp]
  | evicted q p' =>
    show (if p' = p then pooled p ls - 1 else pooled p ls) + held p ls ≤ 1
    split <;> omega
  | _ => exact honce

variable [DecidableEq T]

theorem after_move {c c' : Config T (State T ν) Place} {l : T × Action}
    (hc : After ls c) (hmove : Threads.Moves (Step native) c l c') : After (ls ++ [l]) c' := by
  have hholds := (outline native).move hc.holds hmove
  cases hmove with
  | move taken =>
    refine ⟨hholds, fun p => ?_, fun p => hc.unused_step taken, fun p hls q parser =>
      hc.closed_step taken hls, fun p hls q parser => hc.idle_step taken hls,
      fun p => hc.once_step taken⟩
    rw [pooled_snoc, hc.counted]
    exact (taken.count p).symm

theorem after_run {w : ν} {c : Config T (State T ν) Place}
    (h : Run (Threads.Moves (Step native)) ⟨.start w, fun _ => .idle⟩ ls c) : After ls c :=
  h.history (fun _ _ _ _ hc hmove => after_move hc hmove) (after_start w)

/-- No document of the parser is open that anyone can reach or that has yet to be finalized. -/
def State.NoLiveDoc (s : State T ν) (p : Nat) : Prop :=
  ∀ d doc, s.docs d = some doc → doc.parser = p → s.Alive d doc → doc.closed = true

/-- **What a pool hands out.**  A parser that `Get` returns has the configuration of the pool.
It is open unless someone has closed it while it was in a pool, idle unless a `Parse` has succeeded
on it since it was last put, and held by nobody else unless it has been put more often than it had
been got or made. -/
theorem pool_hands_out {w : ν} {c c' : Config T (State T ν) Place} {q p : Nat}
    (h : Run (Threads.Moves (Step native)) ⟨.start w, fun _ => .idle⟩ ls c)
    (hmove : Threads.Moves (Step native) c (t, a) c') (hget : a.Hands q p) :
    ∃ parser, c'.shared.parsers p = some parser ∧ c'.shared.pools q = some parser.config ∧
      (NotClosedInPool p ls → parser.closed = false) ∧
      (parsedSincePut p ls = false → parser.liveDoc = 0 ∧ c'.shared.NoLiveDoc p) ∧
      (PutsCovered p ls → held p ls = 0) := by
  have hc := after_run h
  have hmarked := (after_move hc hmove).holds.shared.2
  have hlive {parser : Parser T} (hp : c'.shared.parsers p = some parser)
      (hidle : parser.liveDoc = 0) : parser.liveDoc = 0 ∧ c'.shared.NoLiveDoc p := by
    refine ⟨hidle, fun d doc hd heq halive => Bool.eq_true_of_not_eq_false fun hopen => ?_⟩
    subst heq
    exact (hmarked.marked ⟨hd, halive, Or.inl hopen⟩ hp).1 hidle
  cases hmove with
  | @move s s' own _ x' _ taken =>
    rcases hget with rfl | rfl
    · -- out of the pool
      obtain ⟨hstored, hparsers, _, hpools⟩ := taken.got_spec
      obtain ⟨parser, hp, hpool⟩ := hc.holds.shared.1.stored q p hstored
      have hp' : s'.parsers p = some parser := hparsers ▸ hp
      refine ⟨parser, hp', hpools ▸ hpool, fun hls => hc.closed p hls q parser hstored hp,
        fun hls => hlive hp' (hc.idle p hls q parser hstored hp), fun hls => ?_⟩
      have honce := hc.once p hls
      have hpos := State.count_pos hstored
      rw [hc.counted] at honce
      dsimp only at honce
      omega
    · -- a new one
      obtain ⟨hnone, parser, hp, hpool⟩ := taken.created_spec (hc.holds.own t)
      have hfresh : parser.closed = false ∧ parser.liveDoc = 0 := by
        rcases taken.parser_before (hc.holds.own t) hp with ⟨parser₁, hbefore⟩ | ⟨_, hfresh⟩
        · cases hnone.symm.trans hbefore.found
        · exact hfresh
      exact ⟨parser, hp, hpool q rfl, fun _ => hfresh.1, fun _ => hlive hp hfresh.2,
        fun _ => hc.unused p hnone⟩

end

/-! ## Misuse -/

/-- Whatever has happened, `Get` returns such a parser. -/
def HandsOut (native : NativeSide ν)
    (P : List (Bool × Action) → Nat → Parser Bool → Prop) : Prop :=
  ∀ (w : ν) (ls : List (Bool × Action)) (c c' : Config Bool (State Bool ν) Place) (t : Bool)
    (a : Action) (q p : Nat) (parser : Parser Bool),
    Run (Threads.Moves (Step native)) ⟨.start w, fun _ => .idle⟩ ls c →
    Threads.Moves (Step native) c (t, a) c' →
    a.Hands q p → c'.shared.parsers p = some parser → P ls p parser

/-- Every native call succeeds. -/
def sampleNative : NativeSide Unit where
  answers _ _ reply _ := reply = .ok 1
  doc_ne_zero h := by
    cases h
    decide

def sampleConfig : ParserConfig := ⟨32, 1⟩

def sampleParser : Parser Bool := ⟨none, some 0, 1, sampleConfig, false, 0, .attached⟩

/-- One parser, which is in the pool and which `true` still reaches. -/
def samplePooled : State Bool Unit where
  parsers := Function.update (fun _ => none) 0 (some sampleParser)
  docs _ := none
  pools := Function.update (fun _ => none) 0 (some sampleConfig)
  stored := [(0, 0)]
  refs t o := False ∨ t = true ∧ o = .parser 0
  native := ()

def samplePut : List Action :=
  [.tau, .tau, .native (.parserNew sampleConfig) (.ok 1), .created (some 0) 0, .put 0 0]

theorem samplePut_alone :
    Alone (Step sampleNative) true (.start ()) .idle samplePut samplePooled .idle :=
  .cons (.newPool sampleConfig rfl) <| .cons (.getMiss rfl) <| .cons (.native rfl rfl) <|
    .cons (.made 0 rfl) <| .cons (.put (Or.inr ⟨rfl, rfl⟩) rfl rfl rfl rfl) <| .nil _ _

theorem samplePut_run : Run (Threads.Moves (Step sampleNative)) ⟨.start (), fun _ => .idle⟩
    (samplePut.map (true, ·)) ⟨samplePooled, fun _ => .idle⟩ := by
  have hrun : Run (Threads.Moves (Step sampleNative)) ⟨.start (), fun _ => .idle⟩
      (samplePut.map (true, ·)) ⟨samplePooled, Function.update (fun _ => .idle) true .idle⟩ :=
    samplePut_alone.run rfl
  rwa [Function.update_eq_self] at hrun

/-- A parser that is put and then closed is handed out closed; one that is put and then parses is
handed out busy; and one that is put twice is handed out twice. -/
theorem pool_misuse : ¬ HandsOut sampleNative (fun _ _ parser => parser.closed = false) ∧
    ¬ HandsOut sampleNative (fun _ _ parser => parser.liveDoc = 0) ∧
    ¬ HandsOut sampleNative (fun ls p _ => held p ls = 0) := by
  refine ⟨fun h => ?_, fun h => ?_, fun h => ?_⟩
  · have hrun := samplePut_run.append <| Alone.run (t := true)
      (.cons (.close (p := 0) (Or.inr ⟨rfl, rfl⟩) rfl rfl rfl) <|
        .cons (.native (w := ()) rfl rfl) <| .cons (.freed rfl) <| .nil _ _) rfl
    have hopen := h () _ _ _ false _ 0 0 _ hrun (.move (.get List.mem_cons_self)) (Or.inl rfl) rfl
    cases hopen
  · have hrun := samplePut_run.append <| Alone.run (t := true)
      (.cons (.parse (p := 0) [] (Or.inr ⟨rfl, rfl⟩) rfl rfl rfl) <|
        .cons (.native (w := ()) rfl rfl) <| .cons (.native (w := ()) rfl rfl) <|
        .cons (.publish (d := 0) rfl rfl) <| .nil _ _) rfl
    have hidle := h () _ _ _ false _ 0 0 _ hrun (.move (.get List.mem_cons_self)) (Or.inl rfl) rfl
    exact absurd hidle (by decide)
  · have hrun := samplePut_run.append <| Alone.run (t := true)
      (.cons (.put (p := 0) (q := 0) (Or.inr ⟨rfl, rfl⟩) rfl rfl rfl rfl) <|
        .cons (.get (q := 0) (p := 0) List.mem_cons_self) <| .nil _ _) rfl
    have hnobody := h () _ _ _ false _ 0 0 _ hrun (.move (.get List.mem_cons_self)) (Or.inl rfl) rfl
    exact absurd hnobody (by decide)

/-- `true` makes a parser and hands it to `false`, which puts it. -/
def sampleHandOff : List (Bool × Action) :=
  (samplePut.take 4).map (true, ·) ++ [(true, .tau)] ++ [(false, .put 0 0)]

theorem sampleHandOff_run : ∃ c : Config Bool (State Bool Unit) Place,
    Run (Threads.Moves (Step sampleNative)) ⟨.start (), fun _ => .idle⟩ sampleHandOff c ∧
      (0, 0) ∈ c.shared.stored ∧ c.own true = .idle := by
  refine ⟨_, .cons (.move (.newPool (q := 0) sampleConfig rfl)) <|
    .cons (.move (.getMiss (q := 0) rfl)) <| .cons (.move (.native (w := ()) rfl rfl)) <|
    .cons (.move (.made 0 rfl)) <|
    .cons (.move (.share (o := .parser 0) false (Or.inr ⟨rfl, rfl⟩))) <|
    .cons (.move (.put (Or.inr ⟨rfl, rfl⟩) rfl rfl rfl rfl)) <| .nil _, List.mem_cons_self,
    rfl⟩

/-- A parser that its holder hands to another goroutine, which puts it, is handed out as it should
be. -/
theorem pool_hands_out_sample :
    ∃ (c' : Config Bool (State Bool Unit) Place) (parser : Parser Bool),
      c'.shared.parsers 0 = some parser ∧ c'.shared.pools 0 = some parser.config ∧
        parser.closed = false ∧ (parser.liveDoc = 0 ∧ c'.shared.NoLiveDoc 0) ∧
        held 0 sampleHandOff = 0 := by
  obtain ⟨c, hrun, hstored, hidle⟩ := sampleHandOff_run
  have hopen : NotClosedInPool 0 sampleHandOff := by
    rintro before ⟨t, a⟩ after heq rfl
    have hmem : (t, .closed 0) ∈ sampleHandOff :=
      heq ▸ List.mem_append_right before List.mem_cons_self
    simp [sampleHandOff, samplePut] at hmem
  have hcovered : PutsCovered 0 sampleHandOff := by
    refine Each.snoc ?_ fun q _ => by decide
    rintro before ⟨t, a⟩ after heq q rfl
    have hmem : (t, .put q 0) ∈ (samplePut.take 4).map (true, ·) ++ [(true, Action.tau)] :=
      heq ▸ List.mem_append_right before List.mem_cons_self
    simp [samplePut] at hmem
  have hget : Step sampleNative true _ .idle _ _ _ := .get hstored
  rw [← hidle] at hget
  obtain ⟨parser, hp, hpool, hclosed, hlive, honce⟩ := pool_hands_out hrun (.move hget) (Or.inl rfl)
  exact ⟨_, parser, hp, hpool, hclosed hopen, hlive rfl, honce hcovered⟩

end PureSimdjson.Wrappers
