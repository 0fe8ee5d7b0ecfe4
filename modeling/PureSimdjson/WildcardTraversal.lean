import PureSimdjson.SampleDocument
import PureSimdjson.WildcardGrammar

/-!
# What a wildcard path finds

`traverse_wildcard_path` goes level by level: it keeps the elements it has reached so far,
and collects the literal segments between two wildcards to resolve them at once.  Here it
is compared with following each branch on its own, one segment at a time.  A branch that a
segment does not fit contributes nothing; any other error in any branch is an error of the
whole call.

simdjson's lookups are a parameter, over the elements of a document by tape index.
-/
namespace PureSimdjson

open Effect Json

/-! ## Following a branch -/

section
variable (dom : Dom Nat) (root : Json)

/-- What looking up a path leads to from the element at `j`: the element that is reached,
or the error that must not be dropped. -/
def lookupBranches (path : Bytes) (j : Nat) : List (Except SimdjsonError Nat) :=
  match dom.atPath j path with
  | .ok k => [.ok k]
  | .error error => if dropsBranch error then [] else [.error error]

/-- What one segment leads to. -/
def segmentBranches (segment : WildcardPathSegment) (j : Nat) : List (Except SimdjsonError Nat) :=
  if segment.wildcard then (root.childrenAt j).map fun c => .ok c.1
  else lookupBranches dom segment.path j

/-- The branch goes on where it has reached an element. -/
def follow (next : Nat → List (Except SimdjsonError Nat)) :
    Except SimdjsonError Nat → List (Except SimdjsonError Nat)
  | .ok k => next k
  | .error error => [.error error]

/-- **Where the segments lead from the element at `j`, branch by branch in document order.** -/
def denote : List WildcardPathSegment → (j : Nat) → List (Except SimdjsonError Nat)
  | [], j => [.ok j]
  | segment :: segments, j =>
    (segmentBranches dom root segment j).flatMap (follow (denote segments))

end

/-! ## What is assumed of the lookups -/

/-- The two wildcards. -/
def IsWildcardText (path : Bytes) : Prop :=
  path = asciiBytes ['.', '*'] ∨ path = asciiBytes ['[', '*', ']']

/-- Segments without a wildcard. -/
def AreLiteral (segments : List WildcardPathSegment) : Prop :=
  ∀ segment ∈ segments, IsSegment segment ∧ segment.wildcard = false

/-- A path of at least one segment, and no wildcard. -/
def IsLiteralPath (path : Bytes) : Prop :=
  ∃ segments, segments ≠ [] ∧ AreLiteral segments ∧ path = joinedPath segments

/-- The segment `[i]`. -/
def indexSegment (i : Nat) : WildcardPathSegment :=
  ⟨false, '['.toUInt8 :: decimalDigits i ++ [']'.toUInt8]⟩

/-- **What the traversal relies on**, on the elements of the document `root`. -/
structure PathLookups (dom : Dom Nat) (root : Json) : Prop where
  /-- A path leads to an element under the one it starts from. -/
  atPath_under : ∀ j u path k, root.At j u → dom.atPath j path = .ok k → ∃ v, (k, v) ∈ u.elements j
  /-- Looking up two paths in a row is looking up the second from what the first found. -/
  atPath_append : ∀ j u p q, root.At j u → IsLiteralPath p → IsLiteralPath q →
    dom.atPath j (p ++ q) = dom.atPath j p >>= fun k => dom.atPath k q
  /-- `[i]` selects the `i`-th item of an array. -/
  atPath_index : ∀ j items i c, root.At j (.array items) →
    ((Json.array items).placedChildren j)[i]? = some c →
      dom.atPath j (indexSegment i).path = .ok c.1
  /-- A wildcard gives the direct children of a container, in document order. -/
  wildcard_container : ∀ j u path, root.At j u → u.isContainer → IsWildcardText path →
    dom.atPathWithWildcard j path = .ok ((u.placedChildren j).map Prod.fst)
  /-- A wildcard does not fit a scalar. -/
  wildcard_scalar : ∀ j u path, root.At j u → u.isContainer = false → IsWildcardText path →
    ∃ error, dom.atPathWithWildcard j path = .error error ∧ dropsBranch error

/-- `[i]` is a segment. -/
theorem isSegment_indexSegment (i : Nat) : IsSegment (indexSegment i) := by
  have hdecimal := isDecimal_decimalDigits i
  refine .bracket ?_ (fun hc => ?_) (fun hc => ?_)
    (Or.inr ⟨hdecimal, not_leadingZero_decimalDigits i⟩)
  · rw [decimalDigits]
    split <;> simp
  · exact absurd (hdecimal _ hc) (by decide)
  · exact absurd (hdecimal _ hc) (by decide)

/-! ## Branches compose -/

theorem flatMap_follow_ok (branches : List (Except SimdjsonError Nat)) :
    branches.flatMap (follow fun k => [.ok k]) = branches := by
  induction branches with
  | nil => rfl
  | cons b branches ih =>
    rw [List.flatMap_cons, ih]
    cases b <;> rfl

theorem flatMap_follow_map (f : Nat → List (Except SimdjsonError Nat)) (ks : List Nat) :
    (ks.map Except.ok).flatMap (follow f) = ks.flatMap f := by
  rw [List.flatMap_map]
  rfl

theorem flatMap_follow_follow (branches : List (Except SimdjsonError Nat))
    (f g : Nat → List (Except SimdjsonError Nat)) :
    (branches.flatMap (follow f)).flatMap (follow g) =
      branches.flatMap (follow fun k => (f k).flatMap (follow g)) := by
  rw [List.flatMap_assoc]
  congr 1
  funext b
  cases b with
  | ok k => rfl
  | error error => exact List.flatMap_singleton _ _

section
variable {dom : Dom Nat} {root : Json}

theorem denote_append (p q : List WildcardPathSegment) (j : Nat) :
    denote dom root (p ++ q) j = (denote dom root p j).flatMap (follow (denote dom root q)) := by
  induction p generalizing j with
  | nil => exact (List.flatMap_singleton _ _).symm
  | cons segment p ih =>
    rw [List.cons_append, denote, denote, flatMap_follow_follow]
    congr 2
    funext k
    exact ih k

theorem lookupBranches_under (h : PathLookups dom root) {j k : Nat} {u : Json}
    (hat : root.At j u) {path : Bytes} (hk : .ok k ∈ lookupBranches dom path j) :
    ∃ v, (k, v) ∈ u.elements j := by
  rw [lookupBranches] at hk
  split at hk
  · rename_i k' hk'
    obtain rfl : k = k' := by simpa using hk
    exact h.atPath_under j u path k hat hk'
  · split at hk <;> simp at hk

theorem segmentBranches_under (h : PathLookups dom root) {j k : Nat} {u : Json}
    (hat : root.At j u) {segment : WildcardPathSegment}
    (hk : .ok k ∈ segmentBranches dom root segment j) : ∃ v, (k, v) ∈ u.elements j := by
  rw [segmentBranches] at hk
  split at hk
  · obtain ⟨c, hc, hck⟩ := List.mem_map.mp hk
    cases hck
    rw [hat.childrenAt] at hc
    exact ⟨c.2, mem_elements_of_placedChildren hc⟩
  · exact lookupBranches_under h hat hk

/-- A branch stays under the element it starts from. -/
theorem denote_under (h : PathLookups dom root) :
    ∀ {segments : List WildcardPathSegment} {j k : Nat} {u : Json}, root.At j u →
      .ok k ∈ denote dom root segments j → ∃ v, (k, v) ∈ u.elements j := by
  intro segments
  induction segments with
  | nil =>
    intro j k u hat hk
    obtain rfl : k = j := by simpa [denote] using hk
    exact ⟨u, mem_elements_self k u⟩
  | cons segment segments ih =>
    intro j k u hat hk
    obtain ⟨b, hb, hk⟩ := List.mem_flatMap.mp hk
    cases b with
    | error error => simp [follow] at hk
    | ok i =>
      obtain ⟨v, hv⟩ := segmentBranches_under h hat hb
      obtain ⟨w, hw⟩ := ih (mem_elements_trans hat hv) hk
      exact ⟨w, mem_elements_trans hv hw⟩

/-! ## Literal segments are resolved at once -/

theorem lookupBranches_append (h : PathLookups dom root) {j : Nat} {u : Json} (hat : root.At j u)
    {p q : Bytes} (hp : IsLiteralPath p) (hq : IsLiteralPath q) :
    lookupBranches dom (p ++ q) j =
      (lookupBranches dom p j).flatMap (follow (lookupBranches dom q)) := by
  rw [lookupBranches, h.atPath_append j u p q hat hp hq, lookupBranches]
  cases dom.atPath j p with
  | ok k => exact (List.flatMap_singleton _ _).symm
  | error error =>
    simp only [bind, Except.bind]
    split <;> rfl

theorem AreLiteral.isLiteralPath {segments : List WildcardPathSegment} (h : AreLiteral segments)
    (hne : segments ≠ []) : IsLiteralPath (joinedPath segments) := ⟨segments, hne, h, rfl⟩

theorem denote_literal (h : PathLookups dom root) {segments : List WildcardPathSegment}
    (hliteral : AreLiteral segments) (hne : segments ≠ []) {j : Nat} {u : Json}
    (hat : root.At j u) :
    denote dom root segments j = lookupBranches dom (joinedPath segments) j := by
  induction segments generalizing j u with
  | nil => exact absurd rfl hne
  | cons segment segments ih =>
    obtain ⟨hsegment, hrest⟩ : _ ∧ AreLiteral segments := List.forall_mem_cons.mp hliteral
    rw [denote, segmentBranches, hsegment.2, joinedPath, List.flatMap_cons]
    by_cases hnil : segments = []
    · subst hnil
      rw [List.flatMap_nil, List.append_nil]
      exact flatMap_follow_ok _
    · have hone : IsLiteralPath segment.path :=
        ⟨[segment], List.cons_ne_nil _ _, List.forall_mem_singleton.mpr hsegment, by simp⟩
      rw [lookupBranches_append h hat hone (hrest.isLiteralPath hnil)]
      simp only [Bool.false_eq_true, if_false]
      refine List.flatMap_congr fun b hb => ?_
      cases b with
      | error error => rfl
      | ok k =>
        obtain ⟨v, hv⟩ := lookupBranches_under h hat hb
        exact ih hrest hnil (mem_elements_trans hat hv)

/-! ## Level by level -/

/-- The outcome of a level says what its branches say: the elements of all of them, or one of
the errors. -/
def Collects (outcome : Except ErrorCode (List Nat)) (branches : List (Except SimdjsonError Nat)) :
    Prop :=
  match outcome with
  | .ok ks => branches = ks.map .ok
  | .error rc => ∃ error, .error error ∈ branches ∧ rc = mapError error

/-- What a step of `expand` says about the branches from one element. -/
def stepBranches (step : Nat → Except SimdjsonError (List Nat)) (j : Nat) :
    List (Except SimdjsonError Nat) :=
  match step j with
  | .ok found => found.map .ok
  | .error error => if dropsBranch error then [] else [.error error]

theorem collects_expand (step : Nat → Except SimdjsonError (List Nat)) (current : List Nat) :
    Collects (expand step current) (current.flatMap (stepBranches step)) := by
  induction current with
  | nil => rfl
  | cons j current ih =>
    rw [expand, List.flatMap_cons, stepBranches]
    cases hstep : step j with
    | ok found =>
      cases hrest : expand step current with
      | ok ks =>
        rw [hrest] at ih
        have hks : current.flatMap (stepBranches step) = ks.map .ok := ih
        show _ = (found ++ ks).map Except.ok
        rw [hks, List.map_append]
      | error rc =>
        rw [hrest] at ih
        obtain ⟨error, hmem, hrc⟩ := ih
        exact ⟨error, List.mem_append_right _ hmem, hrc⟩
    | error error =>
      by_cases hdrops : dropsBranch error = true
      · simp only [hdrops, if_true, List.nil_append]
        exact ih
      · simp only [hdrops, Bool.false_eq_true, if_false]
        exact ⟨error, List.mem_cons_self, rfl⟩

theorem Collects.ok_iff {outcome : Except ErrorCode (List Nat)}
    {branches : List (Except SimdjsonError Nat)} (h : Collects outcome branches) {ks : List Nat} :
    outcome = .ok ks ↔ branches = ks.map .ok := by
  cases outcome with
  | ok found =>
    have hfound : branches = found.map .ok := h
    rw [Except.ok.injEq, hfound, (List.map_injective_iff.mpr fun _ _ => Except.ok.inj).eq_iff]
  | error rc =>
    obtain ⟨error, hmem, -⟩ := h
    refine iff_of_false nofun fun hks => ?_
    rw [hks] at hmem
    obtain ⟨k, -, hk⟩ := List.mem_map.mp hmem
    cases hk

theorem Collects.bind {outcome : Except ErrorCode (List Nat)}
    {branches : List (Except SimdjsonError Nat)} (h : Collects outcome branches)
    {next : List Nat → Except ErrorCode (List Nat)} {f : Nat → List (Except SimdjsonError Nat)}
    (hnext : ∀ ks, branches = ks.map .ok → Collects (next ks) (ks.flatMap f)) :
    Collects (outcome >>= next) (branches.flatMap (follow f)) := by
  cases outcome with
  | ok ks =>
    have hks : branches = ks.map .ok := h
    have hlevel := hnext ks hks
    rw [hks, flatMap_follow_map]
    exact hlevel
  | error rc =>
    obtain ⟨error, hmem, hrc⟩ := h
    exact ⟨error, List.mem_flatMap.mpr ⟨_, hmem, List.mem_singleton.mpr rfl⟩, hrc⟩

/-- The elements a level starts from are elements of the document. -/
def AllAt (root : Json) (ks : List Nat) : Prop := ∀ k ∈ ks, ∃ u, root.At k u

/-- The elements the next level starts from are too. -/
theorem AllAt.next {current ks : List Nat} (h : AllAt root current)
    {branches : Nat → List (Except SimdjsonError Nat)}
    (hks : current.flatMap branches = ks.map .ok)
    (hunder : ∀ {j k u}, root.At j u → .ok k ∈ branches j → ∃ v, (k, v) ∈ u.elements j) :
    AllAt root ks := by
  intro k hk
  have hmem : .ok k ∈ current.flatMap branches := by
    rw [hks]
    exact List.mem_map_of_mem hk
  obtain ⟨j, hj, hk⟩ := List.mem_flatMap.mp hmem
  obtain ⟨u, hat⟩ := h j hj
  obtain ⟨v, hv⟩ := hunder hat hk
  exact ⟨v, mem_elements_trans hat hv⟩

theorem collects_applyLiteral (h : PathLookups dom root) {segments : List WildcardPathSegment}
    (hliteral : AreLiteral segments) {current : List Nat} (hall : AllAt root current) :
    Collects (applyLiteral dom (joinedPath segments) current)
      (current.flatMap (denote dom root segments)) := by
  by_cases hnil : segments = []
  · subst hnil
    rw [applyLiteral, if_pos (show joinedPath [] = [] from rfl)]
    exact List.flatMap_pure_eq_map Except.ok current
  · have hpath : joinedPath segments ≠ [] := by
      obtain ⟨segment, rest, rfl⟩ := List.exists_cons_of_ne_nil hnil
      obtain ⟨c, tail, hstart, -⟩ := (hliteral segment List.mem_cons_self).1.starts
      rw [joinedPath, List.flatMap_cons, hstart]
      exact List.cons_ne_nil _ _
    rw [applyLiteral, if_neg hpath]
    have hbranches : current.flatMap (denote dom root segments) = current.flatMap
        (stepBranches fun e => (dom.atPath e (joinedPath segments)).map fun k => [k]) := by
      refine List.flatMap_congr fun j hj => ?_
      obtain ⟨u, hat⟩ := hall j hj
      rw [denote_literal h hliteral hnil hat, lookupBranches, stepBranches]
      cases dom.atPath j (joinedPath segments) <;> rfl
    rw [hbranches]
    exact collects_expand _ _

theorem collects_wildcard (h : PathLookups dom root) {segment : WildcardPathSegment}
    (hsegment : IsSegment segment) (hwildcard : segment.wildcard = true) {current : List Nat}
    (hall : AllAt root current) :
    Collects (expand (dom.atPathWithWildcard · segment.path) current)
      (current.flatMap (segmentBranches dom root segment)) := by
  have hbranches : current.flatMap (segmentBranches dom root segment) =
      current.flatMap (stepBranches (dom.atPathWithWildcard · segment.path)) := by
    refine List.flatMap_congr fun j hj => ?_
    obtain ⟨u, hat⟩ := hall j hj
    have htext : IsWildcardText segment.path := hsegment.wildcard_iff.mp hwildcard
    rw [segmentBranches, if_pos hwildcard, stepBranches, hat.childrenAt]
    cases hcontainer : u.isContainer with
    | true =>
      rw [h.wildcard_container j u _ hat hcontainer htext]
      simp
    | false =>
      obtain ⟨error, herror, hdrops⟩ := h.wildcard_scalar j u _ hat hcontainer htext
      have hnone : u.placedChildren j = [] := by
        cases u <;> first | rfl | cases hcontainer
      rw [herror, hnone]
      simp [hdrops]
  rw [hbranches]
  exact collects_expand _ _

/-- **The loop keeps the level that the branches have reached**, behind the literal segments
that wait to be resolved. -/
theorem traverseSegments_collects (h : PathLookups dom root)
    {segments : List WildcardPathSegment} (hsegments : ∀ segment ∈ segments, IsSegment segment)
    {waiting : List WildcardPathSegment} (hwaiting : AreLiteral waiting) {current : List Nat}
    (hall : AllAt root current) :
    Collects (traverseSegments dom segments (joinedPath waiting) current)
      (current.flatMap (denote dom root (waiting ++ segments))) := by
  induction segments generalizing waiting current with
  | nil =>
    rw [List.append_nil]
    exact collects_applyLiteral h hwaiting hall
  | cons segment segments ih =>
    obtain ⟨hsegment, hrest⟩ := List.forall_mem_cons.mp hsegments
    rw [traverseSegments]
    cases hwildcard : segment.wildcard with
    | false =>
      have hmore : AreLiteral (waiting ++ [segment]) :=
        List.forall_mem_append.mpr
          ⟨hwaiting, List.forall_mem_singleton.mpr ⟨hsegment, hwildcard⟩⟩
      have hnext := ih hrest hmore hall
      rw [joinedPath, List.flatMap_append, List.append_assoc] at hnext
      simpa using hnext
    | true =>
      have hsplit : denote dom root (waiting ++ segment :: segments) = fun j =>
          (denote dom root waiting j).flatMap (follow (denote dom root (segment :: segments))) := by
        funext j
        exact denote_append waiting (segment :: segments) j
      rw [hsplit, ← List.flatMap_assoc]
      refine (collects_applyLiteral h hwaiting hall).bind fun ks hks => ?_
      have hks_at : AllAt root ks := hall.next hks fun hat => denote_under h hat
      show Collects _ (ks.flatMap fun j =>
        (segmentBranches dom root segment j).flatMap (follow (denote dom root segments)))
      rw [← List.flatMap_assoc]
      refine (collects_wildcard h hsegment hwildcard hks_at).bind fun next hnext => ?_
      have hnext_at : AllAt root next :=
        hks_at.next hnext fun hat => segmentBranches_under h hat
      have hnone : AreLiteral [] := List.forall_mem_nil _
      exact ih hrest hnone hnext_at

/-! ## In document order -/

/-- The branches reach elements in the order in which they stand on the tape. -/
theorem denote_ascending (h : PathLookups dom root) :
    ∀ {segments : List WildcardPathSegment} {j : Nat} {u : Json}, root.At j u →
      (denote dom root segments j).Pairwise fun a b => ∀ x y, a = .ok x → b = .ok y → x < y := by
  intro segments
  induction segments with
  | nil => exact fun _ => List.pairwise_singleton _ _
  | cons segment segments ih =>
    intro j u hat
    rw [denote, List.pairwise_flatMap]
    constructor
    · intro b hb
      cases b with
      | ok k =>
        obtain ⟨v, hv⟩ := segmentBranches_under h hat hb
        exact ih (mem_elements_trans hat hv)
      | error error => exact List.pairwise_singleton _ _
    · rw [segmentBranches]
      split
      · -- a branch stays within its child, and the children lie behind each other
        rw [List.pairwise_map, hat.childrenAt]
        refine (placedChildren_apart u j).imp_of_mem fun {a b} ha hb hab => ?_
        rintro _ hx _ hy x y rfl rfl
        have hata := mem_elements_trans hat (mem_elements_of_placedChildren ha)
        have hatb := mem_elements_trans hat (mem_elements_of_placedChildren hb)
        obtain ⟨v, hv⟩ := denote_under h hata hx
        obtain ⟨w, hw⟩ := denote_under h hatb hy
        have hx_lt := (span_of_mem_elements hv).2
        have hy_le := (span_of_mem_elements hw).1
        have hpos := v.width_pos
        omega
      · rw [lookupBranches]
        split
        · exact List.pairwise_singleton _ _
        · split
          · exact List.Pairwise.nil
          · exact List.pairwise_singleton _ _

/-! ## One wildcard over an array -/

/-- A lookup along literal segments; along none it stays where it is. -/
def lookupPath (dom : Dom Nat) (j : Nat) (path : Bytes) : Except SimdjsonError Nat :=
  if path = [] then .ok j else dom.atPath j path

/-- The path that takes the `i`-th item instead of the wildcard. -/
def indexedPath (p q : List WildcardPathSegment) (i : Nat) : Bytes :=
  joinedPath p ++ (indexSegment i).path ++ joinedPath q

theorem denote_of_lookupPath (h : PathLookups dom root) {p : List WildcardPathSegment}
    (hp : AreLiteral p) {j k : Nat} {u : Json} (hat : root.At j u)
    (hlookup : lookupPath dom j (joinedPath p) = .ok k) : denote dom root p j = [.ok k] := by
  by_cases hnil : p = []
  · subst hnil
    cases hlookup
    rfl
  · obtain ⟨segment, rest, rfl⟩ := List.exists_cons_of_ne_nil hnil
    obtain ⟨c, tail, hstart, -⟩ := (hp segment List.mem_cons_self).1.starts
    have hpath : joinedPath (segment :: rest) ≠ [] := by
      rw [joinedPath, List.flatMap_cons, hstart]
      exact List.cons_ne_nil _ _
    rw [lookupPath, if_neg hpath] at hlookup
    rw [denote_literal h hp hnil hat, lookupBranches, hlookup]

/-- Going through a list by index. -/
theorem flatMap_eq_range {α β : Type} {l : List α} {f : α → List β} {g : Nat → List β}
    (h : ∀ i a, l[i]? = some a → g i = f a) :
    l.flatMap f = (List.range l.length).flatMap g := by
  induction l generalizing g with
  | nil => rfl
  | cons a l ih =>
    rw [List.flatMap_cons, List.length_cons, List.range_succ_eq_map, List.flatMap_cons,
      List.flatMap_map, h 0 a rfl, ih fun i b hi => h (i + 1) b hi]

/-- Looking up the item by its index goes on from the item. -/
theorem lookupBranches_indexedPath (h : PathLookups dom root) {p q : List WildcardPathSegment}
    (hp : AreLiteral p) (hq : AreLiteral q) {j k : Nat} {u : Json} (hat : root.At j u)
    (hlookup : lookupPath dom j (joinedPath p) = .ok k) {items : List Json}
    (hitems : root.At k (.array items)) {i : Nat} {c : Nat × Json}
    (hc : ((Json.array items).placedChildren k)[i]? = some c) :
    lookupBranches dom (indexedPath p q i) j = denote dom root q c.1 := by
  have hsegment : IsSegment (indexSegment i) ∧ (indexSegment i).wildcard = false :=
    ⟨isSegment_indexSegment i, rfl⟩
  have hliteral : AreLiteral (p ++ indexSegment i :: q) :=
    List.forall_mem_append.mpr ⟨hp, List.forall_mem_cons.mpr ⟨hsegment, hq⟩⟩
  have hpath : indexedPath p q i = joinedPath (p ++ indexSegment i :: q) := by
    rw [indexedPath, joinedPath, joinedPath, joinedPath, List.flatMap_append, List.flatMap_cons,
      List.append_assoc]
  have hstep : segmentBranches dom root (indexSegment i) k = [.ok c.1] := by
    rw [segmentBranches, if_neg (by simp [hsegment.2]), lookupBranches,
      h.atPath_index k items i c hitems hc]
  rw [hpath, ← denote_literal h hliteral (by simp) hat, denote_append,
    denote_of_lookupPath h hp hat hlookup, List.flatMap_singleton, follow, denote, hstep,
    List.flatMap_singleton, follow]

/-- **A wildcard over an array goes on from every item as looking it up by its index does.** -/
theorem denote_wildcard (h : PathLookups dom root) {p q : List WildcardPathSegment}
    (hp : AreLiteral p) (hq : AreLiteral q) {j k : Nat} {u : Json} (hat : root.At j u)
    (hlookup : lookupPath dom j (joinedPath p) = .ok k) {items : List Json}
    (hitems : root.At k (.array items)) {path : Bytes} :
    denote dom root (p ++ ⟨true, path⟩ :: q) j =
      (List.range items.length).flatMap fun i => lookupBranches dom (indexedPath p q i) j := by
  have hlength : ((Json.array items).placedChildren k).length = items.length :=
    length_placedItems _ _
  rw [denote_append, denote_of_lookupPath h hp hat hlookup, List.flatMap_singleton, follow,
    denote, segmentBranches, if_pos rfl, hitems.childrenAt, List.flatMap_map, ← hlength]
  refine flatMap_eq_range fun i c hc => ?_
  exact lookupBranches_indexedPath h hp hq hat hlookup hitems hc

/-- The successful ones of some lookups, if none of the others must not be dropped. -/
theorem flatMap_lookupBranches {paths : List Bytes} {j : Nat} {ks : List Nat} :
    paths.flatMap (lookupBranches dom · j) = ks.map .ok ↔
      (∀ path ∈ paths, ∀ error, dom.atPath j path = .error error → dropsBranch error) ∧
        ks = paths.filterMap fun path => (dom.atPath j path).toOption := by
  induction paths generalizing ks with
  | nil => cases ks <;> simp
  | cons path paths ih =>
    rw [List.flatMap_cons, List.forall_mem_cons, List.filterMap_cons, lookupBranches]
    cases hpath : dom.atPath j path with
    | ok k =>
      cases ks with
      | nil => simp [Except.toOption]
      | cons k' ks =>
        simp only [List.singleton_append, List.map_cons, List.cons.injEq, Except.ok.injEq, ih,
          reduceCtorEq, false_implies, implies_true, true_and, Except.toOption, eq_comm (a := k)]
        tauto
    | error error =>
      by_cases hdrops : dropsBranch error = true
      · simp [hdrops, ih, Except.toOption]
      · cases ks <;> simp [hdrops]

/-! ## The whole traversal -/

/-- **What `traverse_wildcard_path` finds.**  For every accepted path and from every element,
the call returns the elements that the branches reach, in document order; it fails if and
only if one of them meets an error that must not be dropped, and then with such an error.
Where a literal path leads to an array, going on from `[*]` behind it collects the lookups
that go on from `[0]`, `[1]` and so on. -/
theorem wildcard_traversal (h : PathLookups dom root) {validateUtf8 : Bytes → Bool} {path : Bytes}
    {segments : List WildcardPathSegment}
    (haccepted : classifyWildcardPath validateUtf8 path = some segments) {j : Nat} {u : Json}
    (hat : root.At j u) :
    (∀ ks, traverseWildcardPath dom j segments = .ok ks ↔
      denote dom root segments j = ks.map .ok) ∧
    (∀ rc, traverseWildcardPath dom j segments = .error rc →
      ∃ error, .error error ∈ denote dom root segments j ∧ rc = mapError error) ∧
    (∀ ks, traverseWildcardPath dom j segments = .ok ks → ks.Pairwise (· < ·)) ∧
    ∀ p q k items, segments = p ++ ⟨true, asciiBytes ['[', '*', ']']⟩ :: q →
      (∀ segment ∈ p ++ q, segment.wildcard = false) →
      lookupPath dom j (joinedPath p) = .ok k → root.At k (.array items) →
      ∀ ks, traverseWildcardPath dom j segments = .ok ks ↔
        (∀ i < items.length, ∀ error, dom.atPath j (indexedPath p q i) = .error error →
          dropsBranch error) ∧
        ks = (List.range items.length).filterMap fun i =>
          (dom.atPath j (indexedPath p q i)).toOption := by
  obtain ⟨-, -, hsegments, -⟩ := classifyWildcardPath_eq_some.mp haccepted
  have hroot : AllAt root [j] := List.forall_mem_singleton.mpr ⟨u, hat⟩
  have hnone : AreLiteral [] := List.forall_mem_nil _
  have hcollects : Collects (traverseWildcardPath dom j segments) (denote dom root segments j) := by
    have hloop := traverseSegments_collects h hsegments hnone hroot
    rwa [List.flatMap_singleton, List.nil_append] at hloop
  have hok (ks : List Nat) : traverseWildcardPath dom j segments = .ok ks ↔
      denote dom root segments j = ks.map .ok := hcollects.ok_iff
  refine ⟨hok, fun rc hrc => ?_, fun ks hks => ?_, ?_⟩
  · rwa [hrc] at hcollects
  · have hascending : (denote dom root segments j).Pairwise _ := denote_ascending h hat
    rw [(hok ks).mp hks, List.pairwise_map] at hascending
    exact hascending.imp fun hlt => hlt _ _ rfl rfl
  · rintro p q k items rfl hliteral hlookup hitems ks
    have hp : AreLiteral p := fun segment hmem =>
      ⟨hsegments segment (List.mem_append_left _ hmem),
        hliteral segment (List.mem_append_left _ hmem)⟩
    have hq : AreLiteral q := fun segment hmem =>
      ⟨hsegments segment (List.mem_append_right _ (List.mem_cons_of_mem _ hmem)),
        hliteral segment (List.mem_append_right _ hmem)⟩
    have hbranches : denote dom root (p ++ ⟨true, asciiBytes ['[', '*', ']']⟩ :: q) j =
        ((List.range items.length).map (indexedPath p q)).flatMap (lookupBranches dom · j) := by
      rw [denote_wildcard h hp hq hat hlookup hitems, List.flatMap_map]
    rw [hok, hbranches, flatMap_lookupBranches, List.filterMap_map, List.forall_mem_map]
    simp only [List.mem_range, Function.comp_def]

end

/-! ## Lookups in a tree -/

/-- The name of a segment, without its dot, its brackets or its quotes. -/
def segmentName (segment : WildcardPathSegment) : Bytes :=
  if segment.path.head? = some '.'.toUInt8 then segment.path.tail
  else
    let content := segment.path.tail.dropLast
    if isQuotedKey content then content.tail.dropLast else content

/-- The child that a segment selects. -/
def treeSegment (root : Json) (j : Nat) (segment : WildcardPathSegment) :
    Except SimdjsonError Nat :=
  match root.at? j with
  | some (.array items) =>
    if isDecimalIndex (segmentName segment) then
      match ((Json.array items).placedChildren j)[digitsValue (segmentName segment)]? with
      | some c => .ok c.1
      | none => .error .indexOutOfBounds
    else .error .incorrectType
  | some (.object fields) =>
    match (fields.zip ((Json.object fields).placedChildren j)).find? fun f =>
        f.1.1 = segmentName segment with
    | some f => .ok f.2.1
    | none => .error .noSuchField
  | _ => .error .invalidJsonPointer

/-- Looking up the segments of a path one after the other. -/
def treePath (root : Json) (j : Nat) (path : Bytes) : Except SimdjsonError Nat :=
  match classifySegments path [] false with
  | some (segments, _) => segments.foldlM (treeSegment root) j
  | none => .error .invalidJsonPointer

/-- The children of a container. -/
def treeWildcard (root : Json) (j : Nat) (_path : Bytes) : Except SimdjsonError (List Nat) :=
  match root.at? j with
  | some u => if u.isContainer then .ok ((u.placedChildren j).map Prod.fst)
    else .error .invalidJsonPointer
  | none => .error .invalidJsonPointer

/-- The lookups of a document that is given as a tree. -/
def treeDom (root : Json) : Dom Nat :=
  { sampleDom with atPath := treePath root, atPathWithWildcard := treeWildcard root }

theorem segmentName_indexSegment (i : Nat) : segmentName (indexSegment i) = decimalDigits i := by
  have hcontent : (indexSegment i).path.tail.dropLast = decimalDigits i := by
    simp [indexSegment]
  have hquoted : ¬ isQuotedKey (decimalDigits i) = true := by
    rw [isQuotedKey_iff]
    exact fun hquoted => hquoted.not_decimal (isDecimal_decimalDigits i)
  have hhead : (indexSegment i).path.head? ≠ some '.'.toUInt8 := fun heq =>
    absurd (Option.some.inj heq) (by decide)
  rw [segmentName, if_neg hhead, hcontent]
  exact if_neg hquoted

theorem treeSegment_under {root u : Json} {j k : Nat} (hat : root.At j u)
    {segment : WildcardPathSegment} (h : treeSegment root j segment = .ok k) :
    ∃ v, (k, v) ∈ u.elements j := by
  rw [treeSegment, at?_eq_some.mpr hat] at h
  cases u with
  | array items =>
    dsimp only at h
    split at h
    · split at h
      · rename_i c hc
        cases h
        exact ⟨c.2, mem_elements_of_placedChildren (List.mem_of_getElem? hc)⟩
      · cases h
    · cases h
  | object fields =>
    dsimp only at h
    split at h
    · rename_i f hf
      cases h
      have hmem := List.of_mem_zip (List.mem_of_find?_eq_some hf)
      exact ⟨f.2.2, mem_elements_of_placedChildren hmem.2⟩
    · cases h
  | _ => cases h

theorem foldlM_treeSegment_under {root : Json} {segments : List WildcardPathSegment} :
    ∀ {j k : Nat} {u : Json}, root.At j u → segments.foldlM (treeSegment root) j = .ok k →
      ∃ v, (k, v) ∈ u.elements j := by
  induction segments with
  | nil =>
    intro j k u hat h
    cases h
    exact ⟨u, mem_elements_self j u⟩
  | cons segment segments ih =>
    intro j k u hat h
    rw [List.foldlM_cons] at h
    cases hstep : treeSegment root j segment with
    | error error =>
      rw [hstep] at h
      cases h
    | ok i =>
      rw [hstep, except_ok_bind] at h
      obtain ⟨v, hv⟩ := treeSegment_under hat hstep
      obtain ⟨w, hw⟩ := ih (mem_elements_trans hat hv) h
      exact ⟨w, mem_elements_trans hv hw⟩

theorem treePath_joinedPath {segments : List WildcardPathSegment}
    (h : ∀ segment ∈ segments, IsSegment segment) (root : Json) (j : Nat) :
    treePath root j (joinedPath segments) = segments.foldlM (treeSegment root) j := by
  have hfound : classifySegments (joinedPath segments) [] false =
      some (segments, segments.any WildcardPathSegment.wildcard) :=
    classifySegments_eq_some.mpr ⟨segments, rfl, rfl, h, rfl⟩
  rw [treePath, hfound]

/-- **A tree's lookups do what the traversal relies on.** -/
theorem tree_pathLookups (root : Json) : PathLookups (treeDom root) root where
  atPath_under j u path k hat h := by
    have hpath : treePath root j path = .ok k := h
    rw [treePath] at hpath
    split at hpath
    · exact foldlM_treeSegment_under hat hpath
    · cases hpath
  atPath_append j u p q hat hp hq := by
    obtain ⟨ps, -, hps, rfl⟩ := hp
    obtain ⟨qs, -, hqs, rfl⟩ := hq
    have hps' : ∀ segment ∈ ps, IsSegment segment := fun segment hmem => (hps segment hmem).1
    have hqs' : ∀ segment ∈ qs, IsSegment segment := fun segment hmem => (hqs segment hmem).1
    show treePath root j _ = treePath root j _ >>= fun k => treePath root k _
    simp only [treePath_joinedPath hps', treePath_joinedPath hqs', ← List.flatMap_append,
      treePath_joinedPath (List.forall_mem_append.mpr ⟨hps', hqs'⟩), List.foldlM_append]
  atPath_index j items i c hat hc := by
    have hpath : (indexSegment i).path = joinedPath [indexSegment i] :=
      (List.flatMap_singleton _ _).symm
    have hstep : treeSegment root j (indexSegment i) = .ok c.1 := by
      rw [treeSegment, at?_eq_some.mpr hat, segmentName_indexSegment]
      dsimp only
      rw [if_pos (isDecimalIndex_iff.mpr (isDecimal_decimalDigits i)), digitsValue_decimalDigits,
        hc]
    show treePath root j (indexSegment i).path = .ok c.1
    rw [hpath, treePath_joinedPath (List.forall_mem_singleton.mpr (isSegment_indexSegment i)),
      List.foldlM_cons, hstep]
    rfl
  wildcard_container j u path hat hcontainer _ := by
    show treeWildcard root j path = _
    rw [treeWildcard, at?_eq_some.mpr hat]
    exact if_pos hcontainer
  wildcard_scalar j u path hat hcontainer _ := by
    refine ⟨.invalidJsonPointer, ?_, rfl⟩
    show treeWildcard root j path = _
    rw [treeWildcard, at?_eq_some.mpr hat]
    exact if_neg (by simp [hcontainer])

/-- The items of the array under the key `a`. -/
theorem wildcard_traversal_sample :
    traverseWildcardPath (treeDom sampleDocument) 1
      [⟨false, asciiBytes ['.', 'a']⟩, ⟨true, asciiBytes ['[', '*', ']']⟩] = .ok [4, 5] := by
  have haccepted := classifyWildcardPath_eq_some.mpr
    ⟨(validateUtf8_iff samplePath).mpr samplePath_utf8, samplePath_ok⟩
  obtain ⟨hfound, -⟩ := wildcard_traversal (tree_pathLookups sampleDocument) haccepted
    (at_root sampleDocument)
  have hkey : (treeDom sampleDocument).atPath 1 (asciiBytes ['.', 'a']) = .ok 3 := by
    have hone : ∀ segment ∈ [⟨false, asciiBytes ['.', 'a']⟩], IsSegment segment :=
      List.forall_mem_singleton.mpr (samplePath_ok.2.1 _ List.mem_cons_self)
    exact (treePath_joinedPath hone sampleDocument 1).trans rfl
  refine (hfound [4, 5]).mpr ?_
  rw [denote, segmentBranches, if_neg (by decide), lookupBranches, hkey]
  rfl

end PureSimdjson
