import PureSimdjson.Decimals
import PureSimdjson.WildcardScan

/-!
# Which wildcard paths are accepted

The paths of a grammar: segments of two forms one after the other, one of them a wildcard.
A segment can be told from its first byte, and a name or a content ends at a byte it cannot
contain, so the segments that make up a path are the ones the scan finds.
-/
namespace PureSimdjson

open Effect

/-! ## The grammar -/

/-- Opened and closed by the same quote. -/
def Quoted (content : Bytes) : Prop :=
  ∃ quote inner, (quote = singleQuote ∨ quote = doubleQuote) ∧ content = quote :: inner ++ [quote]

/-- A segment of a path: a name after a dot, or something between brackets. -/
inductive IsSegment : WildcardPathSegment → Prop where
  | anyName : IsSegment ⟨true, asciiBytes ['.', '*']⟩
  | name {name : Bytes} (nonempty : name ≠ []) (dot : '.'.toUInt8 ∉ name)
      (bracket : '['.toUInt8 ∉ name) (star : '*'.toUInt8 ∉ name)
      (index : IsDecimal name → ¬ LeadingZero name) : IsSegment ⟨false, '.'.toUInt8 :: name⟩
  | anyBracket : IsSegment ⟨true, asciiBytes ['[', '*', ']']⟩
  | bracket {content : Bytes} (nonempty : content ≠ []) (close : ']'.toUInt8 ∉ content)
      (star : '*'.toUInt8 ∉ content)
      (form : Quoted content ∨ IsDecimal content ∧ ¬ LeadingZero content) :
      IsSegment ⟨false, '['.toUInt8 :: content ++ [']'.toUInt8]⟩

/-- The segments make up the path, behind a dollar or from its start, and one of them is a
wildcard. -/
def IsWildcardPath (path : Bytes) (segments : List WildcardPathSegment) : Prop :=
  (path = segments.flatMap WildcardPathSegment.path ∨
    path = '$'.toUInt8 :: segments.flatMap WildcardPathSegment.path) ∧
  (∀ segment ∈ segments, IsSegment segment) ∧ ∃ segment ∈ segments, segment.wildcard

/-- The UTF-8 encoding of some text. -/
def ValidUtf8 (bytes : Bytes) : Prop := (ByteArray.mk bytes.toArray).IsValidUTF8

theorem isDecimalIndex_iff {content : Bytes} : isDecimalIndex content ↔ IsDecimal content := by
  simp [isDecimalIndex, IsDecimal]

theorem hasLeadingZero_iff {content : Bytes} : hasLeadingZero content ↔ LeadingZero content := by
  rcases content with _ | ⟨c, _ | ⟨d, content⟩⟩
  · simp [hasLeadingZero, LeadingZero]
  · simp [hasLeadingZero, LeadingZero]
  · simp [hasLeadingZero, LeadingZero]

theorem isQuotedKey_iff {content : Bytes} : isQuotedKey content ↔ Quoted content := by
  constructor
  · intro h
    rcases content with _ | ⟨quote, rest⟩
    · simp [isQuotedKey] at h
    · obtain rfl | ⟨inner, last, rfl⟩ := List.eq_nil_or_concat' rest
      · simp [isQuotedKey] at h
      · have hlast : (quote :: (inner ++ [last])).getLast? = some last := by
          rw [← List.cons_append, List.getLast?_concat]
        simp only [isQuotedKey, hlast, List.head?_cons, Option.some.injEq, Bool.and_eq_true,
          Bool.or_eq_true, decide_eq_true_eq] at h
        obtain ⟨⟨-, hquote⟩, rfl⟩ := h
        exact ⟨last, inner, hquote, rfl⟩
  · rintro ⟨quote, inner, hquote, rfl⟩
    have hlast : (quote :: inner ++ [quote]).getLast? = some quote := List.getLast?_concat
    rw [isQuotedKey, hlast]
    simp [hquote]

/-- A quoted key is not a number. -/
theorem Quoted.not_decimal {content : Bytes} (h : Quoted content) : ¬ IsDecimal content := by
  obtain ⟨quote, inner, rfl | rfl, rfl⟩ := h
  · intro hdecimal
    exact absurd (hdecimal singleQuote (by simp)) (by decide)
  · intro hdecimal
    exact absurd (hdecimal doubleQuote (by simp)) (by decide)

/-- What the last check between two brackets lets through. -/
theorem bracketForm_iff {content : Bytes} :
    ¬ ((!isQuotedKey content && !isDecimalIndex content) ||
      (isDecimalIndex content && hasLeadingZero content)) = true ↔
    Quoted content ∨ IsDecimal content ∧ ¬ LeadingZero content := by
  have hboth := @Quoted.not_decimal content
  rw [← isQuotedKey_iff, ← isDecimalIndex_iff] at hboth ⊢
  rw [← hasLeadingZero_iff]
  revert hboth
  cases isQuotedKey content <;> cases isDecimalIndex content <;>
    cases hasLeadingZero content <;> simp

/-- **After a dot, exactly the names are taken.** -/
theorem nameSegment_eq_some {name : Bytes} (hname : ∀ c ∈ name, endsName c = false)
    {segment : WildcardPathSegment} :
    nameSegment name = some segment ↔
      IsSegment segment ∧ segment.path = '.'.toUInt8 :: name := by
  constructor
  · intro h
    rw [nameSegment] at h
    split_ifs at h with hnil hstar hmem hindex
    · cases h
      exact ⟨.anyName, by rw [hstar]; rfl⟩
    · cases h
      refine ⟨.name hnil (fun hdot => ?_) (fun hbracket => ?_) hmem fun hdecimal hzero => ?_, rfl⟩
      · exact absurd (hname _ hdot) (by decide)
      · exact absurd (hname _ hbracket) (by decide)
      · exact hindex (by rw [isDecimalIndex_iff.mpr hdecimal, hasLeadingZero_iff.mpr hzero]; rfl)
  · rintro ⟨hsegment, hpath⟩
    cases hsegment with
    | anyName =>
      obtain rfl : asciiBytes ['*'] = name := (List.cons.inj hpath).2
      rfl
    | @name text hnil hdot hbracket hstar hindex =>
      obtain rfl : text = name := (List.cons.inj hpath).2
      have hne : text ≠ asciiBytes ['*'] := by
        rintro rfl
        exact hstar (List.mem_singleton.mpr rfl)
      have hzero : ¬ (isDecimalIndex text && hasLeadingZero text) = true := by
        rw [Bool.and_eq_true, isDecimalIndex_iff, hasLeadingZero_iff]
        exact fun h => hindex h.1 h.2
      rw [nameSegment, if_neg hnil, if_neg hne, if_neg hstar, if_neg hzero]
    | anyBracket => exact absurd (List.cons.inj hpath).1 (by decide)
    | bracket => exact absurd (List.cons.inj hpath).1 (by decide)

/-- **Between brackets, exactly the contents of the grammar are taken.** -/
theorem bracketSegment_eq_some {content : Bytes} (hclose : ']'.toUInt8 ∉ content)
    {segment : WildcardPathSegment} :
    bracketSegment content = some segment ↔
      IsSegment segment ∧ segment.path = '['.toUInt8 :: content ++ [']'.toUInt8] := by
  constructor
  · intro h
    rw [bracketSegment] at h
    split_ifs at h with hnil hstar hmem hform
    · cases h
      exact ⟨.anyBracket, by rw [hstar]; rfl⟩
    · cases h
      refine ⟨.bracket hnil hclose hmem ?_, rfl⟩
      exact bracketForm_iff.mp hform
  · rintro ⟨hsegment, hpath⟩
    cases hsegment with
    | anyName => exact absurd (List.cons.inj hpath).1 (by decide)
    | name => exact absurd (List.cons.inj hpath).1 (by decide)
    | anyBracket =>
      obtain rfl : asciiBytes ['*'] = content :=
        List.append_cancel_right (List.cons.inj hpath).2
      rfl
    | @bracket text hnil hclose hstar hform =>
      obtain rfl : text = content := List.append_cancel_right (List.cons.inj hpath).2
      have hne : text ≠ asciiBytes ['*'] := by
        rintro rfl
        exact hstar (List.mem_singleton.mpr rfl)
      rw [bracketSegment, if_neg hnil, if_neg hne, if_neg hstar, if_neg (bracketForm_iff.mpr hform)]

/-! ## The whole path -/

/-- The texts of the segments, one after the other. -/
abbrev joinedPath (segments : List WildcardPathSegment) : Bytes :=
  segments.flatMap WildcardPathSegment.path

/-- A segment is a name after a dot or a content between brackets. -/
theorem IsSegment.form {segment : WildcardPathSegment} (h : IsSegment segment) :
    (∃ name, segment.path = '.'.toUInt8 :: name ∧ ∀ c ∈ name, endsName c = false) ∨
      ∃ content, segment.path = '['.toUInt8 :: content ++ [']'.toUInt8] ∧
        ']'.toUInt8 ∉ content := by
  cases h with
  | anyName =>
    refine Or.inl ⟨asciiBytes ['*'], rfl, fun c hc => ?_⟩
    rw [List.mem_singleton.mp hc]
    decide
  | @name text hnil hdot hbracket hstar hindex =>
    refine Or.inl ⟨text, rfl, fun c hc => ?_⟩
    have hc_dot : c ≠ '.'.toUInt8 := fun heq => hdot (heq ▸ hc)
    have hc_bracket : c ≠ '['.toUInt8 := fun heq => hbracket (heq ▸ hc)
    simp [endsName, hc_dot, hc_bracket]
  | anyBracket =>
    refine Or.inr ⟨asciiBytes ['*'], rfl, fun hc => ?_⟩
    exact absurd (List.mem_singleton.mp hc) (by decide)
  | @bracket text hnil hclose hstar hform => exact Or.inr ⟨text, rfl, hclose⟩

/-- The first byte of a segment is one that ends a name. -/
theorem IsSegment.starts {segment : WildcardPathSegment} (h : IsSegment segment) :
    ∃ c tail, segment.path = c :: tail ∧ endsName c = true := by
  obtain ⟨name, hpath, -⟩ | ⟨content, hpath, -⟩ := h.form
  · exact ⟨_, name, hpath, by decide⟩
  · exact ⟨_, content ++ [']'.toUInt8], hpath, by decide⟩

/-- Nothing, or the start of another segment. -/
def AtBoundary (rest : Bytes) : Prop := ∀ c tail, rest = c :: tail → endsName c = true

theorem atBoundary_joinedPath {segments : List WildcardPathSegment}
    (h : ∀ segment ∈ segments, IsSegment segment) : AtBoundary (joinedPath segments) := by
  intro c tail heq
  cases segments with
  | nil => cases heq
  | cons segment segments =>
    obtain ⟨c', tail', hpath, hend⟩ := (h segment List.mem_cons_self).starts
    rw [joinedPath, List.flatMap_cons, hpath] at heq
    rw [← (List.cons.inj heq).1]
    exact hend

/-- The scan takes a segment off the front. -/
theorem classifySegments_append {segment : WildcardPathSegment} (h : IsSegment segment)
    {rest : Bytes} (hrest : AtBoundary rest) (segments : List WildcardPathSegment)
    (sawWildcard : Bool) :
    classifySegments (segment.path ++ rest) segments sawWildcard =
      classifySegments rest (segments ++ [segment]) (sawWildcard || segment.wildcard) := by
  obtain ⟨name, hpath, hname⟩ | ⟨content, hpath, hclose⟩ := h.form
  · have hnot : ∀ c ∈ name, (!endsName c) = true := fun c hc => by rw [hname c hc]; rfl
    have hafter : rest.takeWhile (fun c => !endsName c) = [] ∧
        rest.dropWhile (fun c => !endsName c) = rest := by
      cases rest with
      | nil => exact ⟨rfl, rfl⟩
      | cons c tail => simp [hrest c tail rfl]
    rw [hpath, List.cons_append, classifySegments_dot, List.takeWhile_append_of_pos hnot,
      List.dropWhile_append_of_pos hnot, hafter.1, hafter.2, List.append_nil,
      (nameSegment_eq_some hname).mpr ⟨h, hpath⟩, Option.bind_some]
  · have hnot : ∀ c ∈ content, decide (c ≠ ']'.toUInt8) = true := fun c hc => by
      rw [decide_eq_true_eq]
      rintro rfl
      exact hclose hc
    have hdrop : (content ++ ([']'.toUInt8] ++ rest)).dropWhile (fun c => c ≠ ']'.toUInt8) =
        ']'.toUInt8 :: rest := by
      rw [List.dropWhile_append_of_pos hnot]
      rfl
    have htake : (content ++ ([']'.toUInt8] ++ rest)).takeWhile (fun c => c ≠ ']'.toUInt8) =
        content := by
      rw [List.takeWhile_append_of_pos hnot]
      simp
    rw [hpath, List.cons_append, List.cons_append, List.append_assoc,
      classifySegments_bracket _ _ _ hdrop, htake,
      (bracketSegment_eq_some hclose).mpr ⟨h, hpath⟩, Option.bind_some]

/-- What is left after a segment that the scan took off. -/
theorem classifySegments_cons {c : UInt8} {tail : Bytes} {segments : List WildcardPathSegment}
    {sawWildcard : Bool} {outcome : List WildcardPathSegment × Bool}
    (h : classifySegments (c :: tail) segments sawWildcard = some outcome) :
    ∃ segment rest, IsSegment segment ∧ c :: tail = segment.path ++ rest ∧
      classifySegments rest (segments ++ [segment]) (sawWildcard || segment.wildcard) =
        some outcome := by
  by_cases hdot : c = '.'.toUInt8
  · subst hdot
    rw [classifySegments_dot] at h
    obtain ⟨segment, hsegment, hnext⟩ := Option.bind_eq_some_iff.mp h
    obtain ⟨hgood, hpath⟩ := (nameSegment_eq_some fun c hc => by
      simpa using List.mem_takeWhile_imp hc).mp hsegment
    refine ⟨segment, _, hgood, ?_, hnext⟩
    rw [hpath, List.cons_append, List.takeWhile_append_dropWhile]
  · by_cases hbracket : c = '['.toUInt8
    · subst hbracket
      cases hclose : tail.dropWhile (fun c => c ≠ ']'.toUInt8) with
      | nil =>
        rw [classifySegments_unclosed _ _ _ hclose] at h
        cases h
      | cons close after =>
        rw [classifySegments_bracket _ _ _ hclose] at h
        obtain ⟨segment, hsegment, hnext⟩ := Option.bind_eq_some_iff.mp h
        obtain ⟨hgood, hpath⟩ := (bracketSegment_eq_some fun hc => by
          simpa using List.mem_takeWhile_imp hc).mp hsegment
        refine ⟨segment, after, hgood, ?_, hnext⟩
        have hsplit := List.takeWhile_append_dropWhile (p := fun c => c ≠ ']'.toUInt8) (l := tail)
        rw [hclose, eq_of_dropWhile_ne hclose] at hsplit
        rw [hpath, List.cons_append, List.cons_append, List.append_assoc]
        exact congrArg _ hsplit.symm
    · rw [classifySegments_other _ _ _ (by simp [endsName, hdot, hbracket])] at h
      cases h

/-- **The loop accepts exactly the segments that follow one another**, and adds them to
those it had. -/
theorem classifySegments_eq_some {rest : Bytes} {segments out : List WildcardPathSegment}
    {sawWildcard saw : Bool} :
    classifySegments rest segments sawWildcard = some (out, saw) ↔
      ∃ new, out = segments ++ new ∧ saw = (sawWildcard || new.any WildcardPathSegment.wildcard) ∧
        (∀ segment ∈ new, IsSegment segment) ∧ rest = joinedPath new := by
  constructor
  · -- by induction on how much is left
    generalize hlength : rest.length = n
    induction n using Nat.strongRecOn generalizing rest segments sawWildcard with
    | ind n ih =>
      intro h
      cases rest with
      | nil =>
        rw [classifySegments] at h
        obtain ⟨rfl, rfl⟩ := Prod.mk.inj (Option.some.inj h)
        exact ⟨[], by simp, by simp, by simp, rfl⟩
      | cons c tail =>
        obtain ⟨segment, rest, hgood, hsplit, hnext⟩ := classifySegments_cons h
        obtain ⟨c', tail', hpath, -⟩ := hgood.starts
        have hshorter : rest.length < n := by
          rw [← hlength, hsplit, hpath, List.cons_append, List.length_cons, List.length_append]
          omega
        obtain ⟨new, rfl, rfl, hall, rfl⟩ := ih rest.length hshorter rfl hnext
        refine ⟨segment :: new, by simp, by simp [Bool.or_assoc], ?_, hsplit⟩
        exact List.forall_mem_cons.mpr ⟨hgood, hall⟩
  · rintro ⟨new, rfl, rfl, hall, rfl⟩
    induction new generalizing segments sawWildcard with
    | nil =>
      rw [joinedPath, List.flatMap_nil, classifySegments]
      simp
    | cons segment new ih =>
      obtain ⟨hgood, hall⟩ := List.forall_mem_cons.mp hall
      rw [joinedPath, List.flatMap_cons,
        classifySegments_append hgood (atBoundary_joinedPath hall), ih hall]
      simp [Bool.or_assoc]

/-- The path without its dollar. -/
def withoutDollar (path : Bytes) : Bytes :=
  if path.head? = some '$'.toUInt8 then path.tail else path

/-- No segment starts with a dollar. -/
theorem withoutDollar_joinedPath {segments : List WildcardPathSegment}
    (h : ∀ segment ∈ segments, IsSegment segment) :
    withoutDollar (joinedPath segments) = joinedPath segments := by
  have hboundary := atBoundary_joinedPath h
  generalize joinedPath segments = rest at hboundary
  cases rest with
  | nil => rfl
  | cons c tail =>
    refine if_neg fun hdollar => ?_
    obtain rfl : c = '$'.toUInt8 := Option.some.inj hdollar
    exact absurd (hboundary _ _ rfl) (by decide)

theorem IsWildcardPath.joinedPath_eq {path : Bytes} {segments : List WildcardPathSegment}
    (h : IsWildcardPath path segments) : joinedPath segments = withoutDollar path := by
  obtain ⟨rfl | rfl, hall, -⟩ := h
  · exact (withoutDollar_joinedPath hall).symm
  · rfl

/-- A path is what is left without the dollar, or has it in front. -/
theorem eq_of_withoutDollar {path rest : Bytes} (h : withoutDollar path = rest) :
    path = rest ∨ path = '$'.toUInt8 :: rest := by
  rw [withoutDollar] at h
  split at h
  · rename_i hhead
    obtain ⟨tail, rfl⟩ := List.head?_eq_some_iff.mp hhead
    exact Or.inr (congrArg _ h)
  · exact Or.inl h

/-- What is done after the dollar accepts the segments that make up the rest. -/
theorem classifyRest_eq_some (rest : Bytes) {segments : List WildcardPathSegment} :
    (match rest with
      | [] => none
      | c :: _ =>
        if !endsName c then none
        else
          match classifySegments rest [] false with
          | some (segments, true) => some segments
          | _ => none) = some segments ↔
      rest = joinedPath segments ∧ (∀ segment ∈ segments, IsSegment segment) ∧
        ∃ segment ∈ segments, segment.wildcard := by
  constructor
  · intro h
    split at h
    · cases h
    · split at h
      · cases h
      · split at h
        · rename_i c tail _ found hfound
          cases h
          obtain ⟨new, hnew, hsaw, hall, hrest⟩ := classifySegments_eq_some.mp hfound
          obtain rfl : segments = new := hnew
          exact ⟨hrest, hall, List.any_eq_true.mp hsaw.symm⟩
        · cases h
  · rintro ⟨rfl, hall, hwildcard⟩
    have hfound : classifySegments (joinedPath segments) [] false = some (segments, true) :=
      classifySegments_eq_some.mpr
        ⟨segments, rfl, (List.any_eq_true.mpr hwildcard).symm, hall, rfl⟩
    have hboundary := atBoundary_joinedPath hall
    generalize joinedPath segments = rest at hfound hboundary
    cases rest with
    | nil =>
      rw [classifySegments] at hfound
      cases hfound
    | cons c tail =>
      dsimp only
      rw [hboundary c tail rfl, hfound]
      rfl

/-- **`classify_wildcard_path` finds the segments the path is made of**, if it is. -/
theorem classifyWildcardPath_eq_some {validateUtf8 : Bytes → Bool} {path : Bytes}
    {segments : List WildcardPathSegment} :
    classifyWildcardPath validateUtf8 path = some segments ↔
      validateUtf8 path = true ∧ IsWildcardPath path segments := by
  by_cases hvalid : path ≠ [] ∧ validateUtf8 path = true
  · rw [classifyWildcardPath, if_neg (by simp [hvalid]), ← withoutDollar]
    refine (classifyRest_eq_some (withoutDollar path)).trans ?_
    constructor
    · rintro ⟨hrest, hall, hwildcard⟩
      exact ⟨hvalid.2, eq_of_withoutDollar hrest, hall, hwildcard⟩
    · rintro ⟨-, hpath⟩
      exact ⟨hpath.joinedPath_eq.symm, hpath.2⟩
  · rw [classifyWildcardPath, if_pos (by simpa [or_iff_not_imp_left] using hvalid)]
    refine iff_of_false (fun h => by cases h) fun h => hvalid ⟨?_, h.1⟩
    obtain ⟨-, hpath⟩ := h
    rintro rfl
    -- there is a segment, and none is empty
    obtain ⟨hpath | hpath, hall, segment, hmem, -⟩ := hpath
    · obtain ⟨c, tail, hstart, -⟩ := (hall segment hmem).starts
      have hnil := List.flatMap_eq_nil_iff.mp hpath.symm segment hmem
      rw [hstart] at hnil
      cases hnil
    · cases hpath

/-- The flag says whether the segment is one of the two wildcards. -/
theorem IsSegment.wildcard_iff {segment : WildcardPathSegment} (h : IsSegment segment) :
    segment.wildcard ↔
      segment.path = asciiBytes ['.', '*'] ∨ segment.path = asciiBytes ['[', '*', ']'] := by
  cases h with
  | anyName => exact iff_of_true rfl (Or.inl rfl)
  | anyBracket => exact iff_of_true rfl (Or.inr rfl)
  | @name text hnil hdot hbracket hstar hindex =>
    refine iff_of_false nofun ?_
    rintro (h | h)
    · exact hstar ((List.cons.inj h).2 ▸ List.mem_singleton.mpr rfl)
    · exact absurd (List.cons.inj h).1 (by decide)
  | @bracket text hnil hclose hstar hform =>
    refine iff_of_false nofun ?_
    rintro (h | h)
    · exact absurd (List.cons.inj h).1 (by decide)
    · obtain rfl : text = asciiBytes ['*'] := List.append_cancel_right (List.cons.inj h).2
      exact hstar (List.mem_singleton.mpr rfl)

/-- **The wildcard path grammar.**  Whatever the bytes, the scan ends without having read
outside of them; it accepts a path if and only if the path is UTF-8 and made of the segments
of the grammar, one of them a wildcard.  The segments it records then make up the path
behind its dollar, each with the right flag. -/
theorem wildcard_grammar {validateUtf8 : Bytes → Bool}
    (hutf8 : ∀ bytes, validateUtf8 bytes = true ↔ ValidUtf8 bytes) (path : Bytes) :
    ∃ outcome, (∀ fuel, path.length < fuel →
        scanWildcardPath validateUtf8 fuel path = .ok outcome) ∧
      (outcome.isSome ↔ ValidUtf8 path ∧ ∃ segments, IsWildcardPath path segments) ∧
      ∀ segments, outcome = some segments → IsWildcardPath path segments ∧
        segments.flatMap WildcardPathSegment.path = withoutDollar path ∧
        ∀ segment ∈ segments, (segment.wildcard ↔
          segment.path = asciiBytes ['.', '*'] ∨ segment.path = asciiBytes ['[', '*', ']']) := by
  refine ⟨classifyWildcardPath validateUtf8 path,
    fun fuel => scanWildcardPath_eq validateUtf8 path, ?_, fun segments h => ?_⟩
  · rw [Option.isSome_iff_exists]
    simp only [classifyWildcardPath_eq_some, hutf8, exists_and_left]
  · obtain ⟨-, hpath⟩ := classifyWildcardPath_eq_some.mp h
    refine ⟨hpath, hpath.joinedPath_eq, fun segment hmem => ?_⟩
    exact (hpath.2.1 segment hmem).wildcard_iff

/-- The text of `$.a[*]`. -/
def samplePath : Bytes := asciiBytes ['$', '.', 'a', '[', '*', ']']

/-- `validate_utf8`, as simdjson documents it. -/
def validateUtf8 (bytes : Bytes) : Bool := (ByteArray.mk bytes.toArray).validateUTF8

theorem validateUtf8_iff (bytes : Bytes) : validateUtf8 bytes = true ↔ ValidUtf8 bytes :=
  ByteArray.validateUTF8_eq_true_iff

theorem samplePath_ok : IsWildcardPath samplePath
    [⟨false, asciiBytes ['.', 'a']⟩, ⟨true, asciiBytes ['[', '*', ']']⟩] := by
  have hname : IsSegment ⟨false, '.'.toUInt8 :: asciiBytes ['a']⟩ := by
    refine .name (by decide) (by decide) (by decide) (by decide) fun h => ?_
    exact absurd (h _ (List.mem_singleton.mpr rfl)) (by decide)
  refine ⟨Or.inr rfl, ?_, ⟨true, asciiBytes ['[', '*', ']']⟩, by simp, rfl⟩
  exact List.forall_mem_cons.mpr ⟨hname, List.forall_mem_singleton.mpr .anyBracket⟩

theorem samplePath_utf8 : ValidUtf8 samplePath := ⟨['$', '.', 'a', '[', '*', ']'], rfl⟩

theorem wildcard_grammar_sample : ∃ outcome, (∀ fuel, 6 < fuel →
      scanWildcardPath validateUtf8 fuel samplePath = .ok outcome) ∧ outcome.isSome := by
  obtain ⟨outcome, hscan, hsome, -⟩ := wildcard_grammar validateUtf8_iff samplePath
  exact ⟨outcome, hscan, hsome.mpr ⟨samplePath_utf8, _, samplePath_ok⟩⟩

end PureSimdjson
