import PureSimdjson.Effect
import PureSimdjson.WildcardPath

/-!
# The scan of a wildcard path

`classify_wildcard_path` goes through the path with a cursor, and looks at bytes by their
position.  The scan is given here as it runs, with a fault for a read that is not in the
path and one for a loop that goes on for too long.  It never meets either: what it says is
what the function on the rest of the path says.
-/
namespace PureSimdjson

open Effect

/-! ## The scan -/

/-- What must not happen while a path is scanned. -/
inductive ScanFault where
  /-- A byte was read, or a piece cut out, that is not in the string. -/
  | outOfRange
  /-- A loop went round too often. -/
  | outOfFuel
  deriving DecidableEq

/-- A piece of the scan. -/
abbrev ScanM := Except ScanFault

/-- `text[index]`; `front()` and `back()` are of this form. -/
def byteAt (text : Bytes) (index : Nat) : ScanM UInt8 :=
  match text[index]? with
  | some c => .ok c
  | none => .error .outOfRange

/-- `text.substr(position, count)`. -/
def substr (text : Bytes) (position count : Nat) : ScanM Bytes :=
  if position ≤ text.length then .ok ((text.drop position).take count) else .error .outOfRange

/-- `text.find(c, position)`. -/
def findFrom (text : Bytes) (c : UInt8) (position : Nat) : Option Nat :=
  ((text.drop position).findIdx? fun b => b = c).map (position + ·)

/-- The inner `while` loop: where the name that is being read ends. -/
def nameEnd (path : Bytes) : (fuel index : Nat) → ScanM Nat
  | 0, _ => .error .outOfFuel
  | fuel + 1, index =>
    if index < path.length then do
      let c ← byteAt path index
      if endsName c then pure index else nameEnd path fuel (index + 1)
    else pure index

/-- `segment.size() > 1 && segment.front() == '0'`. -/
def leadingZeroAt (segment : Bytes) : ScanM Bool :=
  if segment.length > 1 then do
    let front ← byteAt segment 0
    pure (front = '0'.toUInt8)
  else pure false

/-- `quoted_key`, read as it is evaluated. -/
def quotedKeyAt (segment : Bytes) : ScanM Bool :=
  if segment.length ≥ 2 then do
    let front ← byteAt segment 0
    if front = singleQuote || front = doubleQuote then do
      let back ← byteAt segment (segment.length - 1)
      pure (back = front)
    else pure false
  else pure false

/-- The `while` loop of `classify_wildcard_path`. -/
def scanSegments (path : Bytes) : (fuel index : Nat) → List WildcardPathSegment →
    (sawWildcard : Bool) → ScanM (Option (List WildcardPathSegment × Bool))
  | 0, _, _, _ => .error .outOfFuel
  | fuel + 1, index, segments, sawWildcard =>
    if index < path.length then do
      let c ← byteAt path index
      if c = '.'.toUInt8 then do
        let segmentStart := index + 1
        let index ← nameEnd path (fuel + 1) segmentStart
        let segment ← substr path segmentStart (index - segmentStart)
        if segment = [] then pure none
        else if segment = asciiBytes ['*'] then
          scanSegments path fuel index (segments ++ [⟨true, asciiBytes ['.', '*']⟩]) true
        else if '*'.toUInt8 ∈ segment then pure none
        else do
          let leadingZero ← leadingZeroAt segment
          if isDecimalIndex segment && leadingZero then pure none
          else
            scanSegments path fuel index (segments ++ [⟨false, '.'.toUInt8 :: segment⟩])
              sawWildcard
      else if c ≠ '['.toUInt8 then pure none
      else
        match findFrom path ']'.toUInt8 (index + 1) with
        | none => pure none
        | some close => do
          let segment ← substr path (index + 1) (close - index - 1)
          if segment = [] then pure none
          else if segment = asciiBytes ['*'] then
            scanSegments path fuel (close + 1)
              (segments ++ [⟨true, asciiBytes ['[', '*', ']']⟩]) true
          else if '*'.toUInt8 ∈ segment then pure none
          else do
            let quotedKey ← quotedKeyAt segment
            let leadingZero ← leadingZeroAt segment
            if (!quotedKey && !isDecimalIndex segment) ||
                (isDecimalIndex segment && leadingZero) then pure none
            else do
              let text ← substr path index (close - index + 1)
              scanSegments path fuel (close + 1) (segments ++ [⟨false, text⟩]) sawWildcard
    else pure (some (segments, sawWildcard))

/-- `classify_wildcard_path`, with its cursor. -/
def scanWildcardPath (validateUtf8 : Bytes → Bool) (fuel : Nat) (path : Bytes) :
    ScanM (Option (List WildcardPathSegment)) :=
  if path = [] || !validateUtf8 path then pure none
  else do
    let front ← byteAt path 0
    let index := if front = '$'.toUInt8 then 1 else 0
    if index = path.length then pure none
    else do
      let c ← byteAt path index
      if !endsName c then pure none
      else do
        match ← scanSegments path fuel index [] false with
        | some (segments, true) => pure (some segments)
        | _ => pure none

/-! ## One segment -/

/-- What the run of bytes after a dot comes to. -/
def nameSegment (name : Bytes) : Option WildcardPathSegment :=
  if name = [] then none
  else if name = asciiBytes ['*'] then some ⟨true, asciiBytes ['.', '*']⟩
  else if '*'.toUInt8 ∈ name then none
  else if isDecimalIndex name && hasLeadingZero name then none
  else some ⟨false, '.'.toUInt8 :: name⟩

/-- What the bytes between two brackets come to. -/
def bracketSegment (content : Bytes) : Option WildcardPathSegment :=
  if content = [] then none
  else if content = asciiBytes ['*'] then some ⟨true, asciiBytes ['[', '*', ']']⟩
  else if '*'.toUInt8 ∈ content then none
  else if (!isQuotedKey content && !isDecimalIndex content) ||
      (isDecimalIndex content && hasLeadingZero content) then none
  else some ⟨false, '['.toUInt8 :: content ++ [']'.toUInt8]⟩

section
variable (tail : Bytes) (segments : List WildcardPathSegment) (sawWildcard : Bool)

theorem classifySegments_dot :
    classifySegments ('.'.toUInt8 :: tail) segments sawWildcard =
      (nameSegment (tail.takeWhile fun c => !endsName c)).bind fun segment =>
        classifySegments (tail.dropWhile fun c => !endsName c) (segments ++ [segment])
          (sawWildcard || segment.wildcard) := by
  rw [classifySegments, if_pos rfl]
  dsimp only
  generalize tail.takeWhile (fun c => !endsName c) = name
  rw [nameSegment]
  split_ifs <;> simp

/-- A bracket that is not closed. -/
theorem classifySegments_unclosed
    (h : tail.dropWhile (fun c => c ≠ ']'.toUInt8) = []) :
    classifySegments ('['.toUInt8 :: tail) segments sawWildcard = none := by
  rw [classifySegments, if_neg (by decide), if_neg (by decide)]
  dsimp only
  split
  · rfl
  · rename_i close after hafter
    rw [h] at hafter
    cases hafter

theorem classifySegments_bracket {close : UInt8} {after : Bytes}
    (h : tail.dropWhile (fun c => c ≠ ']'.toUInt8) = close :: after) :
    classifySegments ('['.toUInt8 :: tail) segments sawWildcard =
      (bracketSegment (tail.takeWhile fun c => c ≠ ']'.toUInt8)).bind fun segment =>
        classifySegments after (segments ++ [segment]) (sawWildcard || segment.wildcard) := by
  rw [classifySegments, if_neg (by decide), if_neg (by decide)]
  dsimp only
  split
  · rename_i hafter
    rw [h] at hafter
    cases hafter
  · rename_i close' after' hafter
    obtain ⟨-, rfl⟩ := List.cons.inj (h.symm.trans hafter)
    generalize tail.takeWhile (fun c => c ≠ ']'.toUInt8) = content
    rw [bracketSegment]
    split_ifs <;> simp

/-- A segment starts with a dot or a bracket. -/
theorem classifySegments_other {c : UInt8} (h : endsName c = false) :
    classifySegments (c :: tail) segments sawWildcard = none := by
  obtain ⟨hdot, hbracket⟩ : c ≠ '.'.toUInt8 ∧ c ≠ '['.toUInt8 := by
    simpa [endsName] using h
  rw [classifySegments, if_neg hdot, if_pos hbracket]

end

/-! ## The scan meets no fault -/

theorem byteAt_of_drop {text tail : Bytes} {index : Nat} {c : UInt8}
    (h : text.drop index = c :: tail) : byteAt text index = .ok c := by
  have hget : text[index]? = some c := by
    rw [← Nat.add_zero index, ← List.getElem?_drop, h]
    rfl
  rw [byteAt, hget]

theorem substr_of_le {text : Bytes} {position : Nat} (h : position ≤ text.length)
    (count : Nat) : substr text position count = .ok ((text.drop position).take count) := by
  rw [substr, if_pos h]

theorem leadingZeroAt_eq (segment : Bytes) :
    leadingZeroAt segment = .ok (hasLeadingZero segment) := by
  rcases segment with _ | ⟨c, _ | ⟨d, segment⟩⟩
  · rfl
  · rfl
  · rw [leadingZeroAt, if_pos (by simp), byteAt_of_drop rfl, except_ok_bind]
    simp [hasLeadingZero, pure, Except.pure]

theorem quotedKeyAt_eq (segment : Bytes) : quotedKeyAt segment = .ok (isQuotedKey segment) := by
  rw [quotedKeyAt, isQuotedKey]
  by_cases hlength : segment.length ≥ 2
  · obtain ⟨c, segment, rfl⟩ :=
      List.exists_cons_of_length_pos (show 0 < segment.length by omega)
    have hback : byteAt (c :: segment) ((c :: segment).length - 1) =
        .ok ((c :: segment).getLast (List.cons_ne_nil _ _)) := by
      rw [byteAt, List.getElem?_eq_getElem (by simp), List.getLast_eq_getElem]
    rw [if_pos hlength, byteAt_of_drop rfl, except_ok_bind, decide_eq_true hlength, hback,
      except_ok_bind, List.getLast?_eq_some_getLast (List.cons_ne_nil _ _)]
    by_cases hquote : c = singleQuote ∨ c = doubleQuote
    · simp [hquote, pure, Except.pure]
    · simp [hquote, pure, Except.pure]
  · rw [if_neg hlength, decide_eq_false hlength]
    rfl

/-- **A name ends where the bytes of a name do.** -/
theorem nameEnd_eq (path : Bytes) {fuel index : Nat} (hindex : index ≤ path.length)
    (hfuel : path.length < fuel + index) :
    nameEnd path fuel index =
      .ok (index + ((path.drop index).takeWhile fun c => !endsName c).length) := by
  induction fuel generalizing index with
  | zero => omega
  | succ fuel ih =>
    rw [nameEnd]
    by_cases hlt : index < path.length
    · have hdrop := List.drop_eq_getElem_cons hlt
      rw [if_pos hlt, byteAt_of_drop hdrop, except_ok_bind, hdrop, List.takeWhile_cons]
      cases hend : endsName path[index] with
      | true => rfl
      | false =>
        have hnext := ih (show index + 1 ≤ path.length from hlt) (by omega)
        simpa [Nat.add_assoc, Nat.add_comm 1] using hnext
    · rw [if_neg hlt, List.drop_eq_nil_of_le (by omega)]
      rfl

/-! Cutting off what is left of a path at the first byte that does not satisfy `p`. -/

section
variable (path : Bytes) (p : UInt8 → Bool) (position : Nat)

theorem drop_takeWhile :
    path.drop (position + ((path.drop position).takeWhile p).length) =
      (path.drop position).dropWhile p := by
  rw [← List.drop_drop]
  have hsplit := List.takeWhile_append_dropWhile (p := p) (l := path.drop position)
  generalize path.drop position = rest at hsplit ⊢
  calc rest.drop (rest.takeWhile p).length
      = (rest.takeWhile p ++ rest.dropWhile p).drop (rest.takeWhile p).length := by rw [hsplit]
    _ = rest.dropWhile p := List.drop_left

theorem take_takeWhile :
    (path.drop position).take ((path.drop position).takeWhile p).length =
      (path.drop position).takeWhile p := by
  have hsplit := List.takeWhile_append_dropWhile (p := p) (l := path.drop position)
  generalize path.drop position = rest at hsplit ⊢
  calc rest.take (rest.takeWhile p).length
      = (rest.takeWhile p ++ rest.dropWhile p).take (rest.takeWhile p).length := by rw [hsplit]
    _ = rest.takeWhile p := List.take_left

variable {path position}

theorem takeWhile_le (h : position ≤ path.length) :
    position + ((path.drop position).takeWhile p).length ≤ path.length := by
  have hle := (List.takeWhile_sublist (l := path.drop position) p).length_le
  rw [List.length_drop] at hle
  omega

end

/-- What is left behind the bytes different from `c` starts with `c`. -/
theorem eq_of_dropWhile_ne {c close : UInt8} {rest after : Bytes}
    (h : rest.dropWhile (fun b => b ≠ c) = close :: after) : close = c := by
  have hhead := List.head?_dropWhile_not (fun b => b ≠ c) rest
  rw [h] at hhead
  simpa using hhead

/-- `find` stops where the bytes different from `c` do. -/
theorem findFrom_eq (path : Bytes) (c : UInt8) (position : Nat) :
    findFrom path c position =
      if (path.drop position).dropWhile (fun b => b ≠ c) = [] then none
      else some (position + ((path.drop position).takeWhile fun b => b ≠ c).length) := by
  rw [findFrom]
  induction path.drop position with
  | nil => rfl
  | cons b rest ih =>
    rw [List.findIdx?_cons, List.dropWhile_cons, List.takeWhile_cons]
    by_cases hb : b = c
    · simp [hb]
    · simp only [hb, decide_false, Bool.false_eq_true, if_false, ne_eq, not_false_eq_true,
        decide_true, if_true, List.length_cons] at ih ⊢
      have hshift : (fun k => position + k) ∘ (· + 1) = (· + 1) ∘ fun k => position + k := rfl
      rw [Option.map_map, hshift, ← Option.map_map, ih]
      split <;> rfl

/-- **The loop reads what is left of the path from the front to the back.** -/
theorem scanSegments_eq (path : Bytes) {fuel index : Nat} (hindex : index ≤ path.length)
    (hfuel : path.length < fuel + index) (segments : List WildcardPathSegment)
    (sawWildcard : Bool) :
    scanSegments path fuel index segments sawWildcard =
      .ok (classifySegments (path.drop index) segments sawWildcard) := by
  induction fuel generalizing index segments sawWildcard with
  | zero => omega
  | succ fuel ih =>
    rw [scanSegments]
    by_cases hlt : index < path.length
    · have hdrop := List.drop_eq_getElem_cons hlt
      have hnext : index + 1 ≤ path.length := hlt
      rw [if_pos hlt, byteAt_of_drop hdrop, hdrop, except_ok_bind]
      generalize path[index] = c at hdrop
      by_cases hdot : c = '.'.toUInt8
      · -- the name runs up to the next separator
        subst hdot
        have hend := takeWhile_le (fun c => !endsName c) hnext
        rw [if_pos rfl, classifySegments_dot, nameSegment]
        simp only [nameEnd_eq path hnext (show path.length < fuel + 1 + (index + 1) by omega),
          except_ok_bind, substr_of_le hnext, Nat.add_sub_cancel_left, take_takeWhile,
          leadingZeroAt_eq, ih hend (by omega), drop_takeWhile]
        split_ifs <;> simp [pure, Except.pure]
      · rw [if_neg hdot]
        by_cases hbracket : c = '['.toUInt8
        · subst hbracket
          rw [if_neg (not_not_intro rfl), findFrom_eq]
          cases hclose : (path.drop (index + 1)).dropWhile (fun c => c ≠ ']'.toUInt8) with
          | nil =>
            rw [if_pos rfl, classifySegments_unclosed _ _ _ hclose]
            rfl
          | cons close after =>
            -- the content runs up to the first closing bracket
            obtain rfl : close = ']'.toUInt8 := eq_of_dropWhile_ne hclose
            rw [if_neg (List.cons_ne_nil _ _), classifySegments_bracket _ _ _ hclose]
            have htail := drop_takeWhile path (fun c => c ≠ ']'.toUInt8) (index + 1)
            have htake := take_takeWhile path (fun c => c ≠ ']'.toUInt8) (index + 1)
            rw [hclose] at htail
            generalize (path.drop (index + 1)).takeWhile (fun c => c ≠ ']'.toUInt8) = content
              at htail htake ⊢
            have hend : index + 1 + content.length < path.length := by
              by_contra hle
              rw [List.drop_eq_nil_of_le (by omega)] at htail
              cases htail
            have hafter : path.drop (index + 1 + content.length + 1) = after := by
              rw [← List.drop_drop, htail, List.drop_one, List.tail_cons]
            have hcontent : substr path (index + 1) (index + 1 + content.length - index - 1) =
                .ok content := by
              rw [substr_of_le hnext, show index + 1 + content.length - index - 1 = content.length
                by omega, htake]
            have htext : substr path index (index + 1 + content.length - index + 1) =
                .ok ('['.toUInt8 :: content ++ [']'.toUInt8]) := by
              have hsplit : path.drop index =
                  '['.toUInt8 :: content ++ [']'.toUInt8] ++ after := by
                rw [hdrop, ← List.take_append_drop content.length (path.drop (index + 1)),
                  htake, List.drop_drop, htail]
                simp
              have hlength : index + 1 + content.length - index + 1 =
                  ('['.toUInt8 :: content ++ [']'.toUInt8]).length := by
                simp
                omega
              rw [substr_of_le hlt.le, hsplit, hlength, List.take_left]
            simp only [hcontent, except_ok_bind, quotedKeyAt_eq, leadingZeroAt_eq, htext,
              ih hend (by omega), hafter]
            rw [bracketSegment]
            split_ifs <;> simp [pure, Except.pure]
        · have hother : endsName c = false := by simp [endsName, hdot, hbracket]
          rw [if_pos hbracket, classifySegments_other _ _ _ hother]
          rfl
    · rw [if_neg hlt, List.drop_eq_nil_of_le (by omega), classifySegments]
      rfl

/-- The part after the dollar. -/
theorem scanFrom_eq (path : Bytes) {fuel index : Nat} (hindex : index ≤ path.length)
    (hfuel : path.length < fuel + index) :
    (if index = path.length then pure none
      else do
        let c ← byteAt path index
        if !endsName c then pure none
        else do
          match ← scanSegments path fuel index [] false with
          | some (segments, true) => pure (some segments)
          | _ => pure none : ScanM (Option (List WildcardPathSegment))) =
      .ok (match path.drop index with
        | [] => none
        | c :: _ =>
          if !endsName c then none
          else
            match classifySegments (path.drop index) [] false with
            | some (segments, true) => some segments
            | _ => none) := by
  by_cases hend : index = path.length
  · rw [if_pos hend, hend, List.drop_length]
    rfl
  · have hlt : index < path.length := by omega
    have hdrop := List.drop_eq_getElem_cons hlt
    rw [if_neg hend, byteAt_of_drop hdrop, scanSegments_eq path hindex hfuel, except_ok_bind,
      except_ok_bind, hdrop]
    dsimp only
    split
    · rfl
    · split <;> rfl

/-- **The scan with its cursor accepts what `classifyWildcardPath` accepts**, and meets no
fault, however much fuel it is given beyond one step a byte. -/
theorem scanWildcardPath_eq (validateUtf8 : Bytes → Bool) (path : Bytes) {fuel : Nat}
    (hfuel : path.length < fuel) :
    scanWildcardPath validateUtf8 fuel path = .ok (classifyWildcardPath validateUtf8 path) := by
  rw [scanWildcardPath, classifyWildcardPath]
  by_cases hrefused : (path = [] || !validateUtf8 path) = true
  · rw [if_pos hrefused, if_pos hrefused]
    rfl
  · rw [if_neg hrefused, if_neg hrefused]
    obtain ⟨c, tail, rfl⟩ : ∃ c tail, path = c :: tail := by
      cases path with
      | nil => simp at hrefused
      | cons c tail => exact ⟨c, tail, rfl⟩
    rw [byteAt_of_drop rfl, except_ok_bind, List.head?_cons, List.tail_cons]
    by_cases hdollar : c = '$'.toUInt8
    · rw [if_pos (congrArg some hdollar), if_pos hdollar]
      exact scanFrom_eq (c :: tail) (show 1 ≤ tail.length + 1 by omega) (by omega)
    · rw [if_neg fun h => hdollar (Option.some.inj h), if_neg hdollar]
      exact scanFrom_eq (c :: tail) (Nat.zero_le _) (by omega)

end PureSimdjson
