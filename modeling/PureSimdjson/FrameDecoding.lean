import PureSimdjson.FrameRequests

/-!
# What the frame decoder accepts

A frame stream is read against the ordered trees whose nodes are frames.  With memory for what
it asks for, the decoder accepts a stream exactly when it is the preorder word of a tree with
every count right, every kind known and no null span where bytes are needed; the tree is then
unique, and the value returned is the tree's.  Everything else is answered with the protocol
error.

It asks for it before it knows that the counts are right, so a stream with a wrong one may end
the process instead.
-/
namespace PureSimdjson

open PreorderWords

/-! ## Frame trees -/

/-- One node of a frame tree as the decoder wants it. -/
structure NodeOk (frame : Frame) (children : List (Rose Frame)) : Prop where
  known : (frameKind frame.kind).isSome
  count : children.length = frame.arity
  string : frame.HasString → frame.string.Readable
  keys : frameKind frame.kind = some .object → ∀ child ∈ children, child.label.key.Readable

/-- **The stream `frames` is the preorder encoding of `tree`.**  Every frame is the
label of exactly one node, in order. -/
def Encodes (tree : Rose Frame) (frames : List Frame) : Prop :=
  tree.All NodeOk ∧ tree.preorder = frames

/-- A childless frame of a kind that is neither a container nor a string. -/
theorem NodeOk.scalar {frame : Frame} {kind : ValueKind} (hkind : frameKind frame.kind = some kind)
    (hscalar : kind ∉ [ValueKind.array, .object, .string, .bigint]) : NodeOk frame [] where
  known := by rw [hkind]; rfl
  count := by
    rw [Frame.arity, hkind]
    cases kind <;> simp_all
  string := by
    rw [Frame.HasString, hkind, Option.some.injEq, Option.some.injEq]
    simp at hscalar
    tauto
  keys := fun _ => nofun

theorem NodeOk.bytes {frame : Frame} (hkind : frame.HasString) (hread : frame.string.Readable) :
    NodeOk frame [] where
  known := by rcases hkind with h | h <;> rw [h] <;> rfl
  count := by rcases hkind with h | h <;> rw [Frame.arity, h] <;> rfl
  string := fun _ => hread
  keys := fun _ => nofun

mutual

/-- The Go value of a frame tree. -/
def treeValue (mem : Memory) : Rose Frame → GoValue
  | .node frame children =>
    match frameKind frame.kind with
    | some .bool => .bool (frame.flags ≠ 0)
    | some .int64 => .int64 frame.int64Value
    | some .uint64 => .uint64 frame.uint64Value
    | some .float64 => .float64 frame.float64Value
    | some .string => .string (mem.read frame.string)
    | some .bigint => .string (mem.read frame.string)
    | some .array => .slice (forestValues mem children)
    | some .object => .map (forestEntries mem [] children)
    | _ => .nil

def forestValues (mem : Memory) : List (Rose Frame) → List GoValue
  | [] => []
  | t :: ts => treeValue mem t :: forestValues mem ts

def forestEntries (mem : Memory) (entries : List (Bytes × GoValue)) :
    List (Rose Frame) → List (Bytes × GoValue)
  | [] => entries
  | t :: ts =>
    forestEntries mem (mapSet entries (mem.read t.label.key) (treeValue mem t)) ts

end

/-- No span of the frame is longer than a Go slice can be. -/
def Frame.Sized (frame : Frame) : Prop :=
  frame.key.len < 2 ^ 63 ∧ frame.string.len < 2 ^ 63

instance (frame : Frame) : Decidable frame.Sized :=
  inferInstanceAs (Decidable (_ ∧ _))

/-! ## Soundness -/

section
variable {H : Type} (heap : GoHeap H) (mem : Memory) {frames : List Frame}

/-- The word `word` stands in the stream from `index` on, and ends before `next`. -/
def ReadsTo (frames word : List Frame) (index next : Nat) : Prop :=
  word <+: frames.drop index ∧ next = index + word.length

theorem ReadsTo.nil (index : Nat) : ReadsTo frames [] index index :=
  ⟨List.nil_prefix, rfl⟩

theorem ReadsTo.append {word word' : List Frame} {index mid next : Nat}
    (h : ReadsTo frames word index mid) (h' : ReadsTo frames word' mid next) :
    ReadsTo frames (word ++ word') index next := by
  obtain ⟨⟨rest, hrest⟩, rfl⟩ := h
  obtain ⟨⟨rest', hrest'⟩, rfl⟩ := h'
  refine ⟨⟨rest', ?_⟩, by simp [Nat.add_assoc]⟩
  have hdrop : frames.drop (index + word.length) = rest := by
    rw [← List.drop_drop, ← hrest, List.drop_left]
  rw [← hrest, List.append_assoc, hrest', hdrop]

theorem ReadsTo.cons {frame : Frame} {word : List Frame} {index next : Nat}
    (hframe : frames[index]? = some frame) (h : ReadsTo frames word (index + 1) next) :
    ReadsTo frames (frame :: word) index next := by
  have hone : ReadsTo frames [frame] index (index + 1) := by
    obtain ⟨hlt, hget⟩ := List.getElem?_eq_some_iff.mp hframe
    refine ⟨⟨frames.drop (index + 1), ?_⟩, rfl⟩
    rw [List.singleton_append, ← hget, List.getElem_cons_drop]
  exact hone.append h

variable {h : H} {ahead : List Request}

/-- A span that fits in `int` is copied whole, unless it is null and nonempty. -/
theorem copyFrameString_meets {span : Span} (hsize : span.len < 2 ^ 63) (index : Nat)
    (kind : UInt32) (label : String) :
    Meets heap (if span.Readable then span.requests ++ ahead else [])
      (fun bytes => bytes = mem.read span ∧ span.Readable) (fun _ => ahead) h
      (copyFrameString heap mem span index kind label h) := by
  unfold copyFrameString
  by_cases hlen : span.len = 0
  · rw [if_pos hlen, if_pos (show span.Readable from Or.inl hlen), Span.requests, if_pos hlen]
    exact meets_return ⟨by simp [Memory.read, hlen], Or.inl hlen⟩ rfl
  · rw [if_neg hlen]
    by_cases hptr : span.ptr = 0
    · have hnot : ¬ span.Readable := fun hread => hread.elim hlen fun hne => hne hptr
      rw [if_pos hptr, if_neg hnot]
      exact meets_fail ..
    · have hread : span.Readable := Or.inr hptr
      rw [if_neg hptr, unsafeSlice, if_neg (Nat.not_le.mpr hsize), if_pos hread, Span.requests,
        if_neg hlen]
      exact (meets_request _).bind fun _ _ _ => meets_return ⟨rfl, hread⟩ rfl

/-- What a decoded value stands for: a tree read off the stream. -/
def DecodedAt (frames : List Frame) (index : Nat) (result : GoValue × Nat) : Prop :=
  ∃ tree : Rose Frame, tree.All NodeOk ∧ treeValue mem tree = result.1 ∧
    ReadsTo frames tree.preorder index result.2

/-- What a run of children stands for. -/
def ForestAt (frames : List Frame) (count index next : Nat) (P : List (Rose Frame) → Prop) :
    Prop :=
  ∃ ts : List (Rose Frame), ts.length = count ∧ Rose.AllForest NodeOk ts ∧
    ReadsTo frames (Rose.forest ts) index next ∧ P ts

theorem DecodedAt.next_gt {index : Nat} {result : GoValue × Nat}
    (h : DecodedAt mem frames index result) : index < result.2 := by
  obtain ⟨tree, _, _, _, hnext⟩ := h
  have := tree.preorder_length_pos
  omega

/-- The word of a tree starts with the tree's own frame. -/
theorem ReadsTo.head {tree : Rose Frame} {index next : Nat}
    (h : ReadsTo frames tree.preorder index next) : frames[index]? = some tree.label := by
  obtain ⟨⟨rest, hrest⟩, _⟩ := h
  have hhead : (frames.drop index)[0]? = some tree.label := by
    rw [← hrest, Rose.preorder_eq, List.cons_append, List.getElem?_cons_zero]
  simpa using hhead

variable (H) in
theorem frameAt_of_lt {index : Nat} (h : index < frames.length) :
    ∃ frame, frames[index]? = some frame ∧ frame ∈ frames ∧
      frames.drop index = frame :: frames.drop (index + 1) ∧
      frameAt frames index = (return frame : DecodeM H Frame) := by
  refine ⟨frames[index], List.getElem?_eq_getElem h, List.getElem_mem h, ?_, ?_⟩
  · rw [List.getElem_cons_drop]
  · rw [frameAt, List.getElem?_eq_getElem h]

/-- The decoder is right from `low` on. -/
def DecodesFrom (decode : Nat → DecodeM H (GoValue × Nat)) (frames : List Frame) (low : Nat) :
    Prop :=
  ∀ i levels h, low ≤ i → i < frames.length → Meets heap (requestsAt levels (frames.drop i))
    (DecodedAt mem frames i) (fun r => requestsIn levels (frames.drop r.2)) h (decode i h)

/-- The children of an array. -/
theorem arrayChildren_meets {decode : Nat → DecodeM H (GoValue × Nat)} {frame : Frame}
    {index low : Nat} (hdecode : DecodesFrom heap mem decode frames low) (levels : List Level) :
    ∀ remaining values next h, low ≤ next →
      Meets heap (requestsIn (⟨false, remaining⟩ :: levels) (frames.drop next))
        (fun r => ForestAt frames remaining next r.2 fun ts => r.1 = values ++ forestValues mem ts)
        (fun r => requestsIn levels (frames.drop r.2)) h
        (arrayChildren frames decode frame index remaining values next h) := by
  intro remaining
  induction remaining with
  | zero =>
    intro values next h _
    refine meets_return ?_ (requestsIn_done false)
    exact ⟨[], rfl, Rose.allForest_nil _, ReadsTo.nil next, by simp [forestValues]⟩
  | succ remaining ih =>
    intro values next h hlow
    rw [arrayChildren]
    by_cases hend : next ≥ frames.length
    · rw [if_pos hend, List.drop_eq_nil_of_le hend]
      exact meets_fail ..
    · rw [if_neg hend, requestsIn_item]
      refine (hdecode next _ h hlow (Nat.not_le.mp hend)).bind
        fun ⟨value, consumed⟩ h' hresult => ?_
      have hgt := hresult.next_gt
      obtain ⟨tree, htree, hvalue, hreads⟩ := hresult
      refine (ih (values ++ [value]) consumed h' (by omega)).mono fun r hr => ?_
      obtain ⟨ts, hlen, hok, hto, heq⟩ := hr
      refine ⟨tree :: ts, by simp [hlen], by simp [htree, hok], ?_, ?_⟩
      · rw [Rose.forest_cons]
        exact hreads.append hto
      · simp only [heq, forestValues, hvalue, List.append_assoc, List.singleton_append]

/-- The children of an object, whose keys are readable besides. -/
theorem objectChildren_meets {decode : Nat → DecodeM H (GoValue × Nat)} {frame : Frame}
    {index low : Nat} (hsize : ∀ f ∈ frames, f.Sized)
    (hdecode : DecodesFrom heap mem decode frames low) (levels : List Level) :
    ∀ remaining values next h, low ≤ next →
      Meets heap (requestsIn (⟨true, remaining⟩ :: levels) (frames.drop next))
        (fun r => ForestAt frames remaining next r.2 fun ts =>
          r.1 = forestEntries mem values ts ∧ ∀ t ∈ ts, t.label.key.Readable)
        (fun r => requestsIn levels (frames.drop r.2)) h
        (objectChildren heap mem frames decode frame index remaining values next h) := by
  intro remaining
  induction remaining with
  | zero =>
    intro values next h _
    refine meets_return ?_ (requestsIn_done true)
    exact ⟨[], rfl, Rose.allForest_nil _, ReadsTo.nil next, by simp [forestEntries],
      List.forall_mem_nil _⟩
  | succ remaining ih =>
    intro values next h hlow
    rw [objectChildren]
    by_cases hend : next ≥ frames.length
    · rw [if_pos hend, List.drop_eq_nil_of_le hend]
      exact meets_fail ..
    · have hlt := Nat.not_le.mp hend
      obtain ⟨child, hchild, hmem, hdrop, hat⟩ := frameAt_of_lt H hlt
      rw [if_neg hend, hat, return_bind, hdrop, requestsIn_field]
      refine (copyFrameString_meets heap mem (hsize child hmem).1 ..).bind
        fun key h' ⟨hkey, hread⟩ => ?_
      rw [← hdrop]
      refine (hdecode next _ h' hlow hlt).bind fun ⟨value, consumed⟩ h'' hresult => ?_
      have hgt := hresult.next_gt
      obtain ⟨tree, htree, hvalue, hreads⟩ := hresult
      have hlabel : tree.label = child := by
        have hhead := hreads.head
        rw [hchild] at hhead
        exact (Option.some.inj hhead).symm
      refine (ih (mapSet values key value) consumed h'' (by omega)).mono fun r hr => ?_
      obtain ⟨ts, hlen, hok, hto, heq, hkeys⟩ := hr
      refine ⟨tree :: ts, by simp [hlen], by simp [htree, hok], ?_, ?_, ?_⟩
      · rw [Rose.forest_cons]
        exact hreads.append hto
      · rw [heq, forestEntries, hlabel, ← hkey, hvalue]
      · intro t ht
        rcases List.mem_cons.mp ht with rfl | ht
        · exact hlabel ▸ hread
        · exact hkeys t ht

/-- A frame and the trees read behind it are a tree. -/
theorem DecodedAt.container {frame : Frame} {ts : List (Rose Frame)} {index next : Nat}
    {value : GoValue} (hframe : frames[index]? = some frame) (hok : NodeOk frame ts)
    (hall : Rose.AllForest NodeOk ts) (hreads : ReadsTo frames (Rose.forest ts) (index + 1) next)
    (hvalue : treeValue mem (.node frame ts) = value) :
    DecodedAt mem frames index (value, next) := by
  refine ⟨.node frame ts, ?_, hvalue, ?_⟩
  · rw [Rose.All]
    exact ⟨hok, hall⟩
  · rw [Rose.preorder]
    exact hreads.cons hframe

theorem DecodedAt.leaf {frame : Frame} {index : Nat} {value : GoValue}
    (hframe : frames[index]? = some frame) (hok : NodeOk frame [])
    (hvalue : treeValue mem (.node frame []) = value) :
    DecodedAt mem frames index (value, index + 1) :=
  .container mem hframe hok (Rose.allForest_nil _) (by simpa using ReadsTo.nil (index + 1)) hvalue

/-- A frame that asks for nothing and has no children is a value. -/
theorem meets_scalar {frame : Frame} {kind : ValueKind} {index : Nat} {value : GoValue}
    {levels : List Level} (hframe : frames[index]? = some frame)
    (hkind : frameKind frame.kind = some kind)
    (hvalue : treeValue mem (.node frame []) = value)
    (hscalar : kind ∉ [ValueKind.array, .object, .string, .bigint, .invalid] := by decide) :
    Meets heap
      (if frame.Decodable then
        frame.requests ++ requestsIn (frame.level :: levels) (frames.drop (index + 1))
      else [])
      (DecodedAt mem frames index) (fun r => requestsIn levels (frames.drop r.2)) h
      ((return (value, index + 1) : DecodeM H (GoValue × Nat)) h) := by
  have hleaf : kind ∉ [ValueKind.array, .object, .string, .bigint] := fun hmem =>
    hscalar (List.mem_append_left [ValueKind.invalid] hmem)
  have hok : NodeOk frame [] := .scalar hkind hleaf
  have hrequests : frame.requests = [] ∧ frame.arity = 0 := by
    rw [Frame.requests, Frame.arity, hkind]
    cases kind <;> first | exact ⟨rfl, rfl⟩ | exact absurd (by decide) hscalar
  rw [if_pos ⟨hok.known, hok.string⟩, hrequests.1, Frame.level, hrequests.2, List.nil_append,
    requestsIn_done]
  exact meets_return (.leaf mem hframe hok hvalue) rfl

/-- A frame that carries a string is a value, if the string can be copied. -/
theorem meets_string {frame : Frame} {index : Nat} {label : String} {levels : List Level}
    (hframe : frames[index]? = some frame) (hkind : frame.HasString)
    (hsize : frame.string.len < 2 ^ 63)
    (hvalue : treeValue mem (.node frame []) = .string (mem.read frame.string)) :
    Meets heap
      (if frame.Decodable then
        frame.requests ++ requestsIn (frame.level :: levels) (frames.drop (index + 1))
      else [])
      (DecodedAt mem frames index) (fun r => requestsIn levels (frames.drop r.2)) h
      ((do
        let value ← copyFrameString heap mem frame.string index frame.kind label
        return (.string value, index + 1) : DecodeM H (GoValue × Nat)) h) := by
  have hdecodable : frame.Decodable ↔ frame.string.Readable := by
    refine ⟨fun hdec => hdec.2 hkind, fun hread => ⟨?_, fun _ => hread⟩⟩
    rcases hkind with hkind | hkind <;> rw [hkind] <;> rfl
  have hlevel : requestsIn (frame.level :: levels) (frames.drop (index + 1)) =
      requestsIn levels (frames.drop (index + 1)) := by
    have harity : frame.arity = 0 := by
      rcases hkind with hkind | hkind <;> rw [Frame.arity, hkind]
    rw [Frame.level, harity, requestsIn_done]
  rw [Frame.requests_of_hasString hkind, hlevel]
  simp only [hdecodable]
  refine (copyFrameString_meets heap mem hsize ..).bind fun bytes h' hbytes => ?_
  exact meets_return (.leaf mem hframe (.bytes hkind hbytes.2) (by rw [hvalue, hbytes.1])) rfl

/-- **Soundness.**  With fuel for the frames left, the decoder reads a tree off the stream, answers
with the protocol error, or runs out of memory. -/
theorem buildAnyFromFrame_meets (hsize : ∀ f ∈ frames, f.Sized) :
    ∀ fuel index levels h, index ≤ frames.length → frames.length < fuel + index →
      Meets heap (requestsAt levels (frames.drop index)) (DecodedAt mem frames index)
        (fun r => requestsIn levels (frames.drop r.2)) h
        (buildAnyFromFrame heap mem frames fuel index h) := by
  intro fuel
  induction fuel with
  | zero =>
    intro index levels h hle hfuel
    omega
  | succ fuel ih =>
    intro index levels h hle hfuel
    rw [buildAnyFromFrame]
    by_cases hend : index ≥ frames.length
    · rw [if_pos hend, List.drop_eq_nil_of_le hend]
      exact meets_fail ..
    · obtain ⟨frame, hframe, hmem, hdrop, hat⟩ := frameAt_of_lt H (Nat.not_le.mp hend)
      rw [if_neg hend, hat, return_bind, hdrop, requestsAt]
      have hdecode : DecodesFrom heap mem (buildAnyFromFrame heap mem frames fuel) frames
          (index + 1) :=
        fun i levels h hi hilt => ih i levels h (Nat.le_of_lt hilt) (by omega)
      have hunknown (hnone : frameKind frame.kind = none ∨ frameKind frame.kind = some .invalid) :
          ¬ frame.Decodable := by
        rintro ⟨hknown, -⟩
        rcases hnone with hnone | hnone
        · rw [hnone] at hknown
          cases hknown
        · exact frameKind_ne_invalid _ hnone
      cases hkind : frameKind frame.kind with
      | none =>
        rw [if_neg (hunknown (Or.inl hkind))]
        exact meets_fail ..
      | some kind =>
        cases kind with
        | invalid =>
          rw [if_neg (hunknown (Or.inr hkind))]
          exact meets_fail ..
        | null => exact meets_scalar heap mem hframe hkind (by simp [treeValue, hkind])
        | bool => exact meets_scalar heap mem hframe hkind (by simp [treeValue, hkind])
        | int64 => exact meets_scalar heap mem hframe hkind (by simp [treeValue, hkind])
        | uint64 => exact meets_scalar heap mem hframe hkind (by simp [treeValue, hkind])
        | float64 => exact meets_scalar heap mem hframe hkind (by simp [treeValue, hkind])
        | string =>
          exact meets_string heap mem hframe (Or.inl hkind) (hsize frame hmem).2
            (by simp [treeValue, hkind])
        | bigint =>
          exact meets_string heap mem hframe (Or.inr hkind) (hsize frame hmem).2
            (by simp [treeValue, hkind])
        | array =>
          have hdecodable : frame.Decodable := ⟨by simp [hkind], by simp [Frame.HasString, hkind]⟩
          have hrequests : frame.requests = [.slice frame.childCount.toNat] ∧
              frame.level = ⟨false, frame.childCount.toNat⟩ := by
            simp [Frame.requests, Frame.level, Frame.arity, hkind]
          rw [if_pos hdecodable, hrequests.1, hrequests.2]
          refine (meets_request _).bind fun _ h' _ => ?_
          refine (arrayChildren_meets heap mem hdecode levels _ _ _ h' (Nat.le_refl _)).bind
            fun r h'' hr => meets_return ?_ rfl
          obtain ⟨ts, hlen, hok, hreads, heq⟩ := hr
          refine .container mem hframe ?_ hok hreads (by simp [treeValue, hkind, heq])
          exact ⟨hdecodable.1, by simp [Frame.arity, hkind, hlen], hdecodable.2, by simp [hkind]⟩
        | object =>
          have hdecodable : frame.Decodable := ⟨by simp [hkind], by simp [Frame.HasString, hkind]⟩
          have hrequests : frame.requests = [.table frame.childCount.toNat] ∧
              frame.level = ⟨true, frame.childCount.toNat⟩ := by
            simp [Frame.requests, Frame.level, Frame.arity, hkind]
          rw [if_pos hdecodable, hrequests.1, hrequests.2]
          refine (meets_request _).bind fun _ h' _ => ?_
          refine (objectChildren_meets heap mem hsize hdecode levels _ _ _ h' (Nat.le_refl _)).bind
            fun r h'' hr => meets_return ?_ rfl
          obtain ⟨ts, hlen, hok, hreads, heq, hkeys⟩ := hr
          refine .container mem hframe ?_ hok hreads (by simp [treeValue, hkind, heq])
          exact ⟨hdecodable.1, by simp [Frame.arity, hkind, hlen], hdecodable.2, fun _ => hkeys⟩

/-! ## Completeness -/

theorem copyFrameString_of_readable {span : Span} (hsize : span.len < 2 ^ 63)
    (hread : span.Readable) (index : Nat) (kind : UInt32) (label : String) (h : H) :
    Yields (mem.read span) (copyFrameString heap mem span index kind label h) := by
  unfold copyFrameString
  by_cases hlen : span.len = 0
  · rw [if_pos hlen]
    simp [Memory.read, hlen, yields_return]
  · rw [if_neg hlen, if_neg (hread.resolve_left hlen), unsafeSlice, if_neg (Nat.not_le.mpr hsize)]
    exact (yields_request _ h).bind fun h' => yields_return _ h'

/-- The decoder's answer to a tree that stands at `index`. -/
def Accepts (frames : List Frame) (fuel index : Nat) (tree : Rose Frame) : Prop :=
  ∀ h, Yields (treeValue mem tree, index + tree.preorder.length)
    (buildAnyFromFrame heap mem frames fuel index h)

/-- A word that stands in the stream can be split. -/
theorem split_word {word word' : List Frame} {index : Nat}
    (h : word ++ word' <+: frames.drop index) :
    word <+: frames.drop index ∧ word' <+: frames.drop (index + word.length) := by
  obtain ⟨rest, hrest⟩ := h
  rw [List.append_assoc] at hrest
  refine ⟨⟨word' ++ rest, hrest⟩, ⟨rest, ?_⟩⟩
  rw [← List.drop_drop, ← hrest, List.drop_left]

variable (H) in
theorem frameAt_of_word {tree : Rose Frame} {index : Nat}
    (h : tree.preorder <+: frames.drop index) :
    index < frames.length ∧
      frameAt frames index = (return tree.label : DecodeM H Frame) ∧ tree.label ∈ frames := by
  have hreads : ReadsTo frames tree.preorder index (index + tree.preorder.length) := ⟨h, rfl⟩
  have hhead := hreads.head
  obtain ⟨hlt, hget⟩ := List.getElem?_eq_some_iff.mp hhead
  exact ⟨hlt, by rw [frameAt, hhead], List.mem_of_getElem? hhead⟩

/-- A childless node takes one frame. -/
theorem yields_leaf {frame : Frame} {children : List (Rose Frame)} {index : Nat} {value : GoValue}
    (hnil : children = []) (hvalue : treeValue mem (.node frame children) = value) (h : H) :
    Yields (treeValue mem (.node frame children),
        index + (Rose.node frame children).preorder.length)
      ((return (value, index + 1) : DecodeM H (GoValue × Nat)) h) := by
  rw [hvalue, hnil, Rose.preorder, Rose.forest_nil]
  exact yields_return _ h

theorem arrayChildren_accepts {fuel : Nat} {frame : Frame} {index : Nat} :
    ∀ (ts : List (Rose Frame)) values next h,
      (∀ t ∈ ts, ∀ i, t.preorder <+: frames.drop i → Accepts heap mem frames fuel i t) →
      Rose.forest ts <+: frames.drop next →
      Yields (values ++ forestValues mem ts, next + (Rose.forest ts).length)
        (arrayChildren frames (buildAnyFromFrame heap mem frames fuel) frame index ts.length values
          next h) := by
  intro ts
  induction ts with
  | nil =>
    intro values next h _ _
    simp [arrayChildren, forestValues, yields_return]
  | cons t ts ih =>
    intro values next h hdecode hword
    rw [Rose.forest_cons] at hword
    obtain ⟨hhead, htail⟩ := split_word hword
    have hlt := (frameAt_of_word H hhead).1
    rw [List.length_cons, arrayChildren, if_neg (Nat.not_le.mpr hlt)]
    refine (hdecode t List.mem_cons_self next hhead h).bind fun h' => ?_
    have hrest := ih (values ++ [treeValue mem t]) _ h'
      (fun u hu => hdecode u (List.mem_cons_of_mem t hu)) htail
    simpa [forestValues, Nat.add_assoc] using hrest

theorem objectChildren_accepts {fuel : Nat} {frame : Frame} {index : Nat}
    (hsize : ∀ f ∈ frames, f.Sized) :
    ∀ (ts : List (Rose Frame)) values next h,
      (∀ t ∈ ts, t.label.key.Readable) →
      (∀ t ∈ ts, ∀ i, t.preorder <+: frames.drop i → Accepts heap mem frames fuel i t) →
      Rose.forest ts <+: frames.drop next →
      Yields (forestEntries mem values ts, next + (Rose.forest ts).length)
        (objectChildren heap mem frames (buildAnyFromFrame heap mem frames fuel) frame index
          ts.length values next h) := by
  intro ts
  induction ts with
  | nil =>
    intro values next h _ _ _
    simp [objectChildren, forestEntries, yields_return]
  | cons t ts ih =>
    intro values next h hkeys hdecode hword
    rw [Rose.forest_cons] at hword
    obtain ⟨hhead, htail⟩ := split_word hword
    obtain ⟨hlt, hat, hmem⟩ := frameAt_of_word H hhead
    rw [List.length_cons, objectChildren, if_neg (Nat.not_le.mpr hlt), hat, return_bind]
    refine (copyFrameString_of_readable heap mem (hsize _ hmem).1 (hkeys t List.mem_cons_self) _ _ _
      h).bind fun h' => ?_
    refine (hdecode t List.mem_cons_self next hhead h').bind fun h'' => ?_
    have hrest := ih (mapSet values (mem.read t.label.key) (treeValue mem t)) _ h''
      (fun u hu => hkeys u (List.mem_cons_of_mem t hu))
      (fun u hu => hdecode u (List.mem_cons_of_mem t hu)) htail
    simpa [forestEntries, Nat.add_assoc] using hrest

/-- **Completeness.**  A tree that stands at `index` is decoded to its value, and the
cursor stops right behind it. -/
theorem buildAnyFromFrame_accepts (hsize : ∀ f ∈ frames, f.Sized) (tree : Rose Frame) :
    ∀ fuel index, tree.All NodeOk → tree.preorder <+: frames.drop index →
      tree.preorder.length ≤ fuel → Accepts heap mem frames fuel index tree := by
  induction tree with
  | node frame children ih =>
    intro fuel index hall hword hfuel h
    rw [Rose.All] at hall
    obtain ⟨hok, hforest⟩ := hall
    obtain ⟨hlt, hat, hmem⟩ := frameAt_of_word H hword
    rw [Rose.label] at hat hmem
    rw [Rose.preorder, List.length_cons] at hfuel
    obtain ⟨fuel, rfl⟩ : ∃ n, fuel = n + 1 := ⟨fuel - 1, by omega⟩
    have hword' : [frame] ++ Rose.forest children <+: frames.drop index := by
      simpa [Rose.preorder] using hword
    have hbehind : Rose.forest children <+: frames.drop (index + 1) := (split_word hword').2
    have hdecode : ∀ t ∈ children, ∀ i, t.preorder <+: frames.drop i →
        Accepts heap mem frames fuel i t := by
      intro t ht i hi
      have hlen := Rose.preorder_length_le ht
      exact ih t ht fuel i (Rose.allForest_iff.mp hforest t ht) hi (by omega)
    have hcount := hok.count
    rw [buildAnyFromFrame, if_neg (Nat.not_le.mpr hlt), hat, return_bind]
    obtain ⟨kind, hkind⟩ := Option.isSome_iff_exists.mp hok.known
    rw [Frame.arity, hkind] at hcount
    rw [hkind]
    cases kind with
    | invalid => exact absurd hkind (frameKind_ne_invalid _)
    | array =>
      have hlen : frame.childCount.toNat = children.length := hcount.symm
      dsimp only
      rw [hlen]
      refine (yields_request _ h).bind fun h' => ?_
      refine (arrayChildren_accepts heap mem children [] (index + 1) h' hdecode hbehind).bind
        fun h'' => ?_
      simp [treeValue, hkind, Rose.preorder, Nat.add_assoc, Nat.add_comm 1, yields_return]
    | object =>
      have hlen : frame.childCount.toNat = children.length := hcount.symm
      dsimp only
      rw [hlen]
      refine (yields_request _ h).bind fun h' => ?_
      refine (objectChildren_accepts heap mem hsize children [] (index + 1) h' (hok.keys hkind)
        hdecode hbehind).bind fun h'' => ?_
      simp [treeValue, hkind, Rose.preorder, Nat.add_assoc, Nat.add_comm 1, yields_return]
    | string =>
      have hnil := List.eq_nil_of_length_eq_zero hcount
      refine (copyFrameString_of_readable heap mem (hsize frame hmem).2
        (hok.string (Or.inl hkind)) _ _ _ h).bind fun h' => ?_
      exact yields_leaf mem hnil (by simp [treeValue, hkind]) h'
    | bigint =>
      have hnil := List.eq_nil_of_length_eq_zero hcount
      refine (copyFrameString_of_readable heap mem (hsize frame hmem).2
        (hok.string (Or.inr hkind)) _ _ _ h).bind fun h' => ?_
      exact yields_leaf mem hnil (by simp [treeValue, hkind]) h'
    | _ =>
      have hnil := List.eq_nil_of_length_eq_zero hcount
      exact yields_leaf mem hnil (by simp [treeValue, hkind]) h

/-! ## The whole stream -/

theorem Encodes.unique {tree tree' : Rose Frame} (h : Encodes tree frames)
    (h' : Encodes tree' frames) : tree = tree' :=
  Rose.preorder_injective Frame.arity (h.1.mono fun _ _ ok => ok.count)
    (h'.1.mono fun _ _ ok => ok.count) (h.2.trans h'.2.symm)

theorem Encodes.length_pos {tree : Rose Frame} (h : Encodes tree frames) :
    0 < frames.length := by
  rw [← h.2]
  exact tree.preorder_length_pos

/-- An encoding is decoded to its tree's value. -/
theorem Encodes.yields (hsize : ∀ f ∈ frames, f.Sized) {fuel : Nat}
    (hfuel : frames.length < fuel) {tree : Rose Frame} (htree : Encodes tree frames) (h : H) :
    Yields (treeValue mem tree) (buildAnyFromFrames heap mem frames fuel h) := by
  have hlen : tree.preorder.length = frames.length := by rw [htree.2]
  have haccepts : Accepts heap mem frames fuel 0 tree :=
    buildAnyFromFrame_accepts heap mem hsize tree fuel 0 htree.1 (by simp [htree.2]) (by omega)
  rw [buildAnyFromFrames, if_neg (Nat.pos_iff_ne_zero.mp htree.length_pos)]
  refine (haccepts h).bind fun h' => ?_
  simp [hlen, yields_return]

/-- The decoder ends: in an encoding's value, in the protocol error, or out of memory. -/
theorem buildAnyFromFrames_meets (hsize : ∀ f ∈ frames, f.Sized) {fuel : Nat}
    (hfuel : frames.length < fuel) (h : H) :
    Meets heap (requests frames) (fun value => ∃ tree, Encodes tree frames ∧
      value = treeValue mem tree) (fun _ => []) h (buildAnyFromFrames heap mem frames fuel h) := by
  rw [buildAnyFromFrames]
  by_cases hempty : frames.length = 0
  · rw [if_pos hempty, List.eq_nil_of_length_eq_zero hempty]
    exact meets_fail ..
  · rw [if_neg hempty]
    refine (buildAnyFromFrame_meets heap mem hsize fuel 0 [] h (Nat.zero_le _) (by omega)).bind
      fun ⟨value, consumed⟩ h' hdecoded => ?_
    rw [requestsIn_none]
    obtain ⟨tree, htree, hvalue, ⟨rest, hrest⟩, hnext⟩ := hdecoded
    dsimp only at hvalue hnext ⊢
    by_cases hall : consumed = frames.length
    · rw [if_neg (not_not.mpr hall)]
      refine meets_return ⟨tree, ⟨htree, ?_⟩, hvalue.symm⟩ rfl
      have hlen := congrArg List.length hrest
      rw [List.length_append, List.drop_zero] at hlen
      have hnil : rest = [] := List.eq_nil_of_length_eq_zero (by omega)
      simpa [hnil] using hrest
    · rw [if_pos hall]
      exact meets_fail ..

/-- The decoder returns the value of an encoding if there is memory for what it asks for, and runs
out of memory otherwise. -/
theorem Encodes.decoded (hsize : ∀ f ∈ frames, f.Sized) {fuel : Nat}
    (hfuel : frames.length < fuel) {tree : Rose Frame} (htree : Encodes tree frames) (h : H) :
    buildAnyFromFrames heap mem frames fuel h =
      (heap.grants (requests frames) h).elim .outOfMemory
        fun h' => .ok (treeValue mem tree, h') := by
  have hends := buildAnyFromFrames_meets heap mem hsize hfuel h
  have hyields := htree.yields heap mem hsize hfuel h
  generalize buildAnyFromFrames heap mem frames fuel h = r at hends hyields
  cases r with
  | ok p =>
    obtain ⟨value, h'⟩ := p
    obtain ⟨-, granted, hall, hgranted⟩ := hends
    obtain rfl : value = treeValue mem tree := hyields
    rw [hall, List.append_nil, hgranted]
    rfl
  | outOfMemory =>
    rw [show heap.grants (requests frames) h = none from hends]
    rfl
  | error e => exact hyields.elim
  | panic => exact hyields.elim
  | diverged => exact hyields.elim

/-- **The decoder accepts exactly the encodings**: decoding succeeds iff the stream is the preorder
encoding of a frame tree; there is then only one such tree, and its value is returned.  Every other
stream is answered with the protocol error, so the decoder never indexes outside the stream and
always ends. -/
structure DecodesExactly (frames : List Frame) (fuel : Nat) (h : H) : Prop where
  accepts : (∃ value h', buildAnyFromFrames heap mem frames fuel h = .ok (value, h')) ↔
    ∃ tree, Encodes tree frames
  unique : ∀ tree tree', Encodes tree frames → Encodes tree' frames → tree = tree'
  value : ∀ tree, Encodes tree frames →
    ∃ h', buildAnyFromFrames heap mem frames fuel h = .ok (treeValue mem tree, h')
  rejects : (¬ ∃ tree, Encodes tree frames) → ∃ index kind detail,
    buildAnyFromFrames heap mem frames fuel h = .error (frameProtocolError index kind detail)

/-- **The decoder accepts exactly the encodings exactly where there is memory** for what it asks
for on its way, for every stream of frames whose spans fit in `int` and any fuel beyond its
length. -/
theorem buildAnyFromFrames_exact_iff (frames : List Frame) (hsize : ∀ f ∈ frames, f.Sized)
    (fuel : Nat) (hfuel : frames.length < fuel) (h : H) :
    DecodesExactly heap mem frames fuel h ↔ (heap.grants (requests frames) h).isSome := by
  have hends := buildAnyFromFrames_meets heap mem hsize hfuel h
  constructor
  · intro hexact
    cases hrun : buildAnyFromFrames heap mem frames fuel h with
    | ok p =>
      rw [hrun] at hends
      obtain ⟨-, granted, hall, hgranted⟩ := hends
      rw [hall, List.append_nil, hgranted]
      rfl
    | error e =>
      rw [hrun] at hends
      exact hends.2
    | panic =>
      rw [hrun] at hends
      exact hends.elim
    | diverged =>
      rw [hrun] at hends
      exact hends.elim
    | outOfMemory =>
      -- neither a value nor the protocol error
      by_cases htree : ∃ tree, Encodes tree frames
      · obtain ⟨value, h', hok⟩ := hexact.accepts.mpr htree
        cases hrun.symm.trans hok
      · obtain ⟨index, kind, detail, herror⟩ := hexact.rejects htree
        cases hrun.symm.trans herror
  · intro hgranted
    have hdecoded : ∀ tree, Encodes tree frames →
        ∃ h', buildAnyFromFrames heap mem frames fuel h = .ok (treeValue mem tree, h') :=
      fun tree htree => by
        obtain ⟨h', hh'⟩ := Option.isSome_iff_exists.mp hgranted
        exact ⟨h', by rw [htree.decoded heap mem hsize hfuel h, hh', Option.elim_some]⟩
    refine ⟨⟨?_, ?_⟩, fun tree tree' htree htree' => htree.unique htree', hdecoded, fun hnone => ?_⟩
    · rintro ⟨value, h', hvalue⟩
      rw [hvalue] at hends
      obtain ⟨⟨tree, htree, -⟩, -⟩ := hends
      exact ⟨tree, htree⟩
    · rintro ⟨tree, htree⟩
      obtain ⟨h', hvalue⟩ := hdecoded tree htree
      exact ⟨_, h', hvalue⟩
    · cases hrun : buildAnyFromFrames heap mem frames fuel h with
      | ok p =>
        rw [hrun] at hends
        obtain ⟨⟨tree, htree, -⟩, -⟩ := hends
        exact absurd ⟨tree, htree⟩ hnone
      | error err =>
        rw [hrun] at hends
        obtain ⟨⟨index, kind, detail, rfl⟩, -⟩ := hends
        exact ⟨index, kind, detail, rfl⟩
      | outOfMemory =>
        rw [hrun] at hends
        rw [show heap.grants (requests frames) h = none from hends] at hgranted
        cases hgranted
      | panic =>
        rw [hrun] at hends
        exact hends.elim
      | diverged =>
        rw [hrun] at hends
        exact hends.elim

end

/-! ## Samples -/

/-- A heap with so many bytes left: an element of a slice takes sixteen, an entry of a table at
least thirty-two. -/
def sampleHeap : GoHeap Nat := fun request left =>
  let size := match request with
    | .slice capacity => 16 * capacity
    | .table hint => 32 * hint
    | .copy length => length
  if size ≤ left then some (left - size) else none

/-- The stream of an object whose two fields both have the key `"a"`. -/
def duplicateKeyFrames : List Frame :=
  let key : Span := ⟨4096, 1, by decide⟩
  [{ Frame.zero with kind := 8, childCount := 2 },
    { Frame.zero with kind := 1, key := key },
    { Frame.zero with kind := 2, flags := 1, key := key }]

/-- A kilobyte is enough for it. -/
theorem buildAnyFromFrames_exact_duplicateKey :
    DecodesExactly sampleHeap (fun _ => 97) duplicateKeyFrames 4 1024 :=
  (buildAnyFromFrames_exact_iff _ _ duplicateKeyFrames (by decide) 4 (by decide) 1024).mpr
    (by decide)

/-- An array alone that counts as many children as it can. -/
def unboundedFrames : List Frame := [{ Frame.zero with kind := 7, childCount := 4294967295 }]

/-- **A count decides how much memory is asked for before it is compared with anything**: one
frame that is no encoding ends a process that has 32 GiB left. -/
theorem buildAnyFromFrames_exhausts :
    buildAnyFromFrames sampleHeap (fun _ => 0) unboundedFrames 2 34359738368 = .outOfMemory ∧
      (¬ ∃ tree, Encodes tree unboundedFrames) ∧
      ¬ DecodesExactly sampleHeap (fun _ => 0) unboundedFrames 2 34359738368 := by
  have hrun : buildAnyFromFrames sampleHeap (fun _ => 0) unboundedFrames 2 34359738368 =
      .outOfMemory := by rfl
  have hnone : ¬ ∃ tree, Encodes tree unboundedFrames := by
    rintro ⟨tree, hok, hword⟩
    cases tree with
    | node frame children =>
      rw [Rose.preorder, unboundedFrames] at hword
      obtain ⟨rfl, hforest⟩ := List.cons.inj hword
      have hnil : children = [] := by
        cases children with
        | nil => rfl
        | cons t ts =>
          have hlen := congrArg List.length hforest
          have hpos := t.preorder_length_pos
          rw [Rose.forest_cons, List.length_append, List.length_nil] at hlen
          omega
      subst hnil
      rw [Rose.All] at hok
      have hcount : 0 = 4294967295 := hok.1.count
      cases hcount
  refine ⟨hrun, hnone, fun hexact => ?_⟩
  obtain ⟨index, kind, detail, herror⟩ := hexact.rejects hnone
  cases hrun.symm.trans herror

end PureSimdjson
