import PureSimdjson.Effect
import PureSimdjson.FrameDecoding
import PureSimdjson.Nesting
import PureSimdjson.Simdjson

/-!
# The materializer walk

`append_materialize_frame` pushes one frame for each value of an element, depth
first, and writes a container's child count into its frame only after the
children have been pushed.  The vector of frames is the state of the walk; the
size hints only reserve memory for it and are left out.

The walk's specification says what it does with any element that shows a
document: it pushes the word of a frame tree that decodes to the document's Go
value, or it stops at the depth limit, or at a container with too many children.
-/
namespace PureSimdjson

open Effect PreorderWords

/-- The bridge's calls on one document, with `materialize_frames` as the state. -/
abbrev MaterializeM := EStateM ErrorCode (List Frame)

/-- A `simdjson_result`, with its error mapped. -/
def getOrReturn {σ α : Type} (result : Except SimdjsonError α) : EStateM ErrorCode σ α :=
  match result with
  | .ok a => pure a
  | .error e => throw (mapError e)

/-- The pointer and length the bridge reports for a `string_view`: an empty view has
a null pointer. -/
def Span.ofView (view : Span) : Span :=
  if view.len = 0 then .empty else view

/-- `set_frame_key`. -/
def setFrameKey (frame : Frame) (key : Span) : Frame :=
  { frame with key := key.ofView }

/-- `materialize_frames.push_back`. -/
def pushFrame (frame : Frame) : MaterializeM Unit :=
  modify fun frames => frames ++ [frame]

/-- `materialize_frames[frame_index].child_count = uint32_t(child_count)`. -/
def setChildCount (frameIndex childCount : Nat) : MaterializeM Unit :=
  modify fun frames =>
    frames.modify frameIndex fun frame => { frame with childCount := UInt32.ofNat childCount }

/-- The `for` loop over a container's children.  `childCount` of them are behind. -/
def appendChildren {α : Type} (append : α → MaterializeM Unit) :
    List α → (childCount : Nat) → MaterializeM Nat
  | [], childCount => pure childCount
  | child :: rest, childCount => do
    append child
    let childCount := childCount + 1
    if childCount > Json.maxChildren then throw .internal
    appendChildren append rest childCount

/-- `append_materialize_frame`. -/
def appendMaterializeFrame {E : Type} (dom : Dom E) (element : E) (key : Span) (depth : Nat) :
    MaterializeM Unit :=
  if _h : depth ≥ maxSupportedDepth then throw .depthLimit
  else do
    let type := dom.type element
    let frame := { setFrameKey Frame.zero key with
      flags := 0, kind := UInt32.ofNat (mapElementType type).code }
    match type with
    | .array => do
      let array ← getOrReturn (dom.getArray element)
      let frameIndex := (← get).length
      pushFrame frame
      let childCount ← appendChildren
        (fun child => appendMaterializeFrame dom child .empty (depth + 1)) array 0
      setChildCount frameIndex childCount
    | .object => do
      let object ← getOrReturn (dom.getObject element)
      let frameIndex := (← get).length
      pushFrame frame
      let childCount ← appendChildren
        (fun field => appendMaterializeFrame dom field.2 field.1 (depth + 1)) object 0
      setChildCount frameIndex childCount
    | .int64 => do
      let value ← getOrReturn (dom.getInt64 element)
      pushFrame { frame with int64Value := value }
    | .uint64 => do
      let value ← getOrReturn (dom.getUint64 element)
      pushFrame { frame with uint64Value := value }
    | .double => do
      let value ← getOrReturn (dom.getDouble element)
      pushFrame { frame with float64Value := value }
    | .string => do
      let value ← getOrReturn (dom.getString element)
      pushFrame { frame with string := value.ofView }
    | .bool => do
      let value ← getOrReturn (dom.getBool element)
      pushFrame { frame with flags := if value then 1 else 0 }
    | .nullValue => pushFrame frame
    | .bigint => do
      let value ← getOrReturn (dom.getBigint element)
      pushFrame { frame with string := value.ofView }
  termination_by maxSupportedDepth - depth

/-! ## What the walk pushes -/

@[simp] theorem wp_getOrReturn_ok {σ α : Type} {Q : α → σ → Prop} {E : ErrorCode → σ → Prop}
    {s : σ} (a : α) : wp (getOrReturn (.ok a)) Q E s ↔ Q a s := Iff.rfl

@[simp] theorem wp_pushFrame {Q : Unit → List Frame → Prop} {E : ErrorCode → List Frame → Prop}
    {s : List Frame} (frame : Frame) : wp (pushFrame frame) Q E s ↔ Q ⟨⟩ (s ++ [frame]) :=
  Iff.rfl

section
variable (mem : Memory)

theorem ofView_len (view : Span) : view.ofView.len = view.len := by
  unfold Span.ofView
  split
  · rename_i h
    exact h.symm
  · rfl

theorem Memory.Holds.readable {mem : Memory} {view : Span} {bytes : Bytes}
    (h : mem.Holds view bytes) : view.ofView.Readable := by
  unfold Span.ofView
  split
  · exact Or.inl rfl
  · exact Or.inr h.nonnull

theorem Memory.Holds.read_ofView {mem : Memory} {view : Span} {bytes : Bytes}
    (h : mem.Holds view bytes) : mem.read view.ofView = bytes := by
  rw [← h.read]
  unfold Span.ofView
  split
  · rename_i hlen
    simp [Memory.read, hlen, Span.empty]
  · rfl

/-- **The tree has a node for every value of the document**, and every frame counts the
values directly under it. -/
inductive Mirrors : Json → Rose Frame → Prop where
  | node {v : Json} {frame : Frame} {trees : List (Rose Frame)}
      (count : frame.childCount.toNat = v.children.length)
      (children : List.Forall₂ Mirrors v.children trees) : Mirrors v (.node frame trees)

/-- `tree` is a frame tree of the document `v`, under the key `key`. -/
structure FrameTreeOf (key : Span) (v : Json) (tree : Rose Frame) : Prop where
  ok : tree.All NodeOk
  value : treeValue mem tree = v.toGo
  mirrors : Mirrors v tree
  sized : key.len < 2 ^ 63 → ∀ frame ∈ tree.preorder, frame.Sized
  key : tree.label.key = key.ofView

/-- **What pushing the frames of `v` does**, when `levels` levels are left: push the
word of a frame tree of `v`; stop at the depth limit; or stop at a container with
too many children. -/
def Pushes (push : MaterializeM Unit) (key : Span) (levels : Nat) (v : Json) : Prop :=
  ∀ s, wp push
    (fun _ s' => ¬ v.Reaches levels ∧ v.Narrow ∧
      ∃ tree, FrameTreeOf mem key v tree ∧ s' = s ++ tree.preorder)
    (fun err _ => err = .depthLimit ∧ v.Reaches levels ∨
      err = .internal ∧ ¬ v.Reaches levels ∧ ¬ v.Narrow) s

/-- The loop over the children, from a push that is right for each of them. -/
theorem appendChildren_spec {α : Type} {append : α → MaterializeM Unit} {levels : Nat} :
    ∀ {cs : List (Span × Json)} {children : List α} (count : Nat) (s : List Frame),
      List.Forall₂ (fun c child => Pushes mem (append child) c.1 levels c.2) cs children →
      count ≤ Json.maxChildren →
      wp (appendChildren append children count)
        (fun total s' => total = count + cs.length ∧ total ≤ Json.maxChildren ∧
          (¬ Json.ReachesFrom count levels (cs.map Prod.snd) ∧ ∀ c ∈ cs, c.2.Narrow) ∧
          ∃ trees, List.Forall₂ (fun c tree => FrameTreeOf mem c.1 c.2 tree) cs trees ∧
            s' = s ++ Rose.forest trees)
        (fun err _ => err = .depthLimit ∧ Json.ReachesFrom count levels (cs.map Prod.snd) ∨
          err = .internal ∧ ¬ Json.ReachesFrom count levels (cs.map Prod.snd) ∧
            ¬ (count + cs.length ≤ Json.maxChildren ∧ ∀ c ∈ cs, c.2.Narrow)) s := by
  intro cs
  induction cs with
  | nil =>
    intro children count s hall hcount
    cases hall
    refine ⟨rfl, hcount, ⟨Json.not_reachesFrom_nil count levels, nofun⟩, [], .nil, ?_⟩
    rw [Rose.forest_nil, List.append_nil]
  | cons c cs ih =>
    intro children count s hall hcount
    cases hall with
    | @cons _ child _ rest hchild hrest =>
      rw [appendChildren, wp_bind, List.map_cons, Json.reachesFrom_cons hcount]
      refine wp_mono (hchild s) ?_ ?_
      · rintro - s' ⟨hreach, hnarrow, tree, htree, rfl⟩
        rw [wp_ite]
        refine ⟨fun hfull => ?_, fun hroom => ?_⟩
        · rw [wp_bind, wp_throw]
          refine Or.inr ⟨rfl, ?_, fun h => ?_⟩
          · rintro (h | h)
            · exact hreach h
            · exact Json.not_reachesFrom_of_full hfull h.2
          · rw [List.length_cons] at h
            omega
        · refine wp_mono (ih (count + 1) _ hrest (Nat.not_lt.mp hroom)) ?_ ?_
          · rintro total s' ⟨htotal, hle, ⟨hreaches, hnarrows⟩, trees, htrees, rfl⟩
            refine ⟨?_, hle, ⟨?_, ?_⟩, tree :: trees, .cons htree htrees, ?_⟩
            · rw [htotal, List.length_cons]
              omega
            · rintro (h | h)
              · exact hreach h
              · exact hreaches h.2
            · intro d hd
              rcases List.mem_cons.mp hd with rfl | hd
              · exact hnarrow
              · exact hnarrows d hd
            · rw [Rose.forest_cons, List.append_assoc]
          · rintro err s' (⟨rfl, h⟩ | ⟨rfl, h, hwide⟩)
            · exact Or.inl ⟨rfl, Or.inr ⟨hnarrow, h⟩⟩
            · refine Or.inr ⟨rfl, ?_, fun hall => hwide ⟨?_, ?_⟩⟩
              · rintro (h' | h')
                · exact hreach h'
                · exact h h'.2
              · have hlen := hall.1
                rw [List.length_cons] at hlen
                omega
              · exact fun d hd => hall.2 d (List.mem_cons_of_mem c hd)
      · rintro err - (⟨rfl, hreach⟩ | ⟨rfl, hreach, hwide⟩)
        · exact Or.inl ⟨rfl, Or.inl hreach⟩
        · refine Or.inr ⟨rfl, ?_, ?_⟩
          · rintro (h | h)
            · exact hreach h
            · exact hwide h.1
          · exact fun h => hwide (h.2 c List.mem_cons_self)

theorem frameKind_code {kind : ValueKind} (h : kind ≠ .invalid) :
    frameKind (UInt32.ofNat kind.code) = some kind := by
  cases kind <;> first | rfl | exact absurd rfl h

/-- A frame pushed earlier can still be written to. -/
theorem modify_append_length (s rest : List Frame) (frame : Frame) (f : Frame → Frame) :
    (s ++ frame :: rest).modify s.length f = s ++ f frame :: rest := by
  induction s with
  | nil => rfl
  | cons a s ih => rw [List.cons_append, List.length_cons, List.modify_succ_cons, ih]; rfl

theorem allForest_of_frameTrees {cs : List (Span × Json)} {trees : List (Rose Frame)}
    (h : List.Forall₂ (fun c tree => FrameTreeOf mem c.1 c.2 tree) cs trees) :
    Rose.AllForest NodeOk trees := by
  induction h with
  | nil => exact Rose.allForest_nil _
  | cons hc _ ih => exact (Rose.allForest_cons ..).mpr ⟨hc.ok, ih⟩

theorem mirrors_of_frameTrees {cs : List (Span × Json)} {trees : List (Rose Frame)}
    (h : List.Forall₂ (fun c tree => FrameTreeOf mem c.1 c.2 tree) cs trees) :
    List.Forall₂ Mirrors (cs.map Prod.snd) trees := by
  rw [List.forall₂_map_left_iff]
  exact h.imp fun _ _ htree => htree.mirrors

theorem sized_of_frameTrees {cs : List (Span × Json)} {trees : List (Rose Frame)}
    (h : List.Forall₂ (fun c tree => FrameTreeOf mem c.1 c.2 tree) cs trees)
    (hkeys : ∀ c ∈ cs, c.1.len < 2 ^ 63) : ∀ frame ∈ Rose.forest trees, frame.Sized := by
  induction h with
  | nil => simp
  | @cons c tree cs trees hc _ ih =>
    intro frame hframe
    rw [Rose.forest_cons] at hframe
    rcases List.mem_append.mp hframe with hframe | hframe
    · exact hc.sized (hkeys c List.mem_cons_self) frame hframe
    · exact ih (fun c hmem => hkeys c (List.mem_cons_of_mem _ hmem)) frame hframe

/-- The values of an array's frame trees. -/
theorem forestValues_of_frameTrees {items : List Json} {trees : List (Rose Frame)}
    (h : List.Forall₂ (fun c tree => FrameTreeOf mem c.1 c.2 tree)
      (items.map fun v => (Span.empty, v)) trees) :
    forestValues mem trees = Json.itemsToGo items := by
  induction items generalizing trees with
  | nil =>
    cases h
    rw [forestValues, Json.itemsToGo]
  | cons v items ih =>
    cases h with
    | cons hc htail => rw [forestValues, Json.itemsToGo, hc.value, ih htail]

/-- The keys and values a container's children are pushed under. -/
def fieldPushes {E : Type} (fields : List (Bytes × Json)) (children : List (Span × E)) :
    List (Span × Json) :=
  List.zipWith (fun field child => (child.1, field.2)) fields children

/-- The entries of an object's frame trees, whose keys are views of the field names. -/
theorem forestEntries_of_frameTrees {E : Type} {dom : Dom E} {fields : List (Bytes × Json)}
    {children : List (Span × E)} {trees : List (Rose Frame)}
    (hshows : List.Forall₂ (dom.ShowsField mem) fields children)
    (h : List.Forall₂ (fun c tree => FrameTreeOf mem c.1 c.2 tree)
      (fieldPushes fields children) trees) :
    (∀ entries, forestEntries mem entries trees = Json.fieldsToGo entries fields) ∧
      ∀ tree ∈ trees, tree.label.key.Readable := by
  induction hshows generalizing trees with
  | nil =>
    cases h
    refine ⟨fun entries => ?_, nofun⟩
    rw [forestEntries, Json.fieldsToGo]
  | @cons field child fields children hfield _ ih =>
    cases h with
    | @cons _ tree _ trees hc htail =>
      obtain ⟨key, v⟩ := field
      obtain ⟨hentries, hkeys⟩ := ih htail
      refine ⟨fun entries => ?_, fun t ht => ?_⟩
      · rw [forestEntries, Json.fieldsToGo, hc.value, hc.key, hfield.1.read_ofView, hentries]
      · rcases List.mem_cons.mp ht with rfl | ht
        · rw [hc.key]
          exact hfield.1.readable
        · exact hkeys t ht

/-- What the trees pushed behind a container's frame make of it. -/
def ContainerTree (frame : Frame) (v : Json) (cs : List (Span × Json)) : Prop :=
  ∀ trees, List.Forall₂ (fun c tree => FrameTreeOf mem c.1 c.2 tree) cs trees →
    cs.length ≤ Json.maxChildren →
    let counted := { frame with childCount := UInt32.ofNat cs.length }
    NodeOk counted trees ∧ treeValue mem (.node counted trees) = v.toGo

/-- The cast of a child count that passed the test loses nothing. -/
theorem toNat_childCount {count : Nat} (h : count ≤ Json.maxChildren) :
    (UInt32.ofNat count).toNat = count :=
  UInt32.toNat_ofNat_of_lt' (Nat.lt_of_le_of_lt h (by decide))

/-- Pushing a container: its frame, then its children, then the count. -/
theorem pushes_container {α : Type} {append : α → MaterializeM Unit} {children : List α}
    (frame : Frame) {key : Span} {levels : Nat} (v : Json) {cs : List (Span × Json)}
    (hcs : v.children = cs.map Prod.snd)
    (hall : List.Forall₂ (fun c child => Pushes mem (append child) c.1 levels c.2) cs children)
    (hkey : frame.key = key.ofView) (hstring : frame.string.len < 2 ^ 63)
    (hkeys : ∀ c ∈ cs, c.1.len < 2 ^ 63) (htree : ContainerTree mem frame v cs) :
    Pushes mem (do
      let frameIndex := (← get).length
      pushFrame frame
      let childCount ← appendChildren append children 0
      setChildCount frameIndex childCount) key (levels + 1) v := by
  intro s
  simp only [wp_bind, wp_get, wp_pushFrame]
  refine wp_mono (appendChildren_spec mem 0 _ hall (Nat.zero_le _)) ?_ ?_
  · rintro total s' ⟨rfl, hle, ⟨hreach, hnarrow⟩, trees, htrees, rfl⟩
    rw [Nat.zero_add] at hle
    obtain ⟨hok, hvalue⟩ := htree trees htrees hle
    rw [setChildCount, wp_modify, Nat.zero_add]
    refine ⟨?_, .intro ?_ ?_, .node _ trees, ⟨?_, hvalue, .node ?_ ?_, ?_, hkey⟩, ?_⟩
    · rw [Json.reaches_succ, hcs]
      exact hreach
    · rw [hcs, List.length_map]
      exact hle
    · rw [hcs]
      intro c hc
      obtain ⟨d, hd, rfl⟩ := List.mem_map.mp hc
      exact hnarrow d hd
    · rw [Rose.All]
      exact ⟨hok, allForest_of_frameTrees mem htrees⟩
    · rw [hcs, List.length_map]
      exact toNat_childCount hle
    · rw [hcs]
      exact mirrors_of_frameTrees mem htrees
    · intro hsize frame' hframe'
      rw [Rose.preorder] at hframe'
      rcases List.mem_cons.mp hframe' with rfl | hframe'
      · exact ⟨hkey ▸ (ofView_len key).symm ▸ hsize, hstring⟩
      · exact sized_of_frameTrees mem htrees hkeys frame' hframe'
    · rw [List.append_assoc, List.singleton_append, modify_append_length, Rose.preorder]
  · rintro err s' (⟨rfl, h⟩ | ⟨rfl, h, hwide⟩)
    · exact Or.inl ⟨rfl, by rw [Json.reaches_succ, hcs]; exact h⟩
    · refine Or.inr ⟨rfl, by rw [Json.reaches_succ, hcs]; exact h, fun hnarrow => hwide ?_⟩
      rw [Json.narrow_iff, hcs, List.length_map] at hnarrow
      exact ⟨by simpa using hnarrow.1, fun c hc => hnarrow.2 _ (List.mem_map_of_mem hc)⟩

theorem array_frameTree {frame : Frame} {items : List Json}
    (hkind : frameKind frame.kind = some .array) :
    ContainerTree mem frame (.array items) (items.map fun v => (Span.empty, v)) := by
  intro trees htrees hle
  rw [List.length_map] at hle
  have hcount := toNat_childCount hle
  have hlen : trees.length = items.length := by rw [← htrees.length_eq, List.length_map]
  refine ⟨⟨by simp [hkind], ?_, by simp [Frame.HasString, hkind], by simp [hkind]⟩, ?_⟩
  · simp [Frame.arity, hkind, hlen, hcount]
  · simp [treeValue, hkind, Json.toGo, forestValues_of_frameTrees mem htrees]

theorem object_frameTree {E : Type} {dom : Dom E} {frame : Frame}
    {fields : List (Bytes × Json)} {children : List (Span × E)}
    (hkind : frameKind frame.kind = some .object)
    (hshows : List.Forall₂ (dom.ShowsField mem) fields children) :
    ContainerTree mem frame (.object fields) (fieldPushes fields children) := by
  intro trees htrees hle
  obtain ⟨hentries, hkeys⟩ := forestEntries_of_frameTrees mem hshows htrees
  have hcount := toNat_childCount hle
  have hlen : trees.length = (fieldPushes fields children).length := htrees.length_eq.symm
  refine ⟨⟨by simp [hkind], ?_, by simp [Frame.HasString, hkind], fun _ => hkeys⟩, ?_⟩
  · simp only [Frame.arity, hkind, hcount, hlen]
  · simp [treeValue, hkind, Json.toGo, hentries]

/-- What holds of every child under its own document, from what the children show. -/
theorem forall₂_of_mem {α β : Type} {R S : α → β → Prop} {as : List α} {bs : List β}
    (h : List.Forall₂ R as bs) (himp : ∀ a ∈ as, ∀ b, R a b → S a b) : List.Forall₂ S as bs := by
  induction h with
  | nil => exact .nil
  | cons hab _ ih =>
    exact .cons (himp _ List.mem_cons_self _ hab)
      (ih fun a ha => himp a (List.mem_cons_of_mem _ ha))

theorem map_fieldPushes {E : Type} {dom : Dom E} {fields : List (Bytes × Json)}
    {children : List (Span × E)} (h : List.Forall₂ (dom.ShowsField mem) fields children) :
    (fieldPushes fields children).map Prod.snd = fields.map Prod.snd := by
  induction h with
  | nil => rfl
  | cons _ _ ih =>
    rw [fieldPushes, List.zipWith_cons_cons, List.map_cons, List.map_cons, ← ih]
    rfl

theorem sized_fieldPushes {E : Type} {dom : Dom E} {fields : List (Bytes × Json)}
    {children : List (Span × E)} (h : List.Forall₂ (dom.ShowsField mem) fields children) :
    ∀ c ∈ fieldPushes fields children, c.1.len < 2 ^ 63 := by
  induction h with
  | nil => exact nofun
  | cons hfield _ ih =>
    rw [fieldPushes, List.zipWith_cons_cons]
    exact List.forall_mem_cons.mpr ⟨hfield.1.sized, ih⟩

theorem forall₂_fieldPushes {E : Type} {dom : Dom E} {fields : List (Bytes × Json)}
    {children : List (Span × E)} {P : Span × Json → Span × E → Prop}
    (h : List.Forall₂ (dom.ShowsField mem) fields children)
    (hP : ∀ field ∈ fields, ∀ child, dom.ShowsField mem field child →
      P (child.1, field.2) child) :
    List.Forall₂ P (fieldPushes fields children) children := by
  induction h with
  | nil => exact .nil
  | cons hfield _ ih =>
    exact .cons (hP _ List.mem_cons_self _ hfield)
      (ih fun field hmem => hP field (List.mem_cons_of_mem _ hmem))

/-- The depth test stands before everything else. -/
theorem pushes_of_lt {E : Type} (dom : Dom E) {element : E} {key : Span} {depth : Nat} {v : Json}
    (h : depth < maxSupportedDepth → Pushes mem (appendMaterializeFrame dom element key depth) key
      (maxSupportedDepth - (depth + 1) + 1) v) :
    Pushes mem (appendMaterializeFrame dom element key depth) key (maxSupportedDepth - depth)
      v := by
  by_cases hd : depth < maxSupportedDepth
  · rw [show maxSupportedDepth - depth = maxSupportedDepth - (depth + 1) + 1 by omega]
    exact h hd
  · intro s
    rw [appendMaterializeFrame, dif_pos (Nat.not_lt.mp hd), wp_throw,
      Nat.sub_eq_zero_of_le (Nat.not_lt.mp hd)]
    exact Or.inl ⟨rfl, .here v⟩

/-- The frame `append_materialize_frame` starts a value with. -/
def startFrame (key : Span) (type : ElementType) : Frame :=
  { setFrameKey Frame.zero key with flags := 0, kind := UInt32.ofNat (mapElementType type).code }

theorem startFrame_string (key : Span) (type : ElementType) :
    (startFrame key type).string.len < 2 ^ 63 :=
  show 0 < 2 ^ 63 by decide

theorem frameKind_start (key : Span) (type : ElementType) :
    frameKind (startFrame key type).kind = some (mapElementType type) :=
  frameKind_code (by cases type <;> decide)

/-- **Pushing one frame is right for a value with nothing under it**, provided the
frame is of the value's kind and decodes to it. -/
theorem pushes_leaf {E : Type} (dom : Dom E) {element : E} {key : Span} {depth : Nat} {v : Json}
    (frame : Frame) (hleaf : v.children = []) (hok : NodeOk frame [])
    (hvalue : treeValue mem (.node frame []) = v.toGo) (hkey : frame.key = key.ofView)
    (hcount : frame.childCount = 0) (hstring : frame.string.len < 2 ^ 63)
    (hpush : depth < maxSupportedDepth →
      ∀ s Q E, wp (appendMaterializeFrame dom element key depth) Q E s ↔ Q ⟨⟩ (s ++ [frame])) :
    Pushes mem (appendMaterializeFrame dom element key depth) key (maxSupportedDepth - depth)
      v := by
  refine pushes_of_lt mem dom fun hd s => ?_
  rw [hpush hd]
  refine ⟨?_, .intro (by simp [hleaf]) (by simp [hleaf]), .node frame [],
    ⟨?_, hvalue, .node ?_ ?_, ?_, hkey⟩, ?_⟩
  · rw [Json.reaches_succ, hleaf]
    exact Json.not_reachesFrom_nil 0 _
  · rw [Rose.All]
    exact ⟨hok, Rose.allForest_nil _⟩
  · rw [hcount, hleaf]
    rfl
  · rw [hleaf]
    exact .nil
  · intro hsize frame' hframe'
    rw [Rose.preorder, Rose.forest_nil] at hframe'
    obtain rfl := List.mem_singleton.mp hframe'
    exact ⟨hkey ▸ (ofView_len key).symm ▸ hsize, hstring⟩
  · rw [Rose.preorder, Rose.forest_nil]

theorem startFrame_string_ok {key view : Span} {bytes : Bytes} {type : ElementType}
    (htype : type = .string ∨ type = .bigint) (hview : mem.Holds view bytes) :
    NodeOk { startFrame key type with string := view.ofView } [] := by
  refine .bytes ?_ hview.readable
  rcases htype with rfl | rfl
  · exact Or.inl (frameKind_start key .string)
  · exact Or.inr (frameKind_start key .bigint)

/-- **The walk's specification.**  On an element that shows `v`, and with the depth
counted from the limit, `append_materialize_frame` pushes the frames of `v`. -/
theorem appendMaterializeFrame_spec {E : Type} (dom : Dom E) (v : Json) :
    ∀ element key depth, dom.Shows mem v element →
      Pushes mem (appendMaterializeFrame dom element key depth) key (maxSupportedDepth - depth)
        v := by
  induction v with
  | null =>
    rintro element key depth ⟨htype, _⟩
    have hkind := frameKind_start key .nullValue
    refine pushes_leaf mem dom (startFrame key .nullValue) rfl (.scalar hkind (by decide))
      (by simp [treeValue, hkind, mapElementType, Json.toGo]) rfl rfl
      (startFrame_string key .nullValue) fun hd s Q E => ?_
    rw [appendMaterializeFrame, dif_neg (Nat.not_le.mpr hd)]
    simp only [htype]
    rfl
  | bool b =>
    rintro element key depth ⟨htype, hget⟩
    have hkind := frameKind_start key .bool
    refine pushes_leaf mem dom { startFrame key .bool with flags := if b then 1 else 0 } rfl
      (.scalar hkind (by decide))
      (by cases b <;> simp [treeValue, hkind, mapElementType, Json.toGo]) rfl rfl
      (startFrame_string key .bool) fun hd s Q E => ?_
    rw [appendMaterializeFrame, dif_neg (Nat.not_le.mpr hd)]
    simp only [htype, hget]
    rfl
  | int64 n =>
    rintro element key depth ⟨htype, hget⟩
    have hkind := frameKind_start key .int64
    refine pushes_leaf mem dom { startFrame key .int64 with int64Value := n } rfl
      (.scalar hkind (by decide)) (by simp [treeValue, hkind, mapElementType, Json.toGo]) rfl rfl
      (startFrame_string key .int64) fun hd s Q E => ?_
    rw [appendMaterializeFrame, dif_neg (Nat.not_le.mpr hd)]
    simp only [htype, hget]
    rfl
  | uint64 n =>
    rintro element key depth ⟨htype, hget⟩
    have hkind := frameKind_start key .uint64
    refine pushes_leaf mem dom { startFrame key .uint64 with uint64Value := n } rfl
      (.scalar hkind (by decide)) (by simp [treeValue, hkind, mapElementType, Json.toGo]) rfl rfl
      (startFrame_string key .uint64) fun hd s Q E => ?_
    rw [appendMaterializeFrame, dif_neg (Nat.not_le.mpr hd)]
    simp only [htype, hget]
    rfl
  | double bits =>
    rintro element key depth ⟨htype, hget⟩
    have hkind := frameKind_start key .double
    refine pushes_leaf mem dom { startFrame key .double with float64Value := bits } rfl
      (.scalar hkind (by decide)) (by simp [treeValue, hkind, mapElementType, Json.toGo]) rfl rfl
      (startFrame_string key .double) fun hd s Q E => ?_
    rw [appendMaterializeFrame, dif_neg (Nat.not_le.mpr hd)]
    simp only [htype, hget]
    rfl
  | string bytes =>
    rintro element key depth ⟨htype, view, hget, hview⟩
    have hkind := frameKind_start key .string
    refine pushes_leaf mem dom { startFrame key .string with string := view.ofView } rfl
      (startFrame_string_ok mem (Or.inl rfl) hview)
      (by simp [treeValue, hkind, mapElementType, Json.toGo, hview.read_ofView]) rfl rfl
      ((ofView_len view).symm ▸ hview.sized) fun hd s Q E => ?_
    rw [appendMaterializeFrame, dif_neg (Nat.not_le.mpr hd)]
    simp only [htype, hget]
    rfl
  | bigint digits =>
    rintro element key depth ⟨htype, view, hget, hview⟩
    have hkind := frameKind_start key .bigint
    refine pushes_leaf mem dom { startFrame key .bigint with string := view.ofView } rfl
      (startFrame_string_ok mem (Or.inr rfl) hview)
      (by simp [treeValue, hkind, mapElementType, Json.toGo, hview.read_ofView]) rfl rfl
      ((ofView_len view).symm ▸ hview.sized) fun hd s Q E => ?_
    rw [appendMaterializeFrame, dif_neg (Nat.not_le.mpr hd)]
    simp only [htype, hget]
    rfl
  | array items ih =>
    rintro element key depth ⟨htype, children, hget, hchildren⟩
    refine pushes_of_lt mem dom fun hd => ?_
    have hpushes : List.Forall₂ (fun c child => Pushes mem
        (appendMaterializeFrame dom child .empty (depth + 1)) c.1
        (maxSupportedDepth - (depth + 1)) c.2)
        (items.map fun v => (Span.empty, v)) children := by
      rw [dom.showsItems_iff] at hchildren
      rw [List.forall₂_map_left_iff]
      exact forall₂_of_mem hchildren fun v hv child hshows =>
        ih v hv child .empty (depth + 1) hshows
    have hrun := pushes_container mem (startFrame key .array) (.array items)
      (by simp [Json.children, Function.comp_def]) hpushes rfl (startFrame_string key .array)
      (by simp [Span.empty]) (array_frameTree mem (frameKind_start key .array))
    intro s
    rw [appendMaterializeFrame, dif_neg (Nat.not_le.mpr hd)]
    simp only [htype, hget]
    exact hrun s
  | object fields ih =>
    rintro element key depth ⟨htype, children, hget, hchildren⟩
    refine pushes_of_lt mem dom fun hd => ?_
    rw [dom.showsFields_iff] at hchildren
    have hpushes : List.Forall₂ (fun c child => Pushes mem
        (appendMaterializeFrame dom child.2 child.1 (depth + 1)) c.1
        (maxSupportedDepth - (depth + 1)) c.2)
        (fieldPushes fields children) children :=
      forall₂_fieldPushes mem hchildren fun field hmem child hshows =>
        ih field.1 field.2 hmem child.2 child.1 (depth + 1) hshows.2
    have hrun := pushes_container mem (startFrame key .object) (.object fields)
      (map_fieldPushes mem hchildren).symm hpushes rfl (startFrame_string key .object)
      (sized_fieldPushes mem hchildren)
      (object_frameTree mem (frameKind_start key .object) hchildren)
    intro s
    rw [appendMaterializeFrame, dif_neg (Nat.not_le.mpr hd)]
    simp only [htype, hget]
    exact hrun s

end

end PureSimdjson
