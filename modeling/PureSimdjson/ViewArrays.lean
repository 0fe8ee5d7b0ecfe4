import PureSimdjson.ByteBlocks
import PureSimdjson.Records

/-!
# Arrays of views

A wildcard lookup hands out its views as an array in memory, in a block of its own, which the
caller reads as 32-byte records and gives back.  Like the copy of a string the block is made
where no block is, and the ledger names only blocks that are there.
-/
namespace PureSimdjson

open Effect Runs Records

/-! ## The layout of a view -/

/-- `sizeof(pure_simdjson_value_view_t)`. -/
def viewSize : Nat := 32

/-- Every field fits in its width. -/
structure ValueView.Fits (view : ValueView) : Prop where
  state0 : view.state0 < 2 ^ 64
  state1 : view.state1 < 2 ^ 64
  kindHint : view.kindHint < 2 ^ 32
  reserved : view.reserved < 2 ^ 32

/-- A view as it lies in memory. -/
def ValueView.bytes (view : ValueView) : Bytes :=
  split 8 view.doc.toNat ++ split 8 view.state0 ++ split 8 view.state1 ++
    split 4 view.kindHint ++ split 4 view.reserved

/-- The view that 32 bytes are. -/
def ValueView.ofBytes (bytes : Bytes) : ValueView where
  doc := UInt64.ofNat (join (bytes.take 8))
  state0 := join ((bytes.drop 8).take 8)
  state1 := join ((bytes.drop 16).take 8)
  kindHint := join ((bytes.drop 24).take 4)
  reserved := join ((bytes.drop 28).take 4)

theorem ValueView.length_bytes (view : ValueView) : view.bytes.length = viewSize := by
  simp [ValueView.bytes, viewSize]

/-- **A view is read as it was written.** -/
theorem ValueView.ofBytes_bytes {view : ValueView} (h : view.Fits) : ofBytes view.bytes = view := by
  have hdoc : join (split 8 view.doc.toNat) = view.doc.toNat := join_split view.doc.toNat_lt
  have hstate0 : join (split 8 view.state0) = view.state0 := join_split h.state0
  have hstate1 : join (split 8 view.state1) = view.state1 := join_split h.state1
  have hkindHint : join (split 4 view.kindHint) = view.kindHint := join_split h.kindHint
  have hreserved : join (split 4 view.reserved) = view.reserved := join_split h.reserved
  simp [ofBytes, ValueView.bytes, List.drop_append, List.take_of_length_le,
    List.drop_of_length_le, hdoc, hstate0, hstate1, hkindHint, hreserved]

/-- `unsafe.Slice(ptr, count)` on an array of views, copied.  Like `unsafe.Slice` on bytes it
panics on a null pointer and on a size that does not fit in the address space. -/
def sliceViews (mem : Memory) (ptr count : Nat) : Option (List ValueView) :=
  if ptr = 0 ∨ 2 ^ 63 ≤ viewSize * count then none
  else
    let bytes := (List.range (viewSize * count)).map fun offset => mem (ptr + offset)
    some ((List.range count).map fun i => .ofBytes (chunk viewSize bytes i))

/-- **An array of views is read as it was written.** -/
theorem sliceViews_eq {mem : Memory} {ptr : Nat} {views : List ValueView} (hptr : ptr ≠ 0)
    (hsize : viewSize * views.length < 2 ^ 63) (hfits : ∀ view ∈ views, view.Fits)
    (hholds : (List.range (views.flatMap ValueView.bytes).length).map
      (fun offset => mem (ptr + offset)) = views.flatMap ValueView.bytes) :
    sliceViews mem ptr views.length = some views := by
  have hsizes : ∀ view ∈ views, view.bytes.length = viewSize := fun view _ => view.length_bytes
  rw [length_flatMap_of_size hsizes] at hholds
  have hnot : ¬ (ptr = 0 ∨ 2 ^ 63 ≤ viewSize * views.length) := by
    rintro (hnull | hlong)
    · exact hptr hnull
    · exact absurd hsize (Nat.not_lt.mpr hlong)
  rw [sliceViews, if_neg hnot]
  dsimp only
  rw [hholds, map_chunk hsizes fun view hview => ValueView.ofBytes_bytes (hfits view hview)]

/-! ## Every recorded array is there -/

section
variable {W : Type}

/-- **What the allocator and the rest of the process do about the arrays of views**, where
`arrays w` are the addresses of those that are there. -/
structure AllocatesViews (native : Native W) (arrays : W → Set Nat) : Prop where
  plain : native.Plain (Grows arrays)
  onParsers : native.OnParsers (Grows arrays)
  leakBytes : ∀ bytes w, Grows arrays w (native.leakBytes bytes w).2
  dropBytes : ∀ ptr len w, Grows arrays w (native.dropBytes ptr len w)
  leakViews : ∀ views w, views ≠ [] →
    NewBlock native.memory arrays (views.flatMap ValueView.bytes) w (native.leakViews views w)
  dropViews : ∀ ptr len w, arrays w \ {ptr} ⊆ arrays (native.dropViews ptr len w)

variable {arrays : W → Set Nat} {native : Native W} {s : Runtime W}
  (h : AllocatesViews native arrays)
include h

/-- Finding the elements of a wildcard leaves the arrays alone. -/
theorem sameViews_wildcard (view : Option ValueView) (path : Bytes) :
    Keeps (SameBlocks .views arrays) (withResolvedView view fun jsonIndex doc => do
      let indices ← onDoc (native.read (.elementAtPathWildcardIndices path) · jsonIndex)
      indices.mapM (encodeDescendantView native doc)) :=
  frame_withResolvedView frames_sameBlocks (fun _ doc => (frame_readDoc h.plain _ _).bind fun _ =>
    Keeps.mapM (fun _ => frame_encodeDescendantView h.plain doc _) _) view

theorem wp_elementAtPathWildcard_backed (hs : Backed .views arrays s) (view : Option ValueView)
    (path : Bytes) :
    wp (elementAtPathWildcard native view path) (fun _ => Backed .views arrays)
      (fun _ => Backed .views arrays) s := by
  rw [elementAtPathWildcard, wp_bind]
  refine wp_mono (sameViews_wildcard h view path s) ?_ fun _ s' hsame => hs.of_same hsame
  intro views s' hsame
  rw [wp_ite]
  refine ⟨fun _ => hs.of_same hsame, fun hne => ?_⟩
  have hmade := h.leakViews views s'.native fun hnil => hne (by rw [hnil]; rfl)
  rw [wp_bind, wp_callNative, wp_modifyGet]
  have hgrown : Backed .views arrays { s' with native := (native.leakViews views s'.native).2 } :=
    hs.of_same ⟨hsame.native.trans hmade.grows, hsame.ledger⟩
  exact wp_registerBlock_backed hgrown (fun hmem => hmade.fresh (hs.of_same hsame _ hmem))
    hmade.there _ _

theorem wp_exec_viewsBacked (hs : Backed .views arrays s) (call : Call) :
    wp (exec native call) (fun _ => Backed .views arrays) (fun _ => Backed .views arrays) s := by
  have hother : BlockKind.views ≠ .bytes := by decide
  have hsame {m : RuntimeM W Reply} (hm : Keeps (SameBlocks .views arrays) m) :
      wp m (fun _ => Backed .views arrays) (fun _ => Backed .views arrays) s :=
    wp_mono (hm s) (fun _ _ h => hs.of_same h) fun _ _ h => hs.of_same h
  by_cases hblocks : call.OnBlocks
  · cases call with
    | elementGetString view =>
      exact hsame ((frame_elementGetBytesCopy h.plain frames_sameBlocks
        (sameBlocks_allowsLedger hother) h.leakBytes h.dropBytes _ view).map _)
    | elementGetBigint view =>
      exact hsame ((frame_elementGetBytesCopy h.plain frames_sameBlocks
        (sameBlocks_allowsLedger hother) h.leakBytes h.dropBytes _ view).map _)
    | bytesFree ptr len =>
      exact hsame ((frame_freeBlock frames_sameBlocks (sameBlocks_allowsLedger hother) h.dropBytes
        ptr len).map _)
    | valueViewsFree ptr len =>
      rw [exec, wp_map]
      exact wp_freeBlock_backed hs h.dropViews ptr len
    | elementAtPathWildcard view path =>
      rw [exec, wp_map]
      exact wp_elementAtPathWildcard_backed h hs view path
    | _ => exact hblocks.elim
  · exact wp_mono (sameLedgers_exec h.onParsers h.plain call hblocks s)
      (fun _ _ h => hs.of_same h.sameBlocks) fun _ _ h => hs.of_same h.sameBlocks

/-- **After any calls, every recorded array of views is there.** -/
theorem AllocatesViews.backed (hs : Reachable native s) : Backed .views arrays s :=
  backed_of_reachable (fun _ hs => wp_exec_viewsBacked h hs) hs

end

/-! ## The bridge -/

section
variable {W : Type} {arrays : W → Set Nat} (sj : Simdjson W)

theorem allocatesViews_bridge {base : Native W} (h : AllocatesViews base arrays) :
    AllocatesViews (bridge sj base) arrays where
  plain := { h.plain with read := keeps_bridgeRead sj }
  onParsers := { h.onParsers with }
  leakBytes := h.leakBytes
  dropBytes := h.dropBytes
  leakViews := h.leakViews
  dropViews := h.dropViews

end

end PureSimdjson
