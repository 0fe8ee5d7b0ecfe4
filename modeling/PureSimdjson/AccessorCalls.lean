import PureSimdjson.ByteBlocks
import PureSimdjson.Elements

/-!
# What the accessors return

A caller who walks an open document makes calls of the library one after the other.  What it
needs from one to the next is that the tables are sound, the recorded blocks are there, and the
document is registered with the entry it had; then every accessor returns what the element is.
-/
namespace PureSimdjson.Elements

open Effect Json Runs

/-! ## Between the calls -/

section
variable {W : Type} {native : Native W} {tape : W → Nat → Option Json} {blocks : W → Set Nat}
  {ptr : Nat} {root : Json} {s : Runtime W}

/-- What any call but the document's free leaves standing. -/
structure Standing (tape : W → Nat → Option Json) (blocks : W → Set Nat) (ptr : Nat)
    (root : Json) (s : Runtime W) : Prop where
  sized : s.registry.Sized
  safe : Safe tape (fun w => tape w ptr = some root) s
  backed : Backed .bytes blocks s

/-- **A call leaves standing what stands**, whatever else it does. -/
theorem Standing.call (hsafe : TapeSafe native tape) (hblocks : Allocates native blocks)
    (h : Standing tape blocks ptr root s) (call : Call) {α : Type} {m : RuntimeM W α}
    {reply : α → Reply} (hexec : exec native call = reply <$> m)
    (hfree : ∀ handle, call ≠ .docFree handle) {Q : α → Runtime W → Prop}
    {E : ErrorCode → Runtime W → Prop} (hm : wp m Q E s) :
    wp m (fun a s' => Standing tape blocks ptr root s' ∧ Q a s')
      (fun rc s' => Standing tape blocks ptr root s' ∧ E rc s') s := by
  have hafter {result : Except ErrorCode Reply} {s' : Runtime W}
      (hstep : Executes native s (call, result) s') : Standing tape blocks ptr root s' := by
    refine ⟨(moved_of_executes native h.sized hstep).sized h.sized, ?_,
      hstep.backed hblocks h.backed⟩
    exact hstep.safe hsafe.keeping h.sized h.safe
      fun _ handle _ _ hcall => absurd hcall (hfree handle)
  cases hrun : m.run s with
  | ok a s' =>
    have hstep : Executes native s (call, .ok (reply a)) s' := by
      rw [Executes, hexec]
      exact run_eq_ok ((wp_map ..).mpr (wp_of_run_ok hrun ⟨rfl, rfl⟩))
    exact wp_of_run_ok hrun ⟨hafter hstep, wp_ok hm hrun⟩
  | error rc s' =>
    have hstep : Executes native s (call, .error rc) s' := by
      rw [Executes, hexec]
      exact run_eq_error ((wp_map ..).mpr (wp_of_run_error hrun ⟨rfl, rfl⟩))
    exact wp_of_run_error hrun ⟨hafter hstep, wp_error hm hrun⟩

/-- The document is registered in the slot, with this entry. -/
structure Ready (tape : W → Nat → Option Json) (blocks : W → Set Nat) (root : Json)
    (doc : UInt64) (slot : UInt32) (entry : DocEntry) (s : Runtime W) : Prop
    extends Standing tape blocks entry.nativePtr root s where
  live : DocLive s.registry doc slot entry

variable {doc : UInt64} {slot : UInt32} {entry : DocEntry}

theorem Ready.root_eq (h : Ready tape blocks root doc slot entry s) :
    tape s.native entry.nativePtr = some root := h.safe.inv

theorem Ready.docOk (h : Ready tape blocks root doc slot entry s) : DocOk root entry := by
  obtain ⟨root', hroot, hok⟩ := h.safe.docs.entries _ _ h.live.entry_eq
  rw [h.root_eq] at hroot
  cases hroot
  exact hok

/-- What a call leaves behind that changes nothing about the documents. -/
theorem Standing.ready {s' : Runtime W} (h : Standing tape blocks entry.nativePtr root s')
    (hlive : DocLive s.registry doc slot entry) (hdocs : s'.registry.docs = s.registry.docs) :
    Ready tape blocks root doc slot entry s' :=
  ⟨h, hlive.congr hdocs⟩

/-- What a call leaves behind that writes another entry of the same document. -/
theorem Standing.wrote {s' : Runtime W} {entry' : DocEntry}
    (h : Standing tape blocks entry.nativePtr root s') (hlive : DocLive s.registry doc slot entry)
    (hdocs : s'.registry.docs = s.registry.docs.set (slotIndex slot) (.occupied entry'))
    (hptr : entry'.nativePtr = entry.nativePtr)
    (hgeneration : entry'.generation = entry.generation) :
    Ready tape blocks root doc slot entry' s' :=
  ⟨hptr ▸ h, hlive.set_self hdocs hgeneration⟩

/-- An index that has been issued has a view. -/
theorem Ready.resolves {u : Json} {j : Nat} (h : Ready tape blocks root doc slot entry s)
    (hat : root.At j u) (hissued : j ∈ entry.descendantIndices) :
    Resolves s (elementView doc j u) slot entry j where
  state0_ne := by
    have := hat.range
    show j ≠ 0
    omega
  reserved_eq := rfl
  live := h.live
  index_eq := by
    have hrange := hat.range
    have hlt := hat.lt
    rw [← h.docOk.rootAfterIndex_eq] at hlt
    have haccepted : ¬ (j = 0 ∨ ¬ (j ≥ rootJsonIndex ∧ j < entry.rootAfterIndex) ∨
        j ∉ entry.descendantIndices) := by
      rw [rootJsonIndex]
      rintro (hzero | hout | hnot)
      · omega
      · omega
      · exact hnot hissued
    have htag : (elementView doc j u).state1 = descViewTag := rfl
    rw [viewIndex, htag, if_neg descViewTag_ne_rootViewTag, if_pos rfl, validateDescendant]
    exact if_neg haccepted

/-- Writing back the entry that is there changes nothing. -/
theorem read_eq (hlive : DocLive s.registry doc slot entry) : s.read slot entry = s := by
  rw [Runtime.read, Registry.setDoc_self hlive.docAt]

end

/-! ## Accessors -/

/-- A document that is usable. -/
def openDoc : Option Doc := some ⟨true, false⟩

@[simp] theorem usableDoc_open (view : ValueView) :
    usableDoc ⟨openDoc, view⟩ = .ok ⟨true, false⟩ := rfl

@[simp] theorem usableIteratorBindings_open :
    usableIteratorBindings openDoc = .ok ⟨true, false⟩ := rfl

section
variable {W : Type} {sj : Simdjson W} {base : Native W} {tape : W → Nat → Option Json}
  {blocks : W → Set Nat} {root u : Json} {slot : UInt32} {entry : DocEntry} {s : Runtime W}
  {view : ValueView} {j : Nat}

theorem wp_access {α : Type} {call : Option ValueView → RuntimeM W α}
    {Q : α → Runtime W → Prop} {E : Stop → Runtime W → Prop}
    (h : wp (call (some view)) Q (fun _ _ => False) s) :
    wp (access ⟨openDoc, view⟩ call) Q E s := by
  rw [access, wp_bind, usableDoc_open, wp_orReturn_ok, wp_bind, wp_binding]
  exact wp_mono h (fun _ _ => id) fun _ _ => False.elim

/-- An accessor that only reads returns what the bridge answers. -/
theorem wp_accessRead (hsj : sj.Faithful base.memory tape)
    (h : Ready tape blocks root view.doc slot entry s) (hview : Resolves s view slot entry j)
    {α : Type} {read : ElementRead α} {a : α}
    (hread : readElement sj (sj.document s.native entry.nativePtr) s.native entry.nativePtr j read =
      pure a) :
    wp (access ⟨openDoc, view⟩ (readView (bridge sj base) read))
      (fun b s' => b = a ∧ Ready tape blocks root view.doc slot entry s') (fun _ _ => False) s := by
  refine wp_access (wp_readView_exact hsj h.root_eq hview hread ⟨rfl, ?_⟩)
  rw [read_eq h.live]
  exact h

/-- A double is read as it is. -/
theorem wp_getFloat64_double (hsj : sj.Faithful base.memory tape)
    (h : Ready tape blocks root view.doc slot entry s) (hview : Resolves s view slot entry j)
    {bits : UInt64} (hat : root.At j (.double bits))
    (hhint : view.kindHint = (Json.double bits).kindCode) :
    wp (getFloat64 (bridge sj base) ⟨openDoc, view⟩)
      (fun b s' => b = bits ∧ Ready tape blocks root view.doc slot entry s') (fun _ _ => False)
      s := by
  have hint64 : ¬ (Json.double bits).kindCode = ValueKind.int64.code := by
    rw [kindCode]
    exact (by decide : ¬ ValueKind.float64.code = ValueKind.int64.code)
  have huint64 : ¬ (Json.double bits).kindCode = ValueKind.uint64.code := by
    rw [kindCode]
    exact (by decide : ¬ ValueKind.float64.code = ValueKind.uint64.code)
  have hread : readElement sj (sj.document s.native entry.nativePtr) s.native entry.nativePtr j
      .elementGetFloat64At = pure bits := by
    rw [readElement, (hsj.shows _ _ _ _ _ h.root_eq hat).2]
    rfl
  have hsame := read_eq h.live
  rw [Runtime.read] at hsame
  refine wp_access ?_
  rw [PureSimdjson.getFloat64, hhint, if_neg hint64, if_neg huint64, elementGetFloat64,
    wp_withResolvedView_of_resolves hview, wp_bind]
  refine wp_readKind hsj h.root_eq hat rfl ?_
  rw [if_neg hint64, if_neg huint64, wp_onDoc]
  refine wp_of_run_ok (bridge_read_run hsj h.root_eq hread) ⟨rfl, ?_⟩
  rw [hsame]
  exact h

/-- An element of the right kind is not refused. -/
theorem wp_asKind {kind : ValueKind} (hkind : u.kindCode = kind.code)
    (hhint : view.kindHint = u.kindCode) {Q : Element → Runtime W → Prop}
    {E : Stop → Runtime W → Prop} :
    wp (asKind kind ⟨openDoc, view⟩) Q E s ↔ Q ⟨openDoc, view⟩ s := by
  have hright : ¬ view.kindHint ≠ kind.code := not_not.mpr (hhint.trans hkind)
  rw [asKind, wp_bind, usableDoc_open, wp_orReturn_ok, if_neg hright, wp_pure]

/-! ## Strings -/

/-- **The copy of a string that is there**, in a block of its own, unless it is empty. -/
theorem wp_elementGetBytesCopy_exact (hsj : sj.Faithful base.memory tape)
    (hblocks : Allocates base blocks) (h : Ready tape blocks root view.doc slot entry s)
    (hview : Resolves s view slot entry j) {getter : ElementRead Span} {span : Span}
    {bytes : Bytes} (hholds : (base.memory s.native).Holds span bytes)
    (hread : readElement sj (sj.document s.native entry.nativePtr) s.native entry.nativePtr j
      getter = pure span.ofView) :
    wp (elementGetBytesCopy (bridge sj base) getter (some view))
      (fun block s' => s'.registry.docs = s.registry.docs ∧
        (block = (0, 0) ∧ bytes = [] ∨
          block.1 ≠ 0 ∧ sliceString (base.memory s'.native) block.1 block.2 = some bytes))
      (fun _ _ => False) s := by
  have hlength : bytes.length = span.len := by
    rw [← hholds.read]
    simp [Memory.read]
  have hbytes := hholds.read_ofView
  rw [elementGetBytesCopy, wp_bind, wp_withResolvedView_of_resolves hview, wp_bind, wp_onDoc]
  refine wp_of_run_ok (bridge_read_run hsj h.root_eq hread) ?_
  rw [wp_ite, ofView_len]
  have hdocs : (s.registry.setDoc (slotIndex slot) (.occupied entry)).docs = s.registry.docs := by
    rw [Registry.setDoc_self h.live.docAt]
  refine ⟨fun hempty => ?_, fun hlen => ?_⟩
  · exact ⟨hdocs, Or.inl ⟨rfl, List.length_eq_zero_iff.mp (hlength.trans hempty)⟩⟩
  · have hptr : span.ofView.ptr ≠ 0 := by
      rw [Span.ofView, if_neg hlen]
      exact hholds.nonnull
    have hmade := hblocks.leakBytes bytes s.native fun hnil =>
      hlen (hlength.symm.trans (List.length_eq_zero_iff.mpr hnil))
    rw [wp_bind, wp_require]
    refine ⟨fun _ => ?_, fun hn => absurd hptr hn⟩
    rw [wp_bind, wp_onDoc, wp_bind, wp_get]
    show wp (modifyGet (base.leakBytes ((base.memory s.native).read span.ofView))) _ _ s.native
    rw [hbytes, wp_modifyGet, wp_pure]
    dsimp only
    rw [wp_ite]
    refine ⟨fun hnull => absurd hnull hmade.nonnull, fun _ => ?_⟩
    rw [registerBlock, wp_bind, wp_getRegistry, wp_bind, wp_modifyRegistry, wp_ite]
    refine ⟨fun hmem => absurd (h.backed _ hmem) hmade.fresh, fun _ => ?_⟩
    refine ⟨hdocs, Or.inr ⟨hmade.nonnull, ?_⟩⟩
    have hfits : ¬ ((base.leakBytes bytes s.native).1 = 0 ∨ 2 ^ 63 ≤ span.len) := by
      rintro (hnull | hlong)
      · exact hmade.nonnull hnull
      · exact absurd hholds.sized (Nat.not_lt.mpr hlong)
    rw [sliceString, if_neg hfits, ← hlength]
    exact congrArg some hmade.holds

variable (hbase : Lifecycle base tape (fun _ => True) fun _ => False)
  (hsj : sj.Faithful base.memory tape) (hblocks : Allocates base blocks)
include hbase hsj hblocks

/-- **A string is read into a Go string**, and its block is given back. -/
theorem wp_copyElementBytes (h : Ready tape blocks root view.doc slot entry s)
    (hview : Resolves s view slot entry j) {getter : ElementRead Span} {span : Span}
    {bytes : Bytes} (hholds : (base.memory s.native).Holds span bytes)
    (hread : readElement sj (sj.document s.native entry.nativePtr) s.native entry.nativePtr j
      getter = pure span.ofView) (call : Call)
    (hexec : exec (bridge sj base) call =
      (fun b => .block b.1 b.2) <$> elementGetBytesCopy (bridge sj base) getter (some view))
    (hfree : ∀ handle, call ≠ .docFree handle) :
    wp (copyElementBytes (bridge sj base) (elementGetBytesCopy (bridge sj base) getter) view)
      (fun result s' => result = .ok bytes ∧ Ready tape blocks root view.doc slot entry s')
      (fun _ _ => False) s := by
  have hsafe := bridge_tapeSafe hbase hsj
  have hthere := allocates_bridge sj hblocks
  rw [copyElementBytes, wp_bind, wp_binding]
  refine wp_mono (h.call hsafe hthere call hexec hfree
    (wp_elementGetBytesCopy_exact hsj hblocks h hview hholds hread)) ?_ fun _ _ h => h.2.elim
  rintro ⟨ptr, len⟩ s₁ ⟨hstands, hdocs, hcopied⟩
  dsimp only
  rw [wp_ite]
  rcases hcopied with ⟨hblock, rfl⟩ | ⟨hptr, hslice⟩
  · cases hblock
    exact ⟨fun _ => ⟨rfl, hstands.ready h.live hdocs⟩, fun hn => absurd ⟨rfl, rfl⟩ hn⟩
  · refine ⟨fun hnull => absurd hnull.1 hptr, fun _ => ?_⟩
    have hcopied : sliceString ((bridge sj base).memory s₁.native) ptr len = some bytes := hslice
    have hgiven {s₂ : Runtime W}
        (hback : Standing tape blocks entry.nativePtr root s₂ ∧ SameTables s₁ s₂) :
        Ready tape blocks root view.doc slot entry s₂ :=
      hback.1.ready h.live (hback.2.2.trans hdocs)
    rw [wp_bind, wp_get, hcopied, if_pos hptr, wp_bind, wp_binding]
    -- whether the block is taken back or not, the documents stay as they are
    refine wp_mono (hstands.call hsafe hthere (.bytesFree ptr len) rfl (fun _ h => by cases h)
      (keeps_freeBlock byteLedger_apart _ ptr len s₁)) ?_ ?_
    · exact fun _ _ hback => ⟨rfl, hgiven hback⟩
    · exact fun _ _ hback => ⟨rfl, hgiven hback⟩

/-- The string of an element, or its key. -/
theorem wp_copyString (h : Ready tape blocks root view.doc slot entry s)
    (hview : Resolves s view slot entry j) {bytes : Bytes} (hat : root.At j (.string bytes)) :
    wp (copyElementBytes (bridge sj base) (elementGetString (bridge sj base)) view)
      (fun result s' => result = .ok bytes ∧ Ready tape blocks root view.doc slot entry s')
      (fun _ _ => False) s := by
  obtain ⟨-, span, hget, hholds⟩ := hsj.shows _ _ _ _ _ h.root_eq hat
  refine wp_copyElementBytes hbase hsj hblocks h hview hholds ?_ (.elementGetString (some view)) rfl
    fun _ h => by cases h
  rw [readElement, hget]
  rfl

/-- The digits of a big integer. -/
theorem wp_copyBigInt (h : Ready tape blocks root view.doc slot entry s)
    (hview : Resolves s view slot entry j) {digits : Bytes} (hat : root.At j (.bigint digits)) :
    wp (copyElementBytes (bridge sj base) (elementGetBigintCopy (bridge sj base)) view)
      (fun result s' => result = .ok digits ∧ Ready tape blocks root view.doc slot entry s')
      (fun _ _ => False) s := by
  obtain ⟨-, span, hget, hholds⟩ := hsj.shows _ _ _ _ _ h.root_eq hat
  refine wp_copyElementBytes hbase hsj hblocks h hview hholds ?_ (.elementGetBigint (some view)) rfl
    fun _ h => by cases h
  rw [readElement, hget]
  rfl

omit hbase hsj hblocks in
/-- A status that is `OK` is no error. -/
theorem wp_copied {getter : Option ValueView → RuntimeM W (Nat × Nat)} {bytes : Bytes}
    (hcopy : wp (copyElementBytes (bridge sj base) getter view)
      (fun result s' => result = .ok bytes ∧ Ready tape blocks root view.doc slot entry s')
      (fun _ _ => False) s) :
    wp (do
        let _ ← orReturn (usableDoc ⟨openDoc, view⟩)
        wrapStatus (← copyElementBytes (bridge sj base) getter view))
      (fun copied s' => copied = bytes ∧ Ready tape blocks root view.doc slot entry s')
      (fun _ _ => False) s := by
  rw [wp_bind, usableDoc_open, wp_orReturn_ok, wp_bind]
  refine wp_mono hcopy ?_ fun _ _ => id
  rintro result s' ⟨rfl, hready⟩
  exact ⟨rfl, hready⟩

end

end PureSimdjson.Elements
