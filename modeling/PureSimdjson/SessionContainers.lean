import PureSimdjson.SessionLookups

/-!
# What the containers of an open document answer

The number of children, and everything that a wildcard finds: its views come as an array in a
block of their own, which the caller copies and gives back.
-/
namespace PureSimdjson.Elements

open Effect Json Runs

section
variable {W : Type} {sj : Simdjson W} {base : Native W} {tape : W → Nat → Option Json}
  {root u : Json} {slot : UInt32} {entry : DocEntry} {s : Runtime W} {view : ValueView} {j : Nat}
  {values : Dom Json}

/-! ## Counts -/

/-- A container of the right kind is not refused. -/
theorem wp_usableContainer {kind : ValueKind} (hkind : u.kindCode = kind.code)
    (hhint : view.kindHint = u.kindCode) {Q : Doc → Runtime W → Prop}
    {E : Stop → Runtime W → Prop} :
    wp (usableContainer kind ⟨openDoc, view⟩) Q E s ↔ Q ⟨true, false⟩ s := by
  have hright : ¬ view.kindHint ≠ kind.code := not_not.mpr (hhint.trans hkind)
  rw [usableContainer, wp_bind, usableDoc_open, wp_orReturn_ok, if_neg hright, wp_pure]

variable (hsj : sj.Faithful base.memory tape)
  (h : Open sj base tape root view.doc slot s entry) (hn : Names root view.doc entry view u j)
include hsj h hn

/-- The count that a container keeps. -/
theorem tells_countErr (kind : ValueKind) (hkind : u.kindCode = kind.code) (read : ElementRead Nat)
    {count : Nat} (hread : readElement sj (sj.document s.native entry.nativePtr) s.native
      entry.nativePtr j read = pure count) {call : Option ValueView → RuntimeM W Nat}
    (hcall : call (some view) = withResolvedView (some view) fun jsonIndex _ => do
      requireKind (bridge sj base) kind jsonIndex
      onDoc ((bridge sj base).read read · jsonIndex)) :
    Tells (countErr kind call ⟨openDoc, view⟩) (.ok (UInt64.ofNat count).toInt64) s := by
  rw [Tells, countErr, wp_bind, wp_usableContainer hkind hn.kindHint_eq, wp_bind, wp_binding, hcall,
    wp_withResolvedView_of_resolves (hn.resolves h.live), wp_bind]
  refine wp_requireKind_of_kind hsj h.root_eq hn.at_eq rfl hkind ?_
  rw [wp_onDoc]
  exact wp_of_run_ok (bridge_read_run hsj h.root_eq hread) rfl

variable (hvalues : sj.ByValue tape values)
include hvalues

theorem tells_lenErr {items : List Json} (hu : u = .array items) :
    Tells (lenErr (bridge sj base) ⟨openDoc, view⟩) (.ok (countOf items)) s := by
  have hmirrors := hvalues _ _ _ _ _ h.root_eq hn.at_eq
  subst hu
  obtain ⟨-, children, hchildren, -⟩ := hsj.shows _ _ _ _ _ h.root_eq hn.at_eq
  refine tells_countErr hsj h hn .array rfl .arraySize ?_ rfl
  rw [readElement, hchildren, hmirrors.arraySize items rfl]
  rfl

theorem tells_sizeErr {fields : List (Bytes × Json)} (hu : u = .object fields) :
    Tells (sizeErr (bridge sj base) ⟨openDoc, view⟩) (.ok (countOf fields)) s := by
  have hmirrors := hvalues _ _ _ _ _ h.root_eq hn.at_eq
  subst hu
  obtain ⟨-, children, hchildren, -⟩ := hsj.shows _ _ _ _ _ h.root_eq hn.at_eq
  refine tells_countErr hsj h hn .object rfl .objectSize ?_ rfl
  rw [readElement, hchildren, hmirrors.objectSize fields rfl]
  rfl

end

/-! ## Arrays of views -/

section
variable {W : Type} {sj : Simdjson W} {base : Native W} {tape : W → Nat → Option Json}
  {blocks arrays : W → Set Nat} {root u : Json} {slot : UInt32} {entry : DocEntry} {s : Runtime W}
  {view : ValueView} {j : Nat} {values : Dom Json}

theorem kindCode_lt (u : Json) : u.kindCode < 2 ^ 32 := by
  rw [kindCode]
  cases mapElementType u.elementType <;> simp [ValueKind.code]

/-- The view of an element of a document that fits on a tape. -/
theorem fits_elementView {doc : UInt64} {k : Nat} {v : Json} (hat : root.At k v)
    (hroot : 1 + root.width < 2 ^ 64) : (elementView doc k v).Fits where
  state0 := hat.lt.trans hroot
  state1 := (by decide : descViewTag < 2 ^ 64)
  kindHint := kindCode_lt v
  reserved := (by decide : 0 < 2 ^ 32)

/-- **Every element that is there gets its view.** -/
theorem wp_encodeElements (hsj : sj.Faithful base.memory tape) {w : W} {handle : UInt64}
    {indices : List Nat} {vs : List Json} (hat : List.Forall₂ root.At indices vs) :
    ∀ {entry : DocEntry}, tape w entry.nativePtr = some root → DocOk root entry →
      wp (indices.mapM (encodeDescendantView (bridge sj base) handle))
        (fun views e => views = List.zipWith (elementView handle) indices vs ∧
          e = ({ entry with
            descendantIndices := indices.toFinset ∪ entry.descendantIndices }, w))
        (fun _ _ => False) (entry, w) := by
  induction hat with
  | nil =>
    intro entry _ _
    exact ⟨rfl, by simp⟩
  | @cons k v indices vs hk _ ih =>
    intro entry hroot hok
    rw [List.mapM_cons, wp_bind]
    refine wp_encodeElement hsj hroot hk rfl hok ?_
    rw [wp_bind]
    refine wp_mono (ih hroot (hok.insert hk)) ?_ fun _ _ => id
    rintro views e ⟨rfl, rfl⟩
    refine ⟨rfl, ?_⟩
    rw [List.toFinset_cons, Finset.union_insert, Finset.insert_union]

/-- Indices that have been issued have views. -/
theorem Ready.are {doc : UInt64} (h : Ready tape blocks root doc slot entry s)
    {indices : List Nat} {vs : List Json} (hat : List.Forall₂ root.At indices vs)
    (hissued : ∀ k ∈ indices, k ∈ entry.descendantIndices) :
    List.Forall₂ (Element.Is root doc (some entry))
      ((List.zipWith (elementView doc) indices vs).map fun view => ⟨openDoc, view⟩)
      (vs.map some) := by
  induction hat with
  | nil => exact .nil
  | @cons k v indices vs hk _ ih =>
    refine .cons ⟨rfl, fun e he => ?_⟩ (ih fun k' hk' => hissued k' (List.mem_cons_of_mem _ hk'))
    cases he
    exact ⟨k, h.names hk (hissued k List.mem_cons_self)⟩

/-- The elements that a wildcard finds, with their values. -/
structure Found (values : Dom Json) (validateUtf8 : Bytes → Bool) (root u : Json) (path : Bytes)
    (indices : List Nat) (vs : List Json) : Prop where
  finds : valuesAtPathAll values validateUtf8 u path = .ok vs
  at_eq : List.Forall₂ root.At indices vs

/-- **A wildcard finds what it finds from the value.** -/
theorem wp_wildcardIndices (hsj : sj.Faithful base.memory tape) (hvalues : sj.ByValue tape values)
    (hfinite : sj.Allocatable tape) {w : W} {ptr : Nat} (hroot : tape w ptr = some root)
    (hat : root.At j u) (path : Bytes) :
    wp ((bridge sj base).read (.elementAtPathWildcardIndices path) ptr j)
      (fun indices w' => w' = w ∧ viewSize * indices.length < 2 ^ 63 ∧
        ∃ vs, Found values sj.validateUtf8 root u path indices vs)
      (fun rc _ => valuesAtPathAll values sj.validateUtf8 u path = .error (.status rc)) w := by
  rw [wp_bridge hsj hroot, readElement]
  cases hclassify : classifyWildcardPath sj.validateUtf8 path with
  | none =>
    rw [wp_throw, valuesAtPathAll, hclassify]
  | some segments =>
    dsimp only
    have hfound := agree_traverseWildcardPath hvalues hroot hat segments
    rw [wp_ofExcept]
    refine ⟨fun indices hindices => ?_, fun rc hrc => ?_⟩
    · obtain ⟨indices', vs, hindices', hvs, hats⟩ | ⟨rc, hrc, -⟩ := hfound.outcomes
      · obtain rfl : indices' = indices := Except.ok.inj (hindices'.symm.trans hindices)
        refine ⟨rfl, hfinite _ _ _ _ _ _ hroot hindices, vs, ?_, hats⟩
        rw [valuesAtPathAll, hclassify]
        dsimp only
        rw [hvs]
        rfl
      · cases hrc.symm.trans hindices
    · obtain ⟨indices, vs, hindices, -, -⟩ | ⟨rc', hrc', hvs⟩ := hfound.outcomes
      · cases hindices.symm.trans hrc
      · obtain rfl : rc' = rc := Except.error.inj (hrc'.symm.trans hrc)
        rw [valuesAtPathAll, hclassify]
        dsimp only
        rw [hvs]
        rfl

variable (hbase : Lifecycle base tape (fun _ => True) fun _ => False)
  (hsj : sj.Faithful base.memory tape) (hvalues : sj.ByValue tape values)
  (hfinite : sj.Allocatable tape) (hblocks : Allocates base blocks)
  (harrays : AllocatesViews base arrays) (h : Open sj base tape root view.doc slot s entry)
  (hn : Names root view.doc entry view u j)
include hbase hsj hvalues hfinite hblocks harrays h hn

/-- The array of the views of what a wildcard finds. -/
theorem wp_libraryAtPathWildcard (path : Bytes) :
    wp (PureSimdjson.elementAtPathWildcard (bridge sj base) (some view) path)
      (fun block s' => ∃ indices vs, Found values sj.validateUtf8 root u path indices vs ∧
        s'.registry.docs = s.registry.docs.set (slotIndex slot) (.occupied { entry with
          descendantIndices := indices.toFinset ∪ entry.descendantIndices }) ∧
        (block = (0, 0) ∧ vs = [] ∨ block.1 ≠ 0 ∧ block.2 ≠ 0 ∧
          sliceViews (base.memory s'.native) block.1 block.2 =
            some (List.zipWith (elementView view.doc) indices vs)))
      (fun rc _ => valuesAtPathAll values sj.validateUtf8 u path = .error (.status rc)) s := by
  have hbacked := (allocatesViews_bridge sj harrays).backed h.reachable
  rw [PureSimdjson.elementAtPathWildcard, wp_bind,
    wp_withResolvedView_of_resolves (hn.resolves h.live), wp_bind, wp_onDoc]
  refine wp_mono (wp_wildcardIndices hsj hvalues hfinite h.root_eq hn.at_eq path) ?_ fun _ _ => id
  rintro indices w ⟨rfl, hsize, vs, hfound⟩
  refine wp_mono (wp_encodeElements hsj hfound.at_eq h.root_eq (h.ready hbase hsj hblocks).docOk) ?_
    fun _ _ => False.elim
  rintro views e ⟨rfl, rfl⟩
  have hlength := hfound.at_eq.length_eq
  rw [wp_ite]
  refine ⟨fun hempty => ?_, fun hsome => ?_⟩
  · have hnil : vs = [] := by
      cases vs with
      | nil => rfl
      | cons v vs =>
        cases indices with
        | nil => cases hlength
        | cons k indices => cases hempty
    exact ⟨indices, vs, hfound, rfl, Or.inl ⟨rfl, hnil⟩⟩
  · have hne : List.zipWith (elementView view.doc) indices vs ≠ [] := by
      intro hnil
      rw [hnil] at hsome
      exact hsome rfl
    have hmade := harrays.leakViews _ s.native hne
    have hfresh : (base.leakViews (List.zipWith (elementView view.doc) indices vs) s.native).1 ∉
        s.registry.viewArrayAllocations := fun hmem => hmade.fresh (hbacked _ hmem)
    rw [wp_bind, wp_callNative, wp_modifyGet, registerBlock, wp_bind, wp_getRegistry, wp_bind,
      wp_modifyRegistry, wp_ite]
    refine ⟨fun hmem => absurd hmem hfresh, fun _ => ?_⟩
    refine ⟨indices, vs, hfound, rfl, Or.inr ⟨hmade.nonnull, ?_, ?_⟩⟩
    · exact fun hzero => hne (List.length_eq_zero_iff.mp hzero)
    · refine sliceViews_eq hmade.nonnull ?_ ?_ hmade.holds
      · rw [List.length_zipWith, ← hlength, Nat.min_self]
        exact hsize
      · intro found hmem
        rw [← List.map_uncurry_zip_eq_zipWith] at hmem
        obtain ⟨⟨k, v⟩, hpair, rfl⟩ := List.mem_map.mp hmem
        have hat := (List.forall₂_iff_zip.mp hfound.at_eq).2 hpair
        exact fits_elementView hat (hsj.fits _ _ _ h.root_eq)

/-- **`AtPathAll` finds what the path finds from the value**, as views that stand for it. -/
theorem ends_atPathAll (path : Bytes) :
    Ends sj base tape root view.doc slot (atPathAll (bridge sj base) ⟨openDoc, view⟩ path)
      (valuesAtPathAll values sj.validateUtf8 u path)
      (fun e found vs => List.Forall₂ (Element.Is root view.doc (some e)) found (vs.map some))
      s := by
  rw [Ends, atPathAll, wp_bind, usableDoc_open, wp_orReturn_ok, wp_bind, elementAtPathWildcard,
    wp_bind, wp_binding]
  refine wp_mono
    (wp_libraryAtPathWildcard hbase hsj hvalues hfinite hblocks harrays h hn path) ?_ ?_
  · rintro ⟨ptr, count⟩ s₁ ⟨indices, vs, hfound, hdocs, hblock⟩
    have hare {s₂ : Runtime W} (hsame : s₂.registry.docs = s₁.registry.docs) {entry' : DocEntry}
        (hopen : Open sj base tape root view.doc slot s₂ entry') :
        List.Forall₂ (Element.Is root view.doc (some entry'))
          ((List.zipWith (elementView view.doc) indices vs).map fun view => ⟨openDoc, view⟩)
          (vs.map some) := by
      obtain rfl := hopen.live.unique (h.live.set_self (hsame.trans hdocs) rfl)
      refine (hopen.ready hbase hsj hblocks).are hfound.at_eq fun k hk => ?_
      exact Finset.mem_union_left _ (List.mem_toFinset.mpr hk)
    dsimp only
    rcases hblock with ⟨hnone, rfl⟩ | ⟨hptr, hcount, hslice⟩
    · cases hnone
      rw [List.zipWith_nil_right] at hare
      exact fun entry' hopen => ⟨[], hfound.finds, hare rfl hopen⟩
    · have hcopied : sliceViews ((bridge sj base).memory s₁.native) ptr count =
        some (List.zipWith (elementView view.doc) indices vs) := hslice
      rw [if_neg hptr, if_neg hcount, wp_bind, wp_get, hcopied]
      dsimp only
      rw [wp_bind, wp_binding]
      -- whether the array is taken back or not, the documents stay as they are
      refine wp_mono (keeps_freeBlock viewLedger_apart _ ptr count s₁) ?_ ?_
      · exact fun _ _ hsame _ hopen => ⟨vs, hfound.finds, hare hsame.2 hopen⟩
      · exact fun _ _ hsame _ hopen => ⟨vs, hfound.finds, hare hsame.2 hopen⟩
  · intro rc s₁ hrc
    exact ⟨_, rfl, hrc⟩

end

end PureSimdjson.Elements
