import PureSimdjson.OpenDocuments
import PureSimdjson.ValueLookups

/-!
# What the calls on an open document answer

Every call of an element, an array or an object of an open document ends as the value of the
element says: the accessors with the value or the reason it is not of the kind asked for, the
lookups with a view of what the lookup finds from the value, the copies with the bytes.
-/
namespace PureSimdjson.Elements

open Effect Json Runs

/-! ## Views -/

/-- The view stands for the value, at index `j` of the document with this entry. -/
structure Names (root : Json) (doc : UInt64) (entry : DocEntry) (view : ValueView) (u : Json)
    (j : Nat) : Prop where
  doc_eq : view.doc = doc
  kindHint_eq : view.kindHint = u.kindCode
  state0_ne : view.state0 ≠ 0
  reserved_eq : view.reserved = 0
  at_eq : root.At j u
  index_eq : viewIndex view entry = .ok j

section
variable {W : Type} {sj : Simdjson W} {base : Native W} {tape : W → Nat → Option Json}
  {blocks : W → Set Nat} {root u : Json} {doc : UInt64} {slot : UInt32} {entry entry' : DocEntry}
  {s s' : Runtime W} {view : ValueView} {j : Nat} {kept : Set UInt32}

theorem Names.follows (h : Names root doc entry view u j) (hfollows : Follows kept entry entry') :
    Names root doc entry' view u j :=
  { h with index_eq := hfollows.viewIndex h.index_eq }

theorem Names.resolves (h : Names root view.doc entry view u j)
    (hlive : DocLive s.registry view.doc slot entry) : Resolves s view slot entry j :=
  ⟨h.state0_ne, h.reserved_eq, hlive, h.index_eq⟩

/-- The view that a call has made. -/
theorem Ready.names {k : Nat} {v : Json} (h : Ready tape blocks root doc slot entry s)
    (hat : root.At k v) (hissued : k ∈ entry.descendantIndices) :
    Names root doc entry (elementView doc k v) v k :=
  ⟨rfl, rfl, (h.resolves hat hissued).state0_ne, rfl, hat, (h.resolves hat hissued).index_eq⟩

/-! ## Reads -/

theorem wp_getOrReturn {σ α : Type} {Q : α → σ → Prop} {E : ErrorCode → σ → Prop} {t : σ}
    (x : Except SimdjsonError α) :
    wp (getOrReturn x) Q E t ↔
      (∀ a, x = .ok a → Q a t) ∧ ∀ error, x = .error error → E (mapError error) t := by
  cases x <;> simp [getOrReturn]

/-- A read of a document that is there. -/
theorem wp_bridge (hsj : sj.Faithful base.memory tape) {w : W} {ptr : Nat}
    (hroot : tape w ptr = some root) {α : Type} {read : ElementRead α} {Q : α → W → Prop}
    {E : ErrorCode → W → Prop} :
    wp ((bridge sj base).read read ptr j) Q E w ↔
      wp (readElement sj (sj.document w ptr) w ptr j read) Q E w := by
  have hptr : ptr ≠ 0 := by
    rintro rfl
    rw [hsj.nonnull] at hroot
    cases hroot
  show wp (bridgeRead sj read ptr j) Q E w ↔ _
  rw [bridgeRead, if_neg hptr, wp_bind, wp_get]

/-- A read of the bridge ends as simdjson's does, and changes nothing. -/
theorem wp_bridgeRead (hsj : sj.Faithful base.memory tape) {w : W} {ptr : Nat}
    (hroot : tape w ptr = some root) {α : Type} {read : ElementRead α}
    {x : Except SimdjsonError α} (hread : readElement sj (sj.document w ptr) w ptr j read =
      getOrReturn x) {Q : α → W → Prop} {E : ErrorCode → W → Prop} :
    wp ((bridge sj base).read read ptr j) Q E w ↔ wp (getOrReturn x) Q E w := by
  rw [wp_bridge hsj hroot, hread]

variable (hsj : sj.Faithful base.memory tape)
  (h : Open sj base tape root view.doc slot s entry)
include hsj h

theorem wp_readView (hn : Names root view.doc entry view u j) {α : Type} {read : ElementRead α}
    {x : Except SimdjsonError α}
    (hread : readElement sj (sj.document s.native entry.nativePtr) s.native entry.nativePtr j read =
      getOrReturn x) {Q : α → Runtime W → Prop} {E : ErrorCode → Runtime W → Prop} :
    wp (readView (bridge sj base) read (some view)) Q E s ↔ wp (getOrReturn x) Q E s := by
  have hsame : (⟨s.registry.setDoc (slotIndex slot) (.occupied entry), s.native⟩ : Runtime W) = s :=
    read_eq h.live
  rw [readView, wp_withResolvedView_of_resolves (hn.resolves h.live), wp_onDoc,
    wp_bridgeRead hsj h.root_eq hread, wp_getOrReturn, wp_getOrReturn]
  simp only [hsame]

/-! ## Accessors -/

/-- The call ends as it should. -/
def Tells {α : Type} (call : GoM W α) (r : Except AccessError α) (s : Runtime W) : Prop :=
  wp call (fun a _ => r = .ok a) (fun stop _ => ∃ err, stop = .error err ∧ r = .error err) s

omit hsj h in
theorem Tells.map {α β : Type} {call : GoM W α} {r : Except AccessError α} (ht : Tells call r s)
    (f : α → β) : Tells (f <$> call) (r.map f) s := by
  rw [Tells, wp_map]
  refine wp_mono ht ?_ ?_
  · rintro a - rfl
    rfl
  · rintro stop - ⟨err, rfl, rfl⟩
    exact ⟨err, rfl, rfl⟩

omit hsj h in
/-- An error that is not looked at. -/
theorem Tells.orElse {α : Type} {call : GoM W α} {r : Except AccessError α} (ht : Tells call r s)
    (a : α) : Tells (orElse a call) (.ok (orDefault a r)) s := by
  rw [Tells, Elements.orElse, wp_tryCatch]
  refine wp_mono ht ?_ ?_
  · rintro b - rfl
    rfl
  · rintro stop - ⟨err, rfl, rfl⟩
    exact rfl

omit hsj h in
theorem wp_access_open {α : Type} {call : Option ValueView → RuntimeM W α}
    {Q : α → Runtime W → Prop} {E : Stop → Runtime W → Prop} :
    wp (access ⟨openDoc, view⟩ call) Q E s ↔
      wp (call (some view)) Q (fun rc => E (.error (.status rc))) s := by
  rw [access, wp_bind, usableDoc_open, wp_orReturn_ok, wp_bind, wp_binding]
  exact Iff.rfl

/-- An accessor that only reads. -/
theorem tells_access (hn : Names root view.doc entry view u j) {α : Type} {read : ElementRead α}
    {x : Except SimdjsonError α}
    (hread : readElement sj (sj.document s.native entry.nativePtr) s.native entry.nativePtr j read =
      getOrReturn x) :
    Tells (access ⟨openDoc, view⟩ (readView (bridge sj base) read)) (orStatus x) s := by
  rw [Tells, wp_access_open, wp_readView hsj h hn hread, wp_getOrReturn]
  refine ⟨?_, ?_⟩
  · rintro a rfl
    rfl
  · rintro error rfl
    exact ⟨_, rfl, rfl⟩

variable {values : Dom Json} (hvalues : sj.ByValue tape values)

theorem tells_typeErr (hn : Names root view.doc entry view u j) :
    Tells (typeErr (bridge sj base) ⟨openDoc, view⟩) (.ok (mapElementType u.elementType)) s := by
  have hread : readElement sj (sj.document s.native entry.nativePtr) s.native entry.nativePtr j
      .elementTypeAt = getOrReturn (.ok (mapElementType u.elementType).code) := by
    rw [readElement, (hsj.shows _ _ _ _ _ h.root_eq hn.at_eq).type]
    rfl
  have ht := (tells_access hsj h hn hread).map valueKind
  rwa [orStatus, Except.map, valueKind_code] at ht

include hvalues

theorem tells_isNullErr (hn : Names root view.doc entry view u j) :
    Tells (isNullErr (bridge sj base) ⟨openDoc, view⟩) (.ok u.isNull) s := by
  refine tells_access hsj h hn (x := .ok u.isNull) ?_
  rw [readElement, (hvalues _ _ _ _ _ h.root_eq hn.at_eq).isNull]
  rfl

/-- An integer, or whatever else there is. -/
theorem tells_getFloat64 (hn : Names root view.doc entry view u j) :
    Tells (getFloat64 (bridge sj base) ⟨openDoc, view⟩) (u.asFloat64.mapError .status) s := by
  have hview := hn.resolves h.live
  rw [Tells, getFloat64, wp_access_open]
  cases hint : u.integer? with
  | some value =>
    have hreads := readsInteger_getFloat64 hsj h.root_eq hview hn.at_eq hint (Or.inl hn.kindHint_eq)
    refine wp_mono hreads ?_ ?_
    · rintro bits - ⟨⟨hexact, rfl⟩, -⟩
      cases u with
      | int64 n =>
        cases hint
        rw [Json.asFloat64, if_pos ((exactFloat64Int64_iff n).mpr hexact), bits_of_int64]
        rfl
      | uint64 n =>
        cases hint
        rw [Json.asFloat64, if_pos ((exactFloat64Uint64_iff n).mpr hexact), bits_of_uint64]
        rfl
      | _ => cases hint
    · rintro rc - ⟨⟨hinexact, rfl⟩, -⟩
      refine ⟨_, rfl, ?_⟩
      cases u with
      | int64 n =>
        cases hint
        rw [Json.asFloat64, if_neg fun htest => hinexact ((exactFloat64Int64_iff n).mp htest)]
        rfl
      | uint64 n =>
        cases hint
        rw [Json.asFloat64, if_neg fun htest => hinexact ((exactFloat64Uint64_iff n).mp htest)]
        rfl
      | _ => cases hint
  | none =>
    have hkinds : u.kindCode ≠ ValueKind.int64.code ∧ u.kindCode ≠ ValueKind.uint64.code ∧
        u.asFloat64.mapError AccessError.status = orStatus u.asDouble := by
      cases u with
      | int64 n => cases hint
      | uint64 n => cases hint
      | _ =>
        refine ⟨?_, ?_, rfl⟩
        · simp [kindCode, Json.elementType, mapElementType, ValueKind.code]
        · simp [kindCode, Json.elementType, mapElementType, ValueKind.code]
    have hread : readElement sj (sj.document s.native entry.nativePtr) s.native entry.nativePtr j
        .elementGetFloat64At = getOrReturn u.asDouble := by
      rw [readElement, (hvalues _ _ _ _ _ h.root_eq hn.at_eq).getDouble hint]
    rw [PureSimdjson.getFloat64, hn.kindHint_eq, if_neg hkinds.1, if_neg hkinds.2.1,
      elementGetFloat64, wp_withResolvedView_of_resolves hview, wp_bind]
    refine wp_readKind hsj h.root_eq hn.at_eq rfl ?_
    rw [if_neg hkinds.1, if_neg hkinds.2.1, wp_onDoc, wp_bridgeRead hsj h.root_eq hread,
      wp_getOrReturn, hkinds.2.2]
    refine ⟨?_, ?_⟩
    · intro a ha
      rw [ha]
      rfl
    · intro error herror
      rw [herror]
      exact ⟨_, rfl, rfl⟩

end

/-! ## Copies -/

section
variable {W : Type} {sj : Simdjson W} {base : Native W} {tape : W → Nat → Option Json}
  {blocks : W → Set Nat} {root u : Json} {slot : UInt32} {entry : DocEntry} {s : Runtime W}
  {view : ValueView} {j : Nat} {values : Dom Json}

/-- An element of another kind is not copied. -/
theorem wp_copyElementBytes_refused (hsj : sj.Faithful base.memory tape)
    (h : Open sj base tape root view.doc slot s entry)
    (hn : Names root view.doc entry view u j) {getter : ElementRead Span} (error : SimdjsonError)
    (hread : readElement sj (sj.document s.native entry.nativePtr) s.native entry.nativePtr j
      getter = getOrReturn (.error error)) :
    wp (copyElementBytes (bridge sj base) (elementGetBytesCopy (bridge sj base) getter) view)
      (fun result _ => result = .error (mapError error)) (fun _ _ => False) s := by
  rw [copyElementBytes, wp_bind, wp_binding, elementGetBytesCopy, wp_bind,
    wp_withResolvedView_of_resolves (hn.resolves h.live), wp_bind, wp_onDoc,
    wp_bridgeRead hsj h.root_eq hread]
  exact rfl

variable (hbase : Lifecycle base tape (fun _ => True) fun _ => False)
  (hsj : sj.Faithful base.memory tape) (hblocks : Allocates base blocks)
  (hvalues : sj.ByValue tape values) (h : Open sj base tape root view.doc slot s entry)
  (hn : Names root view.doc entry view u j)
include hbase hsj hblocks hvalues h hn

theorem wp_copyString_any :
    wp (copyElementBytes (bridge sj base) (elementGetString (bridge sj base)) view)
      (fun result _ => orStatus u.asString = result.mapError .status) (fun _ _ => False) s := by
  cases hstring : u.asString with
  | ok bytes =>
    have hat : root.At j (.string bytes) := by
      cases u <;> cases hstring
      exact hn.at_eq
    refine wp_mono (wp_copyString hbase hsj hblocks (h.ready hbase hsj hblocks)
      (hn.resolves h.live) hat) ?_ fun _ _ => id
    rintro result - ⟨rfl, -⟩
    rfl
  | error error =>
    refine wp_mono (wp_copyElementBytes_refused hsj h hn error ?_) ?_ fun _ _ => id
    · rw [readElement, (hvalues _ _ _ _ _ h.root_eq hn.at_eq).getString _ hstring]
      rfl
    · rintro result - rfl
      rfl

theorem wp_copyBigInt_any :
    wp (copyElementBytes (bridge sj base) (elementGetBigintCopy (bridge sj base)) view)
      (fun result _ => orStatus u.asBigint = result.mapError .status) (fun _ _ => False) s := by
  cases hdigits : u.asBigint with
  | ok digits =>
    have hat : root.At j (.bigint digits) := by
      cases u <;> cases hdigits
      exact hn.at_eq
    refine wp_mono (wp_copyBigInt hbase hsj hblocks (h.ready hbase hsj hblocks)
      (hn.resolves h.live) hat) ?_ fun _ _ => id
    rintro result - ⟨rfl, -⟩
    rfl
  | error error =>
    refine wp_mono (wp_copyElementBytes_refused hsj h hn error ?_) ?_ fun _ _ => id
    · rw [readElement, (hvalues _ _ _ _ _ h.root_eq hn.at_eq).getBigint _ hdigits]
      rfl
    · rintro result - rfl
      rfl

omit hbase hsj hblocks hvalues h hn in
/-- A copy, and the status as an error. -/
theorem tells_copied {copy : GoM W (Except ErrorCode Bytes)} {r : Except AccessError Bytes}
    (hcopy : wp copy (fun result _ => r = result.mapError .status) (fun _ _ => False) s) :
    Tells (do
      let _ ← orReturn (usableDoc ⟨openDoc, view⟩)
      wrapStatus (← copy)) r s := by
  rw [Tells, wp_bind, usableDoc_open, wp_orReturn_ok, wp_bind]
  refine wp_mono hcopy ?_ fun _ _ => False.elim
  rintro (rc | bytes) s' rfl
  · exact ⟨_, rfl, rfl⟩
  · exact rfl

/-- **Every accessor of an element of an open document ends as its value says.** -/
theorem tells_getter {p : Plain} (hopen : p.closed = false) (getter : Getter) :
    Tells (getterCall (bridge sj base) ⟨openDoc, view⟩ getter) (p.get (some u) getter) s := by
  have hvalue : p.value (some u) = .ok u := by
    rw [Plain.value, Plain.open?, hopen]
    rfl
  have hmirrors := hvalues _ _ _ _ _ h.root_eq hn.at_eq
  have hread {α : Type} {x : Except SimdjsonError α} {read : ElementRead α}
      (hx : readElement sj (sj.document s.native entry.nativePtr) s.native entry.nativePtr j read =
        getOrReturn x) (f : α → Answer) :
      Tells (f <$> access ⟨openDoc, view⟩ (readView (bridge sj base) read))
        ((orStatus x).map f) s := (tells_access hsj h hn hx).map f
  cases getter with
  | typeErr =>
    simp only [Plain.get, hvalue]
    exact (tells_typeErr hsj h hn).map _
  | type =>
    simp only [Plain.get, hvalue]
    exact ((tells_typeErr hsj h hn).orElse _).map _
  | isNullErr =>
    simp only [Plain.get, hvalue]
    exact (tells_isNullErr hsj h hvalues hn).map _
  | isNull =>
    simp only [Plain.get, hvalue]
    exact ((tells_isNullErr hsj h hvalues hn).orElse _).map _
  | bool =>
    simp only [Plain.get, hvalue]
    exact hread (by rw [readElement, hmirrors.getBool]) _
  | int64 =>
    simp only [Plain.get, hvalue]
    exact hread (by rw [readElement, hmirrors.getInt64]) _
  | uint64 =>
    simp only [Plain.get, hvalue]
    exact hread (by rw [readElement, hmirrors.getUint64]) _
  | float64 =>
    simp only [Plain.get, hvalue]
    exact (tells_getFloat64 hsj h hvalues hn).map _
  | string =>
    simp only [Plain.get, hvalue]
    exact (tells_copied (wp_copyString_any hbase hsj hblocks hvalues h hn)).map _
  | bigInt =>
    simp only [Plain.get, hvalue]
    exact (tells_copied (wp_copyBigInt_any hbase hsj hblocks hvalues h hn)).map _

end

end PureSimdjson.Elements
