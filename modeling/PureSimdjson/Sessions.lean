import PureSimdjson.Replies
import PureSimdjson.SessionStates

/-!
# A session on a document

A caller makes any calls of the package on one document, while other callers make any calls of
the library on anything, among them the same document's.  As long as the others neither free the
document nor use the caller's iterators, the caller's answers are those of the plain machine, from
the first call to the last: what an element is worth, what a lookup finds, what an iterator
returns next depends on the value alone, and on whether the caller has closed the document.
-/
namespace PureSimdjson.Elements

open Effect Json Runs

/-! ## Calls that are refused -/

section
variable {W : Type} {s : Runtime W} {α β : Type} {err : AccessError}

theorem Stays.bind {call : GoM W α} (h : Stays call (.error err) s) (f : α → GoM W β) :
    Stays (call >>= f) (.error err) s := by
  rw [Stays, wp_bind]
  refine wp_mono h (fun _ _ hok => by cases hok.2) fun stop s' hstop => ?_
  obtain ⟨rfl, err', rfl, herr⟩ := hstop
  cases herr
  exact ⟨rfl, err, rfl, rfl⟩

theorem Stays.map {call : GoM W α} {r : Except AccessError α} (h : Stays call r s) (f : α → β) :
    Stays (f <$> call) (r.map f) s := by
  rw [Stays, wp_map]
  refine wp_mono h ?_ ?_
  · rintro a s' ⟨rfl, rfl⟩
    exact ⟨rfl, rfl⟩
  · rintro stop s' ⟨rfl, err, rfl, rfl⟩
    exact ⟨rfl, err, rfl, rfl⟩

theorem Stays.orElse {call : GoM W α} (h : Stays call (.error err) s) (a : α) :
    Stays (orElse a call) (.ok a) s := by
  rw [Stays, Elements.orElse, wp_tryCatch]
  refine wp_mono h (fun _ _ hok => by cases hok.2) ?_
  rintro stop s' ⟨rfl, err', rfl, -⟩
  exact ⟨rfl, rfl⟩

theorem stays_orReturn (x : Except AccessError α) : Stays (orReturn x : GoM W α) x s := by
  cases x with
  | ok a => exact ⟨rfl, rfl⟩
  | error err => exact ⟨rfl, err, rfl, rfl⟩

variable {element : Element} (h : usableDoc element = .error err)
include h

/-- A call starts with the check that the document is usable. -/
theorem stays_unusable (f : Doc → GoM W α) :
    Stays (do f (← orReturn (usableDoc element))) (.error err) s := by
  rw [h]
  exact (stays_orReturn _).bind f

theorem stays_getterCall (native : Native W) {p : Plain} {x : Option Json}
    (hvalue : p.value x = .error err) (getter : Getter) :
    Stays (getterCall native element getter) (p.get x getter) s := by
  have haccess {α : Type} (call : Option ValueView → RuntimeM W α) :
      Stays (access element call) (.error err) s := stays_unusable h _
  cases getter with
  | typeErr =>
    simp only [Plain.get, hvalue]
    exact ((haccess _).map _).map _
  | type =>
    simp only [Plain.get, hvalue]
    exact (((haccess _).map valueKind).orElse _).map _
  | isNullErr =>
    simp only [Plain.get, hvalue]
    exact (haccess _).map _
  | isNull =>
    simp only [Plain.get, hvalue]
    exact ((haccess _).orElse _).map _
  | bool =>
    simp only [Plain.get, hvalue]
    exact (haccess _).map _
  | int64 =>
    simp only [Plain.get, hvalue]
    exact (haccess _).map _
  | uint64 =>
    simp only [Plain.get, hvalue]
    exact (haccess _).map _
  | float64 =>
    simp only [Plain.get, hvalue]
    exact (haccess _).map _
  | string =>
    simp only [Plain.get, hvalue]
    exact (stays_unusable h _).map _
  | bigInt =>
    simp only [Plain.get, hvalue]
    exact (stays_unusable h _).map _

end

/-! ## Calls on what the caller has -/

/-- **What the parts that are not here do.**  simdjson answers by value, the memory that is handed
out is there until it is given back, and a document that is there can be freed. -/
structure Serves {W : Type} (sj : Simdjson W) (base : Native W) (tape : W → Nat → Option Json)
    (values : Dom Json) (blocks arrays : W → Set Nat) : Prop where
  lifecycle : Lifecycle base tape (fun _ => True) fun _ => False
  faithful : sj.Faithful base.memory tape
  byValue : sj.ByValue tape values
  allocatable : sj.Allocatable tape
  blocks : Allocates base blocks
  arrays : AllocatesViews base arrays
  frees : ∀ doc w, doc ≠ 0 → wp (base.docFree doc) (fun _ _ => True) (fun _ _ => False) w

section
variable {W : Type} {sj : Simdjson W} {base : Native W} {tape : W → Nat → Option Json}
  {values : Dom Json} {blocks arrays : W → Set Nat} {root : Json} {doc : UInt64} {slot : UInt32}
  {c : Client} {p : Plain} {entry : Option DocEntry} {s : Runtime W}

/-- **A call on an element that the caller has**: it is refused, or the document is open. -/
theorem answers_held {γ : Type} {held : List Element} {held' : List γ} (val : γ → Option Json)
    (hheld : List.Forall₂ (fun element x => element.Is root doc entry (val x)) held held')
    (hs : Stage sj base tape root doc slot entry s) (hc : c.Is root doc entry p) (i : Nat)
    {call : Element → GoM W Outcome} {out : γ → PlainOutcome}
    (hrefused : ∀ element x err, usableDoc element = .error err →
      p.value (val x) = .error err →
        Answers sj base tape root doc slot c p (call element) (out x) s)
    (hopen : ∀ e x u j view, entry = some e → Open sj base tape root doc slot s e →
      p.closed = false → val x = some u → Names root doc e view u j →
      Answers sj base tape root doc slot c p (call ⟨openDoc, view⟩) (out x) s) :
    Answers sj base tape root doc slot c p (c.onElement held i call) (p.on held' i out) s := by
  refine answers_on hheld hs hc fun element x _ _ his => ?_
  obtain ⟨err, hvalue, husable⟩ | ⟨u, e, j, hval, hclosed, rfl, hthrough, hnames⟩ := hc.element his
  · exact hrefused _ x err husable hvalue
  · rw [hthrough]
    exact hopen e x u j _ rfl (hs e rfl) hclosed hval hnames

variable (hserves : Serves sj base tape values blocks arrays)
  (hs : Stage sj base tape root doc slot entry s) (hc : c.Is root doc entry p)
include hserves hs hc

/-- An accessor. -/
theorem answers_get (i : Nat) (getter : Getter) :
    Answers sj base tape root doc slot c p
      (c.onElement c.elements i fun element =>
        (fun answer => (answer, c)) <$> getterCall (bridge sj base) element getter)
      (p.on p.elements i fun x => p.settle ((p.get x getter).map fun answer => (answer, p))) s := by
  refine answers_held id hc.elements hs hc i ?_ ?_
  · intro element x err husable hvalue
    exact (stays_getterCall husable _ hvalue getter).answers _ hs hc
      (fun a ha => ⟨a, ha, rfl, hc⟩) fun _ herr => herr
  · rintro e x u j view rfl hopen hclosed rfl hn
    obtain rfl := hn.doc_eq
    have htells := tells_getter hserves.lifecycle hserves.faithful hserves.blocks hserves.byValue
      hopen hn hclosed getter
    refine answers_ends hserves.lifecycle hserves.faithful hopen hc (passes_getterCall _ _ _)
      htells.ends ?_
    rintro e' a b his rfl
    exact ⟨rfl, his⟩

omit hserves hs hc in
theorem value_open (hclosed : p.closed = false) (u : Json) : p.value (some u) = .ok u := by
  rw [Plain.value, Plain.open?, hclosed]
  rfl

omit hserves hs hc in
theorem open?_error {u : Json} {err : AccessError} (h : p.value (some u) = .error err) {α : Type}
    (a : α) : p.open? a = .error err := by
  rw [Plain.value, Plain.open?] at h
  rw [Plain.open?]
  by_cases hclosed : p.closed
  · rw [if_pos hclosed] at h ⊢
    cases h
    rfl
  · rw [if_neg hclosed] at h
    cases h

omit hserves hs hc in
/-- A lookup of one element hands out an element. -/
theorem Finds.elements {call : RuntimeM W ValueView} {y : Except SimdjsonError Json}
    (h : Finds sj base tape root doc slot call y s) :
    wp call
      (fun found s' => ∀ e', Open sj base tape root doc slot s' e' →
        ∃ v, orStatus y = .ok v ∧ Element.Is root doc (some e') ⟨openDoc, found⟩ (some v))
      (fun rc _ => orStatus y = .error (.status rc)) s := by
  refine wp_mono h ?_ ?_
  · intro found s' hfound e' hopen
    obtain ⟨v, rfl, k, hnames⟩ := hfound e' hopen
    refine ⟨v, rfl, rfl, ?_⟩
    rintro e₁ ⟨⟩
    exact ⟨k, hnames⟩
  · rintro rc s' ⟨error, rfl, rfl⟩
    rfl

omit hserves hs hc in
theorem ends_lookupElement {view : ValueView} {y : Except SimdjsonError Json}
    {call : Option ValueView → RuntimeM W ValueView}
    (hfinds : Finds sj base tape root doc slot (call (some view)) y s) :
    Ends sj base tape root doc slot (lookupElement ⟨openDoc, view⟩ call) (orStatus y)
      (fun e' found v => found.Is root doc (some e') (some v)) s := by
  rw [Ends, lookupElement, wp_bind, usableDoc_open, wp_orReturn_ok, wp_bind, wp_binding]
  exact wp_mono hfinds.elements (fun _ _ => id) fun _ _ herr => ⟨_, rfl, herr⟩

/-- A lookup from an element. -/
theorem answers_lookup (i : Nat) {call : Option ValueView → RuntimeM W ValueView}
    {find : Json → Except SimdjsonError Json}
    (hpasses : ∀ view, Keeps (Passes (bridge sj base) doc slot c.leases) (call (some view)))
    (hfinds : ∀ e u j view, Open sj base tape root doc slot s e → Names root doc e view u j →
      Finds sj base tape root doc slot (call (some view)) (find u) s) :
    Answers sj base tape root doc slot c p
      (c.onElement c.elements i fun element =>
        (fun found => c.hand [found]) <$> lookupElement element call)
      (p.on p.elements i fun x => p.settle do
        let v ← orStatus (find (← p.value x))
        return p.hand [some v]) s := by
  refine answers_held id hc.elements hs hc i ?_ ?_
  · intro element x err husable hvalue
    have hrefused : Stays (lookupElement element call) (.error err) s := stays_unusable husable _
    rw [show p.value x = .error err from hvalue]
    exact answers_refused (G := fun v => p.hand [some v]) hrefused hs hc
  · rintro e x u j view rfl hopen hclosed rfl hn
    rw [value_open hclosed]
    refine answers_ends hserves.lifecycle hserves.faithful hopen hc
      (passes_lookupElement _ (hpasses view)) (ends_lookupElement (hfinds e u j view hopen hn)) ?_
    intro e' a b his ha
    exact his.hand (.cons ha .nil)

theorem answers_atPathAll (i : Nat) (path : Bytes) :
    Answers sj base tape root doc slot c p
      (c.onElement c.elements i fun element =>
        c.hand <$> atPathAll (bridge sj base) element path)
      (p.on p.elements i fun x => p.settle do
        let vs ← valuesAtPathAll values sj.validateUtf8 (← p.value x) path
        return p.hand (vs.map some)) s := by
  refine answers_held id hc.elements hs hc i ?_ ?_
  · intro element x err husable hvalue
    have hrefused : Stays (atPathAll (bridge sj base) element path) (.error err) s :=
      stays_unusable husable _
    rw [show p.value x = .error err from hvalue]
    exact answers_refused (G := fun vs : List Json => p.hand (vs.map some)) hrefused hs hc
  · rintro e x u j view rfl hopen hclosed rfl hn
    obtain rfl := hn.doc_eq
    have hends := ends_atPathAll hserves.lifecycle hserves.faithful hserves.byValue
      hserves.allocatable hserves.blocks hserves.arrays hopen hn path
    rw [value_open hclosed]
    refine answers_ends hserves.lifecycle hserves.faithful hopen hc (passes_atPathAll _ _ _) hends
      ?_
    intro e' a b his ha
    exact his.hand ha

/-! ## Containers -/

omit hserves in
/-- A view as a container. -/
theorem answers_asKind (i : Nat) {kind : ValueKind} {F : Element → Outcome}
    {out : Json → Except AccessError PlainOutcome}
    (hright : ∀ u view, u.kindCode = kind.code →
      Element.Is root doc entry ⟨openDoc, view⟩ (some u) →
      ∃ o, out u = .ok o ∧ (F ⟨openDoc, view⟩).1 = o.1 ∧
        (F ⟨openDoc, view⟩).2.Is root doc entry o.2)
    (hwrong : ∀ u, u.kindCode ≠ kind.code → out u = .error (.status .wrongType)) :
    Answers sj base tape root doc slot c p
      (c.onElement c.elements i fun element => F <$> asKind kind element)
      (p.on p.elements i fun x => p.settle (p.value x >>= out)) s := by
  refine answers_held id hc.elements hs hc i ?_ ?_
  · intro element x err husable hvalue
    have hrefused : Stays (asKind kind element : GoM W Element) (.error err) s :=
      stays_unusable husable _
    rw [show p.value x = .error err from hvalue]
    exact answers_refused (G := id) hrefused hs hc
  · rintro e x u j view rfl hopen hclosed rfl hn
    have hstays : Stays (asKind kind ⟨openDoc, view⟩ : GoM W Element)
        (if u.kindCode ≠ kind.code then .error (.status .wrongType)
          else .ok ⟨openDoc, view⟩) s := by
      rw [asKind, usableDoc_open, hn.kindHint_eq]
      by_cases hkind : u.kindCode ≠ kind.code
      · rw [if_pos hkind, if_pos hkind]
        exact ⟨rfl, _, rfl, rfl⟩
      · rw [if_neg hkind, if_neg hkind]
        exact ⟨rfl, rfl⟩
    have hval : (Except.ok u >>= out) = out u := rfl
    rw [value_open hclosed, hval]
    by_cases hkind : u.kindCode ≠ kind.code
    · rw [if_pos hkind] at hstays
      rw [hwrong u hkind]
      exact answers_refused (G := id) hstays hs hc
    · rw [if_neg hkind] at hstays
      obtain ⟨o, hout, hanswer, his⟩ := hright u view (not_not.mp hkind) ⟨rfl, fun e' he' => by
        cases he'
        exact ⟨j, hn⟩⟩
      rw [hout]
      exact hstays.answers (G := id) (.ok o) hs hc (fun a ha => by
        cases ha
        exact ⟨o, rfl, hanswer, his⟩) fun _ herr => by cases herr

omit hserves in
/-- A call on a container that the caller has. -/
theorem answers_container {γ : Type} (toJson : γ → Json) {held : List Element} {held' : List γ}
    (hheld : List.Forall₂ (fun element x => element.Is root doc entry (some (toJson x))) held held')
    (i : Nat) {call : Element → GoM W Outcome} {body : γ → Except AccessError PlainOutcome}
    (hrefused : ∀ element err, usableDoc element = .error err →
      Answers sj base tape root doc slot c p (call element) (.failed err, p) s)
    (hopen : ∀ e x j view, entry = some e → Open sj base tape root doc slot s e →
      Names root doc e view (toJson x) j →
      Answers sj base tape root doc slot c p (call ⟨openDoc, view⟩) (p.settle (body x)) s) :
    Answers sj base tape root doc slot c p (c.onElement held i call)
      (p.on held' i fun x => p.settle (p.open? x >>= body)) s := by
  refine answers_held (fun x => some (toJson x)) hheld hs hc i ?_ ?_
  · intro element x err husable hvalue
    rw [open?_error hvalue]
    exact hrefused element err husable
  · rintro e x u j view hentry hopen' hclosed hval hn
    cases hval
    rw [Plain.open?, hclosed]
    exact hopen e x j view hentry hopen' hn

/-- The count of a container. -/
theorem answers_count {γ : Type} (toJson : γ → Json) {held : List Element} {held' : List γ}
    (hheld : List.Forall₂ (fun element x => element.Is root doc entry (some (toJson x))) held held')
    (i : Nat) {kind : ValueKind} {call : Option ValueView → RuntimeM W Nat} {count : γ → Int64}
    (hpasses : ∀ view, Keeps (Passes (bridge sj base) doc slot c.leases) (call (some view)))
    (htells : ∀ e x j view, Open sj base tape root doc slot s e →
      Names root doc e view (toJson x) j →
      Tells (countErr kind call ⟨openDoc, view⟩) (.ok (count x)) s) :
    Answers sj base tape root doc slot c p
      (c.onElement held i fun element => (fun n => (.int64 n, c)) <$> countErr kind call element)
      (p.on held' i fun x => p.settle (p.open? x >>= fun x => return (.int64 (count x), p))) s := by
  refine answers_container hs hc toJson hheld i ?_ ?_
  · intro element err husable
    have hrefused : Stays (countErr kind call element) (.error err) s :=
      (stays_unusable husable _).bind _
    exact answers_refused (G := fun n => (.int64 n, p)) hrefused hs hc
  · rintro e x j view rfl hopen hn
    refine answers_ends (r := .ok (count x)) (G := fun n => (.int64 n, p)) hserves.lifecycle
      hserves.faithful hopen hc (passes_countErr _ _ (hpasses view))
      (htells e x j view hopen hn).ends ?_
    rintro e' a b his rfl
    exact ⟨rfl, his⟩

/-- The count of a container, or zero. -/
theorem answers_countOrZero {γ : Type} (toJson : γ → Json) {held : List Element} {held' : List γ}
    (hheld : List.Forall₂ (fun element x => element.Is root doc entry (some (toJson x))) held held')
    (i : Nat) {kind : ValueKind} {call : Option ValueView → RuntimeM W Nat} {count : γ → Int64}
    (hpasses : ∀ view, Keeps (Passes (bridge sj base) doc slot c.leases) (call (some view)))
    (htells : ∀ e x j view, Open sj base tape root doc slot s e →
      Names root doc e view (toJson x) j →
      Tells (countErr kind call ⟨openDoc, view⟩) (.ok (count x)) s) :
    Answers sj base tape root doc slot c p
      (c.onElement held i fun element =>
        (fun n => (.int64 n, c)) <$> orElse 0 (countErr kind call element))
      (p.on held' i fun x => (.int64 (orDefault 0 (p.open? (count x))), p)) s := by
  refine answers_held (fun x => some (toJson x)) hheld hs hc i ?_ ?_
  · intro element x err husable hvalue
    have hzero : orDefault 0 (p.open? (count x)) = 0 := by
      rw [open?_error hvalue]
      rfl
    have hrefused : Stays (countErr kind call element) (.error err) s :=
      (stays_unusable husable _).bind _
    rw [hzero]
    exact (hrefused.orElse 0).answers (G := fun n => (.int64 n, p)) (.ok (0 : Int64)) hs
      hc (fun a ha => ⟨a, ha, rfl, hc⟩) fun _ herr => herr
  · rintro e x u j view rfl hopen hclosed hval hn
    cases hval
    have hcount : orDefault 0 (p.open? (count x)) = count x := by
      rw [Plain.open?, hclosed]
      rfl
    rw [hcount]
    refine answers_ends (r := .ok (count x)) (G := fun n => (.int64 n, p)) hserves.lifecycle
      hserves.faithful hopen hc (keeps_orElse _ (passes_countErr _ _ (hpasses view)))
      ((htells e x j view hopen hn).orElse 0).ends ?_
    rintro e' a b his rfl
    exact ⟨rfl, his⟩

theorem answers_arrayAt (i : Nat) (index : Int64) :
    Answers sj base tape root doc slot c p
      (c.onElement c.arrays i fun array =>
        (fun found => c.hand [found]) <$> arrayAt (bridge sj base) array index)
      (p.on p.arrays i fun items => p.settle do
        let items ← p.open? items
        if index < 0 then throw (.status .indexOutOfRange)
        else return p.hand [some (← orStatus (itemAt items index.toUInt64.toNat))]) s := by
  refine answers_container hs hc Json.array hc.arrays i ?_ ?_
  · intro element err husable
    have hrefused : Stays (arrayAt (bridge sj base) element index) (.error err) s :=
      (stays_unusable husable _).bind _
    exact answers_refused (G := fun v => p.hand [some v]) hrefused hs hc
  · rintro e items j view rfl hopen hn
    obtain rfl := hn.doc_eq
    have hkind : (Json.array items).kindCode = ValueKind.array.code := rfl
    by_cases hneg : index < 0
    · rw [if_pos hneg]
      have hrefused : Stays (arrayAt (bridge sj base) ⟨openDoc, view⟩ index)
          (.error (.status .indexOutOfRange)) s := by
        rw [Stays, arrayAt, wp_bind, wp_usableContainer hkind hn.kindHint_eq, if_pos hneg]
        exact ⟨rfl, _, rfl, rfl⟩
      exact answers_refused (G := fun v => p.hand [some v]) hrefused hs hc
    · rw [if_neg hneg]
      have hends : Ends sj base tape root view.doc slot
          (arrayAt (bridge sj base) ⟨openDoc, view⟩ index)
          (orStatus (itemAt items index.toUInt64.toNat))
          (fun e' found v => found.Is root view.doc (some e') (some v)) s := by
        rw [Ends, arrayAt, wp_bind, wp_usableContainer hkind hn.kindHint_eq, if_neg hneg, wp_bind,
          wp_binding]
        exact wp_mono (finds_arrayAt hserves.lifecycle hserves.faithful hserves.blocks
          hserves.byValue hopen hn rfl _).elements (fun _ _ => id) fun _ _ herr => ⟨_, rfl, herr⟩
      refine answers_ends hserves.lifecycle hserves.faithful hopen hc (passes_arrayAt _ _ _) hends
        ?_
      intro e' a b his ha
      exact his.hand (.cons ha .nil)

omit hs hc in
/-- A field of an open object. -/
theorem ends_getField {e : DocEntry} {view : ValueView} {fields : List (Bytes × Json)} {j : Nat}
    (hopen : Open sj base tape root view.doc slot s e)
    (hn : Names root view.doc e view (.object fields) j) (key : Bytes) :
    Ends sj base tape root view.doc slot (getField (bridge sj base) ⟨openDoc, view⟩ key)
      (orStatus (fieldAt fields key))
      (fun e' found v => found.doc = openDoc ∧ found.Is root view.doc (some e') (some v)) s := by
  have hkind : (Json.object fields).kindCode = ValueKind.object.code := rfl
  rw [Ends, getField, wp_bind, wp_usableContainer hkind hn.kindHint_eq, wp_bind, wp_binding]
  refine wp_mono (finds_objectGetField hserves.lifecycle hserves.faithful hserves.blocks
    hserves.byValue hopen hn rfl key).elements ?_ fun _ _ herr => ⟨_, rfl, herr⟩
  intro found s' hfound e' hopen'
  obtain ⟨v, hv, his⟩ := hfound e' hopen'
  exact ⟨v, hv, rfl, his⟩

theorem answers_getField (i : Nat) (key : Bytes) :
    Answers sj base tape root doc slot c p
      (c.onElement c.objects i fun object =>
        (fun found => c.hand [found]) <$> getField (bridge sj base) object key)
      (p.on p.objects i fun fields => p.settle do
        return p.hand [some (← orStatus (fieldAt (← p.open? fields) key))]) s := by
  refine answers_container hs hc Json.object hc.objects i ?_ ?_
  · intro element err husable
    have hrefused : Stays (getField (bridge sj base) element key) (.error err) s :=
      (stays_unusable husable _).bind _
    exact answers_refused (G := fun v => p.hand [some v]) hrefused hs hc
  · rintro e fields j view rfl hopen hn
    obtain rfl := hn.doc_eq
    refine answers_ends hserves.lifecycle hserves.faithful hopen hc (passes_getField _ _ _)
      (ends_getField hserves hopen hn key) ?_
    intro e' a b his ha
    exact his.hand (.cons ha.2 .nil)

theorem answers_getStringField (i : Nat) (name : Bytes) :
    Answers sj base tape root doc slot c p
      (c.onElement c.objects i fun object =>
        (fun bytes => (.text bytes, c)) <$> getStringField (bridge sj base) object name)
      (p.on p.objects i fun fields => p.settle do
        let v ← orStatus (fieldAt (← p.open? fields) name)
        return (.text (← orStatus v.asString), p)) s := by
  refine answers_container hs hc Json.object hc.objects i ?_ ?_
  · intro element err husable
    have hrefused : Stays (getStringField (bridge sj base) element name) (.error err) s :=
      ((stays_unusable husable _).bind _).bind _
    exact answers_refused (G := fun bytes => (.text bytes, p)) hrefused hs hc
  · rintro e fields j view rfl hopen hn
    obtain rfl := hn.doc_eq
    have hends : Ends sj base tape root view.doc slot
        (getStringField (bridge sj base) ⟨openDoc, view⟩ name)
        (orStatus (fieldAt fields name) >>= fun v => orStatus v.asString)
        (fun _ a b => a = b) s := by
      have hpasses : Keeps (Passes (bridge sj base) view.doc slot ∅)
          (getField (bridge sj base) ⟨openDoc, view⟩ name) := passes_getField _ _ _
      rw [Ends, getStringField, wp_bind]
      refine wp_mono (wp_and (hpasses s) (ends_getField hserves hopen hn name)) ?_ ?_
      · rintro ⟨fieldDoc, field⟩ s₁ ⟨hmoved, hright⟩
        obtain ⟨e₁, hopen₁, -⟩ := hopen.passes hserves.lifecycle hserves.faithful hmoved
        obtain ⟨v, hv, rfl, -, hnames⟩ := hright e₁ hopen₁
        obtain ⟨k, hn₁⟩ := hnames e₁ rfl
        have hdoc : field.doc = view.doc := hn₁.doc_eq
        have hopen' : Open sj base tape root field.doc slot s₁ e₁ := hdoc ▸ hopen₁
        have hn' : Names root field.doc e₁ field v k := hdoc ▸ hn₁
        rw [hv]
        exact (tells_copied (wp_copyString_any hserves.lifecycle hserves.faithful hserves.blocks
          hserves.byValue hopen' hn')).ends
      · rintro stop s₁ ⟨-, err, rfl, herr⟩
        rw [herr]
        exact ⟨err, rfl, rfl⟩
    have hbody (x : Except AccessError Json) :
        (x >>= fun v => orStatus v.asString >>= fun bytes => return (.text bytes, p)) =
          (x >>= fun v => orStatus v.asString).map
            fun bytes => ((.text bytes, p) : PlainOutcome) := by
      cases x <;> rfl
    rw [hbody]
    refine answers_ends hserves.lifecycle hserves.faithful hopen hc
      ((passes_getField _ _ _).bind fun field => passes_getString _ field) hends ?_
    rintro e' a b his rfl
    exact ⟨rfl, his⟩

/-! ## Iterators -/

omit hserves hs hc in
theorem usableDoc_closed {element : Element} (h : usableDoc element = .error .closed) :
    element.doc.isSome := by
  rw [usableDoc] at h
  cases hdoc : element.doc with
  | none =>
    rw [hdoc] at h
    cases h
  | some d => rfl

omit hserves hs hc in
theorem value_closed {u : Json} {err : AccessError} (h : p.value (some u) = .error err) :
    p.closed = true ∧ err = .closed := by
  rw [Plain.value, Plain.open?] at h
  by_cases hclosed : p.closed
  · rw [if_pos hclosed] at h
    cases h
    exact ⟨hclosed, rfl⟩
  · rw [if_neg hclosed] at h
    cases h

/-- **A new iterator goes through all the children**, through a lease of its own. -/
theorem answers_iter {I α : Type} (K : IterKind root doc I α) (toJson : List α → Json)
    {held : List Element} {held' : List (List α)}
    (hheld : List.Forall₂
      (fun element children => element.Is root doc entry (some (toJson children))) held held')
    {its : List I} {cursors : List (Cursor α)} (hits : List.Forall₂ (K.Is entry) its cursors)
    (i : Nat) {room : Bool}
    (hroom : ∀ e ∈ entry, room = decide (e.iterLeases.keys.length < leaseIds))
    (make : Element → GoM W I) (add : I → Client) (add' : Cursor α → Plain)
    (hadd : ∀ entry' it cursor, c.Is root doc entry' p → K.Is entry' it cursor →
      (∀ it₁ ∈ its, (K.way it₁).Going → (K.way it).Going →
        (K.way it₁).iter.index ≠ (K.way it).iter.index) → (add it).Is root doc entry' (add' cursor))
    (hclosed : ∀ element, usableDoc element = .error .closed → ∃ it, make element = pure it ∧
      K.Is entry it (.broken .closed))
    (hpasses : ∀ element, Keeps (Passes (bridge sj base) doc slot c.leases) (make element))
    (hmade : ∀ e children j view, Open sj base tape root doc slot s e →
      Names root doc e view (toJson children) j → p.closed = false →
      wp (make ⟨openDoc, view⟩)
        (fun it s' => ∀ e', Open sj base tape root doc slot s' e' →
          K.Is (some e') it
            (p.newCursor (decide (e.iterLeases.keys.length < leaseIds)) children) ∧
          ((K.way it).Going → (K.way it).iter.index ∉ e.iterLeases))
        (fun _ _ => False) s) :
    Answers sj base tape root doc slot c p
      (c.onElement held i fun element => (fun it => (.handed 1, add it)) <$> make element)
      (p.on held' i fun children => (.handed 1, add' (p.newCursor room children))) s := by
  refine answers_held (fun children => some (toJson children)) hheld hs hc i ?_ ?_
  · intro element children err husable hvalue
    obtain ⟨hshut, rfl⟩ := value_closed hvalue
    obtain ⟨it, hmake, his⟩ := hclosed element husable
    rw [Plain.newCursor, if_pos hshut, Answers, wp_map, hmake]
    refine ⟨rfl, entry, hs, hadd entry it _ hc his fun _ _ _ hgoing => ?_⟩
    cases ((K.iterates his).going.mp hgoing).2
  · rintro e children u j view rfl hopen hshut hval hn
    cases hval
    have hends : Ends sj base tape root doc slot (make ⟨openDoc, view⟩) (.ok ())
        (fun e' it _ => K.Is (some e') it (p.newCursor room children) ∧
          ((K.way it).Going → (K.way it).iter.index ∉ e.iterLeases)) s := by
      rw [hroom e rfl]
      refine wp_mono (hmade e children j view hopen hn hshut) ?_ fun _ _ => False.elim
      exact fun it s' hit e' hopen' => ⟨(), rfl, hit e' hopen'⟩
    refine answers_ends (G := fun _ => (.handed 1, add' (p.newCursor room children)))
      hserves.lifecycle hserves.faithful hopen hc (hpasses _) hends ?_
    rintro e' it - his ⟨hit, hfree⟩
    refine ⟨rfl, hadd (some e') it _ his hit fun it₁ hmem hgoing₁ hgoing heq => hfree hgoing ?_⟩
    obtain ⟨lease, hlease, -⟩ := K.leased hits hmem hgoing₁
    exact heq ▸ AList.lookup_isSome.mp (by rw [hlease]; rfl)

theorem answers_arrayIter (i : Nat) {room : Bool}
    (hroom : ∀ e ∈ entry, room = decide (e.iterLeases.keys.length < leaseIds)) :
    Answers sj base tape root doc slot c p
      (c.onElement c.arrays i fun array =>
        (fun it => (.handed 1, { c with arrayIters := c.arrayIters ++ [it] })) <$>
          arrayIter (bridge sj base) array)
      (p.on p.arrays i fun items =>
        (.handed 1, { p with arrayIters := p.arrayIters ++ [p.newCursor room items] })) s := by
  refine answers_iter hserves hs hc (arrayKind root doc) Json.array hc.arrays hc.arrayIters i hroom
    (arrayIter (bridge sj base)) (fun it => { c with arrayIters := c.arrayIters ++ [it] })
    (fun cursor => { p with arrayIters := p.arrayIters ++ [cursor] })
    (fun _ _ _ hc' hit hapart => hc'.addArrayIter hit hapart) ?_ (fun _ => passes_arrayIter _ _) ?_
  · intro element husable
    rw [arrayIter, newIter, husable]
    exact ⟨_, rfl, iterates_broken (usableDoc_closed husable) _, rfl⟩
  · intro e items j view hopen hn hshut
    obtain rfl := hn.doc_eq
    exact wp_arrayIter_open hserves.faithful hopen hn hshut

theorem answers_objectIter (i : Nat) {room : Bool}
    (hroom : ∀ e ∈ entry, room = decide (e.iterLeases.keys.length < leaseIds)) :
    Answers sj base tape root doc slot c p
      (c.onElement c.objects i fun object =>
        (fun it => (.handed 1, { c with objectIters := c.objectIters ++ [it] })) <$>
          objectIter (bridge sj base) object)
      (p.on p.objects i fun fields =>
        (.handed 1, { p with objectIters := p.objectIters ++ [p.newCursor room fields] })) s := by
  refine answers_iter hserves hs hc (objectKind root doc) Json.object hc.objects hc.objectIters i
    hroom (objectIter (bridge sj base)) (fun it => { c with objectIters := c.objectIters ++ [it] })
    (fun cursor => { p with objectIters := p.objectIters ++ [cursor] })
    (fun _ _ _ hc' hit hapart => hc'.addObjectIter hit hapart) ?_
    (fun _ => passes_objectIter _ _) ?_
  · intro element husable
    rw [objectIter, newIter, husable]
    exact ⟨_, rfl, iterates_broken (usableDoc_closed husable) _, rfl, rfl⟩
  · intro e fields j view hopen hn hshut
    obtain rfl := hn.doc_eq
    exact wp_objectIter_open hserves.faithful hopen hn hshut

/-- **`Next` moves the iterator** and nothing else the caller has. -/
theorem answers_next {I α : Type} (K : IterKind root doc I α) {its : List I}
    {cursors : List (Cursor α)} (hits : List.Forall₂ (K.Is entry) its cursors)
    (hapart : LeasesApart K.way its) (i : Nat) (next : I → GoM W (Bool × I))
    (hstarts : K.Starts next)
    (put : I → Client) (put' : Cursor α → Plain)
    (hput : ∀ {kept entry' it it' cursor}, its[i]? = some it → K.Is entry' it' cursor →
      ((K.way it').Going → (K.way it).Going ∧ (K.way it').iter.index = (K.way it).iter.index) →
      Later kept entry entry' → (entry'.isSome ↔ p.closed = false) →
      (∀ k it₁, k ≠ i → its[k]? = some it₁ → (K.way it₁).Going → (K.way it₁).iter.index ∈ kept) →
      (∀ id, (∀ e ∈ entry, ∃ lease, e.iterLeases.lookup id = some lease ∧ lease.tag ≠ K.tag) →
        id ∈ kept) → (put it').Is root doc entry' (put' cursor))
    (hpasses : ∀ it, Keeps (Passes (bridge sj base) doc slot {id | id ≠ (K.way it).iter.index})
      (next it))
    (hnext : ∀ e it cursor, Open sj base tape root doc slot s e → K.Is (some e) it cursor →
      cursor.Active →
      wp (next (K.through it ⟨true, false⟩))
        (fun result s' => ∀ e', Open sj base tape root doc slot s' e' →
          result.1 = (cursor.next false).1 ∧ K.Is (some e') result.2 (cursor.next false).2 ∧
            (K.way result.2).iter.index = (K.way it).iter.index)
        (fun _ _ => False) s) :
    Answers sj base tape root doc slot c p
      (c.on its i fun it => do
        let (more, it) ← next (K.through it c.doc)
        pure (.flag more, put it))
      (p.on cursors i fun cursor =>
        (.flag (cursor.next p.closed).1, put' (cursor.next p.closed).2)) s := by
  refine answers_on hits hs hc fun it cursor hi _ hit => ?_
  rw [hc.doc_eq]
  by_cases hidle : cursor.Active → p.closed = true
  · obtain ⟨it', hnone, hit', hsame⟩ := hstarts.idle hit hidle
    rw [hnone]
    exact ⟨rfl, entry, hs, hput hi hit' hsame (.refl Set.univ entry) hc.open_iff
      (fun _ _ _ _ _ => trivial) fun _ _ => trivial⟩
  · obtain ⟨hactive, hclosed⟩ := Classical.not_imp.mp hidle
    rw [Bool.not_eq_true] at hclosed
    obtain ⟨e, rfl⟩ := Option.isSome_iff_exists.mp (hc.open_iff.mpr hclosed)
    have hopen := hs e rfl
    have hiterates := K.iterates hit
    have hgoing := hiterates.going.mpr hactive
    have hpasses := hpasses (K.through it ⟨true, false⟩)
    rw [K.way_through] at hpasses
    rw [hclosed, Answers, wp_bind]
    refine wp_mono (wp_and (hpasses s) (hnext e it cursor hopen hit hactive)) ?_
      fun _ _ h => h.2.elim
    rintro ⟨more, it'⟩ s' ⟨hmoved, hright⟩
    obtain ⟨e', hopen', hfollows⟩ := hopen.passes hserves.lifecycle hserves.faithful hmoved
    obtain ⟨hmore, hit', hsame⟩ := hright e' hopen'
    refine ⟨congrArg Answer.flag hmore, some e', ?_, hput hi hit' (fun _ => ⟨hgoing, hsame⟩)
      (.of_follows hfollows) hc.open_iff (hapart.others hi hgoing) ?_⟩
    · rintro e₁ ⟨⟩
      exact hopen'
    · -- a lease has one tag
      rintro id hother rfl
      obtain ⟨lease, hlease, htag⟩ := hother e rfl
      cases (hiterates.leases e rfl hactive).lease.symm.trans hlease
      exact htag rfl

theorem answers_arrayNext (i : Nat) :
    Answers sj base tape root doc slot c p
      (c.on c.arrayIters i fun it => do
        let (more, it) ← (it.through c.doc).next (bridge sj base)
        pure (.flag more, { c with arrayIters := c.arrayIters.set i it }))
      (p.on p.arrayIters i fun cursor =>
        (.flag (cursor.next p.closed).1,
          { p with arrayIters := p.arrayIters.set i (cursor.next p.closed).2 })) s := by
  refine answers_next hserves hs hc (arrayKind root doc) hc.arrayIters hc.arraysApart i
    (ArrayIter.next (bridge sj base)) (ArrayIter.starts _)
    (fun it => { c with arrayIters := c.arrayIters.set i it })
    (fun cursor => { p with arrayIters := p.arrayIters.set i cursor }) ?_
    (fun it => passes_arrayNext _ it) fun _ _ _ hopen hit =>
      wp_arrayNext_open hserves.lifecycle hserves.faithful hserves.blocks hopen hit
  intro kept entry' it it' cursor hi hit hsame hlater hopen hkept hother
  refine hc.setArrayIter hi hit hsame hlater hopen hkept fun it₁ hmem hgoing => hother _ ?_
  rintro e rfl
  obtain ⟨lease, hlease, htag⟩ := (objectKind root doc).leased hc.objectIters hmem hgoing
  exact ⟨lease, hlease, ne_of_eq_of_ne htag arrayIterTag_ne_objectIterTag.symm⟩

theorem answers_objectNext (i : Nat) :
    Answers sj base tape root doc slot c p
      (c.on c.objectIters i fun it => do
        let (more, it) ← (it.through c.doc).next (bridge sj base)
        pure (.flag more, { c with objectIters := c.objectIters.set i it }))
      (p.on p.objectIters i fun cursor =>
        (.flag (cursor.next p.closed).1,
          { p with objectIters := p.objectIters.set i (cursor.next p.closed).2 })) s := by
  refine answers_next hserves hs hc (objectKind root doc) hc.objectIters hc.objectsApart i
    (ObjectIter.next (bridge sj base)) (ObjectIter.starts _)
    (fun it => { c with objectIters := c.objectIters.set i it })
    (fun cursor => { p with objectIters := p.objectIters.set i cursor }) ?_
    (fun it => passes_objectNext _ it) fun _ _ _ hopen hit =>
      wp_objectNext_open hserves.lifecycle hserves.faithful hserves.blocks hopen hit
  intro kept entry' it it' cursor hi hit hsame hlater hopen hkept hother
  refine hc.setObjectIter hi hit hsame hlater hopen hkept fun it₁ hmem hgoing => hother _ ?_
  rintro e rfl
  obtain ⟨lease, hlease, htag⟩ := (arrayKind root doc).leased hc.arrayIters hmem hgoing
  exact ⟨lease, hlease, ne_of_eq_of_ne htag arrayIterTag_ne_objectIterTag⟩

/-! ## Any call -/

/-- **Closing an open document works**, and closing it again does nothing. -/
theorem answers_close :
    Answers sj base tape root doc slot c p
      ((fun d => (.closed, { c with doc := d })) <$> close (bridge sj base) c.handle c.doc)
      (.closed, { p with closed := true }) s := by
  rw [Answers, wp_map, close]
  cases hclosed : p.closed with
  | true =>
    have hsame : ({ p with closed := true } : Plain) = p := by rw [← hclosed]
    have hshut : c.doc.closed = true := by rw [hc.doc_eq, hclosed]
    rw [if_pos hshut, hsame]
    exact ⟨rfl, entry, hs, hc⟩
  | false =>
    obtain ⟨e, rfl⟩ := Option.isSome_iff_exists.mp (hc.open_iff.mpr hclosed)
    have hopen := hs e rfl
    obtain ⟨parserSlot, owner, hpaired⟩ := hopen.reachable.linked.paired hopen.live
    have hptr : e.nativePtr ≠ 0 := by
      intro hnull
      have hroot := hopen.root_eq
      rw [hnull, hserves.faithful.nonnull] at hroot
      cases hroot
    have hnot : ¬ c.doc.closed = true := by
      rw [hc.doc_eq, hclosed]
      decide
    have hshut : ({ c.doc with closed := true } : Doc) = ⟨true, true⟩ := by rw [hc.doc_eq]
    obtain rfl := hc.handle_eq
    rw [if_neg hnot, wp_bind, wp_binding, hshut]
    refine wp_docFree_live _ hopen.live hpaired ?_
    refine wp_mono (hserves.frees e.nativePtr s.native hptr) ?_ fun _ _ => False.elim
    exact fun _ _ _ => ⟨rfl, none, fun _ h => (by cases h), hc.shut⟩

/-- **Every call answers as the machine does.**  Whether an iterator can be made is a matter of the
leases that the document has, everybody's. -/
theorem answers_call (command : Command) {room : Bool}
    (hroom : ∀ e ∈ entry, room = decide (e.iterLeases.keys.length < leaseIds)) :
    Answers sj base tape root doc slot c p (c.call (bridge sj base) command)
      (p.perform values sj.validateUtf8 room command) s := by
  cases command with
  | root =>
    obtain ⟨hanswer, his⟩ := hc.hand (.cons hc.root_is .nil)
    exact ⟨hanswer, entry, hs, his⟩
  | get i getter => exact answers_get hserves hs hc i getter
  | atPointer i pointer =>
    refine answers_lookup hserves hs hc i (fun view => passes_other _
      (.elementAtPointer (some view) pointer) rfl rfl fun _ h => by cases h)
      fun e u j view h hn => ?_
    obtain rfl := hn.doc_eq
    exact finds_elementAtPointer hserves.lifecycle hserves.faithful hserves.blocks hserves.byValue h
      hn pointer
  | atPath i path =>
    refine answers_lookup hserves hs hc i (fun view => passes_other _
      (.elementAtPath (some view) path) rfl rfl fun _ h => by cases h) fun e u j view h hn => ?_
    obtain rfl := hn.doc_eq
    exact finds_elementAtPath hserves.lifecycle hserves.faithful hserves.blocks hserves.byValue h
      hn path
  | atPathAll i path => exact answers_atPathAll hserves hs hc i path
  | asArray i =>
    refine answers_asKind hs hc i (fun u view hkind his => ?_) fun u hkind => ?_
    · cases u with
      | array items =>
        exact ⟨_, rfl, rfl, { hc with arrays := List.rel_append hc.arrays (.cons his .nil) }⟩
      | _ =>
        exact absurd hkind (by simp [kindCode, Json.elementType, mapElementType, ValueKind.code])
    · cases u with
      | array items => exact absurd rfl hkind
      | _ => rfl
  | asObject i =>
    refine answers_asKind hs hc i (fun u view hkind his => ?_) fun u hkind => ?_
    · cases u with
      | object fields =>
        exact ⟨_, rfl, rfl, { hc with objects := List.rel_append hc.objects (.cons his .nil) }⟩
      | _ =>
        exact absurd hkind (by simp [kindCode, Json.elementType, mapElementType, ValueKind.code])
    · cases u with
      | object fields => exact absurd rfl hkind
      | _ => rfl
  | arrayAt i index => exact answers_arrayAt hserves hs hc i index
  | lenErr i =>
    refine answers_count hserves hs hc Json.array hc.arrays i (fun view => passes_other _
      (.arrayLen (some view)) rfl rfl fun _ h => by cases h) fun e items j view h hn => ?_
    obtain rfl := hn.doc_eq
    exact tells_lenErr hserves.faithful h hn hserves.byValue rfl
  | len i =>
    refine answers_countOrZero hserves hs hc Json.array hc.arrays i
      (fun view => passes_other _ (.arrayLen (some view)) rfl rfl fun _ h => by cases h)
      fun e items j view h hn => ?_
    obtain rfl := hn.doc_eq
    exact tells_lenErr hserves.faithful h hn hserves.byValue rfl
  | sizeErr i =>
    refine answers_count hserves hs hc Json.object hc.objects i (fun view => passes_other _
      (.objectSize (some view)) rfl rfl fun _ h => by cases h) fun e fields j view h hn => ?_
    obtain rfl := hn.doc_eq
    exact tells_sizeErr hserves.faithful h hn hserves.byValue rfl
  | size i =>
    refine answers_countOrZero hserves hs hc Json.object hc.objects i
      (fun view => passes_other _ (.objectSize (some view)) rfl rfl fun _ h => by cases h)
      fun e fields j view h hn => ?_
    obtain rfl := hn.doc_eq
    exact tells_sizeErr hserves.faithful h hn hserves.byValue rfl
  | getField i key => exact answers_getField hserves hs hc i key
  | getStringField i name => exact answers_getStringField hserves hs hc i name
  | arrayIter i => exact answers_arrayIter hserves hs hc i hroom
  | objectIter i => exact answers_objectIter hserves hs hc i hroom
  | arrayNext i => exact answers_arrayNext hserves hs hc i
  | arrayValue i =>
    refine answers_on hc.arrayIters hs hc fun it cursor _ _ hit => ?_
    have hhand := hc.hand (.cons hit.current .nil)
    exact ⟨hhand.1, entry, hs, hhand.2⟩
  | arrayErr i =>
    refine answers_on hc.arrayIters hs hc fun it cursor _ _ hit => ?_
    exact ⟨congrArg Answer.err hit.iterates.err_eq, entry, hs, hc⟩
  | objectNext i => exact answers_objectNext hserves hs hc i
  | objectKey i =>
    refine answers_on hc.objectIters hs hc fun it cursor _ _ hit => ?_
    exact ⟨congrArg Answer.text hit.key_eq, entry, hs, hc⟩
  | objectValue i =>
    refine answers_on hc.objectIters hs hc fun it cursor _ _ hit => ?_
    have hhand := hc.hand (.cons hit.current .nil)
    exact ⟨hhand.1, entry, hs, hhand.2⟩
  | objectErr i =>
    refine answers_on hc.objectIters hs hc fun it cursor _ _ hit => ?_
    exact ⟨congrArg Answer.err hit.iterates.err_eq, entry, hs, hc⟩
  | close => exact answers_close hserves hs hc

omit hserves hs hc in
/-- What comes of a whole command. -/
theorem Answers.perform {command : Command} {out : PlainOutcome}
    (h : Answers sj base tape root doc slot c p (c.call (bridge sj base) command) out s) :
    (c.perform (bridge sj base) command s).1.1 = out.1 ∧ ∃ entry',
      Stage sj base tape root doc slot entry' (c.perform (bridge sj base) command s).2 ∧
        (c.perform (bridge sj base) command s).1.2.Is root doc entry' out.2 := by
  rw [Answers] at h
  cases hrun : (c.call (bridge sj base) command).run s with
  | ok outcome s' =>
    have houtcome := wp_ok h hrun
    rw [Client.perform, hrun]
    exact houtcome
  | error stop s' =>
    obtain ⟨err, rfl, rfl, hstage⟩ := wp_error h hrun
    rw [Client.perform, hrun]
    exact ⟨rfl, hstage⟩

end

/-! ## Sessions -/

/-- Does the document have an id left for one more lease? -/
def Client.room {W : Type} (c : Client) (s : Runtime W) : Bool :=
  match s.registry.docEntry c.handle with
  | .ok entry => decide (entry.iterLeases.keys.length < leaseIds)
  | .error _ => false

/-- A question is a command, and whether the document has an id left for a lease. -/
abbrev Question := Command × Bool

/-- What happens in a session: the caller makes a call and gets its answer, or somebody else makes
a call.  While the document is open, nobody else frees it or uses the caller's iterators. -/
inductive SessionStep {W : Type} (native : Native W) :
    Runtime W × Client → Option (Question × Answer) → Runtime W × Client → Prop where
  | call (s : Runtime W) (c : Client) (command : Command) :
      SessionStep native (s, c)
        (some ((command, c.room s), (c.perform native command s).1.1))
        ((c.perform native command s).2, (c.perform native command s).1.2)
  | other {s s' : Runtime W} {c : Client} {event : Event} (h : Executes native s event s')
      (hharmless : c.doc.closed = false →
        Harmless c.handle c.handle.toUInt32 c.leases event) :
      SessionStep native (s, c) none (s', c)

section
variable {W : Type} {sj : Simdjson W} {base : Native W} {tape : W → Nat → Option Json}
  {values : Dom Json} {blocks arrays : W → Set Nat}

/-- **A session's answers are the plain machine's.**  From any reachable state and any view that
stands for a value of a live document: whatever commands the caller gives and whatever the others
do in between, every answer is what the machine on plain values answers to the same commands. -/
theorem session_answers (hserves : Serves sj base tape values blocks arrays) {s : Runtime W}
    (h : Reachable (bridge sj base) s) {view : ValueView} {slot : UInt32} {entry : DocEntry}
    {j : Nat} {root u : Json} (hview : Resolves s view slot entry j)
    (hroot : tape s.native entry.nativePtr = some root) (hat : root.At j u)
    (hhint : view.kindHint = u.kindCode) {steps : List (Option (Question × Answer))}
    {t : Runtime W × Client}
    (hrun : Run (SessionStep (bridge sj base)) (s, Client.start view) steps t) :
    answers id steps =
      replies (fun p question => p.perform values sj.validateUtf8 question.2 question.1)
        (Plain.start u) (questions id steps) := by
  have hstart : ∃ entry', Stage sj base tape root view.doc slot entry' s ∧
      (Client.start view).Is root view.doc entry' (Plain.start u) := by
    refine ⟨some entry, ?_, ?_⟩
    · rintro e ⟨⟩
      exact ⟨h, hview.live, hroot⟩
    · have hnames : Names root view.doc entry view u j :=
        ⟨rfl, hhint, hview.state0_ne, hview.reserved_eq, hat, hview.index_eq⟩
      refine ⟨rfl, rfl, by simp [Plain.start], ⟨rfl, ?_⟩, .nil, .nil, .nil, .nil, .nil, .nil, .nil⟩
      rintro e ⟨⟩
      exact ⟨j, hnames⟩
  refine hrun.answers_eq (J := fun now p => ∃ entry', Stage sj base tape root view.doc slot entry'
    now.1 ∧ now.2.Is root view.doc entry' p) ?_ ?_ hstart
  · rintro now l now' p ⟨entry', hs, hc⟩ hstep hsilent
    cases hstep with
    | call s c command => cases hsilent
    | other hexec hharmless =>
      cases entry' with
      | none => exact ⟨none, fun _ h => (by cases h), hc⟩
      | some e =>
        have hopen := hs e rfl
        have hclosed := hc.open_iff.mp rfl
        have hslot : view.doc.toUInt32 = slot := by
          rw [hopen.live.handle_eq, packHandle_slot]
        have hothers := hharmless (by rw [hc.doc_eq, hclosed])
        rw [hc.handle_eq, hslot] at hothers
        obtain ⟨e', hopen', hfollows⟩ :=
          hopen.executes hserves.lifecycle hserves.faithful hexec hothers
        refine ⟨some e', ?_, hc.later (.of_follows hfollows) subset_rfl hc.open_iff⟩
        rintro e₁ ⟨⟩
        exact hopen'
  · rintro now l now' p question answer ⟨entry', hs, hc⟩ hstep hshown
    cases hstep with
    | call s c command =>
      cases hshown
      have hroom : ∀ e ∈ entry', c.room s = decide (e.iterLeases.keys.length < leaseIds) := by
        intro e he
        rw [Client.room, hc.handle_eq, docEntry_eq_ok.mpr ⟨slot, (hs e he).live⟩]
      exact (answers_call hserves hs hc command hroom).perform
    | other hexec hharmless => cases hshown

end

/-! ## The sample -/

/-- The sample, whose arrays of views hold the views. -/
def sessionBase : Native SampleWorld :=
  { sampleBase with leakViews := fun views => sampleBase.leakBytes (views.flatMap ValueView.bytes) }

/-- simdjson on values, where every lookup by a pointer or a path fails. -/
def sessionValues : Dom Json where
  type := Json.elementType
  getArray _ := .error .incorrectType
  getObject _ := .error .incorrectType
  getInt64 := Json.asInt64
  getUint64 := Json.asUint64
  getDouble := Json.asDouble
  getString _ := .error .incorrectType
  getBool := Json.asBool
  getBigint _ := .error .incorrectType
  isNull := Json.isNull
  arraySize _ := .error .incorrectType
  objectSize _ := .error .incorrectType
  atKey _ _ := .error .noSuchField
  atIndex _ _ := .error .indexOutOfBounds
  atPointer _ _ := .error .invalidJsonPointer
  atPath _ _ := .error .invalidJsonPointer
  atPathWithWildcard _ _ := .error .invalidJsonPointer

theorem session_byValue : sampleSimdjson.ByValue SampleWorld.tape sessionValues := by
  intro w doc root j u hroot hat
  rw [SampleWorld.tape_eq_some hroot] at hat ⊢
  rcases sampleDocument_at.mp hat with
    ⟨rfl, rfl⟩ | ⟨rfl, rfl⟩ | ⟨rfl, rfl⟩ | ⟨rfl, rfl⟩ | ⟨rfl, rfl⟩ | ⟨rfl, rfl⟩ | ⟨rfl, rfl⟩
  · refine ⟨rfl, rfl, rfl, fun _ => rfl,
      fun _ h => (by cases h; rfl), fun _ h => (by cases h; rfl), rfl, fun _ h => (by cases h), ?_,
      fun _ _ h => (by cases h), ?_, fun _ => .error _, fun _ => .error _, fun _ => .error _⟩
    · rintro fields ⟨⟩
      rfl
    · rintro fields key ⟨⟩
      by_cases hkey : key = [97]
      · subst hkey
        exact .ok sampleDocument_at_array
      · by_cases hlong : key = [97, 97]
        · subst hlong
          exact .ok sampleDocument_at_field
        · have hmiss : sampleDom.atKey 1 key = .error .noSuchField :=
            (if_neg fun h => hkey h.2).trans (if_neg fun h => hlong h.2)
          have hnone : fieldAt [([97], .array [.null, .int64 7]), ([97, 97], .int64 7)] key =
              .error .noSuchField := by
            simp [fieldAt, Ne.symm hkey, Ne.symm hlong]
          rw [hnone]
          exact hmiss ▸ .error _
  · exact ⟨rfl, rfl, rfl, fun _ => rfl, fun _ h => (by cases h),
      fun _ h => (by cases h; rfl), rfl,
      fun _ h => (by cases h), fun _ h => (by cases h), fun _ _ h => (by cases h),
      fun _ _ h => (by cases h), fun _ => .error _, fun _ => .error _, fun _ => .error _⟩
  · refine ⟨rfl, rfl, rfl, fun _ => rfl,
      fun _ h => (by cases h; rfl), fun _ h => (by cases h; rfl), rfl, ?_, fun _ h => (by cases h),
      ?_, fun _ _ h => (by cases h), fun _ => .error _, fun _ => .error _, fun _ => .error _⟩
    · rintro items ⟨⟩
      rfl
    · rintro items index ⟨⟩
      rcases index with _ | _ | index
      · exact .ok sampleDocument_at_null
      · exact .ok sampleDocument_at_item
      · exact .error _
  · exact ⟨rfl, rfl, rfl, fun _ => rfl,
      fun _ h => (by cases h; rfl), fun _ h => (by cases h; rfl), rfl, fun _ h => (by cases h),
      fun _ h => (by cases h), fun _ _ h => (by cases h), fun _ _ h => (by cases h),
      fun _ => .error _, fun _ => .error _, fun _ => .error _⟩
  · exact ⟨rfl, rfl, rfl, fun _ => rfl,
      fun _ h => (by cases h; rfl), fun _ h => (by cases h; rfl), rfl, fun _ h => (by cases h),
      fun _ h => (by cases h), fun _ _ h => (by cases h), fun _ _ h => (by cases h),
      fun _ => .error _, fun _ => .error _, fun _ => .error _⟩
  · exact ⟨rfl, rfl, rfl, fun _ => rfl, fun _ h => (by cases h),
      fun _ h => (by cases h; rfl), rfl,
      fun _ h => (by cases h), fun _ h => (by cases h), fun _ _ h => (by cases h),
      fun _ _ h => (by cases h), fun _ => .error _, fun _ => .error _, fun _ => .error _⟩
  · exact ⟨rfl, rfl, rfl, fun _ => rfl,
      fun _ h => (by cases h; rfl), fun _ h => (by cases h; rfl), rfl, fun _ h => (by cases h),
      fun _ h => (by cases h), fun _ _ h => (by cases h), fun _ _ h => (by cases h),
      fun _ => .error _, fun _ => .error _, fun _ => .error _⟩

/-- No step finds more than one element from one. -/
theorem length_expand {E : Type} {step : E → Except SimdjsonError (List E)}
    (hstep : ∀ e found, step e = .ok found → found.length ≤ 1) :
    ∀ {current found : List E}, expand step current = .ok found →
      found.length ≤ current.length := by
  intro current
  induction current with
  | nil =>
    intro found h
    cases h
    exact Nat.le_refl _
  | cons e current ih =>
    intro found h
    rw [expand] at h
    cases he : step e with
    | error error =>
      rw [he] at h
      dsimp only at h
      split at h
      · exact Nat.le_succ_of_le (ih h)
      · cases h
    | ok first =>
      rw [he] at h
      cases hrest : expand step current with
      | error rc =>
        rw [hrest] at h
        cases h
      | ok rest =>
        rw [hrest] at h
        cases h
        have hfirst := hstep e first he
        have hmore := ih hrest
        rw [List.length_append, List.length_cons]
        omega

theorem length_applyLiteral {E : Type} {dom : Dom E} {literalPath : Bytes} {current found : List E}
    (h : applyLiteral dom literalPath current = .ok found) : found.length ≤ current.length := by
  rw [applyLiteral] at h
  split at h
  · cases h
    exact Nat.le_refl _
  · refine length_expand (fun e first hfirst => ?_) h
    cases hpath : dom.atPath e literalPath with
    | error error =>
      rw [hpath] at hfirst
      cases hfirst
    | ok resolved =>
      rw [hpath] at hfirst
      cases hfirst
      exact Nat.le_refl _

theorem length_traverseSegments {E : Type} {dom : Dom E}
    (hdom : ∀ e path found, dom.atPathWithWildcard e path = .ok found → found.length ≤ 1)
    {segments : List WildcardPathSegment} {literalPath : Bytes} {current found : List E}
    (h : traverseSegments dom segments literalPath current = .ok found) :
    found.length ≤ current.length := by
  induction segments generalizing literalPath current with
  | nil => exact length_applyLiteral h
  | cons segment segments ih =>
    rw [traverseSegments] at h
    split at h
    · exact ih h
    · cases hliteral : applyLiteral dom literalPath current with
      | error rc =>
        rw [hliteral] at h
        cases h
      | ok reached =>
        cases hnext : expand (dom.atPathWithWildcard · segment.path) reached with
        | error rc =>
          rw [hliteral] at h
          simp only [bind, Except.bind, hnext] at h
          cases h
        | ok next =>
          rw [hliteral] at h
          simp only [bind, Except.bind, hnext] at h
          calc found.length ≤ next.length := ih h
            _ ≤ reached.length := length_expand (fun e first => hdom e _ first) hnext
            _ ≤ current.length := length_applyLiteral hliteral

/-- An array of views is made as a string is. -/
theorem session_leakViews (views : List ValueView) (w : SampleWorld) (hviews : views ≠ []) :
    NewBlock SampleWorld.memory SampleWorld.blocks (views.flatMap ValueView.bytes) w
      (sessionBase.leakViews views w) := by
  refine sample_allocates.leakBytes _ w fun hnil => ?_
  obtain ⟨view, rest, rfl⟩ := List.exists_cons_of_ne_nil hviews
  have hbytes : view.bytes = [] := (List.append_eq_nil_iff.mp hnil).1
  have hlength := view.length_bytes
  rw [hbytes] at hlength
  cases hlength

theorem sample_growsBytes (bytes : Bytes) (w : SampleWorld) :
    Grows SampleWorld.blocks w (sampleBase.leakBytes bytes w).2 := by
  rintro ptr ⟨hle, hlt⟩
  simp only [sampleBase, SampleWorld.blocks, List.length_append, Set.mem_ofPred_eq]
  omega

theorem session_allocates : Allocates sessionBase SampleWorld.blocks :=
  { sample_allocates with leakViews := fun _ => sample_growsBytes _ }

/-- **The sample serves sessions.** -/
theorem session_serves : Serves sampleSimdjson sessionBase SampleWorld.tape sessionValues
    SampleWorld.blocks SampleWorld.blocks where
  lifecycle := { sample_lifecycle with leakViews := fun _ _ _ => ⟨rfl, trivial⟩ }
  faithful := sample_faithful
  byValue := session_byValue
  allocatable w doc root j segments found hroot hfound := by
    have hlength : found.length ≤ 1 :=
      length_traverseSegments (fun _ _ _ h => by cases h) hfound
    rw [viewSize]
    omega
  blocks := session_allocates
  arrays := {
    plain := session_allocates.toPlain
    onParsers := { session_allocates with }
    leakBytes := sample_growsBytes
    dropBytes := fun _ _ _ => subset_rfl
    leakViews := session_leakViews
    dropViews := fun _ _ _ => Set.sdiff_subset }
  frees doc w _ := trivial

/-- The sample's native side. -/
def sessionNative : Native SampleWorld := bridge sampleSimdjson sessionBase

theorem sessionState_reachable : Reachable sessionNative sampleState :=
  ⟨.empty, [(.parserNew, .ok (.handle sampleParser)),
    (.parserParse sampleParser sampleText, .ok (.handle sampleDoc))],
    .cons (show Executes sessionNative _ (_, _) sampleStart from rfl) (.cons rfl (.nil _))⟩

/-- A caller walks through the sample's fields, closes the document and asks again. -/
def sampleQuestions : List (Command × Bool) :=
  [(.root, true), (.asObject 0, true), (.objectIter 0, true), (.objectNext 0, true),
    (.objectKey 0, true), (.objectValue 0, true), (.asArray 1, true), (.lenErr 0, true),
    (.objectNext 0, true), (.objectValue 0, true), (.get 2 .int64, true), (.objectNext 0, true),
    (.close, true), (.get 2 .int64, false)]

/-- Another caller makes an iterator of the same object before that. -/
theorem sampleQuestions_run : ∃ steps t,
    Run (SessionStep sessionNative) (sampleState, Client.start sampleRoot) steps t ∧
      questions id steps = sampleQuestions := by
  have hother : Executes sessionNative sampleState (.objectIterNew (some sampleRoot),
      .ok (.iter ⟨sampleDoc, 2, 11, 1, objectIterTag, 0⟩)) _ := rfl
  refine ⟨_, _, .cons (.other hother fun _ => harmless_of_other rfl (fun _ h => by cases h) _)
    (.cons (.call _ _ .root) (.cons (.call _ _ (.asObject 0)) (.cons (.call _ _ (.objectIter 0))
    (.cons (.call _ _ (.objectNext 0)) (.cons (.call _ _ (.objectKey 0))
    (.cons (.call _ _ (.objectValue 0)) (.cons (.call _ _ (.asArray 1))
    (.cons (.call _ _ (.lenErr 0)) (.cons (.call _ _ (.objectNext 0))
    (.cons (.call _ _ (.objectValue 0)) (.cons (.call _ _ (.get 2 .int64))
    (.cons (.call _ _ (.objectNext 0)) (.cons (.call _ _ .close)
    (.cons (.call _ _ (.get 2 .int64)) (.nil _))))))))))))))), rfl⟩

theorem session_answers_sample : ∃ steps t,
    Run (SessionStep sessionNative) (sampleState, Client.start sampleRoot) steps t ∧
      questions id steps = sampleQuestions ∧
      answers id steps = [.handed 1, .handed 1, .handed 1, .flag true, .text [97], .handed 1,
        .handed 1, .int64 2, .flag true, .handed 1, .int64 7, .flag false, .closed,
        .failed .closed] := by
  obtain ⟨steps, t, hrun, hquestions⟩ := sampleQuestions_run
  refine ⟨steps, t, hrun, hquestions, ?_⟩
  rw [session_answers session_serves sessionState_reachable sampleRoot_resolves rfl
    (at_root sampleDocument) rfl hrun, hquestions]
  rfl

end PureSimdjson.Elements
