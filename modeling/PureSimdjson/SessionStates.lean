import PureSimdjson.SessionContainers
import PureSimdjson.SessionFrames
import PureSimdjson.SessionIterators

/-!
# What a caller has of a document, and the values

A caller has what the plain machine has: every element stands for its value, every iterator is
its cursor, and no two iterators that are still going name the same lease.  While the document is
open this is so by the document's entry, which only grows; when it is closed there is nothing
left to say about the entry, and every call is refused.

A call answers as the machine does if it tells what the machine tells and leaves the caller with
what the machine has then.
-/
namespace PureSimdjson.Elements

open Effect Json Runs

/-! ## Lists of iterators -/

/-- What is at a place in two lists alike. -/
theorem forall₂_getElem? {α β : Type} {R : α → β → Prop} {as : List α} {bs : List β}
    (h : List.Forall₂ R as bs) (i : Nat) :
    (as[i]? = none ∧ bs[i]? = none) ∨ ∃ a b, as[i]? = some a ∧ bs[i]? = some b ∧ R a b := by
  induction h generalizing i with
  | nil => exact Or.inl ⟨rfl, rfl⟩
  | @cons a b as bs hab _ ih =>
    cases i with
    | zero => exact Or.inr ⟨a, b, rfl, rfl, hab⟩
    | succ i => simpa using ih i

/-- Two lists stay alike when a place of both is changed. -/
theorem forall₂_set {α β : Type} {R S : α → β → Prop} {as : List α} {bs : List β} {i : Nat} {a : α}
    {b : β} (h : List.Forall₂ R as bs) (hab : S a b)
    (hothers : ∀ k x y, k ≠ i → as[k]? = some x → R x y → S x y) :
    List.Forall₂ S (as.set i a) (bs.set i b) := by
  induction h generalizing i with
  | nil => exact .nil
  | @cons x y as bs hxy htail ih =>
    cases i with
    | zero =>
      refine .cons hab ?_
      have hall := List.forall₂_iff_get.mp htail
      refine List.forall₂_iff_get.mpr ⟨hall.1, fun k hk hk' => ?_⟩
      exact hothers (k + 1) _ _ (Nat.succ_ne_zero k) (by simp [hk]) (hall.2 k hk hk')
    | succ i =>
      refine .cons (hothers 0 x y (Nat.succ_ne_zero i).symm rfl hxy) (ih fun k x' y' hne hk => ?_)
      exact hothers (k + 1) x' y' (by omega) (by simpa using hk)

/-- What holds between the members of a list still holds when one is changed. -/
theorem pairwise_set {α : Type} {R : α → α → Prop} {as : List α} {i : Nat} {a a' : α}
    (h : as.Pairwise R) (ha : as[i]? = some a) (hleft : ∀ x, R x a → R x a')
    (hright : ∀ x, R a x → R a' x) : (as.set i a').Pairwise R := by
  induction as generalizing i with
  | nil => exact .nil
  | cons x as ih =>
    obtain ⟨hhead, htail⟩ := List.pairwise_cons.mp h
    cases i with
    | zero =>
      cases ha
      exact List.pairwise_cons.mpr ⟨fun y hy => hright y (hhead y hy), htail⟩
    | succ i =>
      refine List.pairwise_cons.mpr ⟨fun y hy => ?_, ih htail (by simpa using ha)⟩
      rcases List.mem_or_eq_of_mem_set hy with hmem | rfl
      · exact hhead y hmem
      · exact hleft x (hhead a (List.mem_of_getElem? (by simpa using ha)))

theorem pairwise_ne {α : Type} {R : α → α → Prop} {as : List α} {i k : Nat} {a x : α}
    (h : as.Pairwise R) (ha : as[i]? = some a) (hx : as[k]? = some x) (hne : k ≠ i) :
    R x a ∨ R a x := by
  obtain ⟨hi, rfl⟩ := List.getElem?_eq_some_iff.mp ha
  obtain ⟨hk, rfl⟩ := List.getElem?_eq_some_iff.mp hx
  rcases Nat.lt_or_gt_of_ne hne with hlt | hlt
  · exact Or.inl (List.pairwise_iff_getElem.mp h k i hk hi hlt)
  · exact Or.inr (List.pairwise_iff_getElem.mp h i k hi hk hlt)

section
variable {root : Json} {doc : UInt64} {entry entry' : Option DocEntry} {e : DocEntry}
  {kept : Set UInt32} {I α : Type} {its : List I} {cursors : List (Cursor α)} {i : Nat} {it it' : I}
  {cursor : Cursor α} {way : I → Way}

/-- No two iterators that are still going name the same lease. -/
def LeasesApart (way : I → Way) (its : List I) : Prop :=
  its.Pairwise fun it it' =>
    (way it).Going → (way it').Going → (way it).iter.index ≠ (way it').iter.index

theorem LeasesApart.append (h : LeasesApart way its)
    (hnew : ∀ it₁ ∈ its, (way it₁).Going → (way it).Going →
      (way it₁).iter.index ≠ (way it).iter.index) : LeasesApart way (its ++ [it]) := by
  refine List.pairwise_append.mpr ⟨h, List.pairwise_singleton _ _, ?_⟩
  rintro it₁ hmem it₂ hmem₂
  obtain rfl := List.mem_singleton.mp hmem₂
  exact hnew it₁ hmem

theorem LeasesApart.set (h : LeasesApart way its) (hi : its[i]? = some it)
    (hsame : (way it').Going → (way it).Going ∧ (way it').iter.index = (way it).iter.index) :
    LeasesApart way (its.set i it') := by
  refine pairwise_set h hi (fun x hx hgoing hgoing' => ?_) fun x hx hgoing hgoing' => ?_
  · obtain ⟨hwas, hindex⟩ := hsame hgoing'
    exact hindex ▸ hx hgoing hwas
  · obtain ⟨hwas, hindex⟩ := hsame hgoing
    exact hindex ▸ hx hwas hgoing'

/-- The others of a list name other leases. -/
theorem LeasesApart.others (h : LeasesApart way its) (hi : its[i]? = some it)
    (hgoing : (way it).Going) (k : Nat) (it₁ : I) (hne : k ≠ i) (hk : its[k]? = some it₁)
    (hgoing₁ : (way it₁).Going) : (way it₁).iter.index ≠ (way it).iter.index := by
  rcases pairwise_ne h hi hk hne with hapart | hapart
  · exact hapart hgoing₁ hgoing
  · exact (hapart hgoing hgoing₁).symm

namespace IterKind
variable (K : IterKind root doc I α)

theorem all_later (h : List.Forall₂ (K.Is entry) its cursors) (hlater : Later kept entry entry')
    (hkept : ∀ it ∈ its, (K.way it).Going → (K.way it).iter.index ∈ kept) :
    List.Forall₂ (K.Is entry') its cursors :=
  ((List.forall₂_and_left _ _).mpr ⟨hkept, h⟩).imp fun _ _ his =>
    K.later his.2 hlater fun hactive => his.1 ((K.iterates his.2).going.mpr hactive)

/-- One iterator has moved, and the others have not. -/
theorem set_later (h : List.Forall₂ (K.Is entry) its cursors) (hit : K.Is entry' it' cursor)
    (hlater : Later kept entry entry')
    (hkept : ∀ k it₁, k ≠ i → its[k]? = some it₁ → (K.way it₁).Going →
      (K.way it₁).iter.index ∈ kept) :
    List.Forall₂ (K.Is entry') (its.set i it') (cursors.set i cursor) :=
  forall₂_set h hit fun k it₁ _ hne hk his =>
    K.later his hlater fun hactive => hkept k it₁ hne hk ((K.iterates his).going.mpr hactive)

/-- Iterators that are still going have leases. -/
theorem leased (h : List.Forall₂ (K.Is (some e)) its cursors) (hmem : it ∈ its)
    (hgoing : (K.way it).Going) :
    ∃ lease, e.iterLeases.lookup (K.way it).iter.index = some lease ∧ lease.tag = K.tag := by
  obtain ⟨k, hk⟩ := List.mem_iff_getElem?.mp hmem
  obtain ⟨hnone, -⟩ | ⟨it', cursor, hit, -, his⟩ := forall₂_getElem? h k
  · cases hk.symm.trans hnone
  · cases hk.symm.trans hit
    have hiterates := K.iterates his
    exact ⟨_, (hiterates.leases e rfl (hiterates.going.mp hgoing)).lease, rfl⟩

end IterKind
end

/-! ## The caller -/

/-- What a caller has stands for what the machine has. -/
structure Client.Is (root : Json) (doc : UInt64) (entry : Option DocEntry) (c : Client)
    (p : Plain) : Prop where
  handle_eq : c.handle = doc
  doc_eq : c.doc = ⟨true, p.closed⟩
  open_iff : entry.isSome ↔ p.closed = false
  root_is : Element.Is root doc entry ⟨some c.doc, c.root⟩ (some p.root)
  elements : List.Forall₂ (Element.Is root doc entry) c.elements p.elements
  arrays : List.Forall₂ (fun array items => array.Is root doc entry (some (.array items))) c.arrays
    p.arrays
  objects : List.Forall₂ (fun object fields => object.Is root doc entry (some (.object fields)))
    c.objects p.objects
  arrayIters : List.Forall₂ (ArrayIter.Is root doc entry) c.arrayIters p.arrayIters
  objectIters : List.Forall₂ (ObjectIter.Is root doc entry) c.objectIters p.objectIters
  arraysApart : LeasesApart ArrayIter.way c.arrayIters
  objectsApart : LeasesApart ObjectIter.way c.objectIters

/-- The leases that a caller's iterators go through. -/
def Client.leases (c : Client) : Set UInt32 :=
  {id | (∃ it ∈ c.arrayIters, it.way.Going ∧ it.way.iter.index = id) ∨
    ∃ it ∈ c.objectIters, it.way.Going ∧ it.way.iter.index = id}

section
variable {root : Json} {doc : UInt64} {entry entry' : Option DocEntry} {c : Client} {p : Plain}
  {kept : Set UInt32}

/-- What a caller has is the same but for its iterators, and the document has gone on. -/
theorem Client.Is.move (h : c.Is root doc entry p) (hlater : Later kept entry entry')
    (hopen : entry'.isSome ↔ p.closed = false) {its : List ArrayIter} {cursors : List (Cursor Json)}
    (harrays : List.Forall₂ (ArrayIter.Is root doc entry') its cursors)
    (haapart : LeasesApart ArrayIter.way its) {its' : List ObjectIter}
    {cursors' : List (Cursor (Bytes × Json))}
    (hobjects : List.Forall₂ (ObjectIter.Is root doc entry') its' cursors')
    (hoapart : LeasesApart ObjectIter.way its') :
    Client.Is root doc entry' { c with arrayIters := its, objectIters := its' }
      { p with arrayIters := cursors, objectIters := cursors' } where
  handle_eq := h.handle_eq
  doc_eq := h.doc_eq
  open_iff := hopen
  root_is := h.root_is.later hlater
  elements := h.elements.imp fun _ _ his => his.later hlater
  arrays := h.arrays.imp fun _ _ his => his.later hlater
  objects := h.objects.imp fun _ _ his => his.later hlater
  arrayIters := harrays
  objectIters := hobjects
  arraysApart := haapart
  objectsApart := hoapart

/-- **What a caller has stays what it is** while its leases are left alone. -/
theorem Client.Is.later (h : c.Is root doc entry p) (hlater : Later kept entry entry')
    (hkept : c.leases ⊆ kept) (hopen : entry'.isSome ↔ p.closed = false) :
    c.Is root doc entry' p := by
  refine h.move hlater hopen ?_ h.arraysApart ?_ h.objectsApart
  · exact (arrayKind root doc).all_later h.arrayIters hlater fun it hmem hgoing =>
      hkept (Or.inl ⟨it, hmem, hgoing, rfl⟩)
  · exact (objectKind root doc).all_later h.objectIters hlater fun it hmem hgoing =>
      hkept (Or.inr ⟨it, hmem, hgoing, rfl⟩)

/-- The caller has closed the document. -/
theorem Client.Is.shut (h : c.Is root doc entry p) :
    Client.Is root doc none { c with doc := ⟨true, true⟩ } { p with closed := true } := by
  have hlater : Later Set.univ entry none := .none
  exact {
    handle_eq := h.handle_eq
    doc_eq := rfl
    open_iff := by simp
    root_is := ⟨rfl, fun _ he => by cases he⟩
    elements := h.elements.imp fun _ _ his => his.later hlater
    arrays := h.arrays.imp fun _ _ his => his.later hlater
    objects := h.objects.imp fun _ _ his => his.later hlater
    arrayIters := (arrayKind root doc).all_later h.arrayIters hlater fun _ _ _ => trivial
    objectIters := (objectKind root doc).all_later h.objectIters hlater fun _ _ _ => trivial
    arraysApart := h.arraysApart
    objectsApart := h.objectsApart }

/-- The caller has got elements that stand for values. -/
theorem Client.Is.hand (h : c.Is root doc entry p) {elements : List Element}
    {values : List (Option Json)}
    (hare : List.Forall₂ (Element.Is root doc entry) elements values) :
    (c.hand elements).1 = (p.hand values).1 ∧
      (c.hand elements).2.Is root doc entry (p.hand values).2 := by
  refine ⟨congrArg Answer.handed hare.length_eq, ?_⟩
  exact { h with elements := List.rel_append h.elements hare }

/-- The elements that can still be used have a value, and the others are refused. -/
theorem Client.Is.element (h : c.Is root doc entry p) {element : Element} {x : Option Json}
    (his : element.Is root doc entry x) :
    (∃ err, p.value x = .error err ∧ usableDoc (element.through c.doc) = .error err) ∨
    ∃ u e j, x = some u ∧ p.closed = false ∧ entry = some e ∧
      element.through c.doc = ⟨openDoc, element.view⟩ ∧ Names root doc e element.view u j := by
  cases x with
  | none =>
    have hnone : element.doc = none := his
    refine Or.inl ⟨.status .invalidHandle, rfl, ?_⟩
    rw [usableDoc, Element.through, hnone]
    rfl
  | some u =>
    obtain ⟨bound, hbound⟩ := Option.isSome_iff_exists.mp his.1
    cases hclosed : p.closed with
    | true =>
      refine Or.inl ⟨.closed, ?_, ?_⟩
      · rw [Plain.value, Plain.open?, hclosed]
        rfl
      · rw [usableDoc, Element.through, hbound, h.doc_eq, hclosed]
        rfl
    | false =>
      obtain ⟨e, he⟩ := Option.isSome_iff_exists.mp (h.open_iff.mpr hclosed)
      obtain ⟨j, hnames⟩ := his.2 e he
      refine Or.inr ⟨u, e, j, rfl, rfl, he, ?_, hnames⟩
      rw [Element.through, hbound, h.doc_eq, hclosed]
      rfl

end

section
variable {root : Json} {doc : UInt64} {entry entry' : Option DocEntry} {c : Client} {p : Plain}
  {i : Nat} {kept : Set UInt32}

/-- The caller has got an iterator, through a lease of its own. -/
theorem Client.Is.addArrayIter (h : c.Is root doc entry p) {it : ArrayIter} {cursor : Cursor Json}
    (hit : it.Is root doc entry cursor) (hapart : ∀ it₁ ∈ c.arrayIters, it₁.way.Going →
      it.way.Going → it₁.way.iter.index ≠ it.way.iter.index) :
    Client.Is root doc entry { c with arrayIters := c.arrayIters ++ [it] }
      { p with arrayIters := p.arrayIters ++ [cursor] } :=
  { h with
    arrayIters := List.rel_append h.arrayIters (.cons hit .nil)
    arraysApart := h.arraysApart.append hapart }

theorem Client.Is.addObjectIter (h : c.Is root doc entry p) {it : ObjectIter}
    {cursor : Cursor (Bytes × Json)} (hit : it.Is root doc entry cursor)
    (hapart : ∀ it₁ ∈ c.objectIters, it₁.way.Going → it.way.Going →
      it₁.way.iter.index ≠ it.way.iter.index) :
    Client.Is root doc entry { c with objectIters := c.objectIters ++ [it] }
      { p with objectIters := p.objectIters ++ [cursor] } :=
  { h with
    objectIters := List.rel_append h.objectIters (.cons hit .nil)
    objectsApart := h.objectsApart.append hapart }

/-- An iterator has moved, and nothing else. -/
theorem Client.Is.setArrayIter (h : c.Is root doc entry p) {it it' : ArrayIter}
    {cursor : Cursor Json} (hi : c.arrayIters[i]? = some it) (hit : it'.Is root doc entry' cursor)
    (hsame : it'.way.Going → it.way.Going ∧ it'.way.iter.index = it.way.iter.index)
    (hlater : Later kept entry entry') (hopen : entry'.isSome ↔ p.closed = false)
    (harrays : ∀ k it₁, k ≠ i → c.arrayIters[k]? = some it₁ → it₁.way.Going →
      it₁.way.iter.index ∈ kept)
    (hobjects : ∀ it₁ ∈ c.objectIters, it₁.way.Going → it₁.way.iter.index ∈ kept) :
    Client.Is root doc entry' { c with arrayIters := c.arrayIters.set i it' }
      { p with arrayIters := p.arrayIters.set i cursor } :=
  h.move hlater hopen ((arrayKind root doc).set_later h.arrayIters hit hlater harrays)
    (h.arraysApart.set hi hsame) ((objectKind root doc).all_later h.objectIters hlater hobjects)
    h.objectsApart

theorem Client.Is.setObjectIter (h : c.Is root doc entry p) {it it' : ObjectIter}
    {cursor : Cursor (Bytes × Json)} (hi : c.objectIters[i]? = some it)
    (hit : it'.Is root doc entry' cursor)
    (hsame : it'.way.Going → it.way.Going ∧ it'.way.iter.index = it.way.iter.index)
    (hlater : Later kept entry entry') (hopen : entry'.isSome ↔ p.closed = false)
    (hobjects : ∀ k it₁, k ≠ i → c.objectIters[k]? = some it₁ → it₁.way.Going →
      it₁.way.iter.index ∈ kept)
    (harrays : ∀ it₁ ∈ c.arrayIters, it₁.way.Going → it₁.way.iter.index ∈ kept) :
    Client.Is root doc entry' { c with objectIters := c.objectIters.set i it' }
      { p with objectIters := p.objectIters.set i cursor } :=
  h.move hlater hopen ((arrayKind root doc).all_later h.arrayIters hlater harrays) h.arraysApart
    ((objectKind root doc).set_later h.objectIters hit hlater hobjects)
    (h.objectsApart.set hi hsame)

end

/-! ## Answers -/

section
variable {W : Type} (sj : Simdjson W) (base : Native W) (tape : W → Nat → Option Json)
  (root : Json) (doc : UInt64) (slot : UInt32)

/-- The document is open with this entry, or it has none. -/
def Stage (entry : Option DocEntry) (s : Runtime W) : Prop :=
  ∀ e ∈ entry, Open sj base tape root doc slot s e

/-- **The call answers as the machine does.**  It never panics. -/
def Answers (c : Client) (p : Plain) (call : GoM W Outcome) (out : PlainOutcome)
    (s : Runtime W) : Prop :=
  wp call
    (fun outcome s' => outcome.1 = out.1 ∧ ∃ entry', Stage sj base tape root doc slot entry' s' ∧
      outcome.2.Is root doc entry' out.2)
    (fun stop s' => ∃ err, stop = .error err ∧ out = (.failed err, p) ∧
      ∃ entry', Stage sj base tape root doc slot entry' s' ∧ c.Is root doc entry' p) s

variable {sj base tape root doc slot} {c : Client} {p : Plain} {entry : Option DocEntry}
  {s : Runtime W}

/-- A call on something the caller has. -/
theorem answers_on {α β : Type} {R : α → β → Prop} {held : List α} {held' : List β} {i : Nat}
    {call : α → GoM W Outcome} {out : β → PlainOutcome} (hheld : List.Forall₂ R held held')
    (hs : Stage sj base tape root doc slot entry s) (hc : c.Is root doc entry p)
    (hcall : ∀ a b, held[i]? = some a → held'[i]? = some b → R a b →
      Answers sj base tape root doc slot c p (call a) (out b) s) :
    Answers sj base tape root doc slot c p (c.on held i call) (p.on held' i out) s := by
  rw [Client.on, Plain.on]
  obtain ⟨hnone, hnone'⟩ | ⟨a, b, ha, hb, hab⟩ := forall₂_getElem? hheld i
  · rw [hnone, hnone']
    exact ⟨rfl, entry, hs, hc⟩
  · rw [ha, hb]
    exact hcall a b ha hb hab

/-- The call leaves everything as it is, and ends like this. -/
def Stays {α : Type} (call : GoM W α) (r : Except AccessError α) (s : Runtime W) : Prop :=
  wp call (fun a s' => s' = s ∧ r = .ok a)
    (fun stop s' => s' = s ∧ ∃ err, stop = .error err ∧ r = .error err) s

/-- A call that leaves everything as it is. -/
theorem Stays.answers {α β : Type} {call : GoM W α} {r : Except AccessError α} {F : α → Outcome}
    {G : β → PlainOutcome} (h : Stays call r s) (r' : Except AccessError β)
    (hs : Stage sj base tape root doc slot entry s) (hc : c.Is root doc entry p)
    (hok : ∀ a, r = .ok a → ∃ b, r' = .ok b ∧ (F a).1 = (G b).1 ∧
      (F a).2.Is root doc entry (G b).2)
    (herror : ∀ err, r = .error err → r' = .error err) :
    Answers sj base tape root doc slot c p (F <$> call) (p.settle (r'.map G)) s := by
  rw [Answers, wp_map]
  refine wp_mono h ?_ ?_
  · rintro a s' ⟨rfl, ha⟩
    obtain ⟨b, rfl, hanswer, his⟩ := hok a ha
    exact ⟨hanswer, entry, hs, his⟩
  · rintro stop s' ⟨rfl, err, rfl, herr⟩
    rw [herror err herr]
    exact ⟨err, rfl, rfl, entry, hs, hc⟩

/-- A call on an element that cannot be used. -/
theorem answers_refused {α β : Type} {call : GoM W α} {err : AccessError} {F : α → Outcome}
    {G : β → PlainOutcome} (h : Stays call (.error err) s)
    (hs : Stage sj base tape root doc slot entry s) (hc : c.Is root doc entry p) :
    Answers sj base tape root doc slot c p (F <$> call)
      (p.settle ((.error err : Except AccessError β).map G)) s :=
  h.answers _ hs hc (fun _ ha => by cases ha) fun _ herr => by rw [Except.error.inj herr]

/-- **A call on an open document**, which it leaves open. -/
theorem answers_ends {e : DocEntry} {α β : Type} {call : GoM W α} {r : Except AccessError β}
    {R : DocEntry → α → β → Prop} {F : α → Outcome} {G : β → PlainOutcome}
    (hbase : Lifecycle base tape (fun _ => True) fun _ => False)
    (hsj : sj.Faithful base.memory tape) (h : Open sj base tape root doc slot s e)
    (hc : c.Is root doc (some e) p)
    (hpasses : Keeps (Passes (bridge sj base) doc slot c.leases) call)
    (hends : Ends sj base tape root doc slot call r R s)
    (hR : ∀ e' a b, c.Is root doc (some e') p → R e' a b →
      (F a).1 = (G b).1 ∧ (F a).2.Is root doc (some e') (G b).2) :
    Answers sj base tape root doc slot c p (F <$> call) (p.settle (r.map G)) s := by
  have hstage {s' : Runtime W} (hmoved : Passes (bridge sj base) doc slot c.leases s s') :
      ∃ e', Open sj base tape root doc slot s' e' ∧ c.Is root doc (some e') p := by
    obtain ⟨e', hopen, hfollows⟩ := h.passes hbase hsj hmoved
    exact ⟨e', hopen, hc.later (.of_follows hfollows) subset_rfl hc.open_iff⟩
  rw [Answers, wp_map]
  refine wp_mono (wp_and (hpasses s) hends) ?_ ?_
  · rintro a s' ⟨hmoved, hright⟩
    obtain ⟨e', hopen, hc'⟩ := hstage hmoved
    obtain ⟨b, rfl, hab⟩ := hright e' hopen
    obtain ⟨hanswer, his⟩ := hR e' a b hc' hab
    refine ⟨hanswer, some e', ?_, his⟩
    rintro e₁ ⟨⟩
    exact hopen
  · rintro stop s' ⟨hmoved, err, rfl, rfl⟩
    obtain ⟨e', hopen, hc'⟩ := hstage hmoved
    refine ⟨err, rfl, rfl, some e', ?_, hc'⟩
    rintro e₁ ⟨⟩
    exact hopen

end

end PureSimdjson.Elements
