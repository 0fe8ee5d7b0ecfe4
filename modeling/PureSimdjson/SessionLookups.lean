import PureSimdjson.SessionAnswers

/-!
# What the lookups on an open document find

A lookup hands out a view of a new index, which the document's entry has then issued; so the
view stands for the value that the lookup finds from the value of the element, and goes on
standing for it.
-/
namespace PureSimdjson.Elements

open Effect Json Runs

/-- The element stands for the value, as long as the document has an entry; `Element{}` is not
one of a document. -/
def Element.Is (root : Json) (doc : UInt64) (entry : Option DocEntry) (element : Element) :
    Option Json → Prop
  | none => element.doc = none
  | some u => element.doc.isSome ∧ ∀ e ∈ entry, ∃ j, Names root doc e element.view u j

section
variable {W : Type} (sj : Simdjson W) (base : Native W) (tape : W → Nat → Option Json)
  (root : Json) (doc : UInt64) (slot : UInt32)

/-- The call ends as it should, and what it returns is right by the entry it leaves. -/
def Ends {α β : Type} (call : GoM W α) (r : Except AccessError β) (R : DocEntry → α → β → Prop)
    (s : Runtime W) : Prop :=
  wp call
    (fun a s' => ∀ entry', Open sj base tape root doc slot s' entry' →
      ∃ b, r = .ok b ∧ R entry' a b)
    (fun stop _ => ∃ err, stop = .error err ∧ r = .error err) s

variable {sj base tape root doc slot} {s : Runtime W}

theorem Tells.ends {α : Type} {call : GoM W α} {r : Except AccessError α} (h : Tells call r s) :
    Ends sj base tape root doc slot call r (fun _ a b => a = b) s :=
  wp_mono h (fun a _ hr _ _ => ⟨a, hr, rfl⟩) fun _ _ => id

end

section
variable {W : Type} {sj : Simdjson W} {base : Native W} {tape : W → Nat → Option Json}
  {blocks : W → Set Nat} {root u : Json} {slot : UInt32} {entry : DocEntry} {s : Runtime W}
  {view : ValueView} {j : Nat} {values : Dom Json}

/-- A lookup ends as simdjson's does, and issues the index that it finds. -/
theorem wp_lookup (hsj : sj.Faithful base.memory tape)
    (h : Open sj base tape root view.doc slot s entry) (hok : DocOk root entry)
    {read : ElementRead Nat} {x : Except SimdjsonError Nat} {y : Except SimdjsonError Json}
    (hread : readElement sj (sj.document s.native entry.nativePtr) s.native entry.nativePtr j read =
      getOrReturn x) (hxy : Agree root.At x y) :
    wp (do
        let k ← onDoc (nativeLookup (bridge sj base) read · j)
        encodeDescendantView (bridge sj base) view.doc k)
      (fun found e => ∃ k v, y = .ok v ∧ root.At k v ∧ found = elementView view.doc k v ∧
        e = ({ entry with descendantIndices := insert k entry.descendantIndices }, s.native))
      (fun rc _ => ∃ error, y = .error error ∧ rc = mapError error) (entry, s.native) := by
  rw [wp_bind, wp_onDoc, nativeLookup, wp_bind, wp_bridgeRead hsj h.root_eq hread, wp_getOrReturn]
  obtain ⟨k, v, rfl, rfl, hat⟩ | ⟨error, rfl, rfl⟩ := hxy.outcomes
  · refine ⟨fun a ha => ?_, fun error herror => by cases herror⟩
    cases ha
    have hrange := hat.range
    rw [wp_orInternal]
    refine ⟨fun _ => ?_, fun hzero => absurd (by simp; omega) hzero⟩
    exact wp_encodeElement hsj h.root_eq hat rfl hok ⟨k, v, rfl, hat, rfl, rfl⟩
  · refine ⟨fun a ha => (by cases ha), fun error' herror => ?_⟩
    cases herror
    exact ⟨error, rfl, rfl⟩

variable (hbase : Lifecycle base tape (fun _ => True) fun _ => False)
  (hsj : sj.Faithful base.memory tape) (hblocks : Allocates base blocks)
  (hvalues : sj.ByValue tape values) (h : Open sj base tape root view.doc slot s entry)
  (hn : Names root view.doc entry view u j)

/-- What a call that looks up one element guarantees. -/
def Finds (sj : Simdjson W) (base : Native W) (tape : W → Nat → Option Json) (root : Json)
    (doc : UInt64) (slot : UInt32) (call : RuntimeM W ValueView) (y : Except SimdjsonError Json)
    (s : Runtime W) : Prop :=
  wp call
    (fun found s' => ∀ entry', Open sj base tape root doc slot s' entry' →
      ∃ v, y = .ok v ∧ ∃ k, Names root doc entry' found v k)
    (fun rc _ => ∃ error, y = .error error ∧ rc = mapError error) s

include hbase hsj hblocks h hn

theorem finds_of_lookup {read : ElementRead Nat} {x : Except SimdjsonError Nat}
    {y : Except SimdjsonError Json} (before : Nat → DocM W Unit)
    (hbefore : ∀ {Q : Unit → DocEntry × W → Prop} {E : ErrorCode → DocEntry × W → Prop},
      Q () (entry, s.native) → wp (before j) Q E (entry, s.native))
    (hread : readElement sj (sj.document s.native entry.nativePtr) s.native entry.nativePtr j read =
      getOrReturn x) (hxy : Agree root.At x y) :
    Finds sj base tape root view.doc slot (withResolvedView (some view) fun jsonIndex doc => do
      before jsonIndex
      let k ← onDoc (nativeLookup (bridge sj base) read · jsonIndex)
      encodeDescendantView (bridge sj base) doc k) y s := by
  rw [Finds, wp_withResolvedView_of_resolves (hn.resolves h.live), wp_bind]
  refine hbefore (wp_mono (wp_lookup hsj h (h.ready hbase hsj hblocks).docOk hread hxy) ?_ ?_)
  · rintro found e ⟨k, v, rfl, hat, rfl, rfl⟩ entry' hopen
    have hlive : DocLive (s.registry.setDoc (slotIndex slot) (.occupied { entry with
        descendantIndices := insert k entry.descendantIndices })) view.doc slot
        { entry with descendantIndices := insert k entry.descendantIndices } :=
      h.live.set_self rfl rfl
    obtain rfl := hopen.live.unique hlive
    exact ⟨v, rfl, k, (hopen.ready hbase hsj hblocks).names hat (Finset.mem_insert_self _ _)⟩
  · rintro rc - ⟨error, rfl, rfl⟩
    exact ⟨error, rfl, rfl⟩

include hvalues

theorem finds_elementAtPointer (pointer : Bytes) :
    Finds sj base tape root view.doc slot
      (PureSimdjson.elementAtPointer (bridge sj base) (some view) pointer)
      (values.atPointer u pointer) s :=
  finds_of_lookup hbase hsj hblocks h hn (fun _ => pure ()) (fun hq => hq) rfl
    ((hvalues _ _ _ _ _ h.root_eq hn.at_eq).atPointer pointer)

theorem finds_elementAtPath (path : Bytes) :
    Finds sj base tape root view.doc slot
      (PureSimdjson.elementAtPath (bridge sj base) (some view) path) (values.atPath u path) s :=
  finds_of_lookup hbase hsj hblocks h hn (fun _ => pure ()) (fun hq => hq) rfl
    ((hvalues _ _ _ _ _ h.root_eq hn.at_eq).atPath path)

theorem finds_arrayAt {items : List Json} (hu : u = .array items) (index : Nat) :
    Finds sj base tape root view.doc slot
      (PureSimdjson.arrayAt (bridge sj base) (some view) index) (itemAt items index) s := by
  have hmirrors := hvalues _ _ _ _ _ h.root_eq hn.at_eq
  have hat := hn.at_eq
  subst hu
  obtain ⟨-, children, hchildren, -⟩ := hsj.shows _ _ _ _ _ h.root_eq hat
  refine finds_of_lookup hbase hsj hblocks h hn (requireKind (bridge sj base) .array)
    (fun hq => wp_requireKind_of_kind hsj h.root_eq hat rfl rfl hq) ?_
    (hmirrors.atIndex items index rfl)
  rw [readElement, hchildren]
  rfl

theorem finds_objectGetField {fields : List (Bytes × Json)} (hu : u = .object fields)
    (key : Bytes) :
    Finds sj base tape root view.doc slot
      (objectGetField (bridge sj base) (some view) key) (fieldAt fields key) s := by
  have hmirrors := hvalues _ _ _ _ _ h.root_eq hn.at_eq
  have hat := hn.at_eq
  subst hu
  obtain ⟨-, children, hchildren, -⟩ := hsj.shows _ _ _ _ _ h.root_eq hat
  refine finds_of_lookup hbase hsj hblocks h hn (requireKind (bridge sj base) .object)
    (fun hq => wp_requireKind_of_kind hsj h.root_eq hat rfl rfl hq) ?_
    (hmirrors.atKey fields key rfl)
  rw [readElement, hchildren]
  rfl

end

end PureSimdjson.Elements
