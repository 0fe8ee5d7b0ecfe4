import PureSimdjson.Frames

/-!
# What the frame decoder asks the heap for

The decoder makes room for as many children as a frame counts before it looks for any of them,
and copies each string as long as a frame says.  One pass over the stream tells which requests
that comes to: it goes from frame to frame as long as each can stand where it does, with the
containers that are open on a stack.

`Meets` is a decoder's contract with the heap: which requests are ahead of it, and which are
left for whoever goes on.
-/
namespace PureSimdjson

/-! ## One pass over the stream -/

/-- A container whose children are being read: do they need keys, and how many are to come? -/
structure Level where
  keyed : Bool
  left : Nat

/-- The frame is the last one of a value, or opens a container. -/
def Frame.level (frame : Frame) : Level :=
  ⟨frameKind frame.kind = some .object, frame.arity⟩

/-- The frame carries a string. -/
def Frame.HasString (frame : Frame) : Prop :=
  frameKind frame.kind = some .string ∨ frameKind frame.kind = some .bigint

instance (frame : Frame) : Decidable frame.HasString :=
  inferInstanceAs (Decidable (_ ∨ _))

/-- The frame is of a known kind, and its string can be copied if it carries one. -/
def Frame.Decodable (frame : Frame) : Prop :=
  (frameKind frame.kind).isSome ∧ (frame.HasString → frame.string.Readable)

instance (frame : Frame) : Decidable frame.Decodable :=
  inferInstanceAs (Decidable (_ ∧ (_ → _)))

/-- The copy of a span, if there is anything to copy. -/
def Span.requests (span : Span) : List Request :=
  if span.len = 0 then [] else [.copy span.len]

/-- What the frame itself asks for. -/
def Frame.requests (frame : Frame) : List Request :=
  match frameKind frame.kind with
  | some .string => frame.string.requests
  | some .bigint => frame.string.requests
  | some .array => [.slice frame.childCount.toNat]
  | some .object => [.table frame.childCount.toNat]
  | _ => []

/-- What is asked for from here on, where the next frame belongs to the innermost of `levels` that
has a child to come. -/
def requestsIn : List Level → List Frame → List Request
  | _, [] => []
  | levels, frame :: frames =>
    match levels.dropWhile (·.left = 0) with
    | [] => []
    | level :: levels =>
      if level.keyed ∧ ¬ frame.key.Readable then []
      else (if level.keyed then frame.key.requests else []) ++
        if frame.Decodable then
          frame.requests ++
            requestsIn (frame.level :: ⟨level.keyed, level.left - 1⟩ :: levels) frames
        else []

/-- What is asked for from here on, where the next frame is a value behind its key. -/
def requestsAt (levels : List Level) : List Frame → List Request
  | [] => []
  | frame :: frames =>
    if frame.Decodable then frame.requests ++ requestsIn (frame.level :: levels) frames else []

/-- **What a stream asks the heap for**, up to the end of its first value or the first frame that
cannot stand where it does. -/
def requests (frames : List Frame) : List Request := requestsAt [] frames

section
variable {levels : List Level} {frames : List Frame}

@[simp] theorem requestsIn_nil : requestsIn levels [] = [] := rfl

theorem requestsIn_none : requestsIn [] frames = [] := by
  cases frames <;> rfl

/-- A container without a child to come is over. -/
theorem requestsIn_done (keyed : Bool) :
    requestsIn (⟨keyed, 0⟩ :: levels) frames = requestsIn levels frames := by
  cases frames <;> rfl

theorem requestsIn_item (left : Nat) :
    requestsIn (⟨false, left + 1⟩ :: levels) frames =
      requestsAt (⟨false, left⟩ :: levels) frames := by
  cases frames with
  | nil => rfl
  | cons frame frames => simp [requestsIn, requestsAt]

theorem requestsIn_field (left : Nat) (frame : Frame) :
    requestsIn (⟨true, left + 1⟩ :: levels) (frame :: frames) =
      if frame.key.Readable then
        frame.key.requests ++ requestsAt (⟨true, left⟩ :: levels) (frame :: frames)
      else [] := by
  simp [requestsIn, requestsAt]

theorem Frame.requests_of_hasString {frame : Frame} (h : frame.HasString) :
    frame.requests = frame.string.requests := by
  rcases h with h | h <;> rw [Frame.requests, h]

end

/-! ## Contracts -/

section
variable {H α β : Type} {heap : GoHeap H}

theorem GoHeap.grants_append (rs rs' : List Request) (h : H) :
    heap.grants (rs ++ rs') h = (heap.grants rs h).bind (heap.grants rs') := by
  simp only [GoHeap.grants, List.foldlM_append]
  rfl

/-- A heap that never runs out. -/
def GoHeap.unlimited : GoHeap Unit := fun _ _ => some ()

theorem GoHeap.grants_unlimited (rs : List Request) : unlimited.grants rs () = some () := by
  induction rs with
  | nil => rfl
  | cons r rs ih =>
    rw [GoHeap.grants, List.foldlM_cons]
    exact ih

/-- **With `ahead` ahead of it, the decoder ends in one of three ways.**  It returns something `Q`
holds of, has been granted what is ahead up to what it leaves to others, and `rest` is that; or it
returns the protocol error, and has been granted all that is ahead; or it runs out of memory, and
not all that is ahead is granted. -/
def Meets (heap : GoHeap H) (ahead : List Request) (Q : α → Prop) (rest : α → List Request)
    (h : H) : Outcome (α × H) → Prop
  | .ok (a, h') => Q a ∧ ∃ granted, ahead = granted ++ rest a ∧ heap.grants granted h = some h'
  | .error e => (∃ index kind detail, e = frameProtocolError index kind detail) ∧
      (heap.grants ahead h).isSome
  | .panic => False
  | .outOfMemory => heap.grants ahead h = none
  | .diverged => False

variable {Q : α → Prop} {ahead : List Request} {rest : α → List Request} {h : H}

theorem meets_return {a : α} (ha : Q a) (hrest : ahead = rest a) :
    Meets heap ahead Q rest h ((return a : DecodeM H α) h) :=
  ⟨ha, [], hrest, rfl⟩

theorem meets_fail (index : Nat) (kind : UInt32) (detail : String) :
    Meets heap [] Q rest h (fail (frameProtocolError index kind detail) h) :=
  ⟨⟨index, kind, detail, rfl⟩, rfl⟩

theorem meets_request (r : Request) :
    Meets heap (r :: ahead) (fun _ : Unit => True) (fun _ => ahead) h (request heap r h) := by
  have hone : heap.grants [r] h = heap r h := by
    simp [GoHeap.grants]
  have hall : heap.grants (r :: ahead) h = (heap r h).bind (heap.grants ahead) := by
    rw [← List.singleton_append, GoHeap.grants_append, hone]
  rw [request]
  cases hr : heap r h with
  | none =>
    rw [hr] at hall
    exact hall
  | some h' => exact ⟨trivial, [r], rfl, hone.trans hr⟩

/-- What the first part leaves is ahead of the second. -/
theorem Meets.bind {m : DecodeM H α} {k : α → DecodeM H β} {P : β → Prop}
    {rest' : β → List Request} (hm : Meets heap ahead Q rest h (m h))
    (hk : ∀ a h', Q a → Meets heap (rest a) P rest' h' (k a h')) :
    Meets heap ahead P rest' h ((m >>= k) h) := by
  show Meets heap ahead P rest' h ((m h).bind fun p => k p.1 p.2)
  generalize m h = r at hm
  cases r with
  | ok p =>
    obtain ⟨a, h'⟩ := p
    obtain ⟨ha, granted, rfl, hgranted⟩ := hm
    have hall : heap.grants (granted ++ rest a) h = heap.grants (rest a) h' := by
      rw [GoHeap.grants_append, hgranted]
      rfl
    have hafter := hk a h' ha
    show Meets heap (granted ++ rest a) P rest' h (k a h')
    generalize k a h' = r at hafter
    cases r with
    | ok p =>
      obtain ⟨b, h''⟩ := p
      obtain ⟨hb, granted', hrest, hgranted'⟩ := hafter
      refine ⟨hb, granted ++ granted', by rw [hrest, List.append_assoc], ?_⟩
      rw [GoHeap.grants_append, hgranted]
      exact hgranted'
    | error e => exact ⟨hafter.1, hall ▸ hafter.2⟩
    | panic => exact hafter
    | outOfMemory => exact hall.trans hafter
    | diverged => exact hafter
  | error e => exact hm
  | panic => exact hm
  | outOfMemory => exact hm
  | diverged => exact hm

theorem Meets.mono {P : α → Prop} {r : Outcome (α × H)} (hr : Meets heap ahead Q rest h r)
    (hQP : ∀ a, Q a → P a) : Meets heap ahead P rest h r := by
  cases r with
  | ok p => exact ⟨hQP p.1 hr.1, hr.2⟩
  | error e => exact hr
  | panic => exact hr
  | outOfMemory => exact hr
  | diverged => exact hr

/-- **The result is `a`**, unless there is no memory for it. -/
def Yields (a : α) : Outcome (α × H) → Prop
  | .ok (b, _) => b = a
  | .outOfMemory => True
  | _ => False

theorem yields_return (a : α) (h : H) : Yields a ((return a : DecodeM H α) h) := rfl

theorem yields_request (r : Request) (h : H) : Yields () (request heap r h) := by
  rw [request]
  cases heap r h with
  | none => trivial
  | some h' => rfl

theorem Yields.bind {m : DecodeM H α} {k : α → DecodeM H β} {a : α} {b : β}
    (hm : Yields a (m h)) (hk : ∀ h', Yields b (k a h')) : Yields b ((m >>= k) h) := by
  show Yields b ((m h).bind fun p => k p.1 p.2)
  generalize m h = r at hm
  cases r with
  | ok p =>
    obtain ⟨a', h'⟩ := p
    obtain rfl : a' = a := hm
    exact hk h'
  | outOfMemory => trivial
  | error e => exact hm
  | panic => exact hm
  | diverged => exact hm

/-- What is there in a frame is read without asking for anything. -/
@[simp] theorem return_bind (a : α) (k : α → DecodeM H β) :
    ((return a : DecodeM H α) >>= k) = k a := rfl

end

end PureSimdjson
