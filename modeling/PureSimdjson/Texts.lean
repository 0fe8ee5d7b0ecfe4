import Mathlib

/-!
# Text

A Go string is read rune by rune: a character, or a byte that belongs to none.  The functions
here are those of `strings`, `strconv` and `bufio` that split such text up.
-/
namespace Texts

/-- What `range` over a string yields: a character, or a byte that starts none. -/
inductive Rune where
  | char (c : Char)
  | byte (b : UInt8)
  deriving DecidableEq

abbrev Text := List Rune

/-- The text of a literal. -/
def text (s : String) : Text := s.toList.map .char

/-- `len` of the string of one rune. -/
def Rune.len : Rune → Nat
  | .char c => c.utf8Size
  | .byte _ => 1

def len (t : Text) : Nat := (t.map Rune.len).sum

/-- `unicode.IsSpace` -/
def Rune.isSpace : Rune → Bool
  | .char c =>
      let n := c.toNat
      (0x09 ≤ n && n ≤ 0x0D) || n = 0x20 || n = 0x85 || n = 0xA0 || n = 0x1680 ||
        (0x2000 ≤ n && n ≤ 0x200A) || n = 0x2028 || n = 0x2029 || n = 0x202F || n = 0x205F ||
        n = 0x3000
  | .byte _ => false

/-! ## Fields -/

section
variable {α : Type} (space : α → Bool)

/-- What is left when the spaces at both ends are dropped. -/
def trim (t : List α) : List α := (t.dropWhile space).rdropWhile space

/-- The runs of other things between the spaces; `field` is the run that is open. -/
def splitFields (field : List α) : List α → List (List α)
  | [] => if field = [] then [] else [field]
  | a :: t =>
      if space a then
        if field = [] then splitFields [] t else field :: splitFields [] t
      else splitFields (field ++ [a]) t

variable {space}

theorem splitFields_dropWhile (t : List α) :
    splitFields space [] (t.dropWhile space) = splitFields space [] t := by
  induction t with
  | nil => rfl
  | cons a t ih =>
    rw [List.dropWhile_cons]
    by_cases ha : space a = true
    · rw [if_pos ha, ih, splitFields, if_pos ha, if_pos rfl]
    · rw [if_neg ha]

theorem splitFields_concat {a : α} (ha : space a = true) (field t : List α) :
    splitFields space field (t ++ [a]) = splitFields space field t := by
  induction t generalizing field with
  | nil =>
    show (if space a = true then if field = [] then splitFields space [] []
      else field :: splitFields space [] [] else _) = _
    rw [if_pos ha, splitFields, if_pos rfl, splitFields]
  | cons b t ih =>
    rw [List.cons_append, splitFields, splitFields]
    split
    · rw [ih]
    · exact ih _

theorem splitFields_rdropWhile (field t : List α) :
    splitFields space field (t.rdropWhile space) = splitFields space field t := by
  induction t using List.reverseRecOn with
  | nil => rw [List.rdropWhile_nil]
  | append_singleton t a ih =>
    by_cases ha : space a = true
    · rw [List.rdropWhile_concat_pos _ _ _ ha, ih, splitFields_concat ha]
    · rw [List.rdropWhile_concat_neg _ _ _ ha]

/-- **Spaces at the ends make no fields.** -/
theorem splitFields_trim (t : List α) :
    splitFields space [] (trim space t) = splitFields space [] t := by
  rw [trim, splitFields_rdropWhile, splitFields_dropWhile]

/-- A field has no spaces in it. -/
theorem not_space_of_mem_splitFields {field t f : List α} {a : α}
    (hfield : ∀ a ∈ field, space a = false) (hf : f ∈ splitFields space field t) (ha : a ∈ f) :
    space a = false := by
  induction t generalizing field with
  | nil =>
    rw [splitFields] at hf
    split at hf
    · cases hf
    · obtain rfl := List.mem_singleton.mp hf
      exact hfield a ha
  | cons b t ih =>
    rw [splitFields] at hf
    split at hf
    · split at hf
      · exact ih (fun _ h => absurd h List.not_mem_nil) hf
      · rcases List.mem_cons.mp hf with rfl | hf
        · exact hfield a ha
        · exact ih (fun _ h => absurd h List.not_mem_nil) hf
    · next hb =>
      refine ih (fun c hc => ?_) hf
      rcases List.mem_append.mp hc with hc | hc
      · exact hfield c hc
      · obtain rfl := List.mem_singleton.mp hc
        exact Bool.eq_false_of_not_eq_true hb

/-- Without spaces there is nothing to trim. -/
theorem trim_eq_self {t : List α} (h : ∀ a ∈ t, space a = false) : trim space t = t := by
  have hdrop : t.dropWhile space = t := by
    cases t with
    | nil => rfl
    | cons a t => rw [List.dropWhile_cons, h a List.mem_cons_self]; rfl
  rw [trim, hdrop, List.rdropWhile_eq_self_iff]
  intro hne
  rw [h _ (List.getLast_mem hne)]
  exact Bool.false_ne_true

/-- Where there is something besides spaces, there is a field. -/
theorem splitFields_ne_nil {field t : List α} (h : field ≠ [] ∨ ∃ a ∈ t, space a = false) :
    splitFields space field t ≠ [] := by
  induction t generalizing field with
  | nil =>
    obtain h | ⟨a, ha, -⟩ := h
    · rw [splitFields, if_neg h]
      exact List.cons_ne_nil _ _
    · cases ha
  | cons b t ih =>
    rw [splitFields]
    by_cases hb : space b = true
    · rw [if_pos hb]
      by_cases hfield : field = []
      · rw [if_pos hfield]
        obtain h | ⟨a, ha, hspace⟩ := h
        · exact absurd hfield h
        · rcases List.mem_cons.mp ha with rfl | ha
          · rw [hb] at hspace
            cases hspace
          · exact ih (Or.inr ⟨a, ha, hspace⟩)
      · rw [if_neg hfield]
        exact List.cons_ne_nil _ _
    · rw [if_neg hb]
      exact ih (Or.inl (by simp))

/-- **A text with nothing left of it has no fields**, and only such a text. -/
theorem splitFields_eq_nil_iff (t : List α) : splitFields space [] t = [] ↔ trim space t = [] := by
  constructor
  · intro hnil
    by_contra hne
    refine @splitFields_ne_nil _ _ [] _ (Or.inr ?_) hnil
    by_contra hall
    refine hne ?_
    rw [trim, List.rdropWhile_eq_nil_iff]
    intro a ha
    refine Bool.not_eq_false _ ▸ fun hspace => hall ⟨a, ?_, hspace⟩
    exact (List.dropWhile_suffix _).subset ha
  · intro hnil
    rw [← splitFields_trim, hnil, splitFields, if_pos rfl]

end

/-- `strings.TrimSpace` -/
def trimSpace : Text → Text := trim Rune.isSpace

/-- `strings.Fields` -/
def fields (t : Text) : List Text := splitFields Rune.isSpace [] t

theorem fields_trimSpace (t : Text) : fields (trimSpace t) = fields t :=
  splitFields_trim t

theorem fields_eq_nil_iff (t : Text) : fields t = [] ↔ trimSpace t = [] :=
  splitFields_eq_nil_iff t

theorem trimSpace_of_mem_fields {t f : Text} (h : f ∈ fields t) : trimSpace f = f :=
  trim_eq_self fun _ => not_space_of_mem_splitFields (fun _ h => absurd h List.not_mem_nil) h

/-- The rune `unicode.ToLower` makes of one, where an ASCII rune comes out of it: ASCII letters,
`U+0130` and `U+212A` are lowered, and other letters stay as they are.  The callers look for
ASCII words or hex digits in the result, which no other letter makes or hides; only an error
that quotes a digest would show one. -/
def Rune.toLower : Rune → Rune
  | .char c => if c.toNat = 0x130 then .char 'i' else if c.toNat = 0x212A then .char 'k'
      else .char c.toLower
  | r => r

/-- `strings.ToLower` -/
def toLower (t : Text) : Text := t.map Rune.toLower

/-! ## Lines -/

/-- A line without the carriage return at its end. -/
def dropCR (line : Text) : Text :=
  if line.getLast? = some (.char '\r') then line.dropLast else line

/-- `bufio.MaxScanTokenSize` -/
def maxScanTokenSize : Nat := 64 * 1024

/-- What a `bufio.Scanner` scans: the lines, up to one that does not fit its buffer, and
whether there was such a line; `line` is the line that is open. -/
def scanLines (line : Text) : Text → List Text × Bool
  | [] =>
      if line = [] then ([], false)
      else if maxScanTokenSize ≤ len line then ([], true)
      else ([dropCR line], false)
  | r :: t =>
      if r = .char '\n' then
        if maxScanTokenSize ≤ len line then ([], true)
        else
          let (lines, tooLong) := scanLines [] t
          (dropCR line :: lines, tooLong)
      else scanLines (line ++ [r]) t

/-! ## Numbers -/

/-- The digit a rune stands for. -/
def Rune.digit : Rune → Option Nat
  | .char c => if c.isDigit then some (c.toNat - '0'.toNat) else none
  | .byte _ => none

/-- The number that digits stand for. -/
def digits : Text → Option Nat
  | [] => none
  | t => t.foldlM (fun n r => (10 * n + ·) <$> r.digit) 0

/-- The number that a sign and digits stand for. -/
def signedDigits : Text → Option Int
  | .char '-' :: t => (fun n : Nat => -(n : Int)) <$> digits t
  | .char '+' :: t => (fun n : Nat => (n : Int)) <$> digits t
  | t => (fun n : Nat => (n : Int)) <$> digits t

/-- `strconv.Atoi`, where `int` has 64 bits. -/
def atoi (t : Text) : Option Int :=
  (signedDigits t).filter fun n => -2 ^ 63 ≤ n ∧ n < 2 ^ 63

/-- A number that is read fits the word. -/
theorem atoi_bounds {t : Text} {n : Int} (h : atoi t = some n) : -2 ^ 63 ≤ n ∧ n < 2 ^ 63 := by
  rw [atoi, Option.filter_eq_some_iff] at h
  exact of_decide_eq_true h.2

end Texts
