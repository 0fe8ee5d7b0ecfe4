import PureSimdjson.Texts

/-!
# Checksum files

The digest of an artifact is looked up in a file `SHA256SUMS` at two places: when it is
downloaded, and when what was downloaded is verified with the file next to it.
-/
namespace PureSimdjson.Bootstrap

open Texts

/-- What a reader says of an artifact. -/
inductive SumsResult where
  | digest (digest : Text)
  | absent
  | invalid
  deriving DecidableEq

/-- `LooksLikeSHA256Hex` -/
def looksLikeSHA256Hex (raw : Text) : Bool :=
  len raw = 64 && raw.all fun
    | .char c => ('0' ≤ c && c ≤ '9') || ('a' ≤ c && c ≤ 'f')
    | .byte _ => false

/-- The end of both readers: what was scanned has no entry. -/
def scanEnd (tooLong : Bool) : SumsResult := if tooLong then .invalid else .absent

/-- The digest of an entry, if it is one. -/
def entryDigest (digest : Text) : SumsResult :=
  if looksLikeSHA256Hex digest then .digest digest else .invalid

/-- The lines of `parseChecksumFromSHA256SUMS`. -/
def parseChecksumLines (key : Text) (tooLong : Bool) : List Text → SumsResult
  | [] => scanEnd tooLong
  | raw :: lines =>
      let line := trimSpace raw
      if line = [] then parseChecksumLines key tooLong lines
      else
        match fields line with
        | [digest, name] =>
            if name ≠ key then parseChecksumLines key tooLong lines
            else entryDigest (toLower (trimSpace digest))
        | _ => .invalid

/-- `parseChecksumFromSHA256SUMS` -/
def parseChecksumFromSHA256SUMS (body key : Text) : SumsResult :=
  let (lines, tooLong) := scanLines [] body
  parseChecksumLines key tooLong lines

/-- The lines of `checksumFromLocalSums`. -/
def localChecksumLines (key : Text) (tooLong : Bool) : List Text → SumsResult
  | [] => scanEnd tooLong
  | line :: lines =>
      match fields line with
      | [digest, name] =>
          if name ≠ key then localChecksumLines key tooLong lines
          else entryDigest (toLower digest)
      | _ => localChecksumLines key tooLong lines

/-- `checksumFromLocalSums`, on a file that is there. -/
def checksumFromLocalSums (body key : Text) : SumsResult :=
  let (lines, tooLong) := scanLines [] body
  localChecksumLines key tooLong lines

/-- The line is the artifact's entry. -/
def isEntry (key line : Text) : Bool :=
  match fields line with
  | [_, name] => name = key
  | _ => false

/-- The line is neither blank nor an entry of any artifact. -/
def Malformed (line : Text) : Prop := fields line ≠ [] ∧ (fields line).length ≠ 2

/-- What stands from the artifact's entry on is invalid by itself: the digest is none, or
there is no entry and a line was too long. -/
def InvalidFrom (tooLong : Bool) : List Text → Prop
  | [] => tooLong = true
  | entry :: _ =>
      ∃ digest name, fields entry = [digest, name] ∧ looksLikeSHA256Hex (toLower digest) = false

/-- No malformed line stands before the artifact's entry, or the file is invalid anyway. -/
def AgreedOn (key : Text) (tooLong : Bool) (lines : List Text) : Prop :=
  (∀ line ∈ lines.takeWhile (! isEntry key ·), ¬ Malformed line) ∨
    InvalidFrom tooLong (lines.dropWhile (! isEntry key ·))

/-! ## One line -/

section
variable {key line : Text} {lines : List Text} {tooLong : Bool}

/-- What a line is to either reader. -/
theorem line_cases (key line : Text) :
    (fields line = [] ∧ isEntry key line = false) ∨
      (∃ digest name, fields line = [digest, name] ∧ isEntry key line = decide (name = key)) ∨
      (Malformed line ∧ isEntry key line = false) := by
  rw [isEntry, Malformed]
  match hfields : fields line with
  | [] => exact Or.inl ⟨rfl, rfl⟩
  | [_] => exact Or.inr (Or.inr ⟨by simp, rfl⟩)
  | [digest, name] => exact Or.inr (Or.inl ⟨digest, name, rfl, rfl⟩)
  | _ :: _ :: _ :: _ => exact Or.inr (Or.inr ⟨by simp, rfl⟩)

theorem parse_blank (h : fields line = []) :
    parseChecksumLines key tooLong (line :: lines) = parseChecksumLines key tooLong lines := by
  rw [parseChecksumLines]
  exact if_pos ((fields_eq_nil_iff line).mp h)

/-- The trimmed line has the fields of the line, and its digest is trimmed already. -/
theorem parse_pair {digest name : Text} (h : fields line = [digest, name]) :
    parseChecksumLines key tooLong (line :: lines) =
      if name ≠ key then parseChecksumLines key tooLong lines
      else entryDigest (toLower digest) := by
  have hne : trimSpace line ≠ [] := by
    rw [Ne, ← fields_eq_nil_iff, h]
    exact List.cons_ne_nil _ _
  have hdigest : trimSpace digest = digest :=
    trimSpace_of_mem_fields (h ▸ List.mem_cons_self)
  simp only [parseChecksumLines, if_neg hne, fields_trimSpace, h, hdigest]

theorem parse_malformed (h : Malformed line) :
    parseChecksumLines key tooLong (line :: lines) = .invalid := by
  have hne : trimSpace line ≠ [] := by
    rw [Ne, ← fields_eq_nil_iff]
    exact h.1
  simp only [parseChecksumLines, if_neg hne, fields_trimSpace]
  split
  · next hfields => exact absurd (by rw [hfields]; rfl) h.2
  · rfl

theorem local_pair {digest name : Text} (h : fields line = [digest, name]) :
    localChecksumLines key tooLong (line :: lines) =
      if name ≠ key then localChecksumLines key tooLong lines
      else entryDigest (toLower digest) := by
  simp only [localChecksumLines, h]

theorem local_skip (h : (fields line).length ≠ 2) :
    localChecksumLines key tooLong (line :: lines) = localChecksumLines key tooLong lines := by
  rw [localChecksumLines]
  split
  · next hfields => exact absurd (by rw [hfields]; rfl) h
  · rfl

end

/-! ## The readers -/

theorem entryDigest_eq_invalid_iff (digest : Text) :
    entryDigest digest = .invalid ↔ looksLikeSHA256Hex digest = false := by
  rw [entryDigest]
  split <;> simp_all

/-- The local reader finds a file invalid for its entry, and for nothing before that. -/
theorem local_eq_invalid_iff (key : Text) (tooLong : Bool) (lines : List Text) :
    localChecksumLines key tooLong lines = .invalid ↔
      InvalidFrom tooLong (lines.dropWhile (! isEntry key ·)) := by
  induction lines with
  | nil => cases tooLong <;> simp [localChecksumLines, scanEnd, InvalidFrom]
  | cons line lines ih =>
    rw [List.dropWhile_cons]
    rcases line_cases key line with ⟨hfields, hno⟩ | ⟨digest, name, hfields, hentry⟩ | ⟨hbad, hno⟩
    · rw [hno, local_skip (by rw [hfields]; decide)]
      exact ih
    · rw [hentry, local_pair hfields]
      by_cases hname : name = key
      · simp [hname, InvalidFrom, hfields, entryDigest_eq_invalid_iff]
      · simpa [hname] using ih
    · rw [hno, local_skip hbad.2]
      exact ih

/-- With no malformed line before the entry the readers read the same. -/
theorem parse_eq_local {key : Text} {tooLong : Bool} {lines : List Text}
    (h : ∀ line ∈ lines.takeWhile (! isEntry key ·), ¬ Malformed line) :
    parseChecksumLines key tooLong lines = localChecksumLines key tooLong lines := by
  induction lines with
  | nil => rfl
  | cons line lines ih =>
    rw [List.takeWhile_cons] at h
    rcases line_cases key line with ⟨hfields, hno⟩ | ⟨digest, name, hfields, hentry⟩ | ⟨hbad, hno⟩
    · rw [parse_blank hfields, local_skip (by rw [hfields]; decide)]
      rw [hno] at h
      exact ih fun line hline => h line (List.mem_cons_of_mem _ hline)
    · rw [parse_pair hfields, local_pair hfields]
      by_cases hname : name = key
      · rw [if_neg (not_not_intro hname), if_neg (not_not_intro hname)]
      · rw [hentry, decide_eq_false hname] at h
        rw [if_pos hname, if_pos hname]
        exact ih fun line hline => h line (List.mem_cons_of_mem _ hline)
    · rw [hno] at h
      exact absurd hbad (h line List.mem_cons_self)

/-- With one, the reader at bootstrap finds the file invalid. -/
theorem parse_eq_invalid {key line : Text} {tooLong : Bool} {lines : List Text}
    (hline : line ∈ lines.takeWhile (! isEntry key ·)) (hbad : Malformed line) :
    parseChecksumLines key tooLong lines = .invalid := by
  induction lines with
  | nil => cases hline
  | cons first lines ih =>
    rw [List.takeWhile_cons] at hline
    rcases line_cases key first with ⟨hfields, hno⟩ | ⟨digest, name, hfields, hentry⟩ | ⟨hfirst, -⟩
    · rw [parse_blank hfields]
      rw [hno] at hline
      rcases List.mem_cons.mp hline with rfl | hline
      · exact absurd hfields hbad.1
      · exact ih hline
    · by_cases hname : name = key
      · rw [hentry, decide_eq_true hname] at hline
        cases hline
      · rw [hentry, decide_eq_false hname] at hline
        rw [parse_pair hfields, if_pos hname]
        rcases List.mem_cons.mp hline with rfl | hline
        · exact absurd (by rw [hfields]; rfl) hbad.2
        · exact ih hline
    · exact parse_malformed hfirst

/-- **The two readers agree exactly where no malformed line stands before the entry, or the
file is invalid anyway.** -/
theorem sums_readers_agree_iff (body key : Text) :
    parseChecksumFromSHA256SUMS body key = checksumFromLocalSums body key ↔
      AgreedOn key (scanLines [] body).2 (scanLines [] body).1 := by
  show parseChecksumLines key (scanLines [] body).2 (scanLines [] body).1 =
    localChecksumLines key (scanLines [] body).2 (scanLines [] body).1 ↔ _
  rw [AgreedOn]
  generalize (scanLines [] body).1 = lines
  generalize (scanLines [] body).2 = tooLong
  by_cases hclean : ∀ line ∈ lines.takeWhile (! isEntry key ·), ¬ Malformed line
  · exact iff_of_true (parse_eq_local hclean) (Or.inl hclean)
  · push Not at hclean
    obtain ⟨line, hline, hbad⟩ := hclean
    rw [parse_eq_invalid hline hbad, eq_comm, local_eq_invalid_iff]
    refine ⟨Or.inr, fun h => h.resolve_left fun hclean => hclean line hline hbad⟩

/-! ## A sample -/

def sampleKey : Text := text "v0.1.4/linux-amd64/libpure_simdjson.so"

def sampleDigest : Text := List.replicate 64 (.char 'a')

/-- A line of one word, and the artifact's entry. -/
def sampleSums : Text := text "note\n" ++ sampleDigest ++ text "  " ++ sampleKey ++ text "\n"

/-- The line before the entry is an error to the one reader and nothing to the other. -/
theorem sums_readers_counterexample :
    parseChecksumFromSHA256SUMS sampleSums sampleKey = .invalid ∧
      checksumFromLocalSums sampleSums sampleKey = .digest sampleDigest ∧
      parseChecksumFromSHA256SUMS sampleSums sampleKey ≠
        checksumFromLocalSums sampleSums sampleKey := by
  decide +kernel

end PureSimdjson.Bootstrap
