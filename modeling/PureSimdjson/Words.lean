import Mathlib

/-!
# Spans of machine words

A span is a start address and a length, both machine words of any width, so its end may
not be a word.  Its bytes are a set of natural numbers, where nothing wraps; programs
compare words instead.  Two ways of telling whether spans meet, by their ends and by the
distance of their starts, are related to the sets here.

`addChecked` and `subChecked` are the operations that a proof can see wrap.
-/
namespace Words

variable {w : Nat}

/-! ## Arithmetic -/

/-- The sum, unless it wraps. -/
def addChecked (x y : BitVec w) : Option (BitVec w) :=
  if x.toNat + y.toNat < 2 ^ w then some (x + y) else none

/-- The difference, unless it wraps. -/
def subChecked (x y : BitVec w) : Option (BitVec w) := if y ≤ x then some (x - y) else none

theorem addChecked_of_lt {x y : BitVec w} (h : x.toNat + y.toNat < 2 ^ w) :
    addChecked x y = some (x + y) := if_pos h

theorem subChecked_of_le {x y : BitVec w} (h : y ≤ x) : subChecked x y = some (x - y) := if_pos h

/-- The largest word. -/
abbrev maxWord (w : Nat) : BitVec w := BitVec.allOnes w

theorem toNat_lt_of_le_maxWord {n : Nat} (h : n ≤ (maxWord w).toNat) : n < 2 ^ w := by
  rw [BitVec.toNat_allOnes] at h
  have := Nat.two_pow_pos w
  omega

theorem toNat_ne_zero {x : BitVec w} (h : x ≠ 0) : x.toNat ≠ 0 := by
  intro hzero
  exact h (BitVec.eq_of_toNat_eq (by simpa using hzero))

theorem le_maxWord (x : BitVec w) : x ≤ maxWord w := by
  rw [BitVec.le_def, BitVec.toNat_allOnes]
  have := x.isLt
  omega

/-! ## Spans -/

/-- `len` bytes from `start` on. -/
structure WordSpan (w : Nat) where
  start : BitVec w
  len : BitVec w
  deriving DecidableEq

namespace WordSpan

/-- The addresses of the bytes. -/
def bytes (a : WordSpan w) : Set Nat := Set.Ico a.start.toNat (a.start.toNat + a.len.toNat)

/-- The end is an address. -/
def Fits (a : WordSpan w) : Prop := a.start.toNat + a.len.toNat ≤ (maxWord w).toNat

instance (a : WordSpan w) : Decidable a.Fits := inferInstanceAs (Decidable (_ ≤ _))

/-- The end as a word. -/
def last (a : WordSpan w) : BitVec w := a.start + a.len

/-- Each starts before the other ends. -/
def EndsCross (a b : WordSpan w) : Prop := a.start < b.last ∧ b.start < a.last

/-- The one that starts first is longer than the way to the other. -/
def Reaches (a b : WordSpan w) : Prop :=
  if a.start < b.start then b.start - a.start < a.len else a.start - b.start < b.len

variable {a b : WordSpan w}

/-- What a program can ask before it computes the end. -/
theorem fits_iff : a.Fits ↔ ¬ a.len > maxWord w - a.start := by
  have hle := le_maxWord a.start
  rw [gt_iff_lt, BitVec.lt_def, BitVec.toNat_sub_of_le hle, Fits]
  rw [BitVec.le_def] at hle
  omega

theorem Fits.lt (h : a.Fits) : a.start.toNat + a.len.toNat < 2 ^ w := toNat_lt_of_le_maxWord h

theorem Fits.toNat_last (h : a.Fits) : a.last.toNat = a.start.toNat + a.len.toNat := by
  rw [last, BitVec.toNat_add_of_lt h.lt]

theorem disjoint_bytes_iff (ha : a.len ≠ 0) (hb : b.len ≠ 0) :
    Disjoint a.bytes b.bytes ↔ a.start.toNat + a.len.toNat ≤ b.start.toNat ∨
      b.start.toNat + b.len.toNat ≤ a.start.toNat := by
  have := toNat_ne_zero ha
  have := toNat_ne_zero hb
  rw [bytes, bytes, Set.Ico_disjoint_Ico]
  omega

/-- **Comparing ends tells whether spans meet**, once both ends are known to be words. -/
theorem endsCross_iff (ha : a.Fits) (hb : b.Fits) (ha0 : a.len ≠ 0) (hb0 : b.len ≠ 0) :
    a.EndsCross b ↔ ¬ Disjoint a.bytes b.bytes := by
  rw [disjoint_bytes_iff ha0 hb0, EndsCross, BitVec.lt_def, BitVec.lt_def, ha.toNat_last,
    hb.toNat_last]
  omega

/-- **Comparing the distance of the starts tells it too**, for any spans. -/
theorem reaches_iff (ha0 : a.len ≠ 0) (hb0 : b.len ≠ 0) :
    a.Reaches b ↔ ¬ Disjoint a.bytes b.bytes := by
  rw [disjoint_bytes_iff ha0 hb0, Reaches]
  have := toNat_ne_zero ha0
  have := toNat_ne_zero hb0
  split
  · rename_i hlt
    rw [BitVec.lt_def] at hlt
    have hle : a.start ≤ b.start := by
      rw [BitVec.le_def]
      omega
    rw [BitVec.lt_def, BitVec.toNat_sub_of_le hle]
    omega
  · rename_i hge
    rw [BitVec.lt_def] at hge
    have hle : b.start ≤ a.start := by
      rw [BitVec.le_def]
      omega
    rw [BitVec.lt_def, BitVec.toNat_sub_of_le hle]
    omega

end WordSpan

end Words
