import Mathlib

/-!
# Records of bytes

A number of a fixed width lies in memory with its lowest byte first, and records of one size lie
one after the other.  `join` reads the number that `split` has written, and `chunk` finds a
record again.
-/
namespace Records

/-! ## Numbers -/

/-- The bytes of a number of that many bytes, the lowest first. -/
def split : (width n : Nat) → List UInt8
  | 0, _ => []
  | width + 1, n => UInt8.ofNat n :: split width (n / 256)

/-- The number that bytes stand for. -/
def join : List UInt8 → Nat
  | [] => 0
  | b :: bs => b.toNat + 256 * join bs

@[simp] theorem length_split (width n : Nat) : (split width n).length = width := by
  induction width generalizing n with
  | zero => rfl
  | succ width ih => rw [split, List.length_cons, ih]

/-- **A number that fits in its width is read as it was written.** -/
theorem join_split {width n : Nat} (h : n < 256 ^ width) : join (split width n) = n := by
  induction width generalizing n with
  | zero =>
    rw [Nat.pow_zero] at h
    rw [split, join]
    omega
  | succ width ih =>
    have hhigh : n / 256 < 256 ^ width := by
      rw [Nat.pow_succ] at h
      exact Nat.div_lt_of_lt_mul (by omega)
    rw [split, join, ih hhigh, UInt8.toNat_ofNat']
    omega

/-! ## Records one after the other -/

variable {α β : Type}

/-- The `i`-th record of `size` bytes. -/
def chunk (size : Nat) (bytes : List β) (i : Nat) : List β := (bytes.drop (size * i)).take size

/-- What is behind the first record starts at the second. -/
theorem chunk_succ {size : Nat} {first rest : List β} (h : first.length = size) (i : Nat) :
    chunk size (first ++ rest) (i + 1) = chunk size rest i := by
  have hoffset : size * (i + 1) = first.length + size * i := by
    rw [h, Nat.mul_succ, Nat.add_comm]
  rw [chunk, chunk, hoffset, ← List.drop_drop, List.drop_left]

theorem chunk_zero {size : Nat} {first rest : List β} (h : first.length = size) :
    chunk size (first ++ rest) 0 = first := by
  rw [chunk, Nat.mul_zero, List.drop_zero, ← h, List.take_left]

/-- **Records that were written one after the other are found again.** -/
theorem map_chunk {size : Nat} {write : α → List β} {read : List β → α} {as : List α}
    (hsize : ∀ a ∈ as, (write a).length = size) (hread : ∀ a ∈ as, read (write a) = a) :
    (List.range as.length).map (fun i => read (chunk size (as.flatMap write) i)) = as := by
  induction as with
  | nil => rfl
  | cons a as ih =>
    obtain ⟨hlength, hlengths⟩ := List.forall_mem_cons.mp hsize
    obtain ⟨hfirst, hrest⟩ := List.forall_mem_cons.mp hread
    rw [List.flatMap_cons, List.length_cons, List.range_succ_eq_map, List.map_cons, List.map_map,
      chunk_zero hlength, hfirst]
    refine congrArg (a :: ·) ?_
    calc (List.range as.length).map ((fun i => read (chunk size (write a ++ as.flatMap write) i)) ∘
            Nat.succ)
        = (List.range as.length).map (fun i => read (chunk size (as.flatMap write) i)) := by
          refine List.map_congr_left fun i _ => ?_
          exact congrArg read (chunk_succ hlength i)
      _ = as := ih hlengths hrest

theorem length_flatMap_of_size {size : Nat} {write : α → List β} {as : List α}
    (hsize : ∀ a ∈ as, (write a).length = size) :
    (as.flatMap write).length = size * as.length := by
  induction as with
  | nil => rfl
  | cons a as ih =>
    obtain ⟨hlength, hlengths⟩ := List.forall_mem_cons.mp hsize
    rw [List.flatMap_cons, List.length_append, hlength, ih hlengths, List.length_cons,
      Nat.mul_succ, Nat.add_comm]

end Records
