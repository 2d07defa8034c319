import Brunix.Basis.Bits
import Brunix.Basis.Memory

/-!
# The bitmap of page frames

The first part of `paging_init`: the array `mem_bitmap`, a bit for each frame of physical memory. It
is an automatic array of `bitmap_size` bytes, but C does not check an index, so the model keeps every
byte from its base on, and records in `accesses` the indices that were used, newest first. Memory is
at most 4 GiB, so the counts of frames fit an `int`, and they are natural numbers here.
-/

namespace Brunix

open Basis

/-! ### `asm/paging.h` -/

def pageSize : Nat := 0x1000

def ramMaxPage : Nat := 0x100000

/-- `PAGE(addr)`. -/
def page (addr : Word) : Word := addr >>> 12

/-! ### `paging_init`, up to the tables -/

structure FrameBitmap where
  bytes : Nat → Byte
  accesses : List Nat

namespace FrameBitmap

def storeByte (value : Byte) (i : Nat) (s : FrameBitmap) : FrameBitmap where
  bytes := Function.update s.bytes i value
  accesses := i :: s.accesses

def setPageFrameUsed (page : Nat) (s : FrameBitmap) : FrameBitmap where
  bytes := orBit s.bytes page
  accesses := page / 8 :: s.accesses

end FrameBitmap

open FrameBitmap

def kernelMemEnd : Word := 0x800000

def totalPages (memUpperInBytes : Word) : Nat := memUpperInBytes.toNat / pageSize

def bitmapSize (memUpperInBytes : Word) : Nat := totalPages memUpperInBytes / 8

/-- The three loops over `mem_bitmap`. -/
def bitmapInit (memUpperInBytes : Word) (s : FrameBitmap) : FrameBitmap :=
  s |> forRange 0 (bitmapSize memUpperInBytes) (storeByte 0)
    |> forRange (bitmapSize memUpperInBytes) (ramMaxPage / 8) (storeByte 0xFF)
    |> forRange (page 0x0).toNat (page kernelMemEnd).toNat setPageFrameUsed

/-! ### The loops -/

theorem storeLoop_spec {lo hi : Nat} (hle : lo ≤ hi) (value : Byte) (s : FrameBitmap) :
    (∀ i, (forRange lo hi (storeByte value) s).bytes i
        = if lo ≤ i ∧ i < hi then value else s.bytes i)
      ∧ ∀ i, i ∈ (forRange lo hi (storeByte value) s).accesses
        ↔ (lo ≤ i ∧ i < hi) ∨ i ∈ s.accesses := by
  apply forRange_invariant (storeByte value) (fun n t =>
    (∀ i, t.bytes i = if lo ≤ i ∧ i < n then value else s.bytes i)
      ∧ ∀ i, i ∈ t.accesses ↔ (lo ≤ i ∧ i < n) ∨ i ∈ s.accesses) hle
  · exact ⟨fun i => (if_neg (by omega)).symm, fun i => (or_iff_right (by omega)).symm⟩
  · intro n t hlo _ hinv
    obtain ⟨hbytes, haccesses⟩ := hinv
    refine ⟨fun i => ?_, fun i => ?_⟩
    · by_cases hi : i = n
      · subst hi
        rw [if_pos (by omega)]
        exact Function.update_self i value t.bytes
      · rw [if_congr (show lo ≤ i ∧ i < n + 1 ↔ lo ≤ i ∧ i < n by omega) rfl rfl, ← hbytes]
        exact Function.update_of_ne hi value t.bytes
    · rw [storeByte, List.mem_cons, haccesses, ← or_assoc]
      exact or_congr_left (by omega)

theorem markLoop_spec {lo hi : Nat} (hle : lo ≤ hi) (s : FrameBitmap) :
    (∀ p, bitOf (forRange lo hi setPageFrameUsed s).bytes p
        = (decide (lo ≤ p ∧ p < hi) || bitOf s.bytes p))
      ∧ ∀ i ∈ s.accesses, i ∈ (forRange lo hi setPageFrameUsed s).accesses := by
  apply forRange_invariant setPageFrameUsed (fun n t =>
    (∀ p, bitOf t.bytes p = (decide (lo ≤ p ∧ p < n) || bitOf s.bytes p))
      ∧ ∀ i ∈ s.accesses, i ∈ t.accesses) hle
  · refine ⟨fun p => ?_, fun i hi => hi⟩
    rw [decide_eq_false (by omega), Bool.false_or]
  · intro n t hlo _ hinv
    obtain ⟨hbits, haccesses⟩ := hinv
    refine ⟨fun p => ?_, fun i hi => List.mem_cons_of_mem _ (haccesses i hi)⟩
    rw [setPageFrameUsed, bitOf_orBit, hbits, ← Bool.or_assoc, ← Bool.decide_or]
    exact congrArg (· || _) (decide_eq_decide.mpr (by omega))

theorem totalPages_lt (memUpperInBytes : Word) : totalPages memUpperInBytes < ramMaxPage := by
  have := memUpperInBytes.isLt
  rw [totalPages, pageSize, ramMaxPage]
  omega

theorem bitmapSize_lt (memUpperInBytes : Word) :
    bitmapSize memUpperInBytes < ramMaxPage / 8 := by
  have := totalPages_lt memUpperInBytes
  rw [bitmapSize]
  rw [ramMaxPage] at *
  omega

/-! ### The accesses -/

/-- Whatever the size of memory, the loops reach the last byte a machine with 4 GiB would need. -/
theorem bitmapInit_last_access (memUpperInBytes : Word) (s : FrameBitmap) :
    ramMaxPage / 8 - 1 ∈ (bitmapInit memUpperInBytes s).accesses := by
  have hsize := bitmapSize_lt memUpperInBytes
  apply (markLoop_spec (by decide) _).2
  refine ((storeLoop_spec (Nat.le_of_lt hsize) 0xFF _).2 _).mpr (.inl ?_)
  omega

/-- The array ends where the counted memory does, and the loop that marks the frames above it starts
there. -/
theorem bitmapInit_overruns (memUpperInBytes : Word) (bytes : Nat → Byte) :
    ¬ ∀ i ∈ (bitmapInit memUpperInBytes ⟨bytes, []⟩).accesses, i < bitmapSize memUpperInBytes := by
  intro hinRange
  have hlast := hinRange _ (bitmapInit_last_access memUpperInBytes ⟨bytes, []⟩)
  have hsize := bitmapSize_lt memUpperInBytes
  omega

/-- With 32 MiB of memory the array has 1024 bytes, and its last store is at 131071. -/
theorem bitmapInit_overruns_32MiB :
    bitmapSize 0x2000000 = 1024
      ∧ 131071 ∈ (bitmapInit 0x2000000 ⟨fun _ => 0, []⟩).accesses :=
  ⟨rfl, bitmapInit_last_access 0x2000000 ⟨fun _ => 0, []⟩⟩

/-! ### The contents -/

theorem bitOf_fill (bytes : Nat → Byte) {p : Nat} {value : Byte} (h : bytes (p / 8) = value) :
    bitOf bytes p = value.getLsbD (p % 8) := by
  rw [bitOf, h]

/-- The frames the loops mark: those of the kernel, and all from the last whole byte of counted
frames on. -/
theorem bitmapInit_bit (memUpperInBytes : Word) (s : FrameBitmap) {p : Nat}
    (hp : p < ramMaxPage) :
    bitOf (bitmapInit memUpperInBytes s).bytes p = true
      ↔ p < 2048 ∨ 8 * (totalPages memUpperInBytes / 8) ≤ p := by
  have hsize := bitmapSize_lt memUpperInBytes
  have hkernel : (page 0x0).toNat ≤ p ∧ p < (page kernelMemEnd).toNat ↔ p < 2048 := by
    rw [show (page 0x0).toNat = 0 from rfl, show (page kernelMemEnd).toNat = 2048 from rfl]
    omega
  rw [bitmapInit, (markLoop_spec (by decide) _).1, Bool.or_eq_true, decide_eq_true_iff, hkernel]
  apply or_congr_right
  have hhigh := (storeLoop_spec (Nat.le_of_lt hsize) 0xFF
    (forRange 0 (bitmapSize memUpperInBytes) (storeByte 0) s)).1 (p / 8)
  rw [bitmapSize, ramMaxPage] at hsize
  rw [ramMaxPage] at hp
  by_cases hcounted : p / 8 < bitmapSize memUpperInBytes
  · rw [if_neg (by omega), (storeLoop_spec (Nat.zero_le _) 0 s).1, if_pos (by omega)] at hhigh
    rw [bitOf_fill _ hhigh, show BitVec.getLsbD 0 (p % 8) = false from BitVec.getLsbD_zero]
    rw [bitmapSize] at hcounted
    exact iff_of_false Bool.false_ne_true (by omega)
  · rw [if_pos (by rw [ramMaxPage]; omega)] at hhigh
    rw [bitOf_fill _ hhigh]
    rw [bitmapSize] at hcounted
    refine iff_of_true ?_ (by omega)
    have hbit : p % 8 < 8 := Nat.mod_lt p (by omega)
    generalize p % 8 = k at hbit
    revert k
    decide

/-- The loops mark exactly the frames of the kernel and those that do not exist, when the counted frames
fill whole bytes or all belong to the kernel. -/
theorem bitmapInit_exact_iff (memUpperInBytes : Word) (s : FrameBitmap) :
    (∀ p < ramMaxPage, bitOf (bitmapInit memUpperInBytes s).bytes p = true
        ↔ p < 2048 ∨ totalPages memUpperInBytes ≤ p)
      ↔ totalPages memUpperInBytes % 8 = 0 ∨ totalPages memUpperInBytes ≤ 2048 := by
  have htotal := totalPages_lt memUpperInBytes
  constructor
  · intro hexact
    by_contra hpartial
    have hp : 8 * (totalPages memUpperInBytes / 8) < ramMaxPage := by omega
    have hmarked := (hexact _ hp).mp ((bitmapInit_bit memUpperInBytes s hp).mpr (.inr (by omega)))
    omega
  · intro hwhole p hp
    rw [bitmapInit_bit memUpperInBytes s hp]
    omega

/-- With one frame more than the kernel's 8 MiB, that frame is marked as if it did not exist. -/
theorem bitmapInit_frame_lost :
    bitOf (bitmapInit 0x801000 ⟨fun _ => 0, []⟩).bytes 2048 = true
      ∧ ¬ (2048 < 2048 ∨ totalPages 0x801000 ≤ 2048) :=
  ⟨(bitmapInit_bit 0x801000 _ (by decide)).mpr (.inr (by decide)), by decide⟩

end Brunix
