import Brunix.Paging.Bitmap
import Mathlib.Tactic.IntervalCases

/-!
# The page tables

The second part of `paging_init`, which fills a page directory and one page table through the
bit-fields of their entries, and the walk the processor makes through them once paging is on. The
tables lie wherever the linker put them, and the loops leave some bits alone: those keep what the
memory held before.
-/

namespace Brunix

open Basis Memory

/-! ### Entries, `asm/paging.h` -/

namespace PageDir

def presentFlag : BitField := ⟨0, 1⟩
def readWriteFlag : BitField := ⟨1, 1⟩
def userSupervisorFlag : BitField := ⟨2, 1⟩
def unusedFlags : BitField := ⟨3, 9⟩
def pageTableBaseAddress : BitField := ⟨12, 20⟩

end PageDir

namespace PageTable

def presentFlag : BitField := ⟨0, 1⟩
def readWriteFlag : BitField := ⟨1, 1⟩
def userSupervisorFlag : BitField := ⟨2, 1⟩
def unusedFlags : BitField := ⟨3, 9⟩
def physicalPageAddress : BitField := ⟨12, 20⟩

end PageTable

/-- An assignment to a bit-field of the entry at an address. -/
def setField (field : BitField) (value a : Word) (mem : Memory) : Memory :=
  mem.store a (field.set value (mem.load a))

/-- Two tables of 1024 entries on pages of their own, all zero. -/
structure StaticTables (pageDirectory firstPageTable : Word) (mem : Memory) : Prop where
  directory_aligned : pageDirectory.toNat % 4096 = 0
  table_aligned : firstPageTable.toNat % 4096 = 0
  distinct : pageDirectory ≠ firstPageTable
  directory_zero : ∀ i < 1024, mem.load (slot pageDirectory i) = 0
  table_zero : ∀ i < 1024, mem.load (slot firstPageTable i) = 0

/-! ### `paging_init`, from the tables on -/

section Init

variable (pageDirectory firstPageTable : Word)

def firstDirectoryEntry (mem : Memory) : Memory :=
  mem |> setField PageDir.presentFlag 1 (slot pageDirectory 0)
    |> setField PageDir.readWriteFlag 1 (slot pageDirectory 0)
    |> setField PageDir.userSupervisorFlag 0 (slot pageDirectory 0)
    |> setField PageDir.unusedFlags 0 (slot pageDirectory 0)
    |> setField PageDir.pageTableBaseAddress (page firstPageTable) (slot pageDirectory 0)

def directoryEntry (i : Nat) (mem : Memory) : Memory :=
  mem |> setField PageDir.presentFlag 0 (slot pageDirectory i)
    |> setField PageDir.readWriteFlag 1 (slot pageDirectory i)
    |> setField PageDir.userSupervisorFlag 0 (slot pageDirectory i)
    |> setField PageDir.unusedFlags 0 (slot pageDirectory i)

def tableEntry (i : Nat) (mem : Memory) : Memory :=
  mem |> setField PageTable.physicalPageAddress (page (BitVec.ofNat 32 (i * pageSize)))
      (slot firstPageTable i)
    |> setField PageTable.presentFlag 1 (slot firstPageTable i)
    |> setField PageTable.readWriteFlag 1 (slot firstPageTable i)
    |> setField PageTable.userSupervisorFlag 0 (slot firstPageTable i)

def pagingTables (mem : Memory) : Memory :=
  mem |> firstDirectoryEntry pageDirectory firstPageTable
    |> forRange 1 1024 (directoryEntry pageDirectory)
    |> forRange 0 1024 (tableEntry firstPageTable)

end Init

/-! ### The walk of the processor -/

def presentBit (entry : Word) : Bool := entry.getLsbD 0
def writableBit (entry : Word) : Bool := entry.getLsbD 1
def userBit (entry : Word) : Bool := entry.getLsbD 2
def pageSizeBit (entry : Word) : Bool := entry.getLsbD 7

/-- The base address in bits 12 to 31. -/
def frameBase (entry : Word) : Word := entry &&& 0xFFFFF000

/-- How a walk ends, with the entries it used. -/
inductive Walk
  | directoryFault (pde : Word)
  | largePage (pde : Word)
  | tableFault (pde pte : Word)
  | mapped (pde pte physical : Word)

def walk (mem : Memory) (cr3 a : Word) : Walk :=
  let pde := mem.load (slot (frameBase cr3) (a >>> 22).toNat)
  if !presentBit pde then .directoryFault pde
  else if pageSizeBit pde then .largePage pde
  else
    let pte := mem.load (slot (frameBase pde) ((a >>> 12) &&& 0x3FF).toNat)
    if !presentBit pte then .tableFault pde pte
    else .mapped pde pte (frameBase pte ||| (a &&& 0xFFF))

/-! ### The entries -/

section Entries

theorem setField_store (field : BitField) (value a w : Word) (mem : Memory) :
    setField field value a (mem.store a w) = mem.store a (field.set value w) := by
  rw [setField, load_store_self, store_store]

def firstDirectoryWord (firstPageTable w : Word) : Word :=
  w |> PageDir.presentFlag.set 1 |> PageDir.readWriteFlag.set 1 |> PageDir.userSupervisorFlag.set 0
    |> PageDir.unusedFlags.set 0 |> PageDir.pageTableBaseAddress.set (page firstPageTable)

def directoryWord (w : Word) : Word :=
  w |> PageDir.presentFlag.set 0 |> PageDir.readWriteFlag.set 1 |> PageDir.userSupervisorFlag.set 0
    |> PageDir.unusedFlags.set 0

def tableWord (i : Nat) (w : Word) : Word :=
  w |> PageTable.physicalPageAddress.set (page (BitVec.ofNat 32 (i * pageSize)))
    |> PageTable.presentFlag.set 1 |> PageTable.readWriteFlag.set 1
    |> PageTable.userSupervisorFlag.set 0

theorem firstDirectoryEntry_eq (pageDirectory firstPageTable : Word) (mem : Memory) :
    firstDirectoryEntry pageDirectory firstPageTable mem
      = mem.store (slot pageDirectory 0)
          (firstDirectoryWord firstPageTable (mem.load (slot pageDirectory 0))) := by
  rw [firstDirectoryEntry, setField.eq_1 PageDir.presentFlag]
  simp only [setField_store, firstDirectoryWord]

theorem directoryEntry_eq (pageDirectory : Word) :
    directoryEntry pageDirectory = fun i mem => mem.store (slot pageDirectory i)
      (directoryWord (mem.load (slot pageDirectory i))) := by
  funext i mem
  rw [directoryEntry, setField.eq_1 PageDir.presentFlag]
  simp only [setField_store, directoryWord]

theorem tableEntry_eq (firstPageTable : Word) :
    tableEntry firstPageTable = fun i mem => mem.store (slot firstPageTable i)
      (tableWord i (mem.load (slot firstPageTable i))) := by
  funext i mem
  rw [tableEntry, setField.eq_1 PageTable.physicalPageAddress]
  simp only [setField_store, tableWord]

variable {pageDirectory firstPageTable : Word} {mem : Memory}

theorem StaticTables.slot_apart (h : StaticTables pageDirectory firstPageTable mem) {i j : Nat}
    (hi : i < 1024) (hj : j < 1024) : Apart (slot pageDirectory i) (slot firstPageTable j) := by
  obtain ⟨hdirectory, htable, hne, -, -⟩ := h
  have hne' : pageDirectory.toNat ≠ firstPageTable.toNat := fun heq => hne (BitVec.eq_of_toNat_eq heq)
  have hd := pageDirectory.isLt
  have ht := firstPageTable.isLt
  constructor <;>
    simp only [slot, BitVec.toNat_sub, BitVec.toNat_add, BitVec.toNat_ofNat] <;> omega

/-- What the loops leave in the two tables. -/
theorem StaticTables.entries (h : StaticTables pageDirectory firstPageTable mem) :
    (pagingTables pageDirectory firstPageTable mem).load (slot pageDirectory 0)
        = firstDirectoryWord firstPageTable 0
      ∧ (∀ i, 1 ≤ i → i < 1024 → (pagingTables pageDirectory firstPageTable mem).load
          (slot pageDirectory i) = directoryWord 0)
      ∧ ∀ i < 1024, (pagingTables pageDirectory firstPageTable mem).load (slot firstPageTable i)
          = tableWord i 0 := by
  have hfirst (i : Nat) (hlow : 1 ≤ i) (hi : i < 1024) :
      Apart (slot pageDirectory i) (slot pageDirectory 0) :=
    Memory.slot_apart (by omega) (by omega) (by omega)
  rw [pagingTables, firstDirectoryEntry_eq, directoryEntry_eq, tableEntry_eq]
  obtain ⟨hdirectory, hdirectoryFrame⟩ := modifyLoop_spec (show 1 ≤ 1024 by omega) (by omega)
    pageDirectory (fun _ => directoryWord) (mem.store (slot pageDirectory 0)
      (firstDirectoryWord firstPageTable (mem.load (slot pageDirectory 0))))
  obtain ⟨htable, htableFrame⟩ := modifyLoop_spec (show 0 ≤ 1024 by omega) (by omega)
    firstPageTable tableWord (forRange 1 1024 (fun i (m : Memory) => m.store (slot pageDirectory i)
      (directoryWord (m.load (slot pageDirectory i)))) (mem.store (slot pageDirectory 0)
      (firstDirectoryWord firstPageTable (mem.load (slot pageDirectory 0)))))
  refine ⟨?_, fun i hlow hi => ?_, fun i hi => ?_⟩
  · rw [htableFrame _ fun j _ hj => (h.slot_apart (by omega) hj).symm,
      hdirectoryFrame _ fun j hlow hj => hfirst j hlow hj, load_store_self,
      h.directory_zero 0 (by omega)]
  · rw [htableFrame _ fun j _ hj => (h.slot_apart hi hj).symm, hdirectory i hlow hi,
      load_store_of_apart (hfirst i hlow hi).symm, h.directory_zero i hi]
  · rw [htable i (Nat.zero_le i) hi, hdirectoryFrame _ fun j _ hj => h.slot_apart hj hi,
      load_store_of_apart (h.slot_apart (by omega) hi), h.table_zero i hi]

end Entries

/-! ### What the processor reads in them -/

theorem getLsbD_frameMask {i : Nat} (hi : i < 32) :
    (0xFFFFF000 : Word).getLsbD i = decide (12 ≤ i) := by
  revert i
  decide

theorem getLsbD_offsetMask {i : Nat} (hi : i < 32) :
    (0xFFF : Word).getLsbD i = decide (i < 12) := by
  revert i
  decide

theorem toNat_frameBase (a : Word) : (frameBase a).toNat = a.toNat / 4096 * 4096 := by
  have hshift : frameBase a = a >>> 12 <<< 12 := by
    apply BitVec.eq_of_getLsbD_eq
    intro i hi
    rw [frameBase, BitVec.getLsbD_and, getLsbD_frameMask hi, BitVec.getLsbD_shiftLeft,
      BitVec.getLsbD_ushiftRight]
    by_cases hlow : 12 ≤ i
    · simp [hlow, hi, Nat.add_sub_cancel' hlow]
    · simp [hlow, show i < 12 by omega]
  have := a.isLt
  rw [hshift, BitVec.toNat_shiftLeft, BitVec.toNat_ushiftRight, Nat.shiftRight_eq_div_pow,
    Nat.shiftLeft_eq]
  omega

theorem frameBase_of_aligned {a : Word} (h : a.toNat % 4096 = 0) : frameBase a = a := by
  apply BitVec.eq_of_toNat_eq
  rw [toNat_frameBase]
  omega

theorem frameBase_or_offset (a : Word) : frameBase a ||| (a &&& 0xFFF) = a := by
  apply BitVec.eq_of_getLsbD_eq
  intro i hi
  rw [frameBase, BitVec.getLsbD_or, BitVec.getLsbD_and, BitVec.getLsbD_and, getLsbD_frameMask hi,
    getLsbD_offsetMask hi]
  by_cases hlow : 12 ≤ i
  · simp [hlow]
  · simp [show i < 12 by omega]

/-- A present, writable, supervisor-only entry. -/
def presentEntry (base : Word) : Word := frameBase base ||| 3

theorem getLsbD_presentEntry (base : Word) {i : Nat} (hi : i < 32) :
    (presentEntry base).getLsbD i = if 12 ≤ i then base.getLsbD i else decide (i < 2) := by
  have hflags : (3 : Word).getLsbD i = decide (i < 2) := by
    clear base
    revert i
    decide
  rw [presentEntry, frameBase, BitVec.getLsbD_or, BitVec.getLsbD_and, getLsbD_frameMask hi, hflags]
  by_cases hlow : 12 ≤ i
  · simp [hlow, show ¬ i < 2 by omega]
  · simp [hlow]

theorem presentEntry_flags (base : Word) :
    presentBit (presentEntry base) = true ∧ writableBit (presentEntry base) = true
      ∧ userBit (presentEntry base) = false ∧ pageSizeBit (presentEntry base) = false := by
  refine ⟨?_, ?_, ?_, ?_⟩
  · exact getLsbD_presentEntry base (by omega)
  · exact getLsbD_presentEntry base (by omega)
  · exact getLsbD_presentEntry base (by omega)
  · exact getLsbD_presentEntry base (by omega)

theorem frameBase_presentEntry (base : Word) : frameBase (presentEntry base) = frameBase base := by
  apply BitVec.eq_of_getLsbD_eq
  intro i hi
  rw [frameBase, frameBase, BitVec.getLsbD_and, BitVec.getLsbD_and, getLsbD_frameMask hi,
    getLsbD_presentEntry base hi]
  by_cases hlow : 12 ≤ i
  · rw [if_pos hlow]
  · simp [hlow]

/-- The five assignments to the first directory entry, over zero. -/
theorem firstDirectoryWord_zero (firstPageTable : Word) :
    firstDirectoryWord firstPageTable 0 = presentEntry firstPageTable := by
  apply BitVec.eq_of_getLsbD_eq
  intro i hi
  rw [getLsbD_presentEntry _ hi, firstDirectoryWord]
  simp only [BitField.getLsbD_set _ _ _ hi]
  by_cases hbase : 12 ≤ i
  · have hfield : 12 ≤ i ∧ i < 12 + 20 := ⟨hbase, hi⟩
    simp only [PageDir.pageTableBaseAddress, if_pos hfield, if_pos hbase, page,
      BitVec.getLsbD_ushiftRight, Nat.add_sub_cancel' hbase]
  · rw [if_neg hbase]
    interval_cases i <;>
      simp [PageDir.pageTableBaseAddress, PageDir.presentFlag, PageDir.readWriteFlag,
        PageDir.userSupervisorFlag, PageDir.unusedFlags]

theorem tableWord_zero (i : Nat) :
    tableWord i 0 = presentEntry (BitVec.ofNat 32 (i * pageSize)) := by
  apply BitVec.eq_of_getLsbD_eq
  intro i hi
  rw [getLsbD_presentEntry _ hi, tableWord]
  simp only [BitField.getLsbD_set _ _ _ hi]
  by_cases hbase : 12 ≤ i
  · have hfield : 12 ≤ i ∧ i < 12 + 20 := ⟨hbase, hi⟩
    simp only [PageTable.physicalPageAddress, PageTable.presentFlag, PageTable.readWriteFlag,
      PageTable.userSupervisorFlag, if_pos hfield, if_pos hbase, page,
      BitVec.getLsbD_ushiftRight, Nat.add_sub_cancel' hbase]
    rw [if_neg (by omega), if_neg (by omega), if_neg (by omega)]
  · rw [if_neg hbase]
    interval_cases i <;>
      simp [PageTable.physicalPageAddress, PageTable.presentFlag, PageTable.readWriteFlag,
        PageTable.userSupervisorFlag]

theorem directoryWord_zero : directoryWord 0 = 2 := by
  decide

/-! ### The map -/

theorem directoryIndex_eq (a : Word) : (a >>> 22).toNat = a.toNat / 0x400000 := by
  rw [BitVec.toNat_ushiftRight, Nat.shiftRight_eq_div_pow]

theorem tableIndex_eq {a : Word} (h : a.toNat < 0x400000) :
    ((a >>> 12) &&& 0x3FF).toNat = a.toNat / 4096 := by
  rw [BitVec.toNat_and, show (0x3FF : Word).toNat = 2 ^ 10 - 1 from rfl,
    Nat.and_two_pow_sub_one_eq_mod, BitVec.toNat_ushiftRight, Nat.shiftRight_eq_div_pow]
  omega

/-- The tables as `paging_init` leaves them, with what it leaves alone still zero. -/
structure TablesFilled (pageDirectory firstPageTable : Word) (mem : Memory) : Prop where
  directory_aligned : pageDirectory.toNat % 4096 = 0
  table_aligned : firstPageTable.toNat % 4096 = 0
  first : mem.load (slot pageDirectory 0) = presentEntry firstPageTable
  directory : ∀ i, 1 ≤ i → i < 1024 → mem.load (slot pageDirectory i) = 2
  table : ∀ i < 1024, mem.load (slot firstPageTable i) = presentEntry (BitVec.ofNat 32 (i * pageSize))

theorem StaticTables.filled {pageDirectory firstPageTable : Word} {mem : Memory}
    (h : StaticTables pageDirectory firstPageTable mem) :
    TablesFilled pageDirectory firstPageTable (pagingTables pageDirectory firstPageTable mem) := by
  obtain ⟨hfirst, hdirectory, htable⟩ := h.entries
  refine ⟨h.directory_aligned, h.table_aligned, ?_, fun i hlow hi => ?_, fun i hi => ?_⟩
  · rw [hfirst, firstDirectoryWord_zero]
  · rw [hdirectory i hlow hi, directoryWord_zero]
  · rw [htable i hi, tableWord_zero]

section Filled

variable {pageDirectory firstPageTable : Word} {mem : Memory}

theorem TablesFilled.walk_low (h : TablesFilled pageDirectory firstPageTable mem) {a : Word}
    (ha : a.toNat < 0x400000) :
    walk mem pageDirectory a = .mapped (presentEntry firstPageTable)
      (presentEntry (BitVec.ofNat 32 (a.toNat / 4096 * pageSize))) a := by
  have hpde : mem.load (slot (frameBase pageDirectory) (a >>> 22).toNat)
      = presentEntry firstPageTable := by
    rw [frameBase_of_aligned h.directory_aligned, directoryIndex_eq, Nat.div_eq_of_lt ha, h.first]
  have hbase : frameBase (presentEntry firstPageTable) = firstPageTable := by
    rw [frameBase_presentEntry, frameBase_of_aligned h.table_aligned]
  have hpte : mem.load (slot firstPageTable ((a >>> 12) &&& 0x3FF).toNat)
      = presentEntry (BitVec.ofNat 32 (a.toNat / 4096 * pageSize)) := by
    rw [tableIndex_eq ha, h.table _ (by omega)]
  have hframe : frameBase (presentEntry (BitVec.ofNat 32 (a.toNat / 4096 * pageSize)))
      = frameBase a := by
    apply BitVec.eq_of_toNat_eq
    rw [frameBase_presentEntry, toNat_frameBase, toNat_frameBase, BitVec.toNat_ofNat, pageSize]
    omega
  obtain ⟨hpresent, -, -, hsize⟩ := presentEntry_flags firstPageTable
  obtain ⟨hpresent', -, -, -⟩ :=
    presentEntry_flags (BitVec.ofNat 32 (a.toNat / 4096 * pageSize))
  rw [walk, hpde]
  simp only [hpresent, hsize, hbase, hpte, hpresent', hframe, frameBase_or_offset, Bool.not_true,
    Bool.false_eq_true, if_false]

theorem TablesFilled.walk_high (h : TablesFilled pageDirectory firstPageTable mem) {a : Word}
    (ha : 0x400000 ≤ a.toNat) : walk mem pageDirectory a = .directoryFault 2 := by
  have hpde : mem.load (slot (frameBase pageDirectory) (a >>> 22).toNat) = 2 := by
    have := a.isLt
    rw [frameBase_of_aligned h.directory_aligned, directoryIndex_eq]
    exact h.directory _ (by omega) (by omega)
  rw [walk, hpde]
  rfl

end Filled

/-- The first 4 MiB are mapped to themselves, writable and for the supervisor only. Above them the walk
faults in the directory. -/
theorem paging_identity {pageDirectory firstPageTable : Word} {mem : Memory}
    (hstatic : StaticTables pageDirectory firstPageTable mem) (a : Word) :
    (a.toNat < 0x400000 → ∃ pde pte,
        walk (pagingTables pageDirectory firstPageTable mem) pageDirectory a = .mapped pde pte a
        ∧ frameBase pde = firstPageTable ∧ pageSizeBit pde = false
        ∧ presentBit pde = true ∧ writableBit pde = true ∧ userBit pde = false
        ∧ presentBit pte = true ∧ writableBit pte = true ∧ userBit pte = false)
      ∧ (0x400000 ≤ a.toNat → ∃ pde,
        walk (pagingTables pageDirectory firstPageTable mem) pageDirectory a
          = .directoryFault pde) := by
  have hfilled := hstatic.filled
  constructor
  · intro hlow
    have hbase : frameBase (presentEntry firstPageTable) = firstPageTable := by
      rw [frameBase_presentEntry, frameBase_of_aligned hstatic.table_aligned]
    obtain ⟨hpresent, hwritable, huser, hsize⟩ := presentEntry_flags firstPageTable
    obtain ⟨hpresent', hwritable', huser', -⟩ :=
      presentEntry_flags (BitVec.ofNat 32 (a.toNat / 4096 * pageSize))
    exact ⟨_, _, hfilled.walk_low hlow, hbase, hsize, hpresent, hwritable, huser, hpresent',
      hwritable', huser'⟩
  · exact fun hhigh => ⟨2, hfilled.walk_high hhigh⟩

theorem load_zero (a : Word) : Memory.load (fun _ => 0) a = 0 := by
  rw [Memory.load]
  decide

theorem zeroTables_static : StaticTables 0x1000 0x2000 fun _ => 0 :=
  ⟨by decide, by decide, by decide, fun _ _ => load_zero _, fun _ _ => load_zero _⟩

/-- The framebuffer, with the tables on the second and third page. -/
theorem paging_identity_framebuffer :
    ∃ pde pte, walk (pagingTables 0x1000 0x2000 fun _ => 0) 0x1000 0xB8000
      = .mapped pde pte 0xB8000 := by
  obtain ⟨pde, pte, hwalk, -⟩ := (paging_identity zeroTables_static 0xB8000).1 (by decide)
  exact ⟨pde, pte, hwalk⟩

end Brunix
