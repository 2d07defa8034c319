import Brunix.Paging.Tables

/-!
# Accesses through the page tables

What becomes of an access to a linear address, by the control registers and the entries of its walk.
Through the tables of `paging_init` the supervisor sees the first 4 MiB as they are, a user sees
nothing, and no one sees anything above. The error code says which of these it was.
-/

namespace Brunix

open Basis Memory

/-! ### Accesses -/

structure AccessKind where
  write : Bool
  user : Bool

namespace AccessKind

def supervisorRead : AccessKind := ⟨false, false⟩
def supervisorWrite : AccessKind := ⟨true, false⟩

end AccessKind

def pagingFlag : Word := 0x80000000
def writeProtectFlag : Word := 0x00010000

/-- What becomes of an access. A fault comes with the error code the processor pushes for it. -/
inductive Translation
  | physical (a : Word)
  | fault (errCode : Word)
  /-- The directory entry is for a page of 4 MiB, if CR4 allows these. -/
  | largePage
  deriving DecidableEq

namespace AccessKind

def errorCode (kind : AccessKind) (present : Bool) : Word :=
  (if present then 1 else 0) ||| (if kind.write then 2 else 0) ||| (if kind.user then 4 else 0)

/-- The check of the flags in both entries. The supervisor may write to any page unless CR0 says
otherwise. -/
def permitted (kind : AccessKind) (writeProtect : Bool) (pde pte : Word) : Bool :=
  let writable := writableBit pde && writableBit pte
  if kind.user then userBit pde && userBit pte && (!kind.write || writable)
  else !kind.write || !writeProtect || writable

end AccessKind

def translate (cr0 cr3 : Word) (mem : Memory) (kind : AccessKind) (a : Word) : Translation :=
  if cr0 &&& pagingFlag = 0 then .physical a
  else
    match walk mem cr3 a with
    | .directoryFault _ => .fault (kind.errorCode false)
    | .largePage _ => .largePage
    | .tableFault _ _ => .fault (kind.errorCode false)
    | .mapped pde pte physical =>
        if kind.permitted (cr0 &&& writeProtectFlag != 0) pde pte then .physical physical
        else .fault (kind.errorCode true)

/-! ### The map of the filled tables -/

section Filled

variable {pageDirectory firstPageTable : Word} {mem : Memory}

/-- Both entries of a walk below 4 MiB allow the supervisor everything and a user nothing. -/
theorem permitted_presentEntry (kind : AccessKind) (writeProtect : Bool) (base base' : Word) :
    kind.permitted writeProtect (presentEntry base) (presentEntry base') = !kind.user := by
  obtain ⟨-, hwritable, huser, -⟩ := presentEntry_flags base
  obtain ⟨-, hwritable', huser', -⟩ := presentEntry_flags base'
  rw [AccessKind.permitted, hwritable, hwritable', huser, huser']
  cases kind.user <;> simp

theorem TablesFilled.translate_eq (h : TablesFilled pageDirectory firstPageTable mem) {cr0 : Word}
    (hpaging : cr0 &&& pagingFlag ≠ 0) (kind : AccessKind) (a : Word) :
    translate cr0 pageDirectory mem kind a
      = if 0x400000 ≤ a.toNat then .fault (kind.errorCode false)
        else if kind.user then .fault (kind.errorCode true) else .physical a := by
  rw [translate, if_neg hpaging]
  by_cases ha : 0x400000 ≤ a.toNat
  · rw [h.walk_high ha, if_pos ha]
  · rw [h.walk_low (by omega), if_neg ha]
    simp only [permitted_presentEntry]
    cases kind.user <;> rfl

end Filled

/-! ### A map to look at -/

/-- The tables on the second and third page of a memory that was zero. -/
def sampleTables : Memory := pagingTables 0x1000 0x2000 fun _ => 0

theorem sampleTables_filled : TablesFilled 0x1000 0x2000 sampleTables := zeroTables_static.filled

end Brunix
