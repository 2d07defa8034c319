import Brunix.Basis.Bits
import Brunix.Basis.Memory
import Brunix.Basis.Records
import Mathlib.Data.Fin.VecNotation
import Mathlib.Data.Fintype.Basic
import Mathlib.Tactic.FinCases

/-!
# The global descriptor table, `gdt.c`

The table is an array of packed records of eight bytes. `gdt_set_desc` scatters a base and a limit over
the fields of one of them, in separate stores, and one byte takes the top of the limit and the flags
in two steps. The processor reads the fields together again from the same bytes.
-/

namespace Brunix

open Basis

/-! ### `asm/gdt.h` -/

def gdtSegmentLimit : Word := 0xFFFFFFFF

def gdtFlagDataseg : Byte := 0x02
def gdtFlagCodeseg : Byte := 0x0A
def gdtFlagSegment : Byte := 0x10
def gdtFlagRing0 : Byte := 0x00
def gdtFlagRing3 : Byte := 0x60
def gdtFlagPresent : Byte := 0x80
def gdtFlag4kGran : Byte := 0x80
def gdtFlag32Bit : Byte := 0x40

def gdtEntries : Int := 4 + 1

/-! Where each field of the packed `struct gdt_desc_struct` is in its eight bytes. -/

namespace GdtDesc

def limitLow : Fin 8 := ⟨0, by decide⟩
def baseLow : Fin 8 := ⟨2, by decide⟩
def baseMiddle : Fin 8 := ⟨4, by decide⟩
def access : Fin 8 := ⟨5, by decide⟩
def granularity : Fin 8 := ⟨6, by decide⟩
def baseHigh : Fin 8 := ⟨7, by decide⟩

end GdtDesc

structure GdtPtr where
  limit : BitVec 16
  base : Word

/-! ### The table -/

/-- The bytes around `gdt`, by their distance from its start. -/
abbrev GdtBytes := Int → Byte

def storeByte (a : Int) (value : Byte) (gdt : GdtBytes) : GdtBytes := Function.update gdt a value

def storeHalf (a : Int) (value : BitVec 16) (gdt : GdtBytes) : GdtBytes :=
  gdt |> storeByte a (value.setWidth 8) |> storeByte (a + 1) ((value >>> 8).setWidth 8)

/-- `*a |= value`. -/
def orByte (a : Int) (value : Byte) (gdt : GdtBytes) : GdtBytes :=
  storeByte a (gdt a ||| value) gdt

def gdtSetDesc (num : Int) (base limit : Word) (access gran : Byte) (gdt : GdtBytes) : GdtBytes :=
  gdt |> storeHalf (cellAt num GdtDesc.baseLow) ((base &&& 0xFFFF).setWidth 16)
      |> storeByte (cellAt num GdtDesc.baseMiddle) (((base >>> 16) &&& 0xFF).setWidth 8)
      |> storeByte (cellAt num GdtDesc.baseHigh) (((base >>> 24) &&& 0xFF).setWidth 8)
      |> storeHalf (cellAt num GdtDesc.limitLow) ((limit &&& 0xFFFF).setWidth 16)
      |> storeByte (cellAt num GdtDesc.granularity) (((limit >>> 16) &&& 0x0F).setWidth 8)
      |> orByte (cellAt num GdtDesc.granularity) (gran &&& 0xF0)
      |> storeByte (cellAt num GdtDesc.access) access

/-! ### What the processor reads -/

structure Segment where
  base : Word
  limit : BitVec 20
  access : Byte
  flags : Byte
  deriving DecidableEq

/-- The layout of the eight bytes of a descriptor. -/
def Segment.decode (bytes : Fin 8 → Byte) : Segment where
  base := bytes ⟨7, by decide⟩ ++ bytes ⟨4, by decide⟩ ++ bytes ⟨3, by decide⟩ ++ bytes ⟨2, by decide⟩
  limit := (bytes ⟨6, by decide⟩).setWidth 4 ++ bytes ⟨1, by decide⟩ ++ bytes ⟨0, by decide⟩
  access := bytes ⟨5, by decide⟩
  flags := bytes ⟨6, by decide⟩ &&& 0xF0

/-- The bytes of `gdt[num]`. -/
abbrev descAt (gdt : GdtBytes) (num : Int) : Fin 8 → Byte := recordAt gdt num

/-- The bytes a call leaves in its record, whatever was there. -/
def descBytes (base limit : Word) (access gran : Byte) : Fin 8 → Byte :=
  ![((limit &&& 0xFFFF).setWidth 16 : BitVec 16).setWidth 8,
    ((limit &&& 0xFFFF).setWidth 16 >>> 8 : BitVec 16).setWidth 8,
    ((base &&& 0xFFFF).setWidth 16 : BitVec 16).setWidth 8,
    ((base &&& 0xFFFF).setWidth 16 >>> 8 : BitVec 16).setWidth 8,
    ((base >>> 16) &&& 0xFF).setWidth 8,
    access,
    ((limit >>> 16) &&& 0x0F).setWidth 8 ||| (gran &&& 0xF0),
    ((base >>> 24) &&& 0xFF).setWidth 8]

theorem storeByte_actsOn (num : Int) (k : Fin 8) (value : Byte) :
    ActsOn num (storeByte (cellAt num k) value) fun r => Function.update r k value :=
  actsOn_store num k value

theorem storeHalf_actsOn (num : Int) {k : Fin 8} (hk : k.val + 1 < 8) (value : BitVec 16) :
    ActsOn num (storeHalf (cellAt num k) value) fun r =>
      Function.update (Function.update r k (value.setWidth 8)) ⟨k.val + 1, hk⟩
        ((value >>> 8).setWidth 8) := by
  have hnext : cellAt num k + 1 = cellAt num (⟨k.val + 1, hk⟩ : Fin 8) := by
    simp only [cellAt]
    omega
  intro gdt
  rw [storeHalf, hnext]
  exact ((storeByte_actsOn num k _).andThen (storeByte_actsOn num _ _)) gdt

theorem orByte_actsOn (num : Int) (k : Fin 8) (value : Byte) :
    ActsOn num (orByte (cellAt num k) value) fun r => Function.update r k (r k ||| value) :=
  actsOn_modify num k (· ||| value)

/-- Seven stores, of which the second in the shared byte keeps what the first left. -/
theorem gdtSetDesc_actsOn (num : Int) (base limit : Word) (access gran : Byte) :
    ActsOn num (gdtSetDesc num base limit access gran) fun _ => descBytes base limit access gran := by
  have hbaseLow := storeHalf_actsOn num (k := GdtDesc.baseLow) (by decide)
    ((base &&& 0xFFFF).setWidth 16)
  have hbaseMiddle := storeByte_actsOn num GdtDesc.baseMiddle (((base >>> 16) &&& 0xFF).setWidth 8)
  have hbaseHigh := storeByte_actsOn num GdtDesc.baseHigh (((base >>> 24) &&& 0xFF).setWidth 8)
  have hlimitLow := storeHalf_actsOn num (k := GdtDesc.limitLow) (by decide)
    ((limit &&& 0xFFFF).setWidth 16)
  have hlimitHigh :=
    storeByte_actsOn num GdtDesc.granularity (((limit >>> 16) &&& 0x0F).setWidth 8)
  have hflags := orByte_actsOn num GdtDesc.granularity (gran &&& 0xF0)
  have haccess := storeByte_actsOn num GdtDesc.access access
  have hbase := (hbaseLow.andThen hbaseMiddle).andThen hbaseHigh
  have hrest := ((hlimitLow.andThen hlimitHigh).andThen hflags).andThen haccess
  intro gdt
  refine ((hbase.andThen hrest) gdt).trans (congrArg (Function.update _ num) ?_)
  funext k
  fin_cases k <;> rfl

theorem decode_descBytes (base limit : Word) (access gran : Byte) :
    Segment.decode (descBytes base limit access gran)
      = ⟨base, limit.setWidth 20, access, gran &&& 0xF0⟩ := by
  have hhalf : (0xFFFF : Word) = BitVec.ofNat 32 (2 ^ 16 - 1) := rfl
  have hbyte : (0xFF : Word) = BitVec.ofNat 32 (2 ^ 8 - 1) := rfl
  have hnibble : (0x0F : Word) = BitVec.ofNat 32 (2 ^ 4 - 1) := rfl
  have hflags : ∀ i < 8, (0xF0 : Byte).getLsbD i = decide (4 ≤ i) := by decide
  rw [Segment.decode, Segment.mk.injEq]
  refine ⟨?_, ?_, rfl, ?_⟩
  · change (((base >>> 24) &&& 0xFF).setWidth 8 : Byte) ++ (((base >>> 16) &&& 0xFF).setWidth 8 : Byte)
      ++ (((base &&& 0xFFFF).setWidth 16 >>> 8 : BitVec 16).setWidth 8 : Byte)
      ++ (((base &&& 0xFFFF).setWidth 16 : BitVec 16).setWidth 8 : Byte) = base
    rw [hhalf, hbyte]
    apply BitVec.eq_of_getLsbD_eq
    intro i hi
    simp only [BitVec.getLsbD_append, BitVec.getLsbD_setWidth, BitVec.getLsbD_and,
      BitVec.getLsbD_ushiftRight, getLsbD_lowMask]
    grind
  · change ((((limit >>> 16) &&& 0x0F).setWidth 8 ||| (gran &&& 0xF0) : Byte).setWidth 4 : BitVec 4)
      ++ (((limit &&& 0xFFFF).setWidth 16 >>> 8 : BitVec 16).setWidth 8 : Byte)
      ++ (((limit &&& 0xFFFF).setWidth 16 : BitVec 16).setWidth 8 : Byte) = limit.setWidth 20
    rw [hhalf, hnibble]
    apply BitVec.eq_of_getLsbD_eq
    intro i hi
    simp only [BitVec.getLsbD_append, BitVec.getLsbD_setWidth, BitVec.getLsbD_and, BitVec.getLsbD_or,
      BitVec.getLsbD_ushiftRight, getLsbD_lowMask]
    grind
  · change (((limit >>> 16) &&& 0x0F).setWidth 8 ||| (gran &&& 0xF0) : Byte) &&& 0xF0 = gran &&& 0xF0
    rw [hnibble]
    apply BitVec.eq_of_getLsbD_eq
    intro i hi
    simp only [BitVec.getLsbD_setWidth, BitVec.getLsbD_and, BitVec.getLsbD_or, getLsbD_lowMask,
      hflags i hi]
    grind

/-! ### Any sequence of calls -/

structure SetDesc where
  num : Int
  base : Word
  limit : Word
  access : Byte
  gran : Byte

namespace SetDesc

variable (call : SetDesc)

def run : GdtBytes → GdtBytes := gdtSetDesc call.num call.base call.limit call.access call.gran

def bytes : Fin 8 → Byte := descBytes call.base call.limit call.access call.gran

/-- The descriptor the call asks for. -/
def segment : Segment := ⟨call.base, call.limit.setWidth 20, call.access, call.gran &&& 0xF0⟩

theorem decode_bytes : Segment.decode call.bytes = call.segment := decode_descBytes _ _ _ _

end SetDesc

def setDescs (calls : List SetDesc) (gdt : GdtBytes) : GdtBytes :=
  calls.foldl (fun gdt call => call.run gdt) gdt

def lastCall (calls : List SetDesc) (num : Int) : Option SetDesc :=
  lastWrite (calls.map fun call => (call.num, call)) num

theorem lastCall_eq_none {calls : List SetDesc} {num : Int} :
    lastCall calls num = none ↔ ∀ call ∈ calls, call.num ≠ num := by
  rw [lastCall, lastWrite_eq_none]
  simp

theorem descAt_setDescs (calls : List SetDesc) (gdt : GdtBytes) (num : Int) :
    descAt (setDescs calls gdt) num
      = ((lastCall calls num).map SetDesc.bytes).getD (descAt gdt num) := by
  have hstep (call : SetDesc) : ActsOn call.num call.run fun _ => call.bytes :=
    gdtSetDesc_actsOn _ _ _ _ _
  rw [lastCall, ← lastWrite_map, List.map_map]
  exact recordAt_foldl hstep calls gdt num

/-- An entry decodes to what the last call for it asked for, the entries without a call keep their
bytes, and so does everything around the table. -/
theorem setDescs_roundTrip {calls : List SetDesc}
    (hrange : ∀ call ∈ calls, 0 ≤ call.num ∧ call.num < gdtEntries) (gdt : GdtBytes) :
    (∀ call ∈ calls, ∃ last, lastCall calls call.num = some last ∧
      Segment.decode (descAt (setDescs calls gdt) call.num) = last.segment) ∧
    (∀ num, (∀ call ∈ calls, call.num ≠ num) →
      descAt (setDescs calls gdt) num = descAt gdt num) ∧
    ∀ a, a < 0 ∨ 8 * gdtEntries ≤ a → setDescs calls gdt a = gdt a := by
  have hunset (num : Int) (hnever : ∀ call ∈ calls, call.num ≠ num) :
      descAt (setDescs calls gdt) num = descAt gdt num := by
    rw [descAt_setDescs, lastCall_eq_none.mpr hnever, Option.map_none, Option.getD_none]
  refine ⟨?_, hunset, ?_⟩
  · intro call hcall
    have hset : lastCall calls call.num ≠ none := fun hnone =>
      lastCall_eq_none.mp hnone call hcall rfl
    obtain ⟨last, hlast⟩ := Option.ne_none_iff_exists'.mp hset
    refine ⟨last, hlast, ?_⟩
    rw [descAt_setDescs, hlast, Option.map_some, Option.getD_some, SetDesc.decode_bytes]
  · intro a ha
    obtain ⟨num, k, rfl⟩ := cellAt_cases (show 0 < 8 by decide) a
    have hout : ∀ call ∈ calls, call.num ≠ num := by
      rintro call hcall rfl
      have hnum := hrange call hcall
      simp only [cellAt, gdtEntries] at ha hnum
      omega
    exact congrFun (hunset num hout) k

/-- An entry that is set twice, between two calls for its neighbour. -/
theorem setDescs_roundTrip_overwrite :
    let calls : List SetDesc := [⟨2, 0, 0xFFFFFFFF, 0x92, 0xFF⟩, ⟨1, 0xDEADBEEF, 0, 0x9A, 0xC0⟩,
      ⟨2, 0x12345678, 0x000ABCDE, 0xF2, 0x4F⟩]
    ∀ gdt, Segment.decode (descAt (setDescs calls gdt) 2) = ⟨0x12345678, 0xABCDE, 0xF2, 0x40⟩ ∧
      descAt (setDescs calls gdt) 3 = descAt gdt 3 := by
  intro calls gdt
  have hrange : ∀ call ∈ calls, 0 ≤ call.num ∧ call.num < gdtEntries := by decide
  obtain ⟨hset, hunset, -⟩ := setDescs_roundTrip hrange gdt
  refine ⟨?_, hunset 3 (by decide)⟩
  obtain ⟨last, hlast, hdecode⟩ := hset _ List.mem_cons_self
  cases hlast
  exact hdecode

/-! ### `gdt_init` -/

namespace SetDesc

def null : SetDesc := ⟨0, 0, 0, 0, 0⟩

def kernelCode : SetDesc :=
  ⟨1, 0, gdtSegmentLimit, gdtFlagRing0 ||| gdtFlagSegment ||| gdtFlagCodeseg ||| gdtFlagPresent,
    gdtFlag4kGran ||| gdtFlag32Bit⟩

def kernelData : SetDesc :=
  ⟨2, 0, gdtSegmentLimit, gdtFlagRing0 ||| gdtFlagSegment ||| gdtFlagDataseg ||| gdtFlagPresent,
    gdtFlag4kGran ||| gdtFlag32Bit⟩

def userCode : SetDesc :=
  ⟨3, 0, gdtSegmentLimit, gdtFlagRing3 ||| gdtFlagSegment ||| gdtFlagCodeseg ||| gdtFlagPresent,
    gdtFlag4kGran ||| gdtFlag32Bit⟩

def userData : SetDesc :=
  ⟨4, 0, gdtSegmentLimit, gdtFlagRing3 ||| gdtFlagSegment ||| gdtFlagDataseg ||| gdtFlagPresent,
    gdtFlag4kGran ||| gdtFlag32Bit⟩

end SetDesc

def gdtInitCalls : List SetDesc :=
  [SetDesc.null, SetDesc.kernelCode, SetDesc.kernelData, SetDesc.userCode, SetDesc.userData]

/-- The table is at `address`. -/
def gdtInit (address : Word) (gdt : GdtBytes) : GdtPtr × GdtBytes :=
  (⟨BitVec.ofInt 16 (8 * gdtEntries - 1), address⟩, setDescs gdtInitCalls gdt)

/-- What `__gdt_flush` leaves in the processor. -/
structure SegmentRegs where
  gdtr : GdtPtr
  cs : BitVec 16
  ds : BitVec 16
  es : BitVec 16
  fs : BitVec 16
  gs : BitVec 16
  ss : BitVec 16

def kernelCs : BitVec 16 := 0x08
def kernelDs : BitVec 16 := 0x10

def gdtFlush (ptr : GdtPtr) : SegmentRegs :=
  ⟨ptr, kernelCs, kernelDs, kernelDs, kernelDs, kernelDs, kernelDs⟩

/-- The descriptor a selector names, when all of it is below the limit of the table. -/
def SegmentRegs.select (regs : SegmentRegs) (gdt : GdtBytes) (selector : BitVec 16) :
    Option Segment :=
  if 8 * (selector.toNat / 8) + 7 ≤ regs.gdtr.limit.toNat then
    some (Segment.decode (descAt gdt (selector.toNat / 8)))
  else none

theorem descAt_gdtInit (address : Word) (gdt : GdtBytes) {call : SetDesc}
    (hcall : call ∈ gdtInitCalls) :
    Segment.decode (descAt (gdtInit address gdt).2 call.num) = call.segment := by
  have hlast : lastCall gdtInitCalls call.num = some call := by
    simp only [gdtInitCalls, List.mem_cons, List.not_mem_nil, or_false] at hcall
    obtain rfl | rfl | rfl | rfl | rfl := hcall <;> rfl
  rw [gdtInit, descAt_setDescs, hlast]
  exact call.decode_bytes

theorem select_gdtInit (address : Word) (gdt : GdtBytes) {call : SetDesc} (hcall : call ∈ gdtInitCalls)
    {selector : BitVec 16} (hnum : call.num = (selector.toNat / 8 : Nat))
    (hlimit : 8 * (selector.toNat / 8) + 7 < 8 * 5) :
    (gdtFlush (gdtInit address gdt).1).select (gdtInit address gdt).2 selector
      = some call.segment := by
  have hwhole : 8 * (selector.toNat / 8) + 7
      ≤ (gdtFlush (gdtInit address gdt).1).gdtr.limit.toNat := Nat.le_of_lt_succ hlimit
  rw [SegmentRegs.select, if_pos hwhole, ← descAt_gdtInit address gdt hcall, hnum]
  rfl

/-- The registers are loaded with segments of ring 0 that cover all of memory from address 0 on, one
for code and one for data. -/
theorem gdtFlush_flat (address : Word) (gdt : GdtBytes) :
    let table := (gdtInit address gdt).2
    let regs := gdtFlush (gdtInit address gdt).1
    regs.select table regs.cs = some ⟨0, 0xFFFFF, 0x9A, 0xC0⟩ ∧
      ∀ selector ∈ [regs.ds, regs.es, regs.fs, regs.gs, regs.ss],
        regs.select table selector = some ⟨0, 0xFFFFF, 0x92, 0xC0⟩ := by
  intro table regs
  have hcode : regs.select table kernelCs = some SetDesc.kernelCode.segment :=
    select_gdtInit address gdt (by simp [gdtInitCalls]) rfl (by decide)
  have hdata : regs.select table kernelDs = some SetDesc.kernelData.segment :=
    select_gdtInit address gdt (by simp [gdtInitCalls]) rfl (by decide)
  refine ⟨hcode, ?_⟩
  intro selector hselector
  have hds : selector = kernelDs := List.eq_of_mem_replicate (n := 5) hselector
  rw [hds]
  exact hdata

end Brunix
