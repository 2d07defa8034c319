import Brunix.Interrupt.Cpu
import Brunix.Paging.Access

/-!
# Turning paging on, `paging.asm`

The two routines that load the page directory and set the flag, on a processor whose stack is memory
behind the tables, and whose code is fetched through them as well. The second one saves `ebp` before
paging is on and takes it and its return address off the stack after that, so whether it returns, and to
what, is a question about the map it has just turned on.
-/

namespace Brunix

open Basis Memory

/-- The processor with the control registers that the routines set. Its code is a list of instructions,
of which memory only gives the addresses they are fetched from. -/
structure PagingCpu where
  cpu : Cpu
  cr0 : Word
  cr3 : Word

inductive PagingInstr
  | pushEbp
  | movEbpEsp
  /-- `mov eax, [esp+offset]`. -/
  | movEaxStack (offset : Word)
  | movCr3Eax
  | movEaxCr0
  | orEax (imm : Word)
  | movCr0Eax
  | movEspEbp
  | popEbp
  | ret

/-- The bytes of an instruction, with the offset into the stack in one of them. -/
def PagingInstr.size : PagingInstr → Nat
  | pushEbp | popEbp | ret => 1
  | movEbpEsp | movEspEbp => 2
  | movCr3Eax | movEaxCr0 | movCr0Eax => 3
  | movEaxStack _ => 4
  | orEax _ => 5

namespace PagingCpu

def translate (s : PagingCpu) (kind : AccessKind) (a : Word) : Translation :=
  Brunix.translate s.cr0 s.cr3 s.cpu.mem kind a

/-- The physical address of a word whose four bytes are found together. -/
def wordAt (s : PagingCpu) (kind : AccessKind) (a : Word) : Option Word :=
  match s.translate kind a with
  | .physical p =>
      if ∀ k : Fin 4, s.translate kind (a + BitVec.ofNat 32 k) = .physical (p + BitVec.ofNat 32 k)
      then some p else none
  | _ => none

def load (s : PagingCpu) (a : Word) : Option Word :=
  (s.wordAt .supervisorRead a).map s.cpu.mem.load

def push (s : PagingCpu) (w : Word) : Option PagingCpu :=
  (s.wordAt .supervisorWrite (s.cpu.esp - 4)).map fun p =>
    { s with cpu := { s.cpu with esp := s.cpu.esp - 4, mem := s.cpu.mem.store p w } }

/-- The next bytes of code are fetched from where the linker put them. -/
def Fetches (s : PagingCpu) (n : Nat) : Prop :=
  ∀ k < n, s.translate .supervisorRead (s.cpu.eip + BitVec.ofNat 32 k)
    = .physical (s.cpu.eip + BitVec.ofNat 32 k)

instance (s : PagingCpu) (n : Nat) : Decidable (s.Fetches n) :=
  inferInstanceAs (Decidable (∀ k < n, _ = _))

def skip (n : Nat) (s : PagingCpu) : PagingCpu :=
  { s with cpu := { s.cpu with eip := s.cpu.eip + BitVec.ofNat 32 n } }

def exec (s : PagingCpu) : PagingInstr → Option PagingCpu
  | .pushEbp => s.push s.cpu.ebp
  | .movEbpEsp => some { s with cpu := { s.cpu with ebp := s.cpu.esp } }
  | .movEaxStack offset => do
      let w ← s.load (s.cpu.esp + offset)
      some { s with cpu := { s.cpu with eax := w } }
  | .movCr3Eax => some { s with cr3 := s.cpu.eax }
  | .movEaxCr0 => some { s with cpu := { s.cpu with eax := s.cr0 } }
  | .orEax imm => some { s with cpu := { s.cpu with eax := s.cpu.eax ||| imm } }
  | .movCr0Eax => some { s with cr0 := s.cpu.eax }
  | .movEspEbp => some { s with cpu := { s.cpu with esp := s.cpu.ebp } }
  | .popEbp => do
      let w ← s.load s.cpu.esp
      some { s with cpu := { s.cpu with esp := s.cpu.esp + 4, ebp := w } }
  | .ret => do
      let w ← s.load s.cpu.esp
      some { s with cpu := { s.cpu with esp := s.cpu.esp + 4, eip := w } }

def step (s : PagingCpu) (instr : PagingInstr) : Option PagingCpu :=
  if s.Fetches instr.size then (s.skip instr.size).exec instr else none

def run (code : List PagingInstr) (s : PagingCpu) : Option PagingCpu := code.foldlM step s

end PagingCpu

def codeSize (code : List PagingInstr) : Nat := (code.map PagingInstr.size).sum

/-! ### `paging.asm` -/

/-- The first lines of both routines. -/
def enter : List PagingInstr := [.pushEbp, .movEbpEsp]

/-- The last lines of both routines. -/
def leave : List PagingInstr := [.movEspEbp, .popEbp, .ret]

def loadPageDirectory : List PagingInstr := enter ++ [.movEaxStack 8, .movCr3Eax] ++ leave

def enablePaging : List PagingInstr :=
  enter ++ [.movEaxCr0, .orEax 0x80000000, .movCr0Eax] ++ leave

/-- A call from C. The arguments are pushed, the last one first, and the caller drops them when it is
fetched again. -/
def PagingCpu.call (entry : Word) (routine : List PagingInstr) (args : List Word) (returnAddress : Word)
    (s : PagingCpu) : Option PagingCpu := do
  let s ← args.reverse.foldlM PagingCpu.push s
  let s ← s.push returnAddress
  let s ← PagingCpu.run routine { s with cpu := { s.cpu with eip := entry } }
  if s.Fetches 1 then some { s with cpu := { s.cpu with esp := slot s.cpu.esp args.length } } else none

/-- The addresses of the routines, and those their two calls return to. -/
structure PagingLinks where
  loadPageDirectory : Word
  enablePaging : Word
  afterLoad : Word
  afterEnable : Word

/-- The end of `paging_init`. -/
def turnPagingOn (links : PagingLinks) (pageDirectory : Word) (s : PagingCpu) : Option PagingCpu := do
  let s ← s.call links.loadPageDirectory loadPageDirectory [pageDirectory] links.afterLoad
  s.call links.enablePaging enablePaging [] links.afterEnable

/-! ### The stack -/

def PagingCpu.LowIdentity (s : PagingCpu) : Prop :=
  ∀ kind a, kind.user = false → a.toNat < 0x400000 → s.translate kind a = .physical a

theorem PagingCpu.lowIdentity_off {s : PagingCpu} (h : s.cr0 &&& pagingFlag = 0) : s.LowIdentity :=
  fun _ _ _ _ => if_pos h

theorem PagingCpu.lowIdentity_on {s : PagingCpu} {firstPageTable : Word}
    (h : TablesFilled s.cr3 firstPageTable s.cpu.mem) (hon : s.cr0 &&& pagingFlag ≠ 0) :
    s.LowIdentity := by
  intro kind a huser ha
  rw [translate, h.translate_eq hon, if_neg (by omega), huser]
  rfl

section Low

variable {s : PagingCpu} (h : s.LowIdentity)
include h

theorem PagingCpu.LowIdentity.wordAt_eq {kind : AccessKind} (huser : kind.user = false) {a : Word}
    (ha : a.toNat + 4 ≤ 0x400000) : s.wordAt kind a = some a := by
  have hbytes (k : Fin 4) : s.translate kind (a + BitVec.ofNat 32 k)
      = .physical (a + BitVec.ofNat 32 k) := by
    apply h kind _ huser
    rw [BitVec.toNat_add, BitVec.toNat_ofNat]
    omega
  rw [PagingCpu.wordAt, h kind a huser (by omega)]
  exact if_pos hbytes

theorem PagingCpu.LowIdentity.load_eq {a : Word} (ha : a.toNat + 4 ≤ 0x400000) :
    s.load a = some (s.cpu.mem.load a) := by
  rw [PagingCpu.load, h.wordAt_eq rfl ha, Option.map_some]

theorem PagingCpu.LowIdentity.push_eq (w : Word) (ha : (s.cpu.esp - 4).toNat + 4 ≤ 0x400000) :
    s.push w = some { s with cpu := s.cpu.push w } := by
  rw [PagingCpu.push, h.wordAt_eq rfl ha, Option.map_some]
  rfl

theorem PagingCpu.LowIdentity.fetches {n : Nat} (ha : s.cpu.eip.toNat + n ≤ 0x400000) :
    s.Fetches n := by
  intro k hk
  apply h _ _ rfl
  rw [BitVec.toNat_add, BitVec.toNat_ofNat]
  omega

end Low

/-! ### Fetching code -/

theorem PagingCpu.fetches_off {s : PagingCpu} (h : s.cr0 &&& pagingFlag = 0) (n : Nat) : s.Fetches n :=
  fun _ _ => if_pos h

theorem PagingCpu.Fetches.mono {s : PagingCpu} {m n : Nat} (h : s.Fetches n) (hle : m ≤ n) :
    s.Fetches m :=
  fun k hk => h k (hk.trans_le hle)

theorem PagingCpu.Fetches.skip {s : PagingCpu} {m n : Nat} (h : s.Fetches (m + n)) :
    (s.skip m).Fetches n := by
  intro k hk
  have hbyte := h (m + k) (Nat.add_lt_add_left hk m)
  rw [BitVec.ofNat_add, ← BitVec.add_assoc] at hbyte
  exact hbyte

theorem PagingCpu.step_eq {s : PagingCpu} {instr : PagingInstr} (h : s.Fetches instr.size) :
    s.step instr = (s.skip instr.size).exec instr :=
  if_pos h

theorem PagingCpu.step_off (s : PagingCpu) (h : s.cr0 &&& pagingFlag = 0) (instr : PagingInstr) :
    s.step instr = (s.skip instr.size).exec instr :=
  PagingCpu.step_eq (PagingCpu.fetches_off h _)

/-! ### The routines -/

theorem toNat_sub_four (esp : Word) (h : 4 ≤ esp.toNat) : (esp - 4).toNat = esp.toNat - 4 :=
  BitVec.toNat_sub_of_le (BitVec.le_def.mpr h)

theorem PagingCpu.run_cons (instr : PagingInstr) (rest : List PagingInstr) (s : PagingCpu) :
    s.run (instr :: rest) = (s.step instr).bind (PagingCpu.run rest) :=
  List.foldlM_cons

theorem PagingCpu.run_append (first rest : List PagingInstr) (s : PagingCpu) :
    s.run (first ++ rest) = (s.run first).bind (PagingCpu.run rest) :=
  List.foldlM_append

/-- The processor inside a routine. -/
def PagingCpu.framed (s : PagingCpu) : PagingCpu :=
  { s with cpu := { s.cpu.push s.cpu.ebp with ebp := s.cpu.esp - 4, eip := s.cpu.eip + 1 + 2 } }

theorem enter_spec {s : PagingCpu} (hoff : s.cr0 &&& pagingFlag = 0)
    (ha : (s.cpu.esp - 4).toNat + 4 ≤ 0x400000) : s.run enter = some s.framed := by
  let s₁ : PagingCpu := { s.skip 1 with cpu := (s.skip 1).cpu.push s.cpu.ebp }
  have hpush : (s.skip 1).exec .pushEbp = some s₁ :=
    (show (s.skip 1).LowIdentity from PagingCpu.lowIdentity_off hoff).push_eq s.cpu.ebp ha
  have hmove : s₁.step .movEbpEsp = some s.framed := PagingCpu.step_off s₁ hoff .movEbpEsp
  rw [enter, PagingCpu.run_cons, PagingCpu.step_off s hoff]
  change Option.bind ((s.skip 1).exec .pushEbp) _ = _
  rw [hpush, Option.bind_some, PagingCpu.run_cons, hmove]
  rfl

/-- The end of a routine takes `ebp` and the return address from where `ebp` points. -/
theorem leave_spec {s : PagingCpu} (h : s.LowIdentity) (hfetch : s.Fetches 4) {ebp ret : Word}
    (hwords : s.cpu.mem.Words s.cpu.ebp [ebp, ret]) (ha : s.cpu.ebp.toNat + 8 ≤ 0x400000) :
    s.run leave = some { s with
      cpu := { s.cpu with esp := s.cpu.ebp + 8, ebp := ebp, eip := ret } } := by
  obtain ⟨hebp, hret⟩ := words_cons.mp hwords
  have hret' : s.cpu.mem.load (s.cpu.ebp + 4) = ret := (words_cons.mp hret).1
  have hnext : (s.cpu.ebp + 4).toNat + 4 ≤ 0x400000 := by
    rw [BitVec.toNat_add, show (4 : Word).toNat = 4 from rfl]
    omega
  have hload (t : PagingCpu) (ht : t.LowIdentity) {a : Word} (ha : a.toNat + 4 ≤ 0x400000) :
      t.load a = some (t.cpu.mem.load a) := ht.load_eq ha
  -- neither the map nor the memory changes, only where the code is fetched from
  let s₁ : PagingCpu := { s.skip 2 with cpu := { (s.skip 2).cpu with esp := s.cpu.ebp } }
  let s₂ : PagingCpu := { s₁.skip 1 with
    cpu := { (s₁.skip 1).cpu with esp := s.cpu.ebp + 4, ebp := ebp } }
  have hfetch₁ : s₁.Fetches 2 := PagingCpu.Fetches.skip (s := s) (m := 2) hfetch
  have hfetch₂ : s₂.Fetches 1 := PagingCpu.Fetches.skip (s := s₁) (m := 1) hfetch₁
  have hmove : s.step .movEspEbp = some s₁ := PagingCpu.step_eq (hfetch.mono (by decide))
  have hpop : s₁.step .popEbp = some s₂ := by
    have hword : (s₁.skip 1).load s.cpu.ebp = some ebp := by
      rw [← hebp]
      exact hload (s₁.skip 1) h (by omega)
    rw [PagingCpu.step_eq (hfetch₁.mono (by decide)), PagingCpu.exec]
    change Option.bind ((s₁.skip 1).load s.cpu.ebp) _ = _
    rw [hword]
    rfl
  have hreturn : s₂.step .ret = some { s with
      cpu := { s.cpu with esp := s.cpu.ebp + 8, ebp := ebp, eip := ret } } := by
    have hword : (s₂.skip 1).load (s.cpu.ebp + 4) = some ret := by
      rw [← hret']
      exact hload (s₂.skip 1) h hnext
    have height : s.cpu.ebp + 4 + 4 = s.cpu.ebp + 8 := BitVec.add_assoc ..
    rw [PagingCpu.step_eq hfetch₂, PagingCpu.exec]
    change Option.bind ((s₂.skip 1).load (s.cpu.ebp + 4)) _ = _
    rw [hword, Option.bind_some, ← height]
    rfl
  rw [leave, PagingCpu.run_cons, hmove, Option.bind_some, PagingCpu.run_cons, hpop, Option.bind_some,
    PagingCpu.run_cons, hreturn]
  rfl

/-- A routine whose body leaves the stack alone returns to its caller, if the processor finds the
stack where it was, and the last lines of the code. -/
theorem routine_spec {s t : PagingCpu} {body : List PagingInstr}
    (hbody : s.framed.run body = some t) (hebp : t.cpu.ebp = s.cpu.esp - 4)
    (hmem : t.cpu.mem = s.framed.cpu.mem) (hoff : s.cr0 &&& pagingFlag = 0) (ht : t.LowIdentity)
    (hfetch : t.Fetches 4) {base ret : Word} {ws : List Word} (hstack : s.cpu.Stack base (ret :: ws))
    (hlow : 4 ≤ s.cpu.esp.toNat) (hhigh : s.cpu.esp.toNat + 4 ≤ 0x400000)
    (hbound : 4 * ws.length + 8 ≤ 2 ^ 32) :
    s.run (enter ++ body ++ leave) = some { t with
      cpu := { t.cpu with esp := s.cpu.esp + 4, ebp := s.cpu.ebp, eip := ret } } := by
  have hesp := toNat_sub_four _ hlow
  have hpushed := hstack.push s.cpu.ebp (by simp only [List.length_cons]; omega)
  have hwords : t.cpu.mem.Words t.cpu.ebp [s.cpu.ebp, ret] := by
    obtain ⟨hfirst, hrest⟩ := words_cons.mp hpushed.words
    rw [hmem, hebp]
    exact words_cons.mpr ⟨hfirst, words_cons.mpr ⟨(words_cons.mp hrest).1, words_nil _ _⟩⟩
  have hleave := leave_spec ht hfetch hwords (by rw [hebp]; omega)
  have hback : s.cpu.esp - 4 + 8 = s.cpu.esp + 4 := by bv_omega
  rw [hebp, hback] at hleave
  rw [PagingCpu.run_append, PagingCpu.run_append, enter_spec hoff (by omega), Option.bind_some, hbody,
    Option.bind_some, hleave]

theorem loadPageDirectory_spec {s : PagingCpu} (hoff : s.cr0 &&& pagingFlag = 0)
    {base ret arg : Word} {ws : List Word} (hstack : s.cpu.Stack base (ret :: arg :: ws))
    (hlow : 4 ≤ s.cpu.esp.toNat) (hhigh : s.cpu.esp.toNat + 8 ≤ 0x400000)
    (hbound : 4 * ws.length + 12 ≤ 2 ^ 32) :
    s.run loadPageDirectory = some { s with
      cr3 := arg
      cpu := { s.cpu with
        eax := arg
        eip := ret
        esp := s.cpu.esp + 4
        mem := s.cpu.mem.store (s.cpu.esp - 4) s.cpu.ebp } } := by
  have hesp := toNat_sub_four _ hlow
  have hpushed := hstack.push s.cpu.ebp (by simp only [List.length_cons]; omega)
  have hload : (s.framed.skip 4).load (s.framed.cpu.esp + 8) = some arg := by
    rw [(show (s.framed.skip 4).LowIdentity from PagingCpu.lowIdentity_off hoff).load_eq]
    · exact congrArg some (hpushed.load_slot (i := 2) rfl)
    · change (s.cpu.esp - 4 + 8).toNat + 4 ≤ 0x400000
      rw [BitVec.toNat_add, hesp, show (8 : Word).toNat = 8 from rfl]
      omega
  let s₁ : PagingCpu := { s.framed.skip 4 with cpu := { (s.framed.skip 4).cpu with eax := arg } }
  let s₂ : PagingCpu := { s₁.skip 3 with cr3 := arg }
  have hargument : s.framed.step (.movEaxStack 8) = some s₁ := by
    have hstep : s.framed.step (.movEaxStack 8) = (s.framed.skip 4).exec (.movEaxStack 8) :=
      PagingCpu.step_off s.framed hoff _
    rw [hstep, PagingCpu.exec]
    change Option.bind ((s.framed.skip 4).load (s.framed.cpu.esp + 8)) _ = _
    rw [hload]
    rfl
  have hroot : s₁.step .movCr3Eax = some s₂ := PagingCpu.step_off s₁ hoff .movCr3Eax
  have hbody : s.framed.run [.movEaxStack 8, .movCr3Eax] = some s₂ := by
    rw [PagingCpu.run_cons, hargument, Option.bind_some, PagingCpu.run_cons, hroot]
    rfl
  have hrun := routine_spec hbody rfl rfl hoff (PagingCpu.lowIdentity_off (s := s₂) hoff)
    (PagingCpu.fetches_off (s := s₂) hoff 4) hstack hlow (by omega)
    (by simp only [List.length_cons]; omega)
  exact hrun

theorem or_pagingFlag (cr0 : Word) : (cr0 ||| 0x80000000) &&& pagingFlag ≠ 0 := by
  intro h
  have hbit := congrArg (BitVec.getLsbD · 31) h
  simp [pagingFlag] at hbit

/-- The routine returns through the tables it has turned on, which map its last lines too. -/
theorem enablePaging_spec {s : PagingCpu} (hoff : s.cr0 &&& pagingFlag = 0)
    (hcode : s.cpu.eip.toNat + codeSize enablePaging ≤ 0x400000) {firstPageTable : Word}
    (hfilled : TablesFilled s.cr3 firstPageTable (s.cpu.mem.store (s.cpu.esp - 4) s.cpu.ebp))
    {base ret : Word} {ws : List Word} (hstack : s.cpu.Stack base (ret :: ws))
    (hlow : 4 ≤ s.cpu.esp.toNat) (hhigh : s.cpu.esp.toNat + 4 ≤ 0x400000)
    (hbound : 4 * ws.length + 8 ≤ 2 ^ 32) :
    s.run enablePaging = some { s with
      cr0 := s.cr0 ||| 0x80000000
      cpu := { s.cpu with
        eax := s.cr0 ||| 0x80000000
        eip := ret
        esp := s.cpu.esp + 4
        mem := s.cpu.mem.store (s.cpu.esp - 4) s.cpu.ebp } } := by
  let s₁ : PagingCpu := { s.framed.skip 3 with cpu := { (s.framed.skip 3).cpu with eax := s.cr0 } }
  let s₂ : PagingCpu := { s₁.skip 5 with
    cpu := { (s₁.skip 5).cpu with eax := s.cr0 ||| 0x80000000 } }
  let t : PagingCpu := { s₂.skip 3 with cr0 := s.cr0 ||| 0x80000000 }
  have hread : s.framed.step .movEaxCr0 = some s₁ := PagingCpu.step_off s.framed hoff .movEaxCr0
  have hset : s₁.step (.orEax 0x80000000) = some s₂ := PagingCpu.step_off s₁ hoff (.orEax 0x80000000)
  have hwrite : s₂.step .movCr0Eax = some t := PagingCpu.step_off s₂ hoff .movCr0Eax
  have hbody : s.framed.run [.movEaxCr0, .orEax 0x80000000, .movCr0Eax] = some t := by
    rw [PagingCpu.run_cons, hread, Option.bind_some, PagingCpu.run_cons, hset, Option.bind_some,
      PagingCpu.run_cons, hwrite]
    rfl
  have hon : t.LowIdentity := PagingCpu.lowIdentity_on hfilled (or_pagingFlag s.cr0)
  have hend : t.cpu.eip.toNat + 4 ≤ 0x400000 := by
    rw [show codeSize enablePaging = 18 from rfl] at hcode
    change (s.cpu.eip + 1 + 2 + 3 + 5 + 3).toNat + 4 ≤ 0x400000
    bv_omega
  have hrun := routine_spec hbody rfl rfl hoff hon (hon.fetches hend) hstack hlow hhigh hbound
  exact hrun

/-! ### The calls -/

/-- Room for some words under the stack pointer, in the first 4 MiB and outside both tables. -/
structure StackRoom (pageDirectory firstPageTable : Word) (words : Nat) (esp : Word) : Prop where
  low : 4 * words ≤ esp.toNat
  high : esp.toNat ≤ 0x400000
  directory : esp.toNat ≤ pageDirectory.toNat ∨ pageDirectory.toNat + 4096 + 4 * words ≤ esp.toNat
  table : esp.toNat ≤ firstPageTable.toNat ∨ firstPageTable.toNat + 4096 + 4 * words ≤ esp.toNat

theorem store_of_outside {mem : Memory} {a w b : Word} (ha : a.toNat + 4 ≤ 2 ^ 32)
    (hb : b.toNat < a.toNat ∨ a.toNat + 4 ≤ b.toNat) : mem.store a w b = mem b := by
  rw [store, if_neg]
  bv_omega

theorem apart_of_outside {table a : Word} (haligned : table.toNat % 4096 = 0)
    (ha : a.toNat + 4 ≤ 2 ^ 32) (hout : a.toNat + 4 ≤ table.toNat ∨ table.toNat + 4096 ≤ a.toNat)
    {i : Nat} (hi : i < 1024) : Apart a (slot table i) := by
  have := table.isLt
  constructor <;>
    simp only [slot, BitVec.toNat_sub, BitVec.toNat_add, BitVec.toNat_ofNat] <;> omega

theorem TablesFilled.store {pageDirectory firstPageTable : Word} {mem : Memory}
    (h : TablesFilled pageDirectory firstPageTable mem) {a : Word} (ha : a.toNat + 4 ≤ 2 ^ 32)
    (hdirectory : a.toNat + 4 ≤ pageDirectory.toNat ∨ pageDirectory.toNat + 4096 ≤ a.toNat)
    (htable : a.toNat + 4 ≤ firstPageTable.toNat ∨ firstPageTable.toNat + 4096 ≤ a.toNat)
    (w : Word) : TablesFilled pageDirectory firstPageTable (mem.store a w) := by
  refine ⟨h.directory_aligned, h.table_aligned, ?_, fun i hlow hi => ?_, fun i hi => ?_⟩
  · rw [load_store_of_apart (apart_of_outside h.directory_aligned ha hdirectory (by omega))]
    exact h.first
  · rw [load_store_of_apart (apart_of_outside h.directory_aligned ha hdirectory hi)]
    exact h.directory i hlow hi
  · rw [load_store_of_apart (apart_of_outside h.table_aligned ha htable hi)]
    exact h.table i hi

theorem StackRoom.mono {pageDirectory firstPageTable esp : Word} {m n : Nat}
    (h : StackRoom pageDirectory firstPageTable n esp) (hle : m ≤ n) :
    StackRoom pageDirectory firstPageTable m esp := by
  obtain ⟨hlow, hhigh, hdirectory, htable⟩ := h
  constructor <;> omega

theorem StackRoom.push {pageDirectory firstPageTable : Word} {words : Nat} {s : Cpu}
    (h : StackRoom pageDirectory firstPageTable (words + 1) s.esp) (w : Word) :
    StackRoom pageDirectory firstPageTable words (s.push w).esp := by
  obtain ⟨hlow, hhigh, hdirectory, htable⟩ := h
  have hesp := toNat_sub_four s.esp (by omega)
  constructor <;> rw [Cpu.push_esp] <;> omega

def Cpu.pushAll (ws : List Word) (s : Cpu) : Cpu := ws.foldl (fun s w => s.push w) s

/-- What is pushed stays out of the tables, and changes nothing but the room it takes. -/
theorem StackRoom.pushAll {pageDirectory firstPageTable : Word} (ws : List Word) {s : Cpu}
    (h : StackRoom pageDirectory firstPageTable ws.length s.esp)
    (hfilled : TablesFilled pageDirectory firstPageTable s.mem) :
    TablesFilled pageDirectory firstPageTable (s.pushAll ws).mem
      ∧ ∀ b : Word, b.toNat + 4 * ws.length < s.esp.toNat ∨ s.esp.toNat ≤ b.toNat →
        (s.pushAll ws).mem b = s.mem b := by
  induction ws generalizing s with
  | nil => exact ⟨hfilled, fun b _ => rfl⟩
  | cons w ws ih =>
      have hpush := h.push w
      obtain ⟨hlow, hhigh, hdirectory, htable⟩ := h
      simp only [List.length_cons] at hlow hdirectory htable
      have hesp := toNat_sub_four s.esp (by omega)
      obtain ⟨hrest, hframe⟩ := ih hpush (hfilled.store (by omega) (by omega) (by omega) w)
      refine ⟨hrest, fun b hb => ?_⟩
      rw [List.length_cons] at hb
      have hfirst : (s.push w).mem b = s.mem b := store_of_outside (by omega) (by omega)
      rw [← hfirst]
      exact hframe b (by rw [Cpu.push_esp]; omega)

theorem PagingCpu.push_off {s : PagingCpu} (hoff : s.cr0 &&& pagingFlag = 0)
    (hlow : 4 ≤ s.cpu.esp.toNat) (hhigh : s.cpu.esp.toNat ≤ 0x400000) (w : Word) :
    s.push w = some { s with cpu := s.cpu.push w } := by
  have hesp := toNat_sub_four _ hlow
  exact (PagingCpu.lowIdentity_off hoff).push_eq w (by omega)

theorem call_loadPageDirectory {s : PagingCpu} (hoff : s.cr0 &&& pagingFlag = 0)
    (hlow : 12 ≤ s.cpu.esp.toNat) (hhigh : s.cpu.esp.toNat ≤ 0x400000) (entry arg ret : Word) :
    s.call entry loadPageDirectory [arg] ret = some { s with
      cr3 := arg
      cpu := { s.cpu with
        eax := arg
        eip := ret
        mem := (s.cpu.pushAll [arg, ret, s.cpu.ebp]).mem } } := by
  have h4 := toNat_sub_four s.cpu.esp (by omega)
  have h8 := toNat_sub_four (s.cpu.esp - 4) (by omega)
  have hback : slot (s.cpu.esp - 4 - 4 + 4) 1 = s.cpu.esp := by
    rw [slot]
    bv_omega
  have hstack : ((s.cpu.push arg).push ret).Stack s.cpu.esp [ret, arg] :=
    (s.cpu.stack_nil.push arg (by simp)).push ret (by simp)
  have hrun := loadPageDirectory_spec
    (s := { s with cpu := { (s.cpu.push arg).push ret with eip := entry } }) hoff
    (hstack.of_eq rfl rfl) (by simp only [Cpu.push_esp]; omega) (by simp only [Cpu.push_esp]; omega)
    (by simp)
  have hpush : s.push arg = some { s with cpu := s.cpu.push arg } :=
    PagingCpu.push_off hoff (by omega) hhigh arg
  have hpush' : PagingCpu.push { s with cpu := s.cpu.push arg } ret
      = some { s with cpu := (s.cpu.push arg).push ret } :=
    PagingCpu.push_off (s := { s with cpu := s.cpu.push arg }) hoff
      (by simp only [Cpu.push_esp]; omega) (by simp only [Cpu.push_esp]; omega) ret
  let t : PagingCpu := { s with
    cr3 := arg
    cpu := { s.cpu with
      eax := arg
      eip := ret
      mem := (s.cpu.pushAll [arg, ret, s.cpu.ebp]).mem } }
  have hfetch : t.Fetches 1 := PagingCpu.fetches_off (s := t) hoff 1
  rw [PagingCpu.call, List.reverse_singleton, List.foldlM_cons, hpush]
  change Option.bind (PagingCpu.push _ ret) _ = _
  rw [hpush', Option.bind_some]
  change Option.bind (PagingCpu.run _ _) _ = _
  rw [hrun, Option.bind_some]
  refine (if_pos hfetch).trans ?_
  simp only [List.length_cons, List.length_nil, Nat.zero_add, Cpu.push_esp, hback]
  rfl

theorem call_enablePaging {s : PagingCpu} (hoff : s.cr0 &&& pagingFlag = 0)
    (hlow : 8 ≤ s.cpu.esp.toNat) (hhigh : s.cpu.esp.toNat ≤ 0x400000) {entry ret : Word}
    (hcode : entry.toNat + codeSize enablePaging ≤ 0x400000) (hret : ret.toNat < 0x400000)
    {firstPageTable : Word}
    (hfilled : TablesFilled s.cr3 firstPageTable (s.cpu.pushAll [ret, s.cpu.ebp]).mem) :
    s.call entry enablePaging [] ret = some { s with
      cr0 := s.cr0 ||| 0x80000000
      cpu := { s.cpu with
        eax := s.cr0 ||| 0x80000000
        eip := ret
        mem := (s.cpu.pushAll [ret, s.cpu.ebp]).mem } } := by
  have h4 := toNat_sub_four s.cpu.esp (by omega)
  have hstack : (s.cpu.push ret).Stack s.cpu.esp [ret] := s.cpu.stack_nil.push ret (by simp)
  have hrun := enablePaging_spec (s := { s with cpu := { s.cpu.push ret with eip := entry } }) hoff
    hcode hfilled (hstack.of_eq rfl rfl) (by simp only [Cpu.push_esp]; omega)
    (by simp only [Cpu.push_esp]; omega) (by simp)
  let t : PagingCpu := { s with
    cr0 := s.cr0 ||| 0x80000000
    cpu := { s.cpu with
      eax := s.cr0 ||| 0x80000000
      eip := ret
      mem := (s.cpu.pushAll [ret, s.cpu.ebp]).mem } }
  have hon : t.LowIdentity := PagingCpu.lowIdentity_on hfilled (or_pagingFlag s.cr0)
  have hfetch : t.Fetches 1 := hon.fetches hret
  rw [PagingCpu.call, List.reverse_nil, List.foldlM_nil]
  change Option.bind (s.push ret) _ = _
  rw [PagingCpu.push_off hoff (by omega) hhigh ret, Option.bind_some]
  change Option.bind (PagingCpu.run _ _) _ = _
  rw [hrun, Option.bind_some]
  refine (if_pos hfetch).trans ?_
  simp only [List.length_nil, slot_zero, Cpu.push_esp, BitVec.sub_add_cancel]
  rfl

/-- What the calls leave: the caller's registers and all memory but three words under its stack
pointer as they were, and the map of the tables. -/
structure PagingOn (pageDirectory : Word) (s t : PagingCpu) : Prop where
  cr0 : t.cr0 = s.cr0 ||| pagingFlag
  cr3 : t.cr3 = pageDirectory
  esp : t.cpu.esp = s.cpu.esp
  ebp : t.cpu.ebp = s.cpu.ebp
  ebx : t.cpu.ebx = s.cpu.ebx
  esi : t.cpu.esi = s.cpu.esi
  edi : t.cpu.edi = s.cpu.edi
  mem : ∀ b, b.toNat + 12 < s.cpu.esp.toNat ∨ s.cpu.esp.toNat ≤ b.toNat →
    t.cpu.mem b = s.cpu.mem b
  map : ∀ kind a, t.translate kind a
    = if 0x400000 ≤ a.toNat then .fault (kind.errorCode false)
      else if kind.user then .fault (kind.errorCode true) else s.translate kind a

/-- With the filled tables, a stack in the first 4 MiB that does not reach into them, and in the first
4 MiB also the code of `__enable_paging` and what it returns to, both routines return to their caller.
From then on every access of the supervisor below 4 MiB goes where it went before, and all others
fault. -/
theorem turnPagingOn_spec {pageDirectory firstPageTable : Word} {s : PagingCpu}
    (hoff : s.cr0 &&& pagingFlag = 0)
    (hfilled : TablesFilled pageDirectory firstPageTable s.cpu.mem)
    (hroom : StackRoom pageDirectory firstPageTable 3 s.cpu.esp) {links : PagingLinks}
    (hcode : links.enablePaging.toNat + codeSize enablePaging ≤ 0x400000)
    (hret : links.afterEnable.toNat < 0x400000) :
    ∃ t, turnPagingOn links pageDirectory s = some t ∧ t.cpu.eip = links.afterEnable
      ∧ PagingOn pageDirectory s t := by
  obtain ⟨entry, entry', ret, ret'⟩ := links
  have hlow := hroom.low
  have hhigh := hroom.high
  obtain ⟨hfilled₁, hframe₁⟩ := hroom.pushAll [pageDirectory, ret, s.cpu.ebp] hfilled
  -- the second call uses two of the words again
  let u : PagingCpu := { s with
    cr3 := pageDirectory
    cpu := { s.cpu with
      eax := pageDirectory
      eip := ret
      mem := (s.cpu.pushAll [pageDirectory, ret, s.cpu.ebp]).mem } }
  have hroom₂ : StackRoom pageDirectory firstPageTable 2 u.cpu.esp := hroom.mono (by omega)
  obtain ⟨hfilled₂, hframe₂⟩ := hroom₂.pushAll [ret', u.cpu.ebp] hfilled₁
  have hfirst : s.call entry loadPageDirectory [pageDirectory] ret = some u :=
    call_loadPageDirectory hoff (by omega) hhigh entry pageDirectory ret
  have hsecond := call_enablePaging (s := u) hoff (by change 8 ≤ s.cpu.esp.toNat; omega) hhigh hcode
    hret hfilled₂
  have hrun : turnPagingOn ⟨entry, entry', ret, ret'⟩ pageDirectory s
      = u.call entry' enablePaging [] ret' := by
    rw [turnPagingOn, hfirst]
    rfl
  rw [hrun, hsecond]
  refine ⟨_, rfl, rfl, rfl, rfl, rfl, rfl, rfl, rfl, rfl, fun b hb => ?_, fun kind a => ?_⟩
  · have hu : u.cpu.mem b = s.cpu.mem b := hframe₁ b hb
    rw [← hu]
    exact hframe₂ b (by change b.toNat + 8 < s.cpu.esp.toNat ∨ s.cpu.esp.toNat ≤ b.toNat; omega)
  · have hidentity : s.translate kind a = .physical a := if_pos hoff
    rw [hidentity]
    exact hfilled₂.translate_eq (or_pagingFlag s.cr0) kind a

def sampleCaller : PagingCpu where
  cpu :=
    { eax := 1, ecx := 2, edx := 3, ebx := 4, esp := 0x9000, ebp := 5, esi := 6, edi := 7
      ds := 0x10, es := 0x10, fs := 0x10, gs := 0x10
      cs := 0x08, eip := 0x00101234, eflags := 0x02, mem := sampleTables }
  cr0 := 0x11
  cr3 := 0

def sampleLinks : PagingLinks := ⟨0x00103800, 0x00103810, 0x00101240, 0x00101248⟩

theorem turnPagingOn_spec_sample :
    ∃ t, turnPagingOn sampleLinks 0x1000 sampleCaller = some t ∧ t.cpu.eip = 0x00101248
      ∧ t.translate .supervisorWrite 0xB8000 = .physical 0xB8000
      ∧ t.translate .supervisorRead 0x400000 = .fault 0 := by
  have hroom : StackRoom 0x1000 0x2000 3 0x9000 := ⟨by decide, by decide, by decide, by decide⟩
  have hfilled : TablesFilled 0x1000 0x2000 sampleCaller.cpu.mem := by
    simp only [sampleCaller]
    exact sampleTables_filled
  have hoff : sampleCaller.cr0 &&& pagingFlag = 0 := by decide
  obtain ⟨t, hrun, heip, hon⟩ := turnPagingOn_spec hoff hfilled hroom
    (show sampleLinks.enablePaging.toNat + codeSize enablePaging ≤ 0x400000 by decide) (by decide)
  refine ⟨t, hrun, heip, ?_, ?_⟩
  · have hlow : ¬ 0x400000 ≤ (0xB8000 : Word).toNat := by decide
    have hsupervisor : ¬ AccessKind.supervisorWrite.user = true := by decide
    rw [hon.map, if_neg hlow, if_neg hsupervisor, PagingCpu.translate, translate, if_pos hoff]
  · have hhigh : 0x400000 ≤ (0x400000 : Word).toNat := by decide
    rw [hon.map, if_pos hhigh]
    exact congrArg Translation.fault (by decide)

end Brunix
