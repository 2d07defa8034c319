import Brunix.Interrupt.Cpu
import Mathlib.Tactic.IntervalCases

/-!
# The stubs of `interrupt.asm`

Every vector the kernel serves has a stub that completes the frame the processor began: an error code
if the processor pushed none, and the number of the vector. The common tail adds the registers, so
that the stack reads as a `registers_t`, and takes everything off again after the call. The two halves
are specified apart, over whatever words the stack holds, so that a stub which pushes a word too many
is as good a case as the others.
-/

namespace Brunix

open Basis Memory

/-! ### The code -/

/-- The first half of a common stub, up to the call. -/
def saveContext : List Instr :=
  [.pusha, .movAxDs, .pushEax, .movAx 0x10, .movDsAx, .movEsAx, .movFsAx, .movGsAx]

/-- The second half of a common stub, after the call. -/
def restoreContext : List Instr :=
  [.popEbx, .movDsBx, .movEsBx, .movFsBx, .movGsBx, .popa, .addEsp 8, .sti, .iret]

def isrCommonStub : List Instr := saveContext ++ .call .isrHandler :: restoreContext

def irqCommonStub : List Instr := saveContext ++ .call .irqHandler :: restoreContext

inductive Label
  | isr (n : Nat)
  | irq (n : Nat)
  deriving DecidableEq

/-- The uses of its macros. -/
inductive Stub
  | isrNoErrCode (n : Nat)
  | isrErrCode (n : Nat)
  | irq (n vector : Nat)
  deriving DecidableEq

namespace Stub

def label : Stub → Label
  | isrNoErrCode n => .isr n
  | isrErrCode n => .isr n
  | irq n _ => .irq n

def prologue : Stub → List Instr
  | isrNoErrCode n => [.cli, .pushByte 0, .push (BitVec.ofNat 32 n)]
  | isrErrCode n => [.cli, .push (BitVec.ofNat 32 n)]
  | irq _ vector => [.cli, .pushByte 0, .pushByte (BitVec.ofNat 8 vector)]

def callee : Stub → Callee
  | isrNoErrCode _ => .isrHandler
  | isrErrCode _ => .isrHandler
  | irq _ _ => .irqHandler

def code : Stub → List Instr
  | isrNoErrCode n => prologue (isrNoErrCode n) ++ isrCommonStub
  | isrErrCode n => prologue (isrErrCode n) ++ isrCommonStub
  | irq n vector => prologue (irq n vector) ++ irqCommonStub

end Stub

/-- The stubs, in the order of the file. -/
def interruptAsm : List Stub :=
  [.isrNoErrCode 0, .isrNoErrCode 1, .isrNoErrCode 2, .isrNoErrCode 3, .isrNoErrCode 4,
    .isrNoErrCode 5, .isrNoErrCode 6, .isrNoErrCode 7, .isrErrCode 8, .isrNoErrCode 9,
    .isrErrCode 10, .isrErrCode 11, .isrErrCode 12, .isrErrCode 13, .isrErrCode 14,
    .isrNoErrCode 15, .isrNoErrCode 16, .isrNoErrCode 17, .isrNoErrCode 18, .isrNoErrCode 19,
    .isrNoErrCode 20, .isrNoErrCode 21, .isrNoErrCode 22, .isrNoErrCode 23, .isrNoErrCode 24,
    .isrNoErrCode 25, .isrNoErrCode 26, .isrNoErrCode 27, .isrNoErrCode 28, .isrNoErrCode 29,
    .isrNoErrCode 30, .isrNoErrCode 31, .isrNoErrCode 0x80,
    .irq 0 32, .irq 1 33, .irq 2 34, .irq 3 35, .irq 4 36, .irq 5 37, .irq 6 38, .irq 7 39,
    .irq 8 40, .irq 9 41, .irq 10 42, .irq 11 43, .irq 12 44, .irq 13 45, .irq 14 46, .irq 15 47]

def vectorLabel (vector : Nat) : Option Label :=
  if vector < 32 ∨ vector = 0x80 then some (.isr vector)
  else if vector < 48 then some (.irq (vector - 32))
  else none

def stubAt (label : Label) : Option Stub := interruptAsm.find? fun stub => stub.label = label

def vectorStub (vector : Nat) : Option Stub := vectorLabel vector >>= stubAt

/-- The stubs that serve a vector: one without an error code of its own, one with, or one of an
interrupt request. The stub of vector 17 is of the first kind. -/
inductive Serves (vector : Nat) : Stub → Prop
  | dummy (hcode : hasErrorCode vector = false) : Serves vector (.isrNoErrCode vector)
  | alignmentCheck (hvector : vector = 17) : Serves vector (.isrNoErrCode vector)
  | code (hcode : hasErrorCode vector = true) (hne : vector ≠ 17) :
      Serves vector (.isrErrCode vector)
  | request (hcode : hasErrorCode vector = false) (hlow : 32 ≤ vector) (hhigh : vector < 48) :
      Serves vector (.irq (vector - 32) vector)

theorem vectorStub_serves {vector : Nat} {stub : Stub} (h : vectorStub vector = some stub) :
    Serves vector stub := by
  have htable : ∀ v < 129, ∀ stub ∈ vectorStub v,
      stub = .isrNoErrCode v ∧ hasErrorCode v = false
        ∨ stub = .isrNoErrCode v ∧ v = 17
        ∨ stub = .isrErrCode v ∧ hasErrorCode v = true ∧ v ≠ 17
        ∨ stub = .irq (v - 32) v ∧ hasErrorCode v = false ∧ 32 ≤ v ∧ v < 48 := by
    decide +kernel
  have hlt : vector < 129 := by
    by_contra hge
    have hnone : vectorLabel vector = none := by
      rw [vectorLabel, if_neg (by omega), if_neg (by omega)]
    rw [vectorStub, hnone] at h
    cases h
  obtain ⟨rfl, hcode⟩ | ⟨rfl, hvector⟩ | ⟨rfl, hcode, hne⟩ | ⟨rfl, hcode, hlow, hhigh⟩ :=
    htable vector hlt stub h
  · exact .dummy hcode
  · exact .alignmentCheck hvector
  · exact .code hcode hne
  · exact .request hcode hlow hhigh

/-! ### The frame -/

/-- `struct registers_t`. -/
structure Registers where
  ds : Word
  edi : Word
  esi : Word
  ebp : Word
  esp : Word
  ebx : Word
  edx : Word
  ecx : Word
  eax : Word
  intNo : Word
  errCode : Word
  eip : Word
  cs : Word
  eflags : Word
  useresp : Word
  ss : Word

def Registers.read (mem : Memory) (a : Word) : Registers where
  ds := mem.load (slot a 0)
  edi := mem.load (slot a 1)
  esi := mem.load (slot a 2)
  ebp := mem.load (slot a 3)
  esp := mem.load (slot a 4)
  ebx := mem.load (slot a 5)
  edx := mem.load (slot a 6)
  ecx := mem.load (slot a 7)
  eax := mem.load (slot a 8)
  intNo := mem.load (slot a 9)
  errCode := mem.load (slot a 10)
  eip := mem.load (slot a 11)
  cs := mem.load (slot a 12)
  eflags := mem.load (slot a 13)
  useresp := mem.load (slot a 14)
  ss := mem.load (slot a 15)

def Cpu.argument (s : Cpu) : Word := s.esp + 4

/-- What a C function that leaves its `registers_t` argument alone does to the processor, from its
entry to after its `ret`. -/
structure Cdecl (s s' : Cpu) : Prop where
  esp : s'.esp = s.esp + 4
  ebx : s'.ebx = s.ebx
  ebp : s'.ebp = s.ebp
  esi : s'.esi = s.esi
  edi : s'.edi = s.edi
  argument : ∀ i < 16, s'.mem.load (slot s.argument i) = s.mem.load (slot s.argument i)

/-- The registers that a stub has to bring back, all but the stack pointer. -/
structure SameRegisters (s t : Cpu) : Prop where
  eax : t.eax = s.eax
  ecx : t.ecx = s.ecx
  edx : t.edx = s.edx
  ebx : t.ebx = s.ebx
  ebp : t.ebp = s.ebp
  esi : t.esi = s.esi
  edi : t.edi = s.edi
  ds : t.ds = s.ds
  es : t.es = s.es
  fs : t.fs = s.fs
  gs : t.gs = s.gs

/-- The interrupted program goes on where it was. -/
structure Resumed (s t : Cpu) : Prop where
  registers : SameRegisters s t
  esp : t.esp = s.esp
  eip : t.eip = s.eip
  cs : t.cs = s.cs
  eflags : t.eflags = s.eflags

/-- The record describes the interrupted program and its interrupt. -/
structure Describes (vector : Nat) (err : Word) (s : Cpu) (regs : Registers) : Prop where
  intNo : regs.intNo = BitVec.ofNat 32 vector
  errCode : regs.errCode = errorCode vector err
  eip : regs.eip = s.eip
  cs : regs.cs = s.cs.setWidth 32
  eflags : regs.eflags = s.eflags
  edi : regs.edi = s.edi
  esi : regs.esi = s.esi
  ebp : regs.ebp = s.ebp
  ebx : regs.ebx = s.ebx
  edx : regs.edx = s.edx
  ecx : regs.ecx = s.ecx
  eax : regs.eax = s.eax
  ds : regs.ds.setWidth 16 = s.ds

/-- The words the common stubs push: the data segment and the registers. -/
def savedWords (s : Cpu) : List Word :=
  [setLow s.eax s.ds, s.edi, s.esi, s.ebp, s.esp, s.ebx, s.edx, s.ecx, s.eax]

section Halves

variable (link : Linkage)

theorem pusha_stack {s : Cpu} {base : Word} {ws : List Word} (h : s.Stack base ws)
    (hbound : 4 * ws.length + 36 ≤ 2 ^ 32) :
    (s.step link .pusha).Stack base
      (s.edi :: s.esi :: s.ebp :: s.esp :: s.ebx :: s.edx :: s.ecx :: s.eax :: ws) := by
  have h₁ := h.push s.eax (by omega)
  have h₂ := h₁.push s.ecx (by simp only [List.length_cons]; omega)
  have h₃ := h₂.push s.edx (by simp only [List.length_cons]; omega)
  have h₄ := h₃.push s.ebx (by simp only [List.length_cons]; omega)
  have h₅ := h₄.push s.esp (by simp only [List.length_cons]; omega)
  have h₆ := h₅.push s.ebp (by simp only [List.length_cons]; omega)
  have h₇ := h₆.push s.esi (by simp only [List.length_cons]; omega)
  exact h₇.push s.edi (by simp only [List.length_cons]; omega)

theorem saveContext_stack {s : Cpu} {base : Word} {ws : List Word} (h : s.Stack base ws)
    (hbound : 4 * ws.length + 36 ≤ 2 ^ 32) :
    (s.run link saveContext).Stack base (savedWords s ++ ws) := by
  have hpusha := pusha_stack link h hbound
  have heax : (s.step link .pusha).eax = s.eax := by simp only [Cpu.step, Cpu.push_eax]
  have hds : (s.step link .pusha).ds = s.ds := by simp only [Cpu.step, Cpu.push_ds]
  rw [saveContext, Cpu.run_cons]
  -- from here on the pushed registers are only words on the stack
  generalize s.step link .pusha = t at hpusha heax hds
  have hpush := hpusha.push (setLow t.eax t.ds) (by simp only [List.length_cons]; omega)
  rw [heax, hds] at hpush
  refine hpush.of_eq rfl ?_
  rw [← heax, ← hds]
  rfl

theorem restoreContext_eq (t : Cpu) :
    t.run link restoreContext = {
      eax := t.mem.load (slot t.esp 8)
      ecx := t.mem.load (slot t.esp 7)
      edx := t.mem.load (slot t.esp 6)
      ebx := t.mem.load (slot t.esp 5)
      esp := slot t.esp 14
      ebp := t.mem.load (slot t.esp 3)
      esi := t.mem.load (slot t.esp 2)
      edi := t.mem.load (slot t.esp 1)
      ds := t.top.setWidth 16
      es := t.top.setWidth 16
      fs := t.top.setWidth 16
      gs := t.top.setWidth 16
      cs := (t.mem.load (slot t.esp 12)).setWidth 16
      eip := t.mem.load (slot t.esp 11)
      eflags := t.mem.load (slot t.esp 13)
      mem := t.mem } := by
  have hadd (a : Word) : a + 8 = slot a 2 := rfl
  simp only [restoreContext, Cpu.run, List.foldl_cons, List.foldl_nil, Cpu.step, Cpu.drop, hadd,
    slot_slot]

/-- The second half of a common stub takes the frame off the stack again. -/
theorem restoreContext_spec {s t : Cpu} {base intNo err eip cs eflags : Word} {ws : List Word}
    (h : t.Stack base (savedWords s ++ intNo :: err :: eip :: cs :: eflags :: ws))
    (hes : s.es = s.ds) (hfs : s.fs = s.ds) (hgs : s.gs = s.ds) :
    SameRegisters s (t.run link restoreContext)
      ∧ (t.run link restoreContext).eip = eip
      ∧ (t.run link restoreContext).cs = cs.setWidth 16
      ∧ (t.run link restoreContext).eflags = eflags
      ∧ slot (t.run link restoreContext).esp ws.length = base := by
  have hword {i : Nat} {w : Word}
      (hi : (savedWords s ++ intNo :: err :: eip :: cs :: eflags :: ws)[i]? = some w) :
      t.mem.load (slot t.esp i) = w := h.load_slot hi
  have hsegment : t.top.setWidth 16 = s.ds := by
    rw [Cpu.top, ← slot_zero t.esp, hword (i := 0) rfl, setWidth_setLow]
  rw [restoreContext_eq]
  refine ⟨⟨hword rfl, hword rfl, hword rfl, hword rfl, hword rfl, hword rfl, hword rfl, hsegment,
    hsegment.trans hes.symm, hsegment.trans hfs.symm, hsegment.trans hgs.symm⟩,
    hword rfl, congrArg (BitVec.setWidth 16) (hword rfl), hword rfl, ?_⟩
  rw [slot_slot, ← h.bottom]
  apply congrArg (slot t.esp)
  simp only [savedWords, List.length_append, List.length_cons, List.length_nil]
  omega

end Halves

/-! ### From the interrupt to the call -/

theorem SameRegisters.trans {s t u : Cpu} (hst : SameRegisters s t) (htu : SameRegisters t u) :
    SameRegisters s u :=
  ⟨htu.eax.trans hst.eax, htu.ecx.trans hst.ecx, htu.edx.trans hst.edx, htu.ebx.trans hst.ebx,
    htu.ebp.trans hst.ebp, htu.esi.trans hst.esi, htu.edi.trans hst.edi, htu.ds.trans hst.ds,
    htu.es.trans hst.es, htu.fs.trans hst.fs, htu.gs.trans hst.gs⟩

def interruptWords (vector : Nat) (err : Word) (s : Cpu) : List Word :=
  if hasErrorCode vector then [err, s.eip, s.cs.setWidth 32, s.eflags]
  else [s.eip, s.cs.setWidth 32, s.eflags]

theorem interrupt_spec (vector : Nat) (err : Word) (selector : Selector) (offset : Word) (s : Cpu) :
    (s.interrupt vector err selector offset).Stack s.esp (interruptWords vector err s)
      ∧ SameRegisters s (s.interrupt vector err selector offset) := by
  have h₁ := s.stack_nil.push s.eflags (by decide)
  have h₂ := h₁.push (s.cs.setWidth 32) (by simp)
  have h₃ := h₂.push s.eip (by simp)
  rw [Cpu.interrupt, interruptWords]
  split
  · exact ⟨(h₃.push err (by simp)).of_eq rfl rfl,
      ⟨rfl, rfl, rfl, rfl, rfl, rfl, rfl, rfl, rfl, rfl, rfl⟩⟩
  · exact ⟨h₃.of_eq rfl rfl, ⟨rfl, rfl, rfl, rfl, rfl, rfl, rfl, rfl, rfl, rfl, rfl⟩⟩

def Stub.words : Stub → List Word
  | isrNoErrCode n => [BitVec.ofNat 32 n, 0]
  | isrErrCode n => [BitVec.ofNat 32 n]
  | irq _ vector => [(BitVec.ofNat 8 vector).signExtend 32, 0]

theorem prologue_spec (link : Linkage) (stub : Stub) {s : Cpu} {base : Word} {ws : List Word}
    (h : s.Stack base ws) (hbound : 4 * ws.length + 8 ≤ 2 ^ 32) :
    (s.run link stub.prologue).Stack base (stub.words ++ ws)
      ∧ SameRegisters s (s.run link stub.prologue) := by
  have hpush (w w' : Word) : ((s.push w).push w').Stack base (w' :: w :: ws) :=
    (h.push w (by omega)).push w' (by simp only [List.length_cons]; omega)
  cases stub with
  | isrNoErrCode n =>
      exact ⟨(hpush 0 _).of_eq rfl rfl, ⟨rfl, rfl, rfl, rfl, rfl, rfl, rfl, rfl, rfl, rfl, rfl⟩⟩
  | isrErrCode n =>
      exact ⟨(h.push _ (by omega)).of_eq rfl rfl,
        ⟨rfl, rfl, rfl, rfl, rfl, rfl, rfl, rfl, rfl, rfl, rfl⟩⟩
  | irq n vector =>
      exact ⟨(hpush 0 _).of_eq rfl rfl, ⟨rfl, rfl, rfl, rfl, rfl, rfl, rfl, rfl, rfl, rfl, rfl⟩⟩

def callEntry (link : Linkage) (stub : Stub) (s : Cpu) : Cpu :=
  (s.run link (stub.prologue ++ saveContext)).push (link.returnAddress stub.callee)

theorem run_code (link : Linkage) (stub : Stub) (s : Cpu) :
    s.run link stub.code
      = (link.body stub.callee (callEntry link stub s)).run link restoreContext := by
  cases stub <;>
    rw [Stub.code, callEntry, Cpu.run_append, Cpu.run_append] <;>
    simp only [isrCommonStub, irqCommonStub, Cpu.run_append, Cpu.run_cons] <;> rfl

/-- The stack at the entry of the C function, over the words below the frame. The registers in it are
those before `pusha`. -/
theorem callEntry_stack (link : Linkage) (stub : Stub) {s : Cpu} {base : Word} {ws : List Word}
    (h : s.Stack base ws) (hbound : ws.length ≤ 32) :
    ∃ t, SameRegisters s t ∧ slot t.esp (stub.words ++ ws).length = base
      ∧ (callEntry link stub s).Stack base
        (link.returnAddress stub.callee :: (savedWords t ++ (stub.words ++ ws))) := by
  obtain ⟨hprologue, hsame⟩ := prologue_spec link stub h (by omega)
  have hwords : (stub.words ++ ws).length ≤ 34 := by
    rw [List.length_append]
    cases stub <;> simp only [Stub.words, List.length_cons, List.length_nil] <;> omega
  have hsave := saveContext_stack link hprologue (by omega)
  refine ⟨s.run link stub.prologue, hsame, hprologue.bottom, ?_⟩
  rw [callEntry, Cpu.run_append]
  apply hsave.push _
  rw [List.length_append, savedWords]
  simp only [List.length_cons, List.length_nil]
  omega

theorem signExtend_vector {vector : Nat} (h : vector < 48) :
    (BitVec.ofNat 8 vector).signExtend 32 = BitVec.ofNat 32 vector := by
  interval_cases vector <;> rfl

theorem Serves.words_eq {vector : Nat} {stub : Stub} (h : Serves vector stub) :
    ∃ rest, stub.words = BitVec.ofNat 32 vector :: rest := by
  cases h with
  | dummy hcode => exact ⟨_, rfl⟩
  | alignmentCheck hvector => exact ⟨_, rfl⟩
  | code hcode hne => exact ⟨_, rfl⟩
  | request hcode hlow hhigh =>
      rw [Stub.words, signExtend_vector hhigh]
      exact ⟨_, rfl⟩

theorem interruptWords_length (vector : Nat) (err : Word) (s : Cpu) :
    (interruptWords vector err s).length ≤ 32 := by
  rw [interruptWords]
  split <;> simp

/-- The number of the vector in the argument does not depend on the error code. -/
theorem callEntry_intNo (link : Linkage) {vector : Nat} {stub : Stub} (hserves : Serves vector stub)
    (err : Word) (selector : Selector) (offset : Word) (s : Cpu) :
    (Registers.read (callEntry link stub (s.interrupt vector err selector offset)).mem
        (callEntry link stub (s.interrupt vector err selector offset)).argument).intNo
      = BitVec.ofNat 32 vector := by
  obtain ⟨hstack, -⟩ := interrupt_spec vector err selector offset s
  obtain ⟨t, -, -, hcall⟩ := callEntry_stack link stub hstack (interruptWords_length vector err s)
  obtain ⟨rest, hwords⟩ := hserves.words_eq
  rw [hwords] at hcall
  exact (words_cons.mp hcall.words).2 9 _ rfl

/-- What the C function finds in its argument when the frame is complete. -/
theorem describes_of_stack {vector : Nat} {err base ret : Word} {s t c : Cpu}
    (hsame : SameRegisters s t)
    (h : c.Stack base (ret :: (savedWords t ++ [BitVec.ofNat 32 vector, errorCode vector err, s.eip,
      s.cs.setWidth 32, s.eflags]))) :
    Describes vector err s (Registers.read c.mem c.argument) := by
  have hargument : c.mem.Words c.argument (savedWords t ++ [BitVec.ofNat 32 vector,
      errorCode vector err, s.eip, s.cs.setWidth 32, s.eflags]) := (words_cons.mp h.words).2
  have hds : c.mem.load (slot c.argument 0) = setLow t.eax t.ds := hargument 0 _ rfl
  exact {
    intNo := hargument 9 _ rfl
    errCode := hargument 10 _ rfl
    eip := hargument 11 _ rfl
    cs := hargument 12 _ rfl
    eflags := hargument 13 _ rfl
    edi := (hargument 1 _ rfl).trans hsame.edi
    esi := (hargument 2 _ rfl).trans hsame.esi
    ebp := (hargument 3 _ rfl).trans hsame.ebp
    ebx := (hargument 5 _ rfl).trans hsame.ebx
    edx := (hargument 6 _ rfl).trans hsame.edx
    ecx := (hargument 7 _ rfl).trans hsame.ecx
    eax := (hargument 8 _ rfl).trans hsame.eax
    ds := by rw [Registers.read, hds, setWidth_setLow, hsame.ds] }

/-- The stack after the call: the return address is gone, and the argument is as it was. -/
theorem Cdecl.stack {c u : Cpu} {base ret : Word} {ws : List Word} (hcdecl : Cdecl c u)
    (h : c.Stack base (ret :: ws)) (hlength : ws.length ≤ 16) : u.Stack base ws := by
  have hargument : c.mem.Words (c.esp + 4) ws := (words_cons.mp h.words).2
  constructor
  · rw [hcdecl.esp]
    exact hargument.frame fun i hi => hcdecl.argument i (by omega)
  · rw [hcdecl.esp, ← h.bottom, List.length_cons, slot_succ]

/-- A complete frame is described to the C function and taken off again after it. -/
theorem complete_frame (link : Linkage) {stub : Stub} {vector : Nat} {err : Word} {s e : Cpu}
    (hes : s.es = s.ds) (hfs : s.fs = s.ds) (hgs : s.gs = s.ds) (hsame : SameRegisters s e)
    {ws : List Word} (hstack : e.Stack s.esp ws) (hlength : ws.length ≤ 32)
    (hwords : stub.words ++ ws = [BitVec.ofNat 32 vector, errorCode vector err, s.eip,
      s.cs.setWidth 32, s.eflags])
    (hcdecl : Cdecl (callEntry link stub e) (link.body stub.callee (callEntry link stub e))) :
    Describes vector err s
        (Registers.read (callEntry link stub e).mem (callEntry link stub e).argument)
      ∧ Resumed s (e.run link stub.code) := by
  obtain ⟨t, hsame', -, hcall⟩ := callEntry_stack link stub hstack hlength
  have hst := hsame.trans hsame'
  rw [hwords] at hcall
  refine ⟨describes_of_stack hst hcall, ?_⟩
  obtain ⟨hregisters, heip, hcs, heflags, hesp⟩ :=
    restoreContext_spec link (hcdecl.stack hcall (by simp [savedWords]))
      (by rw [hst.es, hst.ds, hes]) (by rw [hst.fs, hst.ds, hfs]) (by rw [hst.gs, hst.ds, hgs])
  rw [List.length_nil, slot_zero] at hesp
  rw [run_code]
  refine ⟨hst.trans hregisters, hesp, heip, hcs.trans ?_, heflags⟩
  exact BitVec.setWidth_setWidth_of_le s.cs (by decide)

/-- The stub of vector 17 pushes an error code under the one the processor pushed, so the stack
pointer comes back a word too low. -/
theorem alignmentCheck_esp (link : Linkage) (err : Word) (selector : Selector) (offset : Word)
    {s : Cpu} (hes : s.es = s.ds) (hfs : s.fs = s.ds) (hgs : s.gs = s.ds)
    (hcdecl : Cdecl (callEntry link (.isrNoErrCode 17) (s.interrupt 17 err selector offset))
      (link.body .isrHandler
        (callEntry link (.isrNoErrCode 17) (s.interrupt 17 err selector offset)))) :
    slot ((s.interrupt 17 err selector offset).run link (Stub.isrNoErrCode 17).code).esp 1
        = s.esp
      ∧ ((s.interrupt 17 err selector offset).run link (Stub.isrNoErrCode 17).code).eip = err := by
  obtain ⟨hstack, hsame⟩ := interrupt_spec 17 err selector offset s
  obtain ⟨t, hsame', -, hcall⟩ := callEntry_stack link (.isrNoErrCode 17) hstack
    (interruptWords_length 17 err s)
  have hst := hsame.trans hsame'
  obtain ⟨-, heip, -, -, hesp⟩ :=
    restoreContext_spec link (hcdecl.stack hcall (by simp [savedWords]))
      (by rw [hst.es, hst.ds, hes]) (by rw [hst.fs, hst.ds, hfs]) (by rw [hst.gs, hst.ds, hgs])
  rw [run_code]
  exact ⟨hesp, heip⟩

/-- A C function that keeps the calling convention and leaves its argument alone is told what happened,
and the interrupted program does not notice, exactly for the vectors other than 17. -/
theorem interrupt_transparent_iff (link : Linkage) {vector : Nat} {stub : Stub}
    (hstub : vectorStub vector = some stub) (err : Word) (selector : Selector) (offset : Word)
    {s : Cpu} (hes : s.es = s.ds) (hfs : s.fs = s.ds) (hgs : s.gs = s.ds)
    (hcdecl : Cdecl (callEntry link stub (s.interrupt vector err selector offset))
      (link.body stub.callee (callEntry link stub (s.interrupt vector err selector offset)))) :
    (Describes vector err s
        (Registers.read (callEntry link stub (s.interrupt vector err selector offset)).mem
          (callEntry link stub (s.interrupt vector err selector offset)).argument)
      ∧ Resumed s ((s.interrupt vector err selector offset).run link stub.code))
      ↔ vector ≠ 17 := by
  obtain ⟨hstack, hsame⟩ := interrupt_spec vector err selector offset s
  constructor
  · intro htransparent hvector
    obtain ⟨-, hresumed⟩ := htransparent
    subst hvector
    obtain rfl : stub = .isrNoErrCode 17 := (Option.some.inj hstub).symm
    have hesp := (alignmentCheck_esp link err selector offset hes hfs hgs hcdecl).1
    rw [hresumed.esp] at hesp
    exact slot_ne (by decide) (by decide) hesp
  · intro hne
    have hcode := vectorStub_serves hstub
    cases hcode with
    | dummy hcode =>
        rw [interruptWords, hcode] at hstack
        refine complete_frame link hes hfs hgs hsame hstack (by simp) ?_ hcdecl
        rw [errorCode, hcode]
        rfl
    | alignmentCheck hvector => exact absurd hvector hne
    | code hcode _ =>
        rw [interruptWords, hcode] at hstack
        refine complete_frame link hes hfs hgs hsame hstack (by simp) ?_ hcdecl
        rw [errorCode, hcode]
        rfl
    | request hcode hlow hhigh =>
        rw [interruptWords, hcode] at hstack
        refine complete_frame link hes hfs hgs hsame hstack (by simp) ?_ hcdecl
        rw [errorCode, hcode, Stub.words, signExtend_vector hhigh]
        rfl

/-- C functions that return at once. -/
def returning : Linkage where
  returnAddress := fun _ => 0x00100000
  body := fun _ s => { s with esp := s.esp + 4 }

theorem returning_cdecl (callee : Callee) (c : Cpu) : Cdecl c (returning.body callee c) :=
  ⟨rfl, rfl, rfl, rfl, rfl, fun _ _ => rfl⟩

/-- A program in the kernel's segments. -/
def program : Cpu where
  eax := 1
  ecx := 2
  edx := 3
  ebx := 4
  esp := 0x9000
  ebp := 5
  esi := 6
  edi := 7
  ds := 0x10
  es := 0x10
  fs := 0x10
  gs := 0x10
  cs := 0x08
  eip := 0x00101234
  eflags := 0x202
  mem := fun _ => 0

theorem interrupt_transparent_keyboard :
    Describes 33 0 program
        (Registers.read (callEntry returning (.irq 1 33) (program.interrupt 33 0 0x08 0)).mem
          (callEntry returning (.irq 1 33) (program.interrupt 33 0 0x08 0)).argument)
      ∧ Resumed program ((program.interrupt 33 0 0x08 0).run returning (Stub.irq 1 33).code) :=
  (interrupt_transparent_iff returning (show vectorStub 33 = some (.irq 1 33) by decide) 0 0x08 0
    rfl rfl rfl (returning_cdecl _ _)).mpr (by decide)

/-- After the stub of vector 17 the program goes on at its error code. -/
theorem alignmentCheck_lost :
    vectorStub 17 = some (.isrNoErrCode 17)
      ∧ Cdecl (callEntry returning (.isrNoErrCode 17) (program.interrupt 17 0x55 0x08 0))
        (returning.body .isrHandler
          (callEntry returning (.isrNoErrCode 17) (program.interrupt 17 0x55 0x08 0)))
      ∧ ((program.interrupt 17 0x55 0x08 0).run returning (Stub.isrNoErrCode 17).code).eip = 0x55
      ∧ ¬ Resumed program
        ((program.interrupt 17 0x55 0x08 0).run returning (Stub.isrNoErrCode 17).code) := by
  have hcdecl := returning_cdecl .isrHandler
    (callEntry returning (.isrNoErrCode 17) (program.interrupt 17 0x55 0x08 0))
  have heip := (alignmentCheck_esp returning 0x55 0x08 0 rfl rfl rfl hcdecl).2
  refine ⟨by decide, hcdecl, heip, fun hresumed => ?_⟩
  rw [hresumed.eip] at heip
  exact absurd heip (by decide)

end Brunix
