import Brunix.Basis.Memory
import Mathlib.Tactic.Simps.Basic

/-!
# The processor, as far as interrupts need it

The registers, a stack in byte memory, and the instructions of `interrupt.asm`. Code is not in memory:
a routine is a list of instructions, and a `jmp` to a common tail is an append. A call runs the C
function it names, which the model is linked against, and pushes a return address that no instruction
here reads. Of the flags only the interrupt flag is computed: the stubs end in an `iret`, which loads
them all.
-/

namespace Brunix

open Basis Memory

abbrev Selector := BitVec 16

structure Cpu where
  eax : Word
  ecx : Word
  edx : Word
  ebx : Word
  esp : Word
  ebp : Word
  esi : Word
  edi : Word
  ds : Selector
  es : Selector
  fs : Selector
  gs : Selector
  cs : Selector
  eip : Word
  eflags : Word
  mem : Memory

namespace Cpu

@[simps] def push (w : Word) (s : Cpu) : Cpu :=
  { s with esp := s.esp - 4, mem := s.mem.store (s.esp - 4) w }

def top (s : Cpu) : Word := s.mem.load s.esp

@[simps] def drop (n : Nat) (s : Cpu) : Cpu := { s with esp := slot s.esp n }

/-- The words pushed since the stack pointer was at `base`, the last one first. -/
structure Stack (s : Cpu) (base : Word) (ws : List Word) : Prop where
  words : s.mem.Words s.esp ws
  bottom : slot s.esp ws.length = base

theorem stack_nil (s : Cpu) : s.Stack s.esp [] :=
  ⟨words_nil s.mem s.esp, slot_zero s.esp⟩

theorem Stack.push {s : Cpu} {base : Word} {ws : List Word} (h : s.Stack base ws) (w : Word)
    (hbound : 4 * ws.length + 4 ≤ 2 ^ 32) : (s.push w).Stack base (w :: ws) := by
  refine ⟨h.words.push w hbound, ?_⟩
  rw [← h.bottom, push_esp, List.length_cons, slot_succ, BitVec.sub_add_cancel]

theorem Stack.of_eq {s t : Cpu} {base : Word} {ws : List Word} (h : s.Stack base ws)
    (hesp : t.esp = s.esp) (hmem : t.mem = s.mem) : t.Stack base ws := by
  obtain ⟨hwords, hbottom⟩ := h
  rw [← hesp, ← hmem] at hwords
  rw [← hesp] at hbottom
  exact ⟨hwords, hbottom⟩

theorem Stack.load_slot {s : Cpu} {base w : Word} {ws : List Word} (h : s.Stack base ws) {i : Nat}
    (hi : ws[i]? = some w) : s.mem.load (slot s.esp i) = w :=
  h.words i w hi

end Cpu

/-! ### Interrupts

The processor pushes the flags, the code segment, the instruction pointer and, for some vectors, an
error code, and goes through an interrupt gate, which clears the flags TF, IF, NT, RF and VM. -/

/-- The vectors the processor has an error code for. -/
def hasErrorCode (vector : Nat) : Bool :=
  vector = 8 || (10 ≤ vector && vector ≤ 14) || vector = 17

/-- The error code as the processor pushes it, and as the handler should see it. -/
def errorCode (vector : Nat) (err : Word) : Word := if hasErrorCode vector then err else 0

def gateFlags : Word := 0x00034300

def Cpu.interrupt (vector : Nat) (err : Word) (selector : Selector) (offset : Word) (s : Cpu) :
    Cpu :=
  let pushed := ((s.push s.eflags).push (s.cs.setWidth 32)).push s.eip
  let pushed := if hasErrorCode vector then pushed.push err else pushed
  { pushed with cs := selector, eip := offset, eflags := s.eflags &&& ~~~gateFlags }

/-! ### Instructions -/

/-- The C functions of the kernel that the stubs call. -/
inductive Callee
  | isrHandler
  | irqHandler
  deriving DecidableEq

inductive Instr
  | cli
  | sti
  /-- `push byte imm`, which extends the sign. -/
  | pushByte (imm : Byte)
  | push (imm : Word)
  | pusha
  | popa
  | movAxDs
  | movAx (imm : BitVec 16)
  | pushEax
  | popEbx
  | movDsAx
  | movEsAx
  | movFsAx
  | movGsAx
  | movDsBx
  | movEsBx
  | movFsBx
  | movGsBx
  | addEsp (imm : Word)
  | call (callee : Callee)
  | iret

/-- What the stubs are linked against: the C functions, from their entry to after their `ret`, and
the addresses behind the calls. -/
structure Linkage where
  returnAddress : Callee → Word
  body : Callee → Cpu → Cpu

def setLow (w : Word) (low : BitVec 16) : Word := w.extractLsb' 16 16 ++ low

theorem setWidth_setLow (w : Word) (low : BitVec 16) : (setLow w low).setWidth 16 = low := by
  rw [setLow]
  exact BitVec.setWidth_append_eq_right

def interruptFlag : Word := 0x00000200

def Cpu.step (link : Linkage) (s : Cpu) : Instr → Cpu
  | .cli => { s with eflags := s.eflags &&& ~~~interruptFlag }
  | .sti => { s with eflags := s.eflags ||| interruptFlag }
  | .pushByte imm => s.push (imm.signExtend 32)
  | .push imm => s.push imm
  | .pusha =>
      s.push s.eax |>.push s.ecx |>.push s.edx |>.push s.ebx |>.push s.esp |>.push s.ebp
        |>.push s.esi |>.push s.edi
  | .popa =>
      { s.drop 8 with
        edi := s.mem.load s.esp
        esi := s.mem.load (slot s.esp 1)
        ebp := s.mem.load (slot s.esp 2)
        ebx := s.mem.load (slot s.esp 4)
        edx := s.mem.load (slot s.esp 5)
        ecx := s.mem.load (slot s.esp 6)
        eax := s.mem.load (slot s.esp 7) }
  | .movAxDs => { s with eax := setLow s.eax s.ds }
  | .movAx imm => { s with eax := setLow s.eax imm }
  | .pushEax => s.push s.eax
  | .popEbx => { s.drop 1 with ebx := s.top }
  | .movDsAx => { s with ds := s.eax.setWidth 16 }
  | .movEsAx => { s with es := s.eax.setWidth 16 }
  | .movFsAx => { s with fs := s.eax.setWidth 16 }
  | .movGsAx => { s with gs := s.eax.setWidth 16 }
  | .movDsBx => { s with ds := s.ebx.setWidth 16 }
  | .movEsBx => { s with es := s.ebx.setWidth 16 }
  | .movFsBx => { s with fs := s.ebx.setWidth 16 }
  | .movGsBx => { s with gs := s.ebx.setWidth 16 }
  | .addEsp imm => { s with esp := s.esp + imm }
  | .call callee => link.body callee (s.push (link.returnAddress callee))
  | .iret =>
      { s.drop 3 with
        eip := s.mem.load s.esp
        cs := (s.mem.load (slot s.esp 1)).setWidth 16
        eflags := s.mem.load (slot s.esp 2) }

def Cpu.run (link : Linkage) (code : List Instr) (s : Cpu) : Cpu := code.foldl (Cpu.step link) s

theorem Cpu.run_cons (link : Linkage) (instr : Instr) (rest : List Instr) (s : Cpu) :
    s.run link (instr :: rest) = (s.step link instr).run link rest := rfl

theorem Cpu.run_append (link : Linkage) (first rest : List Instr) (s : Cpu) :
    s.run link (first ++ rest) = (s.run link first).run link rest :=
  List.foldl_append

end Brunix
