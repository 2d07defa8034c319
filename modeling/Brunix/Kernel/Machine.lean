import Brunix.Basis.Program
import Brunix.Interrupt.Service
import Brunix.Kernel.Keyboard
import Brunix.Kernel.PageFault
import Brunix.Paging.Access
import Brunix.Segment.Gdt
import Brunix.Timer.Clock
import Brunix.Timer.Pit

/-!
# The machine and the desk

The machine is all the state the kernel keeps and the devices it drives. A command is a step of the
kernel's main program, from one character of its output to an instruction, and an event is something
that happens to the machine in between. A request of the interrupt controllers is served when the
interrupt flag is set, by the way from its gate to the handler registered for it.

Events fall between two commands. What an interrupt does inside `vga_putc` is the subject of
`Console.Preemption`, and is left out here. So is the stack of the main program, which is memory that
`mem` says nothing of: a processor that is interrupted comes with its own.

The desk is what a person before the machine knows of it: a terminal, a clock, a keyboard, and which
of them are in use.
-/

namespace Brunix

open Basis

inductive Callback
  | timerCallback
  | kbdCallback
  | pageFaultCallback
  deriving DecidableEq

/-- Where the linker put everything. -/
structure Layout extends Literals, Image where
  link : Linkage
  callback : Callback → Word
  callback_ne_zero : ∀ c, callback c ≠ 0
  callback_injective : Function.Injective callback
  gdt : Word
  pageDirectory : Word
  firstPageTable : Word

/-- A step of the main program. -/
inductive Command
  | putc (c : Byte)
  | setFgColor (colour : Byte)
  | gdtInit
  | irqInit
  | sti
  /-- `irq_handlers[n] = handler`. -/
  | setIrqHandler (n : Byte) (handler : Callback)
  /-- `interrupt_handlers[n] = handler`. -/
  | setInterruptHandler (n : Byte) (handler : Callback)
  | outb (port : BitVec 16) (value : Byte)
  /-- A call of `get_clock_tick` of which the low word is used. -/
  | getClockTick
  /-- The loops of `paging_init` over the two tables. -/
  | fillTables
  /-- `__load_page_directory` and `__enable_paging`. -/
  | turnPagingOn
  /-- A load whose value is not used, with the processor at the instruction. -/
  | load (a : Word) (cpu : Cpu)
  /-- What C leaves undefined. -/
  | undefined

inductive Happening
  /-- The keyboard has a scancode to be read. -/
  | scancode (value : Byte)
  /-- The controllers have a request, with the processor between two instructions. -/
  | request (request : Request) (cpu : Cpu)

/-! ### The machine -/

structure Machine where
  kernel : Kernel
  vga : Vga
  pit : Pit
  timerTicks : BitVec 64
  scancode : Byte
  gdt : GdtBytes
  segments : SegmentRegs
  cr0 : Word
  cr2 : Word
  cr3 : Word
  mem : Memory
  ifFlag : Bool
  /-- In a `while(1)` that halts, inside a handler. -/
  halted : Bool

/-- A present segment for code of ring 0. -/
def Segment.IsKernelCode (segment : Segment) : Prop := segment.access &&& 0xF8 = 0x98

instance (segment : Segment) : Decidable segment.IsKernelCode :=
  inferInstanceAs (Decidable (_ = _))

/-- Room for the frame of an interrupt, in the first 4 MiB. -/
def Cpu.HasRoom (cpu : Cpu) : Prop := 64 ≤ cpu.esp.toNat ∧ cpu.esp.toNat ≤ 0x400000

instance (cpu : Cpu) : Decidable cpu.HasRoom := inferInstanceAs (Decidable (_ ∧ _))

/-- A request comes at a moment when the stack has room for it. -/
def Happening.HasRoom : Happening → Prop
  | .scancode _ => True
  | .request _ cpu => cpu.HasRoom

namespace Machine

def print (layout : Layout) (actions : List Action) (m : Machine) : Option Machine :=
  (actions.foldlM (Action.onConsole layout.strAt) m.vga).map fun vga => { m with vga := vga }

def call (layout : Layout) (handler : Word) (regs : Registers) (m : Machine) : Option Machine :=
  if handler = layout.callback .timerCallback then some { m with timerTicks := m.timerTicks + 1 }
  else if handler = layout.callback .kbdCallback then do
    let actions ← kbdCallback m.scancode
    m.print layout actions
  else if handler = layout.callback .pageFaultCallback then do
    let m ← m.print layout (pageFaultCallback layout.toLiterals m.cr2 regs)
    some { m with halted := true }
  else none

/-- What the kernel's log does not do by itself: the output, and the calls of the handlers with a frame
in memory. -/
def perform (layout : Layout) (mem : Memory) (m : Machine) : Action → Option Machine
  | .call handler frame => m.call layout handler (Registers.read mem frame)
  | .outb port value => some { m with pit := m.pit.outb port value }
  | action => m.print layout [action]

def follow (layout : Layout) (mem : Memory) (kernel : Kernel) (m : Machine) : Option Machine :=
  (kernel.log.drop m.kernel.log.length).foldlM (perform layout mem) { m with kernel := kernel }

/-- What an interrupt pushes until the C function runs, sixteen words at most, goes to memory that is
mapped to itself. -/
def StackMapped (m : Machine) (esp : Word) : Prop :=
  ∀ k < 64, translate m.cr0 m.cr3 m.mem .supervisorWrite (esp - 64 + BitVec.ofNat 32 k)
    = .physical (esp - 64 + BitVec.ofNat 32 k)

instance (m : Machine) (esp : Word) : Decidable (m.StackMapped esp) :=
  inferInstanceAs (Decidable (∀ k < 64, _ = _))

/-- An interrupt, through a gate to a code segment of the kernel's. A frame that faults or goes
elsewhere is not modelled. -/
def deliver (layout : Layout) (vector : Nat) (err : Word) (cpu : Cpu) (m : Machine) :
    Option Machine := do
  let gate := Gate.decode (m.kernel.idt (BitVec.ofNat 8 vector)).descriptor
  let stub ← vectorStub vector
  let segment ← m.segments.select m.gdt gate.selector
  if segment.IsKernelCode ∧ m.StackMapped cpu.esp then do
    let kernel ← m.kernel.deliver layout.link layout.toImage vector err cpu
    let entry := callEntry layout.link stub (cpu.interrupt vector err gate.selector gate.offset)
    m.follow layout entry.mem kernel
  else none

/-- The gate clears the flag, and the `iret` of the stub brings it back, if it comes to that. -/
def serve (layout : Layout) (vector : Nat) (err : Word) (cpu : Cpu) (m : Machine) :
    Option Machine := do
  let m' ← deliver layout vector err cpu { m with ifFlag := false }
  some { m' with ifFlag := m.ifFlag && !m'.halted }

def event (layout : Layout) : Happening → Machine → Option Machine
  | .scancode value, m => some { m with scancode := value }
  | .request request cpu, m =>
      if m.ifFlag then
        serve layout (request.vector m.kernel.ports).toNat 0 cpu
          { m with kernel := { m.kernel with ports := request.accept m.kernel.ports } }
      else some m

/-- A function of the kernel whose output the caller has printed. -/
def quietly (f : Kernel → Kernel) (m : Machine) : Machine :=
  { m with kernel := { f m.kernel with log := m.kernel.log } }

def exec (layout : Layout) : Command → Machine → Option (Machine × Word)
  | .putc c, m => some ({ m with vga := vgaPutc m.vga c }, 0)
  | .setFgColor colour, m => some ({ m with vga := vgaSetForegroundColor colour m.vga }, 0)
  | .gdtInit, m =>
      let result := Brunix.gdtInit layout.gdt m.gdt
      some ({ m with gdt := result.2, segments := gdtFlush result.1 }, 0)
  | .irqInit, m => do
      let m ← m.follow layout m.mem (Brunix.irqInit layout.toImage m.kernel)
      some (m, 0)
  | .sti, m => some ({ m with ifFlag := true }, 0)
  | .setIrqHandler n handler, m =>
      some (m.quietly (registerIrqHandler n (layout.callback handler)), 0)
  | .setInterruptHandler n handler, m =>
      some (m.quietly (registerInterruptHandler n (layout.callback handler)), 0)
  | .outb port value, m =>
      some ({ m with
        kernel := { m.kernel with ports := m.kernel.ports.outb port value }
        pit := m.pit.outb port value }, 0)
  | .getClockTick, m => some (m, lowWord m.timerTicks)
  | .fillTables, m =>
      some ({ m with mem := pagingTables layout.pageDirectory layout.firstPageTable m.mem }, 0)
  | .turnPagingOn, m =>
      some ({ m with cr3 := layout.pageDirectory, cr0 := m.cr0 ||| pagingFlag }, 0)
  | .load a cpu, m =>
      match translate m.cr0 m.cr3 m.mem .supervisorRead a with
      | .physical _ => some (m, 0)
      | .fault err => do
          let m ← serve layout 14 err cpu { m with cr2 := a }
          -- a handler that returned would have the instruction tried again
          if m.halted then some (m, 0) else none
      | .largePage => none
  | .undefined, _ => none

end Machine

def machine (layout : Layout) : System Machine Command Word Happening where
  exec := Machine.exec layout
  event := Machine.event layout
  stopped := Machine.halted

/-! ### The desk -/

structure Desk where
  terminal : Terminal
  ticks : Nat
  scancode : Byte
  irqHandlers : Byte → Option Callback
  interruptHandlers : Byte → Option Callback
  interrupts : Bool
  halted : Bool

namespace Desk

def print (layout : Layout) (actions : List Action) (d : Desk) : Desk :=
  { d with terminal := actions.foldl (Action.onTerminal layout.strAt) d.terminal }

def report (layout : Layout) (irq : Nat) (d : Desk) : Desk :=
  if irq = 0 ∨ irq = 1 then d
  else d.print layout (debug "isr" "Calling isr_handler() for IRQ %d!" [BitVec.ofNat 32 irq])

def call (handler : Callback) (d : Desk) : Desk :=
  match handler with
  | .timerCallback => { d with ticks := d.ticks + 1 }
  | .kbdCallback => { d with terminal := (keyText d.scancode).foldl Terminal.putc d.terminal }
  -- reports a fault, and no request is one
  | .pageFaultCallback => d

def dispatch (vector : Byte) (d : Desk) : Desk :=
  match d.irqHandlers vector with
  | some handler => d.call handler
  | none => d

def serve (layout : Layout) (irq : Nat) (d : Desk) : Desk :=
  (d.report layout irq).dispatch (BitVec.ofNat 8 (32 + irq))

def event (layout : Layout) : Happening → Desk → Desk
  | .scancode value, d => { d with scancode := value }
  | .request request _, d => if d.interrupts then d.serve layout request.irq else d

def faultRegisters (layout : Layout) (err : Word) (cpu : Cpu) : Registers :=
  let entry := callEntry layout.link (.isrErrCode 14)
    (cpu.interrupt 14 err 0x08 (layout.stub (.isr 14)))
  Registers.read entry.mem entry.argument

/-- The report of a page fault, after which nothing happens any more. -/
def fault (layout : Layout) (a err : Word) (cpu : Cpu) (d : Desk) : Desk :=
  { d.print layout (.printk "Calling isr_handler()!\n" []
      :: pageFaultCallback layout.toLiterals a (faultRegisters layout err cpu)) with
    interrupts := false
    halted := true }

def exec (layout : Layout) : Command → Desk → Desk × Word
  | .putc c, d => ({ d with terminal := d.terminal.putc c }, 0)
  | .setFgColor colour, d => ({ d with terminal := d.terminal.setForegroundColor colour }, 0)
  | .irqInit, d => (d.print layout (debug "irq" "Remapping PIC..." []), 0)
  | .sti, d => ({ d with interrupts := true }, 0)
  | .setIrqHandler n handler, d =>
      ({ d with irqHandlers := Function.update d.irqHandlers n (some handler) }, 0)
  | .setInterruptHandler n handler, d =>
      ({ d with interruptHandlers := Function.update d.interruptHandlers n (some handler) }, 0)
  | .getClockTick, d => (d, BitVec.ofNat 32 d.ticks)
  | .load a cpu, d => (d.fault layout a (AccessKind.supervisorRead.errorCode false) cpu, 0)
  | .gdtInit, d | .outb _ _, d | .fillTables, d | .turnPagingOn, d | .undefined, d => (d, 0)

end Desk

/-- What the main program does for the person. -/
def desk (layout : Layout) : Model Desk Command Word Happening where
  exec := Desk.exec layout
  event := Desk.event layout
  stopped := Desk.halted

end Brunix
