import Brunix.Kernel.Machine
import Brunix.Paging.Enable

/-!
# The machine refines the desk

The main program sets the machine up in an order, and each phase of that order is what the later
commands rely on: interrupts go through gates to a segment of the new GDT, and a fault needs its
handler and the tables. A request in any phase is served as the desk says, and the controllers are
quiet again after it.
-/

namespace Brunix

open Basis

/-! ### The order of things -/

inductive Phase
  /-- As the boot loader leaves it. -/
  | bare
  | flat
  /-- Gates and controllers are in place. -/
  | gated
  /-- Interrupts are on. -/
  | serving
  /-- The timer has its handler. -/
  | timed
  /-- And so has the keyboard. -/
  | ready
  | filled
  | armed
  | paged
  /-- In the loop of `panic_noargs`, after a fault. -/
  | dead

namespace Phase

def irqHandlers : Phase → Byte → Option Callback
  | bare | flat | gated | serving => fun _ => none
  | timed => Function.update (fun _ => none) 32 (some .timerCallback)
  | ready | filled | armed | paged | dead =>
      Function.update (Function.update (fun _ => none) 32 (some .timerCallback)) 33 (some .kbdCallback)

def interruptHandlers : Phase → Byte → Option Callback
  | armed | paged | dead => Function.update (fun _ => none) 14 (some .pageFaultCallback)
  | _ => fun _ => none

def interrupts : Phase → Bool
  | bare | flat | gated | dead => false
  | _ => true

def halted : Phase → Bool
  | dead => true
  | _ => false

end Phase

/-- The phase a command leads to, where it has its place. -/
def bootProtocol : Command → Phase → Option Phase
  | .putc _, phase | .setFgColor _, phase | .getClockTick, phase => some phase
  | .gdtInit, .bare => some .flat
  | .irqInit, .flat => some .gated
  | .sti, .gated => some .serving
  | .setIrqHandler n handler, .serving =>
      if n = 32 ∧ handler = .timerCallback then some .timed else none
  | .outb port _, .timed => if port = Pit.command ∨ port = Pit.channel0 then some .timed else none
  | .setIrqHandler n handler, .timed =>
      if n = 33 ∧ handler = .kbdCallback then some .ready else none
  | .fillTables, .ready => some .filled
  | .setInterruptHandler n handler, .filled =>
      if n = 14 ∧ handler = .pageFaultCallback then some .armed else none
  | .turnPagingOn, .armed => some .paged
  | .load a cpu, .paged => if 0x400000 ≤ a.toNat ∧ cpu.HasRoom then some .dead else none
  | _, .dead => some .dead
  | _, _ => none

/-- The steps of the protocol, up to the fault. -/
inductive BootStep : Command → Phase → Phase → Prop
  | putc (c : Byte) (phase : Phase) : BootStep (.putc c) phase phase
  | setFgColor (colour : Byte) (phase : Phase) : BootStep (.setFgColor colour) phase phase
  | getClockTick (phase : Phase) : BootStep .getClockTick phase phase
  | gdtInit : BootStep .gdtInit .bare .flat
  | irqInit : BootStep .irqInit .flat .gated
  | sti : BootStep .sti .gated .serving
  | timer : BootStep (.setIrqHandler 32 .timerCallback) .serving .timed
  | pit {port : BitVec 16} (value : Byte) (hport : port = Pit.command ∨ port = Pit.channel0) :
      BootStep (.outb port value) .timed .timed
  | keyboard : BootStep (.setIrqHandler 33 .kbdCallback) .timed .ready
  | fillTables : BootStep .fillTables .ready .filled
  | pageFault : BootStep (.setInterruptHandler 14 .pageFaultCallback) .filled .armed
  | turnPagingOn : BootStep .turnPagingOn .armed .paged
  | load {a : Word} {cpu : Cpu} (ha : 0x400000 ≤ a.toNat) (hroom : cpu.HasRoom) :
      BootStep (.load a cpu) .paged .dead

theorem bootStep_of_protocol {c : Command} {phase phase' : Phase}
    (h : bootProtocol c phase = some phase') (halive : phase ≠ .dead) : BootStep c phase phase' := by
  unfold bootProtocol at h
  split at h
  case h_1 | h_2 | h_3 | h_4 | h_5 | h_6 | h_10 | h_12 =>
    cases h
    constructor
  case h_8 value =>
    obtain ⟨hport, heq⟩ := Option.ite_none_right_eq_some.mp h
    cases heq
    exact .pit value hport
  case h_7 | h_9 | h_11 =>
    obtain ⟨⟨rfl, rfl⟩, heq⟩ := Option.ite_none_right_eq_some.mp h
    cases heq
    constructor
  case h_13 =>
    obtain ⟨⟨ha, hroom⟩, heq⟩ := Option.ite_none_right_eq_some.mp h
    cases heq
    exact .load ha hroom
  case h_14 => exact absurd rfl halive
  case h_15 => cases h

/-- With paging on, an interrupt needs a stack that the tables map. -/
def Phase.Allows : Phase → Happening → Prop
  | .paged, happening => happening.HasRoom
  | _, _ => True

/-- What the person sees is what the machine shows. -/
structure Presents (m : Machine) (d : Desk) : Prop where
  displays : Displays m.vga d.terminal
  ticks : m.timerTicks = BitVec.ofNat 64 d.ticks
  scancode : m.scancode = d.scancode

/-- A table of handlers, with the addresses of those the desk knows. -/
def Registered (layout : Layout) (handlers : Byte → Word) (known : Byte → Option Callback) : Prop :=
  ∀ n, handlers n = (known n).elim 0 layout.callback

/-- The gates lead to code of the kernel's. -/
def FlatCode (segments : SegmentRegs) (gdt : GdtBytes) : Prop :=
  ∃ segment, segments.select gdt 0x08 = some segment ∧ segment.IsKernelCode

/-- Interrupts can be served. -/
structure Up (layout : Layout) (kernel : Kernel) (segments : SegmentRegs) (gdt : GdtBytes)
    (forIrqs forInterrupts : Byte → Option Callback) : Prop where
  installed : Installed layout.toImage kernel
  quiet : Quiet kernel.ports
  irqHandlers : Registered layout kernel.irqHandlers forIrqs
  interruptHandlers : Registered layout kernel.interruptHandlers forInterrupts
  requests : ∀ n, forIrqs n ≠ some .pageFaultCallback
  code : FlatCode segments gdt

abbrev Machine.Up (layout : Layout) (m : Machine) (d : Desk) : Prop :=
  Brunix.Up layout m.kernel m.segments m.gdt d.irqHandlers d.interruptHandlers

namespace Phase

/-- What the desk is like in a phase, whatever happened to it. -/
structure Fixes (phase : Phase) (d : Desk) : Prop where
  irqHandlers : d.irqHandlers = phase.irqHandlers
  interruptHandlers : d.interruptHandlers = phase.interruptHandlers
  interrupts : d.interrupts = phase.interrupts
  halted : d.halted = phase.halted

def Setup (layout : Layout) (m : Machine) (d : Desk) : Phase → Prop
  | bare => ∃ ports, ports.Idle ∧ m.kernel = .boot ports
  | flat => (∃ ports, ports.Idle ∧ m.kernel = .boot ports) ∧ FlatCode m.segments m.gdt
  | dead => True
  | _ => m.Up layout d

def Paging (layout : Layout) (cr0 cr3 : Word) (mem : Memory) : Phase → Prop
  | filled | armed =>
      TablesFilled layout.pageDirectory layout.firstPageTable mem ∧ cr0 &&& pagingFlag = 0
  | paged =>
      TablesFilled layout.pageDirectory layout.firstPageTable mem ∧ cr0 &&& pagingFlag ≠ 0
        ∧ cr3 = layout.pageDirectory
  | dead => True
  | _ => StaticTables layout.pageDirectory layout.firstPageTable mem ∧ cr0 &&& pagingFlag = 0

end Phase

/-- The machine in a phase is as the desk says. -/
structure Agreement (layout : Layout) (phase : Phase) (m : Machine) (d : Desk) : Prop
    extends Presents m d where
  interrupts : m.ifFlag = d.interrupts
  halted : m.halted = d.halted
  fixes : phase.Fixes d
  setup : phase.Setup layout m d
  paging : phase.Paging layout m.cr0 m.cr3 m.mem

/-! ### Output and handlers -/

section Actions

variable {layout : Layout} {m : Machine} {d : Desk}

theorem Presents.print (h : Presents m d) {actions : List Action}
    (hfits : ∀ action ∈ actions, action.Fits layout.strAt) :
    ∃ vga, m.print layout actions = some { m with vga := vga }
      ∧ Presents { m with vga := vga } (d.print layout actions) := by
  obtain ⟨vga, hrun, hdisplays⟩ := h.displays.actions hfits
  exact ⟨vga, by rw [Machine.print, hrun]; rfl, hdisplays, h.ticks, h.scancode⟩

/-- A handler other than that of page faults changes the screen or the clock. -/
theorem Presents.call (layout : Layout) (h : Presents m d) {handler : Callback}
    (hne : handler ≠ .pageFaultCallback) (regs : Registers) :
    ∃ vga ticks, m.call layout (layout.callback handler) regs
        = some { m with vga := vga, timerTicks := ticks }
      ∧ Presents { m with vga := vga, timerTicks := ticks } (d.call handler) := by
  cases handler with
  | pageFaultCallback => exact absurd rfl hne
  | timerCallback =>
      refine ⟨m.vga, m.timerTicks + 1, if_pos rfl, h.displays, ?_, h.scancode⟩
      change m.timerTicks + 1 = BitVec.ofNat 64 (d.ticks + 1)
      rw [h.ticks, BitVec.ofNat_add]
      rfl
  | kbdCallback =>
      obtain ⟨actions, hactions, hfits, hterminal⟩ := kbdCallback_spec layout.strAt m.scancode
      obtain ⟨vga, hrun, hdisplays⟩ := h.displays.actions hfits
      rw [hterminal, h.scancode] at hdisplays
      refine ⟨vga, m.timerTicks, ?_, hdisplays, h.ticks, h.scancode⟩
      rw [Machine.call, if_neg (fun heq => absurd (layout.callback_injective heq) (by decide)),
        if_pos rfl, hactions]
      change Machine.print layout actions m = _
      rw [Machine.print, hrun]
      rfl

end Actions

/-! ### The way of a request -/

def handlerEntry (layout : Layout) (stub : Stub) (vector : Nat) (err : Word) (cpu : Cpu) : Cpu :=
  callEntry layout.link stub (cpu.interrupt vector err 0x08 (layout.stub stub.label))

theorem deliver_eq {layout : Layout} {s : Kernel} (h : Installed layout.toImage s) {vector : Nat}
    (hserved : Served vector) (err : Word) (cpu : Cpu) {stub : Stub}
    (hstub : vectorStub vector = some stub) :
    s.deliver layout.link layout.toImage vector err cpu
      = (s.handlerActions (handlerEntry layout stub vector err cpu).argument
          (Registers.read (handlerEntry layout stub vector err cpu).mem
            (handlerEntry layout stub vector err cpu).argument) stub.callee).map fun actions =>
              s.perform actions := by
  obtain ⟨stub', hstub', hlabel, -⟩ := served_stub hserved
  obtain rfl : stub' = stub := Option.some.inj (hstub'.symm.trans hstub)
  have hlt : vector < 256 := by
    rw [Served] at hserved
    omega
  have hlimit : 8 * vector + 7 ≤ (8 * 256 - 1 : BitVec 16).toNat := by
    rw [show (8 * 256 - 1 : BitVec 16).toNat = 2047 from rfl]
    omega
  rw [Kernel.deliver, hstub, h.gate hlt hlabel, h.idtPtr]
  simp only [Option.bind_eq_bind, Option.bind_some]
  rw [if_pos ⟨trivial, hlimit, rfl, rfl, rfl⟩]
  exact (Option.map_eq_bind ..).symm

theorem Machine.deliver_eq {layout : Layout} {m : Machine}
    (hinstalled : Installed layout.toImage m.kernel) (hcode : FlatCode m.segments m.gdt) {vector : Nat}
    (hserved : Served vector) (err : Word) {cpu : Cpu} (hmapped : m.StackMapped cpu.esp) {stub : Stub}
    (hstub : vectorStub vector = some stub) {actions : List Action}
    (hactions : m.kernel.handlerActions (handlerEntry layout stub vector err cpu).argument
      (Registers.read (handlerEntry layout stub vector err cpu).mem
        (handlerEntry layout stub vector err cpu).argument) stub.callee = some actions) :
    m.deliver layout vector err cpu
      = actions.foldlM (Machine.perform layout (handlerEntry layout stub vector err cpu).mem)
          { m with kernel := m.kernel.perform actions } := by
  obtain ⟨stub', hstub', hlabel, -⟩ := served_stub hserved
  obtain rfl : stub' = stub := Option.some.inj (hstub'.symm.trans hstub)
  have hlt : vector < 256 := by
    rw [Served] at hserved
    omega
  obtain ⟨segment, hselect, hkernel⟩ := hcode
  have hgate := hinstalled.gate hlt hlabel
  have hdeliver := Brunix.deliver_eq hinstalled hserved err cpu hstub
  rw [hactions, Option.map_some] at hdeliver
  have hlog : (m.kernel.perform actions).log.drop m.kernel.log.length = actions := List.drop_left
  have hsegment : m.segments.select m.gdt (interruptGate (layout.stub stub'.label)).selector
      = some segment := hselect
  rw [Machine.deliver, hgate, hstub]
  simp only [Option.bind_eq_bind, Option.bind_some, hsegment, if_pos (And.intro hkernel hmapped),
    hdeliver]
  rw [Machine.follow, hlog]
  rfl

/-! ### Serving a request -/

theorem Machine.print_cons (layout : Layout) (action : Action) (actions : List Action) (m : Machine) :
    m.print layout (action :: actions)
      = (m.print layout [action]).bind (Machine.print layout actions) := by
  simp only [Machine.print, List.foldlM_cons, List.foldlM_nil]
  cases action.onConsole layout.strAt m.vga <;> rfl

def Action.IsOutput : Action → Prop
  | .setFgColor _ | .printk _ _ => True
  | _ => False

theorem perform_output (layout : Layout) (mem : Memory) (m : Machine) {action : Action}
    (houtput : action.IsOutput) : m.perform layout mem action = m.print layout [action] := by
  cases action with
  | setFgColor | printk => rfl
  | outb | outbOr | call => exact absurd houtput id

theorem perform_call (layout : Layout) (mem : Memory) (m : Machine) (handler frame : Word) :
    m.perform layout mem (.call handler frame)
      = m.call layout handler (Registers.read mem frame) := rfl

theorem foldlM_perform_output (layout : Layout) (mem : Memory) {actions : List Action}
    (houtput : ∀ action ∈ actions, action.IsOutput) (m : Machine) :
    actions.foldlM (Machine.perform layout mem) m = m.print layout actions := by
  induction actions generalizing m with
  | nil => rfl
  | cons action actions ih =>
      have hrest (m : Machine) : actions.foldlM (Machine.perform layout mem) m
          = m.print layout actions := ih (fun a ha => houtput a (List.mem_cons_of_mem _ ha)) m
      rw [m.print_cons layout action actions, List.foldlM_cons,
        perform_output layout mem m (houtput action List.mem_cons_self)]
      exact congrArg (Option.bind _) (funext hrest)

theorem debug_isOutput (moduleName fmt : String) (params : List Word) :
    ∀ action ∈ debug moduleName fmt params, action.IsOutput := by
  simp [debug, Action.IsOutput]

/-- An end of interrupt is nothing to the timer or the screen. -/
theorem foldlM_perform_picAcknowledge (layout : Layout) (mem : Memory) (intNo : Word) (m : Machine) :
    (picAcknowledge intNo).foldlM (Machine.perform layout mem) m = some m := by
  rw [picAcknowledge]
  split <;> rfl

theorem irqHandler_eq (handlers : Byte → Word) (frame : Word) {regs : Registers} {irq : Nat}
    (hirq : irq < 16) (hno : regs.intNo = BitVec.ofNat 32 (32 + irq)) :
    irqHandler handlers frame regs
      = some ((if irq = 0 ∨ irq = 1 then []
            else debug "isr" "Calling isr_handler() for IRQ %d!" [BitVec.ofNat 32 irq])
          ++ picAcknowledge regs.intNo
          ++ if handlers (BitVec.ofNat 8 (32 + irq)) ≠ 0
            then [.call (handlers (BitVec.ofNat 8 (32 + irq))) frame] else []) := by
  have hvalue : regs.intNo.toNat = 32 + irq := by
    rw [hno, BitVec.toNat_ofNat]
    omega
  have hindex : handlerAt handlers regs.intNo = some (handlers (BitVec.ofNat 8 (32 + irq))) := by
    have hlt : regs.intNo < 256 := by
      rw [BitVec.lt_def, hvalue]
      exact show 32 + irq < 256 by omega
    rw [handlerAt, if_pos hlt, hno, BitVec.setWidth_ofNat_of_le (by decide)]
  have hsub : regs.intNo - 32 = BitVec.ofNat 32 irq := by
    rw [hno, BitVec.ofNat_add, BitVec.add_comm]
    exact BitVec.add_sub_cancel _ _
  have hquiet : regs.intNo ≠ 32 ∧ regs.intNo ≠ 33 ↔ ¬ (irq = 0 ∨ irq = 1) := by
    rw [← BitVec.toNat_ne_iff_ne, ← BitVec.toNat_ne_iff_ne, hvalue]
    change 32 + irq ≠ 32 ∧ 32 + irq ≠ 33 ↔ _
    omega
  rw [irqHandler, hindex, hsub]
  simp only [hquiet, ite_not]
  rfl

theorem reportFormat_takesNumbers :
    Action.takesNumbers (asciiBytes
      ("[" ++ "isr" ++ "]: " ++ "Calling isr_handler() for IRQ %d!" ++ "\n")) 1 = true := by
  rw [asciiBytes_debug rfl rfl]
  decide +kernel

theorem Presents.report (layout : Layout) {m : Machine} {d : Desk} (h : Presents m d) (irq : Nat)
    (mem : Memory) :
    ∃ vga, (if irq = 0 ∨ irq = 1 then []
        else debug "isr" "Calling isr_handler() for IRQ %d!" [BitVec.ofNat 32 irq]).foldlM
          (Machine.perform layout mem) m = some { m with vga := vga }
      ∧ Presents { m with vga := vga } (d.report layout irq) := by
  by_cases hknown : irq = 0 ∨ irq = 1
  · rw [if_pos hknown, Desk.report, if_pos hknown]
    exact ⟨m.vga, rfl, h⟩
  · rw [if_neg hknown, Desk.report, if_neg hknown,
      foldlM_perform_output layout mem (debug_isOutput _ _ _)]
    exact h.print (Action.debug_fits (Action.fits_of_takesNumbers reportFormat_takesNumbers rfl))

theorem Request.irq_lt (request : Request) : request.irq < 16 := by
  cases request <;> simp only [irq] <;> omega

theorem Request.vector_eq {s : Ports} (h : Initialised s) (request : Request) :
    (request.vector s).toNat = 32 + request.irq := by
  have hmaster : ∀ line : Fin 8,
      (((0x20 : Byte) &&& 0xF8) ||| BitVec.ofNat 8 line.val).toNat = 32 + line.val := by decide
  have hslave : ∀ line : Fin 8,
      (((0x28 : Byte) &&& 0xF8) ||| BitVec.ofNat 8 line.val).toNat = 32 + (8 + line.val) := by decide
  cases request with
  | master line hline => rw [vector, Pic.vector, h.master_base, hmaster, irq]
  | slave line => rw [vector, Pic.vector, h.slave_base, hslave, irq]
  | spuriousMaster => rw [vector, Pic.vector, h.master_base, hmaster, irq]; rfl
  | spuriousSlave => rw [vector, Pic.vector, h.slave_base, hslave, irq]; rfl

/-- Serving a request is something for the terminal and the clock. -/
theorem Desk.serve_eq (layout : Layout) (irq : Nat) (d : Desk) :
    ∃ terminal ticks, d.serve layout irq = { d with terminal := terminal, ticks := ticks } := by
  have hreport : ∃ terminal, d.report layout irq = { d with terminal := terminal } := by
    rw [report]
    split
    · exact ⟨d.terminal, rfl⟩
    · exact ⟨_, rfl⟩
  obtain ⟨terminal, hterminal⟩ := hreport
  rw [serve, hterminal, dispatch]
  split
  · next handler _ =>
      cases handler with
      | timerCallback => exact ⟨_, _, rfl⟩
      | kbdCallback => exact ⟨_, _, rfl⟩
      | pageFaultCallback => exact ⟨_, _, rfl⟩
  · exact ⟨_, _, rfl⟩

theorem Desk.print_eq (layout : Layout) (actions : List Action) (d : Desk) :
    ∃ terminal, d.print layout actions = { d with terminal := terminal } := ⟨_, rfl⟩

theorem Desk.print_irqHandlers (layout : Layout) (actions : List Action) (d : Desk) :
    (d.print layout actions).irqHandlers = d.irqHandlers := rfl

theorem Desk.dispatch_none {d : Desk} {vector : Byte} (h : d.irqHandlers vector = none) :
    d.dispatch vector = d := by
  rw [dispatch, h]

theorem Desk.dispatch_some {d : Desk} {vector : Byte} {handler : Callback}
    (h : d.irqHandlers vector = some handler) : d.dispatch vector = d.call handler := by
  rw [dispatch, h]

/-- What an interrupt leaves as it was. -/
structure Undisturbed (m m' : Machine) : Prop where
  gdt : m'.gdt = m.gdt
  segments : m'.segments = m.segments
  cr0 : m'.cr0 = m.cr0
  cr3 : m'.cr3 = m.cr3
  mem : m'.mem = m.mem
  ifFlag : m'.ifFlag = m.ifFlag
  halted : m'.halted = m.halted

/-- The actions of an `irq_handler`, one after another. -/
theorem Presents.serve {layout : Layout} {m : Machine} {d : Desk} (h : Presents m d)
    {handlers : Byte → Word} (hregistered : Registered layout handlers d.irqHandlers)
    (hrequests : ∀ n, d.irqHandlers n ≠ some .pageFaultCallback) {irq : Nat} (hirq : irq < 16)
    {regs : Registers} (hno : regs.intNo = BitVec.ofNat 32 (32 + irq)) (frame : Word) (mem : Memory) :
    ∃ actions vga ticks, irqHandler handlers frame regs = some actions
      ∧ actions.foldlM (Machine.perform layout mem) m = some { m with vga := vga, timerTicks := ticks }
      ∧ Presents { m with vga := vga, timerTicks := ticks } (d.serve layout irq) := by
  have hhandler := hregistered (BitVec.ofNat 8 (32 + irq))
  obtain ⟨vga, hreport, hpresents⟩ := h.report layout irq mem
  have hsame : (d.report layout irq).irqHandlers = d.irqHandlers := by
    rw [Desk.report]
    split
    · rfl
    · exact Desk.print_irqHandlers layout _ d
  have hactions := irqHandler_eq handlers frame hirq hno
  -- the report and the end of interrupt come before the call
  have hfirst (calls : List Action) :
      ((if irq = 0 ∨ irq = 1 then []
          else debug "isr" "Calling isr_handler() for IRQ %d!" [BitVec.ofNat 32 irq])
        ++ picAcknowledge regs.intNo ++ calls).foldlM (Machine.perform layout mem) m
        = calls.foldlM (Machine.perform layout mem) { m with vga := vga } := by
    rw [List.foldlM_append, List.foldlM_append, hreport]
    simp only [Option.bind_eq_bind, Option.bind_some, foldlM_perform_picAcknowledge]
  cases hknown : d.irqHandlers (BitVec.ofNat 8 (32 + irq)) with
  | none =>
      rw [hknown, Option.elim_none] at hhandler
      rw [hhandler, if_neg (not_not_intro rfl)] at hactions
      refine ⟨_, vga, m.timerTicks, hactions, ?_, ?_⟩
      · rw [hfirst, List.foldlM_nil]
        rfl
      · rw [Desk.serve, Desk.dispatch_none (by rw [hsame, hknown])]
        exact hpresents
  | some handler =>
      have hne : handler ≠ .pageFaultCallback := by
        rintro rfl
        exact hrequests _ hknown
      obtain ⟨vga', ticks, hcall, hpresents'⟩ :=
        hpresents.call layout hne (Registers.read mem frame)
      rw [hknown, Option.elim_some] at hhandler
      rw [hhandler, if_pos (layout.callback_ne_zero handler)] at hactions
      refine ⟨_, vga', ticks, hactions, ?_, ?_⟩
      · rw [hfirst, List.foldlM_cons, Machine.perform, hcall]
        rfl
      · rw [Desk.serve, Desk.dispatch_some (by rw [hsame, hknown])]
        exact hpresents'

/-- Whatever the controllers ask for, and wherever the program is, the machine serves it as the desk
does, and can serve the next one. -/
theorem Presents.request {layout : Layout} {m : Machine} {d : Desk} (h : Presents m d)
    (hup : m.Up layout d) (hif : m.ifFlag = true) (hrunning : m.halted = false) (request : Request)
    {cpu : Cpu} (hmapped : m.StackMapped cpu.esp) :
    ∃ m', m.event layout (.request request cpu) = some m' ∧ Presents m' (d.serve layout request.irq)
      ∧ m'.Up layout (d.serve layout request.irq) ∧ Undisturbed m m' := by
  have hvector := request.vector_eq hup.quiet.toInitialised
  have hirq := request.irq_lt
  have hserved : Served (request.vector m.kernel.ports).toNat := .inl (by omega)
  obtain ⟨stub, hstub, -, hcallee⟩ := served_stub hserved
  rw [if_pos (by omega)] at hcallee
  have hno := callEntry_intNo layout.link (vectorStub_serves hstub) 0 0x08
    (layout.stub stub.label) cpu
  let entry := handlerEntry layout stub (request.vector m.kernel.ports).toNat 0 cpu
  have hno' : (Registers.read entry.mem entry.argument).intNo = BitVec.ofNat 32 (32 + request.irq) := by
    rw [← hvector]
    exact hno
  let accepted : Machine := { m with
    kernel := { m.kernel with ports := request.accept m.kernel.ports }
    ifFlag := false }
  have hinstalled : Installed layout.toImage accepted.kernel := ⟨hup.installed.idtPtr, hup.installed.idt⟩
  obtain ⟨actions, hactions⟩ : ∃ actions, irqHandler accepted.kernel.irqHandlers entry.argument
      (Registers.read entry.mem entry.argument) = some actions :=
    ⟨_, irqHandler_eq accepted.kernel.irqHandlers entry.argument hirq hno'⟩
  have hpresents : Presents { accepted with kernel := accepted.kernel.perform actions } d :=
    ⟨h.displays, h.ticks, h.scancode⟩
  obtain ⟨actions', vga, ticks, hactions', hrun, hserve⟩ :=
    hpresents.serve hup.irqHandlers hup.requests hirq hno' entry.argument entry.mem
  obtain rfl : actions = actions' := Option.some.inj (hactions.symm.trans hactions')
  have hquiet : Quiet (actions.foldl Action.onPorts (request.accept m.kernel.ports)) :=
    accept_drains hup.quiet request (hno.trans (BitVec.ofNat_toNat _ _)) hactions
  have hdeliver : accepted.deliver layout (request.vector m.kernel.ports).toNat 0 cpu
      = some { accepted with
          kernel := accepted.kernel.perform actions, vga := vga, timerTicks := ticks } := by
    rw [accepted.deliver_eq hinstalled hup.code hserved 0 hmapped hstub
      (by rw [hcallee]; exact hactions)]
    exact hrun
  refine ⟨{ accepted with
    kernel := accepted.kernel.perform actions
    vga := vga
    timerTicks := ticks
    ifFlag := true }, ?_, ⟨hserve.displays, hserve.ticks, hserve.scancode⟩, ?_,
    ⟨rfl, rfl, rfl, rfl, rfl, hif.symm, rfl⟩⟩
  · rw [Machine.event, if_pos hif, Machine.serve]
    change Option.bind (accepted.deliver layout _ 0 cpu) _ = _
    rw [hdeliver, Option.bind_some]
    simp only [accepted, hif, hrunning, Bool.not_false, Bool.and_self]
  · obtain ⟨terminal, ticks', hdesk⟩ := d.serve_eq layout request.irq
    rw [hdesk]
    exact ⟨⟨hup.installed.idtPtr, hup.installed.idt⟩, hquiet, hup.irqHandlers, hup.interruptHandlers,
      hup.requests, hup.code⟩

/-! ### Events -/

theorem Phase.running_of_interrupts {phase : Phase} (h : phase.interrupts = true) :
    phase.halted = false := by
  cases phase <;> first | rfl | cases h

/-- With interrupts on, they can be served. -/
theorem Phase.Setup.up {layout : Layout} {m : Machine} {d : Desk} {phase : Phase}
    (h : phase.Setup layout m d) (hif : phase.interrupts = true) : m.Up layout d := by
  cases phase <;> first | exact h | cases hif

/-- What the person sees does not matter for what the desk is like. -/
theorem Phase.Fixes.visible {phase : Phase} {d : Desk} (h : phase.Fixes d) (terminal : Terminal)
    (ticks : Nat) (scancode : Byte) :
    phase.Fixes { d with terminal := terminal, ticks := ticks, scancode := scancode } :=
  ⟨h.irqHandlers, h.interruptHandlers, h.interrupts, h.halted⟩

theorem Phase.Setup.of_up {layout : Layout} {m : Machine} {d : Desk} {phase : Phase}
    (hif : phase.interrupts = true) (hup : m.Up layout d) : phase.Setup layout m d := by
  cases phase <;> first | exact hup | cases hif

theorem Machine.stackMapped_off {m : Machine} (h : m.cr0 &&& pagingFlag = 0) (esp : Word) :
    m.StackMapped esp :=
  fun _ _ => if_pos h

theorem Machine.stackMapped_on {m : Machine} {firstPageTable : Word}
    (h : TablesFilled m.cr3 firstPageTable m.mem) (hon : m.cr0 &&& pagingFlag ≠ 0) {cpu : Cpu}
    (hroom : cpu.HasRoom) : m.StackMapped cpu.esp := by
  intro k hk
  obtain ⟨hlow, hhigh⟩ := hroom
  have hframe : (cpu.esp - 64).toNat = cpu.esp.toNat - 64 :=
    BitVec.toNat_sub_of_le (show 64 ≤ cpu.esp from BitVec.le_def.mpr hlow)
  have hbelow : ¬ 0x400000 ≤ (cpu.esp - 64 + BitVec.ofNat 32 k).toNat := by
    rw [BitVec.toNat_add, hframe, BitVec.toNat_ofNat]
    omega
  rw [h.translate_eq hon, if_neg hbelow]
  rfl

/-- A request finds its stack mapped, because paging is off or because it has room. -/
theorem Phase.Paging.stackMapped {layout : Layout} {phase : Phase} {m : Machine}
    (h : phase.Paging layout m.cr0 m.cr3 m.mem) (hif : phase.interrupts = true) {request : Request}
    {cpu : Cpu} (hallowed : phase.Allows (.request request cpu)) : m.StackMapped cpu.esp := by
  cases phase with
  | paged =>
      obtain ⟨hfilled, hon, hroot⟩ := h
      exact Machine.stackMapped_on (hroot ▸ hfilled) hon hallowed
  | dead => cases hif
  | bare | flat | gated | serving | timed | ready | filled | armed =>
      exact Machine.stackMapped_off h.2 cpu.esp

theorem Agreement.event {layout : Layout} {phase : Phase} {m : Machine} {d : Desk}
    (h : Agreement layout phase m d) {happening : Happening} (hallowed : phase.Allows happening) :
    ∃ m', m.event layout happening = some m'
      ∧ Agreement layout phase m' (d.event layout happening) := by
  cases happening with
  | scancode value =>
      exact ⟨_, rfl, ⟨h.displays, h.ticks, rfl⟩, h.interrupts, h.halted, h.fixes.visible _ _ _,
        by cases phase <;> exact h.setup, h.paging⟩
  | request request cpu =>
      cases hif : d.interrupts with
      | false =>
          have hflag : m.ifFlag = false := h.interrupts.trans hif
          refine ⟨m, ?_, ?_⟩
          · rw [Machine.event, hflag]
            rfl
          · rw [Desk.event, hif]
            exact h
      | true =>
          have hphase : phase.interrupts = true := h.fixes.interrupts.symm.trans hif
          have hrunning : m.halted = false :=
            h.halted.trans (h.fixes.halted.trans (Phase.running_of_interrupts hphase))
          obtain ⟨m', hevent, hpresents, hup', hsame⟩ := h.toPresents.request (h.setup.up hphase)
            (h.interrupts.trans hif) hrunning request (h.paging.stackMapped hphase hallowed)
          refine ⟨m', hevent, ?_⟩
          rw [Desk.event, if_pos hif]
          obtain ⟨terminal, ticks, hdesk⟩ := d.serve_eq layout request.irq
          rw [hdesk] at hpresents hup' ⊢
          refine ⟨hpresents, hsame.ifFlag.trans h.interrupts, hsame.halted.trans h.halted,
            h.fixes.visible _ _ _, .of_up hphase hup', ?_⟩
          rw [hsame.cr0, hsame.cr3, hsame.mem]
          exact h.paging

/-! ### Commands -/

section Commands

variable {layout : Layout} {phase phase' : Phase} {m : Machine} {d : Desk}

theorem Agreement.putc (h : Agreement layout phase m d) (c : Byte) :
    Agreement layout phase { m with vga := vgaPutc m.vga c }
      { d with terminal := d.terminal.putc c } :=
  ⟨⟨h.displays.putc c, h.ticks, h.scancode⟩, h.interrupts, h.halted, h.fixes.visible _ _ _,
    by cases phase <;> exact h.setup, h.paging⟩

theorem Agreement.setFgColor (h : Agreement layout phase m d) (colour : Byte) :
    Agreement layout phase { m with vga := vgaSetForegroundColor colour m.vga }
      { d with terminal := d.terminal.setForegroundColor colour } :=
  ⟨⟨h.displays.setForegroundColor colour, h.ticks, h.scancode⟩, h.interrupts, h.halted,
    h.fixes.visible _ _ _, by cases phase <;> exact h.setup, h.paging⟩

theorem flatCode_gdtInit (address : Word) (gdt : GdtBytes) :
    FlatCode (gdtFlush (gdtInit address gdt).1) (gdtInit address gdt).2 :=
  ⟨_, (gdtFlush_flat address gdt).1, by decide⟩

theorem irqInit_ports (image : Image) (ports : Ports) :
    (irqInit image (.boot ports)).ports = picRemap 0x20 0x28 ports := by
  rw [irqInit, irqInstall, installGates_eq, isrInstall, installGates_eq]
  rfl

theorem irqInit_log (image : Image) (ports : Ports) :
    (irqInit image (.boot ports)).log = debug "irq" "Remapping PIC..." [] := by
  rw [irqInit, irqInstall, installGates_eq, isrInstall, installGates_eq]
  rfl

theorem quiet_picRemap {s : Ports} (h : s.Idle) : Quiet (picRemap 0x20 0x28 s) := by
  rw [picRemap_spec]
  exact ⟨⟨rfl, rfl, rfl, rfl⟩, h⟩

theorem remapFormat_takesNumbers :
    Action.takesNumbers (asciiBytes ("[" ++ "irq" ++ "]: " ++ "Remapping PIC..." ++ "\n")) 0
      = true := by
  rw [asciiBytes_debug rfl rfl]
  decide +kernel

theorem Agreement.irqInit (h : Agreement layout .flat m d) :
    ∃ vga, m.follow layout m.mem (Brunix.irqInit layout.toImage m.kernel)
        = some { m with vga := vga, kernel := Brunix.irqInit layout.toImage m.kernel }
      ∧ Agreement layout .gated { m with vga := vga, kernel := Brunix.irqInit layout.toImage m.kernel }
        (d.print layout (debug "irq" "Remapping PIC..." [])) := by
  obtain ⟨⟨ports, hidle, hboot⟩, hcode⟩ := h.setup
  have hfits : ∀ action ∈ debug "irq" "Remapping PIC..." [], action.Fits layout.strAt :=
    Action.debug_fits (Action.fits_of_takesNumbers remapFormat_takesNumbers rfl)
  have hset : Presents { m with kernel := Brunix.irqInit layout.toImage m.kernel } d :=
    ⟨h.displays, h.ticks, h.scancode⟩
  obtain ⟨vga, hprint, hpresents⟩ := hset.print hfits
  have htracks := irqInit_tracks layout.toImage ports
  have hempty : m.kernel.log = [] := by rw [hboot]; rfl
  have hlog : (Brunix.irqInit layout.toImage m.kernel).log.drop m.kernel.log.length
      = debug "irq" "Remapping PIC..." [] := by
    rw [hempty, hboot, irqInit_log, List.length_nil, List.drop_zero]
  obtain ⟨terminal, hdesk⟩ := d.print_eq layout (debug "irq" "Remapping PIC..." [])
  rw [hdesk] at hpresents ⊢
  have hfixes : Phase.gated.Fixes d :=
    ⟨h.fixes.irqHandlers, h.fixes.interruptHandlers, h.fixes.interrupts, h.fixes.halted⟩
  refine ⟨vga, ?_, ⟨hpresents.displays, hpresents.ticks, hpresents.scancode⟩, h.interrupts, h.halted,
    hfixes.visible _ _ _, ?_, h.paging⟩
  · rw [Machine.follow, hlog, foldlM_perform_output layout m.mem (debug_isOutput _ _ _)]
    exact hprint
  · change Up layout (Brunix.irqInit layout.toImage m.kernel) m.segments m.gdt d.irqHandlers
      d.interruptHandlers
    rw [hboot, hfixes.irqHandlers, hfixes.interruptHandlers]
    refine ⟨htracks.installed, ?_, htracks.irqHandlers, htracks.interruptHandlers, nofun, hcode⟩
    rw [irqInit_ports]
    exact quiet_picRemap hidle

theorem Registered.update {handlers : Byte → Word} {known : Byte → Option Callback}
    (h : Registered layout handlers known) (n : Byte) (handler : Callback) :
    Registered layout (Function.update handlers n (layout.callback handler))
      (Function.update known n (some handler)) := by
  intro k
  by_cases hk : k = n
  · rw [hk, Function.update_self, Function.update_self, Option.elim_some]
  · rw [Function.update_of_ne hk, Function.update_of_ne hk, h k]

theorem quietly_registerIrqHandler (m : Machine) (n : Byte) (handler : Word) :
    m.quietly (registerIrqHandler n handler) = { m with
      kernel := { m.kernel with
        irqHandlers := Function.update m.kernel.irqHandlers n handler } } := rfl

theorem quietly_registerInterruptHandler (m : Machine) (n : Byte) (handler : Word) :
    m.quietly (registerInterruptHandler n handler) = { m with
      kernel := { m.kernel with
        interruptHandlers := Function.update m.kernel.interruptHandlers n handler } } := rfl

theorem outb_pit {port : BitVec 16} (hport : port = Pit.command ∨ port = Pit.channel0) (value : Byte)
    (s : Ports) : s.outb port value = s := by
  obtain rfl | rfl := hport <;> rfl

theorem Up.setIrqHandler (hup : m.Up layout d) (n : Byte) {handler : Callback}
    (hne : handler ≠ .pageFaultCallback) :
    (m.quietly (registerIrqHandler n (layout.callback handler))).Up layout
      { d with irqHandlers := Function.update d.irqHandlers n (some handler) } := by
  rw [quietly_registerIrqHandler]
  refine ⟨⟨hup.installed.idtPtr, hup.installed.idt⟩, hup.quiet, hup.irqHandlers.update n handler,
    hup.interruptHandlers, fun k hknown => ?_, hup.code⟩
  have hk : Function.update d.irqHandlers n (some handler) k = some .pageFaultCallback := hknown
  obtain rfl | hkn := eq_or_ne k n
  · rw [Function.update_self] at hk
    exact hne (Option.some.inj hk)
  · rw [Function.update_of_ne hkn] at hk
    exact hup.requests k hk

theorem Agreement.setIrqHandler (h : Agreement layout phase m d) {n : Byte} {handler : Callback}
    (hne : handler ≠ .pageFaultCallback) (hserving : phase.interrupts = true)
    (hserving' : phase'.interrupts = true)
    (hknown : phase'.irqHandlers = Function.update phase.irqHandlers n (some handler))
    (hsame : phase'.interruptHandlers = phase.interruptHandlers)
    (hpaging : phase'.Paging layout m.cr0 m.cr3 m.mem) :
    Agreement layout phase' (m.quietly (registerIrqHandler n (layout.callback handler)))
      { d with irqHandlers := Function.update d.irqHandlers n (some handler) } := by
  have hup := (h.setup.up hserving).setIrqHandler n hne
  have hrunning := Phase.running_of_interrupts hserving
  have hrunning' := Phase.running_of_interrupts hserving'
  rw [quietly_registerIrqHandler] at hup ⊢
  refine ⟨⟨h.displays, h.ticks, h.scancode⟩, h.interrupts, h.halted, ⟨?_, ?_, ?_, ?_⟩,
    .of_up hserving' hup, hpaging⟩
  · rw [hknown, ← h.fixes.irqHandlers]
  · rw [hsame]
    exact h.fixes.interruptHandlers
  · rw [hserving', ← hserving]
    exact h.fixes.interrupts
  · rw [hrunning', ← hrunning]
    exact h.fixes.halted

theorem Agreement.setInterruptHandler (h : Agreement layout .filled m d) :
    Agreement layout .armed
      (m.quietly (registerInterruptHandler 14 (layout.callback .pageFaultCallback)))
      { d with interruptHandlers :=
          Function.update d.interruptHandlers 14 (some .pageFaultCallback) } := by
  have hup : m.Up layout d := h.setup
  rw [quietly_registerInterruptHandler]
  refine ⟨⟨h.displays, h.ticks, h.scancode⟩, h.interrupts, h.halted,
    ⟨h.fixes.irqHandlers, ?_, h.fixes.interrupts, h.fixes.halted⟩, ?_, h.paging⟩
  · rw [h.fixes.interruptHandlers]
    rfl
  · exact ⟨⟨hup.installed.idtPtr, hup.installed.idt⟩, hup.quiet, hup.irqHandlers,
      hup.interruptHandlers.update 14 .pageFaultCallback, hup.requests, hup.code⟩

theorem Agreement.fillTables (h : Agreement layout .ready m d) :
    Agreement layout .filled
      { m with mem := pagingTables layout.pageDirectory layout.firstPageTable m.mem } d := by
  have hup : m.Up layout d := h.setup
  obtain ⟨hstatic, hoff⟩ := h.paging
  have hfilled := hstatic.filled
  generalize pagingTables layout.pageDirectory layout.firstPageTable m.mem = mem at hfilled ⊢
  exact ⟨⟨h.displays, h.ticks, h.scancode⟩, h.interrupts, h.halted,
    ⟨h.fixes.irqHandlers, h.fixes.interruptHandlers, h.fixes.interrupts, h.fixes.halted⟩, hup,
    hfilled, hoff⟩

theorem Desk.print_cons (action : Action) (actions : List Action) :
    d.print layout (action :: actions) = (d.print layout [action]).print layout actions := rfl

theorem callingFormat_takesNumbers :
    Action.takesNumbers (asciiBytes "Calling isr_handler()!\n") 0 = true := by
  rw [asciiBytes_eq rfl]
  decide +kernel

theorem call_pageFault (regs : Registers) :
    m.call layout (layout.callback .pageFaultCallback) regs
      = (m.print layout (pageFaultCallback layout.toLiterals m.cr2 regs)).map fun m =>
        { m with halted := true } := by
  rw [Machine.call, if_neg (fun heq => absurd (layout.callback_injective heq) (by decide)),
    if_neg (fun heq => absurd (layout.callback_injective heq) (by decide)), if_pos rfl]
  exact (Option.map_eq_bind ..).symm

/-- The line of `isr_handler`, and the report of the handler it calls. -/
theorem Presents.pageFault (h : Presents m d) {handlers : Byte → Word}
    (hhandler : handlers 14 = layout.callback .pageFaultCallback) {regs : Registers}
    (hno : regs.intNo = BitVec.ofNat 32 14) {frame : Word} {mem : Memory}
    (hread : Registers.read mem frame = regs) :
    ∃ vga, (isrHandler handlers frame regs).foldlM (Machine.perform layout mem) m
        = some { m with vga := vga, halted := true }
      ∧ Presents { m with vga := vga } (d.print layout (.printk "Calling isr_handler()!\n" []
        :: pageFaultCallback layout.toLiterals m.cr2 regs)) := by
  have hcalling : ∀ action ∈ [Action.printk "Calling isr_handler()!\n" []],
      action.Fits layout.strAt := by
    intro action haction
    rw [List.mem_singleton.mp haction]
    exact Action.fits_of_takesNumbers callingFormat_takesNumbers rfl
  have hvector : ((BitVec.ofNat 32 14 &&& 0xFF).setWidth 8 : Byte) = 14 := by decide
  obtain ⟨vga, hfirst, hmid⟩ := h.print hcalling
  obtain ⟨vga', hsecond, hend⟩ := hmid.print (pageFaultCallback_fits layout.toLiterals m.cr2 regs)
  have hcall : [Action.call (layout.callback .pageFaultCallback) frame].foldlM
      (Machine.perform layout mem) { m with vga := vga }
      = some { m with vga := vga', halted := true } := by
    rw [List.foldlM_cons, perform_call, hread, call_pageFault, hsecond]
    rfl
  refine ⟨vga', ?_, ?_⟩
  · rw [isrHandler, hno, hvector, hhandler, if_pos (layout.callback_ne_zero _),
      List.foldlM_cons, perform_output layout mem m (show Action.IsOutput (.printk _ _) from trivial),
      hfirst]
    exact hcall
  · rw [Desk.print_cons]
    exact hend

/-- The handler finds the address and the frame, reports them, and the machine halts with interrupts
off. -/
theorem Presents.fault (h : Presents m d) (hup : m.Up layout d)
    (hhandler : d.interruptHandlers 14 = some .pageFaultCallback) (a err : Word) {cpu : Cpu}
    (hmapped : m.StackMapped cpu.esp) :
    ∃ m', Machine.serve layout 14 err cpu { m with cr2 := a } = some m'
      ∧ Presents m' (d.fault layout a err cpu) ∧ m'.ifFlag = false ∧ m'.halted = true := by
  have hstub : vectorStub 14 = some (.isrErrCode 14) := by decide
  have hserved : Served 14 := .inl (by decide)
  have hno : (Desk.faultRegisters layout err cpu).intNo = BitVec.ofNat 32 14 :=
    callEntry_intNo layout.link (vectorStub_serves hstub) err 0x08 _ cpu
  have hregistered : m.kernel.interruptHandlers 14 = layout.callback .pageFaultCallback := by
    rw [hup.interruptHandlers 14, hhandler, Option.elim_some]
  have hread : Registers.read (handlerEntry layout (.isrErrCode 14) 14 err cpu).mem
      (handlerEntry layout (.isrErrCode 14) 14 err cpu).argument
      = Desk.faultRegisters layout err cpu := rfl
  rw [Desk.fault]
  generalize Desk.faultRegisters layout err cpu = regs at hno hread ⊢
  obtain ⟨actions, hactions⟩ : ∃ actions, isrHandler m.kernel.interruptHandlers
      (handlerEntry layout (.isrErrCode 14) 14 err cpu).argument regs = actions := ⟨_, rfl⟩
  have hdeliver := Machine.deliver_eq (m := { m with cr2 := a, ifFlag := false }) hup.installed hup.code
    hserved err hmapped hstub (hread ▸ congrArg some hactions)
  have hstart : Presents { m with
      cr2 := a, ifFlag := false, kernel := m.kernel.perform actions } d :=
    ⟨h.displays, h.ticks, h.scancode⟩
  obtain ⟨vga, hrun, hend⟩ := hstart.pageFault hregistered hno hread
  rw [hactions] at hrun
  have hrun' : Machine.deliver layout 14 err cpu { m with cr2 := a, ifFlag := false }
      = some { m with
          cr2 := a, ifFlag := false, kernel := m.kernel.perform actions, vga := vga, halted := true } :=
    hdeliver.trans hrun
  generalize d.print layout _ = reported at hend ⊢
  refine ⟨{ m with
    cr2 := a, ifFlag := false, kernel := m.kernel.perform actions, vga := vga, halted := true },
    ?_, ⟨hend.displays, hend.ticks, hend.scancode⟩, rfl, rfl⟩
  rw [Machine.serve]
  change Option.bind (Machine.deliver layout 14 err cpu { m with cr2 := a, ifFlag := false }) _ = _
  rw [hrun', Option.bind_some]
  simp only [Bool.not_true, Bool.and_false]

theorem Desk.fault_eq (layout : Layout) (a err : Word) (cpu : Cpu) (d : Desk) :
    ∃ terminal, d.fault layout a err cpu
      = { d with terminal := terminal, interrupts := false, halted := true } := by
  obtain ⟨terminal, hprint⟩ := d.print_eq layout (.printk "Calling isr_handler()!\n" []
    :: pageFaultCallback layout.toLiterals a (faultRegisters layout err cpu))
  rw [fault, hprint]
  exact ⟨terminal, rfl⟩

theorem Agreement.load (h : Agreement layout .paged m d) {a : Word} (ha : 0x400000 ≤ a.toNat)
    {cpu : Cpu} (hroom : cpu.HasRoom) :
    ∃ m', Machine.exec layout (.load a cpu) m = some (m', 0)
      ∧ Agreement layout .dead m'
        (d.fault layout a (AccessKind.supervisorRead.errorCode false) cpu) := by
  have hup : m.Up layout d := h.setup
  have hhandler : d.interruptHandlers 14 = some .pageFaultCallback := by
    rw [h.fixes.interruptHandlers]
    rfl
  obtain ⟨hfilled, hon, hroot⟩ := h.paging
  obtain ⟨m', hserve, hpresents, hif, hhalted⟩ := h.toPresents.fault hup hhandler a
    (AccessKind.supervisorRead.errorCode false) (Machine.stackMapped_on (hroot ▸ hfilled) hon hroom)
  have htranslate : translate m.cr0 m.cr3 m.mem .supervisorRead a
      = .fault (AccessKind.supervisorRead.errorCode false) := by
    rw [hroot, hfilled.translate_eq hon, if_pos ha]
  refine ⟨m', ?_, ?_⟩
  · rw [Machine.exec, htranslate]
    change Option.bind (Machine.serve layout 14 _ cpu { m with cr2 := a }) _ = _
    rw [hserve, Option.bind_some, if_pos hhalted]
  · obtain ⟨terminal, hfault⟩ :=
      d.fault_eq layout a (AccessKind.supervisorRead.errorCode false) cpu
    rw [hfault] at hpresents ⊢
    exact ⟨hpresents, hif, hhalted, ⟨h.fixes.irqHandlers, h.fixes.interruptHandlers, rfl, rfl⟩,
      trivial, trivial⟩

/-- Every command, in the phase it belongs to. -/
theorem Agreement.exec (h : Agreement layout phase m d) (c : Command)
    (hprotocol : bootProtocol c phase = some phase') (hrunning : d.halted = false) :
    ∃ m', Machine.exec layout c m = some (m', (Desk.exec layout c d).2)
      ∧ Agreement layout phase' m' (Desk.exec layout c d).1 := by
  have halive : phase ≠ .dead := by
    rintro rfl
    exact absurd (h.fixes.halted.symm.trans hrunning) (by decide)
  cases bootStep_of_protocol hprotocol halive with
  | putc c => exact ⟨_, rfl, h.putc c⟩
  | setFgColor colour => exact ⟨_, rfl, h.setFgColor colour⟩
  | getClockTick =>
      refine ⟨m, ?_, h⟩
      have hlow : lowWord m.timerTicks = BitVec.ofNat 32 d.ticks := by
        rw [h.ticks, lowWord, BitVec.setWidth_ofNat_of_le (by decide)]
      rw [Machine.exec, hlow]
      rfl
  | gdtInit =>
      exact ⟨_, rfl, ⟨h.displays, h.ticks, h.scancode⟩, h.interrupts, h.halted,
        ⟨h.fixes.irqHandlers, h.fixes.interruptHandlers, h.fixes.interrupts, h.fixes.halted⟩,
        ⟨h.setup, flatCode_gdtInit _ _⟩, h.paging⟩
  | irqInit =>
      obtain ⟨vga, hfollow, hagreement⟩ := h.irqInit
      refine ⟨_, ?_, hagreement⟩
      rw [Machine.exec, hfollow]
      rfl
  | sti =>
      exact ⟨_, rfl, ⟨h.displays, h.ticks, h.scancode⟩, rfl, h.halted,
        ⟨h.fixes.irqHandlers, h.fixes.interruptHandlers, rfl, h.fixes.halted⟩, h.setup, h.paging⟩
  | timer | keyboard =>
      exact ⟨_, rfl, h.setIrqHandler (by decide) rfl rfl rfl rfl h.paging⟩
  | pit value hport =>
      refine ⟨_, rfl, ⟨h.displays, h.ticks, h.scancode⟩, h.interrupts, h.halted, h.fixes, ?_, h.paging⟩
      rw [outb_pit hport]
      exact h.setup
  | fillTables => exact ⟨_, rfl, h.fillTables⟩
  | pageFault => exact ⟨_, rfl, h.setInterruptHandler⟩
  | turnPagingOn =>
      exact ⟨_, rfl, ⟨h.displays, h.ticks, h.scancode⟩, h.interrupts, h.halted,
        ⟨h.fixes.irqHandlers, h.fixes.interruptHandlers, h.fixes.interrupts, h.fixes.halted⟩,
        h.setup, h.paging.1, or_pagingFlag m.cr0, rfl⟩
  | load ha hroom => exact h.load ha hroom

/-- For any program that keeps to the order of `kmain`. -/
theorem machine_refines_desk (layout : Layout) :
    Refines (machine layout) (desk layout) bootProtocol Phase.Allows (Agreement layout) where
  stopped := fun h => h.halted
  exec := fun c hprotocol h hrunning => h.exec c hprotocol hrunning
  event := fun _ hallowed h => h.event hallowed

end Commands

end Brunix
