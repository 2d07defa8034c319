import Brunix.Kernel.Refinement

/-!
# The main program, `main.c`

`kmain` sets the machine up and prints what it does. From `sti` on, interrupts come between any two of
its steps. The program is given up to the bitmap of `paging_init`, which is written past its end, and
then from the page tables on, where it ends in a page fault.
-/

namespace Brunix

open Basis

/-! ### Output as commands -/

/-- The commands of an action. The characters of a `printk` are those it hands to `vga_putc`. -/
def Action.commands (layout : Layout) : Action → List Command
  | .setFgColor colour => [.setFgColor colour]
  | .printk fmt params =>
      match Brunix.printk record layout.strAt (literal fmt) params [] with
      | some text => text.map .putc
      | none => [.undefined]
  | .outb port value => [.outb port value]
  | .outbOr _ _ | .call _ _ => [.undefined]

@[irreducible] def commandsOf (layout : Layout) (actions : List Action) : List Command :=
  actions.flatMap (Action.commands layout)

/-! ### `main.c` -/

def multibootHeaderMagic : Word := 0x2BADB002

/-- The fields of `multiboot_info` that are read, and the other arguments of `kmain`. -/
structure BootInfo where
  magic : Word
  initialStack : Word
  memLower : Word
  memUpper : Word
  cmdline : Word
  mmapLength : Word
  mmapAddr : Word
  bootLoaderName : Word

/-- The addresses of the linker's symbols. -/
structure Symbols where
  kernelStart : Word
  kernelEnd : Word
  bssStart : Word
  bssEnd : Word
  buildDate : Word
  buildTime : Word

def printKernelContextInfo (symbols : Symbols) (info : BootInfo) : List Action :=
  [.printk "-- This is build %u, %u --\n" [symbols.buildDate, symbols.buildTime],
    .printk "Kernel size: %d KB. Initial ESP: %x KB\n"
      [(symbols.kernelEnd - symbols.kernelStart).sdiv 1024, info.initialStack],
    .printk "BSS section starts at %x and ends at %x. Total: %d KB\n\n"
      [symbols.bssStart, symbols.bssEnd, (symbols.bssEnd - symbols.bssStart).sdiv 1024],
    .printk "OS booted with %s...\n" [info.bootLoaderName],
    .printk "  -> Command line: %s\n" [info.cmdline],
    .printk "  -> Mem lower: %u KB - Mem upper: %u MB\n" [info.memLower, info.memUpper / 1024],
    .printk "  -> TODO (http://forum.osdev.org/viewtopic.php?f=1&t=10934&start=0) mmap_addr = 0x%x, mmap_length = 0x%x\n\n"
      [info.mmapAddr, info.mmapLength]]

def registerIrqReport (n : Byte) (handler : Word) : List Action :=
  debug "irq" "Registering IRQ handler number %d (%d), handler %x!..."
    [n.setWidth 32 - 32, n.setWidth 32, handler]

def registerInterruptReport (n : Byte) (handler : Word) : List Action :=
  debug "ISR" "Registering interrupt handler number %d, handler %x!" [n.setWidth 32, handler]

def timerInit (layout : Layout) (frequency : Word) : List Command :=
  commandsOf layout (registerIrqReport 32 (layout.callback .timerCallback))
    ++ [.setIrqHandler 32 .timerCallback]
    ++ match timerDivisor frequency with
      | some divisor => commandsOf layout (timerWrites divisor)
      | none => [.undefined]

def kbdInit (layout : Layout) : List Command :=
  commandsOf layout (registerIrqReport 33 (layout.callback .kbdCallback))
    ++ [.setIrqHandler 33 .kbdCallback]

/-- `kmain` after the check of the magic number, up to the first call of `get_clock_tick`. -/
def kmainSetup (layout : Layout) (symbols : Symbols) (info : BootInfo) : List Command :=
  commandsOf layout (printKernelContextInfo symbols info ++ [.printk "GDT..." []])
    ++ [.gdtInit]
    ++ commandsOf layout [.printk "IRQs..." []]
    ++ [.irqInit]
    ++ commandsOf layout (debug "kmain" "Enabling interrupts..." [])
    ++ [.sti]
    ++ timerInit layout 100
    ++ commandsOf layout [.setFgColor colorLightGrey]

/-- From there to the bitmap of `paging_init`. -/
def kmainRest (layout : Layout) (info : BootInfo) (ticks : Word) : List Command :=
  commandsOf layout [.printk ("[" ++ "kmain" ++ "]: " ++ "Clock ticks: %u" ++ "\n") [ticks],
      .setFgColor colorWhite, .printk "Keyboard..." []]
    ++ kbdInit layout
    ++ commandsOf layout [.printk "VMM..." [], .printk "Init paging...\n" [],
      .printk "Total frames: %d\n" [info.memUpper * 1024 / 4096]]

/-- `kmain`, from after `video_init` up to the frame bitmap. A panic ends it earlier, in a loop that
halts. -/
def kmain (layout : Layout) (symbols : Symbols) (info : BootInfo) : Program Command Word :=
  (Program.ofList (commandsOf layout [.printk "Starting Brunix... " []])).andThen <|
    if info.magic ≠ multibootHeaderMagic then
      Program.ofList (commandsOf layout (panicNoargs layout.toLiterals
        "Invalid magic number! A Multiboot compatible loader is needed..." "kernel/main.c" 48))
    else
      (Program.ofList (kmainSetup layout symbols info)).andThen
        (.command .getClockTick fun ticks => Program.ofList (kmainRest layout info ticks))

/-- The end of `paging_init` from the page tables on, and `kmain` after it up to the load. -/
def kmainPaging (layout : Layout) : List Command :=
  [.fillTables]
    ++ commandsOf layout [.printk "page dir= %x --" [layout.pageDirectory],
      .printk "first table = %x --" [layout.firstPageTable]]
    ++ commandsOf layout (registerInterruptReport 14 (layout.callback .pageFaultCallback))
    ++ [.setInterruptHandler 14 .pageFaultCallback, .turnPagingOn]
    ++ commandsOf layout [.printk "\nGenerating a page fault..." []]

/-- What comes after the load, up to the loop that halts. -/
def kmainLast (layout : Layout) : Program Command Word :=
  Program.ofList (commandsOf layout [.printk "LA LA LA\n" []])

/-- The end of `kmain`, with the processor at the load. -/
def kmainEnd (layout : Layout) (cpu : Cpu) : Program Command Word :=
  (Program.ofList (kmainPaging layout ++ [.load 0x400000 cpu])).andThen (kmainLast layout)

/-! ### The commands keep to the order -/

def Command.IsOutput : Command → Prop
  | .putc _ | .setFgColor _ => True
  | _ => False

/-- Output that the strings in memory allow. -/
def Action.Prints (layout : Layout) (action : Action) : Prop :=
  action.IsOutput ∧ action.Fits layout.strAt

theorem commands_printk {layout : Layout} {fmt : String} {params : List Word}
    (h : (Action.printk fmt params).Fits layout.strAt) :
    (Action.printk fmt params).commands layout
      = (expand layout.strAt (asciiBytes fmt) params).map .putc := by
  obtain ⟨hnonzero, hargs⟩ := h
  rw [Action.commands, printk_spec record layout.strAt (literal_holds hnonzero) hargs, foldl_record]
  rfl

theorem Action.Prints.commands {layout : Layout} {action : Action} (h : action.Prints layout) :
    ∀ c ∈ action.commands layout, c.IsOutput := by
  obtain ⟨houtput, hfits⟩ := h
  cases action with
  | setFgColor colour =>
      intro c hc
      rw [List.mem_singleton.mp hc]
      trivial
  | printk fmt params =>
      rw [commands_printk hfits]
      intro c hc
      obtain ⟨byte, -, rfl⟩ := List.mem_map.mp hc
      trivial
  | outb | outbOr | call => exact absurd houtput id

theorem commandsOf_output {layout : Layout} {actions : List Action}
    (h : ∀ action ∈ actions, action.Prints layout) :
    ∀ c ∈ commandsOf layout actions, c.IsOutput := by
  intro c hc
  rw [commandsOf] at hc
  obtain ⟨action, haction, hmem⟩ := List.mem_flatMap.mp hc
  exact (h action haction).commands c hmem

theorem Command.IsOutput.protocol {c : Command} (h : c.IsOutput) (phase : Phase) :
    bootProtocol c phase = some phase := by
  cases c <;> first | exact absurd h id | cases phase <;> rfl

theorem leads_output {layout : Layout} {actions : List Action}
    (h : ∀ action ∈ actions, action.Prints layout) (phase : Phase) :
    (Program.ofList (commandsOf layout actions) : Program Command Word).Leads bootProtocol phase
      phase :=
  Program.leads_ofList fun c hc => (commandsOf_output h c hc).protocol phase

/-! ### What is printed -/

/-- The formats with numbers only, and how many they take. -/
def numberFormats : List (String × Nat) :=
  [("Starting Brunix... ", 0), ("-- This is build %u, %u --\n", 2),
    ("Kernel size: %d KB. Initial ESP: %x KB\n", 2),
    ("BSS section starts at %x and ends at %x. Total: %d KB\n\n", 3),
    ("  -> Mem lower: %u KB - Mem upper: %u MB\n", 2),
    ("  -> TODO (http://forum.osdev.org/viewtopic.php?f=1&t=10934&start=0) mmap_addr = 0x%x, mmap_length = 0x%x\n\n", 2),
    ("GDT...", 0), ("IRQs...", 0), ("Keyboard...", 0), ("VMM...", 0), ("Init paging...\n", 0),
    ("Total frames: %d\n", 1), ("page dir= %x --", 1), ("first table = %x --", 1),
    ("\nGenerating a page fault...", 0), ("LA LA LA\n", 0)]

def debugFormats : List (String × String × Nat) :=
  [("kmain", "Enabling interrupts...", 0), ("kmain", "Clock ticks: %u", 1),
    ("irq", "Registering IRQ handler number %d (%d), handler %x!...", 3),
    ("ISR", "Registering interrupt handler number %d, handler %x!", 2)]

theorem numberFormats_takesNumbers :
    ∀ format ∈ numberFormats, Action.takesNumbers (asciiBytes format.1) format.2 = true := by
  simp only [numberFormats, List.forall_mem_cons]
  refine ⟨?_, ?_, ?_, ?_, ?_, ?_, ?_, ?_, ?_, ?_, ?_, ?_, ?_, ?_, ?_, ?_, List.forall_mem_nil _⟩
  all_goals rw [asciiBytes_eq rfl]; decide +kernel

theorem debugFormats_takesNumbers :
    ∀ format ∈ debugFormats, Action.takesNumbers
      (asciiBytes ("[" ++ format.1 ++ "]: " ++ format.2.1 ++ "\n")) format.2.2 = true := by
  simp only [debugFormats, List.forall_mem_cons]
  refine ⟨?_, ?_, ?_, ?_, List.forall_mem_nil _⟩
  all_goals rw [asciiBytes_debug rfl rfl]; decide +kernel

section Prints

variable {layout : Layout}

theorem prints_numbers {fmt : String} {params : List Word}
    (h : (fmt, params.length) ∈ numberFormats) : (Action.printk fmt params).Prints layout := by
  have hformat := numberFormats_takesNumbers _ h
  dsimp only at hformat
  exact ⟨trivial, Action.fits_of_takesNumbers hformat rfl⟩

theorem prints_string {fmt : String} {param : Word} {chars : List Char}
    (hfmt : fmt = String.ofList chars) (hnonzero : 0 ∉ chars.map ch)
    (hconversions : conversions (chars.map ch) = [ch 's'])
    (hholds : ∃ bytes, (layout.strAt param).Holds bytes) :
    (Action.printk fmt [param]).Prints layout := by
  rw [← asciiBytes_eq hfmt] at hnonzero hconversions
  refine ⟨trivial, Action.fits_of_conversions hnonzero hconversions (Nat.le_refl 1)
    fun arg harg _ => ?_⟩
  obtain rfl := List.mem_singleton.mp harg
  exact hholds

theorem prints_setFgColor (colour : Byte) : (Action.setFgColor colour).Prints layout :=
  ⟨trivial, trivial⟩

theorem prints_debugLine {moduleName fmt : String} {params : List Word}
    (h : (moduleName, fmt, params.length) ∈ debugFormats) :
    (Action.printk ("[" ++ moduleName ++ "]: " ++ fmt ++ "\n") params).Prints layout := by
  have hformat := debugFormats_takesNumbers _ h
  dsimp only at hformat
  exact ⟨trivial, Action.fits_of_takesNumbers hformat rfl⟩

theorem prints_debug {moduleName fmt : String} {params : List Word}
    (h : (moduleName, fmt, params.length) ∈ debugFormats) :
    ∀ action ∈ debug moduleName fmt params, action.Prints layout :=
  fun action haction => ⟨debug_isOutput moduleName fmt params action haction,
    Action.debug_fits (prints_debugLine h).2 action haction⟩

structure BootInfo.HasStrings (layout : Layout) (info : BootInfo) : Prop where
  bootLoaderName : ∃ bytes, (layout.strAt info.bootLoaderName).Holds bytes
  cmdline : ∃ bytes, (layout.strAt info.cmdline).Holds bytes

theorem prints_contextInfo (symbols : Symbols) {info : BootInfo} (h : info.HasStrings layout) :
    ∀ action ∈ printKernelContextInfo symbols info ++ [.printk "GDT..." []],
      action.Prints layout := by
  simp only [printKernelContextInfo, List.forall_mem_append, List.forall_mem_cons, List.not_mem_nil,
    false_imp_iff, implies_true, and_true]
  refine ⟨⟨?_, ?_, ?_, ?_, ?_, ?_, ?_⟩, ?_⟩
  · exact prints_numbers (by simp [numberFormats])
  · exact prints_numbers (by simp [numberFormats])
  · exact prints_numbers (by simp [numberFormats])
  · exact prints_string rfl (by decide +kernel) (by decide +kernel) h.bootLoaderName
  · exact prints_string rfl (by decide +kernel) (by decide +kernel) h.cmdline
  · exact prints_numbers (by simp [numberFormats])
  · exact prints_numbers (by simp [numberFormats])
  · exact prints_numbers (by simp [numberFormats])

theorem prints_registerIrqReport (n : Byte) (handler : Word) :
    ∀ action ∈ registerIrqReport n handler, action.Prints layout :=
  prints_debug (by simp [debugFormats])

theorem prints_registerInterruptReport (n : Byte) (handler : Word) :
    ∀ action ∈ registerInterruptReport n handler, action.Prints layout :=
  prints_debug (by simp [debugFormats])

theorem prints_panicNoargs {msg file : String} (hfile : file ∈ passedTexts)
    (hnonzero : 0 ∉ asciiBytes msg) (hplain : ch '%' ∉ asciiBytes msg) (line : Word) :
    ∀ action ∈ panicNoargs layout.toLiterals msg file line, action.Prints layout := by
  intro action haction
  refine ⟨?_, panicNoargs_fits layout.toLiterals hfile hnonzero hplain line action haction⟩
  simp only [panicNoargs, List.mem_cons, List.not_mem_nil, or_false] at haction
  obtain rfl | rfl := haction
  · trivial
  · trivial

theorem prints_one {action : Action} (h : action.Prints layout) :
    ∀ a ∈ [action], a.Prints layout :=
  List.forall_mem_singleton.mpr h

theorem prints_clockTicks (ticks : Word) :
    ∀ action ∈ [Action.printk ("[" ++ "kmain" ++ "]: " ++ "Clock ticks: %u" ++ "\n") [ticks],
      .setFgColor colorWhite, .printk "Keyboard..." []], action.Prints layout := by
  simp only [List.forall_mem_cons, List.not_mem_nil, false_imp_iff, implies_true, and_true]
  exact ⟨prints_debugLine (by simp [debugFormats]), prints_setFgColor _,
    prints_numbers (by simp [numberFormats])⟩

theorem prints_paging (frames : Word) :
    ∀ action ∈ [Action.printk "VMM..." [], .printk "Init paging...\n" [],
      .printk "Total frames: %d\n" [frames]], action.Prints layout := by
  simp only [List.forall_mem_cons, List.not_mem_nil, false_imp_iff, implies_true, and_true]
  exact ⟨prints_numbers (by simp [numberFormats]), prints_numbers (by simp [numberFormats]),
    prints_numbers (by simp [numberFormats])⟩

end Prints

/-! ### The order of `kmain` -/

section Leads

variable {layout : Layout}

theorem bootProtocol_outb {port : BitVec 16} (hport : port = Pit.command ∨ port = Pit.channel0)
    (value : Byte) : bootProtocol (.outb port value) .timed = some .timed := by
  rw [bootProtocol, if_pos hport]

theorem leads_timerWrites (divisor : Word) :
    (Program.ofList (commandsOf layout (timerWrites divisor)) : Program Command Word).Leads bootProtocol
      .timed .timed := by
  refine Program.leads_ofList fun c hc => ?_
  simp only [timerWrites, commandsOf, Action.commands, List.flatMap_cons, List.flatMap_nil,
    List.cons_append, List.nil_append, List.mem_cons, List.not_mem_nil, or_false] at hc
  obtain rfl | rfl | rfl := hc
  · exact bootProtocol_outb (.inl rfl) _
  · exact bootProtocol_outb (.inr rfl) _
  · exact bootProtocol_outb (.inr rfl) _

theorem leads_timerInit {frequency divisor : Word} (hdivisor : timerDivisor frequency = some divisor) :
    (Program.ofList (timerInit layout frequency) : Program Command Word).Leads bootProtocol
      .serving .timed := by
  rw [timerInit, hdivisor]
  exact Program.leads_append .timed (Program.leads_append .serving
    (leads_output (prints_registerIrqReport 32 _) .serving) (Program.leads_single rfl))
    (leads_timerWrites divisor)

theorem leads_kbdInit :
    (Program.ofList (kbdInit layout) : Program Command Word).Leads bootProtocol .timed .ready := by
  rw [kbdInit]
  exact Program.leads_append .timed (leads_output (prints_registerIrqReport 33 _) .timed)
    (Program.leads_single rfl)

theorem prints_irqs : ∀ action ∈ [Action.printk "IRQs..." []], action.Prints layout :=
  prints_one (prints_numbers (by simp [numberFormats]))

theorem prints_enabling :
    ∀ action ∈ debug "kmain" "Enabling interrupts..." [], action.Prints layout :=
  prints_debug (by simp [debugFormats])

theorem leads_kmainSetup (symbols : Symbols) {info : BootInfo} (h : info.HasStrings layout) :
    (Program.ofList (kmainSetup layout symbols info) : Program Command Word).Leads bootProtocol
      .bare .timed := by
  have hdivisor : timerDivisor 100 = some 11931 := by decide
  rw [kmainSetup]
  refine Program.leads_append .timed (Program.leads_append .serving ?_ (leads_timerInit hdivisor))
    (leads_output (prints_one (prints_setFgColor _)) .timed)
  refine Program.leads_append .gated (Program.leads_append .gated ?_ (leads_output prints_enabling _))
    (Program.leads_single rfl)
  refine Program.leads_append .flat (Program.leads_append .flat ?_ (leads_output prints_irqs _))
    (Program.leads_single rfl)
  exact Program.leads_append .bare (leads_output (prints_contextInfo symbols h) .bare)
    (Program.leads_single rfl)

theorem leads_kmainRest (info : BootInfo) (ticks : Word) :
    (Program.ofList (kmainRest layout info ticks) : Program Command Word).Leads bootProtocol
      .timed .ready := by
  rw [kmainRest]
  exact Program.leads_append .ready (Program.leads_append .timed
    (leads_output (prints_clockTicks ticks) .timed) leads_kbdInit)
    (leads_output (prints_paging _) .ready)

theorem prints_starting : ∀ action ∈ [Action.printk "Starting Brunix... " []], action.Prints layout :=
  prints_one (prints_numbers (by simp [numberFormats]))

theorem invalidMagic_plain :
    ch '%' ∉ asciiBytes "Invalid magic number! A Multiboot compatible loader is needed..." := by
  rw [asciiBytes_eq rfl]
  decide +kernel

theorem prints_invalidMagic :
    ∀ action ∈ panicNoargs layout.toLiterals
      "Invalid magic number! A Multiboot compatible loader is needed..." "kernel/main.c" 48,
      action.Prints layout := by
  refine prints_panicNoargs (by decide) ?_ invalidMagic_plain 48
  rw [asciiBytes_eq rfl]
  decide +kernel

/-- The phase `kmain` comes to. -/
def BootInfo.lastPhase (info : BootInfo) : Phase :=
  if info.magic ≠ multibootHeaderMagic then .bare else .ready

theorem leads_kmain (symbols : Symbols) {info : BootInfo} (h : info.HasStrings layout) :
    (kmain layout symbols info).Leads bootProtocol .bare info.lastPhase := by
  rw [kmain, BootInfo.lastPhase]
  refine (leads_output prints_starting .bare).andThen ?_
  split
  · exact leads_output prints_invalidMagic .bare
  · exact (leads_kmainSetup symbols h).andThen ⟨.timed, rfl, leads_kmainRest info⟩

theorem prints_tables (directory table : Word) :
    ∀ action ∈ [Action.printk "page dir= %x --" [directory],
      .printk "first table = %x --" [table]], action.Prints layout := by
  simp only [List.forall_mem_cons, List.not_mem_nil, false_imp_iff, implies_true, and_true]
  exact ⟨prints_numbers (by simp [numberFormats]), prints_numbers (by simp [numberFormats])⟩

theorem prints_generating :
    ∀ action ∈ [Action.printk "\nGenerating a page fault..." []], action.Prints layout :=
  prints_one (prints_numbers (by simp [numberFormats]))

theorem prints_last : ∀ action ∈ [Action.printk "LA LA LA\n" []], action.Prints layout :=
  prints_one (prints_numbers (by simp [numberFormats]))

theorem leads_kmainPaging :
    (Program.ofList (kmainPaging layout) : Program Command Word).Leads bootProtocol .ready .paged := by
  have harmed : (Program.ofList [.setInterruptHandler 14 .pageFaultCallback, .turnPagingOn] :
      Program Command Word).Leads bootProtocol .filled .paged :=
    ⟨.armed, rfl, fun _ => ⟨.paged, rfl, fun _ => rfl⟩⟩
  rw [kmainPaging]
  refine Program.leads_append .paged (Program.leads_append .filled ?_ harmed)
    (leads_output prints_generating .paged)
  exact Program.leads_append .filled (Program.leads_append .filled (Program.leads_single rfl)
    (leads_output (prints_tables _ _) .filled)) (leads_output (prints_registerInterruptReport 14 _) .filled)

theorem leads_kmainEnd {cpu : Cpu} (hroom : cpu.HasRoom) :
    (kmainEnd layout cpu).Leads bootProtocol .ready .dead := by
  have hload : bootProtocol (.load 0x400000 cpu) .paged = some .dead :=
    if_pos ⟨by decide, hroom⟩
  exact (Program.leads_append .paged leads_kmainPaging (Program.leads_single hload)).andThen
    (leads_output prints_last .dead)

end Leads

/-! ### What may happen on the way -/

section Admits

variable {last phase : Phase} {program : Program Command Word}

/-- There is no way back from a fault. -/
theorem leads_dead (h : program.Leads bootProtocol .dead last) : last = .dead := by
  induction program with
  | done => exact Eq.symm h
  | command c next ih =>
      obtain ⟨phase', hprotocol, hnext⟩ := h
      obtain rfl : .dead = phase' := by cases c <;> exact Option.some.inj hprotocol
      exact ih 0 (hnext 0)

theorem bootProtocol_paged {c : Command} (h : bootProtocol c .paged = some phase) :
    phase = .paged ∨ phase = .dead := by
  cases bootStep_of_protocol h (by simp) with
  | putc | setFgColor | getClockTick => exact .inl rfl
  | load => exact .inr rfl

/-- And none from paging. -/
theorem leads_paged (h : program.Leads bootProtocol .paged last) : last = .paged ∨ last = .dead := by
  induction program with
  | done => exact .inl (Eq.symm h)
  | command c next ih =>
      obtain ⟨phase', hprotocol, hnext⟩ := h
      obtain rfl | rfl := bootProtocol_paged hprotocol
      · exact ih 0 (hnext 0)
      · exact .inr (leads_dead (hnext 0))

theorem leads_ne_dead (hlast : last ≠ .dead) (h : program.Leads bootProtocol phase last) :
    phase ≠ .dead := by
  rintro rfl
  exact hlast (leads_dead h)

/-- Before paging is on, an interrupt may find any stack. -/
theorem admits_unpaged (hpaged : last ≠ .paged) (hdead : last ≠ .dead) (item : Option Happening) :
    Admits Word bootProtocol Phase.Allows last item := by
  intro happening _ program phase hleads
  cases phase with
  | paged =>
      obtain hlast | hlast := leads_paged hleads
      · exact absurd hlast hpaged
      · exact absurd hlast hdead
  | bare | flat | gated | serving | timed | ready | filled | armed | dead => trivial

theorem BootInfo.lastPhase_ne (info : BootInfo) :
    info.lastPhase ≠ .paged ∧ info.lastPhase ≠ .dead := by
  rw [lastPhase]
  split <;> simp

theorem admits_kmain (info : BootInfo) (item : Option Happening) :
    Admits Word bootProtocol Phase.Allows info.lastPhase item :=
  admits_unpaged info.lastPhase_ne.1 info.lastPhase_ne.2 item

theorem admits_hasRoom {item : Option Happening}
    (h : ∀ happening, item = some happening → happening.HasRoom) :
    Admits Word bootProtocol Phase.Allows last item := by
  intro happening hitem program phase _
  cases phase with
  | paged => exact h happening hitem
  | bare | flat | gated | serving | timed | ready | filled | armed | dead => trivial

end Admits

end Brunix
