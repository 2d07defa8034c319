import Brunix.Kernel.Main

/-!
# Runs of `kmain`

`kmain` is run on the machine the boot loader leaves up to the frame bitmap, with interrupts wherever
they fall. The runs are those of the desk, which is where the results here are proved.
-/

namespace Brunix

open Basis

instance : Finite Word := Finite.of_injective BitVec.toFin fun _ _ => BitVec.eq_of_toFin_eq

/-- The machine when `video_init` has returned. -/
structure Machine.Booted (layout : Layout) (m : Machine) : Prop where
  kernel : ∃ ports, ports.Idle ∧ m.kernel = .boot ports
  vga : ∃ videoMemory crtc, m.vga = vgaInit (.boot videoMemory crtc)
  timerTicks : m.timerTicks = 0
  ifFlag : m.ifFlag = false
  halted : m.halted = false
  tables : StaticTables layout.pageDirectory layout.firstPageTable m.mem
  paging : m.cr0 &&& pagingFlag = 0

def Desk.boot (scancode : Byte) : Desk where
  terminal := .empty colorBlack colorWhite
  ticks := 0
  scancode := scancode
  irqHandlers := fun _ => none
  interruptHandlers := fun _ => none
  interrupts := false
  halted := false

/-! ### A machine to boot -/

def sampleCallback : Callback → Word
  | .timerCallback => 0x00101000
  | .kbdCallback => 0x00102000
  | .pageFaultCallback => 0x00103000

def sampleLayout : Layout where
  toLiterals := sampleLiterals
  toImage := sampleImage
  link := returning
  callback := sampleCallback
  callback_ne_zero := by rintro (_ | _ | _) <;> decide
  callback_injective := by rintro (_ | _ | _) (_ | _ | _) h <;> first | rfl | exact absurd h (by decide)
  gdt := 0x00111000
  pageDirectory := 0x00104000
  firstPageTable := 0x00105000

/-- What a loader passes, with strings at no particular address. -/
def sampleInfo : BootInfo where
  magic := multibootHeaderMagic
  initialStack := 0x00108000
  memLower := 639
  memUpper := 130048
  cmdline := 0
  mmapLength := 144
  mmapAddr := 0x0002D008
  bootLoaderName := 0

def sampleSymbols : Symbols := ⟨0x00100000, 0x0010C000, 0x00106000, 0x0010C000, 20161130, 121500⟩

def sampleMachine : Machine where
  kernel := .boot samplePorts
  vga := vgaInit (.boot (fun _ => 0x0720) ⟨0, fun _ => 0⟩)
  pit := ⟨3, 3, false, none, 0⟩
  timerTicks := 0
  scancode := 0xFA
  gdt := fun _ => 0
  segments := ⟨⟨0, 0⟩, 0x10, 0x18, 0x18, 0x18, 0x18, 0x18⟩
  cr0 := 0x11
  cr2 := 0
  cr3 := 0
  mem := fun _ => 0
  ifFlag := false
  halted := false

theorem sampleMachine_booted : sampleMachine.Booted sampleLayout where
  kernel := ⟨samplePorts, ⟨rfl, rfl⟩, rfl⟩
  vga := ⟨_, _, rfl⟩
  timerTicks := rfl
  ifFlag := rfl
  halted := rfl
  tables := ⟨rfl, rfl, by decide, fun _ _ => load_zero _, fun _ _ => load_zero _⟩
  paging := rfl

theorem sampleInfo_hasStrings : sampleInfo.HasStrings sampleLayout := by
  have hempty : (sampleStrAt 0).Holds [] := by
    have hfind : (passedTexts.find? fun text => sampleAddress text = 0).getD "" = "" := by
      decide +kernel
    rw [sampleStrAt, hfind]
    exact ⟨List.forall_mem_nil _, [], rfl⟩
  exact ⟨⟨[], hempty⟩, ⟨[], hempty⟩⟩

section Runs

variable {layout : Layout} {phase last : Phase} {m : Machine} {d : Desk}

theorem Machine.Booted.agreement (h : m.Booted layout) :
    Agreement layout .bare m (.boot m.scancode) := by
  obtain ⟨videoMemory, crtc, hvga⟩ := h.vga
  refine ⟨⟨?_, h.timerTicks, rfl⟩, h.ifFlag, h.halted, ⟨rfl, rfl, rfl, rfl⟩, h.kernel, h.tables,
    h.paging⟩
  rw [hvga]
  exact displays_vgaInit videoMemory crtc

theorem Agreement.running (h : Agreement layout phase m d) (hphase : phase ≠ .dead) :
    d.halted = false := by
  rw [h.fixes.halted]
  cases phase <;> first | rfl | exact absurd rfl hphase

theorem exists_kmain_done (symbols : Symbols) {info : BootInfo} (hinfo : info.HasStrings layout)
    (hbooted : m.Booted layout) :
    ∃ bound, ∀ schedule, bound ≤ turns schedule →
      ((desk layout).run schedule (kmain layout symbols info) (.boot m.scancode)).1 = .done := by
  obtain ⟨bound, hbound⟩ := (kmain layout symbols info).exists_within
  exact ⟨bound, fun schedule hturns => (machine_refines_desk layout).run_done
    (fun hleads h => h.running (leads_ne_dead info.lastPhase_ne.2 hleads))
    (fun item _ => admits_kmain info item) (leads_kmain symbols hinfo) hbooted.agreement hbound hturns⟩

/-- Wherever interrupts and keys fall, no run of `kmain` comes to what is undefined, and the machine is
as the desk says all along. After enough turns `kmain` has come to the frame bitmap, or to the end of
a panic, and the machine is set up. -/
theorem kmain_boots (symbols : Symbols) {info : BootInfo} (hinfo : info.HasStrings layout)
    (hbooted : m.Booted layout) :
    ∃ bound, ∀ schedule,
      let final := (desk layout).run schedule (kmain layout symbols info) (.boot m.scancode)
      ∃ m' phase, (machine layout).run schedule (kmain layout symbols info) m = some (final.1, m')
        ∧ Agreement layout phase m' final.2
        ∧ (bound ≤ turns schedule → final.1 = .done ∧ phase = info.lastPhase) := by
  obtain ⟨bound, hbound⟩ := exists_kmain_done symbols hinfo hbooted
  refine ⟨bound, fun schedule => ?_⟩
  obtain ⟨m', hrun, phase, hleads, hagreement⟩ :=
    (machine_refines_desk layout).run (leads_kmain symbols hinfo) hbooted.agreement schedule
      fun item _ => admits_kmain info item
  refine ⟨m', phase, hrun, hagreement, fun hturns => ?_⟩
  have hdone := hbound schedule hturns
  rw [hdone] at hleads
  exact ⟨hdone, hleads⟩

theorem kmain_boots_sample :
    ∃ bound, ∀ schedule,
      let final := (desk sampleLayout).run schedule (kmain sampleLayout sampleSymbols sampleInfo)
        (.boot 0xFA)
      ∃ m' phase, (machine sampleLayout).run schedule (kmain sampleLayout sampleSymbols sampleInfo)
          sampleMachine = some (final.1, m')
        ∧ Agreement sampleLayout phase m' final.2
        ∧ (bound ≤ turns schedule → final.1 = .done ∧ phase = sampleInfo.lastPhase) :=
  kmain_boots sampleSymbols sampleInfo_hasStrings sampleMachine_booted

/-! ### A machine that was not booted by a multiboot loader -/

/-- What a command that prints does to the terminal. -/
def Command.onTerminal (t : Terminal) : Command → Terminal
  | .putc c => t.putc c
  | .setFgColor colour => t.setForegroundColor colour
  | _ => t

theorem Desk.exec_output (layout : Layout) {c : Command} (h : c.IsOutput) (d : Desk) :
    (d.exec layout c).1 = { d with terminal := c.onTerminal d.terminal } := by
  cases c with
  | putc | setFgColor => rfl
  | _ => exact absurd h id

def invalidMagicText : String :=
  "Kernel panic: Invalid magic number! A Multiboot compatible loader is needed... (kernel/main.c:48)"

/-- The characters of the start and of the panic. -/
def invalidMagicCommands : List Command :=
  (asciiBytes "Starting Brunix... ").map .putc
    ++ .setFgColor colorRed :: (asciiBytes invalidMagicText).map .putc

theorem commandsOf_starting :
    commandsOf layout [.printk "Starting Brunix... " []]
      = (asciiBytes "Starting Brunix... ").map .putc := by
  have hplain : ch '%' ∉ asciiBytes "Starting Brunix... " := by
    rw [asciiBytes_eq rfl]
    decide
  rw [commandsOf, List.flatMap_singleton, commands_printk (prints_starting _ List.mem_cons_self).2,
    expand_plain _ hplain]

theorem commandsOf_invalidMagic :
    commandsOf layout (panicNoargs layout.toLiterals
        "Invalid magic number! A Multiboot compatible loader is needed..." "kernel/main.c" 48)
      = .setFgColor colorRed :: (asciiBytes invalidMagicText).map .putc := by
  have htext : asciiBytes ("Kernel panic: "
        ++ "Invalid magic number! A Multiboot compatible loader is needed..." ++ " (" ++ "kernel/main.c"
        ++ ":") ++ numberText 10 48 ++ asciiBytes ")" = asciiBytes invalidMagicText := by
    decide +kernel
  rw [commandsOf, panicNoargs, List.flatMap_cons, List.flatMap_singleton,
    commands_printk (prints_invalidMagic _ (List.mem_cons_of_mem _ List.mem_cons_self)).2,
    expand_panic layout.toLiterals (by decide) invalidMagic_plain, htext]
  rfl

theorem kmain_invalidMagic_eq (symbols : Symbols) {info : BootInfo}
    (hmagic : info.magic ≠ multibootHeaderMagic) :
    kmain layout symbols info = Program.ofList invalidMagicCommands := by
  rw [kmain, if_pos hmagic, commandsOf_starting, commandsOf_invalidMagic, ← Program.ofList_append,
    invalidMagicCommands]

theorem length_invalidMagicCommands : invalidMagicCommands.length = 117 := by
  rw [invalidMagicCommands, List.length_append, List.length_cons, List.length_map, List.length_map]
  decide +kernel

theorem invalidMagicCommands_output : ∀ c ∈ invalidMagicCommands, c.IsOutput := by
  intro c hc
  rw [invalidMagicCommands, List.mem_append, List.mem_cons] at hc
  obtain hstart | rfl | hpanic := hc
  · obtain ⟨byte, -, rfl⟩ := List.mem_map.mp hstart
    trivial
  · trivial
  · obtain ⟨byte, -, rfl⟩ := List.mem_map.mp hpanic
    trivial

/-- The desk after some output, with interrupts still off. -/
def Desk.AfterOutput (past : List Command) (d : Desk) : Prop :=
  d.terminal = past.foldl Command.onTerminal (.empty colorBlack colorWhite) ∧ d.interrupts = false
    ∧ d.halted = false

theorem Desk.AfterOutput.event {past : List Command} (h : d.AfterOutput past) (happening : Happening) :
    (d.event layout happening).AfterOutput past := by
  cases happening with
  | scancode value => exact h
  | request request cpu =>
      rw [Desk.event, h.2.1]
      exact h

theorem Desk.AfterOutput.exec {past : List Command} (h : d.AfterOutput past) {c : Command}
    (hc : c.IsOutput) : (d.exec layout c).1.AfterOutput (past ++ [c]) := by
  obtain ⟨hterminal, hinterrupts, hhalted⟩ := h
  rw [Desk.exec_output layout hc]
  refine ⟨?_, hinterrupts, hhalted⟩
  rw [List.foldl_append, ← hterminal]
  rfl

/-- Only output is left, and but for the screen and the byte the keyboard holds, the machine is as it
was. -/
def OnlyPrints (m : Machine) (run : Program Command Word × Machine) : Prop :=
  (∃ cs, (∀ c ∈ cs, c.IsOutput) ∧ run.1 = Program.ofList cs)
    ∧ ∃ vga scancode, run.2 = { m with vga := vga, scancode := scancode }

theorem OnlyPrints.step (hif : m.ifFlag = false) {run next : Program Command Word × Machine}
    {item : Option Happening} (h : OnlyPrints m run)
    (hstep : (machine layout).step run item = some next) : OnlyPrints m next := by
  obtain ⟨program, m'⟩ := run
  obtain ⟨⟨cs, hcs, rfl⟩, vga, scancode, rfl⟩ := h
  cases item with
  | some happening =>
      cases happening with
      | scancode value =>
          obtain rfl := Option.some.inj hstep
          exact ⟨⟨cs, hcs, rfl⟩, vga, value, rfl⟩
      | request request cpu =>
          -- with the flag clear it stays with the controllers
          have hevent : ({ m with vga := vga, scancode := scancode } : Machine).event layout
              (.request request cpu) = some { m with vga := vga, scancode := scancode } := by
            rw [Machine.event, hif]
            rfl
          change (Machine.event layout (.request request cpu) _).map _ = _ at hstep
          rw [hevent] at hstep
          obtain rfl := Option.some.inj hstep
          exact ⟨⟨cs, hcs, rfl⟩, vga, scancode, rfl⟩
  | none =>
      cases cs with
      | nil =>
          obtain rfl := Option.some.inj hstep
          exact ⟨⟨[], hcs, rfl⟩, vga, scancode, rfl⟩
      | cons c cs =>
          obtain ⟨hc, hcs'⟩ := List.forall_mem_cons.mp hcs
          obtain ⟨vga', hexec⟩ : ∃ vga', (machine layout).exec c
              { m with vga := vga, scancode := scancode }
                = some ({ m with vga := vga', scancode := scancode }, 0) := by
            cases c with
            | putc | setFgColor => exact ⟨_, rfl⟩
            | _ => exact absurd hc id
          rw [System.step, Program.ofList] at hstep
          dsimp only at hstep
          rw [hexec] at hstep
          split at hstep
          · obtain rfl := Option.some.inj hstep
            exact ⟨⟨c :: cs, hcs, rfl⟩, vga, scancode, rfl⟩
          · obtain rfl := Option.some.inj hstep
            exact ⟨⟨cs, hcs', rfl⟩, vga', scancode, rfl⟩

/-- Whatever interrupts are raised, none is served. After its turns the kernel is done, with the panic
in red on the screen, and of the rest of the machine only the byte the keyboard holds may be another. -/
theorem kmain_invalidMagic (symbols : Symbols) {info : BootInfo}
    (hmagic : info.magic ≠ multibootHeaderMagic) (hbooted : m.Booted layout)
    (schedule : List (Option Happening)) (hturns : 117 ≤ turns schedule) :
    ∃ vga scancode, (machine layout).run schedule (kmain layout symbols info) m
        = some (.done, { m with vga := vga, scancode := scancode })
      ∧ Displays vga ((asciiBytes invalidMagicText).foldl Terminal.putc
        (((asciiBytes "Starting Brunix... ").foldl Terminal.putc
          (.empty colorBlack colorWhite)).setForegroundColor colorRed)) := by
  have hcs := invalidMagicCommands_output
  have hleads : (Program.ofList invalidMagicCommands : Program Command Word).Leads bootProtocol
      .bare .bare := Program.leads_ofList fun c hc => (hcs c hc).protocol .bare
  obtain ⟨hprogram, hterminal, -, -⟩ :=
    (desk layout).run_ofList .done Desk.AfterOutput (fun past t e h => h.event e)
      (fun past c left t hsplit h => ⟨h.2.2, h.exec (hcs c (by simp [hsplit]))⟩)
      (fun _ _ => .inl rfl) schedule (List.nil_append invalidMagicCommands).symm
      (show (Desk.boot m.scancode).AfterOutput [] from ⟨rfl, rfl, rfl⟩)
  obtain ⟨m', hrun, phase, -, hagreement⟩ := (machine_refines_desk layout).run hleads
    hbooted.agreement schedule fun item _ => admits_unpaged (by simp) (by simp) item
  have hlength := length_invalidMagicCommands
  rw [List.nil_append, List.take_of_length_le (by omega)] at hterminal
  rw [Program.andThen_done] at hprogram hterminal
  rw [List.drop_of_length_le (by omega), Program.andThen_done] at hprogram
  rw [hprogram] at hrun
  obtain ⟨-, vga, scancode, rfl⟩ := foldlM_invariant (OnlyPrints m)
    (fun item run next h hstep => h.step hbooted.ifFlag hstep) schedule
    (show OnlyPrints m (Program.ofList invalidMagicCommands, m) from
      ⟨⟨_, hcs, rfl⟩, m.vga, m.scancode, rfl⟩) hrun
  rw [kmain_invalidMagic_eq symbols hmagic]
  refine ⟨vga, scancode, hrun, ?_⟩
  have hdisplays := hagreement.displays
  rw [hterminal, invalidMagicCommands, List.foldl_append, List.foldl_cons, List.foldl_map,
    List.foldl_map] at hdisplays
  exact hdisplays

/-- A loader of another kind, and a request after every turn. -/
theorem kmain_invalidMagic_sample :
    let info := { sampleInfo with magic := 0 }
    let schedule := (List.replicate 117 [none, some (.request (.slave 4) program)]).flatten
    ∃ vga scancode, (machine sampleLayout).run schedule (kmain sampleLayout sampleSymbols info)
        sampleMachine = some (.done, { sampleMachine with vga := vga, scancode := scancode })
      ∧ Displays vga ((asciiBytes invalidMagicText).foldl Terminal.putc
        (((asciiBytes "Starting Brunix... ").foldl Terminal.putc
          (.empty colorBlack colorWhite)).setForegroundColor colorRed)) := by
  intro info schedule
  have hmagic : info.magic ≠ multibootHeaderMagic := by decide
  have hturns : 117 ≤ turns schedule := by decide +kernel
  exact kmain_invalidMagic sampleSymbols hmagic sampleMachine_booted schedule hturns

/-! ### The clock -/

def isClockRequest : Option Happening → Bool
  | some (.request request _) => request.irq == 0
  | _ => false

/-- Requests are served, and the timer has its handler. -/
def Phase.ClockRuns (phase : Phase) : Prop :=
  phase.interrupts = true ∧ phase.irqHandlers 32 = some .timerCallback

theorem Phase.ClockRuns.timer_iff (h : phase.ClockRuns) (n : Byte) :
    phase.irqHandlers n = some .timerCallback ↔ n = 32 := by
  have hready : ∀ n, Phase.ready.irqHandlers n = some .timerCallback ↔ n = 32 := by
    decide +kernel
  have htimed : ∀ n, Phase.timed.irqHandlers n = some .timerCallback ↔ n = 32 := by
    decide +kernel
  cases phase with
  | timed => exact htimed n
  | ready | filled | armed | paged => exact hready n
  | bare | flat | gated | dead => cases h.1
  | serving => cases h.2

/-- Only a fault stops the clock. -/
theorem Phase.ClockRuns.protocol (h : phase.ClockRuns) {c : Command} {phase' : Phase}
    (hprotocol : bootProtocol c phase = some phase') (hphase' : phase' ≠ .dead) : phase'.ClockRuns := by
  have halive : phase ≠ .dead := by
    rintro rfl
    cases h.1
  cases bootStep_of_protocol hprotocol halive with
  | putc | setFgColor | getClockTick | pit => exact h
  | timer | keyboard | fillTables | pageFault | turnPagingOn => exact ⟨rfl, rfl⟩
  | gdtInit | irqInit | sti => cases h.1
  | load => exact absurd rfl hphase'

theorem Desk.report_fields (layout : Layout) (irq : Nat) (d : Desk) :
    (d.report layout irq).irqHandlers = d.irqHandlers ∧ (d.report layout irq).ticks = d.ticks := by
  rw [report]
  split
  · exact ⟨rfl, rfl⟩
  · obtain ⟨terminal, hprint⟩ :=
      d.print_eq layout (debug "isr" "Calling isr_handler() for IRQ %d!" [BitVec.ofNat 32 irq])
    rw [hprint]
    exact ⟨rfl, rfl⟩

theorem ofNat_vector {irq : Nat} (hirq : irq < 16) : BitVec.ofNat 8 (32 + irq) = 32 ↔ irq = 0 := by
  rw [← BitVec.toNat_inj, BitVec.toNat_ofNat, Nat.mod_eq_of_lt (by omega)]
  exact Nat.add_eq_left

theorem Desk.serve_ticks (layout : Layout) {irq : Nat} (hirq : irq < 16)
    (hclock : ∀ n, d.irqHandlers n = some .timerCallback ↔ n = 32) :
    (d.serve layout irq).ticks = d.ticks + if irq = 0 then 1 else 0 := by
  obtain ⟨hsame, hticks⟩ := d.report_fields layout irq
  rw [serve, ← hticks]
  generalize d.report layout irq = reported at hsame
  have hknown := hclock (BitVec.ofNat 8 (32 + irq))
  rw [← hsame, ofNat_vector hirq] at hknown
  cases hhandler : reported.irqHandlers (BitVec.ofNat 8 (32 + irq)) with
  | none =>
      have hne : irq ≠ 0 := fun h => by simp [hknown.mpr h] at hhandler
      rw [dispatch_none hhandler, if_neg hne, Nat.add_zero]
  | some handler =>
      rw [dispatch_some hhandler]
      cases handler with
      | timerCallback =>
          rw [if_pos (hknown.mp hhandler)]
          rfl
      | kbdCallback =>
          have hne : irq ≠ 0 := fun h => by simp [hknown.mpr h] at hhandler
          rw [if_neg hne]
          rfl
      | pageFaultCallback =>
          have hne : irq ≠ 0 := fun h => by simp [hknown.mpr h] at hhandler
          rw [if_neg hne]
          rfl

theorem Agreement.event_ticks (h : Agreement layout phase m d) (hclock : phase.ClockRuns)
    (happening : Happening) :
    (d.event layout happening).ticks
      = d.ticks + if isClockRequest (some happening) then 1 else 0 := by
  cases happening with
  | scancode value => rfl
  | request request cpu =>
      have htimer (n : Byte) : d.irqHandlers n = some .timerCallback ↔ n = 32 := by
        rw [h.fixes.irqHandlers]
        exact hclock.timer_iff n
      rw [Desk.event, if_pos (h.fixes.interrupts.trans hclock.1),
        Desk.serve_ticks layout request.irq_lt htimer]
      simp [isClockRequest]

theorem Desk.exec_ticks (layout : Layout) (c : Command) (d : Desk) :
    (d.exec layout c).1.ticks = d.ticks := by
  cases c with
  | irqInit =>
      obtain ⟨terminal, hprint⟩ := d.print_eq layout (debug "irq" "Remapping PIC..." [])
      rw [exec, hprint]
  | load a cpu =>
      obtain ⟨terminal, hfault⟩ :=
        d.fault_eq layout a (AccessKind.supervisorRead.errorCode false) cpu
      rw [exec, hfault]
  | _ => rfl

/-- Whatever else happens, every request of the timer counts once. -/
theorem Agreement.run_ticks (hlast : last ≠ .dead) (schedule : List (Option Happening))
    (hadmits : ∀ item ∈ schedule, Admits Word bootProtocol Phase.Allows last item)
    {program : Program Command Word} (hleads : program.Leads bootProtocol phase last)
    (h : Agreement layout phase m d) (hclock : phase.ClockRuns) :
    ((desk layout).run schedule program d).2.ticks = d.ticks + schedule.countP isClockRequest := by
  induction schedule generalizing program phase m d with
  | nil => rfl
  | cons item schedule ih =>
      have hitem := hadmits item List.mem_cons_self
      have hlater (item : Option Happening) (hmem : item ∈ schedule) :=
        hadmits item (List.mem_cons_of_mem _ hmem)
      cases item with
      | some happening =>
          obtain ⟨m', -, hnext⟩ := h.event (hitem happening rfl program phase hleads)
          rw [List.countP_cons, Nat.add_comm (schedule.countP isClockRequest), ← Nat.add_assoc,
            ← h.event_ticks hclock happening]
          exact ih hlater hleads hnext hclock
      | none =>
          rw [List.countP_cons_of_neg (by decide)]
          cases program with
          | done => exact ih hlater hleads h hclock
          | command c next =>
              have hrunning := h.running (leads_ne_dead hlast hleads)
              obtain ⟨phase', hprotocol, hnext⟩ := hleads
              obtain ⟨m', -, hagreement⟩ := h.exec c hprotocol hrunning
              have hstep : (desk layout).step (Program.command c next, d) none
                  = (next (d.exec layout c).2, (d.exec layout c).1) :=
                if_neg (by rw [show (desk layout).stopped d = false from hrunning]; decide)
              change (schedule.foldl (desk layout).step
                ((desk layout).step (Program.command c next, d) none)).2.ticks = _
              rw [hstep, ← d.exec_ticks layout c]
              exact ih hlater (hnext _) hagreement (hclock.protocol hprotocol (leads_ne_dead hlast (hnext 0)))

theorem Agreement.clockRuns (h : Agreement layout phase m d)
    (hhandler : m.kernel.irqHandlers 32 = layout.callback .timerCallback) (hif : m.ifFlag = true) :
    phase.ClockRuns := by
  have hinterrupts : phase.interrupts = true :=
    h.fixes.interrupts.symm.trans (h.interrupts.symm.trans hif)
  have hregistered := (h.setup.up hinterrupts).irqHandlers 32
  rw [h.fixes.irqHandlers] at hregistered
  refine ⟨hinterrupts, ?_⟩
  cases hknown : phase.irqHandlers 32 with
  | none =>
      rw [hknown, Option.elim_none, hhandler] at hregistered
      exact absurd hregistered (layout.callback_ne_zero _)
  | some handler =>
      rw [hknown, Option.elim_some, hhandler] at hregistered
      rw [layout.callback_injective hregistered]

/-- In any run of `kmain` up to the frame bitmap, from the moment the timer's handler is in its table
and interrupts are on, the clock counts every request of the timer, wherever it falls. -/
theorem kmain_ticks (symbols : Symbols) {info : BootInfo} (hinfo : info.HasStrings layout)
    (hbooted : m.Booted layout) {before after : List (Option Happening)}
    {program program' : Program Command Word} {m₁ m₂ : Machine}
    (hbefore : (machine layout).run before (kmain layout symbols info) m = some (program, m₁))
    (hafter : (machine layout).run after program m₁ = some (program', m₂))
    (hhandler : m₁.kernel.irqHandlers 32 = layout.callback .timerCallback) (hif : m₁.ifFlag = true) :
    m₂.timerTicks = m₁.timerTicks + BitVec.ofNat 64 (after.countP isClockRequest) := by
  obtain ⟨m₁', hrun, phase, hleads, h₁⟩ := (machine_refines_desk layout).run
    (leads_kmain symbols hinfo) hbooted.agreement before fun item _ => admits_kmain info item
  generalize (desk layout).run before (kmain layout symbols info) (.boot m.scancode) = reached
    at hrun hleads h₁
  obtain ⟨rfl, rfl⟩ := Prod.mk.inj (Option.some.inj (hbefore.symm.trans hrun))
  obtain ⟨m₂', hrun', phase', -, h₂⟩ := (machine_refines_desk layout).run hleads h₁ after
    fun item _ => admits_kmain info item
  obtain ⟨-, rfl⟩ := Prod.mk.inj (Option.some.inj (hafter.symm.trans hrun'))
  have hticks := h₁.run_ticks info.lastPhase_ne.2 after (fun item _ => admits_kmain info item) hleads
    (h₁.clockRuns hhandler hif)
  rw [h₂.ticks, h₁.ticks, hticks, BitVec.ofNat_add]

/-- A machine that has been booted without an interruption. -/
theorem exists_ready (symbols : Symbols) {info : BootInfo} (hinfo : info.HasStrings layout)
    (hmagic : info.magic = multibootHeaderMagic) (hbooted : m.Booted layout) :
    ∃ schedule m' d', (machine layout).run schedule (kmain layout symbols info) m = some (.done, m')
      ∧ Agreement layout .ready m' d' := by
  obtain ⟨bound, hbound⟩ := exists_kmain_done symbols hinfo hbooted
  have hturns : turns (List.replicate bound (none : Option Happening)) = bound := by
    simp [turns, List.countP_replicate]
  obtain ⟨m', hrun, phase, hleads, hagreement⟩ := (machine_refines_desk layout).run
    (leads_kmain symbols hinfo) hbooted.agreement (List.replicate bound none) fun item _ => admits_kmain info item
  rw [hbound _ hturns.ge] at hrun hleads
  obtain rfl : phase = .ready := hleads.trans (if_neg (not_not_intro hmagic))
  exact ⟨_, m', _, hrun, hagreement⟩

end Runs

theorem kmain_ticks_sample :
    ∃ before m₁ m₂ program',
      (machine sampleLayout).run before (kmain sampleLayout sampleSymbols sampleInfo) sampleMachine
          = some (.done, m₁)
      ∧ (machine sampleLayout).run [some (.request (.master 0 (by decide)) program)] .done m₁
          = some (program', m₂)
      ∧ m₂.timerTicks = m₁.timerTicks + 1 := by
  obtain ⟨before, m₁, d, hbefore, hready⟩ :=
    exists_ready sampleSymbols sampleInfo_hasStrings rfl sampleMachine_booted
  obtain ⟨m₂, hafter, -⟩ := (machine_refines_desk sampleLayout).run
    (show (Program.done : Program Command Word).Leads bootProtocol .ready .ready from rfl) hready
    [some (.request (.master 0 (by decide)) program)]
    fun item _ => admits_unpaged (by simp) (by simp) item
  have hif : m₁.ifFlag = true := hready.interrupts.trans hready.fixes.interrupts
  have hhandler : m₁.kernel.irqHandlers 32 = sampleLayout.callback .timerCallback := by
    have hup : m₁.Up sampleLayout d := hready.setup
    rw [hup.irqHandlers 32, hready.fixes.irqHandlers]
    rfl
  exact ⟨before, m₁, m₂, _, hbefore, hafter, kmain_ticks sampleSymbols sampleInfo_hasStrings
    sampleMachine_booted hbefore hafter hhandler hif⟩

end Brunix
