import Brunix.Kernel.Boot

/-!
# The end of `kmain`

With paging on, the load from the first address that is not mapped is reported, and the machine halts.
-/

namespace Brunix

open Basis Memory

/-- The record of the handler describes the instruction that faulted. Its stack pointer is the one
`pusha` found, five words below that of the program. -/
theorem faultRegisters_describes (layout : Layout) (err : Word) (cpu : Cpu) :
    Describes 14 err cpu (Desk.faultRegisters layout err cpu)
      ∧ (Desk.faultRegisters layout err cpu).esp = cpu.esp - 20 := by
  obtain ⟨hstack, hsame⟩ := interrupt_spec 14 err 0x08 (layout.stub (.isr 14)) cpu
  obtain ⟨t, hsame', hbottom, hcall⟩ := callEntry_stack layout.link (.isrErrCode 14) hstack
    (interruptWords_length 14 err cpu)
  refine ⟨describes_of_stack (hsame.trans hsame') hcall, ?_⟩
  have hesp : (Desk.faultRegisters layout err cpu).esp = t.esp :=
    (words_cons.mp hcall.words).2 4 _ rfl
  have hfive : slot t.esp 5 = cpu.esp := hbottom
  rw [hesp, ← hfive, slot]
  bv_omega

/-- What is printed when the load has faulted. -/
def faultReport (layout : Layout) (regs : Registers) : List Action :=
  .printk "Calling isr_handler()!\n" [] :: pageFaultCallback layout.toLiterals 0x400000 regs

theorem faultReport_text (layout : Layout) (regs : Registers) :
    (faultReport layout regs).flatMap (Action.text layout.strAt)
      = asciiBytes "Calling isr_handler()!\n" ++ (faultLine 0x400000 regs.errCode
        ++ infoLine layout.strAt regs
        ++ asciiBytes "Kernel panic: halting... (arch/x86/kernel/memory.c:48)") := by
  have hcalling : ch '%' ∉ asciiBytes "Calling isr_handler()!\n" := by decide +kernel
  have hmsg : ch '%' ∉ asciiBytes "halting..." := by decide
  have hpanic : asciiBytes ("Kernel panic: " ++ "halting..." ++ " (" ++ "arch/x86/kernel/memory.c" ++ ":")
      ++ numberText 10 48 ++ asciiBytes ")"
        = asciiBytes "Kernel panic: halting... (arch/x86/kernel/memory.c:48)" := by
    decide +kernel
  have htext : (panicNoargs layout.toLiterals "halting..." "arch/x86/kernel/memory.c" 48).flatMap
      (Action.text layout.strAt)
        = asciiBytes "Kernel panic: halting... (arch/x86/kernel/memory.c:48)" := by
    simp only [panicNoargs, List.flatMap_cons, List.flatMap_nil, Action.text, List.nil_append,
      List.append_nil]
    rw [expand_panic layout.toLiterals (by decide) hmsg, hpanic]
  rw [faultReport, List.flatMap_cons, pageFaultCallback, List.flatMap_append, htext,
    printPageFault_text layout.toLiterals 0x400000 regs, Action.text, expand_plain _ hcalling]

section Runs

variable {layout : Layout} {m : Machine} {d : Desk}

/-- Nothing but a key reaches a machine that has halted with interrupts off. -/
theorem run_halted (schedule : List (Option Happening)) (program : Program Command Word)
    (hhalted : m.halted = true) (hif : m.ifFlag = false) :
    ∃ scancode, (machine layout).run schedule program m
      = some (program, { m with scancode := scancode }) := by
  induction schedule generalizing m with
  | nil => exact ⟨m.scancode, rfl⟩
  | cons item schedule ih =>
      have hstep : ∃ scancode, (machine layout).step (program, m) item
          = some (program, { m with scancode := scancode }) := by
        cases item with
        | none =>
            refine ⟨m.scancode, ?_⟩
            cases program with
            | done => rfl
            | command c next => exact if_pos hhalted
        | some happening =>
            cases happening with
            | scancode value => exact ⟨value, rfl⟩
            | request request cpu =>
                refine ⟨m.scancode, ?_⟩
                have hevent : m.event layout (.request request cpu) = some m := by
                  rw [Machine.event, hif]
                  rfl
                change (m.event layout (.request request cpu)).map (fun m => (program, m)) = _
                rw [hevent]
                rfl
      obtain ⟨scancode, hstep⟩ := hstep
      obtain ⟨scancode', hrun⟩ := @ih { m with scancode := scancode } hhalted hif
      refine ⟨scancode', ?_⟩
      change ((machine layout).step (program, m) item).bind
        (fun next => schedule.foldlM (machine layout).step next) = _
      rw [hstep]
      exact hrun

def Command.IsPaging : Command → Prop
  | .putc _ | .setFgColor _ | .fillTables | .setInterruptHandler _ _ | .turnPagingOn => True
  | _ => False

theorem Desk.exec_paging (layout : Layout) {c : Command} (hc : c.IsPaging) (d : Desk) :
    ∃ handlers, (d.exec layout c).1
      = { d with terminal := c.onTerminal d.terminal, interruptHandlers := handlers } := by
  cases c with
  | putc | setFgColor | fillTables | setInterruptHandler | turnPagingOn => exact ⟨_, rfl⟩
  | _ => exact absurd hc id

theorem Desk.event_halted (layout : Layout) (happening : Happening) (d : Desk) :
    (d.event layout happening).halted = d.halted := by
  cases happening with
  | scancode value => rfl
  | request request cpu =>
      obtain ⟨terminal, ticks, hserve⟩ := d.serve_eq layout request.irq
      rw [event]
      split
      · rw [hserve]
      · rfl

theorem kmainPaging_isPaging : ∀ c ∈ kmainPaging layout, c.IsPaging := by
  have houtput {actions : List Action} (h : ∀ action ∈ actions, action.Prints layout) :
      ∀ c ∈ commandsOf layout actions, c.IsPaging := by
    intro c hc
    have := commandsOf_output h c hc
    cases c <;> trivial
  simp only [kmainPaging, List.forall_mem_append, List.forall_mem_cons, List.not_mem_nil,
    false_imp_iff, implies_true, and_true]
  exact ⟨⟨⟨⟨trivial, houtput (prints_tables _ _)⟩, houtput (prints_registerInterruptReport 14 _)⟩,
    trivial, trivial⟩, houtput prints_generating⟩

def Desk.Reported (layout : Layout) (cpu : Cpu) (d : Desk) : Prop :=
  d.halted = true ∧ d.interrupts = false
    ∧ ∃ t, d.terminal = (faultReport layout (Desk.faultRegisters layout 0 cpu)).foldl
      (Action.onTerminal layout.strAt) t

theorem Desk.fault_reported (layout : Layout) (cpu : Cpu) (d : Desk) :
    (d.fault layout 0x400000 0 cpu).Reported layout cpu := by
  rw [fault, Reported, faultReport]
  generalize Action.printk "Calling isr_handler()!\n" [] :: _ = actions
  exact ⟨rfl, rfl, d.terminal, rfl⟩

theorem Desk.Reported.event {cpu : Cpu} (h : d.Reported layout cpu) (happening : Happening) :
    (d.event layout happening).Reported layout cpu := by
  cases happening with
  | scancode value => exact h
  | request request cpu' =>
      rw [Desk.event, h.2.1]
      exact h

/-- The desk halts in the turn of the load. -/
theorem desk_kmainEnd (layout : Layout) (hrunning : d.halted = false) (cpu : Cpu)
    (schedule : List (Option Happening)) :
    let final := (desk layout).run schedule (kmainEnd layout cpu) d
    if turns schedule ≤ (kmainPaging layout).length
    then final.1 = (Program.ofList ((kmainPaging layout ++ [Command.load 0x400000 cpu]).drop
        (turns schedule))).andThen (kmainLast layout) ∧ final.2.halted = false
    else final.1 = kmainLast layout ∧ final.2.Reported layout cpu := by
  intro final
  have hcode : AccessKind.supervisorRead.errorCode false = 0 := by decide
  have hstop (d : Desk) (_ : d.halted = false) :
      ((desk layout).exec (.load 0x400000 cpu) d).1.Reported layout cpu := by
    change (d.fault layout 0x400000 _ cpu).Reported layout cpu
    rw [hcode]
    exact d.fault_reported layout cpu
  have hbefore (c : Command) (hc : c ∈ kmainPaging layout) (d : Desk) (h : d.halted = false) :
      (d.exec layout c).1.halted = false := by
    obtain ⟨handlers, hexec⟩ := d.exec_paging layout (kmainPaging_isPaging c hc)
    rw [hexec]
    exact h
  have huntil := (desk layout).run_until (kmainLast layout) (fun d => d.halted = false)
    (Desk.Reported layout cpu) (fun _ h => h) (fun _ h => h.1)
    (fun d happening h => (d.event_halted layout happening).trans h)
    (fun _ happening h => h.event happening) hbefore hstop schedule hrunning
  exact huntil

/-- Wherever interrupts fall on the way, and as long as their frames find room on the stack, the load
from 0x400000 is reported, with the address, the error code of a read of a page that is not there, and
the registers at the instruction, but for the stack pointer, which is the one `pusha` found. The machine
halts for good, and what `kmain` would print next is not printed. -/
theorem kmainEnd_faults (h : Agreement layout .ready m d) {cpu : Cpu} (hroom : cpu.HasRoom)
    (schedule : List (Option Happening))
    (hrooms : ∀ happening, some happening ∈ schedule → happening.HasRoom) :
    ∃ program m', (machine layout).run schedule (kmainEnd layout cpu) m = some (program, m')
      ∧ (m'.halted = true ↔ (kmainPaging layout).length < turns schedule)
      ∧ (m'.halted = true → program = kmainLast layout
          ∧ (∃ regs t, Describes 14 0 cpu regs ∧ regs.esp = cpu.esp - 20
            ∧ Displays m'.vga ((faultReport layout regs).foldl (Action.onTerminal layout.strAt) t)
            ∧ (faultReport layout regs).flatMap (Action.text layout.strAt)
              = asciiBytes "Calling isr_handler()!\n" ++ (faultLine 0x400000 0
                ++ infoLine layout.strAt regs
                ++ asciiBytes "Kernel panic: halting... (arch/x86/kernel/memory.c:48)"))
          ∧ ∀ later, ∃ scancode, (machine layout).run later program m'
            = some (program, { m' with scancode := scancode })) := by
  obtain ⟨m', hrun, phase, -, hagreement⟩ := (machine_refines_desk layout).run
    (leads_kmainEnd hroom) h schedule fun item hitem =>
      admits_hasRoom fun happening heq => hrooms happening (heq ▸ hitem)
  have hdesk := desk_kmainEnd layout h.fixes.halted cpu schedule
  generalize (desk layout).run schedule (kmainEnd layout cpu) d = final at hrun hagreement hdesk
  refine ⟨final.1, m', hrun, ?_⟩
  have hhalted := hagreement.halted
  split at hdesk
  · next hle =>
      have hrunning : m'.halted = false := hhalted.trans hdesk.2
      exact ⟨by simp [hrunning, hle], fun h => absurd (hrunning.symm.trans h) (by decide)⟩
  · next hlt =>
      obtain ⟨hprogram, hstopped, hoff, t, hterminal⟩ := hdesk
      refine ⟨⟨fun _ => by omega, fun _ => hhalted.trans hstopped⟩, fun _ => ⟨hprogram, ?_, ?_⟩⟩
      · obtain ⟨hdescribes, hesp⟩ := faultRegisters_describes layout 0 cpu
        refine ⟨_, t, hdescribes, hesp, hterminal ▸ hagreement.displays, ?_⟩
        rw [faultReport_text, hdescribes.errCode]
        rfl
      · exact fun later => run_halted later final.1 (hhalted.trans hstopped)
          (hagreement.interrupts.trans hoff)

end Runs

/-- The sample machine, booted and then run without an interruption. -/
theorem kmainEnd_faults_sample :
    ∃ m d m' regs t, Agreement sampleLayout .ready m d
      ∧ (machine sampleLayout).run (List.replicate ((kmainPaging sampleLayout).length + 1) none)
          (kmainEnd sampleLayout program) m = some (kmainLast sampleLayout, m')
      ∧ m'.halted = true ∧ regs.eip = 0x00101234 ∧ regs.esp = 0x8FEC
      ∧ Displays m'.vga
        ((faultReport sampleLayout regs).foldl (Action.onTerminal sampleLayout.strAt) t)
      ∧ (faultReport sampleLayout regs).flatMap (Action.text sampleLayout.strAt)
        = asciiBytes "Calling isr_handler()!\n" ++ (faultLine 0x400000 0
          ++ infoLine sampleLayout.strAt regs
          ++ asciiBytes "Kernel panic: halting... (arch/x86/kernel/memory.c:48)") := by
  obtain ⟨-, m, d, -, hready⟩ :=
    exists_ready sampleSymbols sampleInfo_hasStrings rfl sampleMachine_booted
  have hroom : program.HasRoom := by decide
  obtain ⟨left, m', hrun, hhalts, hreport⟩ := kmainEnd_faults hready hroom
    (List.replicate ((kmainPaging sampleLayout).length + 1) none)
    fun happening hmem => by cases List.eq_of_mem_replicate hmem
  have hhalted : m'.halted = true := by
    rw [hhalts, turns, List.countP_replicate]
    exact Nat.lt_succ_self _
  obtain ⟨rfl, ⟨regs, t, hdescribes, hesp, hdisplays, htext⟩, -⟩ := hreport hhalted
  exact ⟨m, d, m', regs, t, hready, hrun, hhalted, hdescribes.eip, hesp, hdisplays, htext⟩

end Brunix
