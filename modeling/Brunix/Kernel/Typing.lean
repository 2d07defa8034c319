import Brunix.Kernel.Fault
import Mathlib.Data.List.ReduceOption

/-!
# Typing

From the page tables on to the load that faults, `kmain` prints, and keys and ticks come in between. When
every key is read before the next one comes, what the screen shows is the output of the program with what
is typed between its characters, and the clock goes on counting.
-/

namespace Brunix

open Basis

/-! ### What is typed -/

/-- A key, and the processor when it is interrupted to read it. -/
structure Keystroke where
  scancode : Byte
  request : Request
  irq_eq : request.irq = 1
  cpu : Cpu

def Keystroke.happenings (key : Keystroke) : List Happening :=
  [.scancode key.scancode, .request key.request key.cpu]

/-- What is printed for the requests of the keyboard, with a scancode that has not been read yet. -/
def typedText : Byte → List Happening → List Byte
  | _, [] => []
  | _, .scancode value :: later => typedText value later
  | scancode, .request request _ :: later =>
      (if request.irq = 1 then keyText scancode else []) ++ typedText scancode later

theorem typedText_keystrokes (scancode : Byte) (keys : List Keystroke) :
    typedText scancode (keys.flatMap Keystroke.happenings)
      = keys.flatMap fun key => keyText key.scancode := by
  induction keys generalizing scancode with
  | nil => rfl
  | cons key keys ih =>
      rw [List.flatMap_cons, List.flatMap_cons, Keystroke.happenings, List.cons_append,
        List.singleton_append, typedText, typedText, if_pos key.irq_eq, ih]

theorem typedText_filter (scancode : Byte) (schedule : List (Option Happening)) :
    typedText scancode (schedule.filter fun item => !isClockRequest item).reduceOption
      = typedText scancode schedule.reduceOption := by
  induction schedule generalizing scancode with
  | nil => rfl
  | cons item schedule ih =>
      cases item with
      | none => exact ih scancode
      | some happening =>
          cases happening with
          | scancode value => exact ih value
          | request request cpu =>
              by_cases hclock : request.irq = 0
              · rw [List.filter_cons_of_neg (by simp [isClockRequest, hclock]), ih scancode,
                  List.reduceOption_cons_of_some, typedText, if_neg (by omega), List.nil_append]
              · rw [List.filter_cons_of_pos (by simp [isClockRequest, hclock]),
                  List.reduceOption_cons_of_some, List.reduceOption_cons_of_some, typedText, typedText,
                  ih scancode]

theorem irq_le_one {schedule : List (Option Happening)} {keys : List Keystroke}
    (hkeys : (schedule.filter fun item => !isClockRequest item).reduceOption
      = keys.flatMap Keystroke.happenings) {request : Request} {cpu : Cpu}
    (hmem : some (.request request cpu) ∈ schedule) : request.irq ≤ 1 := by
  by_cases hclock : request.irq = 0
  · omega
  · have hother : .request request cpu
        ∈ (schedule.filter fun item => !isClockRequest item).reduceOption := by
      rw [List.reduceOption_mem_iff]
      exact List.mem_filter.mpr ⟨hmem, by simp [isClockRequest, hclock]⟩
    rw [hkeys] at hother
    obtain ⟨key, -, hkey⟩ := List.mem_flatMap.mp hother
    simp only [Keystroke.happenings, List.mem_cons, reduceCtorEq, Happening.request.injEq,
      List.not_mem_nil, or_false, false_or] at hkey
    rw [hkey.1]
    exact key.irq_eq.le

/-! ### The desk -/

section Desk

variable {d : Desk}

/-- The timer and the keyboard have their handlers, and requests are served. -/
structure Desk.Attends (d : Desk) : Prop where
  irqHandlers : d.irqHandlers = Phase.ready.irqHandlers
  interrupts : d.interrupts = true
  running : d.halted = false

theorem Desk.serve_clock (layout : Layout) (h : d.Attends) :
    d.serve layout 0 = { d with ticks := d.ticks + 1 } := by
  have hhandler : d.irqHandlers 32 = some .timerCallback := by
    rw [h.irqHandlers]
    rfl
  rw [serve, report, if_pos (.inl rfl)]
  exact dispatch_some hhandler

theorem Desk.serve_keyboard (layout : Layout) (h : d.Attends) :
    d.serve layout 1
      = { d with terminal := (keyText d.scancode).foldl Terminal.putc d.terminal } := by
  have hhandler : d.irqHandlers 33 = some .kbdCallback := by
    rw [h.irqHandlers]
    rfl
  rw [serve, report, if_pos (.inr rfl)]
  exact dispatch_some hhandler

/-- The output so far and what is typed meanwhile, in one order for both. -/
theorem Desk.run_types (layout : Layout) {left : List Command} (hleft : ∀ c ∈ left, c.IsPaging)
    (more : List Command) (rest : Program Command Word) (h : d.Attends)
    {schedule : List (Option Happening)} (hturns : turns schedule ≤ left.length)
    (hrequests : ∀ request cpu, some (.request request cpu) ∈ schedule → request.irq ≤ 1) :
    let final := ((desk layout).run schedule ((Program.ofList (left ++ more)).andThen rest) d).2
    final.Attends ∧ final.ticks = d.ticks + schedule.countP isClockRequest
      ∧ ∃ shown, Interleaves (left.take (turns schedule))
          ((typedText d.scancode schedule.reduceOption).map .putc) shown
        ∧ final.terminal = shown.foldl Command.onTerminal d.terminal := by
  induction schedule generalizing left d with
  | nil => exact ⟨h, rfl, [], .nil, rfl⟩
  | cons item schedule ih =>
      have hlater (request : Request) (cpu : Cpu) (hmem : some (.request request cpu) ∈ schedule) :=
        hrequests request cpu (List.mem_cons_of_mem _ hmem)
      cases item with
      | none =>
          rw [turns_none] at hturns
          cases left with
          | nil => exact absurd hturns (Nat.not_succ_le_zero _)
          | cons c left =>
              obtain ⟨hc, hleft'⟩ := List.forall_mem_cons.mp hleft
              obtain ⟨handlers, hexec⟩ := d.exec_paging layout hc
              obtain ⟨hattends, hticks, shown, hshown, hterminal⟩ := ih hleft'
                (d := { d with terminal := c.onTerminal d.terminal, interruptHandlers := handlers })
                ⟨h.irqHandlers, h.interrupts, h.running⟩ (Nat.le_of_succ_le_succ hturns) hlater
              have hstep : (desk layout).step
                  ((Program.ofList (c :: left ++ more)).andThen rest, d) none
                  = ((Program.ofList (left ++ more)).andThen rest,
                    { d with terminal := c.onTerminal d.terminal, interruptHandlers := handlers }) := by
                rw [← hexec]
                exact (desk layout).step_ofList rest c (left ++ more) h.running
              rw [Model.run, List.foldl_cons, hstep]
              refine ⟨hattends, hticks, c :: shown, ?_, hterminal⟩
              rw [turns_none, List.take_succ_cons]
              exact .left c hshown
      | some happening =>
          rw [turns_event] at hturns
          cases happening with
          | scancode value =>
              exact ih hleft (d := { d with scancode := value })
                ⟨h.irqHandlers, h.interrupts, h.running⟩ hturns hlater
          | request request cpu =>
              have hevent : d.event layout (.request request cpu) = d.serve layout request.irq :=
                if_pos h.interrupts
              have hstep (program : Program Command Word) :
                  (desk layout).step (program, d) (some (.request request cpu))
                    = (program, d.serve layout request.irq) :=
                congrArg (Prod.mk program) hevent
              rw [Model.run, List.foldl_cons, hstep, turns_event, List.reduceOption_cons_of_some,
                typedText]
              obtain hclock | hkeyboard := Nat.le_one_iff_eq_zero_or_eq_one.mp
                (hrequests request cpu List.mem_cons_self)
              · obtain ⟨hattends, hticks, shown, hshown, hterminal⟩ := ih hleft
                  (d := { d with ticks := d.ticks + 1 }) ⟨h.irqHandlers, h.interrupts, h.running⟩
                  hturns hlater
                rw [hclock, Desk.serve_clock layout h, if_neg (by decide), List.nil_append,
                  List.countP_cons_of_pos (by simp [isClockRequest, hclock])]
                exact ⟨hattends, hticks.trans (Nat.add_right_comm ..), shown, hshown, hterminal⟩
              · obtain ⟨hattends, hticks, shown, hshown, hterminal⟩ := ih hleft
                  (d := { d with
                    terminal := (keyText d.scancode).foldl Terminal.putc d.terminal })
                  ⟨h.irqHandlers, h.interrupts, h.running⟩ hturns hlater
                rw [hkeyboard, Desk.serve_keyboard layout h, if_pos rfl, List.map_append,
                  List.countP_cons_of_neg (by simp [isClockRequest, hkeyboard])]
                refine ⟨hattends, hticks, _, hshown.append_right _, ?_⟩
                rw [List.foldl_append, List.foldl_map]
                exact hterminal

end Desk

/-! ### The machine -/

section Runs

variable {layout : Layout} {m : Machine} {d : Desk}

/-- Up to the load that faults, and when each key is read before the next one comes, the screen shows the
output of `kmain` and the characters of the keys that went down, each in its order and nothing twice,
wherever requests of the timer fall. Each of these counts, and no line is left in service. -/
theorem kmainEnd_types (h : Agreement layout .ready m d) {cpu : Cpu} (hroom : cpu.HasRoom)
    {schedule : List (Option Happening)} (hbefore : turns schedule ≤ (kmainPaging layout).length)
    (hrooms : ∀ happening, some happening ∈ schedule → happening.HasRoom) {keys : List Keystroke}
    (hkeys : (schedule.filter fun item => !isClockRequest item).reduceOption
      = keys.flatMap Keystroke.happenings) :
    ∃ m' shown, (machine layout).run schedule (kmainEnd layout cpu) m
        = some ((Program.ofList ((kmainPaging layout ++ [Command.load 0x400000 cpu]).drop
          (turns schedule))).andThen (kmainLast layout), m')
      ∧ Interleaves ((kmainPaging layout).take (turns schedule))
        ((keys.flatMap fun key => keyText key.scancode).map .putc) shown
      ∧ Displays m'.vga (shown.foldl Command.onTerminal d.terminal)
      ∧ m'.timerTicks = m.timerTicks + BitVec.ofNat 64 (schedule.countP isClockRequest)
      ∧ m'.ifFlag = true ∧ Quiet m'.kernel.ports := by
  obtain ⟨m', hrun, phase, -, hagreement⟩ := (machine_refines_desk layout).run
    (leads_kmainEnd hroom) h schedule fun item hitem =>
      admits_hasRoom fun happening heq => hrooms happening (heq ▸ hitem)
  have hprogram := desk_kmainEnd layout h.fixes.halted cpu schedule
  obtain ⟨hattends, hticks, shown, hshown, hterminal⟩ :=
    Desk.run_types layout kmainPaging_isPaging [.load 0x400000 cpu] (kmainLast layout)
      ⟨h.fixes.irqHandlers, h.fixes.interrupts, h.fixes.halted⟩ hbefore
      fun request cpu hmem => irq_le_one hkeys hmem
  rw [← typedText_filter, hkeys, typedText_keystrokes] at hshown
  rw [if_pos hbefore] at hprogram
  rw [← kmainEnd] at hattends hticks hterminal
  rw [hprogram.1] at hrun
  have hif : phase.interrupts = true := hagreement.fixes.interrupts.symm.trans hattends.interrupts
  refine ⟨m', shown, hrun, hshown, hterminal ▸ hagreement.displays, ?_,
    hagreement.interrupts.trans hattends.interrupts, (hagreement.setup.up hif).quiet⟩
  rw [hagreement.ticks, hticks, h.ticks, BitVec.ofNat_add]

end Runs

/-- Two keys and a request of the timer, while the page tables are filled and the first character after
that is printed. -/
theorem kmainEnd_types_sample :
    let keyboard := Request.master 1 (by decide)
    let schedule := [some (.scancode 0x18), some (.request (.master 0 (by decide)) program), none,
      some (.request keyboard program), none, some (.scancode 0x25), some (.request keyboard program)]
    ∃ m d m' shown program', Agreement sampleLayout .ready m d
      ∧ (machine sampleLayout).run schedule (kmainEnd sampleLayout program) m = some (program', m')
      ∧ Interleaves ((kmainPaging sampleLayout).take 2) ((asciiBytes "ok").map .putc) shown
      ∧ Displays m'.vga (shown.foldl Command.onTerminal d.terminal)
      ∧ m'.timerTicks = m.timerTicks + 1 := by
  intro keyboard schedule
  let keys : List Keystroke := [⟨0x18, keyboard, rfl, program⟩, ⟨0x25, keyboard, rfl, program⟩]
  obtain ⟨-, m, d, -, hready⟩ :=
    exists_ready sampleSymbols sampleInfo_hasStrings rfl sampleMachine_booted
  have hroom : program.HasRoom := by decide
  have hrooms : ∀ happening, some happening ∈ schedule → happening.HasRoom := by
    intro happening hmem
    cases happening with
    | scancode value => trivial
    | request request cpu =>
        simp only [schedule, List.mem_cons, Option.some.injEq, reduceCtorEq,
          Happening.request.injEq, List.not_mem_nil, or_false, false_or] at hmem
        obtain ⟨-, rfl⟩ | ⟨-, rfl⟩ | ⟨-, rfl⟩ := hmem <;> exact hroom
  have hlength : turns schedule ≤ (kmainPaging sampleLayout).length := by
    rw [show turns schedule = 2 from rfl]
    simp only [kmainPaging, List.length_append, List.length_cons, List.length_nil]
    omega
  obtain ⟨m', shown, hrun, hshown, hdisplays, hticks, -⟩ :=
    kmainEnd_types hready hroom hlength hrooms (show _ = keys.flatMap Keystroke.happenings from rfl)
  have htext : (keys.flatMap fun key => keyText key.scancode) = asciiBytes "ok" := by
    rw [List.flatMap_cons, List.flatMap_singleton]
    decide
  rw [htext] at hshown
  exact ⟨m, d, m', shown, _, hready, hrun, hshown, hdisplays, hticks⟩

end Brunix
