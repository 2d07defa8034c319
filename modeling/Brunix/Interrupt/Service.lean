import Brunix.Interrupt.Dispatch
import Mathlib.Logic.Relation

/-!
# Interrupt requests in service

The controllers, the interrupt flag and the C functions that are running, taking steps in any order
the processor allows. A request is accepted whenever the flag is set, be it in the middle of another
`irq_handler`; that this never happens is part of the invariant. The handlers an `irq_handler` calls
return with the flag clear and leave the controllers alone, so their calls are steps that change
nothing here but the speaker port.
-/

namespace Brunix

open Basis

/-- An `irq_handler` that is running: what it has left to do, and the flag its `iret` brings back. -/
structure Running where
  rest : List Action
  ifFlag : Bool

structure Service where
  ports : Ports
  ifFlag : Bool
  running : List Running

inductive Service.Step : Service → Service → Prop
  /-- The gate and the `cli` of the stub clear the flag. -/
  | accept {s : Service} (request : Request) (handlers : Byte → Word) (frame : Word)
      (regs : Registers) {actions : List Action} (hif : s.ifFlag = true)
      (hno : regs.intNo = (request.vector s.ports).setWidth 32)
      (hactions : irqHandler handlers frame regs = some actions) :
      Step s ⟨request.accept s.ports, false, ⟨actions, s.ifFlag⟩ :: s.running⟩
  | action {s : Service} {action : Action} {rest : List Action} {ifFlag : Bool}
      {outer : List Running} (hrunning : s.running = ⟨action :: rest, ifFlag⟩ :: outer) :
      Step s ⟨action.onPorts s.ports, s.ifFlag, ⟨rest, ifFlag⟩ :: outer⟩
  | iret {s : Service} {ifFlag : Bool} {outer : List Running}
      (hrunning : s.running = ⟨[], ifFlag⟩ :: outer) :
      Step s ⟨s.ports, ifFlag, outer⟩
  /-- The rest of the kernel sets and clears the flag outside of interrupts. -/
  | setIf {s : Service} (ifFlag : Bool) (hrunning : s.running = []) :
      Step s ⟨s.ports, ifFlag, []⟩
  | speaker {s : Service} (value : Byte) :
      Step s ⟨{ s.ports with speaker := value }, s.ifFlag, s.running⟩

abbrev Service.Reaches : Service → Service → Prop := Relation.ReflTransGen Service.Step

/-! ### The controllers between requests -/

/-- Both controllers are initialised as the kernel expects. -/
structure Initialised (s : Ports) : Prop where
  master_stage : s.master.stage = .ready
  master_base : s.master.base = 0x20
  slave_stage : s.slave.stage = .ready
  slave_base : s.slave.base = 0x28

structure Quiet (s : Ports) : Prop extends Initialised s where
  idle : s.Idle

theorem Initialised.congr {s t : Ports} (h : Initialised s)
    (hmaster : t.master.stage = s.master.stage ∧ t.master.base = s.master.base)
    (hslave : t.slave.stage = s.slave.stage ∧ t.slave.base = s.slave.base) : Initialised t :=
  ⟨hmaster.1.trans h.master_stage, hmaster.2.trans h.master_base,
    hslave.1.trans h.slave_stage, hslave.2.trans h.slave_base⟩

theorem Quiet.congr {s t : Ports} (h : Quiet s) (hmaster : t.master = s.master)
    (hslave : t.slave = s.slave) : Quiet t := by
  refine ⟨h.toInitialised.congr ?_ ?_, ?_, ?_⟩
  · rw [hmaster]
    exact ⟨rfl, rfl⟩
  · rw [hslave]
    exact ⟨rfl, rfl⟩
  · rw [hmaster]
    exact h.idle.1
  · rw [hslave]
    exact h.idle.2

/-- What an action does to the controllers does not depend on the speaker. -/
theorem Action.onPorts_congr {s t : Ports} (action : Action) (hmaster : t.master = s.master)
    (hslave : t.slave = s.slave) :
    (action.onPorts t).master = (action.onPorts s).master
      ∧ (action.onPorts t).slave = (action.onPorts s).slave := by
  cases action with
  | setFgColor | printk | call => exact ⟨hmaster, hslave⟩
  | outb port value =>
      simp only [onPorts, Ports.outb]
      split_ifs <;> simp [hmaster, hslave]
  | outbOr port bits =>
      have hmasterPort : speakerPort ≠ pic1Command := by decide
      have hslavePort : speakerPort ≠ pic2Command := by decide
      simp only [onPorts, Ports.outb, Ports.inb]
      split_ifs <;> simp_all

theorem foldl_onPorts_congr (actions : List Action) {s t : Ports} (hmaster : t.master = s.master)
    (hslave : t.slave = s.slave) :
    (actions.foldl Action.onPorts t).master = (actions.foldl Action.onPorts s).master
      ∧ (actions.foldl Action.onPorts t).slave = (actions.foldl Action.onPorts s).slave := by
  induction actions generalizing s t with
  | nil => exact ⟨hmaster, hslave⟩
  | cons action actions ih =>
      obtain ⟨hmaster', hslave'⟩ := action.onPorts_congr hmaster hslave
      exact ih hmaster' hslave'

/-! ### One request -/

theorem clearHighest_bit : ∀ line : Fin 8, clearHighest (0 ||| (1#8 <<< line.val)) = 0 := by
  decide

theorem clearHighest_zero : clearHighest 0 = 0 := by
  decide

/-- The end of interrupt goes to the master, and before that to the slave for its vectors. -/
theorem picAcknowledge_onPorts (intNo : Word) (s : Ports) :
    ((picAcknowledge intNo).foldl Action.onPorts s).master
        = { s.master with inService := clearHighest s.master.inService }
      ∧ ((picAcknowledge intNo).foldl Action.onPorts s).slave
        = if 40 ≤ intNo then { s.slave with inService := clearHighest s.slave.inService }
          else s.slave := by
  rw [picAcknowledge]
  split <;> exact ⟨rfl, rfl⟩

/-- An acknowledgement leaves nothing in service that has at most one bit in the master and, if it
is for a vector of the slave, at most one there. -/
theorem picAcknowledge_quiet {s : Ports} (h : Initialised s) (intNo : Word)
    (hmaster : clearHighest s.master.inService = 0)
    (hslave : (if 40 ≤ intNo then clearHighest s.slave.inService else s.slave.inService) = 0) :
    Quiet ((picAcknowledge intNo).foldl Action.onPorts s) := by
  obtain ⟨hmaster', hslave'⟩ := picAcknowledge_onPorts intNo s
  refine ⟨h.congr ?_ ?_, ?_, ?_⟩
  · rw [hmaster']
    exact ⟨rfl, rfl⟩
  · rw [hslave']
    split <;> exact ⟨rfl, rfl⟩
  · rw [hmaster']
    exact hmaster
  · rw [hslave', apply_ite Pic.inService]
    exact hslave

/-- Of all an `irq_handler` does, only the acknowledgement reaches the controllers. -/
theorem irqHandler_onPorts {handlers : Byte → Word} {frame : Word} {regs : Registers}
    {actions : List Action} (hactions : irqHandler handlers frame regs = some actions) (s : Ports) :
    actions.foldl Action.onPorts s = (picAcknowledge regs.intNo).foldl Action.onPorts s := by
  obtain ⟨handler, -, hsome⟩ := Option.bind_eq_some_iff.mp hactions
  obtain rfl := Option.some.inj hsome
  have hreport (p : Prop) [Decidable p] (params : List Word) (t : Ports) :
      (if p then debug "isr" "Calling isr_handler() for IRQ %d!" params else []).foldl
        Action.onPorts t = t := by
    split <;> rfl
  have hcall (t : Ports) :
      (if handler ≠ 0 then [Action.call handler frame] else []).foldl Action.onPorts t = t := by
    split <;> rfl
  rw [List.foldl_append, List.foldl_append, hreport, hcall]

/-- The vectors of the slave, and only those, are acknowledged to the slave. -/
theorem vector_slave : ∀ line : Fin 8,
    ¬ (40 : Word) ≤ (((0x20 : Byte) &&& 0xF8) ||| BitVec.ofNat 8 line.val).setWidth 32
      ∧ (40 : Word) ≤ (((0x28 : Byte) &&& 0xF8) ||| BitVec.ofNat 8 line.val).setWidth 32 := by
  decide

theorem Request.accept_initialised {s : Ports} (h : Initialised s) (request : Request) :
    Initialised (request.accept s) := by
  cases request <;> exact h.congr ⟨rfl, rfl⟩ ⟨rfl, rfl⟩

/-- Whatever the request was, the acknowledgement leaves nothing in service: each controller that
put a bit in service gets one end of interrupt, and the others get theirs with nothing to clear. -/
theorem accept_drains {s : Ports} (h : Quiet s) (request : Request) {handlers : Byte → Word}
    {frame : Word} {regs : Registers} {actions : List Action}
    (hno : regs.intNo = (request.vector s).setWidth 32)
    (hactions : irqHandler handlers frame regs = some actions) :
    Quiet (actions.foldl Action.onPorts (request.accept s)) := by
  have hinit := request.accept_initialised h.toInitialised
  obtain ⟨hmaster, hslave⟩ := h.idle
  have hbit (pic : Pic) (hidle : pic.inService = 0) (line : Fin 8) :
      clearHighest (pic.serve line).inService = 0 := by
    rw [Pic.serve, hidle]
    exact clearHighest_bit line
  have hmasterVector (line : Fin 8) : ¬ (40 : Word) ≤ (s.master.vector line).setWidth 32 := by
    rw [Pic.vector, h.master_base]
    exact (vector_slave line).1
  have hslaveVector (line : Fin 8) : (40 : Word) ≤ (s.slave.vector line).setWidth 32 := by
    rw [Pic.vector, h.slave_base]
    exact (vector_slave line).2
  rw [irqHandler_onPorts hactions, hno]
  cases request with
  | master line hline =>
      apply picAcknowledge_quiet hinit _ (hbit s.master hmaster line)
      rw [Request.vector, if_neg (hmasterVector line)]
      exact hslave
  | slave line =>
      apply picAcknowledge_quiet hinit _ (hbit s.master hmaster 2)
      rw [Request.vector, if_pos (hslaveVector line)]
      exact hbit s.slave hslave line
  | spuriousMaster =>
      refine picAcknowledge_quiet hinit _ ?_ ?_
      · rw [Request.accept, hmaster, clearHighest_zero]
      · rw [Request.vector, if_neg (hmasterVector 7)]
        exact hslave
  | spuriousSlave =>
      apply picAcknowledge_quiet hinit _ (hbit s.master hmaster 2)
      rw [Request.vector, if_pos (hslaveVector 7), Request.accept, hslave, clearHighest_zero]

/-! ### Runs -/

/-- No `irq_handler` is running and the controllers are quiet, or one is, with interrupts off, and
they will be quiet when it is done. -/
inductive Service.Safe : Service → Prop
  | outside {ports : Ports} {ifFlag : Bool} (h : Quiet ports) : Safe ⟨ports, ifFlag, []⟩
  | inside {ports : Ports} {rest : List Action} {ifFlag : Bool}
      (h : Quiet (rest.foldl Action.onPorts ports)) : Safe ⟨ports, false, [⟨rest, ifFlag⟩]⟩

theorem Service.Step.safe {s t : Service} (hstep : Step s t) (h : s.Safe) : t.Safe := by
  cases h with
  | outside hquiet =>
      cases hstep with
      | accept request handlers frame regs hif hno hactions =>
          exact .inside (accept_drains hquiet request hno hactions)
      | action hrunning => cases hrunning
      | iret hrunning => cases hrunning
      | setIf ifFlag hrunning => exact .outside hquiet
      | speaker value => exact .outside (hquiet.congr rfl rfl)
  | @inside ports rest saved hquiet =>
      cases hstep with
      | accept request handlers frame regs hif hno hactions => cases hif
      | action hrunning =>
          cases hrunning
          exact .inside hquiet
      | iret hrunning =>
          cases hrunning
          exact .outside hquiet
      | setIf ifFlag hrunning => cases hrunning
      | speaker value =>
          obtain ⟨hmaster, hslave⟩ := foldl_onPorts_congr rest (s := ports)
            (t := { ports with speaker := value }) rfl rfl
          exact .inside (hquiet.congr hmaster hslave)

theorem Service.Reaches.safe {s t : Service} (h : s.Reaches t) (hs : s.Safe) : t.Safe := by
  induction h with
  | refl => exact hs
  | tail _ hstep ih => exact hstep.safe ih

/-- An `irq_handler` can always run to its end. -/
theorem Service.Reaches.drain (rest : List Action) (ports : Ports) (ifFlag saved : Bool)
    (outer : List Running) :
    Service.Reaches ⟨ports, ifFlag, ⟨rest, saved⟩ :: outer⟩
      ⟨rest.foldl Action.onPorts ports, saved, outer⟩ := by
  induction rest generalizing ports with
  | nil => exact .single (.iret rfl)
  | cons action rest ih => exact .head (.action rfl) (ih (action.onPorts ports))

/-- Whatever the controllers hand to the processor, `irq_handler` has something to do for it. -/
theorem Request.exists_actions (request : Request) (s : Ports) (handlers : Byte → Word) (frame : Word)
    {regs : Registers} (hno : regs.intNo = (request.vector s).setWidth 32) :
    ∃ actions, irqHandler handlers frame regs = some actions := by
  have hlt : (request.vector s).toNat < 256 := (request.vector s).isLt
  have hvector : regs.intNo = BitVec.ofNat 32 (request.vector s).toNat := by
    rw [hno]
    exact (BitVec.ofNat_toNat _ _).symm
  obtain ⟨actions, hactions, -⟩ := irqHandler_calls handlers frame hlt hvector
  exact ⟨actions, hactions⟩

/-- No line is left in service. Remapping leaves both controllers initialised, at the vectors of the
kernel and with the masks they had. From there, in any run, at most one `irq_handler` is running, and
when none is, nothing is in service. With the interrupt flag set any request is accepted, and its
`irq_handler` can run to its end. -/
theorem pic_protocol {s : Ports} (hidle : s.Idle) (ifFlag : Bool) :
    (picRemap 0x20 0x28 s).master = ⟨.ready, s.master.mask, 0x20, 0x04, 0⟩
      ∧ (picRemap 0x20 0x28 s).slave = ⟨.ready, s.slave.mask, 0x28, 0x02, 0⟩
      ∧ ∀ t, Service.Reaches ⟨picRemap 0x20 0x28 s, ifFlag, []⟩ t →
        t.running.length ≤ 1 ∧ (t.running = [] → t.ports.Idle)
        ∧ (t.ifFlag = true → ∀ (request : Request) (handlers : Byte → Word) (frame : Word)
          (regs : Registers), regs.intNo = (request.vector t.ports).setWidth 32 →
          ∃ actions u, irqHandler handlers frame regs = some actions
            ∧ Service.Step t ⟨request.accept t.ports, false, [⟨actions, true⟩]⟩
            ∧ Service.Reaches ⟨request.accept t.ports, false, [⟨actions, true⟩]⟩ u
            ∧ u.running = [] ∧ u.ifFlag = true ∧ u.ports.Idle) := by
  obtain ⟨hmaster, hslave⟩ := hidle
  have hquiet : Quiet (picRemap 0x20 0x28 s) := ⟨⟨rfl, rfl, rfl, rfl⟩, hmaster, hslave⟩
  refine ⟨by rw [picRemap_spec, hmaster]; rfl, by rw [picRemap_spec, hslave]; rfl, fun t ht => ?_⟩
  cases ht.safe (.outside hquiet) with
  | inside h => exact ⟨Nat.le_refl 1, nofun, nofun⟩
  | @outside ports flag h =>
      refine ⟨Nat.zero_le 1, fun _ => h.idle, fun hif request handlers frame regs hno => ?_⟩
      obtain rfl : flag = true := hif
      obtain ⟨actions, hactions⟩ := request.exists_actions ports handlers frame hno
      exact ⟨actions, _, hactions, .accept request handlers frame regs rfl hno hactions,
        Service.Reaches.drain actions _ false true [], rfl, rfl,
        (accept_drains h request hno hactions).idle⟩

/-- The frame of vector 44. -/
def sampleRegisters : Registers where
  ds := 0x10
  edi := 0
  esi := 0
  ebp := 0
  esp := 0
  ebx := 0
  edx := 0
  ecx := 0
  eax := 0
  intNo := 44
  errCode := 0
  eip := 0x00101234
  cs := 0x08
  eflags := 0x202
  useresp := 0
  ss := 0

/-- A request of the slave, from its acceptance to its `iret`. -/
theorem pic_protocol_slave :
    ∃ actions u, irqHandler (fun _ => 0) 0x8000 sampleRegisters = some actions
      ∧ Service.Step ⟨picRemap 0x20 0x28 samplePorts, true, []⟩
        ⟨(Request.slave 4).accept (picRemap 0x20 0x28 samplePorts), false, [⟨actions, true⟩]⟩
      ∧ Service.Reaches
        ⟨(Request.slave 4).accept (picRemap 0x20 0x28 samplePorts), false, [⟨actions, true⟩]⟩ u
      ∧ u.running = [] ∧ u.ifFlag = true ∧ u.ports.Idle := by
  obtain ⟨-, -, hruns⟩ := pic_protocol (show samplePorts.Idle from ⟨rfl, rfl⟩) true
  obtain ⟨-, -, hserves⟩ := hruns _ .refl
  exact hserves rfl (.slave 4) (fun _ => 0) 0x8000 sampleRegisters rfl

end Brunix
