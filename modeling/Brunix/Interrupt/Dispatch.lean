import Brunix.Basis.Bits
import Brunix.Console.Vga
import Brunix.Interrupt.Pic
import Brunix.Interrupt.Stubs
import Mathlib.Data.List.Induction

/-!
# From a vector to a handler

Four tables lie between a vector and the code that serves it: the gates of the IDT, the stubs, and
the two arrays of registered handlers. The C functions are modelled by what they do in order, console
output and port writes included, and the kernel keeps a log of it. Through any history of
registrations and interrupts, a vector reaches the handler registered for it last.
-/

namespace Brunix

open Basis Memory

/-! ### The IDT, `asm/idt.h` -/

structure IdtEntry where
  baseLo : BitVec 16
  sel : Selector
  always0 : Byte
  pDplType : Byte
  baseHi : BitVec 16

/-- The eight bytes of a packed entry, the first field lowest. -/
def IdtEntry.descriptor (entry : IdtEntry) : BitVec 64 :=
  entry.baseHi ++ entry.pDplType ++ entry.always0 ++ entry.sel ++ entry.baseLo

/-- What the processor reads in a descriptor. The kind is the four bits of the type under the bit
that tells system descriptors from segments. -/
structure Gate where
  offset : Word
  selector : Selector
  kind : BitVec 5
  dpl : BitVec 2
  present : Bool

def Gate.decode (descriptor : BitVec 64) : Gate where
  offset := descriptor.extractLsb' 48 16 ++ descriptor.extractLsb' 0 16
  selector := descriptor.extractLsb' 16 16
  kind := descriptor.extractLsb' 40 5
  dpl := descriptor.extractLsb' 45 2
  present := descriptor.getLsbD 47

/-- A present gate of the kernel's for 32-bit interrupts. -/
def interruptGate (offset : Word) : Gate where
  offset := offset
  selector := 0x08
  kind := 0b01110
  dpl := 0
  present := true

structure IdtPtr where
  limit : BitVec 16
  base : Word

/-! ### What the C code does -/

inductive Action
  | setFgColor (colour : Byte)
  | printk (fmt : String) (params : List Word)
  | outb (port : BitVec 16) (value : Byte)
  /-- `outb(port, inb(port) | bits)`. -/
  | outbOr (port : BitVec 16) (bits : Byte)
  /-- A call of a registered handler with the address of a frame. -/
  | call (handler frame : Word)

def Action.onPorts (s : Ports) : Action → Ports
  | .outb port value => s.outb port value
  | .outbOr port bits => s.outb port (s.inb port ||| bits)
  | _ => s

def Action.handlerCall : Action → Option (Word × Word)
  | .call handler frame => some (handler, frame)
  | _ => none

def handlerCalls (actions : List Action) : List (Word × Word) :=
  actions.filterMap Action.handlerCall

def debug (moduleName fmt : String) (params : List Word) : List Action :=
  [.setFgColor colorLightGrey, .printk ("[" ++ moduleName ++ "]: " ++ fmt ++ "\n") params,
    .setFgColor colorWhite]

/-- Where the linker put the stubs and the IDT. -/
structure Image where
  stub : Label → Word
  idt : Word

structure Kernel where
  idt : Byte → IdtEntry
  idtPtr : IdtPtr
  interruptHandlers : Byte → Word
  irqHandlers : Byte → Word
  ports : Ports
  log : List Action

def Kernel.perform (actions : List Action) (s : Kernel) : Kernel :=
  { s with ports := actions.foldl Action.onPorts s.ports, log := s.log ++ actions }

/-- The statics at boot. -/
def Kernel.boot (ports : Ports) : Kernel where
  idt := fun _ => ⟨0, 0, 0, 0, 0⟩
  idtPtr := ⟨0, 0⟩
  interruptHandlers := fun _ => 0
  irqHandlers := fun _ => 0
  ports := ports
  log := []

/-! ### `idt.c` -/

def gateEntry (base : Word) (sel : Selector) (flags : Byte) : IdtEntry where
  baseLo := (base &&& 0xFFFF).setWidth 16
  baseHi := ((base >>> 16) &&& 0xFFFF).setWidth 16
  sel := sel
  always0 := 0
  pDplType := flags

def initIdt (image : Image) (s : Kernel) : Kernel :=
  { s with idtPtr := ⟨8 * 256 - 1, image.idt⟩ }

def idtSetGate (num : Byte) (base : Word) (sel : Selector) (flags : Byte) (s : Kernel) : Kernel :=
  { s with idt := Function.update s.idt num (gateEntry base sel flags) }

/-! ### `isr.c` -/

def isrGates : List (Byte × Label) :=
  [(0, .isr 0), (1, .isr 1), (2, .isr 2), (3, .isr 3), (4, .isr 4), (5, .isr 5), (6, .isr 6),
    (7, .isr 7), (8, .isr 8), (9, .isr 9), (10, .isr 10), (11, .isr 11), (12, .isr 12),
    (13, .isr 13), (14, .isr 14), (15, .isr 15), (16, .isr 16), (17, .isr 17), (18, .isr 18),
    (19, .isr 19), (20, .isr 20), (21, .isr 21), (22, .isr 22), (23, .isr 23), (24, .isr 24),
    (25, .isr 25), (26, .isr 26), (27, .isr 27), (28, .isr 28), (29, .isr 29), (30, .isr 30),
    (31, .isr 31), (0x80, .isr 0x80)]

def installGates (image : Image) (gates : List (Byte × Label)) (s : Kernel) : Kernel :=
  gates.foldl (fun s gate => idtSetGate gate.1 (image.stub gate.2) 0x08 0x8E s) s

def isrInstall (image : Image) (s : Kernel) : Kernel := installGates image isrGates s

def registerInterruptHandler (n : Byte) (handler : Word) (s : Kernel) : Kernel :=
  let s := s.perform (debug "ISR" "Registering interrupt handler number %d, handler %x!"
    [n.setWidth 32, handler])
  { s with interruptHandlers := Function.update s.interruptHandlers n handler }

/-- `isr_handler`, given its argument and the address of it. -/
def isrHandler (handlers : Byte → Word) (frame : Word) (regs : Registers) : List Action :=
  let intNo : Byte := (regs.intNo &&& 0xFF).setWidth 8
  .printk "Calling isr_handler()!\n" [] ::
    if handlers intNo ≠ 0 then [.call (handlers intNo) frame]
    else [.printk "*** Unhandled interrupt: %d (error code: %d)\n" [regs.intNo, regs.errCode]]

/-! ### `irq.c` -/

def irqGates : List (Byte × Label) :=
  [(32, .irq 0), (33, .irq 1), (34, .irq 2), (35, .irq 3), (36, .irq 4), (37, .irq 5),
    (38, .irq 6), (39, .irq 7), (40, .irq 8), (41, .irq 9), (42, .irq 10), (43, .irq 11),
    (44, .irq 12), (45, .irq 13), (46, .irq 14), (47, .irq 15)]

def irqInstall (image : Image) (s : Kernel) : Kernel :=
  let s := s.perform (debug "irq" "Remapping PIC..." [])
  installGates image irqGates { s with ports := picRemap 0x20 0x28 s.ports }

def registerIrqHandler (n : Byte) (handler : Word) (s : Kernel) : Kernel :=
  let s := s.perform (debug "irq" "Registering IRQ handler number %d (%d), handler %x!..."
    [n.setWidth 32 - 32, n.setWidth 32, handler])
  { s with irqHandlers := Function.update s.irqHandlers n handler }

def picAcknowledge (intNo : Word) : List Action :=
  (if 40 ≤ intNo then [.outb pic2Command picEoi] else []) ++
    [.outb pic1Command picEoi, .outbOr speakerPort 0x03]

/-- A read of an array of 256 handlers at an index that is not reduced. -/
def handlerAt (handlers : Byte → Word) (index : Word) : Option Word :=
  if index < 256 then some (handlers (index.setWidth 8)) else none

/-- `irq_handler`, given its argument and the address of it. -/
def irqHandler (handlers : Byte → Word) (frame : Word) (regs : Registers) :
    Option (List Action) := do
  let report := if regs.intNo ≠ 32 ∧ regs.intNo ≠ 33 then
    debug "isr" "Calling isr_handler() for IRQ %d!" [regs.intNo - 32] else []
  let handler ← handlerAt handlers regs.intNo
  some (report ++ picAcknowledge regs.intNo ++ if handler ≠ 0 then [.call handler frame] else [])

def irqInit (image : Image) (s : Kernel) : Kernel :=
  s |> initIdt image |> isrInstall image |> irqInstall image

/-! ### Delivery -/

/-- What the C function of a stub does. -/
def Kernel.handlerActions (s : Kernel) (frame : Word) (regs : Registers) :
    Callee → Option (List Action)
  | .isrHandler => some (isrHandler s.interruptHandlers frame regs)
  | .irqHandler => irqHandler s.irqHandlers frame regs

/-- The processor takes an interrupt: through the gate into the stub, and from there into the C
function. It is not modelled what happens when the gate leads anywhere else. -/
def Kernel.deliver (link : Linkage) (image : Image) (vector : Nat) (err : Word) (cpu : Cpu)
    (s : Kernel) : Option Kernel := do
  let gate := Gate.decode (s.idt (BitVec.ofNat 8 vector)).descriptor
  let stub ← vectorStub vector
  if s.idtPtr.base = image.idt ∧ 8 * vector + 7 ≤ s.idtPtr.limit.toNat ∧ gate.present
      ∧ gate.kind = 0b01110 ∧ gate.offset = image.stub stub.label then do
    let entry := callEntry link stub (cpu.interrupt vector err gate.selector gate.offset)
    let actions ← s.handlerActions entry.argument (Registers.read entry.mem entry.argument)
      stub.callee
    some (s.perform actions)
  else none

/-! ### The gates -/

/-- Where the processor looks for each field of an entry. -/
theorem decode_descriptor (entry : IdtEntry) :
    Gate.decode entry.descriptor = {
      offset := entry.baseHi ++ entry.baseLo
      selector := entry.sel
      kind := entry.pDplType.extractLsb' 0 5
      dpl := entry.pDplType.extractLsb' 5 2
      present := entry.pDplType.getLsbD 7 } := by
  have hbit (i : Nat) : entry.descriptor.getLsbD i
      = if i < 16 then entry.baseLo.getLsbD i
        else if i < 32 then entry.sel.getLsbD (i - 16)
        else if i < 40 then entry.always0.getLsbD (i - 32)
        else if i < 48 then entry.pDplType.getLsbD (i - 40)
        else entry.baseHi.getLsbD (i - 48) := by
    simp only [IdtEntry.descriptor, BitVec.getLsbD_append]
    grind
  simp only [Gate.decode, Gate.mk.injEq]
  refine ⟨?_, ?_, ?_, ?_, hbit 47⟩
  all_goals
    apply BitVec.eq_of_getLsbD_eq
    intro i hi
    simp only [BitVec.getLsbD_append, BitVec.getLsbD_extractLsb', hbit]
    grind

theorem halves_append (base : Word) :
    (((base >>> 16) &&& 0xFFFF).setWidth 16 : BitVec 16)
      ++ ((base &&& 0xFFFF).setWidth 16 : BitVec 16) = base := by
  rw [show (0xFFFF : Word) = BitVec.ofNat 32 (2 ^ 16 - 1) from rfl]
  apply BitVec.eq_of_getLsbD_eq
  intro i hi
  simp only [BitVec.getLsbD_append, BitVec.getLsbD_setWidth, BitVec.getLsbD_and,
    BitVec.getLsbD_ushiftRight, getLsbD_lowMask]
  grind

theorem decode_gateEntry (base : Word) :
    Gate.decode (gateEntry base 0x08 0x8E).descriptor = interruptGate base := by
  have hkind : (0x8E : Byte).extractLsb' 0 5 = 0b01110 := by decide
  have hdpl : (0x8E : Byte).extractLsb' 5 2 = 0 := by decide
  have hpresent : (0x8E : Byte).getLsbD 7 = true := by decide
  simp only [decode_descriptor, gateEntry, interruptGate, halves_append, hkind, hdpl, hpresent]

theorem installGates_idt (image : Image) (gates : List (Byte × Label)) (s : Kernel) (n : Byte) :
    (installGates image gates s).idt n
      = ((lastWrite gates n).map fun label => gateEntry (image.stub label) 0x08 0x8E).getD
          (s.idt n) := by
  rw [← lastWrite_map, ← foldl_update_apply, List.foldl_map, installGates]
  induction gates generalizing s with
  | nil => rfl
  | cons gate gates ih => exact ih _

theorem installGates_eq (image : Image) (gates : List (Byte × Label)) (s : Kernel) :
    installGates image gates s = { s with idt := (installGates image gates s).idt } := by
  rw [installGates]
  induction gates generalizing s with
  | nil => rfl
  | cons gate gates ih => exact ih _

theorem gate_label : ∀ gate ∈ isrGates ++ irqGates, vectorLabel gate.1.toNat = some gate.2 := by
  decide +kernel

theorem exists_gate {vector : Nat} (h : (vectorLabel vector).isSome) :
    ∃ gate ∈ isrGates ++ irqGates, gate.1 = BitVec.ofNat 8 vector := by
  have hlow : ∀ vector < 48, ∃ gate ∈ isrGates ++ irqGates, gate.1 = BitVec.ofNat 8 vector := by
    decide +kernel
  have hsystem : ∃ gate ∈ isrGates ++ irqGates, gate.1 = BitVec.ofNat 8 0x80 := by
    decide +kernel
  rw [vectorLabel] at h
  split_ifs at h with hisr hirq
  · obtain hexception | rfl := hisr
    · exact hlow vector (by omega)
    · exact hsystem
  · exact hlow vector hirq
  · exact absurd h Bool.false_ne_true

theorem installed_gates {vector : Nat} (h : vector < 256) :
    (lastWrite irqGates (BitVec.ofNat 8 vector)).or (lastWrite isrGates (BitVec.ofNat 8 vector))
      = vectorLabel vector := by
  have hvector : (BitVec.ofNat 8 vector).toNat = vector := by
    rw [BitVec.toNat_ofNat, Nat.mod_eq_of_lt h]
  rw [← lastWrite_append]
  cases hlast : lastWrite (isrGates ++ irqGates) (BitVec.ofNat 8 vector) with
  | some label =>
      have hlabel := gate_label _ (mem_of_lastWrite hlast)
      rw [hvector] at hlabel
      exact hlabel.symm
  | none =>
      cases hlabel : vectorLabel vector with
      | none => rfl
      | some label =>
          obtain ⟨gate, hgate, heq⟩ := exists_gate (Option.isSome_of_eq_some hlabel)
          exact absurd heq (lastWrite_eq_none.mp hlast gate hgate)

/-- The IDT after `irq_init`: a gate to its stub for each vector with a label, and nothing for the
others. -/
theorem irqInit_idt (image : Image) (ports : Ports) {vector : Nat} (h : vector < 256) :
    (irqInit image (.boot ports)).idt (BitVec.ofNat 8 vector)
      = ((vectorLabel vector).map fun label => gateEntry (image.stub label) 0x08 0x8E).getD
          ⟨0, 0, 0, 0, 0⟩ := by
  rw [irqInit, irqInstall, installGates_idt, ← installed_gates h]
  change Option.getD _ ((installGates image isrGates _).idt _) = _
  rw [installGates_idt]
  cases lastWrite irqGates (BitVec.ofNat 8 vector) <;> rfl

theorem irqInit_eq (image : Image) (ports : Ports) :
    ∃ idt ports' log, irqInit image (.boot ports)
      = ⟨idt, ⟨8 * 256 - 1, image.idt⟩, fun _ => 0, fun _ => 0, ports', log⟩ := by
  rw [irqInit, irqInstall, installGates_eq, isrInstall, installGates_eq]
  exact ⟨_, _, _, rfl⟩

/-! ### Histories -/

def Served (vector : Nat) : Prop := vector < 48 ∨ vector = 0x80

instance (vector : Nat) : Decidable (Served vector) := inferInstanceAs (Decidable (_ ∨ _))

inductive Event
  | registerInterruptHandler (n : Byte) (handler : Word)
  | registerIrqHandler (n : Byte) (handler : Word)
  | deliver (vector : Nat) (err : Word) (cpu : Cpu)

namespace Event

def run (link : Linkage) (image : Image) (s : Kernel) : Event → Option Kernel
  | registerInterruptHandler n handler => some (Brunix.registerInterruptHandler n handler s)
  | registerIrqHandler n handler => some (Brunix.registerIrqHandler n handler s)
  | deliver vector err cpu => s.deliver link image vector err cpu

/-- Only vectors with a gate are delivered. -/
def Ok : Event → Prop
  | deliver vector _ _ => Served vector
  | _ => True

def interruptWrite : Event → Option (Byte × Word)
  | registerInterruptHandler n handler => some (n, handler)
  | _ => none

def irqWrite : Event → Option (Byte × Word)
  | registerIrqHandler n handler => some (n, handler)
  | _ => none

end Event

def history (link : Linkage) (image : Image) (ports : Ports) (events : List Event) : Option Kernel :=
  events.foldlM (Event.run link image) (irqInit image (.boot ports))

/-- The handler registered last for a vector, through the function for its kind. -/
def registered (events : List Event) (vector : Nat) : Option Word :=
  if 32 ≤ vector ∧ vector < 48 then
    lastWrite (events.filterMap Event.irqWrite) (BitVec.ofNat 8 vector)
  else lastWrite (events.filterMap Event.interruptWrite) (BitVec.ofNat 8 vector)

/-- The calls an interrupt makes, given the handler registered for it. -/
def expectedCalls (handler : Option Word) (frame : Word) : List (Word × Word) :=
  match handler with
  | some handler => if handler = 0 then [] else [(handler, frame)]
  | none => []

/-! ### One interrupt -/

theorem served_stub {vector : Nat} (h : Served vector) :
    ∃ stub, vectorStub vector = some stub ∧ vectorLabel vector = some stub.label
      ∧ stub.callee = if 32 ≤ vector ∧ vector < 48 then .irqHandler else .isrHandler := by
  have htable : ∀ v < 129, Served v →
      ∃ stub ∈ vectorStub v, vectorLabel v = some stub.label
        ∧ stub.callee = if 32 ≤ v ∧ v < 48 then .irqHandler else .isrHandler := by
    decide +kernel
  have hlt : vector < 129 := by
    rw [Served] at h
    omega
  obtain ⟨stub, hstub, hlabel, hcallee⟩ := htable vector hlt h
  exact ⟨stub, hstub, hlabel, hcallee⟩

theorem vectorLabel_unserved {vector : Nat} (h : ¬ Served vector) : vectorLabel vector = none := by
  rw [Served] at h
  rw [vectorLabel, if_neg (by omega), if_neg (by omega)]

theorem handlerCalls_picAcknowledge (intNo : Word) : handlerCalls (picAcknowledge intNo) = [] := by
  rw [picAcknowledge]
  split <;> rfl

theorem handlerCalls_if (handler frame : Word) :
    handlerCalls (if handler ≠ 0 then [.call handler frame] else [])
      = expectedCalls (some handler) frame := by
  rw [expectedCalls]
  by_cases hnull : handler = 0
  · rw [if_neg (not_not_intro hnull), if_pos hnull]
    rfl
  · rw [if_pos hnull, if_neg hnull]
    rfl

theorem isrHandler_calls (handlers : Byte → Word) (frame : Word) {regs : Registers} {vector : Nat}
    (hno : regs.intNo = BitVec.ofNat 32 vector) :
    handlerCalls (isrHandler handlers frame regs)
      = expectedCalls (some (handlers (BitVec.ofNat 8 vector))) frame := by
  have hmask : (regs.intNo &&& 0xFF).setWidth 8 = BitVec.ofNat 8 vector := by
    apply BitVec.eq_of_toNat_eq
    rw [hno, BitVec.toNat_setWidth, BitVec.toNat_and, show (0xFF : Word).toNat = 2 ^ 8 - 1 from rfl,
      Nat.and_two_pow_sub_one_eq_mod, BitVec.toNat_ofNat, BitVec.toNat_ofNat]
    omega
  rw [isrHandler, hmask, expectedCalls]
  by_cases hnull : handlers (BitVec.ofNat 8 vector) = 0
  · rw [if_neg (not_not_intro hnull), if_pos hnull]
    rfl
  · rw [if_pos hnull, if_neg hnull]
    rfl

theorem irqHandler_calls (handlers : Byte → Word) (frame : Word) {regs : Registers} {vector : Nat}
    (hlt : vector < 256) (hno : regs.intNo = BitVec.ofNat 32 vector) :
    ∃ actions, irqHandler handlers frame regs = some actions
      ∧ handlerCalls actions
        = expectedCalls (some (handlers (BitVec.ofNat 8 vector))) frame := by
  have hindex : handlerAt handlers regs.intNo = some (handlers (BitVec.ofNat 8 vector)) := by
    have hlt' : BitVec.ofNat 32 vector < 256 := by
      rw [BitVec.lt_def, BitVec.toNat_ofNat]
      exact (Nat.mod_le _ _).trans_lt hlt
    rw [handlerAt, hno, if_pos hlt', BitVec.setWidth_ofNat_of_le (by decide)]
  refine ⟨_, by rw [irqHandler, hindex]; rfl, ?_⟩
  rw [handlerCalls, List.filterMap_append, List.filterMap_append, ← handlerCalls, ← handlerCalls,
    ← handlerCalls, handlerCalls_picAcknowledge, handlerCalls_if]
  split <;> rfl

/-- The IDT is as `irq_init` left it. -/
structure Installed (image : Image) (s : Kernel) : Prop where
  idtPtr : s.idtPtr = ⟨8 * 256 - 1, image.idt⟩
  idt : ∀ vector < 256, s.idt (BitVec.ofNat 8 vector)
    = ((vectorLabel vector).map fun label => gateEntry (image.stub label) 0x08 0x8E).getD
        ⟨0, 0, 0, 0, 0⟩

theorem Installed.gate {image : Image} {s : Kernel} (h : Installed image s) {vector : Nat}
    {label : Label} (hlt : vector < 256) (hlabel : vectorLabel vector = some label) :
    Gate.decode (s.idt (BitVec.ofNat 8 vector)).descriptor = interruptGate (image.stub label) := by
  rw [h.idt vector hlt, hlabel]
  exact decode_gateEntry _

/-- The table of handlers an interrupt looks its handler up in. -/
def Kernel.table (s : Kernel) (vector : Nat) : Byte → Word :=
  if 32 ≤ vector ∧ vector < 48 then s.irqHandlers else s.interruptHandlers

theorem deliver_spec (link : Linkage) {image : Image} {s : Kernel} (h : Installed image s)
    {vector : Nat} (hserved : Served vector) (err : Word) (cpu : Cpu) {stub : Stub}
    (hstub : vectorStub vector = some stub) :
    ∃ actions, s.deliver link image vector err cpu = some (s.perform actions)
      ∧ handlerCalls actions = expectedCalls (some (s.table vector (BitVec.ofNat 8 vector)))
        (callEntry link stub
          (cpu.interrupt vector err 0x08 (image.stub stub.label))).argument := by
  obtain ⟨stub', hstub', hlabel, hcallee⟩ := served_stub hserved
  obtain rfl : stub' = stub := Option.some.inj (hstub'.symm.trans hstub)
  have hlt : vector < 256 := by
    rw [Served] at hserved
    omega
  have hlimit : 8 * vector + 7 ≤ (8 * 256 - 1 : BitVec 16).toNat := by
    rw [show (8 * 256 - 1 : BitVec 16).toNat = 2047 from rfl]
    omega
  have hno := callEntry_intNo link (vectorStub_serves hstub) err 0x08 (image.stub stub'.label) cpu
  rw [Kernel.deliver, hstub, h.gate hlt hlabel, h.idtPtr]
  simp only [Option.bind_eq_bind, Option.bind_some]
  rw [if_pos ⟨trivial, hlimit, rfl, rfl, rfl⟩]
  change ∃ actions, Option.bind (s.handlerActions _ _ stub'.callee) _ = _ ∧ _
  rw [hcallee, Kernel.table]
  split
  · obtain ⟨actions, hactions, hcalls⟩ := irqHandler_calls s.irqHandlers _ hlt hno
    exact ⟨actions, by rw [Kernel.handlerActions]; exact congrArg (Option.bind · _) hactions, hcalls⟩
  · exact ⟨_, rfl, isrHandler_calls s.interruptHandlers _ hno⟩

/-! ### Any history -/

/-- The kernel after a history: the IDT as installed, and each table with its last registrations. -/
structure Tracks (image : Image) (events : List Event) (s : Kernel) : Prop where
  installed : Installed image s
  interruptHandlers : ∀ n, s.interruptHandlers n
    = (lastWrite (events.filterMap Event.interruptWrite) n).getD 0
  irqHandlers : ∀ n, s.irqHandlers n = (lastWrite (events.filterMap Event.irqWrite) n).getD 0

theorem irqInit_tracks (image : Image) (ports : Ports) :
    Tracks image [] (irqInit image (.boot ports)) := by
  obtain ⟨idt, ports', log, hinit⟩ := irqInit_eq image ports
  refine ⟨⟨?_, fun vector hlt => irqInit_idt image ports hlt⟩, ?_, ?_⟩ <;> rw [hinit] <;>
    first | rfl | exact fun _ => rfl

theorem Event.run_tracks (link : Linkage) {image : Image} {events : List Event} {s : Kernel}
    (h : Tracks image events s) (event : Event) (hok : event.Ok) :
    ∃ s', event.run link image s = some s' ∧ Tracks image (events ++ [event]) s' := by
  cases event with
  | registerInterruptHandler n handler =>
      refine ⟨_, rfl, ⟨h.installed.idtPtr, h.installed.idt⟩, fun m => ?_, fun m => ?_⟩
      · rw [List.filterMap_append]
        refine Eq.trans ?_ (congrArg (Option.getD · 0) (lastWrite_concat _ n handler m)).symm
        rw [apply_ite (Option.getD · 0), ← h.interruptHandlers]
        exact Function.update_apply _ _ _ _
      · rw [List.filterMap_append]
        exact (h.irqHandlers m).trans (by rw [List.filterMap_cons_none rfl, List.filterMap_nil,
          List.append_nil])
  | registerIrqHandler n handler =>
      refine ⟨_, rfl, ⟨h.installed.idtPtr, h.installed.idt⟩, fun m => ?_, fun m => ?_⟩
      · rw [List.filterMap_append]
        exact (h.interruptHandlers m).trans (by rw [List.filterMap_cons_none rfl, List.filterMap_nil,
          List.append_nil])
      · rw [List.filterMap_append]
        refine Eq.trans ?_ (congrArg (Option.getD · 0) (lastWrite_concat _ n handler m)).symm
        rw [apply_ite (Option.getD · 0), ← h.irqHandlers]
        exact Function.update_apply _ _ _ _
  | deliver vector err cpu =>
      obtain ⟨stub, hstub, -, -⟩ := served_stub hok
      obtain ⟨actions, hrun, -⟩ := deliver_spec link h.installed hok err cpu hstub
      refine ⟨_, hrun, ⟨h.installed.idtPtr, h.installed.idt⟩, fun m => ?_, fun m => ?_⟩
      · rw [List.filterMap_append, List.filterMap_cons_none rfl, List.filterMap_nil, List.append_nil]
        exact h.interruptHandlers m
      · rw [List.filterMap_append, List.filterMap_cons_none rfl, List.filterMap_nil, List.append_nil]
        exact h.irqHandlers m

theorem history_tracks (link : Linkage) (image : Image) (ports : Ports) (events : List Event)
    (hok : ∀ event ∈ events, event.Ok) :
    ∃ s, history link image ports events = some s ∧ Tracks image events s := by
  induction events using List.reverseRecOn with
  | nil => exact ⟨_, rfl, irqInit_tracks image ports⟩
  | append_singleton events event ih =>
      obtain ⟨s, hrun, htracks⟩ := ih fun e he => hok e (by simp [he])
      obtain ⟨s', hstep, htracks'⟩ := Event.run_tracks link htracks event (hok event (by simp))
      refine ⟨s', ?_, htracks'⟩
      rw [history, List.foldlM_append, ← history, hrun]
      simp only [Option.bind_eq_bind, Option.bind_some, List.foldlM_cons, List.foldlM_nil, hstep]
      rfl

theorem Tracks.table_eq {image : Image} {events : List Event} {s : Kernel}
    (h : Tracks image events s) (vector : Nat) :
    s.table vector (BitVec.ofNat 8 vector) = (registered events vector).getD 0 := by
  rw [Kernel.table, registered]
  split
  · exact h.irqHandlers _
  · exact h.interruptHandlers _

theorem expectedCalls_getD (handler : Option Word) (frame : Word) :
    expectedCalls (some (handler.getD 0)) frame = expectedCalls handler frame := by
  cases handler with
  | none => rfl
  | some handler => rfl

theorem registered_irqHandler (events : List Event) (n : Byte) (handler : Word) (vector : Nat) :
    registered (events ++ [.registerIrqHandler n handler]) vector
      = if (32 ≤ vector ∧ vector < 48) ∧ BitVec.ofNat 8 vector = n then some handler
        else registered events vector := by
  have hirq : (events ++ [Event.registerIrqHandler n handler]).filterMap Event.irqWrite
      = events.filterMap Event.irqWrite ++ [(n, handler)] := List.filterMap_append
  have hinterrupt : (events ++ [Event.registerIrqHandler n handler]).filterMap Event.interruptWrite
      = events.filterMap Event.interruptWrite := by
    rw [List.filterMap_append, List.filterMap_cons_none rfl, List.filterMap_nil, List.append_nil]
  rw [registered, registered, hirq, hinterrupt, lastWrite_concat]
  split_ifs <;> simp_all

theorem registered_interruptHandler (events : List Event) (n : Byte) (handler : Word)
    (vector : Nat) :
    registered (events ++ [.registerInterruptHandler n handler]) vector
      = if ¬ (32 ≤ vector ∧ vector < 48) ∧ BitVec.ofNat 8 vector = n then some handler
        else registered events vector := by
  have hirq : (events ++ [Event.registerInterruptHandler n handler]).filterMap Event.irqWrite
      = events.filterMap Event.irqWrite := by
    rw [List.filterMap_append, List.filterMap_cons_none rfl, List.filterMap_nil, List.append_nil]
  have hinterrupt : (events ++ [Event.registerInterruptHandler n handler]).filterMap
      Event.interruptWrite = events.filterMap Event.interruptWrite ++ [(n, handler)] :=
    List.filterMap_append
  rw [registered, registered, hirq, hinterrupt, lastWrite_concat]
  split_ifs <;> simp_all

/-- After any registrations and interrupts, each vector the kernel serves has an interrupt gate to its
stub, the stub calls the C function of its kind with the number of the vector, and that function calls
the handler, with the address of the frame, once. The gates of all other vectors are not present. One
more registration changes the handler of its own vector, in the table of its own kind, and no other. -/
theorem dispatch_last_registered (link : Linkage) (image : Image) (ports : Ports)
    (events : List Event) (hok : ∀ event ∈ events, event.Ok) :
    ∃ s, history link image ports events = some s
      ∧ (∀ vector, Served vector → ∃ stub, vectorStub vector = some stub
        ∧ Gate.decode (s.idt (BitVec.ofNat 8 vector)).descriptor
          = interruptGate (image.stub stub.label)
        ∧ stub.callee = (if 32 ≤ vector ∧ vector < 48 then .irqHandler else .isrHandler)
        ∧ ∀ (err : Word) (cpu : Cpu) (entry : Cpu),
          entry = callEntry link stub (cpu.interrupt vector err 0x08 (image.stub stub.label)) →
          (Registers.read entry.mem entry.argument).intNo = BitVec.ofNat 32 vector
            ∧ ∃ actions, s.deliver link image vector err cpu = some (s.perform actions)
              ∧ handlerCalls actions = expectedCalls (registered events vector) entry.argument)
      ∧ (∀ vector < 256, ¬ Served vector →
        (Gate.decode (s.idt (BitVec.ofNat 8 vector)).descriptor).present = false)
      ∧ ∀ (n : Byte) (handler : Word) (vector : Nat),
        registered (events ++ [.registerIrqHandler n handler]) vector
            = (if (32 ≤ vector ∧ vector < 48) ∧ BitVec.ofNat 8 vector = n then some handler
              else registered events vector)
          ∧ registered (events ++ [.registerInterruptHandler n handler]) vector
            = (if ¬ (32 ≤ vector ∧ vector < 48) ∧ BitVec.ofNat 8 vector = n then some handler
              else registered events vector) := by
  obtain ⟨s, hrun, htracks⟩ := history_tracks link image ports events hok
  refine ⟨s, hrun, fun vector hserved => ?_, fun vector hlt hserved => ?_, fun n handler vector =>
    ⟨registered_irqHandler events n handler vector,
      registered_interruptHandler events n handler vector⟩⟩
  · obtain ⟨stub, hstub, hlabel, hcallee⟩ := served_stub hserved
    have hlt : vector < 256 := by
      rw [Served] at hserved
      omega
    refine ⟨stub, hstub, htracks.installed.gate hlt hlabel, hcallee, ?_⟩
    intro err cpu frame hframe
    subst hframe
    refine ⟨callEntry_intNo link (vectorStub_serves hstub) err 0x08 _ cpu, ?_⟩
    obtain ⟨actions, hdeliver, hcalls⟩ := deliver_spec link htracks.installed hserved err cpu hstub
    rw [htracks.table_eq, expectedCalls_getD] at hcalls
    exact ⟨actions, hdeliver, hcalls⟩
  · rw [htracks.installed.idt vector hlt, vectorLabel_unserved hserved]
    simp [decode_descriptor]

/-- The stubs 32 bytes apart, first those of the exceptions. -/
def sampleStub : Label → Word
  | .isr n => 0x00100400 + 32 * BitVec.ofNat 32 n
  | .irq n => 0x00101500 + 32 * BitVec.ofNat 32 n

def sampleImage : Image := ⟨sampleStub, 0x00110000⟩

def samplePorts : Ports := ⟨⟨.ready, 0xB8, 8, 4, 0⟩, ⟨.ready, 0x8E, 0x70, 2, 0⟩, 0⟩

/-- The keyboard after two registrations of its own and one in the other table, with an interrupt
between them: the second handler is called. -/
theorem dispatch_keyboard :
    ∃ s, history returning sampleImage samplePorts
        [.registerIrqHandler 33 0x00103000, .registerInterruptHandler 33 0x00104000,
          .deliver 33 0 program, .registerIrqHandler 33 0x00105000] = some s
      ∧ ∃ actions frame, s.deliver returning sampleImage 33 0 program = some (s.perform actions)
        ∧ handlerCalls actions = [(0x00105000, frame)] := by
  have hok : ∀ event ∈ [Event.registerIrqHandler 33 0x00103000,
      .registerInterruptHandler 33 0x00104000, .deliver 33 0 program,
      .registerIrqHandler 33 0x00105000], event.Ok := by
    simp only [List.forall_mem_cons]
    exact ⟨trivial, trivial, .inl (by decide), trivial, List.forall_mem_nil _⟩
  obtain ⟨s, hrun, hserved, -⟩ := dispatch_last_registered returning sampleImage samplePorts _ hok
  obtain ⟨stub, -, -, -, hdeliver⟩ := hserved 33 (.inl (by decide))
  obtain ⟨-, actions, hrun', hcalls⟩ := hdeliver 0 program _ rfl
  exact ⟨s, hrun, actions, _, hrun', hcalls⟩

end Brunix
