import Brunix.Basis.Memory

/-!
# The two 8259 interrupt controllers

A controller takes four initialisation words through two ports, and what a write to its data port
means depends on how many of them it has seen. The slave reports through line 2 of the master. A
request that a controller hands to the processor is in service until an end of interrupt clears it,
and a spurious one, which the controller reports on its line 7, never is.
-/

namespace Brunix

open Basis

/-! ### The controllers -/

inductive PicStage
  | ready
  | icw2
  | icw3
  | icw4
  deriving DecidableEq

structure Pic where
  stage : PicStage
  mask : Byte
  base : Byte
  cascade : Byte
  inService : Byte

/-- Clears the lowest set bit, which has the highest priority. -/
def clearHighest (inService : Byte) : Byte := inService &&& (inService - 1)

/-! ### `asm/irq.h` -/

def pic1 : BitVec 16 := 0x20
def pic2 : BitVec 16 := 0xA0
def pic1Command : BitVec 16 := pic1
def pic1Data : BitVec 16 := pic1 + 1
def pic2Command : BitVec 16 := pic2
def pic2Data : BitVec 16 := pic2 + 1
def picEoi : Byte := 0x20

namespace Pic

/-- A write to the command port. -/
def command (value : Byte) (pic : Pic) : Pic :=
  if value = 0x11 then { pic with stage := .icw2, mask := 0 }
  else if value = picEoi then { pic with inService := clearHighest pic.inService }
  else pic

def data (value : Byte) (pic : Pic) : Pic :=
  match pic.stage with
  | .icw2 => { pic with base := value, stage := .icw3 }
  | .icw3 => { pic with cascade := value, stage := .icw4 }
  | .icw4 => { pic with stage := .ready }
  | .ready => { pic with mask := value }

/-- The vector of a line. The low bits of the base are not used. -/
def vector (pic : Pic) (line : Fin 8) : Byte := (pic.base &&& 0xF8) ||| BitVec.ofNat 8 line

def serve (line : Fin 8) (pic : Pic) : Pic :=
  { pic with inService := pic.inService ||| (1#8 <<< line.val) }

end Pic

/-! ### Ports -/

def speakerPort : BitVec 16 := 0x61

structure Ports where
  master : Pic
  slave : Pic
  speaker : Byte

namespace Ports

def outb (port : BitVec 16) (value : Byte) (s : Ports) : Ports :=
  if port = pic1Command then { s with master := s.master.command value }
  else if port = pic1Data then { s with master := s.master.data value }
  else if port = pic2Command then { s with slave := s.slave.command value }
  else if port = pic2Data then { s with slave := s.slave.data value }
  else if port = speakerPort then { s with speaker := value }
  else s

def inb (port : BitVec 16) (s : Ports) : Byte :=
  if port = pic1Data then s.master.mask
  else if port = pic2Data then s.slave.mask
  else if port = speakerPort then s.speaker
  else 0xFF

def Idle (s : Ports) : Prop := s.master.inService = 0 ∧ s.slave.inService = 0

end Ports

/-! ### `pic_remap` -/

def picRemap (offset1 offset2 : Word) (s : Ports) : Ports :=
  let a1 := s.inb pic1Data
  let a2 := s.inb pic2Data
  s |> Ports.outb pic1Command 0x11
    |> Ports.outb pic2Command 0x11
    |> Ports.outb pic1Data (offset1.setWidth 8)
    |> Ports.outb pic2Data (offset2.setWidth 8)
    |> Ports.outb pic1Data 0x04
    |> Ports.outb pic2Data 0x02
    |> Ports.outb pic1Data 0x01
    |> Ports.outb pic2Data 0x01
    |> Ports.outb pic1Data a1
    |> Ports.outb pic2Data a2

/-- Whatever the controllers were doing, remapping initialises both and gives them their masks
back. -/
theorem picRemap_spec (offset1 offset2 : Word) (s : Ports) :
    picRemap offset1 offset2 s = {
      master := ⟨.ready, s.master.mask, offset1.setWidth 8, 0x04, s.master.inService⟩
      slave := ⟨.ready, s.slave.mask, offset2.setWidth 8, 0x02, s.slave.inService⟩
      speaker := s.speaker } := rfl

/-! ### Requests -/

/-- What the controllers may hand to the processor: a line of the master that no slave is on, a line
of the slave, or a line 7 that was gone before it could be served. -/
inductive Request
  | master (line : Fin 8) (hline : line ≠ 2)
  | slave (line : Fin 8)
  | spuriousMaster
  | spuriousSlave

namespace Request

/-- The bits a request sets. The slave is in service on the master even when its line is gone. -/
def accept (s : Ports) : Request → Ports
  | master line _ => { s with master := s.master.serve line }
  | slave line => { s with master := s.master.serve 2, slave := s.slave.serve line }
  | spuriousMaster => s
  | spuriousSlave => { s with master := s.master.serve 2 }

def vector (s : Ports) : Request → Byte
  | master line _ => s.master.vector line
  | slave line => s.slave.vector line
  | spuriousMaster => s.master.vector 7
  | spuriousSlave => s.slave.vector 7

/-- The line, from 0 to 15 over both controllers. -/
def irq : Request → Nat
  | master line _ => line.val
  | slave line => 8 + line.val
  | spuriousMaster => 7
  | spuriousSlave => 15

end Request

end Brunix
