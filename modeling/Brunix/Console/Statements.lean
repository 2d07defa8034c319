import Brunix.Basis.Thread
import Brunix.Console.Vga

/-!
# `vga_putc`, statement by statement

An interrupt finds `vga_putc` between two statements. Its code is given again as a thread whose steps
are the statements, the tests, the iterations of the loops of `scroll` and the calls of `outb`. Run
alone the thread is `vga_putc`. Which statements it passes depends on the character and the cursor and
on nothing else.
-/

namespace Brunix

open Vga Basis Thread

/-- The statements of `vga_putc` and of the functions it calls, each named by what it does. -/
inductive Point
  | attributeByte
  | attributeWord
  | testBackspace
  | decX
  | testTab
  | tabX
  | testReturn
  | returnX
  | testNewline
  | newlineX
  | newlineY
  | testPrintable
  | location
  | store
  | incX
  | testWrap
  | wrapX
  | wrapY
  | scrollAttribute
  | scrollBlank
  | testScroll
  | copy (i : Nat)
  | fill (i : Nat)
  | setRow
  | cursorLocation
  | outHighCommand
  | outHigh
  | outLowCommand
  | outLow
  deriving DecidableEq, Repr

/-- A printable character: its cell is addressed, stored, and passed. -/
def printThread (c : Byte) (attributeWord : Cell) : Thread Point Vga :=
  step .location id fun s =>
    let location := s.cursorY * 80 + s.cursorX
    step .store (storeCell location (c.setWidth 16 ||| attributeWord)) fun _ =>
      statement .incX fun s => s.setCursorX (s.cursorX + 1)

/-- The branches on the character, tested in turn. -/
def branchThread (c : Byte) (attributeWord : Cell) : Thread Point Vga :=
  test .testBackspace (fun s => c = 0x08 ∧ s.cursorX ≠ 0)
    (statement .decX fun s => s.setCursorX (s.cursorX - 1)) <|
  test .testTab (fun _ => c = 0x09)
    (statement .tabX fun s => s.setCursorX (tabStop s.cursorX)) <|
  test .testReturn (fun _ => c = 0x0D) (statement .returnX (setCursorX 0)) <|
  test .testNewline (fun _ => c = 0x0A)
    (step .newlineX (setCursorX 0) fun _ =>
      statement .newlineY fun s => s.setCursorY (s.cursorY + 1)) <|
  test .testPrintable (fun _ => 0x20 ≤ c) (printThread c attributeWord) done

def characterThread (c : Byte) : Thread Point Vga :=
  step .attributeByte id fun s =>
    let attributeByte := s.attributeByte
    step .attributeWord id fun _ => branchThread c (attributeByte.setWidth 16 <<< 8)

def wrapThread : Thread Point Vga :=
  test .testWrap (fun s => 80 ≤ s.cursorX)
    (step .wrapX (setCursorX 0) fun _ => statement .wrapY fun s => s.setCursorY (s.cursorY + 1)) done

def scrollLoops : Thread Point Vga :=
  (loop .copy (fun i => copyCell i (i + 80)) (24 * 80 - 0 * 80) (0 * 80)).andThen <|
  (loop .fill (fun i => storeCell i blank) (25 * 80 - 24 * 80) (24 * 80)).andThen <|
  statement .setRow (setCursorY 24)

def scrollThread : Thread Point Vga :=
  step .scrollAttribute id fun _ => step .scrollBlank id fun _ =>
    test .testScroll (fun s => 25 ≤ s.cursorY) scrollLoops done

def outThread (location : BitVec 16) : Thread Point Vga :=
  step .outHighCommand (outb fbCommandPort fbHighByteCommand) fun _ =>
  step .outHigh (outb fbDataPort ((location >>> 8).setWidth 8)) fun _ =>
  step .outLowCommand (outb fbCommandPort fbLowByteCommand) fun _ =>
  statement .outLow (outb fbDataPort (location.setWidth 8))

def moveCursorThread : Thread Point Vga :=
  step .cursorLocation setCursorLocation fun s => outThread s.cursorLocation

def vgaPutcThread (c : Byte) : Thread Point Vga :=
  (characterThread c).andThen (wrapThread.andThen (scrollThread.andThen moveCursorThread))

/-! ### Run alone -/

/-- The attribute is the one of the state its local variable was computed in. -/
theorem run_printThread (c : Byte) (s u : Vga) :
    (printThread c (s.attributeByte.setWidth 16 <<< 8)).run u
      = (u.storeCell (u.cursorY * 80 + u.cursorX) (glyph c s)).setCursorX (u.cursorX + 1) := rfl

theorem run_branchThread {s u : Vga} (h : u.attributeByte = s.attributeByte) (c : Byte) :
    (branchThread c (s.attributeByte.setWidth 16 <<< 8)).run u = putcBranch c u := by
  simp only [branchThread, run, run_test, run_statement, run_printThread, setCursorX_cursorY,
    putcBranch, glyph, h]

@[simp] theorem run_characterThread (c : Byte) (s : Vga) :
    (characterThread c).run s = putcBranch c s :=
  run_branchThread rfl c

@[simp] theorem run_wrapThread (s : Vga) : wrapThread.run s = wrapLine s := by
  simp only [wrapThread, run, run_test, run_statement, wrapLine]
  rfl

theorem run_scrollLoops (s : Vga) :
    scrollLoops.run s
      = (s |> forRange (0 * 80) (24 * 80) (fun i => copyCell i (i + 80))
           |> forRange (24 * 80) (25 * 80) (fun i => storeCell i blank)
           |> setCursorY 24) := by
  simp only [scrollLoops, run_andThen, run_loop, run_statement, forRange]

@[simp] theorem run_scrollThread (s : Vga) : scrollThread.run s = scroll s := by
  simp only [scrollThread, run, id, run_test, run_scrollLoops, scroll]

@[simp] theorem run_moveCursorThread (s : Vga) : moveCursorThread.run s = moveCursor s := rfl

/-- The statements together are the function. -/
theorem run_vgaPutcThread (c : Byte) (s : Vga) : (vgaPutcThread c).run s = vgaPutc s c := by
  simp only [vgaPutcThread, run_andThen, run_characterThread, run_wrapThread, run_scrollThread,
    run_moveCursorThread, vgaPutc]

/-! ### The statements passed -/

def SameCursor (s s' : Vga) : Prop := s.cursorX = s'.cursorX ∧ s.cursorY = s'.cursorY

theorem lockstep_characterThread (c : Byte) :
    Lockstep SameCursor (characterThread c) (characterThread c) := by
  refine ⟨rfl, fun s s' hcursor => ⟨hcursor, rfl, fun _ _ hcursor => ⟨hcursor, ?_⟩⟩⟩
  refine lockstep_test _ (fun s s' h => by rw [h.1]) (lockstep_statement _ fun s s' h => ?_) <|
    lockstep_test _ (fun _ _ _ => Iff.rfl) (lockstep_statement _ fun s s' h => ?_) <|
    lockstep_test _ (fun _ _ _ => Iff.rfl) (lockstep_statement _ fun s s' h => ?_) <|
    lockstep_test _ (fun _ _ _ => Iff.rfl)
      ⟨rfl, fun s s' h => ⟨?_, lockstep_statement _ fun s s' h => ?_⟩⟩ <|
    lockstep_test _ (fun _ _ _ => Iff.rfl)
      ⟨rfl, fun s s' h => ⟨h, rfl, fun s s' h => ⟨h, lockstep_statement _ fun s s' h => ?_⟩⟩⟩ trivial
  all_goals simp only [SameCursor, setCursorX_cursorX, setCursorX_cursorY, setCursorY_cursorX,
    setCursorY_cursorY, h.1, h.2, and_self]

theorem lockstep_vgaPutcThread (c : Byte) :
    Lockstep SameCursor (vgaPutcThread c) (vgaPutcThread c) := by
  have hwrap : Lockstep SameCursor wrapThread wrapThread := by
    refine lockstep_test _ (fun s s' h => by rw [h.1])
      ⟨rfl, fun s s' h => ⟨⟨rfl, h.2⟩, lockstep_statement _ fun s s' h => ⟨h.1, ?_⟩⟩⟩ trivial
    rw [setCursorY_cursorY, setCursorY_cursorY, h.2]
  have hloops : Lockstep SameCursor scrollLoops scrollLoops :=
    lockstep_andThen (lockstep_loop _ (fun i s s' h => ⟨h.1, h.2⟩) _ _) <|
    lockstep_andThen (lockstep_loop _ (fun i s s' h => ⟨h.1, h.2⟩) _ _) <|
    lockstep_statement _ fun _ _ h => ⟨h.1, rfl⟩
  have hscroll : Lockstep SameCursor scrollThread scrollThread :=
    ⟨rfl, fun _ _ h => ⟨h, rfl, fun _ _ h =>
      ⟨h, lockstep_test _ (fun s s' h => by rw [h.2]) hloops trivial⟩⟩⟩
  have hmove : Lockstep SameCursor moveCursorThread moveCursorThread :=
    ⟨rfl, fun _ _ h => ⟨h, rfl, fun _ _ h => ⟨h, rfl, fun _ _ h => ⟨h, rfl, fun _ _ h =>
      ⟨h, lockstep_statement _ fun _ _ h => h⟩⟩⟩⟩⟩
  exact lockstep_andThen (lockstep_characterThread c) <| lockstep_andThen hwrap <|
    lockstep_andThen hscroll hmove

/-- Two consoles with the cursor at the same place are interrupted at the same statement. -/
theorem point_after {s s' : Vga} (h : SameCursor s s') (c : Byte) (n : Nat) :
    (after n (vgaPutcThread c) s).1.point = (after n (vgaPutcThread c) s').1.point :=
  (lockstep_vgaPutcThread c).point_after h n

end Brunix
