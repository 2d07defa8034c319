import Brunix.Basis.Program
import Brunix.Interrupt.Dispatch
import Mathlib.Order.Monotone.Basic

/-!
# The interval timer and `timer_init`

Channel 0 of the 8254 takes its count as two bytes through one port, so between them the channel is in
a state in which another write there would be taken for the second one. Interrupts are on when the
kernel does that, and what they write goes to other ports. The count has 16 bits, a count of zero
stands for 65536 and one is not allowed, so not every frequency can be had. Between the bytes the kernel
waits on the time stamp counter, whose difference is right even when the counter wraps around.
-/

namespace Brunix

open Basis

/-! ### The 8254 -/

/-- Channel 0. -/
structure Pit where
  access : BitVec 2
  mode : BitVec 3
  bcd : Bool
  /-- The low byte of a count whose high byte is still to come. -/
  low : Option Byte
  reload : BitVec 16

namespace Pit

def command : BitVec 16 := 0x43
def channel0 : BitVec 16 := 0x40

/-- A control word. The words for other channels, and those that only latch something to be read, leave
the channel alone. -/
def control (value : Byte) (pit : Pit) : Pit :=
  if value.extractLsb' 6 2 = 0 ∧ value.extractLsb' 4 2 ≠ 0 then
    { pit with
      access := value.extractLsb' 4 2
      mode := value.extractLsb' 1 3
      bcd := value.getLsbD 0
      low := none }
  else pit

def data (value : Byte) (pit : Pit) : Pit :=
  if pit.access = 1 then { pit with reload := 0#8 ++ value }
  else if pit.access = 2 then { pit with reload := value ++ 0#8 }
  else
    match pit.low with
    | none => { pit with low := some value }
    | some low => { pit with low := none, reload := value ++ low }

def outb (port : BitVec 16) (value : Byte) (pit : Pit) : Pit :=
  if port = command then pit.control value
  else if port = channel0 then pit.data value
  else pit

/-- The cycles of its clock from one interrupt to the next, in mode 3 and counting in binary. The
smallest count of that mode is 2. -/
def period (pit : Pit) : Option Nat :=
  if pit.reload = 0 then some 65536 else if pit.reload = 1 then none else some pit.reload.toNat

end Pit

namespace Action

/-- No `outbOr` of the kernel is on a port of the timer. -/
def onPit (pit : Pit) : Action → Pit
  | .outb port value => pit.outb port value
  | _ => pit

def touchesPit : Action → Bool
  | .outb port _ | .outbOr port _ => port == Pit.command || port == Pit.channel0
  | _ => false

end Action

/-! ### `timer.c` -/

/-- The division of `timer_init`, which traps on zero. -/
def timerDivisor (frequency : Word) : Option Word :=
  if frequency = 0 then none else some (1193180 / frequency)

/-- What `irq_handler` does for some requests, one after another. -/
inductive ServedActions : List Action → Prop
  | nil : ServedActions []
  | cons {handlers : Byte → Word} {frame : Word} {regs : Registers} {actions later : List Action}
      (hactions : irqHandler handlers frame regs = some actions) (hlater : ServedActions later) :
      ServedActions (actions ++ later)

/-- The port writes of `timer_init`. -/
def timerWrites (divisor : Word) : List Action :=
  let l : Byte := (divisor &&& 0xFF).setWidth 8
  let h : Byte := ((divisor >>> 8) &&& 0xFF).setWidth 8
  [.outb Pit.command 0x36, .outb Pit.channel0 l, .outb Pit.channel0 h]

/-- The loop of `WAIT_SOME_TIME`, given the value of each `rdtsc` and that of the first one, from the
`i`-th on. It returns the number of reads of the loop. -/
def waitLoop (rdtsc : Nat → BitVec 64) (start : BitVec 64) : Nat → Nat → Option Nat
  | 0, _ => none
  | fuel + 1, i =>
      if rdtsc i - start < 1000000 then waitLoop rdtsc start fuel (i + 1) else some i

def waitSomeTime (fuel : Nat) (rdtsc : Nat → BitVec 64) : Option Nat :=
  waitLoop rdtsc (rdtsc 0) fuel 1

/-! ### The count -/

theorem onPit_of_not_touches {action : Action} (h : action.touchesPit = false) (pit : Pit) :
    action.onPit pit = pit := by
  cases action with
  | outb port value =>
      simp only [Action.touchesPit, Bool.or_eq_false_iff, beq_eq_false_iff_ne] at h
      rw [Action.onPit, Pit.outb, if_neg h.1, if_neg h.2]
  | setFgColor | printk | outbOr | call => rfl

/-- The channel only sees the writes to its ports. -/
theorem foldl_onPit_filter (actions : List Action) (pit : Pit) :
    (actions.filter Action.touchesPit).foldl Action.onPit pit = actions.foldl Action.onPit pit := by
  induction actions generalizing pit with
  | nil => rfl
  | cons action actions ih =>
      rw [List.filter_cons]
      split
      · exact ih (action.onPit pit)
      · next h =>
          rw [ih, List.foldl_cons, onPit_of_not_touches (Bool.eq_false_iff.mpr h)]

theorem bytes_append (divisor : Word) :
    (((divisor >>> 8) &&& 0xFF).setWidth 8 : Byte) ++ ((divisor &&& 0xFF).setWidth 8 : Byte)
      = divisor.setWidth 16 := by
  rw [show (0xFF : Word) = BitVec.ofNat 32 (2 ^ 8 - 1) from rfl]
  apply BitVec.eq_of_getLsbD_eq
  intro i hi
  simp only [BitVec.getLsbD_append, BitVec.getLsbD_setWidth, BitVec.getLsbD_and,
    BitVec.getLsbD_ushiftRight, getLsbD_lowMask]
  grind

/-- Whatever the channel was doing, and whatever else is written in between. -/
theorem timerWrites_onPit {divisor : Word} {actions : List Action}
    (hwrites : actions.filter Action.touchesPit = timerWrites divisor) (pit : Pit) :
    actions.foldl Action.onPit pit = ⟨3, 3, false, none, divisor.setWidth 16⟩ := by
  rw [← foldl_onPit_filter, hwrites, ← bytes_append]
  rfl

theorem irqHandler_touchesPit {handlers : Byte → Word} {frame : Word} {regs : Registers}
    {actions : List Action} (hactions : irqHandler handlers frame regs = some actions) :
    actions.filter Action.touchesPit = [] := by
  obtain ⟨handler, -, hsome⟩ := Option.bind_eq_some_iff.mp hactions
  obtain rfl := Option.some.inj hsome
  rw [picAcknowledge]
  split_ifs <;> rfl

theorem ServedActions.touchesPit {served : List Action} (h : ServedActions served) :
    ∀ action ∈ served, action.touchesPit = false := by
  have hfilter : served.filter Action.touchesPit = [] := by
    induction h with
    | nil => rfl
    | cons hactions _ ih => rw [List.filter_append, irqHandler_touchesPit hactions, ih, List.append_nil]
  exact fun action haction => Bool.eq_false_iff.mpr (List.filter_eq_nil_iff.mp hfilter action haction)

theorem timerWrites_touchesPit (divisor : Word) :
    ∀ action ∈ timerWrites divisor, action.touchesPit = true := by
  simp [timerWrites, Action.touchesPit]

theorem toNat_timerDivisor {frequency divisor : Word} (h : timerDivisor frequency = some divisor) :
    0 < frequency.toNat ∧ divisor.toNat = 1193180 / frequency.toNat := by
  rw [timerDivisor] at h
  split at h
  · cases h
  · next hne =>
      obtain rfl := Option.some.inj h
      refine ⟨?_, BitVec.toNat_udiv⟩
      have hzero : frequency.toNat ≠ (0 : Word).toNat := fun heq => hne (BitVec.eq_of_toNat_eq heq)
      exact Nat.pos_of_ne_zero hzero

theorem Pit.period_eq_some_iff {pit : Pit} {divisor : Word} (hreload : pit.reload = divisor.setWidth 16) :
    pit.period = some divisor.toNat ↔ 2 ≤ divisor.toNat ∧ divisor.toNat ≤ 65536 := by
  have hvalue : pit.reload.toNat = divisor.toNat % 65536 := by
    rw [hreload, BitVec.toNat_setWidth]
  have hzero : pit.reload = 0 ↔ divisor.toNat % 65536 = 0 := by
    rw [← hvalue]
    exact BitVec.toNat_inj.symm
  have hone : pit.reload = 1 ↔ divisor.toNat % 65536 = 1 := by
    rw [← hvalue]
    exact BitVec.toNat_inj.symm
  rw [period]
  simp only [hzero, hone, hvalue]
  split_ifs <;> simp only [Option.some.injEq, false_iff, not_and] <;> omega

theorem two_le_div_iff {frequency : Nat} (hpos : 0 < frequency) :
    2 ≤ 1193180 / frequency ∧ 1193180 / frequency ≤ 65536
      ↔ 19 ≤ frequency ∧ frequency ≤ 596590 := by
  have hlow : 1193180 / frequency < 65537 ↔ 19 ≤ frequency := by
    rw [Nat.div_lt_iff_lt_mul hpos]
    omega
  have hhigh : 2 ≤ 1193180 / frequency ↔ frequency ≤ 596590 := by
    rw [Nat.le_div_iff_mul_le hpos]
    omega
  rw [← hlow, ← hhigh]
  omega

/-- Whatever the channel was doing, and whatever requests are served between the writes, `timer_init`
leaves it in mode 3 with its count complete. On a clock of 1193180 Hz, the one `timer_init` reckons with,
the period is the longest that does not go below the frequency asked for, exactly for the frequencies
from 19 to 596590. -/
theorem timerInit_period {frequency divisor : Word} (hdivisor : timerDivisor frequency = some divisor)
    {served actions : List Action} (hserved : ServedActions served)
    (hactions : Interleaves (timerWrites divisor) served actions) (pit : Pit) :
    let pit' := actions.foldl Action.onPit pit
    pit'.mode = 3 ∧ pit'.bcd = false ∧ pit'.low = none
      ∧ ((∃ period, pit'.period = some period ∧ period * frequency.toNat ≤ 1193180
          ∧ 1193180 < (period + 1) * frequency.toNat)
        ↔ 19 ≤ frequency.toNat ∧ frequency.toNat ≤ 596590) := by
  intro pit'
  have hwrites := hactions.filter_eq (timerWrites_touchesPit divisor) hserved.touchesPit
  have hpit : pit' = ⟨3, 3, false, none, divisor.setWidth 16⟩ := timerWrites_onPit hwrites pit
  obtain ⟨hpos, hvalue⟩ := toNat_timerDivisor hdivisor
  have hlongest (period : Nat) : period * frequency.toNat ≤ 1193180
      ∧ 1193180 < (period + 1) * frequency.toNat ↔ period = divisor.toNat := by
    rw [hvalue, eq_comm, Nat.div_eq_iff hpos, Nat.add_mul, Nat.one_mul]
    omega
  have hreload : pit'.reload = divisor.setWidth 16 := by rw [hpit]
  refine ⟨by rw [hpit], by rw [hpit], by rw [hpit], ?_⟩
  simp only [hlongest, exists_eq_right]
  rw [Pit.period_eq_some_iff hreload, hvalue, two_le_div_iff hpos]

theorem timerInit_period_key :
    let key : List Action := picAcknowledge 33 ++ [.call 0x00102000 0x8000]
    let actions : List Action := [.outb Pit.command 0x36] ++ key
      ++ [.outb Pit.channel0 0x9B, .outb Pit.channel0 0x2E]
    let pit : Pit := actions.foldl Action.onPit ⟨1, 0, true, some 0x12, 0⟩
    ∃ period, pit.period = some period ∧ period * 100 ≤ 1193180 ∧ 1193180 < (period + 1) * 100 := by
  intro key actions pit
  have hdivisor : timerDivisor 100 = some 11931 := by decide
  have hkey : irqHandler (fun _ => 0x00102000) 0x8000 { Registers.read (fun _ => 0) 0 with intNo := 33 }
      = some key := rfl
  have hactions : Interleaves (timerWrites 11931) (key ++ []) actions :=
    .left _ ((Interleaves.left _ (.left _ .nil)).append_right key)
  exact (timerInit_period hdivisor (.cons hkey .nil) hactions _).2.2.2.mpr ⟨by decide, by decide⟩

/-! ### The wait -/

theorem waitLoop_spec {rdtsc : Nat → BitVec 64} {start : BitVec 64} {n : Nat}
    (hearly : ∀ j < n, rdtsc j - start < 1000000) (hlate : ¬ rdtsc n - start < 1000000)
    {fuel i : Nat} (hi : i ≤ n) (hfuel : n < fuel + i) : waitLoop rdtsc start fuel i = some n := by
  induction fuel generalizing i with
  | zero => omega
  | succ fuel ih =>
      rw [waitLoop]
      by_cases hdone : i = n
      · rw [hdone, if_neg hlate]
      · rw [if_pos (hearly i (by omega))]
        exact ih (by omega) (by omega)

theorem toNat_ofNat_sub {a b : Nat} (hle : a ≤ b) (hnear : b - a < 2 ^ 64) :
    (BitVec.ofNat 64 b - BitVec.ofNat 64 a).toNat = b - a := by
  rw [BitVec.toNat_sub, BitVec.toNat_ofNat, BitVec.toNat_ofNat]
  omega

/-- On a counter that advances from each read to the next, by less than what would bring it round again,
`WAIT_SOME_TIME` ends at the first read that is a million cycles after the first one, also when the 64
bits of the counter overflow during the wait. -/
theorem waitSomeTime_spec {tsc : Nat → Nat} (hadvances : StrictMono tsc)
    (hgap : ∀ i, tsc (i + 1) - tsc i ≤ 2 ^ 64 - 1000000) {fuel : Nat} (hfuel : 1000000 ≤ fuel) :
    ∃ n, waitSomeTime fuel (fun i => BitVec.ofNat 64 (tsc i)) = some n
      ∧ 1 ≤ n ∧ n ≤ 1000000 ∧ 1000000 ≤ tsc n - tsc 0 ∧ ∀ i < n, tsc i - tsc 0 < 1000000 := by
  have hgrows (i : Nat) : tsc 0 + i ≤ tsc i := by
    induction i with
    | zero => exact Nat.le_refl _
    | succ i ih =>
        have hnext : tsc i < tsc (i + 1) := hadvances (Nat.lt_succ_self i)
        omega
  have hexists : ∃ n, 1000000 ≤ tsc n - tsc 0 := by
    have := hgrows 1000000
    exact ⟨1000000, by omega⟩
  obtain ⟨n, hlate, hfirst⟩ : ∃ n, 1000000 ≤ tsc n - tsc 0 ∧ ∀ i < n, tsc i - tsc 0 < 1000000 :=
    ⟨Nat.find hexists, Nat.find_spec hexists, fun i hi => Nat.not_le.mp (Nat.find_min hexists hi)⟩
  have hpos : 1 ≤ n := by
    by_contra hzero
    obtain rfl : n = 0 := by omega
    omega
  have hbound : n ≤ 1000000 := by
    by_contra hbeyond
    have hbefore := hfirst 1000000 (by omega)
    have := hgrows 1000000
    omega
  have hnear : tsc n - tsc 0 < 2 ^ 64 := by
    have hbefore := hfirst (n - 1) (by omega)
    have hstep := hgap (n - 1)
    rw [Nat.sub_add_cancel hpos] at hstep
    omega
  have htest (i : Nat) (hi : i ≤ n) :
      BitVec.ofNat 64 (tsc i) - BitVec.ofNat 64 (tsc 0) < 1000000 ↔ tsc i - tsc 0 < 1000000 := by
    have hle : tsc i ≤ tsc n := hadvances.monotone hi
    rw [BitVec.lt_def, toNat_ofNat_sub ((Nat.le_add_right _ i).trans (hgrows i)) (by omega)]
    rfl
  refine ⟨n, ?_, hpos, hbound, hlate, hfirst⟩
  refine waitLoop_spec (fun j hj => (htest j (by omega)).mpr (hfirst j hj)) ?_ hpos (by omega)
  rw [htest n (Nat.le_refl n)]
  omega

/-- A counter that is read every 300000 cycles and overflows after the first read. -/
theorem waitSomeTime_overflow :
    waitSomeTime 1000000 (fun i => BitVec.ofNat 64 (2 ^ 64 - 1 + 300000 * i)) = some 4 := by
  have hadvances : StrictMono fun i => 2 ^ 64 - 1 + 300000 * i := by
    intro i j hij
    change 2 ^ 64 - 1 + 300000 * i < 2 ^ 64 - 1 + 300000 * j
    omega
  obtain ⟨n, hrun, -, -, hlate, hfirst⟩ :=
    waitSomeTime_spec hadvances (fun i => by omega) (Nat.le_refl 1000000)
  have hlow : ¬ 4 < n := fun h => absurd (hfirst 4 h) (by decide)
  obtain rfl : n = 4 := by omega
  exact hrun

end Brunix
