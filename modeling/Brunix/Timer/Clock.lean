import Brunix.Basis.Memory
import Brunix.Basis.SplitRead

/-!
# The system clock, `timer.c`

`timer_ticks` is a counter of 64 bits that the handler of IRQ0 increments and `get_clock_tick` reads. On
a processor of 32 bits the read is two loads, and the call neither masks interrupts nor reads again, so
the tick of a carry may come between them. A run is any sequence of interrupts and steps of the
reader; the counts of ticks it carries along are there to state what a call should return.
-/

namespace Brunix

open Basis

/-! ### The two loads of a `uint64_t` -/

def lowWord (value : BitVec 64) : Word := value.setWidth 32
def highWord (value : BitVec 64) : Word := (value >>> 32).setWidth 32

inductive LoadOrder
  | lowFirst
  | highFirst

namespace LoadOrder

def firstLoad : LoadOrder → BitVec 64 → Word
  | lowFirst => lowWord
  | highFirst => highWord

def secondLoad : LoadOrder → BitVec 64 → Word
  | lowFirst => highWord
  | highFirst => lowWord

/-- The value in the registers after both loads. -/
def join : LoadOrder → Word → Word → BitVec 64
  | lowFirst, first, second => second ++ first
  | highFirst, first, second => first ++ second

end LoadOrder

/-! ### Runs -/

/-- A call of `get_clock_tick` that has returned, with the counts of ticks at its call, at its two
loads and at its return. -/
structure ClockRead where
  began : Nat
  first : Nat
  second : Nat
  returned : Nat
  value : BitVec 64

inductive Caller
  | outside
  | entered (began : Nat)
  | loaded (began first : Nat) (half : Word)
  | returning (began first second : Nat) (value : BitVec 64)

structure Clock where
  timerTicks : BitVec 64
  /-- The ticks since boot. -/
  count : Nat
  caller : Caller
  reads : List ClockRead

namespace Clock

def boot : Clock := ⟨0, 0, .outside, []⟩

def timerCallback (s : Clock) : Clock :=
  { s with timerTicks := s.timerTicks + 1, count := s.count + 1 }

/-- The next step of the reader: a call, a load or a return. -/
def getClockTick (order : LoadOrder) (s : Clock) : Clock :=
  match s.caller with
  | .outside => { s with caller := .entered s.count }
  | .entered began =>
      { s with caller := .loaded began s.count (order.firstLoad s.timerTicks) }
  | .loaded began first half =>
      { s with caller := .returning began first s.count
                (order.join half (order.secondLoad s.timerTicks)) }
  | .returning began first second value =>
      { s with caller := .outside, reads := s.reads ++ [⟨began, first, second, s.count, value⟩] }

end Clock

inductive ClockEvent
  | irq0
  | reader
  deriving DecidableEq

def ClockEvent.apply (order : LoadOrder) : ClockEvent → Clock → Clock
  | irq0, s => s.timerCallback
  | reader, s => s.getClockTick order

def Clock.run (order : LoadOrder) (s : Clock) (events : List ClockEvent) : Clock :=
  events.foldl (fun s event => event.apply order s) s

/-! ### What a run keeps -/

/-- The value that the two loads give at two counts of ticks. -/
def LoadOrder.valueAt (order : LoadOrder) (first second : Nat) : BitVec 64 :=
  order.join (order.firstLoad (BitVec.ofNat 64 first)) (order.secondLoad (BitVec.ofNat 64 second))

/-- The steps of a call came in order, and the value is what its loads gave. -/
structure ClockRead.Traced (order : LoadOrder) (r : ClockRead) : Prop where
  began_le : r.began ≤ r.first
  first_le : r.first ≤ r.second
  second_le : r.second ≤ r.returned
  value_eq : r.value = order.valueAt r.first r.second

/-- The same for a call that is still running. -/
def Caller.Traced (order : LoadOrder) (count : Nat) : Caller → Prop
  | outside => True
  | entered began => began ≤ count
  | loaded began first half =>
      began ≤ first ∧ first ≤ count ∧ half = order.firstLoad (BitVec.ofNat 64 first)
  | returning began first second value => (⟨began, first, second, count, value⟩ : ClockRead).Traced order

/-- The count when the running call began, or now when there is none. -/
def Caller.began (count : Nat) : Caller → Nat
  | outside => count
  | entered began | loaded began _ _ | returning began _ _ _ => began

theorem Caller.Traced.began_le {order : LoadOrder} {count : Nat} {caller : Caller}
    (h : caller.Traced order count) : caller.began count ≤ count := by
  cases caller with
  | outside => exact Nat.le_refl count
  | entered => exact h
  | loaded => exact h.1.trans h.2.1
  | returning =>
      obtain ⟨hbegan, hfirst, hsecond, -⟩ := h
      exact (hbegan.trans hfirst).trans hsecond

/-- A tick only moves the present on. -/
theorem Caller.Traced.tick {order : LoadOrder} {count : Nat} {caller : Caller}
    (h : caller.Traced order count) : caller.Traced order (count + 1) := by
  cases caller with
  | outside => trivial
  | entered => exact Nat.le_succ_of_le h
  | loaded => exact ⟨h.1, Nat.le_succ_of_le h.2.1, h.2.2⟩
  | returning =>
      obtain ⟨hbegan, hfirst, hsecond, hvalue⟩ := h
      exact ⟨hbegan, hfirst, Nat.le_succ_of_le hsecond, hvalue⟩

theorem Caller.began_le_succ (caller : Caller) (count : Nat) :
    caller.began count ≤ caller.began (count + 1) := by
  cases caller with
  | outside => exact Nat.le_succ count
  | _ => exact Nat.le_refl _

structure Clock.Inv (order : LoadOrder) (s : Clock) : Prop where
  ticks : s.timerTicks = BitVec.ofNat 64 s.count
  caller : s.caller.Traced order s.count
  reads : ∀ r ∈ s.reads, r.Traced order ∧ r.returned ≤ s.caller.began s.count
  sequential : s.reads.Pairwise fun r r' => r.returned ≤ r'.began

theorem Clock.inv_boot (order : LoadOrder) : Clock.boot.Inv order where
  ticks := rfl
  caller := trivial
  reads := fun _ hr => absurd hr List.not_mem_nil
  sequential := List.Pairwise.nil

theorem Clock.inv_timerCallback {order : LoadOrder} {s : Clock} (h : s.Inv order) :
    s.timerCallback.Inv order where
  ticks := by
    rw [timerCallback, h.ticks, BitVec.ofNat_add]
    rfl
  caller := h.caller.tick
  reads := fun r hr => ⟨(h.reads r hr).1, (h.reads r hr).2.trans (s.caller.began_le_succ s.count)⟩
  sequential := h.sequential

/-- Up to its return, a step of the reader leaves the calls before it alone. -/
theorem Clock.Inv.advance {order : LoadOrder} {s : Clock} (h : s.Inv order) (caller : Caller)
    (hcaller : caller.Traced order s.count) (hbegan : caller.began s.count = s.caller.began s.count) :
    ({ s with caller := caller } : Clock).Inv order where
  ticks := h.ticks
  caller := hcaller
  reads := fun r hr => ⟨(h.reads r hr).1, hbegan ▸ (h.reads r hr).2⟩
  sequential := h.sequential

theorem Clock.inv_getClockTick {order : LoadOrder} {s : Clock} (h : s.Inv order) :
    (s.getClockTick order).Inv order := by
  obtain ⟨timerTicks, count, caller, reads⟩ := s
  have hticks : timerTicks = BitVec.ofNat 64 count := h.ticks
  cases caller with
  | outside => exact h.advance (.entered count) (Nat.le_refl count) rfl
  | entered began =>
      have hbegan : began ≤ count := h.caller
      have hhalf : order.firstLoad timerTicks = order.firstLoad (BitVec.ofNat 64 count) := by
        rw [hticks]
      exact h.advance (.loaded began count _) ⟨hbegan, Nat.le_refl count, hhalf⟩ rfl
  | loaded began first half =>
      obtain ⟨hbegan, hfirst, hhalf⟩ := h.caller
      have hvalue : order.join half (order.secondLoad timerTicks) = order.valueAt first count := by
        rw [hhalf, hticks, LoadOrder.valueAt]
      exact h.advance (.returning began first count _)
        ⟨hbegan, hfirst, Nat.le_refl count, hvalue⟩ rfl
  | returning began first second value =>
      have htraced : (⟨began, first, second, count, value⟩ : ClockRead).Traced order := h.caller
      have hbefore : ∀ r ∈ reads, r.Traced order ∧ r.returned ≤ began := h.reads
      have hnow : began ≤ count := h.caller.began_le
      refine ⟨hticks, trivial, ?_, ?_⟩
      · intro r hr
        obtain hr | hr := List.mem_append.mp hr
        · exact ⟨(hbefore r hr).1, (hbefore r hr).2.trans hnow⟩
        · rw [List.mem_singleton.mp hr]
          exact ⟨htraced, Nat.le_refl count⟩
      · refine List.pairwise_append.mpr ⟨h.sequential, List.pairwise_singleton _ _, ?_⟩
        intro r hr r' hr'
        rw [List.mem_singleton.mp hr']
        exact (hbefore r hr).2

theorem ClockEvent.inv_apply {order : LoadOrder} (event : ClockEvent) {s : Clock} (h : s.Inv order) :
    (event.apply order s).Inv order := by
  cases event with
  | irq0 => exact Clock.inv_timerCallback h
  | reader => exact Clock.inv_getClockTick h

theorem Clock.inv_run {order : LoadOrder} (events : List ClockEvent) {s : Clock} (h : s.Inv order) :
    (s.run order events).Inv order := by
  induction events generalizing s with
  | nil => exact h
  | cons event events ih => exact ih (event.inv_apply h)

theorem Clock.run_append (order : LoadOrder) (s : Clock) (first rest : List ClockEvent) :
    s.run order (first ++ rest) = (s.run order first).run order rest := List.foldl_append

theorem ClockEvent.count_apply (order : LoadOrder) (event : ClockEvent) (s : Clock) :
    (event.apply order s).count = s.count + [event].count .irq0 := by
  cases event with
  | irq0 => rfl
  | reader =>
      simp only [apply, Clock.getClockTick]
      split <;> rfl

theorem Clock.count_run (order : LoadOrder) (events : List ClockEvent) (s : Clock) :
    (s.run order events).count = s.count + events.count .irq0 := by
  induction events generalizing s with
  | nil => rfl
  | cons event events ih =>
      have hrest := ih (event.apply order s)
      rw [event.count_apply] at hrest
      rw [show event :: events = [event] ++ events from rfl, List.count_append, ← Nat.add_assoc]
      exact hrest

/-! ### The value of a call -/

theorem toNat_high_append_low {high low : Nat} (hhigh : high < 2 ^ 64) (hlow : low < 2 ^ 64) :
    (highWord (BitVec.ofNat 64 high) ++ lowWord (BitVec.ofNat 64 low)).toNat
      = splitDigits (2 ^ 32) high low := by
  have hhighWord : (highWord (BitVec.ofNat 64 high)).toNat = high / 2 ^ 32 := by
    rw [highWord, BitVec.toNat_setWidth, BitVec.toNat_ushiftRight, BitVec.toNat_ofNat,
      Nat.mod_eq_of_lt hhigh, Nat.shiftRight_eq_div_pow]
    omega
  have hlowWord : (lowWord (BitVec.ofNat 64 low)).toNat = low % 2 ^ 32 := by
    rw [lowWord, BitVec.toNat_setWidth, BitVec.toNat_ofNat, Nat.mod_eq_of_lt hlow]
  rw [BitVec.toNat_append, hhighWord, hlowWord,
    ← Nat.shiftLeft_add_eq_or_of_lt (Nat.mod_lt low (by decide)), Nat.shiftLeft_eq, splitDigits]

namespace ClockRead

/-- What the caller may compare the value with. -/
def reading (r : ClockRead) : Reading Nat := ⟨r.began, r.returned, r.value.toNat⟩

/-- If the low word falls from the first load to the second, because it was carried over, then the
ticks after the second load make up for it, or, when the high word is loaded first, those before the
first load. -/
def CarrySafe (order : LoadOrder) (r : ClockRead) : Prop :=
  match order with
  | .lowFirst => r.first % 2 ^ 32 ≤ r.second % 2 ^ 32 + (r.returned - r.second)
  | .highFirst => r.first % 2 ^ 32 ≤ r.second % 2 ^ 32 + (r.first - r.began)

variable {order : LoadOrder} {r : ClockRead}

theorem Traced.carrySafe_of_div_eq (h : r.Traced order)
    (hcarry : r.first / 2 ^ 32 = r.second / 2 ^ 32) : r.CarrySafe order := by
  have hmod := mod_le_mod_of_div_eq h.first_le hcarry
  cases order <;> exact Nat.le_add_right_of_le hmod

theorem Traced.regular_iff (h : r.Traced order) (hcount : r.returned < 2 ^ 64) :
    r.reading.Regular ↔ r.CarrySafe order := by
  have hsecond := Nat.lt_of_le_of_lt h.second_le hcount
  have hfirst := Nat.lt_of_le_of_lt h.first_le hsecond
  rw [reading, h.value_eq]
  cases order with
  | lowFirst =>
      rw [show LoadOrder.lowFirst.valueAt r.first r.second
          = highWord (BitVec.ofNat 64 r.second) ++ lowWord (BitVec.ofNat 64 r.first) from rfl,
        toNat_high_append_low hsecond hfirst]
      exact splitDigits_regular_of_low_first h.began_le h.first_le h.second_le
  | highFirst =>
      rw [show LoadOrder.highFirst.valueAt r.first r.second
          = highWord (BitVec.ofNat 64 r.first) ++ lowWord (BitVec.ofNat 64 r.second) from rfl,
        toNat_high_append_low hfirst hsecond]
      exact splitDigits_regular_of_high_first h.began_le h.first_le h.second_le

end ClockRead

theorem Clock.traced_of_run (order : LoadOrder) {events : List ClockEvent}
    (hcount : events.count .irq0 < 2 ^ 64) {r : ClockRead}
    (hr : r ∈ (boot.run order events).reads) : r.Traced order ∧ r.returned < 2 ^ 64 := by
  have hinv : (boot.run order events).Inv order := inv_run events (inv_boot order)
  obtain ⟨htraced, hreturned⟩ := hinv.reads r hr
  have htotal : (boot.run order events).count = events.count .irq0 := by
    rw [count_run, show boot.count = 0 from rfl, Nat.zero_add]
  refine ⟨htraced, ?_⟩
  calc
    r.returned ≤ (boot.run order events).count := hreturned.trans hinv.caller.began_le
    _ = events.count .irq0 := htotal
    _ < 2 ^ 64 := hcount

/-- A call returns a count of its own time exactly if it is safe from the carry, as it is when no carry
comes between its loads. While all calls are safe, the clock never goes backwards. -/
theorem getClockTick_regular_iff (order : LoadOrder) {events : List ClockEvent}
    (hcount : events.count .irq0 < 2 ^ 64) :
    let s := Clock.boot.run order events
    (∀ r ∈ s.reads, (r.began ≤ r.value.toNat ∧ r.value.toNat ≤ r.returned) ↔ r.CarrySafe order) ∧
      (∀ r ∈ s.reads, r.first / 2 ^ 32 = r.second / 2 ^ 32 → r.CarrySafe order) ∧
      ((∀ r ∈ s.reads, r.CarrySafe order) →
        s.reads.Pairwise fun r r' => r.value.toNat ≤ r'.value.toNat) := by
  intro s
  have hregular (r : ClockRead) (hr : r ∈ s.reads) : r.reading.Regular ↔ r.CarrySafe order := by
    obtain ⟨htraced, hreturned⟩ := Clock.traced_of_run order hcount hr
    exact htraced.regular_iff hreturned
  refine ⟨hregular, ?_, ?_⟩
  · intro r hr
    exact (Clock.traced_of_run order hcount hr).1.carrySafe_of_div_eq
  · intro hsafe
    have hinv : s.Inv order := Clock.inv_run events (Clock.inv_boot order)
    have hbefore : (s.reads.map ClockRead.reading).Pairwise Reading.Before :=
      List.pairwise_map.mpr hinv.sequential
    have hall : ∀ reading ∈ s.reads.map ClockRead.reading, reading.Regular := by
      intro reading hreading
      obtain ⟨r, hr, rfl⟩ := List.mem_map.mp hreading
      exact (hregular r hr).mpr (hsafe r hr)
    have hvalues := pairwise_value_le hbefore hall
    rw [List.pairwise_map] at hvalues
    exact hvalues

/-- One tick between the loads of a call and one before the next call. -/
theorem getClockTick_regular_twice :
    let events : List ClockEvent := [.irq0, .reader, .reader, .irq0, .reader, .reader, .irq0,
      .reader, .reader, .reader, .reader]
    (Clock.boot.run .lowFirst events).reads.Pairwise fun r r' => r.value.toNat ≤ r'.value.toNat := by
  intro events
  have hcount : events.count .irq0 < 2 ^ 64 := by decide
  have hregular := getClockTick_regular_iff .lowFirst hcount
  apply hregular.2.2
  intro r hr
  apply hregular.2.1 r hr
  revert r
  decide

/-! ### The tick of a carry between the loads -/

theorem Clock.run_ticks (order : LoadOrder) (n : Nat) :
    boot.run order (List.replicate n .irq0) = ⟨BitVec.ofNat 64 n, n, .outside, []⟩ := by
  induction n with
  | zero => rfl
  | succ n ih =>
      rw [List.replicate_succ', run_append, ih, BitVec.ofNat_add]
      rfl

/-- `n` ticks, and then a call with one more tick between its loads. -/
def tickBetweenLoads (n : Nat) : List ClockEvent :=
  List.replicate n .irq0 ++ [.reader, .reader, .irq0, .reader, .reader]

theorem reads_tickBetweenLoads (order : LoadOrder) (n : Nat) :
    (Clock.boot.run order (tickBetweenLoads n)).reads
      = [⟨n, n, n + 1, n + 1, order.valueAt n (n + 1)⟩] := by
  rw [tickBetweenLoads, Clock.run_append, Clock.run_ticks, LoadOrder.valueAt, BitVec.ofNat_add]
  rfl

theorem count_tickBetweenLoads (n : Nat) : (tickBetweenLoads n).count .irq0 = n + 1 := by
  rw [tickBetweenLoads, List.count_append, List.count_replicate_self]
  rfl

/-- With a full low word at the first load, the tick carries it over: the call returns a count that is
almost `2 ^ 32` ticks in the future, or 0. -/
theorem getClockTick_torn :
    (tickBetweenLoads (2 ^ 32 - 1)).count .irq0 < 2 ^ 64 ∧
    (∃ r ∈ (Clock.boot.run .lowFirst (tickBetweenLoads (2 ^ 32 - 1))).reads,
      r.returned < r.value.toNat) ∧
    ∃ r ∈ (Clock.boot.run .highFirst (tickBetweenLoads (2 ^ 32 - 1))).reads,
      r.value.toNat < r.began := by
  rw [count_tickBetweenLoads, reads_tickBetweenLoads, reads_tickBetweenLoads]
  exact ⟨by decide, ⟨_, List.mem_cons_self, by decide⟩, ⟨_, List.mem_cons_self, by decide⟩⟩

end Brunix
