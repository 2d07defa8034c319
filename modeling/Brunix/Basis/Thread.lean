import Brunix.Basis.Loop

/-!
# A thread and one interruption

The code of a thread is a tree of atomic steps. A step stands at a named point of the source, acts on
the shared state and chooses the rest of the code by the state it found, so a test is a step that
changes nothing and a local variable is a value the rest was built with. An interruption runs a
handler once between two steps. A statement about all the places where that can happen is a statement
about every step of the tree, and it is proved phase by phase.
-/

namespace Basis

inductive Thread (π σ : Type)
  | done : Thread π σ
  | step (point : π) (act : σ → σ) (next : σ → Thread π σ) : Thread π σ

namespace Thread

variable {π σ : Type}

def statement (point : π) (act : σ → σ) : Thread π σ := step point act fun _ => done

/-- A test, and the code of its two branches. -/
def test (point : π) (cond : σ → Prop) [DecidablePred cond] (yes no : Thread π σ) : Thread π σ :=
  step point id fun s => if cond s then yes else no

def andThen : Thread π σ → Thread π σ → Thread π σ
  | done, rest => rest
  | step point act next, rest => step point act fun s => (next s).andThen rest

/-- A counted loop whose iterations are atomic. -/
def loop (point : Nat → π) (body : Nat → σ → σ) : Nat → Nat → Thread π σ
  | 0, _ => done
  | n + 1, i => step (point i) (body i) fun _ => loop point body n (i + 1)

/-- The state a thread ends in when it runs alone. -/
def run : Thread π σ → σ → σ
  | done, s => s
  | step _ act next, s => (next s).run (act s)

/-- The thread and the state after `n` steps, if it has as many. -/
def after : Nat → Thread π σ → σ → Thread π σ × σ
  | 0, thread, s => (thread, s)
  | _ + 1, done, s => (done, s)
  | n + 1, step _ act next, s => after n (next s) (act s)

/-- A run with a handler called between the first `n` steps and the rest. -/
def interrupted (n : Nat) (handler : σ → σ) (thread : Thread π σ) (s : σ) : σ :=
  (after n thread s).1.run (handler (after n thread s).2)

def point : Thread π σ → Option π
  | done => none
  | step point _ _ => some point

@[simp] theorem run_done (s : σ) : (done : Thread π σ).run s = s := rfl

@[simp] theorem run_statement (point : π) (act : σ → σ) (s : σ) :
    (statement point act).run s = act s := rfl

@[simp] theorem run_test (point : π) (cond : σ → Prop) [DecidablePred cond] (yes no : Thread π σ)
    (s : σ) : (test point cond yes no).run s = if cond s then yes.run s else no.run s := by
  simp only [test, run, id, apply_ite (fun thread => run thread s)]

@[simp] theorem run_andThen (first rest : Thread π σ) (s : σ) :
    (first.andThen rest).run s = rest.run (first.run s) := by
  induction first generalizing s with
  | done => rfl
  | step point act next ih => exact ih s (act s)

@[simp] theorem run_loop (point : Nat → π) (body : Nat → σ → σ) (n lo : Nat) (s : σ) :
    (loop point body n lo).run s = forCount body n lo s := by
  induction n generalizing lo s with
  | zero => rfl
  | succ n ih => exact ih (lo + 1) (body lo s)

theorem point_loop (point : Nat → π) (body : Nat → σ → σ) {n : Nat} (hn : 0 < n) (lo : Nat)
    (rest : Thread π σ) : ((loop point body n lo).andThen rest).point = some (point lo) := by
  obtain ⟨m, rfl⟩ : ∃ m, n = m + 1 := ⟨n - 1, by omega⟩
  rfl

theorem andThen_assoc (first second third : Thread π σ) :
    (first.andThen second).andThen third = first.andThen (second.andThen third) := by
  induction first with
  | done => rfl
  | step point act next ih => simp only [andThen, ih]

/-! ### Every place of an interruption -/

/-- A property of the rest of the code and the state, before each step of a run. -/
def Inside (P : Thread π σ → σ → Prop) : Thread π σ → σ → Prop
  | done, _ => True
  | step point act next, s => P (step point act next) s ∧ Inside P (next s) (act s)

section Inside

variable {P : Thread π σ → σ → Prop}

theorem inside_statement {point : π} {act : σ → σ} {s : σ} (h : P (statement point act) s) :
    Inside P (statement point act) s :=
  ⟨h, trivial⟩

theorem inside_test {point : π} {cond : σ → Prop} [DecidablePred cond] {yes no : Thread π σ} {s : σ}
    (h : P (test point cond yes no) s) (hyes : cond s → Inside P yes s)
    (hno : ¬ cond s → Inside P no s) : Inside P (test point cond yes no) s := by
  refine ⟨h, ?_⟩
  dsimp only [id]
  split
  · exact hyes ‹_›
  · exact hno ‹_›

theorem inside_andThen {first rest : Thread π σ} {s : σ}
    (hfirst : Inside (fun thread t => P (thread.andThen rest) t) first s)
    (hrest : Inside P rest (first.run s)) : Inside P (first.andThen rest) s := by
  induction first generalizing s with
  | done => exact hrest
  | step point act next ih => exact ⟨hfirst.1, ih s hfirst.2 hrest⟩

theorem inside_loop {point : Nat → π} {body : Nat → σ → σ} {n lo : Nat} {s : σ}
    (h : ∀ j < n, P (loop point body (n - j) (lo + j)) (forCount body j lo s)) :
    Inside P (loop point body n lo) s := by
  induction n generalizing lo s with
  | zero => trivial
  | succ n ih =>
      refine ⟨h 0 (by omega), ih fun j hj => ?_⟩
      have hnext := h (j + 1) (by omega)
      rwa [show n + 1 - (j + 1) = n - j by omega, show lo + (j + 1) = lo + 1 + j by omega] at hnext

/-- What holds before each step and at the end holds wherever a run is interrupted. -/
theorem after_of_inside {thread : Thread π σ} {s : σ} (h : Inside P thread s)
    (hend : P done (thread.run s)) (n : Nat) : P (after n thread s).1 (after n thread s).2 := by
  induction n generalizing thread s with
  | zero =>
      cases thread with
      | done => exact hend
      | step point act next => exact h.1
  | succ n ih =>
      cases thread with
      | done => exact hend
      | step point act next => exact ih h.2 hend

end Inside

/-! ### Runs in lockstep -/

/-- Two threads that pass the same points, as long as their states are related. -/
def Lockstep (R : σ → σ → Prop) : Thread π σ → Thread π σ → Prop
  | done, done => True
  | step point act next, step point' act' next' =>
      point = point' ∧ ∀ s s', R s s' → R (act s) (act' s') ∧ Lockstep R (next s) (next' s')
  | _, _ => False

section Lockstep

variable {R : σ → σ → Prop}

theorem lockstep_statement (point : π) {act act' : σ → σ} (h : ∀ s s', R s s' → R (act s) (act' s')) :
    Lockstep R (statement point act) (statement point act') :=
  ⟨rfl, fun s s' hrel => ⟨h s s' hrel, trivial⟩⟩

theorem lockstep_test (point : π) {cond : σ → Prop} [DecidablePred cond]
    (hcond : ∀ s s', R s s' → (cond s ↔ cond s')) {yes yes' no no' : Thread π σ}
    (hyes : Lockstep R yes yes') (hno : Lockstep R no no') :
    Lockstep R (test point cond yes no) (test point cond yes' no') := by
  refine ⟨rfl, fun s s' hrel => ⟨hrel, ?_⟩⟩
  by_cases h : cond s
  · simpa only [if_pos h, if_pos ((hcond s s' hrel).mp h)] using hyes
  · simpa only [if_neg h, if_neg (mt (hcond s s' hrel).mpr h)] using hno

theorem lockstep_andThen {first first' rest rest' : Thread π σ} (hfirst : Lockstep R first first')
    (hrest : Lockstep R rest rest') : Lockstep R (first.andThen rest) (first'.andThen rest') := by
  induction first generalizing first' with
  | done =>
      cases first' with
      | done => exact hrest
      | step point act next => exact hfirst.elim
  | step point act next ih =>
      cases first' with
      | done => exact hfirst.elim
      | step point' act' next' =>
          refine ⟨hfirst.1, fun s s' hrel => ?_⟩
          obtain ⟨hact, hnext⟩ := hfirst.2 s s' hrel
          exact ⟨hact, ih s hnext⟩

theorem lockstep_loop (point : Nat → π) {body body' : Nat → σ → σ}
    (h : ∀ i s s', R s s' → R (body i s) (body' i s')) (n lo : Nat) :
    Lockstep R (loop point body n lo) (loop point body' n lo) := by
  induction n generalizing lo with
  | zero => trivial
  | succ n ih => exact ⟨rfl, fun s s' hrel => ⟨h lo s s' hrel, ih (lo + 1)⟩⟩

theorem Lockstep.point_after {thread thread' : Thread π σ} (h : Lockstep R thread thread') {s s' : σ}
    (hrel : R s s') (n : Nat) :
    (after n thread s).1.point = (after n thread' s').1.point := by
  induction n generalizing thread thread' s s' with
  | zero =>
      cases thread <;> cases thread'
      · rfl
      · exact h.elim
      · exact h.elim
      · exact congrArg some h.1
  | succ n ih =>
      cases thread <;> cases thread'
      · rfl
      · exact h.elim
      · exact h.elim
      · obtain ⟨hact, hnext⟩ := h.2 s s' hrel
        exact ih hnext hact

end Lockstep

end Thread

end Basis
