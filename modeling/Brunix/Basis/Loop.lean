import Mathlib.Logic.Function.Basic
import Mathlib.Tactic.Common

/-!
# Counted loops and runs of operations

A C `for` loop over an integer interval is a recursion on the number of iterations left, so a closed
run of it computes. Everything a proof needs of such a loop is the invariant rule and the two ways of
cutting the interval. A sequence of partial operations is a `foldlM` in `Option`, and the rule for it
is forward simulation: an operation that is defined on related states, and keeps them related, can be
run any number of times. A table that only grows by writes holds the last one at each place.
-/

namespace Basis

variable {σ τ α : Type}

/-- The iterations `i = lo, …, lo + n - 1` of a loop body, in order. -/
def forCount (body : Nat → σ → σ) : Nat → Nat → σ → σ
  | 0, _, s => s
  | n + 1, lo, s => forCount body n (lo + 1) (body lo s)

/-- `for (i = lo; i < hi; i++) body(i)`. -/
def forRange (lo hi : Nat) (body : Nat → σ → σ) (s : σ) : σ :=
  forCount body (hi - lo) lo s

theorem forCount_invariant (body : Nat → σ → σ) (P : Nat → σ → Prop) (n lo : Nat) (s : σ)
    (hinit : P lo s) (hstep : ∀ i s, lo ≤ i → i < lo + n → P i s → P (i + 1) (body i s)) :
    P (lo + n) (forCount body n lo s) := by
  induction n generalizing lo s with
  | zero => exact hinit
  | succ n ih =>
      have hfirst : P (lo + 1) (body lo s) := hstep lo s (Nat.le_refl lo) (by omega) hinit
      have hrest := ih (lo + 1) (body lo s) hfirst fun i s hlo hhi => hstep i s (by omega) (by omega)
      rwa [Nat.add_assoc, Nat.add_comm 1 n] at hrest

/-- The invariant rule of a counted loop. -/
theorem forRange_invariant {lo hi : Nat} (body : Nat → σ → σ) (P : Nat → σ → Prop) {s : σ}
    (hle : lo ≤ hi) (hinit : P lo s)
    (hstep : ∀ i s, lo ≤ i → i < hi → P i s → P (i + 1) (body i s)) :
    P hi (forRange lo hi body s) := by
  have h := forCount_invariant body P (hi - lo) lo s hinit fun i s hlo hhi =>
    hstep i s hlo (by omega)
  rwa [Nat.add_sub_cancel' hle] at h

@[simp] theorem forRange_self (lo : Nat) (body : Nat → σ → σ) (s : σ) :
    forRange lo lo body s = s := by
  simp [forRange, forCount]

theorem foldlM_invariant {f : σ → α → Option σ} (P : σ → Prop)
    (hstep : ∀ a s s', P s → f s a = some s' → P s') (ops : List α) {s s' : σ} (hinit : P s)
    (hrun : ops.foldlM f s = some s') : P s' := by
  induction ops generalizing s with
  | nil => exact Option.some.inj hrun ▸ hinit
  | cons a ops ih =>
      rw [List.foldlM_cons] at hrun
      obtain ⟨mid, hmid, hrest⟩ := Option.bind_eq_some_iff.mp hrun
      exact ih (hstep a s mid hinit hmid) hrest

theorem foldlM_defined {f : σ → α → Option σ} {ops : List α}
    (hstep : ∀ a s, a ∈ ops → ∃ s', f s a = some s') (s : σ) :
    ∃ s', ops.foldlM f s = some s' := by
  induction ops generalizing s with
  | nil => exact ⟨s, rfl⟩
  | cons a ops ih =>
      obtain ⟨mid, hmid⟩ := hstep a s (by simp)
      obtain ⟨s', hrest⟩ := ih (fun b s hb => hstep b s (by simp [hb])) mid
      refine ⟨s', ?_⟩
      rw [List.foldlM_cons, hmid]
      exact hrest

/-- Forward simulation for runs of partial operations. -/
theorem foldlM_simulation {f : σ → α → Option σ} {g : τ → α → τ} (R : σ → τ → Prop)
    (Ok : α → Prop) (hstep : ∀ s t a, Ok a → R s t → ∃ s', f s a = some s' ∧ R s' (g t a))
    (ops : List α) (hok : ∀ a ∈ ops, Ok a) {s : σ} {t : τ} (hrel : R s t) :
    ∃ s', ops.foldlM f s = some s' ∧ R s' (ops.foldl g t) := by
  induction ops generalizing s t with
  | nil => exact ⟨s, rfl, hrel⟩
  | cons a ops ih =>
      obtain ⟨mid, hmid, hrelMid⟩ := hstep s t a (hok a (by simp)) hrel
      obtain ⟨s', hrun, hrel'⟩ := ih (fun b hb => hok b (by simp [hb])) hrelMid
      refine ⟨s', ?_, hrel'⟩
      rw [List.foldlM_cons, hmid]
      exact hrun

/-! ### Writes to a table -/

section Writes

variable {ι β γ : Type} [DecidableEq ι]

def lastWrite (writes : List (ι × β)) (i : ι) : Option β :=
  (writes.filterMap fun write => if write.1 = i then some write.2 else none).getLast?

theorem lastWrite_append (first rest : List (ι × β)) (i : ι) :
    lastWrite (first ++ rest) i = (lastWrite rest i).or (lastWrite first i) := by
  rw [lastWrite, List.filterMap_append, List.getLast?_append]
  rfl

theorem lastWrite_concat (writes : List (ι × β)) (j : ι) (b : β) (i : ι) :
    lastWrite (writes ++ [(j, b)]) i = if i = j then some b else lastWrite writes i := by
  rw [lastWrite_append]
  by_cases hi : j = i
  · simp [lastWrite, hi]
  · simp [lastWrite, hi, Ne.symm hi]

theorem lastWrite_map (f : β → γ) (writes : List (ι × β)) (i : ι) :
    lastWrite (writes.map fun write => (write.1, f write.2)) i = (lastWrite writes i).map f := by
  rw [lastWrite, lastWrite, List.filterMap_map, ← List.getLast?_map, List.map_filterMap]
  congr 2
  funext write
  simp only [Function.comp]
  split <;> rfl

theorem lastWrite_eq_none {writes : List (ι × β)} {i : ι} :
    lastWrite writes i = none ↔ ∀ write ∈ writes, write.1 ≠ i := by
  rw [lastWrite, List.getLast?_eq_none_iff, List.filterMap_eq_nil_iff]
  simp

theorem mem_of_lastWrite {writes : List (ι × β)} {i : ι} {b : β} (h : lastWrite writes i = some b) :
    (i, b) ∈ writes := by
  obtain ⟨write, hwrite, heq⟩ := List.mem_filterMap.mp (List.mem_of_getLast? h)
  split at heq
  · next hi =>
      obtain rfl := Option.some.inj heq
      rwa [← hi]
  · cases heq

/-- A table holds at each place what was written there last. -/
theorem foldl_update_apply (writes : List (ι × β)) (table : ι → β) (i : ι) :
    writes.foldl (fun table write => Function.update table write.1 write.2) table i
      = (lastWrite writes i).getD (table i) := by
  induction writes generalizing table with
  | nil => rfl
  | cons write writes ih =>
      rw [List.foldl_cons, ih, show write :: writes = [write] ++ writes from rfl, lastWrite_append]
      by_cases hi : write.1 = i
      · subst hi
        simp [lastWrite, Function.update_self]
      · simp [lastWrite, hi, Function.update_of_ne (Ne.symm hi)]

end Writes

end Basis
