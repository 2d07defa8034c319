import Brunix.Basis.Loop

/-!
# Arrays of packed records

An array of records of one size, seen as the bytes around its start: the cells of record `n` are the
next `size` ones after `n` records. The records cover memory without overlap, so a store in one of them
changes that record alone, and an operation made of such stores is described by what it does to the
record. An index may be negative, as a C index may.
-/

namespace Basis

variable {α : Type} {size : Nat}

def cellAt (n : Int) (k : Fin size) : Int := size * n + k.val

def recordAt (cells : Int → α) (n : Int) : Fin size → α := fun k => cells (cellAt n k)

theorem cellAt_inj {n m : Int} {k j : Fin size} : cellAt n k = cellAt m j ↔ n = m ∧ k = j := by
  constructor
  · intro heq
    have hpos : (0 : Int) < size := by
      have := k.isLt
      omega
    have hdiv (n : Int) (k : Fin size) : cellAt n k / size = n := by
      have hk := k.isLt
      rw [cellAt, Int.add_comm, Int.add_mul_ediv_left _ _ (by omega),
        Int.ediv_eq_zero_of_lt (by omega) (by omega), Int.zero_add]
    have hn : n = m := by rw [← hdiv n k, heq, hdiv m j]
    subst hn
    refine ⟨rfl, Fin.ext ?_⟩
    simp only [cellAt] at heq
    omega
  · intro heq
    obtain ⟨rfl, rfl⟩ := heq
    rfl

/-- A store in a record. -/
theorem recordAt_update (cells : Int → α) (n : Int) (k : Fin size) (value : α) :
    recordAt (Function.update cells (cellAt n k) value)
      = Function.update (recordAt cells) n (Function.update (recordAt cells n) k value) := by
  funext m j
  by_cases hm : m = n
  · subst hm
    rw [Function.update_self]
    by_cases hj : j = k
    · subst hj
      rw [recordAt, Function.update_self, Function.update_self]
    · rw [recordAt, Function.update_of_ne fun heq => hj (cellAt_inj.mp heq).2,
        Function.update_of_ne hj, recordAt]
  · rw [recordAt, Function.update_of_ne fun heq => hm (cellAt_inj.mp heq).1,
      Function.update_of_ne hm, recordAt]

theorem cellAt_cases (hsize : 0 < size) (a : Int) : ∃ (n : Int) (k : Fin size), a = cellAt n k := by
  have hlow := Int.emod_nonneg a (show (size : Int) ≠ 0 by omega)
  have hhigh := Int.emod_lt_of_pos a (show (0 : Int) < size by omega)
  refine ⟨a / size, ⟨(a % size).toNat, by omega⟩, ?_⟩
  have hsplit := Int.mul_ediv_add_emod a size
  simp only [cellAt]
  omega

/-! ### Operations on one record -/

/-- The operation does `g` to the record at an index and leaves all others alone. -/
def ActsOn (n : Int) (f : (Int → α) → Int → α) (g : (Fin size → α) → Fin size → α) : Prop :=
  ∀ cells, recordAt (f cells) = Function.update (recordAt cells) n (g (recordAt cells n))

/-- A cell is set to a function of what it held. -/
theorem actsOn_modify (n : Int) (k : Fin size) (h : α → α) :
    ActsOn n (fun cells => Function.update cells (cellAt n k) (h (cells (cellAt n k))))
      fun r => Function.update r k (h (r k)) :=
  fun cells => recordAt_update cells n k _

theorem actsOn_store (n : Int) (k : Fin size) (value : α) :
    ActsOn n (fun cells => Function.update cells (cellAt n k) value)
      fun r => Function.update r k value :=
  actsOn_modify n k fun _ => value

theorem ActsOn.andThen {n : Int} {f f' : (Int → α) → Int → α}
    {g g' : (Fin size → α) → Fin size → α} (h : ActsOn n f g) (h' : ActsOn n f' g') :
    ActsOn n (fun cells => f' (f cells)) fun r => g' (g r) := by
  intro cells
  rw [h', h, Function.update_self, Function.update_idem]

/-- After operations that each set a record, a record is as the last of its own left it. -/
theorem recordAt_foldl {β : Type} {f : β → (Int → α) → Int → α} {index : β → Int}
    {value : β → Fin size → α} (h : ∀ op, ActsOn (index op) (f op) fun _ => value op)
    (ops : List β) (cells : Int → α) (n : Int) :
    recordAt (ops.foldl (fun cells op => f op cells) cells) n
      = (lastWrite (ops.map fun op => (index op, value op)) n).getD (recordAt cells n) := by
  rw [← foldl_update_apply, List.foldl_map]
  induction ops generalizing cells with
  | nil => rfl
  | cons op ops ih => rw [List.foldl_cons, ih, h op cells, List.foldl_cons]

end Basis
