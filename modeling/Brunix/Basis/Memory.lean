import Brunix.Basis.Loop
import Mathlib.Algebra.Ring.Nat

/-!
# Byte memory and the words in it

Memory is a byte at each 32-bit address, and a word is four of them, the low byte first. Addresses
wrap around, so two words are apart when neither starts within the other's four bytes. A run of words
at consecutive addresses is described as a list: a stack with its top first, a record with its fields
in order, or a table.
-/

namespace Basis

abbrev Byte := BitVec 8

abbrev Word := BitVec 32

abbrev Memory := Word → Byte

namespace Memory

def load (mem : Memory) (a : Word) : Word := mem (a + 3) ++ mem (a + 2) ++ mem (a + 1) ++ mem a

def store (mem : Memory) (a value : Word) : Memory := fun b =>
  if (b - a).toNat < 4 then (value >>> (8 * (b - a).toNat)).setWidth 8 else mem b

/-- The words at two addresses have no byte in common. -/
def Apart (a b : Word) : Prop := 4 ≤ (b - a).toNat ∧ 4 ≤ (a - b).toNat

theorem load_store_self (mem : Memory) (a value : Word) : (mem.store a value).load a = value := by
  have hbyte (k : Word) (hk : k.toNat < 4) :
      mem.store a value (a + k) = (value >>> (8 * k.toNat)).setWidth 8 := by
    rw [store, show a + k - a = k by rw [BitVec.add_comm, BitVec.add_sub_cancel], if_pos hk]
  have hlow : mem.store a value a = (value >>> 0).setWidth 8 := by
    rw [store, BitVec.sub_self]
    rfl
  rw [load, hbyte 3 (by decide), hbyte 2 (by decide), hbyte 1 (by decide), hlow]
  apply BitVec.eq_of_getLsbD_eq
  intro i hi
  simp only [BitVec.getLsbD_append, BitVec.getLsbD_setWidth, BitVec.getLsbD_ushiftRight]
  grind

theorem store_store (mem : Memory) (a v w : Word) : (mem.store a v).store a w = mem.store a w := by
  funext b
  simp only [store]
  split <;> rfl

theorem load_store_of_apart {mem : Memory} {a b value : Word} (h : Apart a b) :
    (mem.store a value).load b = mem.load b := by
  obtain ⟨hafter, hbefore⟩ := h
  have hbyte (k : Word) (hk : k.toNat < 4) : mem.store a value (b + k) = mem (b + k) := by
    rw [store, if_neg]
    bv_omega
  have hlow : mem.store a value b = mem b := by
    rw [store, if_neg]
    omega
  rw [load, load, hbyte 3 (by decide), hbyte 2 (by decide), hbyte 1 (by decide), hlow]

/-! ### Tables -/

def slot (a : Word) (i : Nat) : Word := a + BitVec.ofNat 32 (4 * i)

@[simp] theorem slot_zero (a : Word) : slot a 0 = a := by
  simp [slot]

theorem slot_succ (a : Word) (i : Nat) : slot a (i + 1) = slot (a + 4) i := by
  rw [slot, slot, Nat.mul_add, BitVec.ofNat_add]
  bv_omega

@[simp] theorem slot_slot (a : Word) (i j : Nat) : slot (slot a i) j = slot a (i + j) := by
  rw [slot, slot, slot, BitVec.add_assoc, ← BitVec.ofNat_add, ← Nat.mul_add]

theorem slot_ne {a : Word} {i : Nat} (hpos : 0 < i) (hi : 4 * i < 2 ^ 32) : slot a i ≠ a := by
  rw [slot]
  bv_omega

theorem slot_apart {a : Word} {i j : Nat} (hi : 4 * i + 4 ≤ 2 ^ 32) (hj : 4 * j + 4 ≤ 2 ^ 32)
    (hne : i ≠ j) : Apart (slot a i) (slot a j) := by
  constructor <;> simp only [slot, BitVec.toNat_sub, BitVec.toNat_add, BitVec.toNat_ofNat] <;> omega

/-- A loop that changes each entry of a table in turn. The entries are changed, each in its own way,
and no word apart from them is. -/
theorem modifyLoop_spec {lo hi : Nat} (hle : lo ≤ hi) (hbound : 4 * hi ≤ 2 ^ 32) (a : Word)
    (f : Nat → Word → Word) (mem : Memory) :
    (∀ j, lo ≤ j → j < hi →
        (forRange lo hi (fun i (m : Memory) => m.store (slot a i) (f i (m.load (slot a i)))) mem).load (slot a j)
          = f j (mem.load (slot a j)))
      ∧ ∀ b, (∀ j, lo ≤ j → j < hi → Apart (slot a j) b) →
        (forRange lo hi (fun i (m : Memory) => m.store (slot a i) (f i (m.load (slot a i)))) mem).load b
          = mem.load b := by
  have h := forRange_invariant (fun i (m : Memory) => m.store (slot a i) (f i (m.load (slot a i))))
    (fun n (m : Memory) => (∀ j, lo ≤ j → j < n → m.load (slot a j) = f j (mem.load (slot a j)))
      ∧ ∀ b, (∀ j, lo ≤ j → j < n → Apart (slot a j) b) → m.load b = mem.load b) hle
    ⟨fun j hlo hj => absurd hj (by omega), fun b _ => rfl⟩
    (fun n m hlo hn ⟨hdone, hframe⟩ => ?_)
  · exact h
  · have hsame : m.load (slot a n) = mem.load (slot a n) :=
      hframe _ fun j _ hj => slot_apart (by omega) (by omega) (by omega)
    refine ⟨fun j hj hjn => ?_, fun b hb => ?_⟩
    · by_cases hlast : j = n
      · subst hlast
        rw [load_store_self, hsame]
      · rw [load_store_of_apart (slot_apart (by omega) (by omega) (Ne.symm hlast))]
        exact hdone j hj (by omega)
    · rw [load_store_of_apart (hb n hlo (by omega))]
      exact hframe b fun j hj hjn => hb j hj (by omega)

/-! ### Runs of words -/

/-- The words from an address on. -/
def Words (mem : Memory) (a : Word) (ws : List Word) : Prop :=
  ∀ i w, ws[i]? = some w → mem.load (slot a i) = w

theorem words_nil (mem : Memory) (a : Word) : mem.Words a [] := fun i w h => by simp at h

theorem words_cons {mem : Memory} {a w : Word} {ws : List Word} :
    mem.Words a (w :: ws) ↔ mem.load a = w ∧ mem.Words (a + 4) ws := by
  constructor
  · intro h
    refine ⟨by simpa using h 0 w rfl, fun i v hv => ?_⟩
    rw [← slot_succ]
    exact h (i + 1) v hv
  · intro hwords i v hv
    obtain ⟨hfirst, hrest⟩ := hwords
    cases i with
    | zero =>
        rw [slot_zero, hfirst]
        exact Option.some.inj hv
    | succ i =>
        rw [slot_succ]
        exact hrest i v hv

theorem Words.push {mem : Memory} {sp : Word} {ws : List Word} (h : mem.Words sp ws) (w : Word)
    (hbound : 4 * ws.length + 4 ≤ 2 ^ 32) : (mem.store (sp - 4) w).Words (sp - 4) (w :: ws) := by
  refine words_cons.mpr ⟨load_store_self mem (sp - 4) w, fun i v hv => ?_⟩
  have hi : i < ws.length := (List.getElem?_eq_some_iff.mp hv).1
  have hapart := slot_apart (a := sp - 4) (i := 0) (j := i + 1) (by omega) (by omega) (by omega)
  rw [slot_zero, slot_succ] at hapart
  rw [load_store_of_apart hapart, BitVec.sub_add_cancel]
  exact h i v hv

/-- A change of memory that keeps the words from an address on keeps what is said of them. -/
theorem Words.frame {mem mem' : Memory} {a : Word} {ws : List Word} (h : mem.Words a ws)
    (hsame : ∀ i < ws.length, mem'.load (slot a i) = mem.load (slot a i)) : mem'.Words a ws :=
  fun i w hw => (hsame i (List.getElem?_eq_some_iff.mp hw).1).trans (h i w hw)

end Memory

end Basis
