import Brunix.Console.Vga

/-!
# Strings and their output

A `char *` is modelled by the bytes of memory from that address on, as far as they may be read. A byte
that was never written, such as one of a fresh automatic array, is `none`, and reading it or running
off the end is undefined behaviour in C, so the function that does it returns `none`.

The output functions hand characters to a sink one at a time. The kernel's sink is `vgaPutc`. The
proofs also use the sink that only records what it was given, and `vgaPuts_cString` says that any
sink sees the same characters.
-/

namespace Brunix

open Basis

abbrev Buffer := List (Option Byte)

/-- The bytes of a NUL-terminated string, without the terminator. -/
structure CString where
  bytes : List Byte
  nonzero : ∀ byte ∈ bytes, byte ≠ 0
  deriving DecidableEq

def CString.buffer (str : CString) : Buffer := str.bytes.map some ++ [some 0]

/-- The memory at an address holds a string, and then whatever follows. -/
def Buffer.Holds (buffer : Buffer) (bytes : List Byte) : Prop :=
  (∀ byte ∈ bytes, byte ≠ 0) ∧ ∃ rest, buffer = bytes.map some ++ some 0 :: rest

theorem CString.buffer_holds (str : CString) : str.buffer.Holds str.bytes :=
  ⟨str.nonzero, [], rfl⟩

section Sink

variable {σ : Type} (putc : σ → Byte → σ)

/-- `vga_puts`, over the sink it sends its characters to. -/
def vgaPuts : Buffer → σ → Option σ
  | some byte :: rest, s => if byte = 0 then some s else vgaPuts rest (putc s byte)
  | _, _ => none

theorem vgaPuts_of_holds {bytes : List Byte} {buffer : Buffer} (h : buffer.Holds bytes) (s : σ) :
    vgaPuts putc buffer s = some (bytes.foldl putc s) := by
  obtain ⟨hnonzero, rest, rfl⟩ := h
  induction bytes generalizing s with
  | nil => simp [vgaPuts]
  | cons byte bytes ih =>
      have hbyte : byte ≠ 0 := hnonzero byte (by simp)
      rw [List.map_cons, List.cons_append, vgaPuts, if_neg hbyte,
        ih _ (fun b hb => hnonzero b (by simp [hb]))]
      rfl

/-- `vga_puts` sends the bytes of its string, in order, and stops at the terminator. -/
theorem vgaPuts_cString (str : CString) (s : σ) :
    vgaPuts putc str.buffer s = some (str.bytes.foldl putc s) :=
  vgaPuts_of_holds putc str.buffer_holds s

end Sink

end Brunix
