import Brunix.Kernel.Output

/-!
# The keyboard, `keyboard.c`

A key that goes down prints its character, read from a table of 128. A key that comes up has the top
bit in its scancode and prints nothing, and the read of the table is behind the test of that bit. Most
of the table is zero, and the console ignores what it has no glyph for, so such keys print nothing as
well.
-/

namespace Brunix

open Basis

/-! ### `keyboard.c` -/

/-- `kbd_US`, a row of keys at a time. What its initialiser leaves out is zero. -/
def kbdUs : List Byte :=
  [0, 27] ++ asciiBytes "1234567890-=" ++ [0x08, 0x09]
    ++ asciiBytes "qwertyuiop[]" ++ [0x0A, 0]
    ++ asciiBytes "asdfghjkl;" ++ [0x27, 0x60, 0, 0x5C]
    ++ asciiBytes "zxcvbnm,./" ++ [0] ++ asciiBytes "*" ++ [0] ++ asciiBytes " " ++ [0]
    -- the function keys up to F10, then those of the right block
    ++ List.replicate 10 0
    ++ [0, 0, 0, 0, 0] ++ asciiBytes "-" ++ [0, 0, 0] ++ asciiBytes "+" ++ [0, 0, 0, 0, 0]
    ++ List.replicate 44 0

/-- `kbd_callback`, given what `inb(0x60)` reads. -/
def kbdCallback (scancode : Byte) : Option (List Action) :=
  if scancode &&& 0x80 ≠ 0 then some []
  else do
    let key ← kbdUs[scancode.toNat]?
    some [.printk "%c" [key.setWidth 32]]

/-! ### What is typed -/

/-- The character a scancode stands for. -/
def keyText (scancode : Byte) : List Byte :=
  match kbdUs[scancode.toNat]? with
  | some key => if Inert key then [] else [key]
  | none => []

theorem length_kbdUs : kbdUs.length = 128 := by
  decide +kernel

theorem and_topBit_eq_zero : ∀ scancode : Byte, scancode &&& 0x80 = 0 ↔ scancode.toNat < 128 := by
  decide +kernel

theorem keyText_release {scancode : Byte} (h : 128 ≤ scancode.toNat) : keyText scancode = [] := by
  have hout : kbdUs[scancode.toNat]? = none := by
    rw [List.getElem?_eq_none_iff, length_kbdUs]
    exact h
  rw [keyText, hout]

theorem foldl_keyText {scancode key : Byte} (hkey : kbdUs[scancode.toNat]? = some key)
    (t : Terminal) : (keyText scancode).foldl Terminal.putc t = t.putc key := by
  simp only [keyText, hkey]
  split
  · next h => exact (t.putc_inert h).symm
  · rfl

theorem keyFormat_eq : asciiBytes "%c" = [ch '%', ch 'c'] := by
  decide

theorem expand_key (strAt : Word → Buffer) (key : Byte) :
    expand strAt (asciiBytes "%c") [key.setWidth 32] = [key] := by
  have hkey : (key.setWidth 32 : Word).setWidth 8 = key := by
    rw [BitVec.setWidth_setWidth_of_le _ (by decide), BitVec.setWidth_eq]
  have hop : ch 'c' ∈ conversionChars := by decide
  have htext : conversionText strAt (ch 'c') (key.setWidth 32) = [key] :=
    congrArg (fun byte => [byte]) hkey
  rw [keyFormat_eq, expand_conversion strAt hop, htext]
  rfl

theorem fits_key (strAt : Word → Buffer) (key : Byte) :
    (Action.printk "%c" [key.setWidth 32]).Fits strAt :=
  Action.fits_of_takesNumbers (show Action.takesNumbers (asciiBytes "%c") 1 = true by decide) rfl

theorem kbdCallback_spec (strAt : Word → Buffer) (scancode : Byte) :
    ∃ actions, kbdCallback scancode = some actions ∧ (∀ action ∈ actions, action.Fits strAt)
      ∧ ∀ t, actions.foldl (Action.onTerminal strAt) t = (keyText scancode).foldl Terminal.putc t := by
  by_cases hrelease : scancode.toNat < 128
  · have hpress : scancode &&& 0x80 = 0 := (and_topBit_eq_zero scancode).mpr hrelease
    have hbound : scancode.toNat < kbdUs.length := by rwa [length_kbdUs]
    obtain ⟨key, hkey⟩ : ∃ key, kbdUs[scancode.toNat]? = some key :=
      ⟨_, List.getElem?_eq_getElem hbound⟩
    refine ⟨[.printk "%c" [key.setWidth 32]], ?_, ?_, fun t => ?_⟩
    · rw [kbdCallback, if_neg (not_not_intro hpress), hkey]
      rfl
    · intro action haction
      rw [List.mem_singleton.mp haction]
      exact fits_key strAt key
    · rw [foldl_keyText hkey]
      change (expand strAt (asciiBytes "%c") [key.setWidth 32]).foldl Terminal.putc t = t.putc key
      rw [expand_key]
      rfl
  · have hpress : scancode &&& 0x80 ≠ 0 := mt (and_topBit_eq_zero scancode).mp hrelease
    refine ⟨[], if_pos hpress, fun _ haction => absurd haction List.not_mem_nil, fun t => ?_⟩
    rw [keyText_release (by omega)]
    rfl

def typeScancodes (strAt : Word → Buffer) (scancodes : List Byte) (s : Vga) : Option Vga :=
  scancodes.foldlM (fun s scancode => do
    let actions ← kbdCallback scancode
    actions.foldlM (Action.onConsole strAt) s) s

/-- Whatever scancodes arrive, the table is read within its bounds, and the console comes to show the
terminal that was sent the characters of the keys that went down, in their order. -/
theorem typeScancodes_spec (strAt : Word → Buffer) (scancodes : List Byte) {s : Vga} {t : Terminal}
    (h : Displays s t) :
    ∃ s', typeScancodes strAt scancodes s = some s'
      ∧ Displays s' ((scancodes.flatMap keyText).foldl Terminal.putc t) := by
  have hstep (s : Vga) (t : Terminal) (scancode : Byte) (h : Displays s t) :
      ∃ s', (kbdCallback scancode >>= fun actions => actions.foldlM (Action.onConsole strAt) s)
        = some s' ∧ Displays s' ((keyText scancode).foldl Terminal.putc t) := by
    obtain ⟨actions, hactions, hfits, hterminal⟩ := kbdCallback_spec strAt scancode
    obtain ⟨s', hrun, hdisplays⟩ := h.actions hfits
    rw [hterminal] at hdisplays
    refine ⟨s', ?_, hdisplays⟩
    rw [hactions]
    exact hrun
  rw [List.foldl_flatMap]
  exact foldlM_simulation Displays (fun _ => True) (fun s t scancode _ => hstep s t scancode) scancodes
    (fun _ _ => trivial) h

/-- Two keys that go down and come up, and a third with a modifier that has no character. -/
theorem typeScancodes_ok :
    ∃ s', typeScancodes (fun _ => []) [0x18, 0x98, 0x25, 0xA5, 0x2A, 0x1C, 0x9C, 0xAA]
        (vgaInit (.boot (fun _ => 0) ⟨0, fun _ => 0⟩)) = some s'
      ∧ Displays s' ((asciiBytes "ok\n").foldl Terminal.putc (.empty colorBlack colorWhite)) :=
  typeScancodes_spec _ _ (displays_vgaInit _ _)

end Brunix
