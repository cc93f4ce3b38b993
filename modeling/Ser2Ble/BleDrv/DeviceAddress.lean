import Ser2Ble.YsRom.DeviceConfig

/-!
# The device address of `vendor/common/ble_drv.c`

The address is drawn at random when the first word of its sector looks blank,
and programmed without an erase; otherwise it is read back.
-/

namespace Ser2Ble.BleDrv

open Library Proj YsRom

/-! ## The model -/

/-- `generateRandomNum`; `rand k` is what the call number `k` of `rand` in it returns. -/
def generateRandomNum (rand : Nat → UInt16) : Nat → List UInt8
  | 0 => []
  | 1 => [(rand 0).toUInt8]
  | len + 2 =>
      (rand 0 &&& 0xFF).toUInt8 :: (rand 0 >>> 8 &&& 0xFF).toUInt8 ::
        generateRandomNum (fun call => rand (call + 1)) len

/-- `CFG_ADR_MAC`. -/
def cfgAdrMac : Nat := 0x76000

/-- `*pmac == U32_MAX`. -/
def macBlank (flash : Nat → UInt8) : Bool :=
  decide (loadU32 flash cfgAdrMac = 0xFFFFFFFF)

/-- The first part of `ble_drv_init`: `tbl_mac` and the flash operations made for it. -/
def bleDrvInit (flash : Nat → UInt8) (rand : Nat → UInt16) : List UInt8 × List NorFlash.Op :=
  if macBlank flash then
    (generateRandomNum rand 6, NorFlash.programBytes cfgAdrMac (generateRandomNum rand 6))
  else (Cells.window flash cfgAdrMac 6, [])

/-- The flash before boot number `boot`; `rand boot` are the random numbers of that boot. -/
def flashAt (flash : Nat → UInt8) (rand : Nat → Nat → UInt16) : Nat → Nat → UInt8
  | 0 => flash
  | boot + 1 =>
      NorFlash.run sectorSize (flashAt flash rand boot)
        (bleDrvInit (flashAt flash rand boot) (rand boot)).2

/-- The address passed to `blc_ll_initBasicMCU` on boot number `boot`. -/
def address (flash : Nat → UInt8) (rand : Nat → Nat → UInt16) (boot : Nat) : List UInt8 :=
  (bleDrvInit (flashAt flash rand boot) (rand boot)).1

/-- Every boot uses the address that is stored after the first one. -/
def AddressStable (flash : Nat → UInt8) (rand : Nat → Nat → UInt16) : Prop :=
  ∀ boot, address flash rand boot = Cells.window (flashAt flash rand 1) cfgAdrMac 6

/-! ## Boots on the six bytes -/

/-- The first four of the bytes are erased. -/
def looksBlank (bytes : List UInt8) : Prop :=
  bytes.take 4 = List.replicate 4 0xFF

instance (bytes : List UInt8) : Decidable (looksBlank bytes) :=
  inferInstanceAs (Decidable (_ = _))

/-- The six bytes before boot number `boot`. -/
def stored (flash : Nat → UInt8) (rand : Nat → Nat → UInt16) (boot : Nat) : List UInt8 :=
  Cells.window (flashAt flash rand boot) cfgAdrMac 6

/-- The bytes drawn on boot number `boot`, if it draws any. -/
def drawn (rand : Nat → Nat → UInt16) (boot : Nat) : List UInt8 :=
  generateRandomNum (rand boot) 6

theorem loadU32_erased_iff (flash : Nat → UInt8) (addr : Nat) :
    loadU32 flash addr = 0xFFFFFFFF ↔ looksBlank (Cells.window flash addr 6) := by
  have first := (flash addr).toNat_lt
  have second := (flash (addr + 1)).toNat_lt
  have third := (flash (addr + 2)).toNat_lt
  have fourth := (flash (addr + 3)).toNat_lt
  have bytes : (Cells.window flash addr 6).take 4 =
      [flash addr, flash (addr + 1), flash (addr + 2), flash (addr + 3)] := rfl
  have blank : List.replicate 4 (0xFF : UInt8) = [0xFF, 0xFF, 0xFF, 0xFF] := rfl
  rw [looksBlank, bytes, blank, loadU32]
  simp only [List.cons.injEq, and_true, ← UInt8.toNat_inj]
  change _ ↔ (flash addr).toNat = 255 ∧ (flash (addr + 1)).toNat = 255 ∧
    (flash (addr + 2)).toNat = 255 ∧ (flash (addr + 3)).toNat = 255
  omega

section Boots

variable (flash : Nat → UInt8) (rand : Nat → Nat → UInt16) (boot : Nat)

theorem address_eq : address flash rand boot =
    if looksBlank (stored flash rand boot) then drawn rand boot else stored flash rand boot := by
  rw [address, bleDrvInit, macBlank]
  simp only [decide_eq_true_eq, loadU32_erased_iff]
  split
  · next blank => exact (if_pos blank).symm
  · next programmed => exact (if_neg programmed).symm

theorem drawn_length : (drawn rand boot).length = 6 := rfl

/-- A boot that draws clears bits of what was stored. -/
theorem stored_succ : stored flash rand (boot + 1) =
    if looksBlank (stored flash rand boot) then
      (stored flash rand boot).zipWith (· &&& ·) (drawn rand boot)
    else stored flash rand boot := by
  have written := NorFlash.window_programBytes sectorSize (flashAt flash rand boot) cfgAdrMac
    (drawn rand boot)
  rw [drawn_length] at written
  rw [stored, flashAt, bleDrvInit, macBlank]
  simp only [decide_eq_true_eq, loadU32_erased_iff]
  split
  · next blank => exact written.trans (if_pos blank).symm
  · next programmed => exact (if_neg programmed).symm

end Boots

section Stable

variable {flash : Nat → UInt8} {rand : Nat → Nat → UInt16}

theorem programmed_kept {bytes : List UInt8} (programmed : ¬ looksBlank bytes) {boot : Nat}
    (held : stored flash rand boot = bytes) (later : Nat) :
    stored flash rand (boot + later) = bytes := by
  induction later with
  | zero => exact held
  | succ later ih => rw [← Nat.add_assoc, stored_succ, ih, if_neg programmed]

theorem zipWith_and_self (bytes : List UInt8) : bytes.zipWith (· &&& ·) bytes = bytes := by
  induction bytes with
  | nil => rfl
  | cons byte rest ih => rw [List.zipWith_cons_cons, UInt8.and_self, ih]

theorem programmed_stable (programmed : ¬ looksBlank (stored flash rand 0)) :
    AddressStable flash rand := by
  intro boot
  have kept := fun later => @programmed_kept flash rand _ programmed 0 rfl later
  have now := kept boot
  rw [Nat.zero_add] at now
  rw [address_eq, now, if_neg programmed]
  exact (kept 1).symm

/-- What the first boot stored is kept while every boot that draws again draws the same. -/
theorem redrawn_kept (first : stored flash rand 1 = drawn rand 0)
    (again : ∀ boot, looksBlank (drawn rand 0) → stored flash rand (boot + 1) = drawn rand 0 →
      drawn rand (boot + 1) = drawn rand 0) (boot : Nat) :
    stored flash rand (boot + 1) = drawn rand 0 := by
  induction boot with
  | zero => exact first
  | succ boot ih =>
      rw [stored_succ, ih]
      split
      · next blank =>
          rw [again boot blank ih]
          exact zipWith_and_self _
      · rfl

/--
Once the first boot has stored what it drew, the address is stable exactly when
that does not look blank or every boot draws the same bytes.
-/
theorem drawn_stable_iff (blank : looksBlank (stored flash rand 0))
    (first : stored flash rand 1 = drawn rand 0) :
    AddressStable flash rand ↔
      ¬ looksBlank (drawn rand 0) ∨ ∀ boot, drawn rand boot = drawn rand 0 := by
  constructor
  · intro stable
    by_cases again : looksBlank (drawn rand 0)
    · right
      have redraws : ∀ boot, stored flash rand (boot + 1) = drawn rand 0 →
          drawn rand (boot + 1) = drawn rand 0 := by
        intro boot held
        have used := stable (boot + 1)
        rw [address_eq, held, if_pos again] at used
        exact used.trans first
      intro boot
      cases boot with
      | zero => rfl
      | succ boot => exact redraws boot (redrawn_kept first (fun boot _ => redraws boot) boot)
    · exact Or.inl again
  · rintro (programmed | same) boot
    · change _ = stored flash rand 1
      cases boot with
      | zero => rw [address_eq, if_pos blank, first]
      | succ boot =>
          have kept := programmed_kept programmed first boot
          rw [Nat.add_comm 1] at kept
          rw [address_eq, kept, if_neg programmed, first]
    · change _ = stored flash rand 1
      have held := redrawn_kept first fun boot _ _ => same (boot + 1)
      rw [address_eq, same boot]
      cases boot with
      | zero => rw [if_pos blank, first]
      | succ boot =>
          rw [held boot, first]
          split <;> rfl

/-- The first boot stores what it draws exactly when its last word fits what was stored. -/
theorem first_boot_iff (blank : looksBlank (stored flash rand 0)) :
    stored flash rand 1 = drawn rand 0 ↔
      flash (cfgAdrMac + 4) &&& (rand 0 2 &&& 0xFF).toUInt8 = (rand 0 2 &&& 0xFF).toUInt8 ∧
      flash (cfgAdrMac + 5) &&& (rand 0 2 >>> 8 &&& 0xFF).toUInt8 =
        (rand 0 2 >>> 8 &&& 0xFF).toUInt8 := by
  have erased : flash cfgAdrMac = 0xFF ∧ flash (cfgAdrMac + 1) = 0xFF ∧
      flash (cfgAdrMac + 2) = 0xFF ∧ flash (cfgAdrMac + 3) = 0xFF ∧ True := by
    have bytes : [flash cfgAdrMac, flash (cfgAdrMac + 1), flash (cfgAdrMac + 2),
        flash (cfgAdrMac + 3)] = [0xFF, 0xFF, 0xFF, 0xFF] := blank
    simpa only [List.cons.injEq] using bytes
  have before : stored flash rand 0 = [flash cfgAdrMac, flash (cfgAdrMac + 1),
    flash (cfgAdrMac + 2), flash (cfgAdrMac + 3), flash (cfgAdrMac + 4), flash (cfgAdrMac + 5)] := rfl
  have full : ∀ byte : UInt8, 0xFF &&& byte = byte := by
    intro byte
    rw [UInt8.and_comm]
    exact UInt8.and_neg_one
  rw [stored_succ, if_pos blank, before, erased.1, erased.2.1, erased.2.2.1, erased.2.2.2.1, drawn]
  simp only [generateRandomNum, List.zipWith_cons_cons, List.zipWith_nil_left, full,
    List.cons.injEq, and_true, true_and]

end Stable

/-! ## Drawn words -/

/-- The bytes of a word, the low one first. -/
theorem word_bytes (word : UInt16) :
    (word &&& 0xFF).toUInt8.toNat = word.toNat % 2 ^ 8 ∧
      (word >>> 8 &&& 0xFF).toUInt8.toNat = word.toNat / 2 ^ 8 := by
  have bound := word.toNat_lt
  have low : ∀ other : UInt16, (other &&& 0xFF).toNat = other.toNat % 2 ^ 8 := by
    intro other
    rw [UInt16.toNat_and]
    exact Nat.and_two_pow_sub_one_eq_mod _ 8
  have high : (word >>> 8).toNat = word.toNat / 2 ^ 8 := by
    rw [UInt16.toNat_shiftRight]
    exact Nat.shiftRight_eq_div_pow _ 8
  rw [UInt16.toNat_toUInt8, UInt16.toNat_toUInt8, low, low, high]
  omega

theorem word_eq_iff (first second : UInt16) :
    ((first &&& 0xFF).toUInt8 = (second &&& 0xFF).toUInt8 ∧
      (first >>> 8 &&& 0xFF).toUInt8 = (second >>> 8 &&& 0xFF).toUInt8) ↔ first = second := by
  have one := word_bytes first
  have two := word_bytes second
  rw [← UInt8.toNat_inj, ← UInt8.toNat_inj, one.1, one.2, two.1, two.2, ← UInt16.toNat_inj]
  omega

theorem drawn_eq_iff (rand : Nat → Nat → UInt16) (first second : Nat) :
    drawn rand first = drawn rand second ↔
      rand first 0 = rand second 0 ∧ rand first 1 = rand second 1 ∧
        rand first 2 = rand second 2 := by
  rw [← word_eq_iff (rand first 0), ← word_eq_iff (rand first 1), ← word_eq_iff (rand first 2)]
  simp only [drawn, generateRandomNum, List.cons.injEq, and_true, and_assoc, Nat.zero_add]

theorem drawn_looksBlank_iff (rand : Nat → Nat → UInt16) (boot : Nat) :
    looksBlank (drawn rand boot) ↔ rand boot 0 = 0xFFFF ∧ rand boot 1 = 0xFFFF := by
  rw [← word_eq_iff (rand boot 0), ← word_eq_iff (rand boot 1)]
  change [_, _, _, _] = [_, _, _, _] ↔ _
  simp only [List.cons.injEq, and_true, and_assoc, Nat.zero_add]
  rfl

/--
The address is the same on every boot exactly when the sector does not look
blank, or the last word drawn on the first boot needs no bit that the sector
has lost and, unless the first two words are usable, every boot draws the same.
-/
theorem address_stable_iff (flash : Nat → UInt8) (rand : Nat → Nat → UInt16) :
    AddressStable flash rand ↔
      macBlank flash = false ∨
        (flash (cfgAdrMac + 4) &&& (rand 0 2 &&& 0xFF).toUInt8 = (rand 0 2 &&& 0xFF).toUInt8 ∧
          flash (cfgAdrMac + 5) &&& (rand 0 2 >>> 8 &&& 0xFF).toUInt8 =
            (rand 0 2 >>> 8 &&& 0xFF).toUInt8) ∧
        (¬ (rand 0 0 = 0xFFFF ∧ rand 0 1 = 0xFFFF) ∨
          ∀ boot, rand boot 0 = rand 0 0 ∧ rand boot 1 = rand 0 1 ∧ rand boot 2 = rand 0 2) := by
  have test : macBlank flash = false ↔ ¬ looksBlank (stored flash rand 0) := by
    rw [macBlank, decide_eq_false_iff_not, loadU32_erased_iff]
    rfl
  rw [test, ← drawn_looksBlank_iff]
  simp only [← drawn_eq_iff]
  by_cases blank : looksBlank (stored flash rand 0)
  · rw [or_iff_right (not_not_intro blank), ← first_boot_iff blank]
    constructor
    · intro stable
      have first : stored flash rand 1 = drawn rand 0 := by
        have used := stable 0
        rw [address_eq, if_pos blank] at used
        exact used.symm
      exact ⟨first, (drawn_stable_iff blank first).mp stable⟩
    · rintro ⟨first, later⟩
      exact (drawn_stable_iff blank first).mpr later
  · exact iff_of_true (programmed_stable blank) (Or.inl blank)

/-- Random numbers whose first two words look blank, on the first boot only. -/
def blankOnce (boot call : Nat) : UInt16 :=
  if boot = 0 ∧ call < 2 then 0xFFFF else 0x2211

/-- On an erased sector the second boot draws a new address. -/
theorem address_redrawn :
    address (fun _ => 0xFF) blankOnce 0 = [0xFF, 0xFF, 0xFF, 0xFF, 0x11, 0x22] ∧
      address (fun _ => 0xFF) blankOnce 1 = [0x11, 0x22, 0x11, 0x22, 0x11, 0x22] ∧
      ¬ AddressStable (fun _ => 0xFF) blankOnce :=
  ⟨by decide, by decide, fun stable => absurd (stable 1) (by decide)⟩

end Ser2Ble.BleDrv
