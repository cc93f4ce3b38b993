import Ser2Ble.App.PowerCycles
import Ser2Ble.Proj.Flash

/-!
# The flash of the device on its chip

The other modules keep the flash as cells and change them by operations.  Here
the same code makes its calls of the driver, and the cells of the chip turn out
to be those cells.
-/

namespace Ser2Ble.App

open Library Proj SpiFlash YsRom YsUart BleDrv

/-- A chip of the kind that the addresses are laid out for; it is never busy for longer than the driver waits. -/
structure Fitted (part : Part) : Prop where
  sector : part.sector = sectorSize
  page : part.page = 0x100
  prompt : ∀ operation, part.delay operation ≤ waitTries

/-! ## The calls -/

section Calls

variable (part : Part)

/-- `ys_rom_save_device_config`. -/
def saveOnChip (m : Mspi) (cfg : DeviceCfg) : Mspi :=
  flashWritePage part (flashEraseSector part m 0x7A000) 0x7A000 cfg.toBytes

/-- `ys_rom_load_device_config` of ser2ble. -/
def loadOnChip (m : Mspi) : DeviceCfg × Mspi :=
  let page := flashReadPage part m 0x7A000 24
  let cfg := DeviceCfg.read (Cells.copy (fun _ => 0) cfgAddrDevice page.1)
  if cfg.recoverFlag ≠ 0 then
    (cfg.recovered .ser2ble, saveOnChip part page.2 (cfg.recovered .ser2ble))
  else (cfg.recovered .ser2ble, page.2)

/-- The first part of `ble_drv_init`; `*pmac` is read through the address space of the processor. -/
def addressOnChip (m : Mspi) (rand : Nat → UInt16) : List UInt8 × Mspi :=
  if macBlank m.chip.cells then
    (generateRandomNum rand 6, flashWritePage part m 0x76000 (generateRandomNum rand 6))
  else flashReadPage part m 0x76000 6

/-- What a boot loads, the address it uses, and the chip it leaves. -/
def bootOnChip (m : Mspi) (rand : Nat → UInt16) : DeviceCfg × List UInt8 × Mspi :=
  let booted := loadOnChip part m
  let addressed := addressOnChip part booted.2 rand
  (booted.1, addressed.1, addressed.2)

/-- The saves of a run, one after another. -/
def savesOnChip (m : Mspi) (edges : List AppTransition) : Mspi :=
  (edges.filterMap savedConfig).foldl (saveOnChip part) m

end Calls

/-! ## What they do -/

section Refinement

variable {part : Part} {m : Mspi}

theorem saveOnChip_chip (fitted : Fitted part) (ready : Ready m.chip) (cfg : DeviceCfg) :
    Ready (saveOnChip part m cfg).chip ∧ (saveOnChip part m cfg).chip.cells =
      NorFlash.run sectorSize m.chip.cells (ysRomSaveDeviceConfig cfg) := by
  have length := cfg.toBytes_length
  have some : cfg.toBytes ≠ [] := List.ne_nil_of_length_eq_add_one length
  obtain ⟨_, erased, cells⟩ := @call_refines part fitted.prompt m ready (.eraseSector 0x7A000)
    (by simp [FlashCall.Fits])
  obtain ⟨_, written, bytes⟩ := @call_refines part fitted.prompt _ erased
    (.writePage 0x7A000 cfg.toBytes) (by simp [FlashCall.Fits, fitted.page, length, some])
  rw [cells, ← NorFlash.run_append, fitted.sector] at bytes
  exact ⟨written, bytes.trans (by simp [FlashCall.ops, ysRomSaveDeviceConfig, cfgAddrDevice])⟩

/-- The structure holds what was read into it. -/
theorem read_buffer (cells : Nat → UInt8) :
    DeviceCfg.read (Cells.copy (fun _ => 0) cfgAddrDevice (Cells.window cells cfgAddrDevice 24)) =
      DeviceCfg.read cells := by
  apply DeviceCfg.toBytes_injective
  have copied := Cells.window_copy (fun _ => 0) cfgAddrDevice (Cells.window cells cfgAddrDevice 24)
  rw [Cells.window_length] at copied
  rw [DeviceCfg.toBytes_read, DeviceCfg.toBytes_read, copied]

theorem loadOnChip_chip (fitted : Fitted part) (ready : Ready m.chip) :
    (loadOnChip part m).1 = loaded m.chip.cells ∧ Ready (loadOnChip part m).2.chip ∧
      (loadOnChip part m).2.chip.cells = checked m.chip.cells := by
  obtain ⟨bytes, chip⟩ := @readPage_chip part m ready 0x7A000 24 (by decide) (by decide)
  have config : DeviceCfg.read (Cells.copy (fun _ => 0) cfgAddrDevice
      (flashReadPage part m 0x7A000 24).1) = DeviceCfg.read m.chip.cells := by
    rw [bytes]
    exact read_buffer m.chip.cells
  rw [← chip] at ready
  obtain ⟨still, cells⟩ := saveOnChip_chip fitted ready
    ((DeviceCfg.read m.chip.cells).recovered .ser2ble)
  rw [chip] at cells
  unfold loadOnChip loaded checked ysRomLoadDeviceConfig
  dsimp only
  rw [config]
  split
  · exact ⟨rfl, still, cells⟩
  · exact ⟨rfl, ready, congrArg Chip.cells chip⟩

theorem addressOnChip_chip (fitted : Fitted part) (ready : Ready m.chip) (rand : Nat → UInt16) :
    (addressOnChip part m rand).1 = (bleDrvInit m.chip.cells rand).1 ∧
      Ready (addressOnChip part m rand).2.chip ∧ (addressOnChip part m rand).2.chip.cells =
        NorFlash.run sectorSize m.chip.cells (bleDrvInit m.chip.cells rand).2 := by
  unfold addressOnChip bleDrvInit
  split
  · have fits : (FlashCall.writePage 0x76000 (generateRandomNum rand 6)).Fits part := by
      simp [FlashCall.Fits, fitted.page, generateRandomNum]
    obtain ⟨_, still, cells⟩ := call_refines fitted.prompt ready fits
    rw [fitted.sector] at cells
    exact ⟨rfl, still, cells⟩
  · obtain ⟨bytes, chip⟩ := @readPage_chip part m ready 0x76000 6 (by decide) (by decide)
    refine ⟨bytes, ?_, ?_⟩
    · rw [chip]
      exact ready
    · rw [chip]
      rfl

/-- A boot on the chip is the boot of the model. -/
theorem bootOnChip_chip (fitted : Fitted part) (ready : Ready m.chip) (rand : Nat → UInt16)
    (gpioRead : UInt32) :
    (bootOnChip part m rand).1 = loaded m.chip.cells ∧
      (bootOnChip part m rand).2.1 = bootAddress m.chip.cells rand ∧
      Ready (bootOnChip part m rand).2.2.chip ∧ (bootOnChip part m rand).2.2.chip.cells =
        (ser2bleInit m.chip.cells rand gpioRead).flash := by
  obtain ⟨config, loadedReady, loadedCells⟩ := loadOnChip_chip fitted ready
  obtain ⟨address, still, cells⟩ := addressOnChip_chip fitted loadedReady rand
  rw [loadedCells] at address cells
  have flash : (ser2bleInit m.chip.cells rand gpioRead).flash =
      NorFlash.run sectorSize (checked m.chip.cells) (bleDrvInit (checked m.chip.cells) rand).2 := rfl
  rw [flash, bootAddress, bootOnChip]
  dsimp only
  exact ⟨config, address, still, cells⟩

theorem savesOnChip_nil (m : Mspi) : savesOnChip part m [] = m := rfl

theorem savesOnChip_last (m : Mspi) (edges : List AppTransition) (edge : AppTransition) :
    savesOnChip part m (edges ++ [edge]) =
      (savedConfig edge).elim (savesOnChip part m edges) (saveOnChip part (savesOnChip part m edges)) := by
  rw [savesOnChip, filterMap_last, List.foldl_append]
  cases savedConfig edge <;> rfl

/--
Over every run the calls of the driver, on a chip that is ready at power-on,
load the configuration and use the address of the model, and the cells of the
chip are its flash, so that what is proved of the one holds of the other.
-/
theorem flash_on_chip (fitted : Fitted part) (ready : Ready m.chip) {rand : Nat → UInt16}
    {gpioRead : UInt32} {edges : List AppTransition} {final : AppState}
    (run : AppRun m.chip.cells rand gpioRead edges final) :
    (bootOnChip part m rand).1 = loaded m.chip.cells ∧
      (bootOnChip part m rand).2.1 = bootAddress m.chip.cells rand ∧
      Ready (savesOnChip part (bootOnChip part m rand).2.2 edges).chip ∧
      (savesOnChip part (bootOnChip part m rand).2.2 edges).chip.cells = final.flash := by
  obtain ⟨config, address, still, cells⟩ := bootOnChip_chip fitted ready rand gpioRead
  refine ⟨config, address, ?_⟩
  induction run with
  | refl =>
      rw [savesOnChip_nil]
      exact ⟨still, cells⟩
  | @tail edges middle target event run taken ih =>
      rw [savesOnChip_last, (step_saves taken).flash]
      cases savedConfig ⟨middle, event, target⟩ with
      | none => exact ih
      | some cfg =>
          obtain ⟨after, written⟩ := saveOnChip_chip fitted ih.1 cfg
          exact ⟨after, written.trans (by rw [ih.2]; rfl)⟩

theorem fitted_smallPart : Fitted smallPart :=
  ⟨rfl, rfl, fun _ => (by decide : 1000 ≤ waitTries)⟩

/-- The rate that a command selects is in the sector of the chip. -/
theorem flash_on_chip_command :
    ∃ edges final, edges.map Edge.event = [AppEvent.command selectFastest] ∧
      AppRun (fun _ => 0xFF) (fun _ => 0x2211) 0x20 edges final ∧
      (savesOnChip smallPart (bootOnChip smallPart erasedChip fun _ => 0x2211).2.2 edges).chip.cells =
        final.flash := by
  obtain ⟨final, events, run⟩ := @enabled_run _ _ appStep
    (ser2bleInit (fun _ => 0xFF) (fun _ => 0x2211) 0x20) [.command selectFastest] rfl
  exact ⟨_, final, events, run,
    (@flash_on_chip smallPart erasedChip fitted_smallPart ⟨rfl, rfl⟩ _ _ _ _ run).2.2.2⟩

end Refinement

end Ser2Ble.App
