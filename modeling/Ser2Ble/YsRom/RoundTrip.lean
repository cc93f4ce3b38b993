import Ser2Ble.YsRom.DeviceConfig

/-!
# Saving a configuration and loading it again

The transmit levels are those of `proj_lib/rf_drv_8266.h`.  They are numbered
from the strongest down, so the loader's test against the first of them rejects
all the others.
-/

namespace Ser2Ble.YsRom

open Library YsUart

/-- The transmit levels `RF_POWER_*` of the chip. -/
inductive RfPower where
  | rfPower8dBm
  | rfPower4dBm
  | rfPower0dBm
  | rfPowerM4dBm
  | rfPowerM10dBm
  | rfPowerM14dBm
  | rfPowerM20dBm
  | rfPowerM24dBm
  | rfPowerM28dBm
  | rfPowerM30dBm
  | rfPowerM37dBm
  | rfPowerOff
  deriving DecidableEq, Repr

/-- The value of the enumerator. -/
def RfPower.code : RfPower → UInt8
  | rfPower8dBm => 0
  | rfPower4dBm => 1
  | rfPower0dBm => 2
  | rfPowerM4dBm => 3
  | rfPowerM10dBm => 4
  | rfPowerM14dBm => 5
  | rfPowerM20dBm => 6
  | rfPowerM24dBm => 8
  | rfPowerM28dBm => 9
  | rfPowerM30dBm => 10
  | rfPowerM37dBm => 11
  | rfPowerOff => 16

/-- The flash operations of `ys_rom_load_device_config`. -/
def loadOperations (product : Product) (flash : Nat → UInt8) : List NorFlash.Op :=
  if (DeviceCfg.read flash).recoverFlag ≠ 0 then
    ysRomSaveDeviceConfig ((DeviceCfg.read flash).recovered product)
  else []

theorem load_snd (product : Product) (flash : Nat → UInt8) :
    (ysRomLoadDeviceConfig product flash).2 =
      NorFlash.run sectorSize flash (loadOperations product flash) := by
  unfold ysRomLoadDeviceConfig loadOperations
  dsimp only
  split <;> rfl

theorem loadOperations_eq_nil_iff (product : Product) (flash : Nat → UInt8) :
    loadOperations product flash = [] ↔ (DeviceCfg.read flash).recoverFlag = 0 := by
  unfold loadOperations
  split
  · next rejected =>
      refine iff_of_false ?_ rejected
      rw [ysRomSaveDeviceConfig]
      exact List.cons_ne_nil _ _
  · next accepted => exact iff_of_true rfl (not_not.mp accepted)

/-- A load that finds nothing to repair returns what the flash holds. -/
theorem load_accepted (product : Product) {flash : Nat → UInt8}
    (accepted : (DeviceCfg.read flash).recoverFlag = 0) :
    ysRomLoadDeviceConfig product flash = (DeviceCfg.read flash, flash) := by
  rw [ysRomLoadDeviceConfig, if_neg (not_not_intro accepted),
    recovered_of_accepted product accepted]

/-- Saved over `flash`, the configuration is loaded back without a flash operation. -/
def LoadsBack (product : Product) (flash : Nat → UInt8) (cfg : DeviceCfg) : Prop :=
  let saved := NorFlash.run sectorSize flash (ysRomSaveDeviceConfig cfg)
  (ysRomLoadDeviceConfig product saved).1 = cfg ∧ loadOperations product saved = []

/-- A saved configuration is loaded back exactly when the loader accepts each of its fields. -/
theorem loadsBack_iff_accepted (product : Product) (flash : Nat → UInt8) (cfg : DeviceCfg) :
    LoadsBack product flash cfg ↔ cfg.recoverFlag = 0 := by
  have held := read_save flash cfg
  rw [LoadsBack, loadOperations_eq_nil_iff, held, load_fst, held]
  exact ⟨fun back => back.2, fun accepted => ⟨recovered_of_accepted product accepted, accepted⟩⟩

theorem nameErased_eq_false {cfg : DeviceCfg} (first : cfg.devName.headD 0 ≠ 0xFF) :
    cfg.nameErased = false := by
  refine decide_eq_false fun above => first ?_
  rw [UInt8.le_iff_toNat_le] at above
  have bound := (cfg.devName.headD 0).toNat_lt
  change 255 ≤ (cfg.devName.headD 0).toNat at above
  apply UInt8.toNat_inj.mp
  change (cfg.devName.headD 0).toNat = 255
  omega

/-- Of the transmit levels the loader accepts the first one only. -/
theorem level_accepted_iff (level : RfPower) :
    ¬ rfPower8dBm < level.code ↔ level = .rfPower8dBm := by
  cases level <;> decide

/-- What the rest of the program calls a valid configuration. -/
structure Declared (cfg : DeviceCfg) : Prop where
  terminated : 0 ∈ cfg.devName
  first : cfg.devName.headD 0 ≠ 0xFF
  txPower : ∃ level : RfPower, cfg.txPower = level.code
  baudrate : cfg.baudrate ≤ UartBaudTypeDef.uartBaud230400.code

/-- Among valid configurations, saving and loading is the identity at the strongest level only. -/
theorem save_load_identity_iff (product : Product) (flash : Nat → UInt8) (cfg : DeviceCfg)
    (declared : Declared cfg) :
    LoadsBack product flash cfg ↔ cfg.txPower = RfPower.rfPower8dBm.code := by
  obtain ⟨level, power⟩ := declared.txPower
  have name := nameErased_eq_false declared.first
  have baud : ¬ UartBaudTypeDef.uartBaud230400.code < cfg.baudrate :=
    UInt8.not_lt.mpr declared.baudrate
  rw [loadsBack_iff_accepted, recoverFlag_eq_zero_iff, power, level_accepted_iff]
  constructor
  · rintro ⟨_, strongest, _⟩
    rw [strongest]
  · intro same
    refine ⟨name, ?_, baud⟩
    cases level <;> first | rfl | cases same

/-- The configuration of a ser2ble device set to a weaker transmit level. -/
def ser2bleAt (level : RfPower) : DeviceCfg :=
  { ser2bleAt9600 with txPower := level.code }

theorem ser2bleAt_declared (level : RfPower) : Declared (ser2bleAt level) :=
  ⟨ser2bleAt9600_valid.terminated, ser2bleAt9600_valid.first, ⟨level, rfl⟩,
    ser2bleAt9600_valid.baudrate⟩

theorem save_load_identity_iff_strongest :
    LoadsBack .ser2ble (fun _ => 0) (ser2bleAt .rfPower8dBm) :=
  (save_load_identity_iff .ser2ble (fun _ => 0) (ser2bleAt .rfPower8dBm)
    (ser2bleAt_declared .rfPower8dBm)).mpr rfl

/-- Saved at 0 dBm, the device comes back at 8 dBm and rewrites its sector. -/
theorem saved_level_rejected :
    Declared (ser2bleAt .rfPower0dBm) ∧
      ¬ LoadsBack .ser2ble (fun _ => 0) (ser2bleAt .rfPower0dBm) := by
  refine ⟨ser2bleAt_declared .rfPower0dBm, fun back => ?_⟩
  rw [loadsBack_iff_accepted] at back
  exact absurd back (by decide)

end Ser2Ble.YsRom
