import Ser2Ble.Library.CString
import Ser2Ble.Library.NorFlash
import Ser2Ble.YsUart.Model

/-!
# The device configuration of `vendor/common/ys_rom.c`

The configuration is one page at the start of a flash sector.  Saving it erases
the sector and programs 24 bytes; loading it checks each field on its own,
replaces what it rejects and saves the result if it replaced anything.
-/

namespace Ser2Ble.YsRom

open Library YsUart

/-! ## The model -/

/-- `device_cfg_t`. -/
structure DeviceCfg where
  devName : List UInt8
  txPower : UInt8
  baudrate : UInt8
  reserved0 : UInt8
  reserved1 : UInt8
  devName_length : devName.length = 20

/-- The two products built from the sources. -/
inductive Product where
  | ser2ble
  | ser2hid

/-- `STRINGIFY(PRODUCT_NAME)`: "SER2BLE" or "SER2HID". -/
def Product.name : Product → List UInt8
  | .ser2ble => [0x53, 0x45, 0x52, 0x32, 0x42, 0x4C, 0x45]
  | .ser2hid => [0x53, 0x45, 0x52, 0x32, 0x48, 0x49, 0x44]

/-- `memset`, `strncpy` of the product name and `dev_name[19] = 0`. -/
def Product.devName (product : Product) : List UInt8 :=
  (product.name ++ List.replicate (20 - product.name.length) 0).set 19 0

/-- `CFG_ADDR_DEVICE`. -/
def cfgAddrDevice : Nat := 0x7A000

/-- Bytes erased by `flash_erase_sector`. -/
def sectorSize : Nat := 0x1000

def rfPower8dBm : UInt8 := 0

namespace DeviceCfg

/-- The memory of the structure. -/
def toBytes (cfg : DeviceCfg) : List UInt8 :=
  cfg.devName ++ [cfg.txPower, cfg.baudrate, cfg.reserved0, cfg.reserved1]

/-- `flash_read_page(CFG_ADDR_DEVICE, sizeof(device_cfg_t), cfg)`. -/
def read (flash : Nat → UInt8) : DeviceCfg where
  devName := Cells.window flash cfgAddrDevice 20
  txPower := flash (cfgAddrDevice + 20)
  baudrate := flash (cfgAddrDevice + 21)
  reserved0 := flash (cfgAddrDevice + 22)
  reserved1 := flash (cfgAddrDevice + 23)
  devName_length := Cells.window_length _ _ _

/-- `cfg->dev_name[0] >= U8_MAX`. -/
def nameErased (cfg : DeviceCfg) : Bool :=
  decide (0xFF ≤ cfg.devName.headD 0)

/-- `recover_flag`: how many fields the loader rejects. -/
def recoverFlag (cfg : DeviceCfg) : Nat :=
  (if cfg.nameErased then 1 else 0) + (if rfPower8dBm < cfg.txPower then 1 else 0) +
    (if UartBaudTypeDef.uartBaud230400.code < cfg.baudrate then 1 else 0)

end DeviceCfg

@[simp] theorem Product.devName_length (product : Product) : product.devName.length = 20 := by
  cases product <;> rfl

/-- The configuration after the loader's replacements. -/
def DeviceCfg.recovered (product : Product) (cfg : DeviceCfg) : DeviceCfg where
  devName := if cfg.nameErased then product.devName else cfg.devName
  txPower := if rfPower8dBm < cfg.txPower then rfPower8dBm else cfg.txPower
  baudrate :=
    if UartBaudTypeDef.uartBaud230400.code < cfg.baudrate then UartBaudTypeDef.uartBaud115200.code
    else cfg.baudrate
  reserved0 := cfg.reserved0
  reserved1 := cfg.reserved1
  devName_length := by
    split
    · exact product.devName_length
    · exact cfg.devName_length

/-- The flash operations of `ys_rom_save_device_config`. -/
def ysRomSaveDeviceConfig (cfg : DeviceCfg) : List NorFlash.Op :=
  .eraseSector cfgAddrDevice :: NorFlash.programBytes cfgAddrDevice cfg.toBytes

/-- The configuration loaded and the flash left behind; the repair makes the same calls as a save. -/
def ysRomLoadDeviceConfig (product : Product) (flash : Nat → UInt8) :
    DeviceCfg × (Nat → UInt8) :=
  let cfg := DeviceCfg.read flash
  let recovered := cfg.recovered product
  if cfg.recoverFlag ≠ 0 then
    (recovered, NorFlash.run sectorSize flash (ysRomSaveDeviceConfig recovered))
  else (recovered, flash)

/-- The flash when a save is cut off after the erase and `count` programmed bytes. -/
def interruptedSave (flash : Nat → UInt8) (cfg : DeviceCfg) (count : Nat) : Nat → UInt8 :=
  NorFlash.run sectorSize flash ((ysRomSaveDeviceConfig cfg).take (1 + count))

/-! ## Reading back -/

namespace DeviceCfg

theorem toBytes_length (cfg : DeviceCfg) : cfg.toBytes.length = 24 := by
  rw [toBytes, List.length_append, cfg.devName_length]
  rfl

theorem toBytes_read (flash : Nat → UInt8) :
    (read flash).toBytes = Cells.window flash cfgAddrDevice 24 := by
  rw [show 24 = 20 + 4 from rfl, Cells.window_append]
  rfl

theorem toBytes_injective {first second : DeviceCfg} (same : first.toBytes = second.toBytes) :
    first = second := by
  obtain ⟨name, rest⟩ := List.append_inj same
    (first.devName_length.trans second.devName_length.symm)
  obtain ⟨devName, txPower, baudrate, reserved0, reserved1, length⟩ := first
  simp only [List.cons.injEq, and_true] at rest
  obtain ⟨power, baud, zero, one⟩ := rest
  dsimp only at name power baud zero one
  subst name power baud zero one
  rfl

end DeviceCfg

/-- The page lies inside one sector. -/
theorem page_inside (other : Nat) (first : cfgAddrDevice ≤ other)
    (last : other < cfgAddrDevice + 24) : other / sectorSize = cfgAddrDevice / sectorSize := by
  unfold cfgAddrDevice at first last ⊢
  unfold sectorSize
  omega

/-- What an interrupted save leaves in the page. -/
theorem interruptedSave_bytes (flash : Nat → UInt8) (cfg : DeviceCfg) (count : Nat) :
    (DeviceCfg.read (interruptedSave flash cfg count)).toBytes =
      cfg.toBytes.take count ++ List.replicate (24 - (cfg.toBytes.take count).length) 0xFF := by
  have fits : (cfg.toBytes.take count).length ≤ 24 := by
    rw [List.length_take, cfg.toBytes_length]
    exact Nat.min_le_right _ _
  rw [DeviceCfg.toBytes_read, interruptedSave, ysRomSaveDeviceConfig, Nat.add_comm,
    List.take_succ_cons, NorFlash.programBytes_take]
  exact NorFlash.window_erase_program flash page_inside fits

/-- A save that is not interrupted is read back. -/
theorem read_save (flash : Nat → UInt8) (cfg : DeviceCfg) :
    DeviceCfg.read (NorFlash.run sectorSize flash (ysRomSaveDeviceConfig cfg)) = cfg := by
  apply DeviceCfg.toBytes_injective
  rw [DeviceCfg.toBytes_read, ysRomSaveDeviceConfig,
    NorFlash.window_erase_program flash page_inside cfg.toBytes_length.le, cfg.toBytes_length]
  exact List.append_nil _

/-! ## Loading -/

theorem recoverFlag_eq_zero_iff (cfg : DeviceCfg) :
    cfg.recoverFlag = 0 ↔ cfg.nameErased = false ∧ ¬ rfPower8dBm < cfg.txPower ∧
      ¬ UartBaudTypeDef.uartBaud230400.code < cfg.baudrate := by
  unfold DeviceCfg.recoverFlag
  split <;> split <;> split <;> simp_all

/-- The loader keeps what passes its own checks. -/
theorem recovered_of_accepted (product : Product) {cfg : DeviceCfg}
    (accepted : cfg.recoverFlag = 0) : cfg.recovered product = cfg := by
  obtain ⟨name, power, baud⟩ := (recoverFlag_eq_zero_iff cfg).mp accepted
  unfold DeviceCfg.recovered
  simp only [name, power, baud, Bool.false_eq_true, if_false]

/-- Every default passes the check of its field. -/
theorem recovered_accepted (product : Product) (cfg : DeviceCfg) :
    (cfg.recovered product).recoverFlag = 0 := by
  rw [recoverFlag_eq_zero_iff]
  refine ⟨?_, ?_, ?_⟩
  · have name : (cfg.recovered product).devName =
        if cfg.nameErased then product.devName else cfg.devName := rfl
    rw [DeviceCfg.nameErased, name]
    cases erased : cfg.nameErased with
    | true =>
        rw [if_pos rfl]
        cases product <;> decide
    | false => exact erased
  · rw [DeviceCfg.recovered]
    dsimp only
    split
    · decide
    · assumption
  · rw [DeviceCfg.recovered]
    dsimp only
    split
    · decide
    · assumption

theorem load_fst (product : Product) (flash : Nat → UInt8) :
    (ysRomLoadDeviceConfig product flash).1 = (DeviceCfg.read flash).recovered product := by
  unfold ysRomLoadDeviceConfig
  dsimp only
  split <;> rfl

/-- After a load the flash holds what the load returned. -/
theorem read_load (product : Product) (flash : Nat → UInt8) :
    DeviceCfg.read (ysRomLoadDeviceConfig product flash).2 =
      (ysRomLoadDeviceConfig product flash).1 := by
  unfold ysRomLoadDeviceConfig
  dsimp only
  split
  · exact read_save flash _
  · next accepted => exact (recovered_of_accepted product (not_not.mp accepted)).symm

/-- A second load returns the same configuration and leaves the flash alone. -/
theorem load_stable (product : Product) (flash : Nat → UInt8) :
    ysRomLoadDeviceConfig product (ysRomLoadDeviceConfig product flash).2 =
      ysRomLoadDeviceConfig product flash := by
  have held := read_load product flash
  have accepted : (DeviceCfg.read (ysRomLoadDeviceConfig product flash).2).recoverFlag = 0 := by
    rw [held, load_fst]
    exact recovered_accepted product _
  rw [ysRomLoadDeviceConfig, if_neg (not_not_intro accepted), recovered_of_accepted product accepted, held]

/-! ## Interrupted saves -/

/-- What the loader accepts without a repair and the name that the callers need. -/
structure DeviceCfg.Valid (cfg : DeviceCfg) : Prop where
  terminated : 0 ∈ cfg.devName
  first : cfg.devName.headD 0 ≠ 0xFF
  txPower : cfg.txPower ≤ rfPower8dBm
  baudrate : cfg.baudrate ≤ UartBaudTypeDef.uartBaud230400.code

/-- The configuration loaded after the interruption is made of new and default values. -/
structure Survives (product : Product) (cfg : DeviceCfg) (loaded : DeviceCfg × (Nat → UInt8)) :
    Prop where
  terminated : 0 ∈ loaded.1.devName
  name : cString loaded.1.devName = cString cfg.devName ∨
    cString loaded.1.devName = product.name
  txPower : loaded.1.txPower = cfg.txPower ∨ loaded.1.txPower = rfPower8dBm
  baudrate : loaded.1.baudrate = cfg.baudrate ∨
    loaded.1.baudrate = UartBaudTypeDef.uartBaud115200.code
  stable : ysRomLoadDeviceConfig product loaded.2 = loaded

/-- The name field after an interrupted save: a prefix of the new one, then erased bytes. -/
theorem interrupted_devName (flash : Nat → UInt8) (cfg : DeviceCfg) (count : Nat) :
    (DeviceCfg.read (interruptedSave flash cfg count)).devName =
      cfg.devName.take count ++ List.replicate (20 - count) 0xFF := by
  have length := cfg.devName_length
  have bytes := congrArg (List.take 20) (interruptedSave_bytes flash cfg count)
  rw [DeviceCfg.toBytes, List.take_left' (DeviceCfg.devName_length _)] at bytes
  rw [bytes]
  by_cases short : count ≤ 20
  · have cut : (cfg.devName.take count).length = count := by
      rw [List.length_take]
      omega
    have programmed : cfg.toBytes.take count = cfg.devName.take count := by
      rw [DeviceCfg.toBytes, List.take_append_of_le_length (by omega)]
    rw [programmed, cut, List.take_append, cut, List.take_take, List.take_replicate,
      Nat.min_eq_right short, Nat.min_eq_left (by omega)]
  · have whole : cfg.devName.take count = cfg.devName := List.take_of_length_le (by omega)
    have programmed : cfg.toBytes.take count = cfg.devName ++
        [cfg.txPower, cfg.baudrate, cfg.reserved0, cfg.reserved1].take (count - 20) := by
      rw [DeviceCfg.toBytes, List.take_append, whole, length]
    rw [programmed, List.append_assoc, List.take_left' length, whole,
      Nat.sub_eq_zero_of_le (by omega)]
    exact (List.append_nil _).symm

/-- A field after the name is programmed or still erased. -/
theorem interrupted_field (flash : Nat → UInt8) (cfg : DeviceCfg) (count : Nat) {index : Nat}
    (bound : index < 24) :
    (DeviceCfg.read (interruptedSave flash cfg count)).toBytes[index]? = cfg.toBytes[index]? ∨
      (DeviceCfg.read (interruptedSave flash cfg count)).toBytes[index]? = some 0xFF := by
  have length := cfg.toBytes_length
  have taken : (cfg.toBytes.take count).length = min count 24 := by
    rw [List.length_take, length]
  rw [interruptedSave_bytes]
  by_cases programmed : index < count
  · left
    rw [List.getElem?_append_left (by omega), List.getElem?_take_of_lt programmed]
  · right
    rw [List.getElem?_append_right (by omega)]
    exact List.getElem?_replicate_of_lt (by omega)

theorem DeviceCfg.toBytes_fields (cfg : DeviceCfg) :
    cfg.toBytes[20]? = some cfg.txPower ∧ cfg.toBytes[21]? = some cfg.baudrate := by
  have length := cfg.devName_length
  rw [toBytes, List.getElem?_append_right (by omega), List.getElem?_append_right (by omega), length]
  exact ⟨rfl, rfl⟩

/-- A field that is new or erased is new or the default once the loader has checked it. -/
theorem clamped_field {stored new limit default : UInt8} (field : stored = new ∨ stored = 0xFF)
    (rejects : limit < 0xFF) :
    (if limit < stored then default else stored) = new ∨
      (if limit < stored then default else stored) = default := by
  rcases field with same | erased
  · by_cases rejected : limit < stored
    · exact Or.inr (if_pos rejected)
    · exact Or.inl ((if_neg rejected).trans same)
  · right
    rw [erased]
    exact if_pos rejects

theorem loaded_txPower (product : Product) (flash : Nat → UInt8) (cfg : DeviceCfg) (count : Nat) :
    (ysRomLoadDeviceConfig product (interruptedSave flash cfg count)).1.txPower = cfg.txPower ∨
      (ysRomLoadDeviceConfig product (interruptedSave flash cfg count)).1.txPower = rfPower8dBm := by
  have field := interrupted_field flash cfg count (show 20 < 24 by decide)
  rw [(DeviceCfg.toBytes_fields _).1, cfg.toBytes_fields.1, Option.some.injEq,
    Option.some.injEq] at field
  rw [load_fst]
  exact clamped_field field (by decide)

theorem loaded_baudrate (product : Product) (flash : Nat → UInt8) (cfg : DeviceCfg)
    (count : Nat) :
    (ysRomLoadDeviceConfig product (interruptedSave flash cfg count)).1.baudrate = cfg.baudrate ∨
      (ysRomLoadDeviceConfig product (interruptedSave flash cfg count)).1.baudrate =
        UartBaudTypeDef.uartBaud115200.code := by
  have field := interrupted_field flash cfg count (show 21 < 24 by decide)
  rw [(DeviceCfg.toBytes_fields _).2, cfg.toBytes_fields.2, Option.some.injEq,
    Option.some.injEq] at field
  rw [load_fst]
  exact clamped_field field (by decide)

/-- The name loaded after an interruption. -/
theorem loaded_devName (product : Product) (flash : Nat → UInt8) {cfg : DeviceCfg}
    (valid : cfg.Valid) (count : Nat) :
    (ysRomLoadDeviceConfig product (interruptedSave flash cfg count)).1.devName =
      if count = 0 then product.devName
      else cfg.devName.take count ++ List.replicate (20 - count) 0xFF := by
  have name := interrupted_devName flash cfg count
  rw [load_fst, DeviceCfg.recovered]
  dsimp only
  rw [DeviceCfg.nameErased, name]
  obtain ⟨first, rest, shape⟩ := List.exists_cons_of_length_pos
    (show 0 < cfg.devName.length by rw [cfg.devName_length]; decide)
  have notErased := valid.first
  rw [shape, List.headD_cons] at notErased
  cases count with
  | zero => rfl
  | succ count =>
      have small : ¬ (0xFF : UInt8) ≤ first := by
        intro above
        apply notErased
        rw [UInt8.le_iff_toNat_le] at above
        have bound := first.toNat_lt
        change 255 ≤ first.toNat at above
        apply UInt8.toNat_inj.mp
        change first.toNat = 255
        omega
      rw [if_neg (Nat.succ_ne_zero count), shape, List.take_succ_cons, List.cons_append,
        List.headD_cons, decide_eq_false small]
      rfl

/--
A configuration survives an interrupted save exactly when the interruption
comes right after the erase or after the terminator of the name.
-/
theorem config_survives_iff (product : Product) (flash : Nat → UInt8) (cfg : DeviceCfg)
    (valid : cfg.Valid) (count : Nat) :
    Survives product cfg (ysRomLoadDeviceConfig product (interruptedSave flash cfg count)) ↔
      count = 0 ∨ strlen cfg.devName < count := by
  have name := loaded_devName product flash valid count
  constructor
  · intro survives
    by_cases none : count = 0
    · exact Or.inl none
    · right
      have terminated := survives.terminated
      rw [name, if_neg none, List.mem_append] at terminated
      rcases terminated with early | late
      · exact (zero_mem_take_iff valid.terminated count).mp early
      · exact absurd (List.eq_of_mem_replicate late) (by decide)
  · intro enough
    refine ⟨?_, ?_, loaded_txPower product flash cfg count,
      loaded_baudrate product flash cfg count, load_stable product _⟩
    · rw [name]
      split
      · cases product <;> decide
      · next some =>
          have cut := (zero_mem_take_iff valid.terminated count).mpr (enough.resolve_left some)
          exact List.mem_append_left _ cut
    · rw [name]
      split
      · right
        cases product <;> decide
      · next some =>
          left
          have cut := (zero_mem_take_iff valid.terminated count).mpr (enough.resolve_left some)
          exact cString_take_append cut _

/-- A configuration that the ser2ble firmware saves when the rate is changed to 9600. -/
def ser2bleAt9600 : DeviceCfg where
  devName := Product.ser2ble.devName
  txPower := rfPower8dBm
  baudrate := UartBaudTypeDef.uartBaud9600.code
  reserved0 := 0xFF
  reserved1 := 0xFF
  devName_length := rfl

theorem ser2bleAt9600_valid : ser2bleAt9600.Valid :=
  ⟨by decide, by decide, by decide, by decide⟩

theorem config_survives_iff_terminated :
    strlen ser2bleAt9600.devName = 7 ∧
      Survives .ser2ble ser2bleAt9600
        (ysRomLoadDeviceConfig .ser2ble (interruptedSave (fun _ => 0) ser2bleAt9600 8)) :=
  ⟨by decide, (config_survives_iff .ser2ble (fun _ => 0) ser2bleAt9600 ser2bleAt9600_valid 8).mpr
    (by decide)⟩

/-- Cut off after three bytes, the name is loaded as `SER` and 17 erased bytes, unterminated. -/
theorem config_name_unterminated :
    ser2bleAt9600.Valid ∧
      (ysRomLoadDeviceConfig .ser2ble (interruptedSave (fun _ => 0) ser2bleAt9600 3)).1.devName =
        [0x53, 0x45, 0x52] ++ List.replicate 17 0xFF ∧
      ¬ Survives .ser2ble ser2bleAt9600
        (ysRomLoadDeviceConfig .ser2ble (interruptedSave (fun _ => 0) ser2bleAt9600 3)) := by
  have name := loaded_devName .ser2ble (fun _ => 0) ser2bleAt9600_valid 3
  refine ⟨ser2bleAt9600_valid, name, fun survives => ?_⟩
  have terminated := survives.terminated
  rw [name] at terminated
  exact absurd terminated (by decide)

end Ser2Ble.YsRom
