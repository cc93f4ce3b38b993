import Ser2Ble.Proj.String
import Ser2Ble.YsRom.DeviceConfig

/-!
# The loader in memory

`ys_rom_load_device_config` works on the bytes of its caller's structure, with
the functions of `string.c`.  What it leaves there is the loaded configuration.
-/

namespace Ser2Ble.YsRom

open Library Proj YsUart

/-! ## The model -/

/-- The structure at an address. -/
def DeviceCfg.inMemory (memory : Nat → UInt8) (cfg : Nat) : DeviceCfg where
  devName := Cells.window memory cfg 20
  txPower := memory (cfg + 20)
  baudrate := memory (cfg + 21)
  reserved0 := memory (cfg + 22)
  reserved1 := memory (cfg + 23)
  devName_length := Cells.window_length _ _ _

/-- The default name; `literal` is the address of the product name and `length` its `strlen`. -/
def setDefaultName (memory : Nat → UInt8) (devName literal length : Nat) : Nat → UInt8 :=
  let cleared := memset memory devName 0 20
  let copied := strncpy cleared devName literal length
  Cells.store copied (devName + 19) 0

/-- The check of the name on the memory and `recover_flag`. -/
def checkName (product : Product) (cfg literal : Nat) (s : (Nat → UInt8) × Nat) :
    (Nat → UInt8) × Nat :=
  if 0xFF ≤ s.1 cfg then (setDefaultName s.1 cfg literal product.name.length, s.2 + 1) else s

/-- The check of a byte of the structure against its limit. -/
def checkField (address : Nat) (limit default : UInt8) (s : (Nat → UInt8) × Nat) :
    (Nat → UInt8) × Nat :=
  if limit < s.1 address then (Cells.store s.1 address default, s.2 + 1) else s

/-- The three checks, and how many of them replaced something. -/
def checkAll (product : Product) (memory : Nat → UInt8) (cfg literal : Nat) :
    (Nat → UInt8) × Nat :=
  let named := checkName product cfg literal (memory, 0)
  let powered := checkField (cfg + 20) rfPower8dBm rfPower8dBm named
  checkField (cfg + 21) UartBaudTypeDef.uartBaud230400.code
    UartBaudTypeDef.uartBaud115200.code powered

/-- `ys_rom_load_device_config(cfg)` on memory and flash. -/
def ysRomLoadInMemory (product : Product) (memory flash : Nat → UInt8) (cfg literal : Nat) :
    (Nat → UInt8) × (Nat → UInt8) :=
  let page := Cells.copy memory cfg (Cells.window flash cfgAddrDevice 24)
  let checked := checkAll product page cfg literal
  if checked.2 ≠ 0 then
    (checked.1, NorFlash.run sectorSize flash (.eraseSector cfgAddrDevice ::
      NorFlash.programBytes cfgAddrDevice (Cells.window checked.1 cfg 24)))
  else (checked.1, flash)

/-- The product name is in memory, and not in the structure. -/
structure Linked (product : Product) (memory : Nat → UInt8) (cfg literal : Nat) : Prop where
  target : cfg ≠ 0
  source : literal ≠ 0
  text : Cells.window memory literal product.name.length = product.name
  apart : cfg + 24 ≤ literal ∨ literal + product.name.length ≤ cfg

/-! ## Checks -/

theorem DeviceCfg.toBytes_inMemory (memory : Nat → UInt8) (cfg : Nat) :
    (inMemory memory cfg).toBytes = Cells.window memory cfg 24 := by
  rw [show 24 = 20 + 4 from rfl, Cells.window_append]
  rfl

theorem Linked.congr {product : Product} {first second : Nat → UInt8} {cfg literal : Nat}
    (linked : Linked product first cfg literal)
    (agree : ∀ other, other < cfg ∨ cfg + 24 ≤ other → second other = first other) :
    Linked product second cfg literal where
  target := linked.target
  source := linked.source
  text := by
    have apart := linked.apart
    refine Eq.trans (Cells.window_congr fun other after before => agree other ?_) linked.text
    omega
  apart := linked.apart

theorem Product.name_length (product : Product) : product.name.length = 7 := by
  cases product <;> rfl

theorem Product.devName_byte (product : Product) {index : Nat} (inside : index < 20) :
    product.devName[index]? = some (product.name.getD index 0) := by
  revert index
  cases product <;> decide

section Name

variable {product : Product} {memory : Nat → UInt8} {cfg literal : Nat}

/-- The name is copied over zeros, and its last byte is cleared again. -/
theorem setDefaultName_eq (linked : Linked product memory cfg literal) :
    setDefaultName memory cfg literal product.name.length =
      Cells.store (Cells.copy (Cells.copy memory cfg (List.replicate 20 0)) cfg product.name)
        (cfg + 19) 0 := by
  have apart := linked.apart
  have short := product.name_length
  have kept : Linked product (Cells.copy memory cfg (List.replicate 20 0)) cfg literal :=
    linked.congr fun other outside => Cells.copy_outside memory _ (by simp; omega)
  rw [setDefaultName, memset_eq, strncpy, if_neg linked.target, if_neg linked.source,
    Cells.up_eq_copy _ (by omega), kept.text]

theorem setDefaultName_outside (linked : Linked product memory cfg literal) {other : Nat}
    (outside : other < cfg ∨ cfg + 20 ≤ other) :
    setDefaultName memory cfg literal product.name.length other = memory other := by
  have short := product.name_length
  rw [setDefaultName_eq linked, Cells.store_other _ _ (by omega), Cells.copy_outside _ _ (by omega),
    Cells.copy_outside _ _ (by simp; omega)]

theorem setDefaultName_window (linked : Linked product memory cfg literal) :
    Cells.window (setDefaultName memory cfg literal product.name.length) cfg 20 = product.devName := by
  have short := product.name_length
  apply List.ext_getElem?
  intro index
  rcases Nat.lt_or_ge index 20 with inside | beyond
  · rw [product.devName_byte inside, Cells.window, List.getElem?_map, List.getElem?_range inside,
      Option.map_some, setDefaultName_eq linked]
    refine congrArg some ?_
    rcases Nat.lt_or_ge index 7 with early | late
    · rw [Cells.store_other _ _ (by omega)]
      refine Cells.copy_inside _ _ ?_
      rw [List.getD_eq_getElem?_getD, List.getElem?_eq_getElem (by omega)]
      rfl
    · have none : product.name.getD index 0 = 0 := by
        rw [List.getD_eq_getElem?_getD, List.getElem?_eq_none (by omega)]
        rfl
      rw [none]
      by_cases last : index = 19
      · rw [last, Cells.store_same]
      · rw [Cells.store_other _ _ (by omega), Cells.copy_outside _ _ (by omega)]
        exact Cells.copy_inside _ _ (by rw [List.getElem?_replicate, if_pos inside])
  · rw [List.getElem?_eq_none (by simpa using beyond),
      List.getElem?_eq_none (by simpa using beyond)]

end Name

theorem checkField_same (address : Nat) (limit default : UInt8) (s : (Nat → UInt8) × Nat) :
    (checkField address limit default s).1 address =
      if limit < s.1 address then default else s.1 address := by
  unfold checkField
  split
  · exact Cells.store_same _ _ _
  · rfl

theorem checkField_other {address other : Nat} (limit default : UInt8) (s : (Nat → UInt8) × Nat)
    (different : other ≠ address) : (checkField address limit default s).1 other = s.1 other := by
  unfold checkField
  split
  · exact Cells.store_other _ _ different
  · rfl

theorem checkField_flag (address : Nat) (limit default : UInt8) (s : (Nat → UInt8) × Nat) :
    (checkField address limit default s).2 = s.2 + if limit < s.1 address then 1 else 0 := by
  unfold checkField
  split <;> rfl

section Loader

variable {product : Product} {memory : Nat → UInt8} {cfg literal : Nat}

theorem nameErased_inMemory (memory : Nat → UInt8) (cfg : Nat) :
    (DeviceCfg.inMemory memory cfg).nameErased = decide (0xFF ≤ memory cfg) :=
  rfl

theorem checkName_outside (linked : Linked product memory cfg literal) (flag : Nat) {other : Nat}
    (outside : other < cfg ∨ cfg + 20 ≤ other) :
    (checkName product cfg literal (memory, flag)).1 other = memory other := by
  unfold checkName
  split
  · exact setDefaultName_outside linked outside
  · rfl

theorem checkName_window (linked : Linked product memory cfg literal) (flag : Nat) :
    Cells.window (checkName product cfg literal (memory, flag)).1 cfg 20 =
      if (DeviceCfg.inMemory memory cfg).nameErased then product.devName
      else (DeviceCfg.inMemory memory cfg).devName := by
  rw [nameErased_inMemory]
  unfold checkName
  split
  · next erased =>
      rw [if_pos (decide_eq_true erased)]
      exact setDefaultName_window linked
  · next kept =>
      rw [if_neg (by simpa using kept)]
      rfl

theorem checkName_flag (flag : Nat) :
    (checkName product cfg literal (memory, flag)).2 =
      flag + if (DeviceCfg.inMemory memory cfg).nameErased then 1 else 0 := by
  rw [nameErased_inMemory]
  unfold checkName
  split
  · next erased => rw [if_pos (decide_eq_true erased)]
  · next kept => rw [if_neg (by simpa using kept), Nat.add_zero]

/-- The checks leave the recovered structure, its flag, and the rest of the memory as it was. -/
theorem checkAll_recovers (linked : Linked product memory cfg literal) :
    DeviceCfg.inMemory (checkAll product memory cfg literal).1 cfg =
        (DeviceCfg.inMemory memory cfg).recovered product ∧
      (checkAll product memory cfg literal).2 = (DeviceCfg.inMemory memory cfg).recoverFlag ∧
      ∀ other, other < cfg ∨ cfg + 24 ≤ other →
        (checkAll product memory cfg literal).1 other = memory other := by
  unfold checkAll
  dsimp only
  generalize shape : checkName product cfg literal (memory, 0) = named
  have atNamed : ∀ {other}, other < cfg ∨ cfg + 20 ≤ other → named.1 other = memory other := by
    rw [← shape]
    exact checkName_outside linked 0
  generalize powering : checkField (cfg + 20) rfPower8dBm rfPower8dBm named = powered
  have atPowered : ∀ {other}, other ≠ cfg + 20 → powered.1 other = named.1 other := by
    rw [← powering]
    exact checkField_other _ _ named
  have power : powered.1 (cfg + 20) =
      if rfPower8dBm < memory (cfg + 20) then rfPower8dBm else memory (cfg + 20) := by
    rw [← powering, checkField_same, atNamed (Or.inr (Nat.le_refl _))]
  have baud : powered.1 (cfg + 21) = memory (cfg + 21) :=
    (atPowered (by omega)).trans (atNamed (by omega))
  refine ⟨?_, ?_, fun other outside => ?_⟩
  · apply DeviceCfg.toBytes_injective
    have name : Cells.window (checkField (cfg + 21) UartBaudTypeDef.uartBaud230400.code
        UartBaudTypeDef.uartBaud115200.code powered).1 cfg 20 = Cells.window named.1 cfg 20 :=
      Cells.window_congr fun other _ before =>
        (checkField_other _ _ powered (by omega)).trans (atPowered (by omega))
    rw [DeviceCfg.toBytes, DeviceCfg.toBytes, DeviceCfg.inMemory]
    dsimp only
    rw [name, ← shape, checkName_window linked, checkField_same, baud,
      checkField_other _ _ powered (by omega), power, checkField_other _ _ powered (by omega),
      atPowered (by omega), atNamed (by omega), checkField_other _ _ powered (by omega),
      atPowered (by omega), atNamed (by omega)]
    rfl
  · rw [DeviceCfg.recoverFlag, checkField_flag, baud, ← powering, checkField_flag,
      atNamed (Or.inr (Nat.le_refl _)), ← shape, checkName_flag, Nat.zero_add]
    rfl
  · rw [checkField_other _ _ powered (by omega), atPowered (by omega), atNamed (by omega)]

/--
The loader leaves the loaded configuration in its caller's structure and in the
flash, and no other byte of the memory changes.
-/
theorem load_in_memory (linked : Linked product memory cfg literal) (flash : Nat → UInt8) :
    DeviceCfg.inMemory (ysRomLoadInMemory product memory flash cfg literal).1 cfg =
        (ysRomLoadDeviceConfig product flash).1 ∧
      (ysRomLoadInMemory product memory flash cfg literal).2 =
        (ysRomLoadDeviceConfig product flash).2 ∧
      ∀ other, other < cfg ∨ cfg + 24 ≤ other →
        (ysRomLoadInMemory product memory flash cfg literal).1 other = memory other := by
  unfold ysRomLoadInMemory
  dsimp only
  generalize reading : Cells.copy memory cfg (Cells.window flash cfgAddrDevice 24) = page
  have outside : ∀ other, other < cfg ∨ cfg + 24 ≤ other → page other = memory other := by
    intro other apart
    rw [← reading]
    exact Cells.copy_outside memory _ (by simpa using apart)
  have held : DeviceCfg.inMemory page cfg = DeviceCfg.read flash := by
    apply DeviceCfg.toBytes_injective
    have copied := Cells.window_copy memory cfg (Cells.window flash cfgAddrDevice 24)
    rw [Cells.window_length, reading] at copied
    rw [DeviceCfg.toBytes_inMemory, DeviceCfg.toBytes_read, copied]
  obtain ⟨recovered, flag, kept⟩ := checkAll_recovers (linked.congr outside)
  rw [held] at recovered flag
  rw [← DeviceCfg.toBytes_inMemory, recovered, flag, load_fst, ysRomLoadDeviceConfig]
  split
  · exact ⟨recovered, rfl, fun other apart => (kept other apart).trans (outside other apart)⟩
  · exact ⟨recovered, rfl, fun other apart => (kept other apart).trans (outside other apart)⟩

end Loader

/-- The text of the product name at 200, and nothing else. -/
def nameAt200 (address : Nat) : UInt8 :=
  if address < 200 then 0 else Product.ser2ble.name.getD (address - 200) 0

/-- From an erased flash into a structure at 100. -/
theorem load_in_memory_erased :
    DeviceCfg.inMemory (ysRomLoadInMemory .ser2ble nameAt200 (fun _ => 0xFF) 100 200).1 100 =
      (ysRomLoadDeviceConfig .ser2ble fun _ => 0xFF).1 :=
  (@load_in_memory .ser2ble nameAt200 100 200
    ⟨by decide, by decide, by decide, by decide⟩ fun _ => 0xFF).1

end Ser2Ble.YsRom
