import Ser2Ble.Library.LengthPrefixed
import Ser2Ble.BleDrv.DeviceAddress
import Ser2Ble.YsRom.RoundTrip

/-!
# Advertising data of `vendor/826x_ser2ble/ble_app.c`

`ble_app_init` completes a 31-byte array on its stack with the device name and
two bytes of the address.  A store outside of the array is recorded like any
other; what it overwrites is not modelled.
-/

namespace Ser2Ble.App

open Library YsRom BleDrv

/-! ## The model -/

/-- The initial value of `adv_data_raw`. -/
def advDataRaw : List UInt8 :=
  [0x02, 0x01, 0x05, 0x03, 0x19, 0xc1, 0x03, 0x03, 0x03, 0x12, 0x18, 19, 0x09,
    0, 0, 0, 0, 0, 0, 0, 0, 0, 0, 0, 0, 0, 0, 0, 0, 0, 0]

def advDeviceNamePos : Nat := 11

/-- The table `hex` of `ascii_to_hex`. -/
def hexTable : List UInt8 :=
  [0x30, 0x31, 0x32, 0x33, 0x34, 0x35, 0x36, 0x37, 0x38, 0x39, 0x41, 0x42, 0x43, 0x44, 0x45, 0x46]

/-- `hex[index]`. -/
def hex (index : UInt8) : UInt8 :=
  hexTable.getD index.toNat 0

/-- `ascii_to_hex`: the bytes written from `rp` on. -/
def asciiToHex (sp : List UInt8) (len : UInt8) : List UInt8 :=
  (sp.take len.toNat).flatMap fun byte => [hex (byte >>> (4 : UInt8)), hex (byte &&& (0x0F : UInt8))]

/-- What `ble_app_init` stores into `adv_data_raw` and passes to `ble_start_advertis`. -/
structure Advertising where
  /-- the blocks stored, with their offsets, in the order of the statements -/
  stores : List (Nat × List UInt8)
  advLen : UInt8
  rspLen : UInt8

namespace Advertising

/-- The array after the stores, and what follows it. -/
def memory (advertising : Advertising) : Nat → UInt8 :=
  advertising.stores.foldl (fun cells block => Cells.copy cells block.1 block.2)
    (Cells.copy (fun _ => 0) 0 advDataRaw)

def advData (advertising : Advertising) : List UInt8 :=
  Cells.window advertising.memory 0 advertising.advLen.toNat

def rspData (advertising : Advertising) : List UInt8 :=
  Cells.window advertising.memory advDeviceNamePos advertising.rspLen.toNat

end Advertising

/--
`ble_app_init` after `ble_drv_init`.  `strlen` and `memcpy` run over the memory
of the whole `device_config`, since nothing stops them at the end of `dev_name`.
-/
def bleAppInit (deviceConfig : DeviceCfg) (flash : Nat → UInt8) : Advertising :=
  let nameLen := UInt8.ofNat (strlen deviceConfig.toBytes)
  let mac16 := [flash cfgAdrMac, flash (cfgAdrMac + 1)]
  { stores :=
      [(advDeviceNamePos + 2, deviceConfig.toBytes.take nameLen.toNat),
        (advDeviceNamePos + 2 + nameLen.toNat, asciiToHex mac16 2),
        (advDeviceNamePos, [nameLen + 5])]
    advLen := nameLen + UInt8.ofNat advDeviceNamePos + 6
    rspLen := nameLen + 6 }

/-! ## Well-formed advertising -/

/-- The upper-case hexadecimal digits of bytes, the high half of each first. -/
def hexDigits (bytes : List UInt8) : List Char :=
  bytes.flatMap fun byte =>
    [(Nat.digitChar (byte.toNat / 16)).toUpper, (Nat.digitChar (byte.toNat % 16)).toUpper]

/-- The record with the complete local name: the device name and four digits of the address. -/
def nameRecord (deviceConfig : DeviceCfg) (flash : Nat → UInt8) : List UInt8 :=
  0x09 :: cString deviceConfig.toBytes ++
    (hexDigits [flash cfgAdrMac, flash (cfgAdrMac + 1)]).map fun digit => UInt8.ofNat digit.toNat

/-- The data are records that end exactly at the length passed, and the last one is `record`. -/
def EndsWith (data record : List UInt8) : Prop :=
  ∃ others, LengthPrefixed.decode data = some (others ++ [record])

structure AdvertisingWellFormed (deviceConfig : DeviceCfg) (flash : Nat → UInt8)
    (advertising : Advertising) : Prop where
  inside : ∀ block ∈ advertising.stores, block.1 + block.2.length ≤ advDataRaw.length
  advLen : advertising.advLen.toNat ≤ 31
  rspLen : advertising.rspLen.toNat ≤ 31
  advData : EndsWith advertising.advData (nameRecord deviceConfig flash)
  rspData : EndsWith advertising.rspData (nameRecord deviceConfig flash)

/-! ## The name and the digits -/

theorem hex_eq_digit (half : Nat) (small : half < 16) :
    hex (UInt8.ofNat half) = UInt8.ofNat (Nat.digitChar half).toUpper.toNat := by
  revert half
  decide

theorem asciiToHex_eq_digits (first second : UInt8) :
    asciiToHex [first, second] 2 =
      (hexDigits [first, second]).map fun digit => UInt8.ofNat digit.toNat := by
  have halves : ∀ byte : UInt8, hex (byte >>> 4) =
        UInt8.ofNat (Nat.digitChar (byte.toNat / 16)).toUpper.toNat ∧
      hex (byte &&& 0x0F) = UInt8.ofNat (Nat.digitChar (byte.toNat % 16)).toUpper.toNat := by
    intro byte
    have bound := byte.toNat_lt
    have high : byte >>> 4 = UInt8.ofNat (byte.toNat / 16) := by
      have shifted : (byte >>> 4).toNat = byte.toNat / 16 := Nat.shiftRight_eq_div_pow _ 4
      apply UInt8.toNat_inj.mp
      rw [shifted, UInt8.toNat_ofNat', Nat.mod_eq_of_lt (by omega)]
    have low : byte &&& 0x0F = UInt8.ofNat (byte.toNat % 16) := by
      have masked : (byte &&& 0x0F).toNat = byte.toNat % 16 := Nat.and_two_pow_sub_one_eq_mod _ 4
      apply UInt8.toNat_inj.mp
      rw [masked, UInt8.toNat_ofNat']
      omega
    rw [high, low, hex_eq_digit _ (by omega), hex_eq_digit _ (by omega)]
    exact ⟨rfl, rfl⟩
  have taken : [first, second].take (2 : UInt8).toNat = [first, second] := rfl
  rw [asciiToHex, taken, hexDigits]
  simp only [List.flatMap_cons, List.flatMap_nil, List.append_nil, List.cons_append,
    List.nil_append, List.map_cons, List.map_nil, (halves _).1, (halves _).2]

theorem cString_eq_take (bytes : List UInt8) : bytes.take (strlen bytes) = cString bytes := by
  induction bytes with
  | nil => rfl
  | cons byte rest ih =>
      by_cases zero : byte = 0
      · rw [zero, strlen, cString_zero]
        rfl
      · rw [strlen, cString_cons zero, List.length_cons, List.take_succ_cons, ← strlen, ih]

/-- A loaded configuration is terminated by its transmit level at the latest. -/
theorem loaded_strlen_le {deviceConfig : DeviceCfg} (power : deviceConfig.txPower = 0) :
    0 ∈ deviceConfig.toBytes ∧ strlen deviceConfig.toBytes ≤ 20 := by
  have cut : deviceConfig.toBytes.take 21 = deviceConfig.devName ++ [deviceConfig.txPower] := by
    rw [DeviceCfg.toBytes, List.take_append, deviceConfig.devName_length,
      List.take_of_length_le (by rw [deviceConfig.devName_length]; decide)]
    rfl
  have early : 0 ∈ deviceConfig.toBytes.take 21 := by
    rw [cut, power]
    exact List.mem_concat_self
  have terminated := List.mem_of_mem_take early
  exact ⟨terminated, Nat.le_of_lt_succ ((zero_mem_take_iff terminated 21).mp early)⟩

/-! ## Names that fit -/

/-- The array before the stores. -/
def rawCells : Nat → UInt8 :=
  Cells.copy (fun _ => 0) 0 advDataRaw

theorem window_named (text : List UInt8) (length : UInt8) :
    Cells.window (Cells.copy (Cells.copy rawCells 13 text) 11 [length]) 11 (1 + 1 + text.length) =
      length :: 0x09 :: text := by
  have prefixed := Cells.window_copy (Cells.copy rawCells 13 text) 11 [length]
  have header : Cells.copy (Cells.copy rawCells 13 text) 11 [length] 12 = 0x09 := by
    have behind : 11 + [length].length ≤ 12 := Nat.le_refl _
    rw [Cells.copy_outside _ _ (Or.inr behind), Cells.copy_outside _ _ (Or.inl (by decide))]
    rfl
  have kept : Cells.window (Cells.copy (Cells.copy rawCells 13 text) 11 [length]) 13 text.length =
      Cells.window (Cells.copy rawCells 13 text) 13 text.length :=
    Cells.window_congr fun other first _ =>
      Cells.copy_outside _ _ (Or.inr (by rw [List.length_singleton]; omega))
  rw [List.length_singleton] at prefixed
  rw [Cells.window_append, Cells.window_append, prefixed, kept, Cells.window_copy,
    Cells.window_cons, Cells.window_zero, header]
  rfl

theorem window_front (text : List UInt8) (length : UInt8) :
    Cells.window (Cells.copy (Cells.copy rawCells 13 text) 11 [length]) 0 11 =
      LengthPrefixed.encode [[0x01, 0x05], [0x19, 0xc1, 0x03], [0x03, 0x12, 0x18]] := by
  have untouched : Cells.window (Cells.copy (Cells.copy rawCells 13 text) 11 [length]) 0 11 =
      Cells.window rawCells 0 11 := by
    refine Cells.window_congr fun other _ before => ?_
    rw [Cells.copy_outside _ _ (Or.inl (by omega)), Cells.copy_outside _ _ (Or.inl (by omega))]
  rw [untouched]
  decide

section Fitting

variable {deviceConfig : DeviceCfg} (flash : Nat → UInt8)

/-- The name and the digits, the text of the name record. -/
def nameText (deviceConfig : DeviceCfg) (flash : Nat → UInt8) : List UInt8 :=
  cString deviceConfig.toBytes ++
    (hexDigits [flash cfgAdrMac, flash (cfgAdrMac + 1)]).map fun digit => UInt8.ofNat digit.toNat

theorem nameText_length (deviceConfig : DeviceCfg) :
    (nameText deviceConfig flash).length = strlen deviceConfig.toBytes + 4 := by
  rw [nameText, List.length_append]
  rfl

theorem nameLen_toNat (power : deviceConfig.txPower = 0) :
    (UInt8.ofNat (strlen deviceConfig.toBytes)).toNat = strlen deviceConfig.toBytes := by
  have short := (loaded_strlen_le power).2
  rw [UInt8.toNat_ofNat', Nat.mod_eq_of_lt (by omega)]

/-- The name and the digits fit exactly when the name has at most 14 bytes. -/
theorem stores_inside_iff (power : deviceConfig.txPower = 0) :
    (∀ block ∈ (bleAppInit deviceConfig flash).stores,
      block.1 + block.2.length ≤ advDataRaw.length) ↔ strlen deviceConfig.toBytes ≤ 14 := by
  have short := (loaded_strlen_le power).2
  have whole := deviceConfig.toBytes_length
  simp only [bleAppInit, List.forall_mem_cons, List.not_mem_nil, false_implies, implies_true,
    and_true, nameLen_toNat power, List.length_take, whole, asciiToHex_eq_digits]
  change 11 + 2 + min (strlen deviceConfig.toBytes) 24 ≤ 31 ∧
    11 + 2 + strlen deviceConfig.toBytes + 4 ≤ 31 ∧ 11 + 1 ≤ 31 ↔ _
  omega

/-- The stores put the text behind the length and the type of the last record. -/
theorem memory_eq (power : deviceConfig.txPower = 0) :
    (bleAppInit deviceConfig flash).memory =
      Cells.copy (Cells.copy rawCells 13 (nameText deviceConfig flash)) 11
        [UInt8.ofNat (strlen deviceConfig.toBytes + 5)] := by
  have raised : UInt8.ofNat (strlen deviceConfig.toBytes) + 5 =
      UInt8.ofNat (strlen deviceConfig.toBytes + 5) := (UInt8.ofNat_add _ _).symm
  rw [Advertising.memory, bleAppInit]
  simp only [List.foldl_cons, List.foldl_nil, nameLen_toNat power, cString_eq_take,
    asciiToHex_eq_digits, raised]
  rw [nameText, Cells.copy_append, ← strlen]
  rfl

/-- From the name on the array holds the record of the name behind its length byte. -/
theorem memory_name (power : deviceConfig.txPower = 0) :
    Cells.window (bleAppInit deviceConfig flash).memory 11 (strlen deviceConfig.toBytes + 6) =
      LengthPrefixed.encode [nameRecord deviceConfig flash] := by
  have length := nameText_length flash deviceConfig
  have record : nameRecord deviceConfig flash = 0x09 :: nameText deviceConfig flash := rfl
  have span : strlen deviceConfig.toBytes + 6 = 1 + 1 + (nameText deviceConfig flash).length := by
    omega
  rw [memory_eq flash power, span, window_named, record, LengthPrefixed.encode, List.length_cons,
    length]
  exact (List.append_nil _).symm

/-- With at most 14 bytes of name everything is inside and decodes to its records. -/
theorem wellFormed_of_short (power : deviceConfig.txPower = 0)
    (short : strlen deviceConfig.toBytes ≤ 14) :
    AdvertisingWellFormed deviceConfig flash (bleAppInit deviceConfig flash) := by
  have advLen : (bleAppInit deviceConfig flash).advLen.toNat =
      11 + (strlen deviceConfig.toBytes + 6) := by
    change (UInt8.ofNat _ + 11 + 6).toNat = _
    rw [UInt8.toNat_add, UInt8.toNat_add, nameLen_toNat power]
    change ((_ + 11) % 256 + 6) % 256 = _
    omega
  have rspLen : (bleAppInit deviceConfig flash).rspLen.toNat =
      strlen deviceConfig.toBytes + 6 := by
    change (UInt8.ofNat _ + 6).toNat = _
    rw [UInt8.toNat_add, nameLen_toNat power]
    change (_ + 6) % 256 = _
    omega
  have small : (nameRecord deviceConfig flash).length < 256 := by
    have length := nameText_length flash deviceConfig
    change (nameText deviceConfig flash).length + 1 < 256
    omega
  have fits : ∀ body ∈ [[0x01, 0x05], [0x19, 0xc1, 0x03], [0x03, 0x12, 0x18],
      nameRecord deviceConfig flash], body.length < 256 := by
    simp only [List.forall_mem_cons]
    exact ⟨by decide, by decide, by decide, small, fun _ member => nomatch member⟩
  refine ⟨(stores_inside_iff flash power).mpr short, by omega, by omega, ?_, ?_⟩
  · refine ⟨[[0x01, 0x05], [0x19, 0xc1, 0x03], [0x03, 0x12, 0x18]], ?_⟩
    rw [Advertising.advData, advLen, Cells.window_append, Nat.zero_add, memory_name flash power,
      memory_eq flash power, window_front]
    exact LengthPrefixed.decode_encode fits
  · refine ⟨[], ?_⟩
    rw [Advertising.rspData, rspLen]
    change LengthPrefixed.decode (Cells.window _ 11 _) = _
    rw [memory_name flash power]
    exact LengthPrefixed.decode_encode (List.forall_mem_singleton.mpr small)

end Fitting

/-! ## Loaded configurations -/

theorem loaded_txPower_zero (product : Product) (flash : Nat → UInt8) :
    (ysRomLoadDeviceConfig product flash).1.txPower = 0 := by
  rw [load_fst]
  change (if rfPower8dBm < (DeviceCfg.read flash).txPower then rfPower8dBm
    else (DeviceCfg.read flash).txPower) = 0
  split
  · rfl
  · next weakest => exact UInt8.le_zero_iff.mp (UInt8.not_lt.mp weakest)

theorem nameErased_read_iff (flash : Nat → UInt8) :
    (DeviceCfg.read flash).nameErased = true ↔ flash cfgAddrDevice = 0xFF := by
  have first : (DeviceCfg.read flash).devName.headD 0 = flash cfgAddrDevice := rfl
  constructor
  · intro erased
    by_contra other
    rw [nameErased_eq_false (first ▸ other)] at erased
    cases erased
  · intro erased
    rw [DeviceCfg.nameErased, first, erased]
    decide

/-- The name left by the loader fits exactly when it is replaced or ends within 15 bytes. -/
theorem loaded_short_iff (flash : Nat → UInt8) :
    strlen (ysRomLoadDeviceConfig .ser2ble flash).1.toBytes ≤ 14 ↔
      flash cfgAddrDevice = 0xFF ∨ 0 ∈ Cells.window flash cfgAddrDevice 15 := by
  have terminated := (loaded_strlen_le (loaded_txPower_zero .ser2ble flash)).1
  have name : (ysRomLoadDeviceConfig .ser2ble flash).1.toBytes.take 15 =
      (if (DeviceCfg.read flash).nameErased then Product.ser2ble.devName
        else Cells.window flash cfgAddrDevice 20).take 15 := by
    rw [load_fst, DeviceCfg.toBytes, List.take_append_of_le_length
      (by rw [DeviceCfg.devName_length]; decide)]
    rfl
  rw [← Nat.lt_succ_iff, ← zero_mem_take_iff terminated, name, ← nameErased_read_iff]
  cases (DeviceCfg.read flash).nameErased with
  | true =>
      rw [if_pos rfl]
      exact iff_of_true (by decide) (Or.inl rfl)
  | false =>
      have cut : (Cells.window flash cfgAddrDevice 20).take 15 =
          Cells.window flash cfgAddrDevice 15 := by
        rw [show 20 = 15 + 5 from rfl, Cells.window_append]
        exact List.take_left' (Cells.window_length _ _ _)
      rw [if_neg Bool.false_ne_true, cut]
      exact (or_iff_right Bool.false_ne_true).symm

/--
For every content of the flash and every address, the advertising data are well
formed exactly when the stored name is replaced by the loader or ends within 15 bytes.
-/
theorem advertising_well_formed_iff (flash macFlash : Nat → UInt8) :
    AdvertisingWellFormed (ysRomLoadDeviceConfig .ser2ble flash).1 macFlash
        (bleAppInit (ysRomLoadDeviceConfig .ser2ble flash).1 macFlash) ↔
      flash cfgAddrDevice = 0xFF ∨ 0 ∈ Cells.window flash cfgAddrDevice 15 := by
  have power := loaded_txPower_zero .ser2ble flash
  rw [← loaded_short_iff]
  constructor
  · intro wellFormed
    exact (stores_inside_iff macFlash power).mp wellFormed.inside
  · intro short
    exact wellFormed_of_short macFlash power short

/-- A config sector of zeros but for a name of fifteen letters. -/
def longNameFlash (address : Nat) : UInt8 :=
  if cfgAddrDevice ≤ address ∧ address < cfgAddrDevice + 15 then 0x41 else 0

/-- Fifteen letters make the data one byte too long, and the last digit is stored past the array. -/
theorem advertising_overflows :
    (bleAppInit (ysRomLoadDeviceConfig .ser2ble longNameFlash).1 longNameFlash).advLen = 32 ∧
      (advDeviceNamePos + 2 + 15, [0x30, 0x30, 0x30, 0x30]) ∈
        (bleAppInit (ysRomLoadDeviceConfig .ser2ble longNameFlash).1 longNameFlash).stores ∧
      ¬ AdvertisingWellFormed (ysRomLoadDeviceConfig .ser2ble longNameFlash).1 longNameFlash
        (bleAppInit (ysRomLoadDeviceConfig .ser2ble longNameFlash).1 longNameFlash) := by
  have length : (bleAppInit (ysRomLoadDeviceConfig .ser2ble longNameFlash).1 longNameFlash).advLen =
      32 := by decide
  refine ⟨length, by decide, fun wellFormed => ?_⟩
  have bounded := wellFormed.advLen
  rw [length] at bounded
  exact absurd bounded (by decide)

end Ser2Ble.App
