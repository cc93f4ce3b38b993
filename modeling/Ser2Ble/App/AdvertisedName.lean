import Ser2Ble.App.Advertising
import Ser2Ble.App.PowerCycles

/-!
# What the advertised name tells

The name record carries the device name and the first two bytes of the address.
Each can be read back, and both are carried from one power-on to the next.
-/

namespace Ser2Ble.App

open Library YsRom BleDrv

/-! ## The model -/

/-- The flash when `ble_app_init` reads it. -/
def bootedFlash (flash : Nat → UInt8) (rand : Nat → UInt16) : Nat → UInt8 :=
  NorFlash.run sectorSize (checked flash) (bleDrvInit (checked flash) rand).2

/-- What a boot on `flash` puts together for `ble_start_advertis`. -/
def bootAdvertising (flash : Nat → UInt8) (rand : Nat → UInt16) : Advertising :=
  bleAppInit (loaded flash) (bootedFlash flash rand)

/-! ## Reading back the record -/

/-- The character of one digit as it is stored. -/
def digitByte (half : Nat) : UInt8 :=
  UInt8.ofNat (Nat.digitChar half).toUpper.toNat

theorem digitByte_injective {first second : Nat} (small : first < 16) (small' : second < 16)
    (same : digitByte first = digitByte second) : first = second := by
  have table : ∀ left < 16, ∀ right < 16, digitByte left = digitByte right → left = right := by
    decide
  exact table first small second small' same

/-- Two digits tell a byte. -/
theorem digits_byte {first second : UInt8}
    (high : digitByte (first.toNat / 16) = digitByte (second.toNat / 16))
    (low : digitByte (first.toNat % 16) = digitByte (second.toNat % 16)) : first = second := by
  have bound := first.toNat_lt
  have bound' := second.toNat_lt
  have halves := digitByte_injective (by omega) (by omega) high
  have rests := digitByte_injective (by omega) (by omega) low
  apply UInt8.toNat_inj.mp
  omega

theorem hexDigits_injective {first second : List UInt8}
    (same : (hexDigits first).map (fun digit => UInt8.ofNat digit.toNat) =
      (hexDigits second).map fun digit => UInt8.ofNat digit.toNat) : first = second := by
  induction first generalizing second with
  | nil =>
      cases second with
      | nil => rfl
      | cons byte rest => cases same
  | cons byte rest ih =>
      cases second with
      | nil => cases same
      | cons byte' rest' =>
          obtain ⟨high, behind⟩ := List.cons.inj same
          obtain ⟨low, later⟩ := List.cons.inj behind
          rw [digits_byte high low, ih later]

/-- The record tells the name and the two bytes. -/
theorem nameRecord_inj {first second : DeviceCfg} {flash flash' : Nat → UInt8} :
    nameRecord first flash = nameRecord second flash' ↔
      cString first.toBytes = cString second.toBytes ∧
        Cells.window flash cfgAdrMac 2 = Cells.window flash' cfgAdrMac 2 := by
  constructor
  · intro same
    obtain ⟨_, texts⟩ := List.cons.inj same
    obtain ⟨name, digits⟩ := List.append_inj' texts rfl
    exact ⟨name, hexDigits_injective digits⟩
  · rintro ⟨name, bytes⟩
    obtain ⟨high, behind⟩ := List.cons.inj bytes
    obtain ⟨low, _⟩ := List.cons.inj behind
    change flash cfgAdrMac = flash' cfgAdrMac at high
    change flash (cfgAdrMac + 1) = flash' (cfgAdrMac + 1) at low
    rw [nameRecord, nameRecord, name, high, low]

theorem endsWith_unique {data first second : List UInt8} (ends : EndsWith data first)
    (ends' : EndsWith data second) : first = second := by
  obtain ⟨others, decoded⟩ := ends
  obtain ⟨others', decoded'⟩ := ends'
  have same := Option.some.inj (decoded.symm.trans decoded')
  exact List.singleton_inj.mp (List.append_inj' same rfl).2

/-- The data are put together from the record alone. -/
theorem advData_congr {first second : DeviceCfg} {flash flash' : Nat → UInt8}
    (power : first.txPower = 0) (power' : second.txPower = 0)
    (same : nameRecord first flash = nameRecord second flash') :
    (bleAppInit first flash).advData = (bleAppInit second flash').advData := by
  have length : strlen first.toBytes = strlen second.toBytes :=
    congrArg List.length (nameRecord_inj.mp same).1
  have text : nameText first flash = nameText second flash' := (List.cons.inj same).2
  rw [Advertising.advData, Advertising.advData, memory_eq flash power, memory_eq flash' power',
    text, length]
  change Cells.window _ 0 (UInt8.ofNat (strlen first.toBytes) + _ + _).toNat = _
  rw [length]
  rfl

/-! ## The address in the record -/

/-- Whatever the boot finds or draws, the two bytes are the first of the address in use. -/
theorem window_bootedFlash (flash : Nat → UInt8) (rand : Nat → UInt16) :
    Cells.window (bootedFlash flash rand) cfgAdrMac 2 = (bootAddress flash rand).take 2 := by
  have front : ∀ cells : Nat → UInt8,
      Cells.window cells cfgAdrMac 2 = (Cells.window cells cfgAdrMac 6).take 2 := fun _ => rfl
  rw [front]
  cases blank : macBlank (checked flash) with
  | false =>
      rw [bootedFlash, bootAddress, bleDrvInit_programmed blank]
      rfl
  | true =>
      have erased := (macBlank_iff (checked flash)).mp blank
      have operations : bleDrvInit (checked flash) rand =
          (generateRandomNum rand 6, NorFlash.programBytes cfgAdrMac (generateRandomNum rand 6)) :=
        if_pos blank
      have written := NorFlash.window_programBytes sectorSize (checked flash) cfgAdrMac
        (generateRandomNum rand 6)
      change Cells.window _ _ 6 = _ at written
      rw [bootedFlash, bootAddress, operations, written]
      obtain ⟨first, erased⟩ := List.cons.inj erased
      obtain ⟨second, _⟩ := List.cons.inj erased
      change checked flash cfgAdrMac = 0xFF at first
      change checked flash (cfgAdrMac + 1) = 0xFF at second
      change [checked flash cfgAdrMac &&& _, checked flash (cfgAdrMac + 1) &&& _] = [_, _]
      rw [first, second]
      change [-1 &&& _, -1 &&& _] = _
      rw [UInt8.neg_one_and, UInt8.neg_one_and]

/-- The names that leave room for the digits: replaced by the loader, or ended within 15 bytes. -/
def NameFits (flash : Nat → UInt8) : Prop :=
  flash cfgAddrDevice = 0xFF ∨ 0 ∈ Cells.window flash cfgAddrDevice 15

section Boot

variable {flash flash' : Nat → UInt8}

theorem short_of_fits (fits : NameFits flash) : strlen (loaded flash).toBytes ≤ 14 :=
  (loaded_short_iff flash).mpr fits

theorem boot_wellFormed (short : strlen (loaded flash).toBytes ≤ 14) (rand : Nat → UInt16) :
    AdvertisingWellFormed (loaded flash) (bootedFlash flash rand) (bootAdvertising flash rand) :=
  wellFormed_of_short _ (loaded_txPower_zero .ser2ble flash) short

/--
Two devices whose names fit advertise the same data exactly when they have the
same name and their addresses begin with the same two bytes, whether an address
was stored before or is drawn in this boot.
-/
theorem advertising_identifies (fits : NameFits flash) (fits' : NameFits flash')
    (rand rand' : Nat → UInt16) :
    (bootAdvertising flash rand).advData = (bootAdvertising flash' rand').advData ↔
      cString (loaded flash).toBytes = cString (loaded flash').toBytes ∧
        (bootAddress flash rand).take 2 = (bootAddress flash' rand').take 2 := by
  rw [← window_bootedFlash, ← window_bootedFlash, ← nameRecord_inj]
  constructor
  · intro same
    have ends := (boot_wellFormed (short_of_fits fits) rand).advData
    rw [same] at ends
    exact endsWith_unique ends (boot_wellFormed (short_of_fits fits') rand').advData
  · exact advData_congr (loaded_txPower_zero .ser2ble flash) (loaded_txPower_zero .ser2ble flash')

/-- Two erased devices that draw different addresses can be told apart. -/
theorem advertising_identifies_drawn :
    (bootAdvertising (fun _ => 0xFF) fun _ => 0x2211).advData ≠
      (bootAdvertising (fun _ => 0xFF) fun _ => 0x4433).advData := by
  intro same
  obtain ⟨_, drawn⟩ := (advertising_identifies (Or.inl rfl) (Or.inl rfl) _ _).mp same
  revert drawn
  decide +kernel

/-- A name that fits ends inside `dev_name`. -/
theorem terminated_of_fits (fits : NameFits flash) : 0 ∈ (loaded flash).devName := by
  have power := loaded_txPower_zero .ser2ble flash
  have early := (zero_mem_take_iff (loaded_strlen_le power).1 15).mpr
    (Nat.lt_succ_of_le (short_of_fits fits))
  have front : (loaded flash).toBytes.take 15 = (loaded flash).devName.take 15 := by
    rw [DeviceCfg.toBytes]
    exact List.take_append_of_le_length (by rw [DeviceCfg.devName_length]; decide)
  change 0 ∈ (loaded flash).toBytes.take 15 at early
  rw [front] at early
  exact List.mem_of_mem_take early

end Boot

/-! ## From one power-on to the next -/

section Sequence

variable {flashes : Nat → Nat → UInt8} {rand : Nat → Nat → UInt16} {ram : Nat → DeviceCfg}

theorem cString_toBytes {cfg : DeviceCfg} (terminated : 0 ∈ cfg.devName) :
    cString cfg.toBytes = cString cfg.devName :=
  cString_append terminated _

/-- A name that fits once fits in every later boot. -/
theorem strlen_kept
    (cycles : ∀ boot, PowerCycle SparesName (flashes boot) (rand boot) (ram boot) (flashes (boot + 1)))
    (fits : NameFits (flashes 0)) (boot : Nat) : strlen (loaded (flashes boot)).toBytes ≤ 14 := by
  have terminated := terminated_of_fits fits
  have first := short_of_fits fits
  obtain ⟨still, named⟩ := name_kept cycles terminated boot
  rw [strlen, cString_toBytes terminated] at first
  rw [strlen, cString_toBytes still]
  rcases named with same | default
  · rw [same]
    exact first
  · rw [default]
    decide

/--
A device whose name fits, and whose address is stored, advertises well-formed
data in every life that spares the name: under the name of the first boot or the
product's, and always with the digits of the address of the first boot.
-/
theorem advertising_survives
    (cycles : ∀ boot, PowerCycle SparesName (flashes boot) (rand boot) (ram boot) (flashes (boot + 1)))
    (fits : NameFits (flashes 0)) (programmed : macBlank (flashes 0) = false) (boot : Nat) :
    AdvertisingWellFormed (loaded (flashes boot)) (flashes 0)
        (bootAdvertising (flashes boot) (rand boot)) ∧
      (cString (loaded (flashes boot)).devName = cString (loaded (flashes 0)).devName ∨
        cString (loaded (flashes boot)).devName = Product.ser2ble.name) := by
  refine ⟨?_, (name_kept cycles (terminated_of_fits fits) boot).2⟩
  have found := window_checked_kept cycles programmed boot
  have still := (macBlank_congr found).trans programmed
  have quiet : bootedFlash (flashes boot) (rand boot) = checked (flashes boot) := by
    rw [bootedFlash, bleDrvInit_programmed still]
    rfl
  have record : nameRecord (loaded (flashes boot)) (bootedFlash (flashes boot) (rand boot)) =
      nameRecord (loaded (flashes boot)) (flashes 0) := by
    refine nameRecord_inj.mpr ⟨rfl, ?_⟩
    rw [quiet]
    exact congrArg (List.take 2) found
  obtain ⟨inside, advLen, rspLen, advData, rspData⟩ :=
    boot_wellFormed (strlen_kept cycles fits boot) (rand boot)
  rw [record] at advData rspData
  exact ⟨inside, advLen, rspLen, advData, rspData⟩

end Sequence

theorem advertising_survives_cutOnce :
    AdvertisingWellFormed (loaded (cutOnce 5)) (cutOnce 0)
      (bootAdvertising (cutOnce 5) fun _ => 0x2211) :=
  (advertising_survives cutOnce_cycles (Or.inr (by decide)) (by decide) 5).1

end Ser2Ble.App
