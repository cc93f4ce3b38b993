import Ser2Ble.App.BaudAgreement

/-!
# From one power-on to the next

The flash is all that a device takes into its next life.  The power may go
between two steps, in the middle of a save, and in the middle of the writes
that a boot makes; each life is a run from whatever the one before left.
-/

namespace Ser2Ble.App

open Library Proj YsRom YsUart BleDrv

/-! ## The model -/

/-- What `ys_rom_save_device_config` is called with along an edge, if it is called. -/
def savedConfig (edge : AppTransition) : Option DeviceCfg :=
  match edge.event with
  | .command packet => (commandBaud packet).bind fun baud =>
      if edge.source.deviceConfig.baudrate ≠ baud then
        some { edge.source.deviceConfig with baudrate := baud }
      else none
  | _ => ((buttonCall edge).bind ButtonCall.baud).map fun baud =>
      { edge.source.deviceConfig with baudrate := baud }

/-- The configuration a boot on `flash` starts with. -/
def loaded (flash : Nat → UInt8) : DeviceCfg :=
  (ysRomLoadDeviceConfig .ser2ble flash).1

/-- The flash when `ble_drv_init` starts. -/
def checked (flash : Nat → UInt8) : Nat → UInt8 :=
  (ysRomLoadDeviceConfig .ser2ble flash).2

/-- The address that a boot passes to `blc_ll_initBasicMCU`. -/
def bootAddress (flash : Nat → UInt8) (rand : Nat → UInt16) : List UInt8 :=
  (bleDrvInit (checked flash) rand).1

/--
One life of the device on `flash`: the configuration it has in memory when the
power goes, and the flash it leaves.  `Cut cfg count` are the saves of `cfg`
that the power may cut off after `count` bytes; a save begins with its erase, and
a step that is cut off before it counts as not taken.
-/
inductive PowerCycle (Cut : DeviceCfg → Nat → Prop) (flash : Nat → UInt8) (rand : Nat → UInt16) :
    DeviceCfg → (Nat → UInt8) → Prop where
  /-- before the first write to the flash -/
  | waking : PowerCycle Cut flash rand (loaded flash) flash
  /-- in the save of `ys_rom_load_device_config` -/
  | repairing (count : Nat) (rejected : (DeviceCfg.read flash).recoverFlag ≠ 0)
      (cut : Cut (loaded flash) count) :
      PowerCycle Cut flash rand (loaded flash) (interruptedSave flash (loaded flash) count)
  /-- in `ble_drv_init` -/
  | addressing (count : Nat) :
      PowerCycle Cut flash rand (loaded flash)
        (NorFlash.run sectorSize (checked flash) ((bleDrvInit (checked flash) rand).2.take count))
  /-- between two steps -/
  | running {gpioRead : UInt32} {edges : List AppTransition} {final : AppState}
      (run : AppRun flash rand gpioRead edges final) :
      PowerCycle Cut flash rand final.deviceConfig final.flash
  /-- in the save of a step -/
  | saving {gpioRead : UInt32} {edges : List AppTransition} {final target : AppState}
      {event : AppEvent} {cfg : DeviceCfg} (count : Nat)
      (run : AppRun flash rand gpioRead edges final) (taken : appStep final event = some target)
      (saved : savedConfig ⟨final, event, target⟩ = some cfg) (cut : Cut cfg count) :
      PowerCycle Cut flash rand cfg (interruptedSave final.flash cfg count)

/-- The cuts that leave the name alone or whole. -/
def SparesName (cfg : DeviceCfg) (count : Nat) : Prop :=
  count = 0 ∨ strlen cfg.devName < count

/-! ## What a step writes -/

/-- Only what is saved changes the flash, and it is what is kept in memory. -/
structure Saves (source target : AppState) (saved : Option DeviceCfg) : Prop where
  flash : target.flash =
    NorFlash.run sectorSize source.flash (saved.elim [] ysRomSaveDeviceConfig)
  config : target.deviceConfig = saved.getD source.deviceConfig

theorem command_saves (s : AppState) (packet : RfPacketAttWrite) :
    Saves s (nusOnCommandData s packet)
      ((commandBaud packet).bind fun baud =>
        if s.deviceConfig.baudrate ≠ baud then some { s.deviceConfig with baudrate := baud }
        else none) := by
  by_cases selects : UInt8.ofNat (packet.l2capLen.toNat - 3) = 2 ∧ packet.value.getD 0 0 = 0x0B
  · by_cases known : packet.value.getD 1 0 ≤ UartBaudTypeDef.uartBaud230400.code
    · have called : commandBaud packet = some (packet.value.getD 1 0) :=
        if_pos ⟨selects.1, selects.2, known⟩
      rw [called, nusOnCommandData, bleNusCmdHandler, if_pos selects, Option.bind_some]
      dsimp only
      rw [if_pos known]
      split <;> exact ⟨rfl, rfl⟩
    · have quiet : commandBaud packet = none := if_neg fun all => known all.2.2
      rw [quiet, nusOnCommandData, bleNusCmdHandler, if_pos selects]
      dsimp only
      rw [if_neg known]
      exact ⟨rfl, rfl⟩
  · have quiet : commandBaud packet = none := if_neg fun all => selects ⟨all.1, all.2.1⟩
    rw [quiet, nusOnCommandData, bleNusCmdHandler, if_neg selects]
    exact ⟨rfl, rfl⟩

theorem scan_saves (s : AppState) (gpioRead : UInt32) (now : Nat) :
    Saves s (switchScan s gpioRead now).1
      (((switchScan s gpioRead now).2.bind ButtonCall.baud).map fun baud =>
        { s.deviceConfig with baudrate := baud }) := by
  unfold switchScan ser2bleCfgKeyHandler
  dsimp only
  split
  · split
    · exact ⟨rfl, rfl⟩
    · split <;> exact ⟨rfl, rfl⟩
  · exact ⟨rfl, rfl⟩

theorem step_saves {source target : AppState} {event : AppEvent}
    (taken : appStep source event = some target) :
    Saves source target (savedConfig ⟨source, event, target⟩) := by
  obtain ⟨call, shown, move⟩ := appStep_move taken
  cases move with
  | @uart _ _ uart place named moved away =>
      have quiet :
          savedConfig ⟨source, event, { source with uart := uart, place := place }⟩ = none := by
        cases event with
        | command packet => cases named
        | _ =>
            unfold savedConfig
            dsimp only
            rw [shown]
            rfl
      rw [quiet]
      exact ⟨rfl, rfl⟩
  | command packet place => exact command_saves source packet
  | keyCheck now place outside =>
      have quiet : (keyCheck { source with place := .scan } now).2.bind ButtonCall.baud = none := by
        unfold keyCheck
        split <;> rfl
      unfold savedConfig
      dsimp only
      rw [shown, quiet, keyCheck_frame]
      exact ⟨rfl, rfl⟩
  | scan gpioRead now place =>
      unfold savedConfig
      dsimp only
      rw [shown]
      obtain ⟨flash, config⟩ := scan_saves { source with place := .sdk } gpioRead now
      exact ⟨flash, config⟩

/-- The firmware never changes the name. -/
theorem saved_devName {edge : AppTransition} {cfg : DeviceCfg} (saved : savedConfig edge = some cfg) :
    cfg.devName = edge.source.deviceConfig.devName := by
  unfold savedConfig at saved
  split at saved
  · obtain ⟨baud, _, changed⟩ := Option.bind_eq_some_iff.mp saved
    obtain ⟨_, same⟩ := Option.ite_none_right_eq_some.mp changed
    cases same
    rfl
  · obtain ⟨baud, _, same⟩ := Option.map_eq_some_iff.mp saved
    cases same
    rfl

/-! ## Lives -/

section Lives

variable {flash : Nat → UInt8} {rand : Nat → UInt16} {gpioRead : UInt32}
  {edges : List AppTransition} {final : AppState}

theorem devName_run (run : AppRun flash rand gpioRead edges final) :
    final.deviceConfig.devName = (loaded flash).devName := by
  induction run with
  | refl => rfl
  | @tail edges middle target event run taken ih =>
      rw [(step_saves taken).config]
      cases saved : savedConfig ⟨middle, event, target⟩ with
      | none => exact ih
      | some cfg => exact (saved_devName saved).trans ih

theorem agree_run (run : AppRun flash rand gpioRead edges final) : ∃ rate, Agree final rate :=
  @Run.invariant _ _ _ _ _ _ (fun s => ∃ rate, Agree s rate) (agree_init flash rand gpioRead)
    agree_step run

/-- The config sector and the address are in different sectors. -/
theorem window_interruptedSave (flash : Nat → UInt8) (cfg : DeviceCfg) (count : Nat) :
    Cells.window (interruptedSave flash cfg count) cfgAdrMac 6 = Cells.window flash cfgAdrMac 6 := by
  refine Cells.window_congr fun other first last => ?_
  rw [interruptedSave, ysRomSaveDeviceConfig, Nat.add_comm, List.take_succ_cons,
    NorFlash.programBytes_take, NorFlash.run, NorFlash.run_programBytes_outside, NorFlash.apply]
  · refine if_neg ?_
    unfold cfgAdrMac at first last
    unfold sectorSize cfgAddrDevice
    omega
  · left
    unfold cfgAdrMac at last
    unfold cfgAddrDevice
    omega

theorem window_save (flash : Nat → UInt8) (saved : Option DeviceCfg) :
    Cells.window (NorFlash.run sectorSize flash (saved.elim [] ysRomSaveDeviceConfig)) cfgAdrMac 6 =
      Cells.window flash cfgAdrMac 6 := by
  cases saved with
  | none => rfl
  | some cfg =>
      have whole : (ysRomSaveDeviceConfig cfg).take (1 + 24) = ysRomSaveDeviceConfig cfg := by
        rw [ysRomSaveDeviceConfig, Nat.add_comm, List.take_succ_cons, NorFlash.programBytes_take,
          List.take_of_length_le cfg.toBytes_length.le]
      have spared := window_interruptedSave flash cfg 24
      rw [interruptedSave, whole] at spared
      exact spared

theorem window_checked (flash : Nat → UInt8) :
    Cells.window (checked flash) cfgAdrMac 6 = Cells.window flash cfgAdrMac 6 := by
  rw [checked, load_snd, loadOperations]
  split
  · exact window_save flash (some _)
  · rfl

theorem macBlank_iff (flash : Nat → UInt8) :
    macBlank flash = true ↔ looksBlank (Cells.window flash cfgAdrMac 6) := by
  rw [macBlank, decide_eq_true_iff, loadU32_erased_iff]

theorem macBlank_congr {first second : Nat → UInt8}
    (same : Cells.window first cfgAdrMac 6 = Cells.window second cfgAdrMac 6) :
    macBlank first = macBlank second := by
  rw [Bool.eq_iff_iff, macBlank_iff, macBlank_iff, same]

/-- A boot that finds an address programs nothing and uses what it finds. -/
theorem bleDrvInit_programmed {flash : Nat → UInt8} (programmed : macBlank flash = false)
    (rand : Nat → UInt16) : bleDrvInit flash rand = (Cells.window flash cfgAdrMac 6, []) :=
  if_neg (by simp [programmed])

theorem window_run (programmed : macBlank flash = false)
    (run : AppRun flash rand gpioRead edges final) :
    Cells.window final.flash cfgAdrMac 6 = Cells.window flash cfgAdrMac 6 := by
  induction run with
  | refl =>
      have still := (macBlank_congr (window_checked flash)).trans programmed
      change Cells.window (NorFlash.run _ (checked flash) (bleDrvInit (checked flash) rand).2) _ _ = _
      rw [bleDrvInit_programmed still]
      exact window_checked flash
  | tail run taken ih => rw [(step_saves taken).flash, window_save, ih]

/-- A life leaves an address alone that it did not draw itself. -/
theorem window_cycle {Cut : DeviceCfg → Nat → Prop} {ram : DeviceCfg} {left : Nat → UInt8}
    (programmed : macBlank flash = false) (cycle : PowerCycle Cut flash rand ram left) :
    Cells.window left cfgAdrMac 6 = Cells.window flash cfgAdrMac 6 := by
  cases cycle with
  | waking => rfl
  | repairing count rejected cut => exact window_interruptedSave flash _ count
  | addressing count =>
      have still := (macBlank_congr (window_checked flash)).trans programmed
      rw [bleDrvInit_programmed still, List.take_nil]
      exact window_checked flash
  | running run => exact window_run programmed run
  | saving count run taken saved cut =>
      rw [window_interruptedSave]
      exact window_run programmed run

end Lives

/-- Whatever the lives do, `ble_drv_init` finds the six bytes of the first boot. -/
theorem window_checked_kept {Cut : DeviceCfg → Nat → Prop} {flashes : Nat → Nat → UInt8}
    {rand : Nat → Nat → UInt16} {ram : Nat → DeviceCfg}
    (cycles : ∀ boot, PowerCycle Cut (flashes boot) (rand boot) (ram boot) (flashes (boot + 1)))
    (programmed : macBlank (flashes 0) = false) (boot : Nat) :
    Cells.window (checked (flashes boot)) cfgAdrMac 6 = Cells.window (flashes 0) cfgAdrMac 6 := by
  rw [window_checked]
  induction boot with
  | zero => rfl
  | succ boot ih =>
      have still := (macBlank_congr ih).trans programmed
      exact (window_cycle still (cycles boot)).trans ih

/--
Once the sector of the address does not look blank, every later boot uses the
six bytes in it, whatever each life does and wherever the power cuts it off.
-/
theorem address_survives {Cut : DeviceCfg → Nat → Prop} {flashes : Nat → Nat → UInt8}
    {rand : Nat → Nat → UInt16} {ram : Nat → DeviceCfg}
    (cycles : ∀ boot, PowerCycle Cut (flashes boot) (rand boot) (ram boot) (flashes (boot + 1)))
    (programmed : macBlank (flashes 0) = false) (boot : Nat) :
    bootAddress (flashes boot) (rand boot) = Cells.window (flashes 0) cfgAdrMac 6 := by
  have found := window_checked_kept cycles programmed boot
  rw [bootAddress, bleDrvInit_programmed ((macBlank_congr found).trans programmed), found]

/-! ## The settings -/

theorem loaded_accepted (flash : Nat → UInt8) : (loaded flash).recoverFlag = 0 := by
  rw [loaded, load_fst]
  exact recovered_accepted _ _

/-- What the loader accepts is valid when its name is terminated. -/
theorem valid_of_accepted {cfg : DeviceCfg} (accepted : cfg.recoverFlag = 0)
    (terminated : 0 ∈ cfg.devName) : cfg.Valid := by
  obtain ⟨name, power, baud⟩ := (recoverFlag_eq_zero_iff cfg).mp accepted
  refine ⟨terminated, fun erased => ?_, UInt8.not_lt.mp power, UInt8.not_lt.mp baud⟩
  rw [DeviceCfg.nameErased, erased] at name
  cases name

/-- A flash that holds an accepted configuration is loaded as it is. -/
theorem loaded_of_accepted {flash : Nat → UInt8} {cfg : DeviceCfg}
    (held : DeviceCfg.read flash = cfg) (accepted : cfg.recoverFlag = 0) : loaded flash = cfg := by
  subst held
  rw [loaded, load_accepted .ser2ble accepted]

/-- What a boot loads after a life that had `cfg` in memory when it ended. -/
structure Carried (cfg next : DeviceCfg) : Prop where
  valid : next.Valid
  name : cString next.devName = cString cfg.devName ∨ cString next.devName = Product.ser2ble.name
  baudrate : next.baudrate = cfg.baudrate ∨
    next.baudrate = UartBaudTypeDef.uartBaud115200.code

theorem carried_whole {cfg : DeviceCfg} (valid : cfg.Valid) : Carried cfg cfg :=
  ⟨valid, Or.inl rfl, Or.inl rfl⟩

/-- A save that is cut off outside the name. -/
theorem carried_cut (flash : Nat → UInt8) {cfg : DeviceCfg} (valid : cfg.Valid) {count : Nat}
    (spares : SparesName cfg count) : Carried cfg (loaded (interruptedSave flash cfg count)) := by
  have name := loaded_devName .ser2ble flash valid count
  change (loaded _).devName = _ at name
  refine ⟨valid_of_accepted (loaded_accepted _) ?_, ?_, loaded_baudrate .ser2ble flash cfg count⟩
  · rw [name]
    rcases spares with none | past
    · rw [if_pos none]
      decide
    · rw [if_neg (by omega)]
      exact List.mem_append_left _ ((zero_mem_take_iff valid.terminated count).mpr past)
  · rw [name]
    rcases spares with none | past
    · right
      rw [if_pos none]
      decide
    · left
      rw [if_neg (by omega)]
      exact cString_take_append ((zero_mem_take_iff valid.terminated count).mpr past) _

theorem read_addressing (flash : Nat → UInt8) (rand : Nat → UInt16) (count : Nat) :
    DeviceCfg.read (NorFlash.run sectorSize flash ((bleDrvInit flash rand).2.take count)) =
      DeviceCfg.read flash := by
  apply DeviceCfg.toBytes_injective
  rw [DeviceCfg.toBytes_read, DeviceCfg.toBytes_read]
  refine Cells.window_congr fun other first _ => ?_
  unfold bleDrvInit
  split
  · dsimp only
    rw [NorFlash.programBytes_take]
    refine NorFlash.run_programBytes_outside _ _ _ (Or.inr ?_)
    have short : ((generateRandomNum rand 6).take count).length ≤ 6 := by
      rw [List.length_take]
      exact Nat.min_le_right _ _
    unfold cfgAddrDevice at first
    unfold cfgAdrMac
    omega
  · rw [List.take_nil]
    rfl

/-- One life hands its settings on. -/
theorem carried_cycle {flash left : Nat → UInt8} {rand : Nat → UInt16} {ram : DeviceCfg}
    (terminated : 0 ∈ (loaded flash).devName) (cycle : PowerCycle SparesName flash rand ram left) :
    ram.devName = (loaded flash).devName ∧ Carried ram (loaded left) := by
  have booted := valid_of_accepted (loaded_accepted flash) terminated
  cases cycle with
  | waking => exact ⟨rfl, carried_whole booted⟩
  | repairing count rejected cut => exact ⟨rfl, carried_cut flash booted cut⟩
  | addressing count =>
      have held := read_addressing (checked flash) rand count
      rw [loaded_of_accepted (held.trans (read_load .ser2ble flash)) (loaded_accepted flash)]
      exact ⟨rfl, carried_whole booted⟩
  | running run =>
      obtain ⟨rate, agree⟩ := agree_run run
      have name := devName_run run
      rw [loaded_of_accepted agree.stored agree.accepted]
      exact ⟨name, carried_whole (valid_of_accepted agree.accepted (name ▸ terminated))⟩
  | @saving _ _ final target event cfg count run taken saved cut =>
      have name := (saved_devName saved).trans (devName_run run)
      have config := (step_saves taken).config
      rw [saved, Option.getD_some] at config
      obtain ⟨rate, agree⟩ := agree_step (agree_run run) taken
      have accepted := config ▸ agree.accepted
      exact ⟨name, carried_cut final.flash (valid_of_accepted accepted (name ▸ terminated)) cut⟩

section Sequence

variable {flashes : Nat → Nat → UInt8} {rand : Nat → Nat → UInt16} {ram : Nat → DeviceCfg}

theorem name_kept
    (cycles : ∀ boot, PowerCycle SparesName (flashes boot) (rand boot) (ram boot) (flashes (boot + 1)))
    (terminated : 0 ∈ (loaded (flashes 0)).devName) (boot : Nat) :
    0 ∈ (loaded (flashes boot)).devName ∧
      (cString (loaded (flashes boot)).devName = cString (loaded (flashes 0)).devName ∨
        cString (loaded (flashes boot)).devName = Product.ser2ble.name) := by
  induction boot with
  | zero => exact ⟨terminated, Or.inl rfl⟩
  | succ boot ih =>
      obtain ⟨still, named⟩ := ih
      obtain ⟨name, carried⟩ := carried_cycle still (cycles boot)
      refine ⟨carried.valid.terminated, ?_⟩
      rcases carried.name with same | default
      · rw [same, name]
        exact named
      · exact Or.inr default

/--
As long as no cut falls inside the name of a save, every boot loads a valid
configuration, under the name of the first boot or the product's, and at the
rate that the life before had chosen last or at the default one.
-/
theorem settings_survive
    (cycles : ∀ boot, PowerCycle SparesName (flashes boot) (rand boot) (ram boot) (flashes (boot + 1)))
    (terminated : 0 ∈ (loaded (flashes 0)).devName) (boot : Nat) :
    (loaded (flashes boot)).Valid ∧
      (cString (loaded (flashes boot)).devName = cString (loaded (flashes 0)).devName ∨
        cString (loaded (flashes boot)).devName = Product.ser2ble.name) ∧
      ((loaded (flashes (boot + 1))).baudrate = (ram boot).baudrate ∨
        (loaded (flashes (boot + 1))).baudrate = UartBaudTypeDef.uartBaud115200.code) := by
  obtain ⟨still, named⟩ := name_kept cycles terminated boot
  obtain ⟨_, carried⟩ := carried_cycle still (cycles boot)
  exact ⟨valid_of_accepted (loaded_accepted _) still, named, carried.baudrate⟩

end Sequence

/-! ## A life cut off in its first save -/

/-- A boot that finds its settings and its address leaves the flash as it is. -/
theorem boot_quiet {flash : Nat → UInt8} (accepted : (DeviceCfg.read flash).recoverFlag = 0)
    (programmed : macBlank flash = false) (rand : Nat → UInt16) (gpioRead : UInt32) :
    (ser2bleInit flash rand gpioRead).flash = flash := by
  change NorFlash.run sectorSize (checked flash) (bleDrvInit (checked flash) rand).2 = flash
  have same : checked flash = flash := congrArg Prod.snd (load_accepted .ser2ble accepted)
  rw [same, bleDrvInit_programmed programmed]
  rfl

/-- An empty name at 230400. -/
def unnamedFastest : DeviceCfg :=
  ⟨List.replicate 20 0, 0, UartBaudTypeDef.uartBaud230400.code, 0, 0, rfl⟩

/-- The sector erased and nothing programmed. -/
def cutFlash : Nat → UInt8 :=
  interruptedSave (fun _ => 0) unnamedFastest 0

def repairedFlash : Nat → UInt8 :=
  (ser2bleInit cutFlash (fun _ => 0x2211) 0x20).flash

def cutOnce : Nat → Nat → UInt8
  | 0 => fun _ => 0
  | 1 => cutFlash
  | 2 => cutFlash
  | _ + 3 => repairedFlash

def cutOnceRam : Nat → DeviceCfg
  | 0 => unnamedFastest
  | _ + 1 => (ser2bleInit cutFlash (fun _ => 0x2211) 0x20).deviceConfig

/--
A remote command selects 230400 and the power goes after the erase; it comes back
too briefly for the repair, and then the device boots again.
-/
theorem cutOnce_cycles (boot : Nat) :
    PowerCycle SparesName (cutOnce boot) (fun _ => 0x2211) (cutOnceRam boot) (cutOnce (boot + 1)) := by
  cases boot with
  | zero =>
      have saving := @PowerCycle.saving SparesName (fun _ => 0) (fun _ => 0x2211) 0x20 [] _ _
        (.command selectFastest) unnamedFastest 0 .refl rfl rfl (Or.inl rfl)
      rw [boot_quiet (by decide) (by decide)] at saving
      exact saving
  | succ boot =>
      match boot with
      | 0 => exact .waking
      | 1 => exact .running .refl
      | boot + 2 =>
          obtain ⟨rate, agree⟩ := agree_init cutFlash (fun _ => 0x2211) 0x20
          have config : (ser2bleInit repairedFlash (fun _ => 0x2211) 0x20).deviceConfig =
              (ser2bleInit cutFlash (fun _ => 0x2211) 0x20).deviceConfig :=
            loaded_of_accepted agree.stored agree.accepted
          have accepted : (DeviceCfg.read repairedFlash).recoverFlag = 0 := by
            rw [repairedFlash, agree.stored]
            exact agree.accepted
          have programmed : macBlank repairedFlash = false := by
            have kept := @window_run cutFlash (fun _ => 0x2211) 0x20 _ _ (by decide +kernel) .refl
            exact (macBlank_congr kept).trans (by decide +kernel)
          have again := @PowerCycle.running SparesName repairedFlash (fun _ => 0x2211) 0x20 _ _ .refl
          rw [config, boot_quiet accepted programmed] at again
          exact again

theorem address_survives_cutOnce :
    bootAddress (cutOnce 5) (fun _ => 0x2211) = [0, 0, 0, 0, 0, 0] :=
  address_survives cutOnce_cycles (by decide) 5

theorem settings_survive_cutOnce :
    (loaded (cutOnce 5)).Valid ∧
      (cString (loaded (cutOnce 5)).devName = [] ∨
        cString (loaded (cutOnce 5)).devName = Product.ser2ble.name) := by
  obtain ⟨valid, name, _⟩ := settings_survive cutOnce_cycles (by decide) 5
  exact ⟨valid, name⟩

end Ser2Ble.App
