import Ser2Ble.Library.SpiFlash

/-!
# The flash driver of `proj/drivers/flash.c`

The driver talks to a serial chip through `reg_master_spi_data` and
`reg_master_spi_ctrl`.  On a chip that is ready each call does what the rest of
the development takes it to do, and leaves the chip ready for the next.
-/

namespace Ser2Ble.Proj

open Library SpiFlash

/-! ## spi_i.h -/

/-- The SPI master with the chip on its bus. -/
structure Mspi where
  chip : Chip
  regMasterSpiData : UInt8
  regMasterSpiCtrl : UInt8

section Driver

variable (part : Part)

/-- `mspi_write` and `mspi_wait`: one byte goes out and one comes in. -/
def mspiWrite (m : Mspi) (c : UInt8) : Mspi :=
  { m with chip := (m.chip.exchange c).1, regMasterSpiData := (m.chip.exchange c).2 }

/-- `mspi_ctrl_write`; bit 0 is `FLD_MASTER_SPI_CS`. -/
def mspiCtrlWrite (m : Mspi) (c : UInt8) : Mspi :=
  { m with
    chip := if c &&& 0x01 ≠ 0 then m.chip.deselect part else m.chip.select
    regMasterSpiCtrl := c }

def mspiHigh (m : Mspi) : Mspi :=
  mspiCtrlWrite part m 0x01

def mspiLow (m : Mspi) : Mspi :=
  mspiCtrlWrite part m 0

/-- `mspi_get`; with `FLD_MASTER_SPI_RD` set, reading the register clocks the next byte in. -/
def mspiGet (m : Mspi) : UInt8 × Mspi :=
  (m.regMasterSpiData, if m.regMasterSpiCtrl &&& 0x08 ≠ 0 then mspiWrite m 0 else m)

def mspiRead (m : Mspi) : UInt8 × Mspi :=
  mspiGet (mspiWrite m 0)

/-! ## flash.c -/

def flashSendCmd (m : Mspi) (cmd : UInt8) : Mspi :=
  mspiWrite (mspiLow part (mspiHigh part m)) cmd

def flashSendAddr (m : Mspi) (addr : UInt32) : Mspi :=
  mspiWrite (mspiWrite (mspiWrite m (addr >>> 16).toUInt8) (addr >>> 8).toUInt8) addr.toUInt8

/-- The loop of `flash_wait_done`, `tries` rounds of it. -/
def waitLoop : Nat → Mspi → Mspi
  | 0, m => m
  | tries + 1, m =>
      if (mspiRead m).1 &&& 0x01 = 0 then (mspiRead m).2 else waitLoop tries (mspiRead m).2

/-- How often `flash_wait_done` asks. -/
def waitTries : Nat := 10000000

def flashWaitDone (m : Mspi) : Mspi :=
  mspiHigh part (waitLoop waitTries (flashSendCmd part m 0x05))

def flashEraseSector (m : Mspi) (addr : UInt32) : Mspi :=
  let m := flashSendCmd part m 0x06
  let m := flashSendCmd part m 0x20
  let m := flashSendAddr m addr
  flashWaitDone part (mspiHigh part m)

def flashWritePage (m : Mspi) (addr : UInt32) (buf : List UInt8) : Mspi :=
  let m := flashSendCmd part m 0x06
  let m := flashSendCmd part m 0x02
  let m := flashSendAddr m addr
  flashWaitDone part (mspiHigh part (buf.foldl mspiWrite m))

/-- The loop of `flash_read_page`. -/
def readLoop : Nat → Mspi → List UInt8 × Mspi
  | 0, m => ([], m)
  | len + 1, m => ((mspiGet m).1 :: (readLoop len (mspiGet m).2).1, (readLoop len (mspiGet m).2).2)

def flashReadPage (m : Mspi) (addr : UInt32) (len : Nat) : List UInt8 × Mspi :=
  let m := flashSendCmd part m 0x03
  let m := flashSendAddr m addr
  let m := mspiWrite m 0
  let m := mspiCtrlWrite part m 0x0A
  let (buf, m) := readLoop len m
  (buf, mspiHigh part m)

end Driver

/-! ## What each call does to the chip -/

section Calls

variable {part : Part}

theorem deselect_phase (part : Part) (chip : Chip) : (chip.deselect part).phase = .deselected := by
  unfold Chip.deselect Chip.operate
  split
  · rfl
  · split
    · rfl
    · split <;> rfl
  · split <;> rfl
  · rfl

@[simp] theorem mspiHigh_chip (m : Mspi) : (mspiHigh part m).chip = m.chip.deselect part := rfl

theorem sendCmd_chip (m : Mspi) (cmd : UInt8) : (flashSendCmd part m cmd).chip =
    { m.chip.deselect part with phase := (m.chip.deselect part).decode cmd } := by
  have phase := deselect_phase part m.chip
  change (((m.chip.deselect part).select).exchange cmd).1 = _
  rw [Chip.select, phase]
  rfl

/-- The three bytes of an address are the address. -/
theorem addressOf_bytes (addr : UInt32) (fits : addr.toNat < 2 ^ 24) :
    addressOf [(addr >>> 16).toUInt8, (addr >>> 8).toUInt8, addr.toUInt8] = addr.toNat := by
  rw [addressOf, UInt32.toNat_toUInt8, UInt32.toNat_toUInt8, UInt32.toNat_toUInt8,
    UInt32.toNat_shiftRight, UInt32.toNat_shiftRight]
  change addr.toNat >>> 16 % 2 ^ 8 * 2 ^ 16 + addr.toNat >>> 8 % 2 ^ 8 * 2 ^ 8 + addr.toNat % 2 ^ 8 = _
  rw [Nat.shiftRight_eq_div_pow, Nat.shiftRight_eq_div_pow]
  omega

theorem sendAddr_chip {m : Mspi} {command : Command} (phase : m.chip.phase = .address command [])
    {addr : UInt32} (fits : addr.toNat < 2 ^ 24) :
    (flashSendAddr m addr).chip = { m.chip with phase := command.start addr.toNat } := by
  rw [← addressOf_bytes addr fits]
  obtain ⟨⟨cells, _, writeEnabled, busy, started⟩, data, ctrl⟩ := m
  cases phase
  rfl

theorem mspiRead_manual {m : Mspi} (manual : m.regMasterSpiCtrl = 0) :
    mspiRead m = ((m.chip.exchange 0).2, mspiWrite m 0) := by
  rw [mspiRead, mspiGet, if_neg]
  · rfl
  · change ¬ (m.regMasterSpiCtrl &&& 0x08 ≠ 0)
    rw [manual]
    decide

theorem mspiRead_status {m : Mspi} (phase : m.chip.phase = .status)
    (manual : m.regMasterSpiCtrl = 0) :
    ((mspiRead m).1 &&& 0x01 = 0 ↔ m.chip.busy = 0) ∧
      (mspiRead m).2.chip = { m.chip with busy := m.chip.busy - 1 } ∧
      (mspiRead m).2.regMasterSpiCtrl = 0 := by
  rw [mspiRead_manual manual]
  obtain ⟨⟨cells, _, writeEnabled, busy, started⟩, data, ctrl⟩ := m
  cases phase
  refine ⟨?_, rfl, manual⟩
  change ((if busy ≠ 0 then (1 : UInt8) else 0) ||| if writeEnabled then 2 else 0) &&& 0x01 = 0 ↔ _
  by_cases idle : busy = 0
  · cases writeEnabled
    · simp [idle]
    · simp only [idle, ne_eq, not_true_eq_false, if_false, if_true]
      decide
  · cases writeEnabled
    · simp [idle]
    · simp only [idle, ne_eq, not_false_eq_true, if_true]
      decide

/-- The chip is asked until it is no longer busy, or as often as the loop goes round. -/
theorem waitLoop_chip (tries : Nat) {m : Mspi} (phase : m.chip.phase = .status)
    (manual : m.regMasterSpiCtrl = 0) :
    (waitLoop tries m).chip = { m.chip with busy := m.chip.busy - tries } := by
  induction tries generalizing m with
  | zero => rfl
  | succ tries ih =>
      obtain ⟨answer, chip, still⟩ := mspiRead_status phase manual
      rw [waitLoop]
      split
      · next ready =>
          have idle := answer.mp ready
          rw [chip, idle, Nat.zero_sub, Nat.zero_sub]
      · rw [ih (by rw [chip]; exact phase) still, chip]
        dsimp only
        rw [Nat.sub_sub, Nat.add_comm 1]

theorem waitDone_chip {m : Mspi} (phase : m.chip.phase = .deselected) :
    (flashWaitDone part m).chip = { m.chip with busy := m.chip.busy - waitTries } := by
  have asked := @sendCmd_chip part m 0x05
  have quiet : m.chip.deselect part = m.chip := by
    rw [Chip.deselect, phase]
    dsimp only
    rw [← phase]
  rw [quiet] at asked
  have status : (flashSendCmd part m 0x05).chip.phase = .status := by
    rw [asked]
    rfl
  rw [flashWaitDone, mspiHigh_chip, waitLoop_chip waitTries status rfl, asked]
  change ({ m.chip with phase := .deselected, busy := m.chip.busy - waitTries } : Chip) = _
  rw [← phase]

/-- The chip waits for a command. -/
structure Ready (chip : Chip) : Prop where
  phase : chip.phase = .deselected
  idle : chip.busy = 0

/-- The chip after an operation that was allowed and waited for. -/
def finished (part : Part) (chip : Chip) (cells : Nat → UInt8) : Chip :=
  ⟨cells, .deselected, false, part.delay chip.started - waitTries, chip.started + 1⟩

/-- After a write enable and an addressed command the chip takes what follows. -/
theorem enabled_chip {m : Mspi} (ready : Ready m.chip) {cmd : UInt8} {command : Command}
    (decoded : ∀ chip : Chip, chip.busy = 0 → chip.decode cmd = .address command [])
    {addr : UInt32} (fits : addr.toNat < 2 ^ 24) :
    (flashSendAddr (flashSendCmd part (flashSendCmd part m 0x06) cmd) addr).chip =
      { m.chip with phase := command.start addr.toNat, writeEnabled := true } := by
  obtain ⟨⟨cells, _, writeEnabled, _, started⟩, data, ctrl⟩ := m
  obtain ⟨rfl, rfl⟩ := ready
  have enable := @sendCmd_chip part ⟨⟨cells, .deselected, writeEnabled, 0, started⟩, data, ctrl⟩ 0x06
  have armed := @sendCmd_chip part
    (flashSendCmd part ⟨⟨cells, .deselected, writeEnabled, 0, started⟩, data, ctrl⟩ 0x06) cmd
  rw [enable] at armed
  change _ = ({ (⟨cells, .deselected, true, 0, started⟩ : Chip) with
    phase := Chip.decode ⟨cells, .deselected, true, 0, started⟩ cmd } : Chip) at armed
  rw [decoded _ rfl] at armed
  rw [sendAddr_chip (by rw [armed]) fits, armed]

theorem eraseSector_chip {m : Mspi} (ready : Ready m.chip) {addr : UInt32}
    (fits : addr.toNat < 2 ^ 24) :
    (flashEraseSector part m addr).chip =
      finished part m.chip (NorFlash.apply part.sector m.chip.cells (.eraseSector addr.toNat)) := by
  have armed := @enabled_chip part m ready 0x20 .eraseSector
    (fun chip idle => by simp [Chip.decode, idle]) addr fits
  rw [flashEraseSector, waitDone_chip (by rw [mspiHigh_chip]; exact deselect_phase part _), mspiHigh_chip, armed]
  rfl

theorem programming_chip {m : Mspi} {base : Nat} {before : List UInt8}
    (phase : m.chip.phase = .programming base before) (buf : List UInt8) :
    (buf.foldl mspiWrite m).chip =
      { m.chip with phase := .programming base (before ++ buf) } := by
  induction buf generalizing m before with
  | nil => rw [List.append_nil, ← phase]; rfl
  | cons byte rest ih =>
      have one : (mspiWrite m byte).chip =
          { m.chip with phase := .programming base (before ++ [byte]) } := by
        rw [mspiWrite, Chip.exchange, phase]
      rw [List.foldl_cons, ih (by rw [one]), one, List.append_assoc]
      rfl

/-- The chip when the data bytes of a write have been sent. -/
theorem sentPage_chip {m : Mspi} (ready : Ready m.chip) {addr : UInt32}
    (fits : addr.toNat < 2 ^ 24) (buf : List UInt8) :
    (buf.foldl mspiWrite
        (flashSendAddr (flashSendCmd part (flashSendCmd part m 0x06) 0x02) addr)).chip =
      { m.chip with phase := .programming addr.toNat buf, writeEnabled := true } := by
  have armed := @enabled_chip part m ready 0x02 .program
    (fun chip idle => by simp [Chip.decode, idle]) addr fits
  rw [programming_chip (by rw [armed]; rfl), armed]
  rfl

theorem writePage_chip {m : Mspi} (ready : Ready m.chip) {addr : UInt32}
    (fits : addr.toNat < 2 ^ 24) {buf : List UInt8} (some : buf ≠ []) :
    (flashWritePage part m addr buf).chip =
      finished part m.chip (programPage part.page m.chip.cells addr.toNat buf) := by
  rw [flashWritePage, waitDone_chip (by rw [mspiHigh_chip]; exact deselect_phase part _),
    mspiHigh_chip, sentPage_chip ready fits, Chip.deselect]
  dsimp only
  rw [if_neg some]
  rfl

/-- Also a write of nothing leaves the cells as programming nothing does. -/
theorem writePage_cells {m : Mspi} (ready : Ready m.chip) {addr : UInt32}
    (fits : addr.toNat < 2 ^ 24) (buf : List UInt8) :
    (flashWritePage part m addr buf).chip.cells =
      programPage part.page m.chip.cells addr.toNat buf := by
  by_cases none : buf = []
  · subst none
    rw [flashWritePage, waitDone_chip (by rw [mspiHigh_chip]; exact deselect_phase part _),
      mspiHigh_chip, sentPage_chip ready fits, programPage_nil]
    rfl
  · rw [writePage_chip ready fits none]
    rfl

/-- A write programs its block, whatever the chip and the data, exactly when it stays in its page. -/
theorem write_page_iff (positive : 0 < part.page) {addr : UInt32} (fits : addr.toNat < 2 ^ 24)
    (length : Nat) :
    (∀ m buf, Ready m.chip → buf.length = length → (flashWritePage part m addr buf).chip.cells =
      NorFlash.run part.sector m.chip.cells (NorFlash.programBytes addr.toNat buf)) ↔
      addr.toNat % part.page + length ≤ part.page ∨ length = 0 := by
  rw [← programPage_eq_iff part.sector positive]
  constructor
  · intro programs cells buf sized
    have ready : Ready ⟨cells, .deselected, false, 0, 0⟩ := ⟨rfl, rfl⟩
    have program := programs ⟨⟨cells, .deselected, false, 0, 0⟩, 0, 0⟩ buf ready sized
    rw [writePage_cells ready fits] at program
    exact program
  · intro programs m buf ready sized
    rw [writePage_cells ready fits]
    exact programs m.chip.cells buf sized

/-- A chip of 4 KiB sectors and 256 byte pages that is busy for a thousand requests. -/
def smallPart : Part :=
  ⟨0x1000, 0x100, fun _ => 1000⟩

/-- A write of 24 bytes from 16 bytes before the end of a page wraps to its start. -/
theorem write_page_iff_crossing :
    ¬ ∀ m buf, Ready m.chip → buf.length = 24 → (flashWritePage smallPart m 0xF0 buf).chip.cells =
      NorFlash.run smallPart.sector m.chip.cells
        (NorFlash.programBytes (0xF0 : UInt32).toNat buf) := by
  rw [@write_page_iff smallPart (by decide) 0xF0 (by decide) 24]
  decide

/-- In auto mode every read of the register clocks the next cell in. -/
theorem readLoop_chip (len : Nat) {m : Mspi} {base : Nat} (fits : base + len ≤ 2 ^ 24)
    (phase : m.chip.phase = .reading ((base + 1) % 2 ^ 24))
    (data : m.regMasterSpiData = m.chip.cells (base % 2 ^ 24)) (auto : m.regMasterSpiCtrl = 0x0A) :
    (readLoop len m).1 = Cells.window m.chip.cells base len ∧
      ∃ next, (readLoop len m).2.chip = { m.chip with phase := .reading next } := by
  induction len generalizing m base with
  | zero => exact ⟨rfl, _, by rw [← phase]; rfl⟩
  | succ len ih =>
      have clocked : mspiGet m = (m.regMasterSpiData, mspiWrite m 0) := by
        rw [mspiGet, if_pos]
        rw [auto]
        decide
      have next : mspiWrite m 0 = ⟨{ m.chip with phase := .reading ((base + 2) % 2 ^ 24) },
          m.chip.cells ((base + 1) % 2 ^ 24), m.regMasterSpiCtrl⟩ := by
        rw [mspiWrite, Chip.exchange, phase]
        dsimp only
        rw [Nat.mod_add_mod]
      obtain ⟨rest, last, chip⟩ := @ih (mspiWrite m 0) (base + 1) (by omega) (by rw [next])
        (by rw [next]) (by rw [next]; exact auto)
      rw [readLoop, clocked]
      dsimp only
      rw [rest, chip, next, Cells.window_cons, data, Nat.mod_eq_of_lt (by omega)]
      exact ⟨rfl, last, rfl⟩

/-- The dummy byte fetches the first cell. -/
theorem autoMode_chip {m : Mspi} {base : Nat} (phase : m.chip.phase = .reading base) :
    mspiCtrlWrite part (mspiWrite m 0) 0x0A =
      ⟨{ m.chip with phase := .reading ((base + 1) % 2 ^ 24) }, m.chip.cells base, 0x0A⟩ := by
  obtain ⟨⟨cells, _, writeEnabled, busy, started⟩, data, ctrl⟩ := m
  cases phase
  rfl

theorem readPage_chip {m : Mspi} (ready : Ready m.chip) {addr : UInt32} {len : Nat}
    (below : addr.toNat < 2 ^ 24) (fits : addr.toNat + len ≤ 2 ^ 24) :
    (flashReadPage part m addr len).1 = Cells.window m.chip.cells addr.toNat len ∧
      (flashReadPage part m addr len).2.chip = m.chip := by
  obtain ⟨⟨cells, _, writeEnabled, _, started⟩, data, ctrl⟩ := m
  obtain ⟨rfl, rfl⟩ := ready
  have asked := @sendCmd_chip part ⟨⟨cells, .deselected, writeEnabled, 0, started⟩, data, ctrl⟩ 0x03
  have placed := sendAddr_chip (show (flashSendCmd part
    ⟨⟨cells, .deselected, writeEnabled, 0, started⟩, data, ctrl⟩ 0x03).chip.phase =
      .address .read [] by rw [asked]; rfl) below
  have auto := @autoMode_chip part _ _ (show _ = Phase.reading addr.toNat by rw [placed]; rfl)
  rw [placed, asked] at auto
  change mspiCtrlWrite part _ 0x0A =
    ⟨⟨cells, .reading ((addr.toNat + 1) % 2 ^ 24), writeEnabled, 0, started⟩,
      cells addr.toNat, 0x0A⟩ at auto
  rw [flashReadPage, auto]
  obtain ⟨bytes, last, chip⟩ := @readLoop_chip len
    ⟨⟨cells, .reading ((addr.toNat + 1) % 2 ^ 24), writeEnabled, 0, started⟩,
      cells addr.toNat, 0x0A⟩ addr.toNat fits rfl (by rw [Nat.mod_eq_of_lt below]) rfl
  refine ⟨bytes, ?_⟩
  change ((readLoop len _).2.chip.deselect part) = _
  rw [chip]
  rfl

end Calls

/-! ## Sequences of calls -/

inductive FlashCall where
  | eraseSector (addr : UInt32)
  | writePage (addr : UInt32) (buf : List UInt8)
  | readPage (addr : UInt32) (len : Nat)

namespace FlashCall

/-- The call on the bus, and the bytes that it reads. -/
def exec (part : Part) (m : Mspi) : FlashCall → List UInt8 × Mspi
  | eraseSector addr => ([], flashEraseSector part m addr)
  | writePage addr buf => ([], flashWritePage part m addr buf)
  | readPage addr len => flashReadPage part m addr len

/-- What the call is taken to do to the cells. -/
def ops : FlashCall → List NorFlash.Op
  | eraseSector addr => [.eraseSector addr.toNat]
  | writePage addr buf => NorFlash.programBytes addr.toNat buf
  | readPage _ _ => []

/-- What the call is taken to read. -/
def answer (cells : Nat → UInt8) : FlashCall → List UInt8
  | eraseSector _ | writePage _ _ => []
  | readPage addr len => Cells.window cells addr.toNat len

/-- The address has 24 bits, a write stays in its page, and a read in the chip. -/
def Fits (part : Part) : FlashCall → Prop
  | eraseSector addr => addr.toNat < 2 ^ 24
  | writePage addr buf =>
      addr.toNat < 2 ^ 24 ∧ buf ≠ [] ∧ addr.toNat % part.page + buf.length ≤ part.page
  | readPage addr len => addr.toNat < 2 ^ 24 ∧ addr.toNat + len ≤ 2 ^ 24

/-- Several calls, and what each of them reads. -/
def execAll (part : Part) : Mspi → List FlashCall → List (List UInt8) × Mspi
  | m, [] => ([], m)
  | m, call :: rest =>
      ((call.exec part m).1 :: (execAll part (call.exec part m).2 rest).1,
        (execAll part (call.exec part m).2 rest).2)

/-- What several calls are taken to read. -/
def answers (part : Part) : (Nat → UInt8) → List FlashCall → List (List UInt8)
  | _, [] => []
  | cells, call :: rest =>
      call.answer cells :: answers part (NorFlash.run part.sector cells call.ops) rest

end FlashCall

section Refinement

variable {part : Part}

theorem ready_finished (prompt : ∀ operation, part.delay operation ≤ waitTries) (chip : Chip)
    (cells : Nat → UInt8) : Ready (finished part chip cells) :=
  ⟨rfl, Nat.sub_eq_zero_of_le (prompt chip.started)⟩

theorem call_refines (prompt : ∀ operation, part.delay operation ≤ waitTries) {m : Mspi}
    (ready : Ready m.chip) {call : FlashCall} (fits : call.Fits part) :
    (call.exec part m).1 = call.answer m.chip.cells ∧ Ready (call.exec part m).2.chip ∧
      (call.exec part m).2.chip.cells = NorFlash.run part.sector m.chip.cells call.ops := by
  cases call with
  | eraseSector addr =>
      have chip := @eraseSector_chip part m ready addr fits
      refine ⟨rfl, ?_, ?_⟩
      · change Ready (flashEraseSector part m addr).chip
        rw [chip]
        exact ready_finished prompt _ _
      · change (flashEraseSector part m addr).chip.cells = _
        rw [chip]
        rfl
  | writePage addr buf =>
      obtain ⟨below, some, inside⟩ := fits
      have chip := @writePage_chip part m ready addr below buf some
      rw [programPage_inside part.sector _ inside] at chip
      refine ⟨rfl, ?_, ?_⟩
      · change Ready (flashWritePage part m addr buf).chip
        rw [chip]
        exact ready_finished prompt _ _
      · change (flashWritePage part m addr buf).chip.cells = _
        rw [chip]
        rfl
  | readPage addr len =>
      obtain ⟨below, inside⟩ := fits
      obtain ⟨bytes, chip⟩ := @readPage_chip part m ready addr len below inside
      refine ⟨bytes, ?_, ?_⟩
      · change Ready (flashReadPage part m addr len).2.chip
        rw [chip]
        exact ready
      · change (flashReadPage part m addr len).2.chip.cells = _
        rw [chip]
        rfl

/--
On a ready chip whose operations end before the driver gives up waiting, every
sequence of calls that fit reads and writes what the flash operations say, and
the chip is ready again after each of them.
-/
theorem flash_calls_refine (prompt : ∀ operation, part.delay operation ≤ waitTries) {m : Mspi}
    (ready : Ready m.chip) {calls : List FlashCall} (fits : ∀ call ∈ calls, call.Fits part) :
    (FlashCall.execAll part m calls).1 = FlashCall.answers part m.chip.cells calls ∧
      Ready (FlashCall.execAll part m calls).2.chip ∧
      (FlashCall.execAll part m calls).2.chip.cells =
        NorFlash.run part.sector m.chip.cells (calls.flatMap FlashCall.ops) := by
  induction calls generalizing m with
  | nil => exact ⟨rfl, ready, rfl⟩
  | cons call rest ih =>
      obtain ⟨answer, after, cells⟩ := call_refines prompt ready (fits call List.mem_cons_self)
      obtain ⟨answers, last, final⟩ := ih after fun other member =>
        fits other (List.mem_cons_of_mem _ member)
      rw [FlashCall.execAll, FlashCall.answers, List.flatMap_cons, NorFlash.run_append, answer,
        answers, final, cells]
      exact ⟨rfl, last, rfl⟩

/-- An erased chip that has just been deselected. -/
def erasedChip : Mspi :=
  ⟨⟨fun _ => 0xFF, .deselected, false, 0, 0⟩, 0, 0x01⟩

/-- Two bytes are programmed, and read back between their neighbours. -/
theorem flash_calls_refine_readBack :
    (FlashCall.execAll smallPart erasedChip
      [.eraseSector 0x7A000, .writePage 0x7A000 [1, 2], .readPage 0x7A000 3]).1 =
        [[], [], [1, 2, 0xFF]] := by
  have fits : ∀ call ∈ [FlashCall.eraseSector 0x7A000, .writePage 0x7A000 [1, 2],
      .readPage 0x7A000 3], call.Fits smallPart := by
    simp [FlashCall.Fits, smallPart]
  have prompt : ∀ operation, smallPart.delay operation ≤ waitTries := fun _ =>
    (by decide : 1000 ≤ waitTries)
  rw [(flash_calls_refine prompt ⟨rfl, rfl⟩ fits).1]
  decide +kernel

end Refinement

end Ser2Ble.Proj
