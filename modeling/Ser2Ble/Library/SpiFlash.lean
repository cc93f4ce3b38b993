import Mathlib.Algebra.Group.Nat.Defs
import Ser2Ble.Library.NorFlash

/-!
# A serial NOR flash chip

The chip is selected, takes a command byte, then address and data bytes, and
acts when it is deselected.  Programming goes through a page buffer whose
addresses wrap inside the page.  While an operation runs the chip answers
status requests only; it says how many of them an operation takes.
-/

namespace Ser2Ble.Library.SpiFlash

/-- The commands that take an address. -/
inductive Command where
  | read
  | program
  | eraseSector
  deriving DecidableEq

/-- What the bytes since the last select were. -/
inductive Phase where
  | deselected
  | opcode
  | ignored
  | writeEnable
  | status
  | address (command : Command) (bytes : List UInt8)
  | reading (next : Nat)
  | programming (base : Nat) (bytes : List UInt8)
  | erasing (base : Nat)
  deriving DecidableEq

/-- The chip; `busy` is how many status requests the operation under way still takes. -/
structure Chip where
  cells : Nat → UInt8
  phase : Phase
  writeEnabled : Bool
  busy : Nat
  /-- how many operations were started -/
  started : Nat

/-- Sector and page sizes, and how many status requests each operation takes. -/
structure Part where
  sector : Nat
  page : Nat
  delay : Nat → Nat

/-- Data bytes stored in the page buffer from `base` on, wrapping at the end of the page. -/
def latch (page : Nat) (buffer : Nat → UInt8) : Nat → List UInt8 → Nat → UInt8
  | _, [] => buffer
  | base, byte :: rest => latch page (Cells.store buffer (base % page) byte) (base + 1) rest

/-- The cells of the page of `base`, programmed from a buffer that was erased before the data. -/
def programPage (page : Nat) (cells : Nat → UInt8) (base : Nat) (bytes : List UInt8) : Nat → UInt8 :=
  fun other =>
    if other / page = base / page then
      cells other &&& latch page (fun _ => 0xFF) base bytes (other % page)
    else cells other

/-- The address sent in three bytes, high byte first. -/
def addressOf : List UInt8 → Nat
  | [high, middle, low] => high.toNat * 2 ^ 16 + middle.toNat * 2 ^ 8 + low.toNat
  | _ => 0

/-- The phase after a command byte; a busy chip takes nothing but a status request. -/
def Chip.decode (chip : Chip) (byte : UInt8) : Phase :=
  if byte = 0x05 then .status
  else if chip.busy ≠ 0 then .ignored
  else if byte = 0x06 then .writeEnable
  else if byte = 0x03 then .address .read []
  else if byte = 0x02 then .address .program []
  else if byte = 0x20 then .address .eraseSector []
  else .ignored

def Command.start (command : Command) (base : Nat) : Phase :=
  match command with
  | .read => .reading base
  | .program => .programming base []
  | .eraseSector => .erasing base

/-- One byte in each direction. -/
def Chip.exchange (chip : Chip) (byte : UInt8) : Chip × UInt8 :=
  match chip.phase with
  | .deselected => (chip, 0xFF)
  | .opcode => ({ chip with phase := chip.decode byte }, 0xFF)
  | .ignored => (chip, 0xFF)
  | .writeEnable => ({ chip with phase := .ignored }, 0xFF)
  | .status =>
      ({ chip with busy := chip.busy - 1 },
        (if chip.busy ≠ 0 then 1 else 0) ||| if chip.writeEnabled then 2 else 0)
  | .address command bytes =>
      if bytes.length < 2 then ({ chip with phase := .address command (bytes ++ [byte]) }, 0xFF)
      else ({ chip with phase := command.start (addressOf (bytes ++ [byte])) }, 0xFF)
  | .reading next =>
      ({ chip with phase := .reading ((next + 1) % 2 ^ 24) }, chip.cells next)
  | .programming base bytes => ({ chip with phase := .programming base (bytes ++ [byte]) }, 0xFF)
  | .erasing _ => ({ chip with phase := .ignored }, 0xFF)

/-- An operation begins, if writing was enabled; it uses the permission up. -/
def Chip.operate (part : Part) (chip : Chip) (cells : Nat → UInt8) : Chip :=
  if chip.writeEnabled then
    ⟨cells, .deselected, false, part.delay chip.started, chip.started + 1⟩
  else { chip with phase := .deselected }

def Chip.deselect (part : Part) (chip : Chip) : Chip :=
  match chip.phase with
  | .writeEnable => { chip with phase := .deselected, writeEnabled := true }
  | .programming base bytes =>
      if bytes = [] then { chip with phase := .deselected }
      else chip.operate part (programPage part.page chip.cells base bytes)
  | .erasing base =>
      chip.operate part (NorFlash.apply part.sector chip.cells (.eraseSector base))
  | _ => { chip with phase := .deselected }

def Chip.select (chip : Chip) : Chip :=
  match chip.phase with
  | .deselected => { chip with phase := .opcode }
  | _ => chip

/-! ## Programming inside one page -/

theorem latch_copy {page : Nat} (buffer : Nat → UInt8) {base : Nat} {bytes : List UInt8}
    (inside : base % page + bytes.length ≤ page) :
    latch page buffer base bytes = Cells.copy buffer (base % page) bytes := by
  induction bytes generalizing buffer base with
  | nil => rfl
  | cons byte rest ih =>
      rw [latch, Cells.copy]
      cases rest with
      | nil => rfl
      | cons next rest =>
          simp only [List.length_cons] at inside ih
          have later : (base + 1) % page = base % page + 1 := by
            rw [Nat.add_mod, Nat.mod_eq_of_lt (by omega : 1 < page), Nat.mod_eq_of_lt (by omega)]
          rw [ih _ (by omega), later]

theorem same_page {page base offset : Nat} (inside : base % page + offset < page) :
    (base + offset) / page = base / page ∧ (base + offset) % page = base % page + offset := by
  have split : base + offset = base % page + offset + page * (base / page) := by
    have whole := Nat.div_add_mod base page
    omega
  rw [split, Nat.add_mul_div_left _ _ (by omega), Nat.add_mul_mod_self_left,
    Nat.div_eq_of_lt inside, Nat.mod_eq_of_lt inside, Nat.zero_add]
  exact ⟨rfl, rfl⟩

theorem and_erased (byte : UInt8) : byte &&& 0xFF = byte :=
  UInt8.and_neg_one

/-- Inside one page the wrap of the page buffer does not show. -/
theorem programPage_inside (sector : Nat) {page : Nat} (cells : Nat → UInt8) {base : Nat}
    {bytes : List UInt8} (inside : base % page + bytes.length ≤ page) :
    programPage page cells base bytes =
      NorFlash.run sector cells (NorFlash.programBytes base bytes) := by
  funext other
  rw [programPage, latch_copy _ inside]
  by_cases block : base ≤ other ∧ other < base + bytes.length
  · obtain ⟨offset, rfl⟩ := Nat.exists_eq_add_of_le block.1
    have bound : offset < bytes.length := by omega
    have held := List.getElem?_eq_getElem bound
    obtain ⟨page, place⟩ := @same_page page base offset (by omega)
    rw [if_pos page, place, Cells.copy_inside _ _ held, NorFlash.run_programBytes_inside _ _ _ held]
  · rw [NorFlash.run_programBytes_outside _ _ _ (by omega)]
    split
    · next samePage =>
        have whole := Nat.div_add_mod other page
        have start := Nat.div_add_mod base page
        rw [samePage] at whole
        rw [Cells.copy_outside _ _ (by omega)]
        exact and_erased (cells other)
    · rfl

theorem programPage_nil (page : Nat) (cells : Nat → UInt8) (base : Nat) :
    programPage page cells base [] = cells := by
  funext other
  rw [programPage]
  split
  · exact and_erased (cells other)
  · rfl

/--
A program command is the programming of a block, whatever the cells and the
data, exactly when the block does not leave the page.
-/
theorem programPage_eq_iff (sector : Nat) {page : Nat} (positive : 0 < page) (base length : Nat) :
    (∀ cells bytes, bytes.length = length → programPage page cells base bytes =
      NorFlash.run sector cells (NorFlash.programBytes base bytes)) ↔
      base % page + length ≤ page ∨ length = 0 := by
  constructor
  · intro agree
    by_contra crosses
    rw [not_or] at crosses
    -- zeros programmed over an erased chip reach the page after this one in the model only
    have zeros := congrFun (agree (fun _ => 0xFF) (List.replicate length 0) (List.length_replicate ..))
      (base + (page - base % page))
    have below := Nat.mod_lt base positive
    have held : (List.replicate length (0 : UInt8))[page - base % page]? = some 0 :=
      List.getElem?_replicate_of_lt (by omega)
    have next : (base + (page - base % page)) / page ≠ base / page := by
      have whole := Nat.div_add_mod base page
      have start : base + (page - base % page) = page * (base / page + 1) := by
        rw [Nat.mul_succ]
        omega
      rw [start, Nat.mul_div_cancel_left _ positive]
      exact Nat.succ_ne_self _
    rw [programPage, if_neg next, NorFlash.run_programBytes_inside _ _ _ held] at zeros
    exact absurd zeros (by decide)
  · rintro (inside | none) cells bytes rfl
    · exact programPage_inside sector cells inside
    · rw [List.eq_nil_of_length_eq_zero none]
      exact programPage_nil page cells base

end Ser2Ble.Library.SpiFlash
