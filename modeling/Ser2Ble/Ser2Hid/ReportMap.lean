import Mathlib.Data.List.Basic

/-!
# The report map of `vendor/826x_ser2hid/ble_app.c`

The size of an input report is what the descriptor declares: the sum of size
times count over the `Input` items that stand under its report identifier.
-/

namespace Ser2Ble.Ser2Hid

/-! ## Report descriptors -/

/-- A short item: its prefix without the size bits, and its little-endian data. -/
structure Item where
  tag : UInt8
  value : Nat
  deriving DecidableEq, Repr

/-- Items that the tables here do not use: long items, `Push` and `Pop`. -/
def unsupported (header : UInt8) : Bool :=
  header == 0xFE || header &&& 0xFC == 0xA4 || header &&& 0xFC == 0xB4

/-- Split a descriptor into items; the low two bits of a prefix count its data bytes. -/
def items : List UInt8 → Option (List Item)
  | [] => some []
  | header :: rest =>
      if unsupported header then none
      else
        match (header &&& 3).toNat, rest with
        | 0, rest => (items rest).map (List.cons ⟨header &&& 0xFC, 0⟩)
        | 1, low :: rest => (items rest).map (List.cons ⟨header &&& 0xFC, low.toNat⟩)
        | 2, low :: high :: rest =>
            (items rest).map (List.cons ⟨header &&& 0xFC, low.toNat + 2 ^ 8 * high.toNat⟩)
        | 3, first :: second :: third :: fourth :: rest =>
            (items rest).map (List.cons ⟨header &&& 0xFC, first.toNat + 2 ^ 8 * second.toNat +
              2 ^ 16 * third.toNat + 2 ^ 24 * fourth.toNat⟩)
        | _, _ => none

/-- The global items that decide the layout of a report. -/
structure Globals where
  reportId : Nat
  reportSize : Nat
  reportCount : Nat

/-- The bits of the input report `wanted` that a list of items declares. -/
def inputBits (wanted : Nat) : Globals → List Item → Nat
  | _, [] => 0
  | globals, item :: rest =>
      if item.tag = 0x84 then inputBits wanted { globals with reportId := item.value } rest
      else if item.tag = 0x74 then inputBits wanted { globals with reportSize := item.value } rest
      else if item.tag = 0x94 then inputBits wanted { globals with reportCount := item.value } rest
      else if item.tag = 0x80 ∧ globals.reportId = wanted then
        globals.reportSize * globals.reportCount + inputBits wanted globals rest
      else inputBits wanted globals rest

/-- The bytes of an input report. -/
def inputBytes (descriptor : List UInt8) (wanted : Nat) : Option Nat :=
  (items descriptor).map fun parsed => inputBits wanted ⟨0, 0, 0⟩ parsed / 8

/-! ## The descriptor -/

def keyboardReport : List UInt8 :=
  [0x05, 0x01, 0x09, 0x06, 0xA1, 0x01, 0x85, 1,
    0x05, 0x07, 0x19, 0xE0, 0x29, 0xE7, 0x15, 0x00, 0x25, 0x01, 0x95, 0x08, 0x75, 0x01, 0x81, 0x02,
    0x95, 0x01, 0x75, 0x08, 0x81, 0x01,
    0x05, 0x08, 0x19, 0x01, 0x29, 0x05, 0x95, 0x05, 0x75, 0x01, 0x91, 0x02,
    0x95, 0x01, 0x75, 0x03, 0x91, 0x01,
    0x05, 0x07, 0x19, 0x00, 0x29, 0xF1, 0x15, 0x00, 0x25, 0xF1, 0x95, 0x06, 0x75, 0x08, 0x81, 0x00,
    0xC0]

def consumerReport : List UInt8 :=
  [0x05, 0x0C, 0x09, 0x01, 0xA1, 0x01, 0x85, 2,
    0x19, 0x01, 0x2a, 0x8c, 0x02, 0x15, 0x01, 0x26, 0x8c, 0x02, 0x95, 0x01, 0x75, 0x10, 0x81, 0x00,
    0xC0]

def systemReport : List UInt8 :=
  [0x05, 0x01, 0x09, 0x80, 0xA1, 0x01, 0x85, 3,
    0x19, 0x01, 0x29, 0xB7, 0x15, 0x01, 0x26, 0xB7, 0x00, 0x95, 0x01, 0x75, 0x10, 0x81, 0x00,
    0xC0]

def nkroReport : List UInt8 :=
  [0x05, 0x01, 0x09, 0x06, 0xA1, 0x01, 0x85, 4,
    0x95, 0x01, 0x75, 0x08, 0x81, 0x01,
    0x05, 0x07, 0x15, 0x00, 0x25, 0x01, 0x19, 0x00, 0x29, 119, 0x95, 120, 0x75, 0x01, 0x81, 0x02,
    0xC0]

def mouseReport : List UInt8 :=
  [0x05, 0x01, 0x09, 0x02, 0xA1, 0x01, 0x85, 6, 0x09, 0x01, 0xA1, 0x00,
    0x05, 0x09, 0x19, 0x01, 0x29, 0x05, 0x15, 0x00, 0x25, 0x01, 0x75, 0x01, 0x95, 0x05, 0x81, 0x02,
    0x75, 0x03, 0x95, 0x01, 0x81, 0x01,
    0x05, 0x01, 0x09, 0x30, 0x09, 0x31, 0x15, 0x81, 0x25, 0x7F, 0x75, 0x08, 0x95, 0x02, 0x81, 0x06,
    0x09, 0x38, 0x15, 0x81, 0x25, 0x7F, 0x35, 0x00, 0x45, 0x00, 0x75, 0x08, 0x95, 0x01, 0x81, 0x06,
    0xC0, 0xC0]

def hidReportMap : List UInt8 :=
  keyboardReport ++ consumerReport ++ systemReport ++ nkroReport ++ mouseReport

/-! ## The reports -/

/-- The input reports that a frame can ask for. -/
inductive ReportKind where
  | keyboard
  | mouse
  | system
  | consumer
  | nkro
  deriving DecidableEq, Repr

/-- The value handles `HID_*_REPORT_INPUT_DP_H`, in the order of the attribute table. -/
inductive AttHandle where
  | hidKeyboardReportInputDpH
  | hidConsumerReportInputDpH
  | hidSystemReportInputDpH
  | hidNkroReportInputDpH
  | hidMouseReportInputDpH
  deriving DecidableEq, Repr

namespace ReportKind

/-- `REPORT_ID_*_INPUT_BLE`. -/
def reportId : ReportKind → Nat
  | keyboard => 1
  | consumer => 2
  | system => 3
  | nkro => 4
  | mouse => 6

/-- The handle whose report reference names the identifier. -/
def handle : ReportKind → AttHandle
  | keyboard => .hidKeyboardReportInputDpH
  | consumer => .hidConsumerReportInputDpH
  | system => .hidSystemReportInputDpH
  | nkro => .hidNkroReportInputDpH
  | mouse => .hidMouseReportInputDpH

/-- The command byte of a frame. -/
def command : ReportKind → UInt8
  | keyboard => 0x71
  | mouse => 0x72
  | system => 0x73
  | consumer => 0x74
  | nkro => 0x76

/-- The size that `hidReportMap` declares. -/
def declaredSize (kind : ReportKind) : Nat :=
  (inputBytes hidReportMap kind.reportId).getD 0

/-- The report map is read to its end, and declares these sizes. -/
theorem inputBytes_hidReportMap (kind : ReportKind) :
    inputBytes hidReportMap kind.reportId = some (match kind with
      | keyboard => 8
      | mouse => 4
      | system => 2
      | consumer => 2
      | nkro => 16) := by
  cases kind <;> decide +kernel

theorem declaredSize_eq (kind : ReportKind) :
    kind.declaredSize = match kind with
      | keyboard => 8
      | mouse => 4
      | system => 2
      | consumer => 2
      | nkro => 16 := by
  rw [declaredSize, inputBytes_hidReportMap]
  rfl

end ReportKind

end Ser2Ble.Ser2Hid
