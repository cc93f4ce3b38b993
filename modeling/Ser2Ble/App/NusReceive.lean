import Ser2Ble.YsUart.Model

/-!
# BLE writes on their way to the UART

The write callback of `vendor/826x_ser2ble/ble_app.c` and the handler of
`ser2ble.c` that it calls.
-/

namespace Ser2Ble.App

open YsUart

/--
`rf_packet_att_write_t` as delivered by the stack: the L2CAP length counts the
opcode, the two handle bytes and the value.
-/
structure RfPacketAttWrite where
  l2capLen : UInt16
  value : List UInt8
  l2capLen_eq : l2capLen.toNat = value.length + 3

/-- A write of no byte. -/
def RfPacketAttWrite.empty : RfPacketAttWrite :=
  ⟨3, [], rfl⟩

/-- `p->value`: behind an empty value lies whatever byte the buffer holds there. -/
def RfPacketAttWrite.firstByte (p : RfPacketAttWrite) (behind : UInt8) : UInt8 :=
  p.value.headD behind

def bleNusRecvHandler (tx : Tx) (data : List UInt8) (len : UInt8) : Tx × Int :=
  let sent := ysUartSend tx data len
  (sent.1, 0)

/-- `p->l2capLen - 3` is narrowed to the `u8` parameter of the handler. -/
def nusOnReceiveData (tx : Tx) (p : RfPacketAttWrite) : Tx × Int :=
  let handled := bleNusRecvHandler tx p.value (UInt8.ofNat (p.l2capLen.toNat - 3))
  (handled.1, 0)

/-- The length argument that reaches `ys_uart_send`. -/
theorem RfPacketAttWrite.narrowed (p : RfPacketAttWrite) :
    (UInt8.ofNat (p.l2capLen.toNat - 3)).toNat = p.value.length % 256 := by
  rw [p.l2capLen_eq, Nat.add_sub_cancel, UInt8.toNat_ofNat']

end Ser2Ble.App
