import Ser2Ble.Proj.Uart
import Ser2Ble.Proj.Utility

/-!
# The functions of `vendor/common/ys_uart.c`

The receive side owns `uart_rx_fifo` and the raw pointers `wptr` and `wlen`
into its buffer, kept as byte offsets.  A store through a pointer that has left
the buffer changes no other variable of the model; the theorems about the
receive side say when that cannot happen.
-/

namespace Ser2Ble.YsUart

open Library Proj

/-! ## Baud rates -/

inductive UartBaudTypeDef where
  | uartBaud9600
  | uartBaud19200
  | uartBaud38400
  | uartBaud57600
  | uartBaud115200
  | uartBaud230400
  deriving DecidableEq, Repr

namespace UartBaudTypeDef

/-- The value of the enumerator. -/
def code : UartBaudTypeDef → UInt8
  | uartBaud9600 => 0
  | uartBaud19200 => 1
  | uartBaud38400 => 2
  | uartBaud57600 => 3
  | uartBaud115200 => 4
  | uartBaud230400 => 5

/-- The `case` labels of `ys_uart_set_baud`; every other value takes `default`. -/
def ofCode? (value : UInt8) : Option UartBaudTypeDef :=
  if value = 0 then some uartBaud9600
  else if value = 1 then some uartBaud19200
  else if value = 2 then some uartBaud38400
  else if value = 3 then some uartBaud57600
  else if value = 4 then some uartBaud115200
  else if value = 5 then some uartBaud230400
  else none

/-- Arguments of `uart_Init` in `CLK16M_UART9600` to `CLK16M_UART230400`. -/
def clk16m : UartBaudTypeDef → UInt16 × UInt8
  | uartBaud9600 => (118, 13)
  | uartBaud19200 => (118, 6)
  | uartBaud38400 => (31, 12)
  | uartBaud57600 => (30, 8)
  | uartBaud115200 => (9, 13)
  | uartBaud230400 => (9, 6)

/-- The value assigned to `uart_rx_idle`, in microseconds. -/
def rxIdle : UartBaudTypeDef → UInt32
  | uartBaud9600 => 1000000 / 96
  | uartBaud19200 => 1000000 / 192
  | uartBaud38400 => 1000000 / 384
  | uartBaud57600 => 1000000 / 576
  | uartBaud115200 => 1000000 / 1152
  | uartBaud230400 => 1000000 / 2304

/-- Ticks of one bit at this rate. -/
def bitTicks (baud : UartBaudTypeDef) : Nat :=
  (baud.clk16m.1.toNat + 1) * (baud.clk16m.2.toNat + 1)

@[simp] theorem ofCode?_code (baud : UartBaudTypeDef) : ofCode? baud.code = some baud := by
  cases baud <;> rfl

/-- No idle time comes near the range of the tick counter. -/
theorem rxIdle_le (baud : UartBaudTypeDef) : baud.rxIdle.toNat ≤ 10416 := by
  cases baud <;> decide

end UartBaudTypeDef

/-! ## Receive side -/

/-- `uart_rx_fifo` with the statics of the receive path. -/
structure Rx where
  uartRxFifo : MyFifo 22 64
  wptr : Nat
  wlen : Nat
  uartRxTick : UInt32
  uartRxIdle : UInt32

namespace Rx

/-- The bytes of `uart_rx_fifo_b`. -/
def cells (rx : Rx) : Nat → UInt8 := rx.uartRxFifo.p

/-- `((uart_rx_fifo.wptr - uart_rx_fifo.rptr) & 0xFF)`. -/
def backlog (rx : Rx) : Nat := rx.uartRxFifo.backlog

/-- `*wlen`. -/
def length (rx : Rx) : UInt8 := rx.cells rx.wlen

def setCells (rx : Rx) (p : Nat → UInt8) : Rx :=
  { rx with uartRxFifo := { rx.uartRxFifo with p := p } }

/-- `*wptr = byte; (*wlen)++`. -/
def storeByte (rx : Rx) (byte : UInt8) : Rx :=
  let stored := Cells.store rx.cells rx.wptr byte
  rx.setCells (Cells.store stored rx.wlen (stored rx.wlen + 1))

/-- The block that moves on to the next slot, the same in the interrupt and in the idle flush. -/
def nextSlot (rx : Rx) : Rx :=
  let counter := rx.uartRxFifo.wptr + 1
  let wlen := MyFifo.slot 22 64 counter
  { rx with
    uartRxFifo := { rx.uartRxFifo with wptr := counter, p := Cells.store rx.cells wlen 2 }
    wlen := wlen
    wptr := wlen + 2 }

/-- `uart_rx_tick = 0`, and the next slot if the FIFO is not full. -/
def closePacket (rx : Rx) : Rx :=
  let idle := { rx with uartRxTick := 0 }
  if rx.backlog < 64 then idle.nextSlot else idle

/-- The byte part of `ys_uart_irq_handler`. -/
def receiveByte (rx : Rx) (byte : UInt8) (now : Nat) : Rx :=
  let stored := rx.storeByte byte
  if stored.length < 22 then
    { stored with wptr := stored.wptr + 1, uartRxTick := clockTime now ||| 1 }
  else stored.closePacket

/-- The test of the idle flush; the clock is read only while a tick is pending. -/
def idleExpired (rx : Rx) (now : Nat) : Bool :=
  rx.uartRxTick ≠ 0 && clockTimeExceed now rx.uartRxTick rx.uartRxIdle

/-- What `ys_uart_process` does between `irq_disable` and `irq_restore`. -/
def idleFlush (rx : Rx) (now : Nat) : Rx :=
  if rx.idleExpired now then rx.closePacket else rx

/-- `my_fifo_pop(&uart_rx_fifo)`. -/
def pop (rx : Rx) : Rx := { rx with uartRxFifo := myFifoPop rx.uartRxFifo }

end Rx

/-! ## Transmit side -/

/-- `uart_tx_fifo` with the state of the driver. -/
structure Tx where
  uartTxFifo : MyFifo 24 8
  uart : Uart

namespace Tx

def cells (tx : Tx) : Nat → UInt8 := tx.uartTxFifo.p

/-- `((uart_tx_fifo.wptr - uart_tx_fifo.rptr) & 0xFF)`. -/
def backlog (tx : Tx) : Nat := tx.uartTxFifo.backlog

def pop (tx : Tx) : Tx := { tx with uartTxFifo := myFifoPop tx.uartTxFifo }

end Tx

/-- `ys_uart_send`; `data` is what the pointer argument points at. -/
def ysUartSend (tx : Tx) (data : List UInt8) (len : UInt8) : Tx × Int :=
  if ¬ tx.backlog < 8 then (tx, -1)
  else
    let len := if 24 - 4 < len then 24 - 4 else len
    let pd := MyFifo.slot 24 8 tx.uartTxFifo.wptr
    let header := Cells.copy tx.cells pd [len, 0, 0, 0]
    let p := Cells.copy header (pd + 4) (data.take len.toNat)
    ({ tx with uartTxFifo := { tx.uartTxFifo with wptr := tx.uartTxFifo.wptr + 1, p := p } }, 0)

/-! ## The module -/

/-- Where the main loop stands inside `ys_uart_process`, or `outside` of it. -/
inductive Pc where
  | outside
  | idleFlush
  | rxGet
  | recvCall (fp : Nat)
  | recvHandler (fp : Nat) (len : UInt8)
  | rxPop
  | txGet
  | txIsBusy (fp : Nat)
  | sendKmaLen (fp : Nat)
  | sendKmaBusy (fp : Nat)
  | raiseBusyFlag (fp : Nat)
  | armDelay (fp : Nat)
  | startTx (fp : Nat)
  /-- carries the return value of `uart_Send_kma`, which `ys_uart_process` ignores -/
  | txPop (ret : UInt8)
  deriving DecidableEq, Repr

structure State where
  rx : Rx
  tx : Tx
  pc : Pc

/-- The statics before `main`. -/
def powerOn : State where
  rx := ⟨.init, 0, 0, 0, 0⟩
  tx := ⟨.init, .powerOn⟩
  pc := .outside

def ysUartSetBaud (s : State) (baud : UInt8) : State :=
  match UartBaudTypeDef.ofCode? baud with
  | some baud =>
      { s with
        rx := { s.rx with uartRxIdle := baud.rxIdle }
        tx := { s.tx with uart := (uartInit s.tx.uart baud.clk16m.1 baud.clk16m.2).1 } }
  | none => s

/-- `wptr = uart_rx_fifo_b+2; wlen = uart_rx_fifo_b; *wlen = 2`. -/
def Rx.start (rx : Rx) : Rx :=
  { rx.setCells (Cells.store rx.cells 0 2) with wptr := 2, wlen := 0 }

def ysUartInit (s : State) (baud : UInt8) : State :=
  let configured := ysUartSetBaud { s with rx := s.rx.start } baud
  { configured with
    tx := { configured.tx with
      uart := uartSetTxDoneDelay configured.tx.uart (configured.rx.uartRxIdle <<< 1) } }

/-- `ys_uart_irq_handler`: a byte if one is pending, then the end of a DMA transmission. -/
def ysUartIrqHandler (s : State) (byte : Option UInt8) (txDone : Bool) (now : Nat) : State :=
  let rx := match byte with
    | some byte => s.rx.receiveByte byte now
    | none => s.rx
  let tx := if txDone then { s.tx with uart := uartClrTxBusyFlag s.tx.uart } else s.tx
  { s with rx := rx, tx := tx }

end Ser2Ble.YsUart
