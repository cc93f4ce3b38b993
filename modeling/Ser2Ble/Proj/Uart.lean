import Ser2Ble.Library.Cells
import Ser2Ble.Proj.Clock

/-!
# The UART driver of `proj/drivers/uart.c`

Only what `ys_uart.c` uses is here: the divider registers, the transmit-busy
flag with its timeout (`UART_CONTINUE_DELAY_EN` is 1 on the 8266) and the start
of a DMA transmission.  The interrupt-enable bits are written with the same
constants on every path and read by nothing, so they are left out.
-/

namespace Ser2Ble.Proj

open Library

/-- The statics of `uart.c` and the registers that its functions write. -/
structure Uart where
  uartTxBusyFlag : Bool
  uartContinueDelayTime : UInt32
  uartTxDoneDelayUs : UInt32
  /-- field `FLD_UART_CLK_DIV` (bits 0 to 14) of `reg_uart_clk_div` -/
  regUartClkDiv : UInt16
  /-- field `FLD_UART_BWPC` (bits 0 to 3) of `reg_uart_ctrl0` -/
  regUartBwpc : UInt8
  /-- offset into the transmit buffer of the last packet given to the DMA -/
  regDma1Addr : Nat

namespace Uart

/-- The statics before `main`; the registers are still unprogrammed. -/
def powerOn : Uart := ⟨false, 0, 900, 0, 0, 0⟩

/-- Ticks of one bit on the wire, `(uartCLKdiv + 1) * (bwpc + 1)`. -/
def bitTicks (uart : Uart) : Nat :=
  (uart.regUartClkDiv.toNat + 1) * (uart.regUartBwpc.toNat + 1)

end Uart

/-- `uart_Init`; parity and stop bits are the same constants in every `CLK16M_UARTxxx` macro. -/
def uartInit (uart : Uart) (uartCLKdiv : UInt16) (bwpc : UInt8) : Uart × UInt8 :=
  if bwpc < 3 then (uart, 0)
  else ({ uart with regUartClkDiv := uartCLKdiv &&& 0x7FFF, regUartBwpc := bwpc &&& 0xF }, 1)

def uartClrTxBusyFlag (uart : Uart) : Uart :=
  { uart with uartContinueDelayTime := 0, uartTxBusyFlag := false }

def uartSetTxDoneDelay (uart : Uart) (t : UInt32) : Uart :=
  { uart with uartTxDoneDelayUs := t }

/-- The test of `uart_tx_is_busy`; the clock is read only while the delay time is armed. -/
def uartTxTimeout (uart : Uart) (now : Nat) : Bool :=
  uart.uartContinueDelayTime ≠ 0 &&
    clockTimeExceed now uart.uartContinueDelayTime uart.uartTxDoneDelayUs

/-- `uart_tx_is_busy`: the answer and the state after the timeout had its effect. -/
def uartTxIsBusy (uart : Uart) (now : Nat) : Bool × Uart :=
  if uartTxTimeout uart now then
    (false, { uart with uartContinueDelayTime := 0, uartTxBusyFlag := false })
  else (uart.uartTxBusyFlag, uart)

/-! The two statements of `uart_set_tx_busy_flag`, which an interrupt may separate. -/

def uartRaiseTxBusyFlag (uart : Uart) : Uart :=
  { uart with uartTxBusyFlag := true }

def uartArmContinueDelay (uart : Uart) (now : Nat) : Uart :=
  { uart with uartContinueDelayTime := clockTime now ||| 1 }

/-- `*((unsigned long *)addr)` on a 32-bit little-endian core. -/
def loadU32 (p : Nat → UInt8) (addr : Nat) : Nat :=
  (p addr).toNat + 2 ^ 8 * (p (addr + 1)).toNat + 2 ^ 16 * (p (addr + 2)).toNat +
    2 ^ 24 * (p (addr + 3)).toNat

/-- `reg_dma1_addr = addr; STARTTX`. -/
def startTx (uart : Uart) (addr : Nat) : Uart :=
  { uart with regDma1Addr := addr }

/-- `uart_Send_kma` without an interrupt between its statements. -/
def uartSendKma (uart : Uart) (p : Nat → UInt8) (addr : Nat) (now : Nat) : UInt8 × Uart :=
  if 252 < loadU32 p addr then (0, uart)
  else
    match uartTxIsBusy uart now with
    | (true, uart) => (0, uart)
    | (false, uart) => (1, startTx (uartArmContinueDelay (uartRaiseTxBusyFlag uart) now) addr)

/-! ## The busy test -/

/-- After a negative answer the flag is down. -/
theorem uartTxIsBusy_free {uart : Uart} {now : Nat} (free : (uartTxIsBusy uart now).1 = false) :
    (uartTxIsBusy uart now).2.uartTxBusyFlag = false := by
  unfold uartTxIsBusy at free ⊢
  split at free
  · next expired => rw [if_pos expired]
  · next armed =>
      rw [if_neg armed]
      exact free

/-- With the flag down the test answers no, whatever the timeout does. -/
theorem uartTxIsBusy_of_clear {uart : Uart} (now : Nat) (clear : uart.uartTxBusyFlag = false) :
    (uartTxIsBusy uart now).1 = false := by
  unfold uartTxIsBusy
  split
  · rfl
  · exact clear

/-- The busy test touches the flag and the armed delay only. -/
theorem uartTxIsBusy_frame (uart : Uart) (now : Nat) :
    (uartTxIsBusy uart now).2.uartTxDoneDelayUs = uart.uartTxDoneDelayUs ∧
      (uartTxIsBusy uart now).2.regUartClkDiv = uart.regUartClkDiv ∧
      (uartTxIsBusy uart now).2.regUartBwpc = uart.regUartBwpc ∧
      (uartTxIsBusy uart now).2.regDma1Addr = uart.regDma1Addr := by
  unfold uartTxIsBusy
  split <;> exact ⟨rfl, rfl, rfl, rfl⟩

end Ser2Ble.Proj
