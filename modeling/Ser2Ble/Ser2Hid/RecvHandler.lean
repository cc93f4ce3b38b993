import Ser2Ble.Library.Cells
import Ser2Ble.Ser2Hid.ReportMap

/-!
# Frames to reports: `ys_uart_recv_handler` of `vendor/826x_ser2hid/ser2hid.c`

A frame is a magic byte, a command, a length `n`, `n` payload bytes and one
trailing byte.  Memory is a function from addresses to bytes; the packet starts
at address 0 and nothing is assumed about what follows it.
-/

namespace Ser2Ble.Ser2Hid

open Library

/-! ## The model -/

/-- `UART_MAGIC_BYTE`. -/
def uartMagicByte : UInt8 := 0xA5

/-- The arguments of `bls_att_pushNotifyData`. -/
structure Notification where
  handle : AttHandle
  value : List UInt8
  deriving DecidableEq, Repr

/-! The send helpers of `ble_app.c`: what each pushes while the link is connected. -/

def bleSendKeyboard (data : Nat → UInt8) : Notification :=
  ⟨.hidKeyboardReportInputDpH, Cells.window data 0 8⟩

/-- The memory of a `u16` argument. -/
def u16Bytes (data : UInt16) : List UInt8 :=
  [data.toUInt8, (data >>> 8).toUInt8]

def bleSendConsumer (data : UInt16) : Notification :=
  ⟨.hidConsumerReportInputDpH, u16Bytes data⟩

def bleSendSystem (data : UInt16) : Notification :=
  ⟨.hidSystemReportInputDpH, u16Bytes data⟩

def bleSendNkro (data : Nat → UInt8) : Notification :=
  ⟨.hidNkroReportInputDpH, Cells.window data 0 15⟩

def bleSendMouse (data : Nat → UInt8) : Notification :=
  ⟨.hidMouseReportInputDpH, Cells.window data 0 4⟩

/-- `static const u8 hid_release[16] = {0}`; no helper reads past its end. -/
def hidRelease : Nat → UInt8 :=
  fun _ => 0

/-- `(((u16)data[4])<<8) | data[3]`. -/
def payloadWord (data : Nat → UInt8) : UInt16 :=
  (data 4).toUInt16 <<< 8 ||| (data 3).toUInt16

/-- A call of a send helper in the handler: with the packet, or with the release report. -/
structure SendCall where
  kind : ReportKind
  release : Bool
  deriving DecidableEq, Repr

def SendCall.notification (data : Nat → UInt8) : SendCall → Notification
  | ⟨.keyboard, false⟩ => bleSendKeyboard data
  | ⟨.mouse, false⟩ => bleSendMouse data
  | ⟨.system, false⟩ => bleSendSystem (payloadWord data)
  | ⟨.consumer, false⟩ => bleSendConsumer (payloadWord data)
  | ⟨.nkro, false⟩ => bleSendNkro data
  | ⟨.keyboard, true⟩ => bleSendKeyboard hidRelease
  | ⟨.mouse, true⟩ => bleSendMouse hidRelease
  | ⟨.nkro, true⟩ => bleSendNkro hidRelease
  | ⟨.consumer, true⟩ => bleSendConsumer 0
  | ⟨.system, true⟩ => bleSendSystem 0

/-- The command that releases every key. -/
def releaseAll : UInt8 := 0x7F

/-- The comparisons of `data[1]`: the helpers called, in order. -/
def sendCalls (command : UInt8) : List SendCall :=
  if command = 0x71 then [⟨.keyboard, false⟩]
  else if command = 0x72 then [⟨.mouse, false⟩]
  else if command = 0x73 then [⟨.system, false⟩]
  else if command = 0x74 then [⟨.consumer, false⟩]
  else if command = 0x76 then [⟨.nkro, false⟩]
  else if command = releaseAll then
    [⟨.keyboard, true⟩, ⟨.mouse, true⟩, ⟨.nkro, true⟩, ⟨.consumer, true⟩, ⟨.system, true⟩]
  else []

/-- The two tests before the first helper. -/
def accepts (data : Nat → UInt8) (len : UInt8) : Bool :=
  if len < 4 ∨ data 0 ≠ uartMagicByte then false
  else decide ((data 2).toNat = len.toNat - 4)

/-- What a call of the handler did. -/
structure Handled where
  notifications : List Notification
  /-- the arguments of `ys_uart_send` -/
  echo : Option (List UInt8 × UInt8)
  ret : Int

/-- `ys_uart_recv_handler`, on a link that stays connected or unconnected. -/
def ysUartRecvHandler (connected : Bool) (data : Nat → UInt8) (len : UInt8) : Handled :=
  if accepts data len then
    { notifications :=
        if connected then (sendCalls (data 1)).map (SendCall.notification data) else []
      echo := some (Cells.window data 0 len.toNat, len)
      ret := 0 }
  else ⟨[], none, 0⟩

/-! ## Frames -/

structure Frame (data : Nat → UInt8) (len : UInt8) : Prop where
  magic : data 0 = uartMagicByte
  length : (data 2).toNat + 4 = len.toNat

def payload (data : Nat → UInt8) : List UInt8 :=
  Cells.window data 3 (data 2).toNat

theorem accepts_iff (data : Nat → UInt8) (len : UInt8) : accepts data len = true ↔ Frame data len := by
  have four : len < 4 ↔ len.toNat < 4 := UInt8.lt_iff_toNat_lt
  unfold accepts
  split
  · next refused =>
      refine iff_of_false Bool.false_ne_true fun frame => ?_
      have length := frame.length
      rcases refused with short | other
      · rw [four] at short
        omega
      · exact other frame.magic
  · next begun =>
      rw [not_or, four, not_not] at begun
      rw [decide_eq_true_iff]
      constructor
      · intro length
        exact ⟨begun.2, by omega⟩
      · intro frame
        have length := frame.length
        omega

/-- The packet `other` has the same bytes; what follows it may differ. -/
def SamePacket (data other : Nat → UInt8) (len : UInt8) : Prop :=
  ∀ index < len.toNat, other index = data index

theorem SamePacket.frame {data other : Nat → UInt8} {len : UInt8} (same : SamePacket data other len)
    (frame : Frame data len) : Frame other len := by
  have length := frame.length
  refine ⟨?_, ?_⟩
  · rw [same 0 (by omega)]
    exact frame.magic
  · rw [same 2 (by omega)]
    exact length

theorem SamePacket.symm {data other : Nat → UInt8} {len : UInt8} (same : SamePacket data other len) :
    SamePacket other data len :=
  fun index bound => (same index bound).symm

/-! ## Forwarding -/

/-- The release report of a kind, as long as the report map declares. -/
def ReportKind.released (kind : ReportKind) : Notification :=
  ⟨kind.handle, List.replicate kind.declaredSize 0⟩

/-- While connected, the handler forwards exactly the payload of a frame. -/
structure ForwardsExactly (data : Nat → UInt8) (len : UInt8) : Prop where
  framed : ∀ sent ∈ (ysUartRecvHandler true data len).notifications, Frame data len
  forwarded : data 1 ≠ releaseAll → ∀ sent ∈ (ysUartRecvHandler true data len).notifications,
    ∃ kind : ReportKind, data 1 = kind.command ∧ (data 2).toNat = kind.declaredSize ∧
      sent = ⟨kind.handle, payload data⟩
  notified : Frame data len → ∀ kind : ReportKind, data 1 = kind.command →
    (data 2).toNat = kind.declaredSize →
    ⟨kind.handle, payload data⟩ ∈ (ysUartRecvHandler true data len).notifications
  released : Frame data len → data 1 = releaseAll →
    (∀ kind : ReportKind, kind.released ∈ (ysUartRecvHandler true data len).notifications) ∧
      ∀ sent ∈ (ysUartRecvHandler true data len).notifications,
        ∃ kind : ReportKind, sent = kind.released
  inside : ∀ other, SamePacket data other len →
    ysUartRecvHandler true other len = ysUartRecvHandler true data len

section Handler

variable {data : Nat → UInt8} {len : UInt8}

theorem handled_frame (frame : Frame data len) : ysUartRecvHandler true data len =
    ⟨(sendCalls (data 1)).map (SendCall.notification data),
      some (Cells.window data 0 len.toNat, len), 0⟩ := by
  rw [ysUartRecvHandler, if_pos ((accepts_iff data len).mpr frame), if_pos rfl]

theorem handled_other (unframed : ¬ Frame data len) :
    ysUartRecvHandler true data len = ⟨[], none, 0⟩ := by
  rw [ysUartRecvHandler, if_neg fun accepted => unframed ((accepts_iff data len).mp accepted)]

/-- A packet that is not a frame is dropped without a trace. -/
theorem forwards_unframed (unframed : ¬ Frame data len) : ForwardsExactly data len := by
  have handled := handled_other unframed
  refine ⟨?_, ?_, fun frame => absurd frame unframed, fun frame => absurd frame unframed, ?_⟩
  · rw [handled]
    exact fun sent member => nomatch member
  · rw [handled]
    exact fun _ sent member => nomatch member
  · intro other same
    rw [handled, handled_other fun frame => unframed (same.symm.frame frame)]

theorem echo_same {other : Nat → UInt8} (same : SamePacket data other len) :
    Cells.window other 0 len.toNat = Cells.window data 0 len.toNat :=
  Cells.window_congr fun index _ last => same index (by omega)

theorem sendCalls_command (kind : ReportKind) : sendCalls kind.command = [⟨kind, false⟩] := by
  cases kind <;> rfl

theorem command_ne_releaseAll (kind : ReportKind) : kind.command ≠ releaseAll := by
  cases kind <;> decide

theorem command_injective {first second : ReportKind} (same : first.command = second.command) :
    first = second := by
  cases first <;> cases second <;> first | rfl | cases same

theorem sendCalls_unknown {command : UInt8} (unknown : ∀ kind : ReportKind, command ≠ kind.command)
    (other : command ≠ releaseAll) : sendCalls command = [] := by
  unfold sendCalls
  rw [if_neg, if_neg, if_neg, if_neg, if_neg, if_neg other]
  · exact unknown .nkro
  · exact unknown .consumer
  · exact unknown .system
  · exact unknown .mouse
  · exact unknown .keyboard

/-- A frame of the right size holds every byte that its helper reads. -/
theorem notification_same (kind : ReportKind) {other : Nat → UInt8}
    (same : ∀ index < kind.declaredSize + 4, other index = data index) :
    SendCall.notification other ⟨kind, false⟩ = SendCall.notification data ⟨kind, false⟩ := by
  rw [kind.declaredSize_eq] at same
  have window (count : Nat) (within : ∀ index < count, other index = data index) :
      Cells.window other 0 count = Cells.window data 0 count :=
    Cells.window_congr fun index _ last => within index (by omega)
  cases kind <;> dsimp only at same
  case keyboard =>
      exact congrArg (Notification.mk _) (window 8 fun index bound => same index (by omega))
  case mouse =>
      exact congrArg (Notification.mk _) (window 4 fun index bound => same index (by omega))
  case nkro =>
      exact congrArg (Notification.mk _) (window 15 fun index bound => same index (by omega))
  case system =>
      change bleSendSystem (payloadWord other) = bleSendSystem (payloadWord data)
      rw [payloadWord, same 4 (by decide), same 3 (by decide)]
      rfl
  case consumer =>
      change bleSendConsumer (payloadWord other) = bleSendConsumer (payloadWord data)
      rw [payloadWord, same 4 (by decide), same 3 (by decide)]
      rfl

/-- A frame with an unknown command is echoed and nothing else. -/
theorem forwards_unknown (frame : Frame data len)
    (unknown : ∀ kind : ReportKind, data 1 ≠ kind.command) (other : data 1 ≠ releaseAll) :
    ForwardsExactly data len := by
  have length := frame.length
  have none := sendCalls_unknown unknown other
  have handled := handled_frame frame
  rw [none, List.map_nil] at handled
  refine ⟨fun _ _ => frame, ?_, fun _ kind command => absurd command (unknown kind),
    fun _ released => absurd released other, ?_⟩
  · rw [handled]
    exact fun _ sent member => nomatch member
  · intro packet same
    rw [handled, handled_frame (same.frame frame), same 1 (by omega), none, echo_same same]
    rfl

/-- A report frame is forwarded exactly when its size is right and its helper sends the payload. -/
theorem forwards_command_iff (frame : Frame data len) {kind : ReportKind}
    (command : data 1 = kind.command) :
    ForwardsExactly data len ↔ (data 2).toNat = kind.declaredSize ∧
      SendCall.notification data ⟨kind, false⟩ = ⟨kind.handle, payload data⟩ := by
  have length := frame.length
  have other : data 1 ≠ releaseAll := command ▸ command_ne_releaseAll kind
  have handled := handled_frame frame
  rw [command, sendCalls_command, List.map_singleton] at handled
  constructor
  · intro forwards
    have sent := forwards.forwarded other
    rw [handled, List.forall_mem_singleton] at sent
    obtain ⟨same, again, size, value⟩ := sent
    obtain rfl := command_injective (command.symm.trans again)
    exact ⟨size, value⟩
  · rintro ⟨size, value⟩
    refine ⟨fun _ _ => frame, fun _ => ?_, fun _ named again _ => ?_,
      fun _ released => absurd released other, ?_⟩
    · rw [handled, List.forall_mem_singleton]
      exact ⟨kind, command, size, value⟩
    · obtain rfl := command_injective (command.symm.trans again)
      rw [handled, value]
      exact List.mem_singleton_self _
    · intro packet same
      have sent := notification_same kind fun index bound => same index (by omega)
      rw [handled, handled_frame (same.frame frame), same 1 (by omega), command, sendCalls_command,
        List.map_singleton, sent, echo_same same]

/-- The release report of the NKRO keyboard is sent one byte short. -/
theorem release_not_forwarded (frame : Frame data len) (command : data 1 = releaseAll) :
    ¬ ForwardsExactly data len := by
  intro forwards
  have missing := (forwards.released frame command).1 .nkro
  rw [handled_frame frame, command, ReportKind.released, ReportKind.declaredSize_eq] at missing
  revert missing
  change ¬ _ ∈ (sendCalls releaseAll).map (SendCall.notification data)
  change ¬ _ ∈ [bleSendKeyboard hidRelease, bleSendMouse hidRelease, bleSendNkro hidRelease,
    bleSendConsumer 0, bleSendSystem 0]
  decide

end Handler

/-! ## The five commands -/

section Commands

variable {data : Nat → UInt8} {len : UInt8}

theorem payload_of_size {count : Nat} (size : (data 2).toNat = count) :
    payload data = Cells.window data 3 count := by
  rw [payload, size]

theorem payload_length (data : Nat → UInt8) : (payload data).length = (data 2).toNat :=
  Cells.window_length _ _ _

/-- The two bytes behind the header, low byte first, are what a 16-bit helper sends. -/
theorem u16Bytes_payloadWord (data : Nat → UInt8) :
    u16Bytes (payloadWord data) = [data 3, data 4] := by
  have low := (data 3).toNat_lt
  have high := (data 4).toNat_lt
  have word : (payloadWord data).toNat = (data 4).toNat * 2 ^ 8 + (data 3).toNat := by
    rw [payloadWord, UInt16.toNat_or, UInt16.toNat_shiftLeft, UInt8.toNat_toUInt16,
      UInt8.toNat_toUInt16]
    change ((data 4).toNat <<< 8) % 2 ^ 16 ||| (data 3).toNat = _
    rw [Nat.shiftLeft_eq, Nat.mod_eq_of_lt (by omega), ← Nat.shiftLeft_eq,
      Nat.shiftLeft_add_eq_or_of_lt (by omega)]
  rw [u16Bytes]
  congr 1
  · apply UInt8.toNat_inj.mp
    rw [UInt16.toNat_toUInt8, word]
    omega
  · congr 1
    apply UInt8.toNat_inj.mp
    have shifted : (payloadWord data >>> 8).toNat = (payloadWord data).toNat / 2 ^ 8 :=
      Nat.shiftRight_eq_div_pow _ 8
    rw [UInt16.toNat_toUInt8, shifted, word]
    omega

/-- Sent from its first byte on, a packet looks like its payload when the header repeats. -/
theorem window_start_iff (data : Nat → UInt8) (count : Nat) :
    Cells.window data 0 count = Cells.window data 3 count ↔
      Cells.window data 3 count = (List.range count).map fun index => data (index % 3) := by
  rw [Cells.window, Cells.window, List.map_inj_left, List.map_inj_left]
  simp only [List.mem_range, Nat.zero_add]
  constructor
  · intro shifted index
    induction index using Nat.strongRecOn with
    | ind index ih =>
        intro bound
        rw [← shifted index bound]
        by_cases header : index < 3
        · rw [Nat.mod_eq_of_lt header]
        · obtain ⟨earlier, rfl⟩ := Nat.exists_eq_add_of_le (Nat.le_of_not_lt header)
          rw [ih earlier (by omega) (by omega), Nat.add_mod_left]
  · intro repeats index bound
    rw [repeats index bound]
    by_cases header : index < 3
    · rw [Nat.mod_eq_of_lt header]
    · obtain ⟨earlier, rfl⟩ := Nat.exists_eq_add_of_le (Nat.le_of_not_lt header)
      rw [repeats earlier (by omega), Nat.add_mod_left]

/-- A helper that sends `count` bytes from the first one on sends the payload if it repeats. -/
theorem sent_start_iff {count : Nat} (handle : AttHandle) :
    (data 2).toNat = count ∧
        (⟨handle, Cells.window data 0 count⟩ : Notification) = ⟨handle, payload data⟩ ↔
      payload data = (List.range count).map fun index => data (index % 3) := by
  constructor
  · rintro ⟨size, sent⟩
    have value : Cells.window data 0 count = payload data := congrArg Notification.value sent
    rw [payload_of_size size] at value ⊢
    exact (window_start_iff data count).mp value
  · intro repeats
    have size : (data 2).toNat = count := by
      rw [← payload_length, repeats, List.length_map, List.length_range]
    rw [payload_of_size size] at repeats
    rw [payload_of_size size, (window_start_iff data count).mpr repeats]
    exact ⟨size, rfl⟩

theorem sent_word_iff (handle : AttHandle) :
    (data 2).toNat = 2 ∧
        (⟨handle, u16Bytes (payloadWord data)⟩ : Notification) = ⟨handle, payload data⟩ ↔
      data 2 = 2 := by
  rw [← UInt8.toNat_inj]
  refine and_iff_left_of_imp fun size => ?_
  rw [u16Bytes_payloadWord, payload_of_size size]
  rfl

/-- The length byte is part of the header that repeats. -/
theorem payload_eq_congr {count : Nat} {first second : List UInt8} (one : first.length = count)
    (two : second.length = count) (same : (data 2).toNat = count → first = second) :
    payload data = first ↔ payload data = second := by
  constructor
  · intro shown
    rw [shown]
    exact same (by rw [← payload_length, shown, one])
  · intro shown
    rw [shown]
    exact (same (by rw [← payload_length, shown, two])).symm

/-- The payload of a keyboard frame that its helper happens to send. -/
def keyboardEcho : List UInt8 := [0xA5, 0x71, 0x08, 0xA5, 0x71, 0x08, 0xA5, 0x71]

/-- The payload of a mouse frame that its helper happens to send. -/
def mouseEcho : List UInt8 := [0xA5, 0x72, 0x04, 0xA5]

theorem keyboard_iff (frame : Frame data len) (command : data 1 = ReportKind.keyboard.command) :
    ForwardsExactly data len ↔ payload data = keyboardEcho := by
  rw [forwards_command_iff frame command, ReportKind.declaredSize_eq]
  refine (sent_start_iff .hidKeyboardReportInputDpH).trans (payload_eq_congr rfl rfl fun size => ?_)
  change [data 0, data 1, data 2, data 0, data 1, data 2, data 0, data 1] = _
  have length : data 2 = 8 := UInt8.toNat_inj.mp size
  rw [frame.magic, command, length]
  rfl

theorem mouse_iff (frame : Frame data len) (command : data 1 = ReportKind.mouse.command) :
    ForwardsExactly data len ↔ payload data = mouseEcho := by
  rw [forwards_command_iff frame command, ReportKind.declaredSize_eq]
  refine (sent_start_iff .hidMouseReportInputDpH).trans (payload_eq_congr rfl rfl fun size => ?_)
  change [data 0, data 1, data 2, data 0] = _
  have length : data 2 = 4 := UInt8.toNat_inj.mp size
  rw [frame.magic, command, length]
  rfl

/-- The NKRO helper sends fifteen bytes of the sixteen that the report has. -/
theorem nkro_not_forwarded (frame : Frame data len) (command : data 1 = ReportKind.nkro.command) :
    ¬ ForwardsExactly data len := by
  rw [forwards_command_iff frame command, ReportKind.declaredSize_eq]
  rintro ⟨size, sent⟩
  have value : Cells.window data 0 15 = payload data := congrArg Notification.value sent
  have lengths := congrArg List.length value
  rw [Cells.window_length, payload_length, size] at lengths
  cases lengths

/-- The frames, and the packets that are none, for which the handler does what it should. -/
def Forwardable (data : Nat → UInt8) (len : UInt8) : Prop :=
  ¬ Frame data len ∨
    (∀ kind : ReportKind, data 1 ≠ kind.command) ∧ data 1 ≠ releaseAll ∨
    (data 1 = ReportKind.system.command ∨ data 1 = ReportKind.consumer.command) ∧ data 2 = 2 ∨
    data 1 = ReportKind.keyboard.command ∧ payload data = keyboardEcho ∨
    data 1 = ReportKind.mouse.command ∧ payload data = mouseEcho

/-- For one command, the condition on the frames with that command. -/
theorem forwardable_command_iff (frame : Frame data len) {kind : ReportKind}
    (command : data 1 = kind.command) : Forwardable data len ↔ match kind with
      | .keyboard => payload data = keyboardEcho
      | .mouse => payload data = mouseEcho
      | .system | .consumer => data 2 = 2
      | .nkro => False := by
  have known : ¬ ∀ kind : ReportKind, data 1 ≠ kind.command := fun unknown => unknown kind command
  have same (other : ReportKind) : data 1 = other.command ↔ other = kind := by
    rw [command]
    exact ⟨fun equal => (command_injective equal).symm, fun equal => by rw [equal]⟩
  simp only [Forwardable, frame, known, same, not_true_eq_false, false_and, false_or]
  cases kind <;> simp only [reduceCtorEq, true_and, false_and, or_true, or_false, false_or]

/-- The handler forwards exactly the payload of a packet if and only if it is one of these. -/
theorem forwards_exactly_iff (data : Nat → UInt8) (len : UInt8) :
    ForwardsExactly data len ↔ Forwardable data len := by
  by_cases frame : Frame data len
  · by_cases known : ∃ kind : ReportKind, data 1 = kind.command
    · obtain ⟨kind, command⟩ := known
      rw [forwardable_command_iff frame command]
      cases kind with
      | keyboard => exact keyboard_iff frame command
      | mouse => exact mouse_iff frame command
      | system =>
          rw [forwards_command_iff frame command, ReportKind.declaredSize_eq]
          exact sent_word_iff _
      | consumer =>
          rw [forwards_command_iff frame command, ReportKind.declaredSize_eq]
          exact sent_word_iff _
      | nkro => exact iff_of_false (nkro_not_forwarded frame command) not_false
    · rw [not_exists] at known
      have others : ¬ ((data 1 = ReportKind.system.command ∨
          data 1 = ReportKind.consumer.command) ∧ data 2 = 2 ∨
          data 1 = ReportKind.keyboard.command ∧ payload data = keyboardEcho ∨
          data 1 = ReportKind.mouse.command ∧ payload data = mouseEcho) := by
        rintro (⟨named | named, _⟩ | ⟨named, _⟩ | ⟨named, _⟩) <;> exact known _ named
      rw [Forwardable, or_iff_right (not_not_intro frame), or_iff_left others]
      by_cases release : data 1 = releaseAll
      · exact iff_of_false (release_not_forwarded frame release) fun none => none.2 release
      · exact iff_of_true (forwards_unknown frame known release) ⟨known, release⟩
  · exact iff_of_true (forwards_unframed frame) (Or.inl frame)

/-- A keyboard frame with key code 4 held down, in a packet of twelve bytes. -/
def keyFrame : Nat → UInt8 :=
  fun index => [0xA5, 0x71, 0x08, 0, 0, 0x04, 0, 0, 0, 0, 0, 0].getD index 0

/-- The report sent starts with the header of the frame instead of the payload. -/
theorem keyboard_frame_misread :
    Frame keyFrame 12 ∧ payload keyFrame = [0, 0, 0x04, 0, 0, 0, 0, 0] ∧
      (ysUartRecvHandler true keyFrame 12).notifications =
        [⟨.hidKeyboardReportInputDpH, [0xA5, 0x71, 0x08, 0, 0, 0x04, 0, 0]⟩] ∧
      ¬ ForwardsExactly keyFrame 12 := by
  have frame : Frame keyFrame 12 := ⟨rfl, rfl⟩
  refine ⟨frame, by decide, by decide, ?_⟩
  rw [keyboard_iff frame rfl]
  decide

end Commands

end Ser2Ble.Ser2Hid
