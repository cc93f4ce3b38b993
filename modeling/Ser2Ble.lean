import Ser2Ble.YsRom.DeviceConfig
import Ser2Ble.Library.Packets
import Ser2Ble.Proj.Fifo
import Ser2Ble.YsUart.IdleGap
import Ser2Ble.YsUart.ReceiveSafety
import Ser2Ble.YsUart.TransmitSlot
import Ser2Ble.YsUart.TransmitTiming
import Ser2Ble.YsUart.ReceiveProgress
import Ser2Ble.YsUart.TransmitProgress
import Ser2Ble.YsUart.Bursts
import Ser2Ble.YsUart.Overrun
import Ser2Ble.Library.Debounce
import Ser2Ble.YsSwitch.Scan
import Ser2Ble.YsRom.RoundTrip
import Ser2Ble.YsRom.InMemory
import Ser2Ble.BleDrv.DeviceAddress
import Ser2Ble.BleDrv.DeviceLed
import Ser2Ble.App.Advertising
import Ser2Ble.Ser2Hid.RecvHandler
import Ser2Ble.Library.HoldTimer
import Ser2Ble.App.MainLoop
import Ser2Ble.App.BaudAgreement
import Ser2Ble.App.PowerCycles
import Ser2Ble.App.AdvertisedName
import Ser2Ble.App.FlashChip
import Ser2Ble.App.BridgeDelivery
import Ser2Ble.App.BridgeOutput
import Ser2Ble.App.Panel
import Ser2Ble.App.ButtonHolds
import Ser2Ble.Ser2Hid.MainLoop
import Ser2Ble.Ser2Hid.ButtonHolds
import Ser2Ble.Library.Passes
import Ser2Ble.Ser2Hid.Passes
import Ser2Ble.Ser2Hid.ReportDelivery
import Ser2Ble.Ser2Hid.Echo
import Ser2Ble.Ser2Hid.EchoRoom
import Ser2Ble.Ser2Hid.HostFrames
import Ser2Ble.Ser2Hid.LockLeds
