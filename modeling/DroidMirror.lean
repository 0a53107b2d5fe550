import DroidMirror.Client.EndToEnd
import DroidMirror.Server.EndToEnd
import DroidMirror.Native.Recording
import DroidMirror.Transport.WritePacket
import DroidMirror.Transport.Delivery
import DroidMirror.Proto.AnnexB
import DroidMirror.Server.Capture
import DroidMirror.Server.Config
import DroidMirror.Server.Session
import DroidMirror.Server.Reconfigure
import DroidMirror.Transport.Ended
import DroidMirror.Transport.Waiters
import DroidMirror.Transport.Acks
import DroidMirror.Transport.Bookkeeping
import DroidMirror.Native.Dump
import DroidMirror.Native.App
import DroidMirror.Native.ViewOnly
import DroidMirror.Native.Keys
import DroidMirror.Native.Gestures
import DroidMirror.Native.Indicator
import DroidMirror.Proto.Avcc
import DroidMirror.Transport.Codec
import DroidMirror.Native.Nals
import DroidMirror.Native.Scan
import DroidMirror.Native.Decode
import DroidMirror.Native.Pipeline
import DroidMirror.Lib.Neighbours
import DroidMirror.Native.Mp4
import DroidMirror.Native.Timing
import DroidMirror.Lib.Chunks
import DroidMirror.Lib.Effects
import DroidMirror.Transport.Push
import DroidMirror.Transport.SyncService
import DroidMirror.Lib.Codes
import DroidMirror.Server.Inject
import DroidMirror.Server.Text
import DroidMirror.Transport.Writes
import DroidMirror.Lib.Latch
import DroidMirror.Server.Keys
import DroidMirror.Server.Touch
import DroidMirror.Server.Pointers
import DroidMirror.Server.SdkInject
import DroidMirror.Server.UInput
import DroidMirror.Native.Render
import DroidMirror.Client.View
import DroidMirror.Server.Buffering
import DroidMirror.Lib.Checked
import DroidMirror.Proto.Checked
import DroidMirror.Proto.Limits
import DroidMirror.Transport.Usb
import DroidMirror.Lib.Newton
import DroidMirror.Transport.Auth
import DroidMirror.Lib.Calendar
import DroidMirror.Lib.Decimal
import DroidMirror.Native.Stamp
import DroidMirror.Server.FitSize
import DroidMirror.Server.Args
import DroidMirror.Native.Launch
import DroidMirror.Transport.Reply
import DroidMirror.Server.HangUp
import DroidMirror.Server.Stream
import DroidMirror.Native.Gif
import DroidMirror.Native.Toolbar
import DroidMirror.Lib.Hex
import DroidMirror.Lib.Trim
import DroidMirror.Transport.Devices
import DroidMirror.Transport.SmartSocket
import DroidMirror.Transport.Conversation
import DroidMirror.Transport.AdbServer
import DroidMirror.Transport.StreamIds
import DroidMirror.Transport.Connect
import DroidMirror.Transport.KeyFile
import DroidMirror.Mirror
import DroidMirror.Server.Power
import DroidMirror.Transport.UsbWrites
import DroidMirror.Native.Shrink
