import Jacdac.Queue.Fifo
import Jacdac.Tx.SendRun
import Jacdac.Pipe.Retransmit
import Jacdac.Pipe.Exchange
import Jacdac.Pipe.Delivery
import Jacdac.Event.Delivery
import Jacdac.Log.MountRun
import Jacdac.Log.Contents
import Jacdac.Log.Append
import Jacdac.Log.StoreRun
import Jacdac.Queue.Bytes
import Jacdac.Frame.Walk
import Jacdac.Queue.ByteFifo
import Jacdac.Base.Chain
import Jacdac.Rx.Receive
import Jacdac.Tx.Transmit
import Jacdac.Pipe.Table
import Jacdac.Pipe.TableInvariant
import Jacdac.Base.Loop
import Jacdac.Led.Pixels
import Jacdac.Pipe.TableRun
import Jacdac.Power.Limiter
import Jacdac.Client.Devices
import Jacdac.Led.Process
import Jacdac.Client.Roles
import Jacdac.Client.RoleInvariant
import Jacdac.Client.RoleRun
import Jacdac.Phys.Handlers
import Jacdac.Phys.Wakeup
import Jacdac.Usb.Push
import Jacdac.Dmesg.Ring
import Jacdac.Usb.Pull
import Jacdac.Usb.PullInvariant
import Jacdac.Usb.RoundTrip
import Jacdac.Dmesg.Delivery
import Jacdac.Dcfg.Blob
import Jacdac.Dcfg.Lookup
import Jacdac.Services.Registers
import Jacdac.Services.RegisterFrame
import Jacdac.Services.RegisterEffects
import Jacdac.Services.RegisterHeader
import Jacdac.Client.DeviceHeap
import Jacdac.Client.DeviceRefinement
import Jacdac.Client.DeviceOrder
import Jacdac.Client.AnnounceAccess
import Jacdac.Usb.HandleFrame
import Jacdac.Usb.PushSafety
import Jacdac.Services.Replies
import Jacdac.Services.ReplySizes
import Jacdac.Log.Order
import Jacdac.Fstor.Store
import Jacdac.Fstor.Scan
import Jacdac.Fstor.Mount
import Jacdac.Fstor.Append
import Jacdac.Fstor.Collect
import Jacdac.Fstor.Remount
import Jacdac.Base.Latest
import Jacdac.Fstor.Table
import Jacdac.Fstor.Map
import Jacdac.Fstor.PowerCut
import Jacdac.Fstor.PowerRun
import Jacdac.Client.RoleClass
import Jacdac.Fstor.Large
import Jacdac.Fstor.LargeTable
import Jacdac.Fstor.LargeState
import Jacdac.Fstor.LargeStep
import Jacdac.Fstor.LargeMap
import Jacdac.Fstor.LargeRun
import Jacdac.Fstor.Allocate
import Jacdac.Fstor.FirstFit
import Jacdac.Fstor.Discipline
import Jacdac.Fstor.LargePower
import Jacdac.Fstor.ReadFrame
import Jacdac.Services.SettingsService
import Jacdac.Queue.Clear
import Jacdac.Queue.StaleEnd
import Jacdac.Frame.Accesses
import Jacdac.Log.Header
import Jacdac.Numfmt.Format
import Jacdac.Numfmt.RoundTrip
import Jacdac.Services.RegisterRoundTrip
import Jacdac.Dcfg.Strings
import Jacdac.Led.Buffer
import Jacdac.Base.Rotate
import Jacdac.Led.Rotation
import Jacdac.Led.Intensity
import Jacdac.Event.Retransmission
import Jacdac.Event.RetransmissionRun
import Jacdac.Client.RoleListing
import Jacdac.Client.RoleListingRun
import Jacdac.Base.Periodic
import Jacdac.Time.Sample
import Jacdac.Power.Pulse
import Jacdac.Services.Servo
import Jacdac.Client.QueryHeap
import Jacdac.Client.QueryClear
import Jacdac.Client.QueryRun
import Jacdac.Client.Autobind
import Jacdac.Client.DeviceCollect
import Jacdac.Client.RoleCommand
import Jacdac.Usb.FrameGap
import Jacdac.Pipe.InputHeap
import Jacdac.Pipe.InputRun
import Jacdac.Base.Machine
import Jacdac.Services.Control
import Jacdac.Time.Milliseconds
import Jacdac.Services.Flood
import Jacdac.Services.Watchdog
import Jacdac.Base.Progress
import Jacdac.Light.Channel
import Jacdac.Light.Single
import Jacdac.Light.Animation
import Jacdac.Light.Blink
import Jacdac.Services.Mouse
import Jacdac.Services.MouseMotion
import Jacdac.Base.Interpolate
import Jacdac.Services.Humidity
import Jacdac.Services.Vibration
import Jacdac.Log.Panic
import Jacdac.Services.Braille
import Jacdac.Log.Pending
import Jacdac.Base.Ring
import Jacdac.Log.PanicFlush
import Jacdac.Log.PanicRun
import Jacdac.Log.Boundary
import Jacdac.Numfmt.Plain
import Jacdac.Text.Chars
import Jacdac.Text.Hex
import Jacdac.Text.Decimal
import Jacdac.Base.Crc
import Jacdac.Log.Polynomial
import Jacdac.Pipe.Cycle
import Jacdac.Pipe.CycleRun
import Jacdac.Text.Printf
import Jacdac.Text.PrintfText
import Jacdac.Text.PrintfRun
import Jacdac.Text.Truncation
import Jacdac.Client.Announce
import Jacdac.Client.AnnounceRun
import Jacdac.Client.AnnounceView
import Jacdac.Base.Lossy
import Jacdac.Link.InPlace
import Jacdac.Link.Wire
import Jacdac.Link.Carried
import Jacdac.Link.Checked
import Jacdac.Link.Delivery
import Jacdac.Link.DeliveryRun
import Jacdac.Services.Scheduler
import Jacdac.Services.SchedulerRun
import Jacdac.Services.Button
import Jacdac.Services.Sensor
import Jacdac.Services.SensorStream
import Jacdac.Base.Quadrature
import Jacdac.Services.Rotary
import Jacdac.Services.CapTouch
