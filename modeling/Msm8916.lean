import Msm8916.Agps.Address
import Msm8916.Agps.Attempts
import Msm8916.Agps.Balance
import Msm8916.Agps.Fallback
import Msm8916.Agps.Lifetime
import Msm8916.Agps.Notify
import Msm8916.Camera.Bounds
import Msm8916.Camera.DeviceCallbacks
import Msm8916.Camera.RemoteDevice
import Msm8916.Camera.Sizes
import Msm8916.Camera.Slots
import Msm8916.Camera.VendorTagParcel
import Msm8916.Config.Blank
import Msm8916.Config.WholeLines
import Msm8916.Core.Adapters
import Msm8916.Core.DecodeAddress
import Msm8916.Daemon.Framing
import Msm8916.Daemon.Received
import Msm8916.Daemon.Retry
import Msm8916.Daemon.Shutdown
import Msm8916.Doze.Pulse
import Msm8916.Engine.Aiding
import Msm8916.Engine.Certificates
import Msm8916.Engine.Configuration
import Msm8916.Engine.Replay
import Msm8916.Engine.Replies
import Msm8916.Engine.Restart
import Msm8916.Engine.SingleShot
import Msm8916.Engine.UlpProxy
import Msm8916.Heap.Balance
import Msm8916.Heap.Refinement
import Msm8916.Keys.Gestures
import Msm8916.Lights.Blink
import Msm8916.MsgQ.Destroy
import Msm8916.MsgQ.Fifo
import Msm8916.MsgQ.Refinement
import Msm8916.Ni.Disposal
import Msm8916.Ni.LiveId
import Msm8916.Ni.Suppression
import Msm8916.Nmea.Minutes
import Msm8916.Nmea.Partition
import Msm8916.Recovery.Correctness
import Msm8916.Recovery.Safety
import Msm8916.Recovery.Version
import Msm8916.Thread.Promise
import Msm8916.Timer.Deadline
import Msm8916.Timer.Disarm
import Msm8916.Timer.Soonest
import Msm8916.Timer.StopRace
import Msm8916.UserAgent.Encode
import Msm8916.UserAgent.Serial
import Msm8916.Utils.Split
import Msm8916.Wcnss.Client
