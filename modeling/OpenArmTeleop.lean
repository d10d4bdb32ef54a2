import OpenArmTeleop.Lib.Run
import OpenArmTeleop.Lib.Trace
import OpenArmTeleop.Lib.Num
import OpenArmTeleop.Lib.Serial
import OpenArmTeleop.Lib.Window
import OpenArmTeleop.Lib.Clock
import OpenArmTeleop.Lib.Gaps
import OpenArmTeleop.Lib.Sampling
import OpenArmTeleop.Lib.Layout
import OpenArmTeleop.Lib.Crc
import OpenArmTeleop.Lib.CrcPoly
import OpenArmTeleop.Lib.Ratio
import OpenArmTeleop.Lib.Toward
import OpenArmTeleop.Lib.Rank
import OpenArmTeleop.Lib.Decimal
import OpenArmTeleop.Lib.Json
import OpenArmTeleop.Net.Packet
import OpenArmTeleop.Net.Codec
import OpenArmTeleop.Net.Wire
import OpenArmTeleop.Net.Checksum
import OpenArmTeleop.Core.TeleopBuffer
import OpenArmTeleop.Core.FeedbackBuffer
import OpenArmTeleop.Core.Window
import OpenArmTeleop.Core.Reorder
import OpenArmTeleop.Core.LossCount
import OpenArmTeleop.Core.LossPercent
import OpenArmTeleop.Core.Percentile
import OpenArmTeleop.Safety.Manager
import OpenArmTeleop.Safety.RateLimiter
import OpenArmTeleop.Safety.Converge
import OpenArmTeleop.Safety.Gate
import OpenArmTeleop.Safety.Delay
import OpenArmTeleop.Safety.Link
import OpenArmTeleop.Control.Joint
import OpenArmTeleop.Control.Engager
import OpenArmTeleop.Control.Alignment
import OpenArmTeleop.Control.Release
import OpenArmTeleop.Control.Server
import OpenArmTeleop.Control.Reply
import OpenArmTeleop.Control.GotoPose
import OpenArmTeleop.Control.PoseText
import OpenArmTeleop.Controller.Cycle
import OpenArmTeleop.Controller.Torque
import OpenArmTeleop.Controller.Friction
import OpenArmTeleop.Controller.Scale
import OpenArmTeleop.Controller.Checked
import OpenArmTeleop.Controller.Bilateral
import OpenArmTeleop.Follower.References
import OpenArmTeleop.Follower.Checked
import OpenArmTeleop.Follower.Machine
import OpenArmTeleop.Follower.Steps
import OpenArmTeleop.Follower.Drive
import OpenArmTeleop.Follower.Slew
import OpenArmTeleop.Follower.OneSource
import OpenArmTeleop.Follower.Estop
import OpenArmTeleop.Follower.Power
import OpenArmTeleop.Follower.Age
import OpenArmTeleop.Follower.Single
import OpenArmTeleop.Follower.Bounds
import OpenArmTeleop.Follower.Watchdog
import OpenArmTeleop.Leader.Machine
import OpenArmTeleop.Leader.Align
import OpenArmTeleop.Leader.Request
import OpenArmTeleop.Leader.Goto
import OpenArmTeleop.Leader.Bounds
import OpenArmTeleop.Control.Truncated
import OpenArmTeleop.Ik.Solver
import OpenArmTeleop.VrLeader.Machine
import OpenArmTeleop.VrLeader.Steps
import OpenArmTeleop.VrLeader.Enable
import OpenArmTeleop.VrLeader.Start
import OpenArmTeleop.VrLeader.Slew
import OpenArmTeleop.VrLeader.DeadMan
import OpenArmTeleop.VrLeader.Anchor
import OpenArmTeleop.VrLeader.Finite
import OpenArmTeleop.System.Network
import OpenArmTeleop.System.Machine
import OpenArmTeleop.System.Steps
import OpenArmTeleop.System.Authentic
import OpenArmTeleop.System.RoundTrip
import OpenArmTeleop.System.Formed
import OpenArmTeleop.System.Force
import OpenArmTeleop.System.FailSilent
import OpenArmTeleop.System.Numbered
import OpenArmTeleop.Local.Machine
import OpenArmTeleop.Local.Steps
import OpenArmTeleop.Local.Mirror
import OpenArmTeleop.Telemetry.Packet
import OpenArmTeleop.Telemetry.Machine
import OpenArmTeleop.Telemetry.Steps
import OpenArmTeleop.Telemetry.View
import OpenArmTeleop.Telemetry.InOrder
import OpenArmTeleop.Control.Swivel
import OpenArmTeleop.Net.Receiver
