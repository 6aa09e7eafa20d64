import WheeltecRos2.Lib.Collector
import WheeltecRos2.Lib.Intervals
import WheeltecRos2.Lib.Runs
import WheeltecRos2.Lib.Truncate
import WheeltecRos2.Lib.Hoare
import WheeltecRos2.Lib.ReqRep
import WheeltecRos2.Lib.Stretch
import WheeltecRos2.Lib.Polyline
import WheeltecRos2.Lib.Trim
import WheeltecRos2.Lib.Components
import WheeltecRos2.Chassis.Frame
import WheeltecRos2.Chassis.Decoder
import WheeltecRos2.Chassis.Soundness
import WheeltecRos2.Chassis.MixedStream
import WheeltecRos2.Chassis.Resync
import WheeltecRos2.Chassis.Odometry
import WheeltecRos2.Chassis.Timeouts
import WheeltecRos2.Chassis.Velocity
import WheeltecRos2.Chassis.SendData
import WheeltecRos2.Chassis.ChargeService
import WheeltecRos2.Chassis.Attitude
import WheeltecRos2.Bridge.Python
import WheeltecRos2.Bridge.Patrol
import WheeltecRos2.Bridge.Commands
import WheeltecRos2.Bridge.Mission
import WheeltecRos2.Bridge.MissionOrder
import WheeltecRos2.Bridge.PatrolStates
import WheeltecRos2.Bridge.PatrolTelemetry
import WheeltecRos2.Bridge.MissionTime
import WheeltecRos2.Bridge.Threads
import WheeltecRos2.Bridge.StopFinal
import WheeltecRos2.Bridge.StartAtomic
import WheeltecRos2.Bridge.Processes
import WheeltecRos2.Bridge.NavigationMode
import WheeltecRos2.Bridge.ShellText
import WheeltecRos2.Bridge.Shell
import WheeltecRos2.Bridge.MapNames
import WheeltecRos2.Bridge.LogStamps
import WheeltecRos2.Bridge.Logs
import WheeltecRos2.Bridge.Replies
import WheeltecRos2.Bridge.CmdLoop
import WheeltecRos2.Recharge.AutoRecharger
import WheeltecRos2.Recharge.StopCharge
import WheeltecRos2.Recharge.BatteryFilters
import WheeltecRos2.Recharge.ChargerMarker
import WheeltecRos2.Coverage.Planner
import WheeltecRos2.Coverage.Segments
import WheeltecRos2.Coverage.Sweep
import WheeltecRos2.Coverage.Clearance
import WheeltecRos2.Coverage.Validator
import WheeltecRos2.Coverage.Spiral
import WheeltecRos2.Coverage.Navigable
import WheeltecRos2.Coverage.Corners
import WheeltecRos2.Coverage.Route
import WheeltecRos2.Coverage.Direction
import WheeltecRos2.Keyboard.Teleop
import WheeltecRos2.Lidar.Accumulator
import WheeltecRos2.Lidar.FixedScan
import WheeltecRos2.Lidar.Serial
import WheeltecRos2.Lidar.Polling
import WheeltecRos2.Lidar.SingleChannel
import WheeltecRos2.Lidar.LdPacket
import WheeltecRos2.Lidar.LdScan
import WheeltecRos2.Waypoint.Cycle
import WheeltecRos2.Waypoint.Retry
import WheeltecRos2.Waypoint.Progress
import WheeltecRos2.Waypoint.Redelivery
import WheeltecRos2.Waypoint.Markers
import WheeltecRos2.Lifecycle.Manager
import WheeltecRos2.Lifecycle.Recovery
import WheeltecRos2.Action.SimpleActionServer
import WheeltecRos2.BehaviorTree.Control
import WheeltecRos2.Amcl.Kdtree
import WheeltecRos2.Costmap.Window
import WheeltecRos2.Costmap.Raytrace
import WheeltecRos2.Costmap.Polygon
import WheeltecRos2.Costmap.Hull
