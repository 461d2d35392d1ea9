import Tepegoz.Lib.Transition
import Tepegoz.Lib.Broadcast
import Tepegoz.Lib.Framing
import Tepegoz.Lib.IdSupply
import Tepegoz.Lib.FileStore
import Tepegoz.Lib.Runs
import Tepegoz.Lib.Selection
import Tepegoz.Lib.Lines
import Tepegoz.Lib.Text
import Tepegoz.Lib.EdgeTrigger
import Tepegoz.Proto
import Tepegoz.Scrollback
import Tepegoz.PaneCore
import Tepegoz.PaneHandoff
import Tepegoz.LocalPane
import Tepegoz.PaneExit
import Tepegoz.RemotePane
import Tepegoz.RemoteExit
import Tepegoz.PaneLag
import Tepegoz.SessionLoop
import Tepegoz.Codec
import Tepegoz.AgentConnection
import Tepegoz.World
import Tepegoz.HandleCommand
import Tepegoz.Daemon
import Tepegoz.VersionGate
import Tepegoz.RoutingSteps
import Tepegoz.PoolSteps
import Tepegoz.PoolOwnership
import Tepegoz.RoutingIds
import Tepegoz.RoutingIsolation
import Tepegoz.RoutedRequests
import Tepegoz.Producers
import Tepegoz.OneProducer
import Tepegoz.Deliveries
import Tepegoz.IdTranslation
import Tepegoz.RoutedCalls
import Tepegoz.HeldForwarders
import Tepegoz.ActionAnswers
import Tepegoz.StreamEnds
import Tepegoz.RemoteSubscriptions
import Tepegoz.AgentTunnel
import Tepegoz.AgentActions
import Tepegoz.Solicited
import Tepegoz.Availability
import Tepegoz.HostSupervisor
import Tepegoz.HostProtocol
import Tepegoz.ForwardFleet
import Tepegoz.FleetActions
import Tepegoz.KnownHosts
import Tepegoz.ForgetHost
import Tepegoz.DeployAgent
import Tepegoz.DeployRecovery
import Tepegoz.SocketPath
import Tepegoz.SshConfig
import Tepegoz.CgroupPath
import Tepegoz.Tui.App
import Tepegoz.Tui.Frames
import Tepegoz.Tui.PaneStack
import Tepegoz.Tui.Panels
import Tepegoz.Tui.Moves
import Tepegoz.Tui.SubIds
import Tepegoz.Tui.Script
import Tepegoz.Tui.Dialogue
import Tepegoz.Tui.Startup
import Tepegoz.Tui.TuiSession
import Tepegoz.Tui.ScopeSession
import Tepegoz.Tui.HostNews
import Tepegoz.Lib.Stretch
import Tepegoz.PaneManagers
import Tepegoz.PanesAnswered
import Tepegoz.Tui.PaneIsolation
import Tepegoz.Tui.Screen
import Tepegoz.Tui.Selection
import Tepegoz.Tui.PtyGeometry
import Tepegoz.Tui.DrawnRows
import Tepegoz.Tui.LayoutPartition
import Tepegoz.Tui.TabStrip
import Tepegoz.Tui.LogLines
import Tepegoz.Tui.LogScroll
import Tepegoz.Tui.ConfirmPrompt
import Tepegoz.Tui.ConfirmHistory
import Tepegoz.Tui.OpenReplies
import Tepegoz.Tui.FilterBytes
import Tepegoz.Tui.PassThrough
import Tepegoz.Tui.ScopeKeys
import Tepegoz.Tui.Mouse
import Tepegoz.Tui.StdinOrder
import Tepegoz.Tui.FleetFrames
import Tepegoz.Tui.FleetTile
import Tepegoz.Tui.StatusBar
import Tepegoz.Lib.Shell
import Tepegoz.DeployCommands
import Tepegoz.Tui.ReaderTask
import Tepegoz.Tui.Runtime
