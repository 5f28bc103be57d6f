import TcpUv.Lib.Text
import TcpUv.Lib.Lines
import TcpUv.Lib.SortedMap
import TcpUv.Lib.System
import TcpUv.Lib.Monitor
import TcpUv.Lib.Loop
import TcpUv.Lib.Network
import TcpUv.Lib.Talkers
import TcpUv.CppStd
import TcpUv.Message
import TcpUv.World
import TcpUv.RemoteAddr
import TcpUv.NetClient
import TcpUv.NetHandler
import TcpUv.Endpoint
import TcpUv.App
import TcpUv.Node
import TcpUv.Script
import TcpUv.Main
import TcpUv.Programs
import TcpUv.Proof.Connect
import TcpUv.Proof.Rules
import TcpUv.Proof.Conn
import TcpUv.Proof.Framing
import TcpUv.Proof.NodeRules
import TcpUv.Proof.Wire
import TcpUv.Proof.NodeTables
import TcpUv.Proof.NodeWire
import TcpUv.Proof.Solo
import TcpUv.Proof.Closing
import TcpUv.Proof.Assertions
import TcpUv.Proof.Elsewhere
import TcpUv.Proof.Kept
import TcpUv.Proof.Spurious
import TcpUv.Proof.Attempts
import TcpUv.Proof.Gossip
import TcpUv.Proof.Lifecycle
import TcpUv.Proof.NodeHandlers
import TcpUv.Proof.Local
import TcpUv.Proof.ClientRules
import TcpUv.Proof.PingBudget
import TcpUv.Proof.LockStep
import TcpUv.Proof.ServerRules
import TcpUv.Proof.ServerStore
import TcpUv.Proof.ServerReplies
import TcpUv.Proof.Calm
import TcpUv.Proof.Ownership
import TcpUv.Proof.Receivers
import TcpUv.Proof.Interop
import TcpUv.Proof.Grammar
import TcpUv.Proof.Addresses
import TcpUv.Proof.Candidates
import TcpUv.Proof.Pass
import TcpUv.Proof.Budgets
import TcpUv.Proof.Ports
import TcpUv.Proof.CloseOnce
import TcpUv.Proof.Results
import TcpUv.Proof.TwoRuns
import TcpUv.Proof.Reconnect
import TcpUv.Proof.Terminator
import TcpUv.Proof.ConnRules
import TcpUv.Proof.EveryConn
import TcpUv.Proof.NodeGuards
import TcpUv.Proof.Arrivals
import TcpUv.Proof.Hearsay
import TcpUv.Proof.Conduct
import TcpUv.Proof.Promises
import TcpUv.Proof.Networks
import TcpUv.Proof.Provenance
import TcpUv.Proof.Answers
import TcpUv.Proof.Apart
import TcpUv.Proof.CommandLine
import TcpUv.Proof.Rest
import TcpUv.Proof.Pings
import TcpUv.Proof.Spread
import TcpUv.Proof.Dials
import TcpUv.Proof.Progress
import TcpUv.Proof.Refinement
