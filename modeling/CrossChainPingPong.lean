import CrossChainPingPong.Library.Guard
import CrossChainPingPong.Library.Machine
import CrossChainPingPong.Library.Attempt
import CrossChainPingPong.Library.Trace
import CrossChainPingPong.Library.Past
import CrossChainPingPong.Library.Play
import CrossChainPingPong.Library.Potential
import CrossChainPingPong.Library.Codec
import CrossChainPingPong.Library.Reentry
import CrossChainPingPong.Library.Logged
import CrossChainPingPong.Library.Record
import CrossChainPingPong.Library.Cursor
import CrossChainPingPong.Library.Composed
import CrossChainPingPong.Library.Client
import CrossChainPingPong.Library.Borsh
import CrossChainPingPong.Library.Failure
import CrossChainPingPong.Library.Transfer
import CrossChainPingPong.Wire
import CrossChainPingPong.Evm.Contract
import CrossChainPingPong.Decoder
import CrossChainPingPong.Evm.Outcome
import CrossChainPingPong.Evm.Invariant
import CrossChainPingPong.Evm.PoisonBall
import CrossChainPingPong.Evm.Delivery
import CrossChainPingPong.Evm.Causes
import CrossChainPingPong.Evm.Pause
import CrossChainPingPong.Evm.Funds
import CrossChainPingPong.Evm.Reentry
import CrossChainPingPong.Evm.Replay
import CrossChainPingPong.Evm.Serial
import CrossChainPingPong.Evm.Events
import CrossChainPingPong.Evm.Journal
import CrossChainPingPong.Evm.Scoreboard
import CrossChainPingPong.Evm.Announced
import CrossChainPingPong.Evm.Funding
import CrossChainPingPong.Evm.Routing
import CrossChainPingPong.Evm.Quote
import CrossChainPingPong.Evm.Reverts
import CrossChainPingPong.Evm.Budget
import CrossChainPingPong.Evm.ServeScript
import CrossChainPingPong.Svm.Program
import CrossChainPingPong.Svm.Outcome
import CrossChainPingPong.Svm.HeldBall
import CrossChainPingPong.Svm.Invariant
import CrossChainPingPong.Svm.Pause
import CrossChainPingPong.Svm.Overwrite
import CrossChainPingPong.Svm.Peers
import CrossChainPingPong.Svm.ReceiveTypes
import CrossChainPingPong.Svm.Accounts
import CrossChainPingPong.Svm.Stored
import CrossChainPingPong.Svm.Quote
import CrossChainPingPong.Svm.Errors
import CrossChainPingPong.Svm.SendScript
import CrossChainPingPong.Svm.Lamports
import CrossChainPingPong.Svm.Reopening
import CrossChainPingPong.Relayer.Poll
import CrossChainPingPong.Relayer.Report
import CrossChainPingPong.Table.Rules
import CrossChainPingPong.Table.Conservation
import CrossChainPingPong.Table.Bound
import CrossChainPingPong.Table.Hops
import CrossChainPingPong.Table.Stamps
import CrossChainPingPong.Table.Rally
import CrossChainPingPong.Table.Ending
import CrossChainPingPong.Table.Standstill
import CrossChainPingPong.Table.Longest
import CrossChainPingPong.Rally.Rules
import CrossChainPingPong.Rally.Counting
import CrossChainPingPong.Rally.Play
import CrossChainPingPong.Rally.Course
import CrossChainPingPong.Joint.System
import CrossChainPingPong.Joint.Refinement
import CrossChainPingPong.Joint.Lossless
import CrossChainPingPong.Joint.SingleBall
import CrossChainPingPong.Joint.Balls
import CrossChainPingPong.Joint.Hops
import CrossChainPingPong.Joint.DeadGame
import CrossChainPingPong.Joint.RallyCount
import CrossChainPingPong.Joint.Games
import CrossChainPingPong.Joint.Cap
import CrossChainPingPong.Joint.Standstill
import CrossChainPingPong.Joint.Budget
import CrossChainPingPong.World.System
import CrossChainPingPong.World.Parts
import CrossChainPingPong.World.OneBall
import CrossChainPingPong.World.Bound
import CrossChainPingPong.World.Mail
import CrossChainPingPong.World.Strangers
import CrossChainPingPong.World.Embedding
import CrossChainPingPong.World.Reported
import CrossChainPingPong.World.Restart
