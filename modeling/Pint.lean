import Pint.Lib.Wp
import Pint.Lib.Run
import Pint.Lib.RingBuffer
import Pint.Lib.DescriptorTable
import Pint.Lib.Voting
import Pint.Lib.Scan
import Pint.Lib.ShortestPath
import Pint.Lib.Polling
import Pint.Lib.Framing
import Pint.Lib.TopTwo
import Pint.Program.VoteBuff
import Pint.Program.State
import Pint.Program.Replicas
import Pint.Program.Voterd
import Pint.Program.Machine
import Pint.Program.Feed
import Pint.Proof.VoteBuff
import Pint.Proof.Fifo
import Pint.Proof.Still
import Pint.Proof.Kernel
import Pint.Proof.Plumbing
import Pint.Proof.Stealing
import Pint.Proof.Refill
import Pint.Proof.Votes
import Pint.Proof.Restart
import Pint.Proof.Poll
import Pint.Proof.Start
import Pint.Proof.Steps
import Pint.Proof.Runs
import Pint.Proof.Masking
import Pint.Proof.TwoVotes
import Pint.Proof.Watchdog
import Pint.Proof.InFlight
import Pint.Proof.Backlog
import Pint.Proof.Loop
import Pint.Proof.Forwarding
import Pint.Proof.Boundaries
import Pint.Proof.Wedge
import Pint.Proof.Marks
import Pint.Proof.Exits
import Pint.Proof.Period
import Pint.Proof.Settled
import Pint.Proof.Detection
import Pint.Proof.Overflow
import Pint.Program.Clib
import Pint.Program.CommTypes
import Pint.Program.CommandLine
import Pint.Program.Mapping
import Pint.Program.Mapper
import Pint.Program.AStar
import Pint.Program.ArtPot
import Pint.Proof.Exact
import Pint.Proof.MapUpdates
import Pint.Proof.Maps
import Pint.Proof.Launch
import Pint.Proof.Schedules
import Pint.Proof.NodeList
import Pint.Proof.Search
import Pint.Proof.OnTheMap
import Pint.Proof.GoalPath
import Pint.Proof.Planner
import Pint.Proof.Contained
import Pint.Proof.MapStream
import Pint.Proof.Waypoints
import Pint.Proof.MessageOrder
import Pint.Proof.BadUpdates
import Pint.Proof.Compare
import Pint.Proof.Balance
import Pint.Proof.TimedPipes
import Pint.Program.Plumber
import Pint.Proof.Graph
import Pint.Proof.Rejecting
import Pint.Lib.Ledger
import Pint.Program.Descriptors
import Pint.Proof.Descriptors
import Pint.Proof.DescriptorSet
import Pint.Lib.StableQueue
import Pint.Lib.Prefixed
import Pint.Lib.Truncation
import Pint.Program.Logger
import Pint.Proof.LogTexts
import Pint.Proof.Cells
import Pint.Lib.OrderedTable
import Pint.Program.Plumbing
import Pint.Proof.NodeTable
import Pint.Proof.CleanMemory
import Pint.Program.TasTime
import Pint.Proof.Elapsed
import Pint.Proof.NodeQueue
import Pint.Proof.PipeUse
import Pint.Lib.MaximalMunch
import Pint.Program.Lexer
import Pint.Program.Grammar
import Pint.Program.Controllers
import Pint.Program.System
import Pint.Proof.Lexing
import Pint.Proof.Parsing
import Pint.Proof.Configuration
import Pint.Proof.Cloning
import Pint.Proof.Handover
import Pint.Proof.Transparency
