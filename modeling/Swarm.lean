import Swarm.Agent
import Swarm.Cli.Arguments
import Swarm.Cli.Console
import Swarm.Document.Model
import Swarm.Document.Source
import Swarm.Document.Value
import Swarm.Document.World
import Swarm.Engine
import Swarm.Fault.Basic
import Swarm.Fault.Cause
import Swarm.Fault.Site
import Swarm.Job
import Swarm.Json.Basic
import Swarm.Json.Decode
import Swarm.Json.Numeral
import Swarm.Json.Parser
import Swarm.Json.Printer
import Swarm.Json.Quoted
import Swarm.Machine.Argument
import Swarm.Machine.Basic
import Swarm.Machine.Frame
import Swarm.Machine.Nested
import Swarm.Machine.Perform
import Swarm.Machine.Report
import Swarm.Machine.Run
import Swarm.Main
import Swarm.Number.Double
import Swarm.Number.Reading
import Swarm.Number.Shortest
import Swarm.Number.Text
import Swarm.Program.Assemble
import Swarm.Program.Basic
import Swarm.Program.Check
import Swarm.Program.Listing
import Swarm.Proofs.Astray
import Swarm.Proofs.Cli.ExitCodes
import Swarm.Proofs.Document.RoundTrip
import Swarm.Proofs.Draw
import Swarm.Proofs.Engine.Defects
import Swarm.Proofs.Engine.Depths
import Swarm.Proofs.Engine.Failure
import Swarm.Proofs.Engine.Mortality
import Swarm.Proofs.Engine.Surfacing
import Swarm.Proofs.Engine.Termination
import Swarm.Proofs.Engine.Verified
import Swarm.Proofs.Exec.Bounds
import Swarm.Proofs.Exec.Core
import Swarm.Proofs.Exec.Deaths
import Swarm.Proofs.Exec.Depths
import Swarm.Proofs.Exec.Driving
import Swarm.Proofs.Exec.Effects
import Swarm.Proofs.Exec.Enclosure
import Swarm.Proofs.Exec.Exhaustion
import Swarm.Proofs.Exec.Frames
import Swarm.Proofs.Exec.KnownArgument
import Swarm.Proofs.Exec.Message
import Swarm.Proofs.Exec.Moves
import Swarm.Proofs.Exec.Raised
import Swarm.Proofs.Exec.Refinement
import Swarm.Proofs.Exec.Relay
import Swarm.Proofs.Exec.Reporting
import Swarm.Proofs.Exec.Safe
import Swarm.Proofs.Exec.Scope
import Swarm.Proofs.Exec.Sound
import Swarm.Proofs.Exec.Steering
import Swarm.Proofs.Exec.Termination
import Swarm.Proofs.Exec.VisitOrder
import Swarm.Proofs.Fault
import Swarm.Proofs.Job.Effects
import Swarm.Proofs.Job.Rounds
import Swarm.Proofs.Job.Switching
import Swarm.Proofs.Number.Rounding
import Swarm.Proofs.Program.Acceptance
import Swarm.Proofs.Program.Emission
import Swarm.Proofs.Program.Fits
import Swarm.Proofs.Program.Flags
import Swarm.Proofs.Program.Forward
import Swarm.Proofs.Program.Indentation
import Swarm.Proofs.Program.Loci
import Swarm.Proofs.Program.Names
import Swarm.Proofs.Program.Occurrence
import Swarm.Proofs.Program.Regions
import Swarm.Proofs.Provenance.Binding
import Swarm.Proofs.Provenance.Expression
import Swarm.Proofs.Provenance.Instruction
import Swarm.Proofs.Provenance.Runs
import Swarm.Proofs.Provenance.Site
import Swarm.Proofs.Raised
import Swarm.Proofs.Report
import Swarm.Proofs.Simulation.History
import Swarm.Proofs.Simulation.Log
import Swarm.Proofs.Source.Position
import Swarm.Proofs.Streams.Isolation
import Swarm.Proofs.Tree.Commands
import Swarm.Proofs.Tree.Limits
import Swarm.Proofs.Tree.Preservation
import Swarm.Proofs.Tree.Regions
import Swarm.Proofs.Tree.Semantics
import Swarm.Proofs.Tree.Simulation
import Swarm.Proofs.World.Description
import Swarm.Proofs.World.Domains
import Swarm.Proofs.World.Layout
import Swarm.Proofs.World.Links
import Swarm.Proofs.World.Liveness
import Swarm.Proofs.World.Operations
import Swarm.Proofs.World.Reachable
import Swarm.Proofs.World.Records
import Swarm.Proofs.World.Registry
import Swarm.Proofs.World.Snapshot
import Swarm.Proofs.World.Sound
import Swarm.Proofs.World.Variables
import Swarm.Proofs.World.Writes
import Swarm.Random.Block
import Swarm.Random.Stream
import Swarm.Source.Position
import Swarm.Source.Primitive
import Swarm.Source.Tree
import Swarm.Text.Blank
import Swarm.Text.Case
import Swarm.Text.CaseTable
import Swarm.Value
import Swarm.World.Basic
import Swarm.World.Domain
import Swarm.World.Spec
import Swarm.World.Spring
