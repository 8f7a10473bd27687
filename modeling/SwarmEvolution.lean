import SwarmEvolution.Assignment
import SwarmEvolution.Breeding.Crowding
import SwarmEvolution.Breeding.Operators
import SwarmEvolution.Breeding.Simplification
import SwarmEvolution.Code.Basic
import SwarmEvolution.Code.Text
import SwarmEvolution.Directory
import SwarmEvolution.Document.Basic
import SwarmEvolution.Document.Json
import SwarmEvolution.Document.Path
import SwarmEvolution.Document.Toml.Dialect
import SwarmEvolution.Document.Toml.Draft
import SwarmEvolution.Document.Toml.Reading
import SwarmEvolution.Document.Toml.Scalar
import SwarmEvolution.Document.Toml.Text
import SwarmEvolution.Document.Toml.Writing
import SwarmEvolution.Evolution.Breeder
import SwarmEvolution.Evolution.Parallel
import SwarmEvolution.Evolution.Report
import SwarmEvolution.Evolution.Run
import SwarmEvolution.Failure
import SwarmEvolution.Fitness
import SwarmEvolution.Individual
import SwarmEvolution.Instruction
import SwarmEvolution.Machine.Act
import SwarmEvolution.Machine.Basic
import SwarmEvolution.Machine.Control
import SwarmEvolution.Machine.Run
import SwarmEvolution.Machine.Scalars
import SwarmEvolution.Machine.Vectors
import SwarmEvolution.Main
import SwarmEvolution.Number.Binary
import SwarmEvolution.Number.Decimal
import SwarmEvolution.Number.Digit
import SwarmEvolution.Number.Double
import SwarmEvolution.Number.Single
import SwarmEvolution.Number.Truncated
import SwarmEvolution.Number.Width
import SwarmEvolution.Point
import SwarmEvolution.Problem.Basic
import SwarmEvolution.Problem.Benchmark
import SwarmEvolution.Problem.Selection
import SwarmEvolution.Problem.Transform
import SwarmEvolution.Proofs.Assignment.Doubles
import SwarmEvolution.Proofs.Assignment.GuardedRuns
import SwarmEvolution.Proofs.Assignment.Optimum
import SwarmEvolution.Proofs.Breeding.Acceptance
import SwarmEvolution.Proofs.Breeding.Grafting
import SwarmEvolution.Proofs.Breeding.Groups
import SwarmEvolution.Proofs.Breeding.MutationSize
import SwarmEvolution.Proofs.Breeding.Proposals
import SwarmEvolution.Proofs.Breeding.Simplifying
import SwarmEvolution.Proofs.Breeding.Survival
import SwarmEvolution.Proofs.Code.Contexts
import SwarmEvolution.Proofs.Code.Edits
import SwarmEvolution.Proofs.Code.Entries
import SwarmEvolution.Proofs.Code.Preorder
import SwarmEvolution.Proofs.Code.Random
import SwarmEvolution.Proofs.Code.Size
import SwarmEvolution.Proofs.Code.Texts
import SwarmEvolution.Proofs.Evolution.Accounts
import SwarmEvolution.Proofs.Evolution.Crowding
import SwarmEvolution.Proofs.Evolution.Fittest
import SwarmEvolution.Proofs.Evolution.Freshness
import SwarmEvolution.Proofs.Evolution.Heredity
import SwarmEvolution.Proofs.Evolution.Parallel
import SwarmEvolution.Proofs.Evolution.Pooling
import SwarmEvolution.Proofs.Evolution.PopulationSize
import SwarmEvolution.Proofs.Evolution.Preparation
import SwarmEvolution.Proofs.Evolution.ProgramSize
import SwarmEvolution.Proofs.Evolution.Stages
import SwarmEvolution.Proofs.Evolution.SwarmSize
import SwarmEvolution.Proofs.Machine.CodeSize
import SwarmEvolution.Proofs.Machine.Completion
import SwarmEvolution.Proofs.Machine.Contents
import SwarmEvolution.Proofs.Machine.CountedLoops
import SwarmEvolution.Proofs.Machine.Dimensions
import SwarmEvolution.Proofs.Machine.Finiteness
import SwarmEvolution.Proofs.Machine.Lawful
import SwarmEvolution.Proofs.Machine.Operands
import SwarmEvolution.Proofs.Machine.Packing
import SwarmEvolution.Proofs.Machine.RandomIntegers
import SwarmEvolution.Proofs.Machine.Rearrangements
import SwarmEvolution.Proofs.Machine.Steps
import SwarmEvolution.Proofs.Machine.Surroundings
import SwarmEvolution.Proofs.Machine.Termination
import SwarmEvolution.Proofs.Machine.Zipping
import SwarmEvolution.Proofs.Number.Commutativity
import SwarmEvolution.Proofs.Number.Double
import SwarmEvolution.Proofs.Number.Finite
import SwarmEvolution.Proofs.Number.Means
import SwarmEvolution.Proofs.Number.Numerals
import SwarmEvolution.Proofs.Number.Order
import SwarmEvolution.Proofs.Number.Patterns
import SwarmEvolution.Proofs.Number.Rounding
import SwarmEvolution.Proofs.Number.Shortest
import SwarmEvolution.Proofs.Problem.Boxes
import SwarmEvolution.Proofs.Sampling.Bounds
import SwarmEvolution.Proofs.Sampling.Outcomes
import SwarmEvolution.Proofs.Settings.Sharing
import SwarmEvolution.Proofs.Settings.Validity
import SwarmEvolution.Proofs.Swarm.BestValue
import SwarmEvolution.Proofs.Swarm.Dimensions
import SwarmEvolution.Proofs.Swarm.Ensembles
import SwarmEvolution.Proofs.Swarm.Evaluating
import SwarmEvolution.Proofs.Swarm.History
import SwarmEvolution.Proofs.Swarm.Isolation
import SwarmEvolution.Proofs.Swarm.PersonalBest
import SwarmEvolution.Proofs.Swarm.Recording
import SwarmEvolution.Proofs.Swarm.Rows
import SwarmEvolution.Proofs.Swarm.SavedStarts
import SwarmEvolution.Proofs.Swarm.StartFiles
import SwarmEvolution.Proofs.Swarm.StartTables
import SwarmEvolution.Proofs.Swarm.Trackers
import SwarmEvolution.Proofs.Swarm.Trajectories
import SwarmEvolution.Proofs.Swarm.TrajectoryTables
import SwarmEvolution.Proofs.Text.Lines
import SwarmEvolution.Sampling.Draw
import SwarmEvolution.Sampling.Stream
import SwarmEvolution.Settings.Basic
import SwarmEvolution.Settings.Layers
import SwarmEvolution.Settings.Reading
import SwarmEvolution.Settings.Sharing
import SwarmEvolution.Settings.Store
import SwarmEvolution.Settings.Writing
import SwarmEvolution.Stack
import SwarmEvolution.StartPoints
import SwarmEvolution.Swarm.Evaluation
import SwarmEvolution.Swarm.Member
import SwarmEvolution.Swarm.Run
import SwarmEvolution.Text.Blank
import SwarmEvolution.Text.Printable
import SwarmEvolution.Text.Quoted
import SwarmEvolution.Trajectory
import SwarmEvolution.Vocabulary
