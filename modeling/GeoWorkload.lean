import GeoWorkload.Action
import GeoWorkload.Amount
import GeoWorkload.Binary64
import GeoWorkload.Binary64.Arithmetic
import GeoWorkload.Binary64.Checked
import GeoWorkload.Binary64.Shortest
import GeoWorkload.Conversion
import GeoWorkload.Corpus
import GeoWorkload.Counters.Faulty
import GeoWorkload.Counters.Memory
import GeoWorkload.Counters.Server
import GeoWorkload.Counters.Store
import GeoWorkload.Counters.Table
import GeoWorkload.Failure
import GeoWorkload.Files
import GeoWorkload.Files.Path
import GeoWorkload.Generator
import GeoWorkload.Generator.Compile
import GeoWorkload.Generator.Ingest
import GeoWorkload.Geometry
import GeoWorkload.Json.Display
import GeoWorkload.Json.Printer
import GeoWorkload.Json.Reader
import GeoWorkload.Json.Value
import GeoWorkload.Label
import GeoWorkload.Label.Map
import GeoWorkload.Log
import GeoWorkload.Main
import GeoWorkload.Mix
import GeoWorkload.Numeral.Integer
import GeoWorkload.Numeral.Real
import GeoWorkload.Operation
import GeoWorkload.Predicate
import GeoWorkload.Predicate.Pool
import GeoWorkload.Program.Arguments
import GeoWorkload.Program.Configuration
import GeoWorkload.Program.ConfigurationFile
import GeoWorkload.Program.Course
import GeoWorkload.Program.Default
import GeoWorkload.Program.Exit
import GeoWorkload.Program.Loaders
import GeoWorkload.Program.Phases
import GeoWorkload.Program.Plan
import GeoWorkload.Program.Run
import GeoWorkload.Random.Source
import GeoWorkload.Random.Twister
import GeoWorkload.Request
import GeoWorkload.Sampling.Sampler
import GeoWorkload.Sampling.Window
import GeoWorkload.Sampling.Zipfian
import GeoWorkload.Schema
import GeoWorkload.Schema.Definition
import GeoWorkload.Settings
import GeoWorkload.Settings.Properties
import GeoWorkload.Text.Blank
import GeoWorkload.Text.Digit
import GeoWorkload.Text.Lines
import GeoWorkload.Text.Printable
import GeoWorkload.Text.Quoted
import GeoWorkload.Tokens.Storage
import GeoWorkload.Tokens.Tokenize
import GeoWorkload.Trace
import GeoWorkload.Workload.Load
import GeoWorkload.Workload.Transaction
import GeoWorkload.Workload.Worker
import GeoWorkload.Proofs.Decimals
import GeoWorkload.Proofs.Outcomes
import GeoWorkload.Proofs.StoreKeys
import GeoWorkload.Proofs.StoreLaws
import GeoWorkload.Proofs.Columns
import GeoWorkload.Proofs.TokenStorage
import GeoWorkload.Proofs.TokenPaths
import GeoWorkload.Proofs.InsertNumbers
import GeoWorkload.Proofs.IngestEffects
import GeoWorkload.Proofs.Fleet
import GeoWorkload.Proofs.IngestFrame
import GeoWorkload.Proofs.InsertSequence
import GeoWorkload.Proofs.Seeding
import GeoWorkload.Proofs.Archive
import GeoWorkload.Proofs.TokenTable
import GeoWorkload.Proofs.PredicatePools
import GeoWorkload.Proofs.Draws
import GeoWorkload.Proofs.MemorySites
import GeoWorkload.Proofs.CompileFaults
import GeoWorkload.Proofs.Transactions
import GeoWorkload.Proofs.StockedSites
import GeoWorkload.Proofs.StockedCompiling
import GeoWorkload.Proofs.StoredSampling
import GeoWorkload.Proofs.Loading
import GeoWorkload.Proofs.PredicateRendering
import GeoWorkload.Proofs.JsonTexts
import GeoWorkload.Proofs.LineEnds
import GeoWorkload.Proofs.CorpusLines
import GeoWorkload.Proofs.TokenSteps
import GeoWorkload.Proofs.ConfigurationLayers
import GeoWorkload.Proofs.Slices
import GeoWorkload.Proofs.SharedLoading
import GeoWorkload.Proofs.CoverageCounts
import GeoWorkload.Proofs.WorkerAccounts
import GeoWorkload.Proofs.JsonRendering
import GeoWorkload.Proofs.TraceLines
import GeoWorkload.Proofs.SingleMix
import GeoWorkload.Proofs.Scans
import GeoWorkload.Proofs.WorkerScans
import GeoWorkload.Proofs.Shifts
import GeoWorkload.Proofs.ScanShifts
import GeoWorkload.Proofs.Rounding
import GeoWorkload.Proofs.WeightedMixes
import GeoWorkload.Proofs.UnitDraws
import GeoWorkload.Proofs.ScanWindows
import GeoWorkload.Proofs.TableCalls
import GeoWorkload.Proofs.TableConnections
import GeoWorkload.Proofs.SlotKeys
import GeoWorkload.Proofs.RepairPasses
import GeoWorkload.Proofs.KeptTokens
import GeoWorkload.Proofs.FilePaths
import GeoWorkload.Proofs.RunSteps
import GeoWorkload.Proofs.TraceTargets
import GeoWorkload.Proofs.PhaseCodes
import GeoWorkload.Proofs.PhaseExits
import GeoWorkload.Proofs.PlanExits
import GeoWorkload.Proofs.RunExits
import GeoWorkload.Proofs.TokenGroups
import GeoWorkload.Proofs.RestartedSeeding
import GeoWorkload.Proofs.SampledIndices
import GeoWorkload.Proofs.TwisterWords
import GeoWorkload.Proofs.TwisterSeeds
import GeoWorkload.Proofs.WorkerSources
import GeoWorkload.Proofs.NearestNumbers
import GeoWorkload.Proofs.HalfUpInserts
import GeoWorkload.Proofs.ShapeWindows
import GeoWorkload.Proofs.IntegerTexts
import GeoWorkload.Proofs.NearestDecimals
import GeoWorkload.Proofs.RealTexts
import GeoWorkload.Proofs.PropertyChecks
import GeoWorkload.Proofs.JsonIntegers
import GeoWorkload.Proofs.IntegerTokens
