import HandleBench.Backend
import HandleBench.Binary64.Octets
import HandleBench.Call
import HandleBench.Descriptor
import HandleBench.Handle
import HandleBench.Main
import HandleBench.Param.Display
import HandleBench.Param.Shape
import HandleBench.Payload
import HandleBench.Pipeline
import HandleBench.Proofs.CleanRuns
import HandleBench.Proofs.DrivenRuns
import HandleBench.Proofs.FailedCalls
import HandleBench.Proofs.HostMemory
import HandleBench.Proofs.HostResults
import HandleBench.Proofs.Isolation
import HandleBench.Proofs.LastErrors
import HandleBench.Proofs.Layers
import HandleBench.Proofs.LiveBenchmarks
import HandleBench.Proofs.PipelineOrder
import HandleBench.Proofs.ProductPipeline
import HandleBench.Proofs.Resolution
import HandleBench.Proofs.Receipts
import HandleBench.Proofs.ReturnCodes
import HandleBench.Proofs.RoundTrip
import HandleBench.Proofs.Sharing
import HandleBench.Report.Interchange
import HandleBench.Report.Markdown
import HandleBench.Run
import HandleBench.Settings.Engine
import HandleBench.Settings.LogFilter
import HandleBench.Proofs.CarrierWrites
import HandleBench.Proofs.Transport
import HandleBench.Proofs.Lockstep
import HandleBench.Proofs.Survival
import HandleBench.Proofs.WrittenNumbers
import HandleBench.Proofs.WrittenValues
import HandleBench.Proofs.Encodings
import HandleBench.Proofs.ReportRoundTrip
import HandleBench.Proofs.MachineWords
import HandleBench.Proofs.MatrixProducts
import HandleBench.Proofs.ResultShapes
import HandleBench.Proofs.Transparency
import HandleBench.Proofs.Twins
import HandleBench.Proofs.NumberOrder
import HandleBench.Proofs.Verification
import HandleBench.Proofs.GenericShapes
import HandleBench.Proofs.Descriptions
import HandleBench.Proofs.SoundProducts
import HandleBench.Proofs.WordProducts
import HandleBench.Proofs.Addressing
import HandleBench.Proofs.AcceptedPacks
import HandleBench.Proofs.Statistics
import HandleBench.Proofs.Minting
import HandleBench.Proofs.Chains
import HandleBench.Proofs.Registrations
import HandleBench.Proofs.NameFields
import HandleBench.Proofs.TextQueries
import HandleBench.Proofs.ReportedParams
