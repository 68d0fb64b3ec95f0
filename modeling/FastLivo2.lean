import FastLivo2.Lib.Exec
import FastLivo2.Lib.Cutter
import FastLivo2.Lib.Tiling
import FastLivo2.Lib.Window
import FastLivo2.Common
import FastLivo2.ImuProcess
import FastLivo2.Mapper
import FastLivo2.SyncPackages
import FastLivo2.Run
import FastLivo2.Propagation
import FastLivo2.StampFilters
import FastLivo2.Filters
import FastLivo2.BufferSafety
import FastLivo2.ScanBuffers
import FastLivo2.OnlyLio
import FastLivo2.LivoCycle
import FastLivo2.ImuSlices
import FastLivo2.PointSlices
import FastLivo2.Lib.Cell
import FastLivo2.Lib.PTree
import FastLivo2.OctoTree
import FastLivo2.OctoTreeGeometry
import FastLivo2.VoxelMap
import FastLivo2.OctoTreeRuns
import FastLivo2.OctoTreeLookup
import FastLivo2.OctoTreeCover
import FastLivo2.FilterState
import FastLivo2.StateEstimation
import FastLivo2.VisualImage
import FastLivo2.VisualMap
import FastLivo2.VisualUpdate
import FastLivo2.Covariance
import FastLivo2.VisualKeys
import FastLivo2.VisualFrame
import FastLivo2.Lib.Fold
import FastLivo2.Lib.Ledger
import FastLivo2.VisualObs
import FastLivo2.VisualScore
import FastLivo2.VisualRetrieval
import FastLivo2.VisualRun
import FastLivo2.ReferencePatch
import FastLivo2.VisualInvariant
import FastLivo2.PatchBuffers
import FastLivo2.ImuOdometry
import FastLivo2.Lib.Checksum
import FastLivo2.Synchro
import FastLivo2.GprmcRecogniser
import FastLivo2.GprmcSentences
import FastLivo2.GprmcCallback
import FastLivo2.TimeSource
import FastLivo2.TimeShare
import FastLivo2.StampSharing
import FastLivo2.BlackBox
import FastLivo2.SubscriberDrops
import FastLivo2.CameraDrops
import FastLivo2.Lib.Descriptors
import FastLivo2.ResourceSampler
import FastLivo2.Lib.Backward
import FastLivo2.BackwardUndistortion
import FastLivo2.OctoTreeLimits
import FastLivo2.Lib.Champion
import FastLivo2.PlaneMatching
import FastLivo2.LidarNormals
import FastLivo2.Lib.Descent
import FastLivo2.PhotometricDescent
import FastLivo2.PixelReads
import FastLivo2.Lib.RowMajor
import FastLivo2.GridIndex
import FastLivo2.RetrievalSelection
import FastLivo2.NewPoints
import FastLivo2.LivoxPreprocess
import FastLivo2.Lib.RunningSums
import FastLivo2.ReferenceScore
import FastLivo2.ScoreReproducibility
import FastLivo2.GiveFeature
import FastLivo2.PointClouds
import FastLivo2.BlindZone
import FastLivo2.PlaneScan
import FastLivo2.FeatureBounds
import FastLivo2.CloudBounds
import FastLivo2.CaptureStamps
import FastLivo2.LidarPubHandler
import FastLivo2.PacketIntake
import FastLivo2.PointDecoders
import FastLivo2.PubHandler
import FastLivo2.FrameSpan
import FastLivo2.Lib.Ring
import FastLivo2.LidarDataQueue
import FastLivo2.Lddc
import FastLivo2.Lib.Derived
import FastLivo2.PlotProc
import FastLivo2.ResourcePlots
import FastLivo2.Lib.KeyMatch
import FastLivo2.Lib.LeastSquares
import FastLivo2.InitPlane
import FastLivo2.PointCovariance
import FastLivo2.OctoTreeContents
import FastLivo2.MapOutput
import FastLivo2.LidarMapping
import FastLivo2.LivoNode
import FastLivo2.FilterRuns
import FastLivo2.LivoRuns
import FastLivo2.MapFiles
import FastLivo2.SensorCompare
import FastLivo2.Lib.CString
import FastLivo2.ProcNetDev
import FastLivo2.MeasureHistory
import FastLivo2.ProcFields
import FastLivo2.ImuStatistics
import FastLivo2.ConstVelUndistortion
import FastLivo2.BringUpRuns
import FastLivo2.DriverQueues
import FastLivo2.LidarSampling
import FastLivo2.LivoxDriver
import FastLivo2.Lib.Custody
import FastLivo2.Lib.Handoff
import FastLivo2.PollThreads
import FastLivo2.PollProgress
import FastLivo2.CommandHandler
import FastLivo2.LidarBringUp
