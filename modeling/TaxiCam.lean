import TaxiCam.Runs
import TaxiCam.Keyed
import TaxiCam.SubmissionProof
import TaxiCam.SubmissionOverlay
import TaxiCam.SubmissionStates
import TaxiCam.SubmissionSites
import TaxiCam.SourceReplay
import TaxiCam.StampNative
import TaxiCam.StampState
import TaxiCam.StampMirror
import TaxiCam.StampRestore
import TaxiCam.FrameOutput
import TaxiCam.FrameBuffers
import TaxiCam.FramePatches
import TaxiCam.FrameViews
import TaxiCam.FrameFits
import TaxiCam.SubmissionPool
import TaxiCam.PoolAccounting
import TaxiCam.PoolRuns
import TaxiCam.SceneHandoff
import TaxiCam.HandoffRegistry
import TaxiCam.HandoffPublication
import TaxiCam.HandoffIdentity
import TaxiCam.HandoffTickets
import TaxiCam.SimMessages
import TaxiCam.EventLog
import TaxiCam.MessageDelivery
import TaxiCam.MessageLoss
import TaxiCam.DeferredRing
import TaxiCam.RingOrder
import TaxiCam.RingRuns
import TaxiCam.PanelMarks
import TaxiCam.ScriptNumbers
import TaxiCam.MarkScript
import TaxiCam.MarkEncoders
import TaxiCam.CameraPolicy
import TaxiCam.CameraDiscipline
import TaxiCam.LvarBindings
import TaxiCam.LvarCounting
import TaxiCam.LvarCommands
import TaxiCam.LvarPolling
import TaxiCam.ButtonRoutes
import TaxiCam.StallWatchdog
import TaxiCam.WatchdogRules
import TaxiCam.HoldRelease
import TaxiCam.SourceRestoration
import TaxiCam.Decimal
import TaxiCam.MarkIdentity
import TaxiCam.MarkOwners
import TaxiCam.MarkKeys
import TaxiCam.MarkChoice
import TaxiCam.FileTree
import TaxiCam.PackageTexts
import TaxiCam.MarksPackage
import TaxiCam.PackageStops
import TaxiCam.PackageRecovery
import TaxiCam.SubmissionSilence
import TaxiCam.SubmissionTouches
import TaxiCam.DisplaySettlement
import TaxiCam.SettledCopies
import TaxiCam.EvidenceDeferral
import TaxiCam.DeviceTimeline
import TaxiCam.TimelineOrder
import TaxiCam.TimelineWaits
import TaxiCam.SourceStream
import TaxiCam.TailSources
import TaxiCam.PacketPool
import TaxiCam.PacketCalls
import TaxiCam.PacketRules
import TaxiCam.PacketLifecycle
import TaxiCam.EntryLedger
import TaxiCam.EntryRequests
import TaxiCam.RecoveryBudget
import TaxiCam.TaxiButtons
import TaxiCam.TaxiToggles
import TaxiCam.ToggleLedger
import TaxiCam.ToggleMoves
import TaxiCam.ViewPool
import TaxiCam.SceneObserver
import TaxiCam.ObserverPhases
import TaxiCam.ObserverStarts
import TaxiCam.RetiredViews
import TaxiCam.PacketReturns
import TaxiCam.SceneRuntime
import TaxiCam.SceneService
import TaxiCam.SnapshotAccounts
import TaxiCam.SnapshotLeases
import TaxiCam.SnapshotRuns
import TaxiCam.CompositionRuns
import TaxiCam.PictureRuns
import TaxiCam.ControlLoop
import TaxiCam.LoopTransitions
import TaxiCam.ViewAa
import TaxiCam.ClearedFlags
import TaxiCam.CameraShortcuts
import TaxiCam.ShortcutRuns
import TaxiCam.FlightSession
import TaxiCam.ReadinessRuns
import TaxiCam.PageProofs
import TaxiCam.PageRecords
import TaxiCam.MemoryScopes
import TaxiCam.MarkDecoder
import TaxiCam.MarkRoundTrip
import TaxiCam.MarkCells
import TaxiCam.MarkPages
import TaxiCam.MarkSignals
import TaxiCam.UpdateSelection
import TaxiCam.Updater
import TaxiCam.UpdateProvenance
import TaxiCam.UpdateRuns
import TaxiCam.BitStreams
import TaxiCam.Deflate
import TaxiCam.DeflateBits
import TaxiCam.DeflateRuns
import TaxiCam.DisplayKeep
import TaxiCam.MarkReaders
import TaxiCam.DisplayPieces
import TaxiCam.GaugeNames
import TaxiCam.RedactionRuns
import TaxiCam.RingRefusals
import TaxiCam.ZipArchive
import TaxiCam.ZipCrc
import TaxiCam.ZipRuns
import TaxiCam.QueryScope
import TaxiCam.Discovered
import TaxiCam.AreaEdit
import TaxiCam.Rotations
import TaxiCam.RenderSchedule
import TaxiCam.PagePatches
import TaxiCam.AircraftVariant
import TaxiCam.VariantKeys
import TaxiCam.Buffers
import TaxiCam.BmpFormat
import TaxiCam.DisplaySnapshot
import TaxiCam.SnapshotPictures
import TaxiCam.RotatingLog
import TaxiCam.LogRotations
import TaxiCam.Readers
import TaxiCam.TextEscapes
import TaxiCam.Changelog
import TaxiCam.ChangelogModes
import TaxiCam.Utf8Texts
import TaxiCam.JsonGrammar
import TaxiCam.JsonTexts
import TaxiCam.JsonValue
import TaxiCam.JsonReads
import TaxiCam.JsonAccepts
import TaxiCam.JsonParse
import TaxiCam.JsonWriter
import TaxiCam.JsonRecords
import TaxiCam.SlotTables
import TaxiCam.ContendedLists
import TaxiCam.LiveBindHint
import TaxiCam.Weaves
import TaxiCam.QueueSubmit
import TaxiCam.SubmissionPlans
import TaxiCam.LegacyBatches
import TaxiCam.NodeMounts
import TaxiCam.FeedPlacement
import TaxiCam.NodeGraph
import TaxiCam.MountRuns
import TaxiCam.MountReturns
import TaxiCam.OwnedViews
import TaxiCam.ViewRetirement
import TaxiCam.ViewResizeRecovery
import TaxiCam.RetainedProfile
import TaxiCam.WaitingPage
import TaxiCam.SharedQueries
import TaxiCam.CodeContract
import TaxiCam.BugReportLinks
