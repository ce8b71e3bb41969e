import EtherDevice.Agps.EngineRestart
import EtherDevice.Agps.LiveClients
import EtherDevice.GpsUtils.Callbacks
import EtherDevice.GpsUtils.NoTimerLost
import EtherDevice.Hal1.ApiAnswers
import EtherDevice.Hal1.PreviewTruth
import EtherDevice.Hal1.Reprocess
import EtherDevice.Hal3.RawConversion
import EtherDevice.Hal3.BuffersOnce
import EtherDevice.Hal3.Completion
import EtherDevice.Hal3.InFlight
import EtherDevice.IpaNati.AddFailure
import EtherDevice.IpaNati.TableLife
import EtherDevice.Ipacm.ClientHandles
import EtherDevice.Ipacm.DriverRefinement
import EtherDevice.Ipacm.NatConsistency
import EtherDevice.Ipacm.PowerSave
import EtherDevice.Ipacm.ProcessEvt
import EtherDevice.Ipacm.RmDepend
import EtherDevice.Ipacm.StaClients
import EtherDevice.MmChannel.Conservation
import EtherDevice.MmChannel.Counters
import EtherDevice.MmJpeg.Conserved
import EtherDevice.MmStream.Holders
import EtherDevice.Ni.Answers
import EtherDevice.PostProc.FreedOnce
import EtherDevice.PostProc.SettingsKept
import EtherDevice.PostProc.SnapshotPool
import EtherDevice.Ipacm.NetlinkDecode
import EtherDevice.Hal3.Reconfigure
import EtherDevice.Ipacm.NoDangling
import EtherDevice.Ipacm.Config
import EtherDevice.Ipacm.HeaderNames
import EtherDevice.IpaNati.Checksum
import EtherDevice.IpaNati.Sizing
import EtherDevice.IpaNati.Offsets
import EtherDevice.Ipacm.CacheSlots
import EtherDevice.MmChannel.Trimming
import EtherDevice.MmChannel.Frames
import EtherDevice.Hal3.DropsReported
import EtherDevice.Hal3.MetadataDisposed
import EtherDevice.Hal3.HeapMemory
import EtherDevice.Hal3.OfflineBuffers
import EtherDevice.Hal3.CropRegion
import EtherDevice.MmStream.BatchFrames
import EtherDevice.MmStream.BatchBuffers
import EtherDevice.MmStream.PlanesFit
import EtherDevice.MmStream.PollProtocol
import EtherDevice.LocEng.AidingData
import EtherDevice.LocEng.Nmea
import EtherDevice.GpsUtils.LinkedList
import EtherDevice.Agps.Unsubscribe
import EtherDevice.GpsUtils.Config
import EtherDevice.PostProc.QueueNodes
import EtherDevice.Hal3.RegularChannel
import EtherDevice.Ipacm.IfaceIndices
import EtherDevice.Ipacm.FaithfulCache
import EtherDevice.Ipacm.SoftwareRouting
import EtherDevice.Ipacm.BridgeFilter
import EtherDevice.Ipacm.BridgeRouting
import EtherDevice.Ipacm.BridgeContexts
import EtherDevice.Ipacm.ResetRoutes
import EtherDevice.Ipacm.FirewallRules
import EtherDevice.Ipacm.TetherLists
import EtherDevice.Hal1.ReprocessChannels
import EtherDevice.Hal1.MemoryPool
import EtherDevice.Hal1.PoolRequests
import EtherDevice.Hal1.VideoCounts
import EtherDevice.Hal1.WindowRuns
import EtherDevice.Hal1.DelayedMessages
import EtherDevice.Hal1.StreamMaps
import EtherDevice.Hal1.StreamBalance
import EtherDevice.Hal1.FramesFreed
import EtherDevice.Ipacm.NetlinkReads
import EtherDevice.Hal1.BufDefs
import EtherDevice.Hal1.StreamThread
import EtherDevice.MmJpeg.OmxCore
import EtherDevice.MmJpeg.Thumbnail
import EtherDevice.MmJpeg.JobIds
import EtherDevice.MmJpeg.CreateSession
import EtherDevice.Ipacm.CmdQueue
import EtherDevice.GpsCore.LocApi
import EtherDevice.Hal1.CameraAreas
