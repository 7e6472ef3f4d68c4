import VllmCore.HybridSoundness
import VllmCore.StreamingSession
import VllmCore.CacheConservation
import VllmCore.P2P.ServerPinRuns
import VllmCore.P2P.LinkRounds
import VllmCore.DeepSeekV4.PromptGrowth
import VllmCore.DeepSeekV4.ImagePlaceholders
import VllmCore.Offload.TieringBalance
import VllmCore.Offload.TieringOrder
import VllmCore.Startup.Capacity
import VllmCore.Multimodal.MirroredCaches
import VllmCore.SparseRetention
import VllmCore.Scheduler.MambaSplit
import VllmCore.Offload.Eviction
import VllmCore.Scheduler.EncoderDecoderCache
import VllmCore.Scheduler.EncoderCache
import VllmCore.Startup.CPUOffload
import VllmCore.Offload.CopyThread
import VllmCore.Worker.SlotMapping
import VllmCore.Eplb.Replication
import VllmCore.Scheduler.Repetition
import VllmCore.Startup.AutoFit
