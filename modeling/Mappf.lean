import Mappf.Pmtiles.LookupSafety
import Mappf.Terrain.Partition
import Mappf.Styles.Revalidation
import Mappf.Styles.Changeover
import Mappf.Biei.RenderCacheFence
import Mappf.Auth.NamespaceGrant
import Mappf.Auth.RefreshOrder
import Mappf.Biei.WorkerAccounting
import Mappf.Biei.WaitCycle
import Mappf.Abashiri.ExactlyOnce
import Mappf.Ishikari.Coherence
import Mappf.Ishikari.AbsenceInvariant
import Mappf.Biei.RoutingLimits
import Mappf.Biei.WarmState
import Mappf.Biei.PredictionOrder
import Mappf.Biei.ProfileBytes
import Mappf.Biei.LayerOrder
import Mappf.Ishikari.ProviderFenceRun
import Mappf.FileSource.Pairing
import Mappf.Cluster.RefreshAck
import Mappf.Biei.Gossip
import Mappf.Abashiri.StylePaths
import Mappf.Styles.ResponseFreshness
import Mappf.Abashiri.EntityTag
import Mappf.Ishikari.GlyphComposite
import Mappf.Ishikari.GlyphMerge
import Mappf.Pmtiles.TileCoord
import Mappf.Biei.HttpTransport
import Mappf.Biei.HrwTies
import Mappf.Common.SingleFlightRun
import Mappf.Ishikari.Conditional
import Mappf.Abashiri.ManagementRegistry
