import PictureInPicture.Proofs.Buffer.Repacking
import PictureInPicture.Proofs.Config.Variants
import PictureInPicture.Proofs.Geometry.Framing
import PictureInPicture.Proofs.Geometry.Interpolation
import PictureInPicture.Proofs.Geometry.Placement
import PictureInPicture.Proofs.Gpu.Limits
import PictureInPicture.Proofs.Gpu.Negotiation
import PictureInPicture.Proofs.Gpu.PendingErrors
import PictureInPicture.Proofs.Gpu.Programs
import PictureInPicture.Proofs.Gpu.Staging
import PictureInPicture.Proofs.Raster.Centers
import PictureInPicture.Proofs.Raster.Ends
import PictureInPicture.Proofs.Raster.Extent
import PictureInPicture.Proofs.Raster.LogicalImage
import PictureInPicture.Proofs.Raster.Opacity
import PictureInPicture.Proofs.Raster.Orientation
import PictureInPicture.Proofs.Raster.Outline
import PictureInPicture.Proofs.Raster.Safety
import PictureInPicture.Proofs.Raster.Surround
import PictureInPicture.Proofs.Session.Counters
import PictureInPicture.Proofs.Session.Fatality
import PictureInPicture.Proofs.Session.Faults
import PictureInPicture.Proofs.Session.Freshness
import PictureInPicture.Proofs.Session.Gate
import PictureInPicture.Proofs.Session.Interference
import PictureInPicture.Proofs.Session.LatestFrames
import PictureInPicture.Proofs.Session.Ledger
import PictureInPicture.Proofs.Session.Lifecycle
import PictureInPicture.Proofs.Session.Numbering
import PictureInPicture.Proofs.Session.Pictures
import PictureInPicture.Rehearsal
