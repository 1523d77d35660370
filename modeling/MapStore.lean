import MapStore.DataType.Long
import MapStore.Main
import MapStore.Proofs.Overlay
import MapStore.Proofs.Actions
import MapStore.Proofs.Frame
import MapStore.Proofs.Calls
import MapStore.Proofs.Switching
import MapStore.Proofs.Evaluating
import MapStore.Proofs.Ticking
import MapStore.Proofs.Interrupting
import MapStore.Proofs.Backing
import MapStore.Proofs.Standing
import MapStore.Proofs.Transparency
import MapStore.Proofs.Absorbing
import MapStore.Proofs.ArtifactNames
import MapStore.Proofs.Codec
import MapStore.Proofs.Recovering
import MapStore.Proofs.NameGrammar
import MapStore.Proofs.Layout
import MapStore.Proofs.Moves
import MapStore.Proofs.UpkeepMoves
import MapStore.Proofs.Keeping
import MapStore.Proofs.EngineMaps
import MapStore.Proofs.Building
import MapStore.Proofs.Faces
import MapStore.Proofs.Registering
import MapStore.Proofs.Snapshots
import MapStore.Proofs.Shutting
import MapStore.Proofs.Stranding
import MapStore.Proofs.Openings
import MapStore.Proofs.Settling
import MapStore.Proofs.Sessions
import MapStore.Proofs.Unasked
import MapStore.Proofs.Restarting
import MapStore.Proofs.Lingering
import MapStore.Proofs.Footprint
import MapStore.Proofs.Upholding
import MapStore.Proofs.Numbering
import MapStore.Proofs.Framing
import MapStore.Proofs.Damage
import MapStore.Proofs.Refusing
import MapStore.Proofs.Retiring
import MapStore.Proofs.UnsavedChanges
import MapStore.Proofs.SingleCalls
import MapStore.Proofs.Stocking
import MapStore.Proofs.Answering
import MapStore.Proofs.Listing
import MapStore.Proofs.Issuing
import MapStore.Proofs.Admitting
import MapStore.Proofs.Sequencing
import MapStore.Proofs.Metering
import MapStore.Proofs.Quiescing
import MapStore.Proofs.Equipping
import MapStore.Proofs.Tallying
import MapStore.Proofs.BesideFaulty
import MapStore.Proofs.Depositing
import MapStore.Proofs.Visiting
import MapStore.Proofs.NumberOrder
import MapStore.Proofs.Options
import MapStore.Proofs.Shares
import MapStore.Proofs.Weighing
import MapStore.Proofs.Histories
