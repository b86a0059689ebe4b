import Hostcall.Call
import Hostcall.Embedder
import Hostcall.Listing.Records
import Hostcall.Neighbours
import Hostcall.Proofs.Appending
import Hostcall.Proofs.Bindings
import Hostcall.Proofs.Building
import Hostcall.Proofs.Chunks
import Hostcall.Proofs.Confinement
import Hostcall.Proofs.Conservation
import Hostcall.Proofs.Contexts
import Hostcall.Proofs.Directions
import Hostcall.Proofs.DirectoryPaths
import Hostcall.Proofs.EntryCalls
import Hostcall.Proofs.FailedTransfers
import Hostcall.Proofs.Filling
import Hostcall.Proofs.Independence
import Hostcall.Proofs.LexicalWalk
import Hostcall.Proofs.Lifecycle
import Hostcall.Proofs.Nesting
import Hostcall.Proofs.Noninterference
import Hostcall.Proofs.OpenEffects
import Hostcall.Proofs.Opening
import Hostcall.Proofs.Ownership
import Hostcall.Proofs.Placement
import Hostcall.Proofs.Preopens
import Hostcall.Proofs.ReadBack
import Hostcall.Proofs.Refusals
import Hostcall.Proofs.Removals
import Hostcall.Proofs.Replays
import Hostcall.Proofs.Rights
import Hostcall.Proofs.Roots
import Hostcall.Proofs.SharedReads
import Hostcall.Proofs.SharedWrites
import Hostcall.Proofs.Slashes
import Hostcall.Proofs.StringLimits
import Hostcall.Proofs.Tightness
import Hostcall.Proofs.TimeCalls
import Hostcall.Proofs.TimeConversions
import Hostcall.Proofs.TrailingSlash
import Hostcall.Proofs.Transition
import Hostcall.Proofs.Traps
