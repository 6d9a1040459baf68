import LineStore.Main
import LineStore.Session
import LineStore.Proofs.Delivery
import LineStore.Proofs.Opening
import LineStore.Proofs.Requests
import LineStore.Proofs.Turns
import LineStore.Proofs.InStep
import LineStore.Proofs.Commands
import LineStore.Proofs.SentOnce
import LineStore.Proofs.Store
import LineStore.Proofs.AsMap
import LineStore.Proofs.Fragmentation
import LineStore.Proofs.Phases
import LineStore.Proofs.Lifecycle
import LineStore.Proofs.FaultKinds
import LineStore.Proofs.Renewal
import LineStore.Proofs.Secrecy
import LineStore.Proofs.Receipt
import LineStore.Proofs.Causes
import LineStore.Proofs.Eagerness
import LineStore.Proofs.Arguments
import LineStore.Proofs.FrontEnd
import LineStore.Proofs.Dispatch
import LineStore.Proofs.RoundTrip
import LineStore.Proofs.Establishment
import LineStore.Proofs.Decoding
import LineStore.Proofs.ReplyLines
import LineStore.Proofs.Story
import LineStore.Proofs.Balance
import LineStore.Proofs.Layouts
import LineStore.Proofs.Bounds
