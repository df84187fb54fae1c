import Billfold.Entry.Review
import Billfold.Proofs.Card.Defined
import Billfold.Proofs.Card.Payment
import Billfold.Proofs.Card.Tiling
import Billfold.Proofs.Card.Window
import Billfold.Proofs.Entry.Codec
import Billfold.Proofs.Plan.Boundary
import Billfold.Proofs.Plan.Complete
import Billfold.Proofs.Plan.Excess
import Billfold.Proofs.Plan.Fair
import Billfold.Proofs.Session.Atomic
import Billfold.Proofs.Session.Attached
import Billfold.Proofs.Session.Billed
import Billfold.Proofs.Session.Bills
import Billfold.Proofs.Session.Conserve
import Billfold.Proofs.Session.Counted
import Billfold.Proofs.Session.Direction
import Billfold.Proofs.Session.Duplicate
import Billfold.Proofs.Session.Frame
import Billfold.Proofs.Session.Lock
import Billfold.Proofs.Session.Merge
import Billfold.Proofs.Session.Periods
import Billfold.Proofs.Session.Turned
