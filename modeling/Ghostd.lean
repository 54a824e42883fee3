import Ghostd.Proofs.Addressbook.Confined
import Ghostd.Proofs.Addressbook.Convert
import Ghostd.Proofs.Addressbook.Expiry
import Ghostd.Proofs.Addressbook.Names
import Ghostd.Proofs.Addressbook.Ranges
import Ghostd.Proofs.Addressbook.Rebuild
import Ghostd.Proofs.Addressbook.ReverseNames
import Ghostd.Proofs.Addressbook.RoundTrip
import Ghostd.Proofs.Addressbook.Routes
import Ghostd.Proofs.Addressbook.Sockets
import Ghostd.Proofs.Addressbook.Suggestions
import Ghostd.Proofs.Handover.Resurrection
import Ghostd.Proofs.Mdns.Convergence
import Ghostd.Proofs.Mdns.Disclosure
import Ghostd.Proofs.Mdns.Ports
import Ghostd.Proofs.Netconfig.Conflicts
import Ghostd.Proofs.Nft.Filter
import Ghostd.Proofs.Replica.FailedPromotion
import Ghostd.Proofs.Replica.Promotion
import Ghostd.Proofs.Replica.Snapshots
import Ghostd.Proofs.Rpc.Boot
