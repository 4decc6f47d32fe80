import RemoteTree.Bytes.Lemmas
import RemoteTree.Client.Step
import RemoteTree.Host.Directory
import RemoteTree.Main
import RemoteTree.Proofs.Client.Advancing
import RemoteTree.Proofs.Client.Deeds
import RemoteTree.Proofs.Client.DirectoryAtOnce
import RemoteTree.Proofs.Client.Finite
import RemoteTree.Proofs.Client.Following
import RemoteTree.Proofs.Client.Lifecycle
import RemoteTree.Proofs.Client.PlainLines
import RemoteTree.Proofs.Client.Printing
import RemoteTree.Proofs.Client.Transfer
import RemoteTree.Proofs.Client.WholeListing
import RemoteTree.Proofs.Program
import RemoteTree.Proofs.Stat.Framing
import RemoteTree.Proofs.Stat.Indexed
import RemoteTree.Proofs.Stat.Message
import RemoteTree.Proofs.Stat.Shortfalls
import RemoteTree.Proofs.Tape.Cursors
import RemoteTree.Proofs.Tape.Order
import RemoteTree.Proofs.Tape.Rerecording
import RemoteTree.Proofs.Tape.Values
import RemoteTree.Proofs.Tree.Accounts
import RemoteTree.Proofs.Tree.Apart
import RemoteTree.Proofs.Tree.Declared
import RemoteTree.Proofs.Tree.DirectoryReads
import RemoteTree.Proofs.Tree.Identity
import RemoteTree.Proofs.Tree.InTime
import RemoteTree.Proofs.Tree.Insertion
import RemoteTree.Proofs.Tree.Overwriting
import RemoteTree.Server.Script
