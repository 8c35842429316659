import Keyring.Config.Json
import Keyring.Names
import Keyring.Record.Json
import Keyring.Signature.Ed25519
import Keyring.Simulation.Run
import Keyring.Proofs.Overlap
import Keyring.Proofs.GracePeriod
import Keyring.Proofs.Debounce
import Keyring.Proofs.NewestFirst
import Keyring.Proofs.AuditTrail
import Keyring.Proofs.Calendar
import Keyring.Proofs.TimeText
import Keyring.Proofs.ConfigText
import Keyring.Proofs.RecordText
import Keyring.Proofs.Aftermath
import Keyring.Proofs.Authorization
import Keyring.Proofs.Concealment
import Keyring.Proofs.Deletions
import Keyring.Proofs.Renewal
import Keyring.Proofs.Denials
import Keyring.Proofs.UnusableKeys
import Keyring.Proofs.BearerHeader
import Keyring.Proofs.ListingOrder
import Keyring.Proofs.Simulated
