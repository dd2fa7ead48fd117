import Ecdsa.Hasher
import Ecdsa.Curve.PointStore
import Ecdsa.Proofs.Curve.Tampering
import Ecdsa.Proofs.LowS
import Ecdsa.Proofs.TextForms
import Ecdsa.Proofs.ByteForms
import Ecdsa.Proofs.HasherRuns
import Ecdsa.Proofs.EntryPoints
import Ecdsa.Proofs.Roles
import Ecdsa.Proofs.Usable
import Ecdsa.Proofs.Curve.Agreement
import Ecdsa.Proofs.Curve.AffineLaw
import Ecdsa.Proofs.Curve.Closure
import Ecdsa.Proofs.Curve.TableSafety
import Ecdsa.Proofs.Curve.Representatives
import Ecdsa.Verification
