import Ecdsa.Base58.Standard
import Ecdsa.Verification.Basic

/-!
# Verification in use

Where no other package is named, texts are verified through the one in `Base58.Standard`.
-/

attribute [instance] Ecdsa.Base58.Standard.package
