import CipherModes.Session
import CipherModes.Settings.Toml
import CipherModes.Standalone
import CipherModes.Proofs.Bytes.Numbers
import CipherModes.Proofs.Gcm.Cipher
import CipherModes.Proofs.Gcm.Creation
import CipherModes.Proofs.Gcm.Ordered
import CipherModes.Proofs.Gcm.Destination
import CipherModes.Proofs.Gcm.NonceOrder
import CipherModes.Proofs.Bytes.Blocks
import CipherModes.Proofs.Gcm.CounterMode
import CipherModes.Proofs.Gcm.Padding
import CipherModes.Proofs.Gcm.Counters
import CipherModes.Proofs.Gcm.Galois
import CipherModes.Proofs.Gcm.Matching
import CipherModes.Proofs.Gcm.ReliableCipher
import CipherModes.Proofs.Gcm.Published
import CipherModes.Proofs.Bytes.Alterations
import CipherModes.Proofs.Gcm.OnToken
import CipherModes.Proofs.Token.Calls
import CipherModes.Proofs.Engine.Initialisation
import CipherModes.Proofs.Engine.Coherence
import CipherModes.Proofs.Gcm.Keyed
import CipherModes.Proofs.Gcm.RoundTrip
import CipherModes.Proofs.Gcm.Agreement
import CipherModes.Proofs.Aes.Inverse
import CipherModes.Proofs.Establishing
import CipherModes.Proofs.Cache.Ending
import CipherModes.Proofs.Token.Blocks
import CipherModes.Proofs.Engine.BlockLength
import CipherModes.Proofs.Cbc.Cuts
import CipherModes.Proofs.Cbc.Resuming
import CipherModes.Proofs.Cache.Convergence
import CipherModes.Proofs.Accounts.Session
import CipherModes.Proofs.Token.Outcomes
import CipherModes.Proofs.Token.GivenBack
import CipherModes.Proofs.Token.Ledger
import CipherModes.Proofs.Usage.Runs
import CipherModes.Proofs.Token.LiveKeys
import CipherModes.Proofs.Token.Independence
import CipherModes.Proofs.Settings.RoundTrip
import CipherModes.Proofs.Failures.Modes
import CipherModes.Proofs.Failures.Engine
import CipherModes.Proofs.Failures.Releases
import CipherModes.Proofs.Panics.Guarded
import CipherModes.Proofs.Panics.Chaining
import CipherModes.Proofs.Panics.Blockwise
import CipherModes.Proofs.Panics.Sealing
import CipherModes.Proofs.Panics.Operations
import CipherModes.Proofs.Attempts.Likewise
import CipherModes.Proofs.Attempts.Twins
import CipherModes.Proofs.Attempts.Planned
import CipherModes.Proofs.Attempts.Setup
import CipherModes.Proofs.Attempts.Obtaining
import CipherModes.Proofs.Attempts.Importing
import CipherModes.Proofs.Attempts.Creating
import CipherModes.Proofs.Attempts.Repeating
import CipherModes.Proofs.Attempts.Forgotten
import CipherModes.Proofs.Histories.Runs
import CipherModes.Proofs.Gcm.Tampering
import CipherModes.Proofs.Gcm.Verification
import CipherModes.Proofs.Gcm.LeastNonce
import CipherModes.Proofs.Engine.Admission
import CipherModes.Proofs.Gcm.Choice
import CipherModes.Proofs.Text.Wide
import CipherModes.Proofs.Token.Modes
import CipherModes.Proofs.Token.BlockByBlock
import CipherModes.Proofs.Cbc.Restarting
import CipherModes.Proofs.Token.Properties
