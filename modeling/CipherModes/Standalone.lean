import CipherModes.Cbc
import CipherModes.Gcm.Cipher
import CipherModes.Token.Lengths

/-!
# Single operations

Each operation imports a key into an engine over a token with default settings
and does one piece of work with it. The first error or broken precondition is
the whole answer.
-/

set_option autoImplicit false

namespace CipherModes.Standalone

/-- An operation that may fail or find a precondition broken. -/
abbrev Attempt (α : Type) := ExceptT Fault (StateM (Driven Token)) α

def onEngine {α : Type} (action : Action (Driven Token) α) : Attempt α :=
  (fun state => let (result, state) := action state; (result.mapError .error, state))

/-- An operation on the token that answers with a result and a value. -/
def onToken {α : Type} (action : StateM Token (Except Fault Unit × α)) : Attempt α :=
  fun state =>
    let ((result, value), state) := Caching.onBackend action state
    (result.map fun _ => value, state)

def run {α : Type} (attempt : Attempt α) : Except Fault α :=
  (attempt (.fresh (.fresh .default))).1

def cipher (secret : Bytes) : Attempt AesCipher :=
  onEngine (AesCipher.create Token.backend 0 secret)

/-- Transforms one block into a buffer of zeros: the length of the key in bits,
the buffer, and whether the approved mode of operation is reported. -/
def cryptBlock (direction : Direction) (secret source : Bytes) (size : Nat) :
    Except Fault (UInt32 × Bytes × Bool) :=
  run do
    let cipher ← cipher secret
    let output ← onToken (cipher.cryptBlock Token.backend direction source (Bytes.zeros size))
    let approved ← onEngine (Caching.tryBackend (Driven.fips Token.backend))
    return (cipher.key.bits, output, approved)

/-- Processes parts by one stream, each into a buffer of its length: the
outputs, each with the chaining block after it. -/
def cryptParts (cipher : AesCipher) : Cbc → List Bytes → Attempt (List (Bytes × Bytes))
  | _, [] => return []
  | stream, part :: rest => do
      let (output, stream) ← onToken do
        let (result, output, stream) ←
          stream.crypt (cipher.blockCipher Token.backend) part (Bytes.zeros part.length)
        return (result, output, stream)
      return (output, stream.chain) :: (← cryptParts cipher stream rest)

def cryptStream (direction : Direction) (secret iv : Bytes) (parts : List Bytes) :
    Except Fault (List (Bytes × Bytes)) :=
  run do
    let cipher ← cipher secret
    match Cbc.start cipher.blockSize direction iv with
    | .error precondition => throw (.broken precondition)
    | .ok stream => cryptParts cipher stream parts

/-- Seals or opens one message: whether by one call, and the new buffer. -/
def cryptMessage
    (work : Gcm → (nonce text aad : Bytes) → StateM Token (Except Fault Unit × Bytes))
    (secret : Bytes) (nonceSize tagSize : Nat) (nonce text aad : Bytes) :
    Except Fault (Bool × Bytes) :=
  run do
    let cipher ← cipher secret
    let gcm ← onEngine (Gcm.create Token.backend cipher nonceSize tagSize)
    let output ← onToken (work gcm nonce text aad)
    return (gcm.isNative, output)

def sealMessage (secret : Bytes) (nonceSize tagSize : Nat) (nonce plaintext aad : Bytes) :
    Except Fault (Bool × Bytes) :=
  cryptMessage (fun gcm => gcm.sealInto Token.backend []) secret nonceSize tagSize nonce plaintext
    aad

def openMessage (secret : Bytes) (nonceSize tagSize : Nat) (nonce sealedText aad : Bytes) :
    Except Fault (Bool × Bytes) :=
  cryptMessage (fun gcm => gcm.openInto Token.backend []) secret nonceSize tagSize nonce sealedText
    aad

end CipherModes.Standalone
