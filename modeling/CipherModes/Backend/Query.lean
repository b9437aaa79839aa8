import CipherModes.Backend.Call

/-!
# Reading and setting properties

Texts, numbers and tables over the bytes that a backend exchanges. A value is
accepted only if the backend says that it wrote all of it.
-/

set_option autoImplicit false

namespace CipherModes.Backend

variable {σ : Type}

def setText (backend : Backend σ) (handle : Handle) (name text : String) :
    ExceptT BackendError (StateM σ) Unit :=
  fun state =>
    let (reply, state) := backend.answer (.setProperty handle name (encodeWide text)) state
    (reply.result, state)

/-- Reads a property that takes exactly `size` bytes. -/
def getExact (backend : Backend σ) (handle : Handle) (name : String) (size : Nat) :
    ExceptT BackendError (StateM σ) Bytes :=
  fun state =>
    let (reply, state) := backend.answer (.getProperty handle name (Bytes.zeros size)) state
    match reply.result with
    | .error error => (.error error, state)
    | .ok written =>
        if written = size then (.ok reply.output, state)
        else (.error ⟨Operation.getProperty.name, .invalidBufferSize⟩, state)

def getWord (backend : Backend σ) (handle : Handle) (name : String) :
    ExceptT BackendError (StateM σ) UInt32 :=
  decodeWord <$> backend.getExact handle name 4

def getKeyLengths (backend : Backend σ) (handle : Handle) :
    ExceptT BackendError (StateM σ) KeyLengths :=
  KeyLengths.decode <$> backend.getExact handle PropertyName.keyLengths KeyLengths.size

end CipherModes.Backend
