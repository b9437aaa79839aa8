import CipherModes.Token.State

/-!
# How a token answers

One function for each kind of call. A call that fails changes neither the token
nor a buffer; arguments are checked before the handle is looked up where the
call takes blocks, a nonce or a tag, and after it otherwise.
-/

set_option autoImplicit false

namespace CipherModes.Token

/-- Lengths are reported as 32-bit numbers. -/
def lengthFits (bytes : Bytes) : Bool := bytes.length < 0x100000000

/-- Opens a provider. It starts in the chained mode. -/
def openProvider (token : Token) (algorithm : String) (flags : ProviderFlags) :
    Reply (.openProvider algorithm flags) × Token :=
  if algorithm ≠ aesAlgorithm ∨ token.settings.disables algorithm then (.fail .notFound, token)
  else if flags.contains .hmac then (.fail .notSupported, token)
  else
    let handle := Handle.issuedAfter token.issued
    (.succeed handle,
      { token with
        issued := token.issued + 1
        providers := token.providers.insert handle .cbc
        providersOpened := token.providersOpened + 1 })

def closeProvider (token : Token) (provider : Handle) : Reply (.closeProvider provider) × Token :=
  if token.keys.entries.any (·.2.provider == provider) then (.fail .invalidParameter, token)
  else
    match token.providers.get? provider with
    | none => (.fail .invalidHandle, token)
    | some _ => (.succeed (), { token with providers := token.providers.erase provider })

/-- Makes a key in the mode that its provider has at this moment. -/
def importKey (token : Token) (provider : Handle) (secret : Bytes) :
    Reply (.importKey provider secret) × Token :=
  match token.providers.get? provider with
  | none => (.fail .invalidHandle, token)
  | some mode =>
      if lengthFits secret then
        match KeyMaterial.ofSecret mode secret with
        | .error status => (.fail status, token)
        | .ok material =>
            let handle := Handle.issuedAfter token.issued
            let key : KeyObject :=
              { provider, bits := UInt32.ofNat (secret.length * 8), material }
            (.succeed handle,
              { token with
                issued := token.issued + 1
                keys := token.keys.insert handle key
                keysImported := token.keysImported + 1 })
      else (.fail .invalidBufferSize, token)

def destroyKey (token : Token) (key : Handle) : Reply (.destroyKey key) × Token :=
  match token.keys.get? key with
  | none => (.fail .invalidHandle, token)
  | some _ => (.succeed (), { token with keys := token.keys.erase key })

def providerProperty (token : Token) (mode : ChainingMode) (name : String) : Option Bytes :=
  if name = PropertyName.keyLengths then some token.settings.keyLengths.encode
  else if name = PropertyName.blockLength then some (encodeWord token.settings.blockLength)
  else if name = PropertyName.chainingMode then some (encodeWide mode.text)
  else none

def keyProperty (key : KeyObject) (name : String) : Option Bytes :=
  if name = PropertyName.keyLength then some (encodeWord key.bits)
  else if name = PropertyName.blockLength then
    some (encodeWord (UInt32.ofNat Aes.blockLength))
  else none

def property (token : Token) (handle : Handle) (name : String) : Except Status Bytes :=
  match token.providers.get? handle, token.keys.get? handle with
  | some mode, _ => (token.providerProperty mode name).elim (.error .notSupported) .ok
  | none, some key => (keyProperty key name).elim (.error .notSupported) .ok
  | none, none => .error .invalidHandle

/-- Writes a property at the front of a buffer that can hold it. -/
def getProperty (token : Token) (handle : Handle) (name : String) (output : Bytes) :
    Reply (.getProperty handle name output) × Token :=
  match token.property handle name with
  | .error status => (.fail status, token)
  | .ok value =>
      if value.length ≤ output.length then
        ({ result := .ok value.length, output := Bytes.overlay value output, tagOutput := [] },
          token)
      else (.fail .bufferTooSmall, token)

/-- Sets the chaining mode of a provider, the one property that can be set. -/
def setProperty (token : Token) (handle : Handle) (name : String) (value : Bytes) :
    Reply (.setProperty handle name value) × Token :=
  match token.providers.get? handle, token.keys.get? handle with
  | none, none => (.fail .invalidHandle, token)
  | none, some _ => (.fail .notSupported, token)
  | some _, _ =>
      if name = PropertyName.chainingMode then
        match (decodeWide? value).bind ChainingMode.ofText? with
        | none => (.fail .notSupported, token)
        | some mode =>
            (.succeed (), { token with providers := token.providers.replace handle mode })
      else (.fail .notSupported, token)

/-- Transforms each block of a whole number of blocks. -/
def cryptBlocks (schedule : Aes.Schedule) (direction : Direction) (input : Bytes) : Bytes :=
  (Bytes.pieces Aes.blockLength (input.length / Aes.blockLength) input).flatMap
    (match direction with
      | .encrypt => schedule.encrypt
      | .decrypt => schedule.decrypt)

def crypt (token : Token) (direction : Direction) (key : Handle) (input output : Bytes) :
    Reply (.crypt direction key input output) × Token :=
  if ¬ lengthFits input ∨ input.length % Aes.blockLength ≠ 0 then
    (.fail .invalidBufferSize, token)
  else if output.length < input.length then (.fail .bufferTooSmall, token)
  else
    match token.keys.get? key with
    | none => (.fail .invalidHandle, token)
    | some ⟨_, _, .sealing _⟩ => (.fail .invalidParameter, token)
    | some ⟨_, _, .blocks schedule⟩ =>
        ({ result := .ok input.length
           output := Bytes.overlay (cryptBlocks schedule direction input) output
           tagOutput := [] },
          token)

def aeadLengths (nonce tag : Bytes) : Bool :=
  nonce.length == Gcm.standardNonceSize && tag.length == Gcm.standardTagSize

def aeadEncrypt (token : Token) (key : Handle) (nonce aad buffer tag : Bytes) :
    Reply (.aeadEncrypt key nonce aad buffer tag) × Token :=
  if ¬ aeadLengths nonce tag then (.fail .invalidParameter, token)
  else if ¬ lengthFits buffer ∨ ¬ lengthFits aad then (.fail .invalidBufferSize, token)
  else
    match token.keys.get? key with
    | none => (.fail .invalidHandle, token)
    | some ⟨_, _, .blocks _⟩ => (.fail .invalidParameter, token)
    | some ⟨_, _, .sealing schedule⟩ =>
        let (ciphertext, computed) := Gcm.sealDetached schedule.encrypt nonce aad buffer
        ({ result := .ok (), output := ciphertext, tagOutput := computed }, token)

def aeadDecrypt (token : Token) (key : Handle) (nonce aad buffer tag : Bytes) :
    Reply (.aeadDecrypt key nonce aad buffer tag) × Token :=
  if ¬ aeadLengths nonce tag then (.fail .invalidParameter, token)
  else if ¬ lengthFits buffer ∨ ¬ lengthFits aad then (.fail .invalidBufferSize, token)
  else
    match token.keys.get? key with
    | none => (.fail .invalidHandle, token)
    | some ⟨_, _, .blocks _⟩ => (.fail .invalidParameter, token)
    | some ⟨_, _, .sealing schedule⟩ =>
        match Gcm.openDetached? schedule.encrypt nonce aad buffer tag with
        | none => (.fail .authTagMismatch, token)
        | some plaintext => ({ result := .ok (), output := plaintext, tagOutput := [] }, token)

def answer : (call : Call) → Token → Reply call × Token
  | .openProvider algorithm flags, token => token.openProvider algorithm flags
  | .closeProvider provider, token => token.closeProvider provider
  | .importKey provider secret, token => token.importKey provider secret
  | .destroyKey key, token => token.destroyKey key
  | .getProperty handle name output, token => token.getProperty handle name output
  | .setProperty handle name value, token => token.setProperty handle name value
  | .crypt direction key input output, token => token.crypt direction key input output
  | .aeadEncrypt key nonce aad buffer tag, token => token.aeadEncrypt key nonce aad buffer tag
  | .aeadDecrypt key nonce aad buffer tag, token => token.aeadDecrypt key nonce aad buffer tag
  | .fipsEnabled, token => (.succeed token.settings.fipsMode, token)

end CipherModes.Token
