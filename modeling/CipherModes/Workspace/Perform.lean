import CipherModes.Workspace.Command
import CipherModes.Workspace.State

/-!
# Performing commands

One function for each group of commands. A command that makes an object names
it only after it was made; a command that names an object of the wrong sort
does nothing.
-/

set_option autoImplicit false

namespace CipherModes.Workspace

variable {σ α : Type}

/-- Runs an operation on the backend that may fail. -/
def attempt (action : Action σ α) (respond : α → StateM (Workspace σ) Response) :
    StateM (Workspace σ) Response := do
  match ← onBackend action with
  | .error error => return .failed (.error error)
  | .ok value => respond value

/-- Runs an operation on an engine that may fail. -/
def attemptEngine (engine : EngineId) (action : Action (Driven σ) α)
    (respond : α → StateM (Workspace σ) Response) : StateM (Workspace σ) Response := do
  match ← onEngine engine action with
  | none => return .noSuchItem
  | some (.error error) => return .failed (.error error)
  | some (.ok value) => respond value

/-- The object of a name, for a response that may refuse its sort. -/
def withItem (name : String) (respond : Item → StateM (Workspace σ) Response) :
    StateM (Workspace σ) Response := fun workspace =>
  match workspace.item? name with
  | none => (.noSuchItem, workspace)
  | some item => respond item workspace

def withEngine (name : String) (respond : EngineId → StateM (Workspace σ) Response) :
    StateM (Workspace σ) Response :=
  withItem name fun
    | .engine id => respond id
    | _ => return .noSuchItem

def withCipher (name : String) (respond : AesCipher → StateM (Workspace σ) Response) :
    StateM (Workspace σ) Response :=
  withItem name fun
    | .cipher cipher => respond cipher
    | _ => return .noSuchItem

/-- The provider of a name, opened by itself or acquired from the cache. -/
def withProvider (name : String) (respond : Provider → StateM (Workspace σ) Response) :
    StateM (Workspace σ) Response :=
  withItem name fun
    | .provider provider => respond provider
    | .acquired value => respond value.provider
    | _ => return .noSuchItem

def withStream (name : String) (respond : String → Cbc → StateM (Workspace σ) Response) :
    StateM (Workspace σ) Response :=
  withItem name fun
    | .stream source stream => respond source stream
    | _ => return .noSuchItem

def newStream (backend : Backend σ) (source : String) (direction : Direction) (iv : Bytes)
    (target : String) : StateM (Workspace σ) Response :=
  let start (blockSize : Nat) : StateM (Workspace σ) Response := do
    match Cbc.start blockSize direction iv with
    | .error precondition => return .failed (.broken precondition)
    | .ok stream =>
        store backend target (.stream source stream)
        return .stream stream
  withItem source fun
    | .cipher cipher => start cipher.blockSize
    | .rotating cipher _ => start cipher.blockSize
    | _ => return .noSuchItem

/-- An operation over any block cipher. -/
abbrev CipherOperation (α : Type) := (σ : Type) → BlockCipher σ → StateM σ α

/-- Runs an operation over the cipher of a name, none if there is none. -/
def overCipher (backend : Backend σ) (source : String) (operation : CipherOperation α) :
    StateM (Workspace σ) (Option α) := do
  match (← get).item? source with
  | some (.cipher cipher) => some <$> onBackend (operation σ (cipher.blockCipher backend))
  | some (.rotating cipher made) =>
      let (value, made) := operation Nat cipher.blockCipher made
      update source (.rotating cipher made)
      return some value
  | _ => return none

def onStream (backend : Backend σ) (name : String)
    (operation : Cbc → CipherOperation (Except Fault Unit × Bytes × Cbc)) :
    StateM (Workspace σ) Response :=
  withStream name fun source stream => do
    match ← overCipher backend source (operation stream) with
    | none => return .noSuchItem
    | some (result, buffer, next) =>
        update name (.stream source next)
        return .streamed result (some buffer) next.chain

def restartStream (name : String) (iv : Bytes) : StateM (Workspace σ) Response :=
  withStream name fun source stream => do
    match stream.restart iv with
    | .error precondition => return .streamed (.error (.broken precondition)) none stream.chain
    | .ok next =>
        update name (.stream source next)
        return .streamed (.ok ()) none next.chain

def newRotatingGcm (backend : Backend σ) (cipher : RotatingCipher) (nonceSize tagSize : Nat)
    (target : String) : StateM (Workspace σ) Response := do
  match Gcm.Blockwise.derive cipher.blockCipher nonceSize tagSize 0 with
  | (.error error, _) => return .failed (.error error)
  | (.ok mode, made) =>
      store backend target (.rotatingGcm cipher made mode)
      return .sizes mode.nonceSize mode.tagSize

/-- Turns a GCM into one with ordered nonces. The GCM loses its name at once,
and what it held is given back if it does not have the standard sizes. -/
def orderGcm (backend : Backend σ) (name target : String) : StateM (Workspace σ) Response :=
  withItem name fun
    | .gcm gcm => do
        let _ ← take name
        match Gcm.Ordered.ofGcm gcm with
        | .error error =>
            releaseItem backend (.gcm gcm)
            return .failed (.error error)
        | .ok ordered =>
            store backend target (.ordered ordered)
            return .done
    | _ => return .noSuchItem

/-- The destination that an operation starts from, and the one that it leaves:
a new buffer that replaces the destination does so only if it succeeds. -/
def throughBuffer (replaces : Bool) (destination : Bytes)
    (operation : Bytes → StateM σ (Except Fault Unit × Bytes × α)) :
    StateM σ (Except Fault Unit × Bytes × α) :=
  if replaces then do
    let (result, buffer, rest) ← operation []
    match result with
    | .ok () => return (.ok (), buffer, rest)
    | .error fault => return (.error fault, destination, rest)
  else operation destination

/-- Adds nothing to the result of an operation. -/
def plain (operation : StateM σ (Except Fault Unit × Bytes)) :
    StateM σ (Except Fault Unit × Bytes × Unit) := do
  let (result, buffer) ← operation
  return (result, buffer, ())

def sealMessage (backend : Backend σ) (name : String)
    (destination nonce plaintext aad : Bytes) (replaces : Bool) :
    StateM (Workspace σ) Response :=
  withItem name fun
    | .gcm gcm => do
        let (result, destination, _) ← onBackend <| throughBuffer replaces destination
          fun buffer => plain (gcm.sealInto backend buffer nonce plaintext aad)
        return .sealed result destination none
    | .blockwise cipher mode => do
        let (result, destination) ← onBackend <|
          mode.sealInto (cipher.blockCipher backend) destination nonce plaintext aad
        return .sealed result destination none
    | .rotatingGcm cipher made mode => do
        let ((result, destination), made) :=
          mode.sealInto cipher.blockCipher destination nonce plaintext aad made
        update name (.rotatingGcm cipher made mode)
        return .sealed result destination none
    | .ordered ordered => do
        let (result, destination, next) ← onBackend <| throughBuffer replaces destination
          fun buffer => ordered.sealInto backend buffer nonce plaintext aad
        update name (.ordered next)
        return .sealed result destination (some next.minNext)
    | _ => return .noSuchItem

def openMessage (backend : Backend σ) (name : String)
    (destination nonce sealedText aad : Bytes) (replaces : Bool) :
    StateM (Workspace σ) Response :=
  withItem name fun
    | .gcm gcm => do
        let (result, destination, _) ← onBackend <| throughBuffer replaces destination
          fun buffer => plain (gcm.openInto backend buffer nonce sealedText aad)
        return .sealed result destination none
    | .blockwise cipher mode => do
        let (result, destination) ← onBackend <|
          mode.openInto (cipher.blockCipher backend) destination nonce sealedText aad
        return .sealed result destination none
    | .rotatingGcm cipher made mode => do
        let ((result, destination), made) :=
          mode.openInto cipher.blockCipher destination nonce sealedText aad made
        update name (.rotatingGcm cipher made mode)
        return .sealed result destination none
    | .ordered ordered => do
        let (result, destination, _) ← onBackend <| throughBuffer replaces destination
          fun buffer => plain (ordered.openInto backend buffer nonce sealedText aad)
        return .sealed result destination (some ordered.minNext)
    | _ => return .noSuchItem

/-- A short text about a cache over a backend. -/
def describeCache (backend : Backend σ) (state : σ) (size : Nat) : String :=
  "ProviderCache \x7b backend: " ++ backend.describe state ++ ", entries: " ++ toString size ++
    " \x7d"

def describeItem? (backend : Backend σ) (workspace : Workspace σ) : Item → Option String
  | .engine id =>
      (workspace.engineCache? id).map fun cache =>
        "Engine \x7b providers: " ++ describeCache backend workspace.backend cache.size ++ " \x7d"
  | .cipher cipher => some cipher.describe
  | .stream _ stream => some stream.describe
  | .gcm gcm => some gcm.describe
  | .ordered ordered => some ordered.describe
  | .provider provider => some provider.describe
  | .acquired value => some value.provider.describe
  | .key key => some key.describe
  | .rotating .. | .blockwise .. | .rotatingGcm .. => none

def perform (backend : Backend σ) : Command → StateM (Workspace σ) Response
  | .call call => do
      let reply ← onBackend (backend.call call)
      return .replied call reply
  | .setText handle name text =>
      attempt (.ofCall (backend.setText handle name text)) fun _ => return .done
  | .getWord handle name =>
      attempt (.ofCall (backend.getWord handle name)) fun word => return .number word.toNat
  | .getKeyLengths handle =>
      attempt (.ofCall (backend.getKeyLengths handle)) fun lengths => return .lengths lengths
  | .newEngine target => do
      let id := (← get).nextEngine
      modify fun workspace =>
        { workspace with
          engines := workspace.engines ++ [(id, .empty)]
          nextEngine := id + 1 }
      store backend target (.engine id)
      return .done
  | .cloneEngine engine target =>
      withEngine engine fun id => do
        store backend target (.engine id)
        return .done
  | .engineOf cipher target =>
      withCipher cipher fun cipher => do
        store backend target (.engine cipher.engine)
        return .done
  | .countCached engine =>
      withEngine engine fun id => do
        match (← get).engineCache? id with
        | none => return .noSuchItem
        | some cache => return .number cache.size
  | .fips engine =>
      withEngine engine fun _ =>
        attempt (Driven.fips backend) fun approved => return .truth approved
  | .newCipher engine secret target =>
      withEngine engine fun id =>
        attemptEngine id (AesCipher.create backend id secret) fun cipher => do
          store backend target (.cipher cipher)
          return .cipher cipher
  | .cryptBlock direction cipher source destination =>
      withCipher cipher fun cipher => do
        let (result, destination) ← onBackend <|
          cipher.cryptBlock backend direction source destination
        return .block result destination
  | .newRotating cipher target => do
      store backend target (.rotating cipher 0)
      return .done
  | .newStream cipher direction iv target => newStream backend cipher direction iv target
  | .cryptStream stream source destination =>
      onStream backend stream fun stream _ cipher => stream.crypt cipher source destination
  | .cryptStreamInPlace stream buffer =>
      onStream backend stream fun stream _ cipher => stream.cryptInPlace cipher buffer
  | .restartStream stream iv => restartStream stream iv
  | .inspectStream stream => withStream stream fun _ stream => return .stream stream
  | .newGcm cipher nonceSize tagSize target =>
      withCipher cipher fun cipher =>
        attemptEngine cipher.engine (Gcm.create backend cipher nonceSize tagSize) fun gcm => do
          store backend target (.gcm gcm)
          return .gcm gcm
  | .newBlockwise engine secret nonceSize tagSize target =>
      withEngine engine fun id =>
        attemptEngine id (Gcm.createBlockwise backend id secret nonceSize tagSize)
          fun (cipher, mode) => do
            store backend target (.blockwise cipher mode)
            return .sizes mode.nonceSize mode.tagSize
  | .newRotatingGcm cipher nonceSize tagSize target =>
      newRotatingGcm backend cipher nonceSize tagSize target
  | .newOrdered cipher target =>
      withCipher cipher fun cipher =>
        attemptEngine cipher.engine (Gcm.Ordered.create backend cipher) fun ordered => do
          store backend target (.ordered ordered)
          return .ordered ordered
  | .orderGcm gcm target => orderGcm backend gcm target
  | .sealMessage gcm destination nonce plaintext aad replaces =>
      sealMessage backend gcm destination nonce plaintext aad replaces
  | .openMessage gcm destination nonce sealedText aad replaces =>
      openMessage backend gcm destination nonce sealedText aad replaces
  | .newProvider algorithm flags target =>
      attempt (Provider.acquire backend algorithm flags) fun provider => do
        store backend target (.provider provider)
        return .text provider.algorithm
  | .setProviderText provider name text =>
      withProvider provider fun provider =>
        attempt (provider.setText backend name text) fun _ => return .done
  | .getProviderWord provider name =>
      withProvider provider fun provider =>
        attempt (provider.getWord backend name) fun word => return .number word.toNat
  | .getProviderKeyLengths provider =>
      withProvider provider fun provider =>
        attempt (provider.getKeyLengths backend) fun lengths => return .lengths lengths
  | .newKey provider secret target =>
      withProvider provider fun provider =>
        attempt (ImportedKey.acquire backend provider secret) fun key => do
          store backend target (.key key)
          return .key key
  | .acquire key script target => do
      match ← onCache (Script.acquireValue backend key script) with
      | none => return .noSuchItem
      | some (.error error) => return .failed (.error error)
      | some (.ok value) =>
          match target with
          | none => pure ()
          | some name => store backend name (.acquired value)
          return .value value
  | .cacheSize => do
      match (← get).cache with
      | none => return .noSuchItem
      | some cache => return .number cache.size
  | .dropCache => do
      dropCache backend
      return .done
  | .drop name => do return .truth (← drop backend name)
  | .describe name =>
      withItem name fun item workspace =>
        match describeItem? backend workspace item with
        | none => (.noSuchItem, workspace)
        | some text => (.text text, workspace)
  | .describeBackend => do return .text (backend.describe (← get).backend)
  | .describeCache => do
      let workspace ← get
      match workspace.cache with
      | none => return .text "None"
      | some cache =>
          return .text ("Some(" ++ describeCache backend workspace.backend cache.size ++ ")")

end CipherModes.Workspace
