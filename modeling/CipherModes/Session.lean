import CipherModes.Backend.Interposed
import CipherModes.Backend.Recorded
import CipherModes.Token.Lengths
import CipherModes.Workspace.Perform

/-!
# Sessions

A session is a workspace over a token that a plan stands in front of, with a
record of all calls. Each command is answered together with the counters of the
token and the calls that the command made.
-/

set_option autoImplicit false

namespace CipherModes

/-- A token behind a plan, with a record of calls. -/
abbrev SessionState := Recorded (Interposed Token)

structure Session where
  plan : Plan
  workspace : Workspace SessionState

namespace Session

def backend (session : Session) : Backend SessionState :=
  (Token.backend.interposed session.plan).recorded

def start (plan : Plan) (token : Token) : Session where
  plan
  workspace := .fresh { inner := { inner := token } }

def token (session : Session) : Token := session.workspace.backend.inner.inner

def calls (session : Session) : List Call := session.workspace.backend.events.map (·.call)

def forgetCalls (session : Session) : Session :=
  { session with
    workspace :=
      { session.workspace with
        backend := { session.workspace.backend with events := [] } } }

/-- Performs a command and keeps a record of its calls alone. -/
def perform (command : Command) (session : Session) : Response × Session :=
  let session := session.forgetCalls
  let (response, workspace) := Workspace.perform session.backend command session.workspace
  (response, { session with workspace })

/-- Drops all objects and keeps a record of the calls that this takes. -/
def finish (session : Session) : Session :=
  let session := session.forgetCalls
  { session with workspace := (Workspace.dropAll session.backend session.workspace).2 }

end Session

end CipherModes
