import ChannelRouter.Service.Listener
import ChannelRouter.Settings

/-!
# Starting the server

The admin endpoint starts first, if it is enabled, and then the listener for
participants.  What cannot start stops what comes after it.

The addresses that others listen on are given from outside.  Two listeners clash
if their hosts and ports are the same, except that every listener at port zero
gets a port of its own, which nobody is told.
-/

namespace ChannelRouter

/-- Why a server does not start. -/
inductive StartError where
  | badBind (text : String)
  | badAdmin (text : String)
  | bindTaken (address : SocketAddress)
  | adminTaken (address : SocketAddress)
deriving DecidableEq, Repr

namespace StartError

/-- The wording of an error. -/
def message : StartError → String
  | badBind text => "Invalid bind address: " ++ text
  | badAdmin text => "Invalid admin address: " ++ text
  | bindTaken address =>
    "Failed to bind participant listener on " ++ address.text
  | adminTaken address => "Failed to bind admin endpoint on " ++ address.text

end StartError

namespace Settings

/-- Where participants connect. -/
def bindAddress (settings : Settings) : Except StartError SocketAddress :=
  match SocketAddress.parse? settings.director.bind with
  | some address => .ok address
  | none => .error (.badBind settings.director.bind)

/-- Where operators ask. -/
def adminAddress (settings : Settings) : Except StartError SocketAddress :=
  match SocketAddress.parse? settings.admin.bind with
  | some address => .ok address
  | none => .error (.badAdmin settings.admin.bind)

end Settings

/-- What of a server has started, and what stopped the rest. -/
structure Startup where
  /-- Whether the admin endpoint listens. -/
  administered : Bool
  failure : Option StartError
deriving DecidableEq, Repr

namespace Startup

/-- Whether one more listener can have an address. -/
def isFree (taken : List SocketAddress) (address : SocketAddress) : Bool :=
  address.port = 0 || !taken.contains address

/-- Start the admin endpoint, giving the addresses taken afterwards. -/
def admin (settings : Settings) (taken : List SocketAddress) :
    Except StartError (List SocketAddress) :=
  if settings.admin.enabled then do
    let address ← settings.adminAddress
    if isFree taken address then pure (address :: taken)
    else throw (.adminTaken address)
  else pure taken

/-- Start listening for participants. -/
def participants (settings : Settings) (taken : List SocketAddress) :
    Except StartError SocketAddress := do
  let address ← settings.bindAddress
  if isFree taken address then pure address else throw (.bindTaken address)

/-- Start a server while some addresses are taken. -/
def run (settings : Settings) (taken : List SocketAddress) : Startup :=
  match admin settings taken with
  | .error failure => ⟨false, some failure⟩
  | .ok taken =>
    match participants settings taken with
    | .error failure => ⟨settings.admin.enabled, some failure⟩
    | .ok _ => ⟨settings.admin.enabled, none⟩

/--
Whether clients find a listener at its address: port zero is not one of its own.
-/
def isFound (address : Except StartError SocketAddress) : Bool :=
  match address with
  | .ok address => address.port ≠ 0
  | .error _ => false

/-- The server as it is after starting. -/
def listener (settings : Settings) (startup : Startup) : Listener :=
  .start
    (.start settings.service
      (Director.start settings.director.queueCapacity none) (.start false))
    (startup.failure.isNone && isFound settings.bindAddress)
    (startup.administered && isFound settings.adminAddress)

end Startup

end ChannelRouter
