import ChannelRouter.Metrics
import ChannelRouter.Service.Outlet
import ChannelRouter.Transport.FrameReader

/-!
# Serving connections

A connection makes its peer a participant.  What the peer sends is queued at the
director, and what the director delivers is written to the peer.  Reading ends
when the peer closes, when it fails, when it is silent for too long, or when the
router asks for it; a failed write asks for it too.  After the end of reading
everything queued so far is dispatched, and then the participant is terminated,
so nothing the peer sent is lost and what it left behind is routed.

`Service.settle` lets everything happen that is due.  It works in rounds: a
round dispatches what is queued and then terminates the connections whose
reading had ended before.
-/

namespace ChannelRouter

/-- The number of a connection, in the order in which they were made. -/
abbrev ConnectionId := Nat

/-- How far the life of a connection has come. -/
inductive ConnectionStage where
  | reading
  /-- Reading has ended, and the participant is still there. -/
  | leaving
  | done
deriving DecidableEq, Repr

/-- A connection to a peer. -/
structure Connection where
  participant : ParticipantId
  stage : ConnectionStage
  reader : FrameReader
  outlet : Outlet
  /-- When the connection was silent for too long. -/
  deadline : Option Nat
deriving DecidableEq, Repr

/-- How connections are served.  Times are in milliseconds. -/
structure ServiceSettings where
  /-- How long a write may take. -/
  writePatience : Nat
  /-- How long a peer may be silent, if there is a limit. -/
  readPatience : Option Nat
  /-- The largest body accepted. -/
  maxDatagram : Nat
deriving DecidableEq, Repr

namespace ServiceSettings

/-- What holds unless something else is configured. -/
def standard : ServiceSettings :=
  ⟨FrameWriter.defaultPatience, none, FrameReader.defaultLimit⟩

end ServiceSettings

/-- What becomes visible outside the service. -/
inductive ServiceOutput where
  | arrived (connection : ConnectionId) (body : Datagram)
  | toParent (body : Datagram)
deriving DecidableEq, Repr

/-- A director and the connections to its participants. -/
structure Service where
  settings : ServiceSettings
  director : Director
  metrics : Metrics
  connections : Table ConnectionId Connection
  now : Nat
  /-- What has become visible and was not collected yet, the latest first. -/
  outbox : List ServiceOutput
deriving DecidableEq, Repr

namespace Service

/-- A service without connections. -/
def start (settings : ServiceSettings) (director : Director)
    (metrics : Metrics) : Service :=
  ⟨settings, director, metrics, ∅, 0, []⟩

/-- Hand over what has become visible, the oldest first. -/
def collect (service : Service) : List ServiceOutput × Service :=
  (service.outbox.reverse, { service with outbox := [] })

/-- Replace a connection. -/
def put (service : Service) (id : ConnectionId) (connection : Connection) :
    Service :=
  { service with connections := service.connections.insert id connection }

/-- Count something. -/
def measure (service : Service) (step : Metrics → Metrics) : Service :=
  { service with metrics := step service.metrics }

/-- Whether a connection is still read. -/
def isReading (service : Service) (id : ConnectionId) : Bool :=
  match service.connections.get? id with
  | some connection => connection.stage = .reading
  | none => false

/-- End the reading of a connection. -/
def endReading (service : Service) (id : ConnectionId) : Service :=
  match service.connections.get? id with
  | some connection =>
    if connection.stage =
      .reading then service.put id { connection with stage := .leaving }
    else service
  | none => service

/-- Take over what an operation on a connection's outlet brought about. -/
def absorbEffect (service : Service) (id : ConnectionId)
    (connection : Connection) (effect : OutletEffect) : Service :=
  let counted :=
    effect.written.foldl (fun metrics body => metrics.carried .outbound body)
    service.metrics
  let service :=
    { service with
      metrics := if effect.failed then counted.faulted .write else counted
      outbox := (effect.arrived.map (ServiceOutput.arrived id)).reverse ++
        service.outbox
      connections :=
        service.connections.insert id
          { connection with outlet := effect.outlet } }
  if effect.failed then service.endReading id else service

/-- Do something to a connection's outlet. -/
def atOutlet (service : Service) (id : ConnectionId)
    (operation : Outlet → OutletEffect) : Service :=
  match service.connections.get? id with
  | some connection =>
    service.absorbEffect id connection (operation connection.outlet)
  | none => service

/-- The connection of a participant. -/
def connectionOf? (service : Service) (id : ParticipantId) :
    Option ConnectionId :=
  (service.connections.entries.find? (·.2.participant == id)).map Prod.fst

/-- Take over one consequence of routing. -/
def absorbOutput (service : Service) : Output → Service
  | .toParent body =>
    { service with outbox := .toParent body :: service.outbox }
  | .deliver receiver body =>
    match service.connectionOf? receiver.id with
    | some id =>
      service.atOutlet id
        (·.write (service.now + service.settings.writePatience) body)
    | none => service
  | .expel participant _ =>
    match service.connectionOf? participant.id with
    | some id => service.endReading id
    | none => service

/-- Fail the writes that have waited too long. -/
def failLateWrites (service : Service) : Service :=
  service.connections.keys.foldl
    (fun service id => service.atOutlet id (·.expire service.now)) service

/-- Take over a director and the consequences of what it did. -/
def absorb (service : Service) (emitting : Emitting Director) : Service :=
  (emitting.outputs.foldl absorbOutput
    { service with director := emitting.value }).failLateWrites

/-- Dispatch everything that is queued. -/
def dispatch (service : Service) : Service :=
  service.absorb service.director.dispatch

/-- Queue a datagram, unless the director refuses it. -/
def enqueue (service : Service) (queued : Queued) :
    Except RoutingError Service :=
  (service.director.enqueue queued).map service.absorb

/-- Terminate the participant of a connection that has left. -/
def retire (service : Service) (id : ConnectionId) : Service :=
  match service.connections.get? id with
  | none => service
  | some connection =>
    let service := service.absorb
      (Prod.fst <$> service.director.terminate connection.participant)
    match service.connections.get? id with
    | none => service
    | some connection =>
      (service.put id
        { connection with stage := .done, outlet :=
          connection.outlet.finish }).measure Metrics.ended

/-- The connections whose reading has ended and whose participant is there. -/
def leaving (service : Service) : List ConnectionId :=
  (service.connections.entries.filter (·.2.stage = .leaving)).map Prod.fst

/-- Dispatch, and then terminate the connections that had left before. -/
def round (service : Service) : Service :=
  service.leaving.foldl retire service.dispatch

/-- So many rounds. -/
def rounds : Nat → Service → Service
  | 0, service => service
  | count + 1, service => rounds count service.round

/--
Let everything happen that is due.  Every round but the first and the last
terminates a connection, which bounds their number.
-/
def settle (service : Service) : Service :=
  service.rounds (service.connections.size + 2)

end Service

end ChannelRouter
