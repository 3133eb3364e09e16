import ChannelRouter.Service.Basic

/-!
# What happens to a service

Peers connect, send datagrams or bytes, close, and stop reading or begin to
read; the parent sends datagrams; time passes.  Each event changes the service
and leaves it to `Service.settle` to let the consequences happen.
-/

namespace ChannelRouter

namespace Service

/-- When a peer that is silent from now on is silent for too long. -/
def readDeadline (service : Service) : Option Nat :=
  service.settings.readPatience.map (service.now + ·)

/-- A peer connects and becomes a participant. -/
def connect (service : Service) (id : ConnectionId) (outlet : Outlet) :
    Service :=
  let (participant, director) := service.director.takeId
  ({ service with director := director.register ⟨participant, 1⟩ }.measure
      Metrics.opened).put id
    { participant
      stage := .reading
      reader := .start service.settings.maxDatagram
      outlet
      deadline := service.readDeadline }

/--
A connection receives a datagram, which is queued unless reading has ended.  If
it is refused, reading ends.
-/
def receive (service : Service) (id : ConnectionId) (body : Datagram) :
    Service :=
  match service.connections.get? id with
  | some connection =>
    if connection.stage = .reading then
      let service := service.measure (·.carried .inbound body)
      match service.enqueue ⟨body, some connection.participant⟩ with
      | .ok service => service
      | .error _ => service.endReading id
    else service
  | none => service

/-- Reading a connection fails.  Silence is no fault. -/
def failReading (service : Service) (id : ConnectionId)
    (failure : StreamError) : Service :=
  if service.isReading id then
    (if failure = .timedOut then service
      else service.measure (·.faulted .read)).endReading id
  else service

/-- A connection receives bytes: its complete frames are received one by one. -/
def receiveBytes (service : Service) (id : ConnectionId) (bytes : List UInt8) :
    Service :=
  match service.connections.get? id with
  | none => service
  | some connection =>
    if connection.stage = .reading ∧ bytes ≠ [] then
      let drained :=
        Frame.drain connection.reader.limit (connection.reader.buffer ++ bytes)
      let service := service.put id
        { connection with
          reader := { connection.reader with buffer := drained.rest }
          deadline := service.readDeadline }
      let service := drained.bodies.foldl (·.receive id) service
      match drained.refusal with
      | none => service
      | some cause => service.failReading id (.malformed cause)
    else service

/-- The peer of a connection sends nothing more. -/
def hangUp (service : Service) (id : ConnectionId) : Service :=
  match service.connections.get? id with
  | none => service
  | some connection =>
    match connection.reader.outcome .closed with
    | .ok _ => service.endReading id
    | .error failure => service.failReading id failure

/-- The link to the parent is lost. -/
def loseParent (service : Service) : Service :=
  { service with
    director :=
      { service.director with
        router := service.director.router.updateParent .lose } }

/-- The parent sends a datagram.  If it is refused, the link is lost. -/
def receiveFromParent (service : Service) (body : Datagram) : Service :=
  match service.enqueue ⟨body, none⟩ with
  | .ok service => service
  | .error _ => service.loseParent

/-- Publish the router's size. -/
def publish (service : Service) : Service :=
  service.measure (·.publish service.director.stats)

/-- End the reading of connections that were silent for too long. -/
def expireReads (service : Service) : Service :=
  service.connections.entries.foldl
    (fun service entry =>
      if entry.2.deadline.any (· ≤ service.now) then service.failReading
        entry.1 .timedOut
      else service)
    service

/-- Time passes. -/
def elapse (service : Service) (span : Nat) : Service :=
  { service with now := service.now + span }

/-- Drop every connection that is still served. -/
def abandon (service : Service) : Service :=
  service.connections.values.foldl
    (fun service connection =>
      if connection.stage = .done then service
      else service.measure Metrics.ended)
    service

end Service

end ChannelRouter
