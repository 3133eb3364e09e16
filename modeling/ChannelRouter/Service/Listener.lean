import ChannelRouter.AdminEndpoint
import ChannelRouter.Service.Events

/-!
# Listening for participants

The listener accepts the peers that connect, in their order, and the service
serves them.  When an accept fails, the failure is counted and the listener
pauses; peers that connect meanwhile wait, and what they send is kept for them.

A reporter publishes the router's size when it is started and then once per
period.
-/

namespace ChannelRouter

/-- The number of a client, in the order in which they connected. -/
abbrev ClientId := ConnectionId

/-- A client that waits to be accepted. -/
structure Arrival where
  client : ClientId
  outlet : Outlet
  /-- What it has sent, the oldest first. -/
  sent : List (List UInt8)
  /-- Whether it sends nothing more. -/
  hungUp : Bool
deriving DecidableEq, Repr

/-- A reporter: when it is due, and its period. -/
structure Reporter where
  due : Nat
  period : Nat
deriving DecidableEq, Repr

namespace Reporter

/-- A reporter that was due, due again at the next whole period after now. -/
def renew (reporter : Reporter) (now : Nat) : Reporter :=
  { reporter with
    due := reporter.due + reporter.period *
      ((now - reporter.due) / reporter.period + 1) }

end Reporter

/-- A service with a listener in front of it. -/
structure Listener where
  service : Service
  /-- Whether participants can connect. -/
  admitting : Bool
  /-- Whether operators can ask. -/
  administered : Bool
  /-- The clients that wait, the oldest first. -/
  arrivals : List Arrival
  clients : Nat
  /-- Until when nobody is accepted. -/
  pausedUntil : Nat
  /-- How many of the next accepts fail. -/
  failures : Nat
  reporters : List Reporter
deriving DecidableEq, Repr

namespace Listener

/-- How long the listener pauses after a failed accept, in milliseconds. -/
def pause : Nat := 100

/-- A listener to which nobody has connected. -/
def start (service : Service) (admitting administered : Bool) : Listener :=
  ⟨service, admitting, administered, [], 0, 0, 0, []⟩

/-- Change the service. -/
def serve (listener : Listener) (step : Service → Service) : Listener :=
  { listener with service := step listener.service }

/-- Serve a client that has waited. -/
def welcome (service : Service) (arrival : Arrival) : Service :=
  let service := arrival.sent.foldl (·.receiveBytes arrival.client)
    (service.connect arrival.client arrival.outlet)
  if arrival.hungUp then service.hangUp arrival.client else service

/--
Let the next accept fail if it is to fail, and otherwise accept all who wait.
-/
def accept (listener : Listener) : Listener :=
  if listener.service.now < listener.pausedUntil then listener
  else
    match listener.failures with
    | failures + 1 =>
      { listener.serve (·.measure (·.faulted .accept)) with
        failures
        pausedUntil := listener.service.now + pause }
    | 0 =>
      { listener with
        service := listener.arrivals.foldl welcome listener.service
        arrivals := [] }

/-- Let everything happen that is due. -/
def settle (listener : Listener) : Listener :=
  listener.accept.serve Service.settle

/-- A client connects, if participants can. -/
def connect (listener : Listener) (deaf : Bool) : Option ClientId × Listener :=
  if listener.admitting then
    (some listener.clients,
      { listener with
        clients := listener.clients + 1
        arrivals := listener.arrivals ++
          [⟨listener.clients, if deaf then .deaf else .start, [], false⟩] })
  else (none, listener)

/-- Do one thing for a client that waits, and another for one that is served. -/
def onClient (listener : Listener) (client : ClientId)
    (waiting : Arrival → Arrival) (served : Service → Service) : Listener :=
  if listener.arrivals.any (·.client == client) then
    { listener with
      arrivals := listener.arrivals.map fun arrival =>
        if arrival.client = client then waiting arrival else arrival }
  else listener.serve served

/-- Whether anybody reads what a client sends. -/
def hears (listener : Listener) (client : ClientId) : Bool :=
  match listener.arrivals.find? (·.client == client) with
  | some arrival => !arrival.hungUp
  | none => listener.service.isReading client

/-- A client sends bytes. -/
def send (listener : Listener) (client : ClientId) (bytes : List UInt8) :
    Listener :=
  listener.onClient client
    (fun arrival => { arrival with sent := arrival.sent ++ [bytes] })
    (·.receiveBytes client bytes)

/-- A client sends nothing more. -/
def hangUp (listener : Listener) (client : ClientId) : Listener :=
  listener.onClient client (fun arrival => { arrival with hungUp := true })
    (·.hangUp client)

/-- A client sends nothing more and takes nothing more. -/
def sever (listener : Listener) (client : ClientId) : Listener :=
  listener.onClient client
    (fun arrival =>
      { arrival with hungUp := true, outlet := arrival.outlet.sever.outlet })
    fun service => (service.hangUp client).atOutlet client Outlet.sever

/-- A client begins to read. -/
def listen (listener : Listener) (client : ClientId) : Listener :=
  listener.onClient client
    (fun arrival => { arrival with outlet := arrival.outlet.listen.outlet })
    (·.atOutlet client Outlet.listen)

/-- What a client can tell, besides what has reached it. -/
structure View where
  client : ClientId
  /-- The bytes it has of an incomplete frame. -/
  incomplete : Nat
  /-- Whether it has seen the end of what is written to it. -/
  ended : Bool
deriving DecidableEq, Repr

/-- What every client can tell. -/
def views (listener : Listener) : List View :=
  (listener.service.connections.entries.map fun entry =>
      ⟨entry.1, entry.2.outlet.partialBytes, entry.2.outlet.isOver⟩) ++
    listener.arrivals.map fun arrival => ⟨arrival.client, 0, false⟩

/-- The next accept fails. -/
def failAccept (listener : Listener) : Listener :=
  { listener with failures := listener.failures + 1 }

/-- Let the reporters that are due publish. -/
def reportDue (listener : Listener) : Listener :=
  let now := listener.service.now
  if listener.reporters.any (·.due ≤ now) then
    { listener.serve Service.publish with
      reporters := listener.reporters.map fun reporter =>
        if reporter.due ≤ now then reporter.renew now else reporter }
  else listener

/-- Time passes: what is due then happens. -/
def elapse (listener : Listener) (span : Nat) : Listener :=
  (listener.serve (·.elapse span)).reportDue.serve
    (Service.expireReads ∘ Service.failLateWrites)

/-- Start a reporter, which takes a millisecond. -/
def report (listener : Listener) (period : Nat) : Listener :=
  let reporter : Reporter := ⟨listener.service.now + period, period⟩
  { listener.serve Service.publish with
    reporters := listener.reporters ++ [reporter] }.elapse 1

/-- An operator asks, if operators can. -/
def ask (listener : Listener) (method path : String) :
    Option AdminEndpoint.Response :=
  if listener.administered then
    some (AdminEndpoint.respond listener.service.director method path)
  else none

end Listener

end ChannelRouter
