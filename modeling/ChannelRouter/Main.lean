import ChannelRouter.Federation
import ChannelRouter.HttpMessage
import ChannelRouter.Run
import Std.Async.TCP
import Std.Async.Timer
import Std.Sync

/-!
# The program

The outer layer: it reads files and the environment, opens sockets, and turns
what happens on them into events.  One loop takes the events in their order,
applies each to the service, and hands out what becomes visible.  It decides
nothing itself.
-/

namespace ChannelRouter

namespace Program

open Std.Async

/-- Something that happened outside. -/
inductive Event where
  | accepted (socket : TCP.Socket.Client)
  | refused
  | received (connection : ConnectionId) (bytes : List UInt8)
  | hungUp (connection : ConnectionId)
  | unwritten (connection : ConnectionId)
  | fromParent (bytes : List UInt8)
  | parentGone
  | unwrittenToParent
  | asked (socket : TCP.Socket.Client) (request : List UInt8)
  | measured (socket : TCP.Socket.Client)
  | ticked

instance : Inhabited Event := ⟨.ticked⟩

/-- Where the events wait for the loop. -/
abbrev Events := Std.Channel Event

/-- Where the bytes for a peer wait to be written. -/
abbrev Outbox := Std.CloseableChannel ByteArray

/-- What the loop carries from one event to the next. -/
structure Node where
  prepared : Prepared
  events : Events
  service : Service
  /-- How many connections there have been. -/
  connections : Nat
  outboxes : Table ConnectionId Outbox
  parent : Option Outbox
  parentReader : FrameReader
  /-- When the router's size is published again, if it is. -/
  nextReport : Option Nat

/-- How often the loop looks for what is due, in milliseconds. -/
def tick : Nat := 50

/-- How often the router's size is published, in milliseconds. -/
def reportPeriod : Nat := 5000

/-- Write a log record, if it is shown. -/
def log (prepared : Prepared) (record : LogRecord) : IO Unit :=
  if prepared.shows record then do
    IO.println (if prepared.jsonLogs then record.objectText
      else record.plainText)
    (← IO.getStdout).flush
  else pure ()

/-- The address as the system takes it. -/
def systemAddress (address : SocketAddress) : Std.Net.SocketAddress :=
  match address.host with
  | .v4 bytes =>
    let byte := fun index => UInt8.ofNat (bytes.getD index 0)
    .v4 ⟨.ofParts (byte 0) (byte 1) (byte 2) (byte 3),
      UInt16.ofNat address.port⟩
  | .v6 groups _ =>
    let group := fun index => UInt16.ofNat (groups.getD index 0)
    .v6
      ⟨.ofParts (group 0) (group 1) (group 2) (group 3) (group 4) (group 5)
        (group 6) (group 7), UInt16.ofNat address.port⟩

/-- Add an event. -/
def post (events : Events) (event : Event) : Async Unit := do
  discard (events.send event : BaseIO _)

/-- Read a socket to its end, reporting the pieces and the end. -/
partial def readAll (socket : TCP.Socket.Client) (events : Events)
    (received : List UInt8 → Event) (ended : Event) : Async Unit := do
  let piece ← try socket.recv? 8192 catch _ => pure none
  match piece with
  | some bytes =>
    post events (received bytes.toList)
    readAll socket events received ended
  | none => post events ended

/--
Write to a socket all that is for it, reporting a write that fails or takes too
long.
-/
partial def writeAll (socket : TCP.Socket.Client) (events : Events)
    (outbox : Outbox) (patience : Nat) (failed : Event) : Async Unit := do
  let next ← await (← (outbox.recv : BaseIO _))
  match next with
  | none => try socket.shutdown catch _ => pure ()
  | some bytes =>
    let send : Async Bool := do
      try
        socket.send bytes
        pure true
      catch _ => pure false
    let giveUp : Async Bool := do
      sleep (.ofNat patience)
      pure false
    if ← Async.race send
      giveUp then writeAll socket events outbox patience failed
    else post events failed

/-- Accept peers for ever. -/
partial def acceptAll (server : TCP.Socket.Server) (events : Events)
    (accepted : TCP.Socket.Client → Async Unit) : Async Unit := do
  let socket ← try some <$> server.accept catch _ => pure none
  match socket with
  | some socket => accepted socket
  | none =>
    post events .refused
    sleep (.ofNat Listener.pause)
  acceptAll server events accepted

/-- Read the head of a request, as far as it comes. -/
partial def readHead (socket : TCP.Socket.Client) (head : List UInt8) :
    Async (List UInt8) := do
  if HttpMessage.isWhole head || head.length > 65536 then return head
  let piece ← try socket.recv? 8192 catch _ => pure none
  match piece with
  | some bytes => readHead socket (head ++ bytes.toList)
  | none => return head

/-- Look for what is due, for ever. -/
partial def tickAll (events : Events) : Async Unit := do
  sleep (.ofNat tick)
  post events .ticked
  tickAll events

/-- Start something that goes on beside the loop. -/
def start (action : Async Unit) : IO Unit :=
  (background (t := AsyncTask) action).block

/-- Listen at an address, if the system allows it. -/
def listenAt (address : SocketAddress) : IO (Option TCP.Socket.Server) := do
  try
    let server ← TCP.Socket.Server.mk
    server.bind (systemAddress address)
    server.listen 1024
    pure (some server)
  catch _ => pure none

/-- Connect to an address, if somebody answers. -/
def connectTo (text : String) : IO (Option TCP.Socket.Client) := do
  match SocketAddress.parse? text with
  | none => pure none
  | some address =>
    try
      let socket ← TCP.Socket.Client.mk
      (socket.connect (systemAddress address)).block
      pure (some socket)
    catch _ => pure none

/-- Answer on a socket and close it. -/
def reply (socket : TCP.Socket.Client) (bytes : List UInt8) : IO Unit :=
  start do
    try
      socket.send ⟨bytes.toArray⟩
      socket.shutdown
    catch _ => pure ()

/-- Hand out what has become visible, and close what is finished. -/
def Node.emit (node : Node) : IO Node := do
  let (outputs, service) := node.service.settle.collect
  let mut metrics := service.metrics
  for output in outputs do
    match output with
    | .arrived connection body =>
      if let some outbox := node.outboxes.get? connection then
        discard (outbox.send ⟨(Frame.ofBody body).toArray⟩ : BaseIO _)
    | .toParent body =>
      if let some outbox := node.parent then
        discard (outbox.send ⟨(Frame.ofBody body).toArray⟩ : BaseIO _)
        metrics := metrics.carried .toParent body
  let mut outboxes := node.outboxes
  for (id, connection) in service.connections.entries do
    if connection.outlet.stage != .writing then
      if let some outbox := outboxes.get? id then
        try outbox.close catch _ => pure ()
        outboxes := outboxes.erase id
  pure { node with service := { service with metrics }, outboxes }

/-- Make a peer a participant. -/
def Node.join (node : Node) (socket : TCP.Socket.Client) : IO Node := do
  let id := node.connections
  let outbox ← Std.CloseableChannel.new
  start (readAll socket node.events (.received id) (.hungUp id))
  start (writeAll socket node.events outbox node.service.settings.writePatience
    (.unwritten id))
  pure
    { node with
      connections := id + 1
      outboxes := node.outboxes.insert id outbox
      service := node.service.connect id .start }

/-- Queue what the parent sent. -/
def Node.receiveFromParent (node : Node) (bytes : List UInt8) : Node :=
  let drained :=
    Frame.drain node.parentReader.limit (node.parentReader.buffer ++ bytes)
  let service := drained.bodies.foldl
    (fun service body =>
      (service.measure (·.carried .fromParent body)).receiveFromParent body)
    node.service
  let service :=
    if drained.refusal.isSome
      then (service.measure (·.faulted .parentRead)).loseParent
    else service
  { node with
    service
    parentReader := { node.parentReader with buffer := drained.rest } }

/-- Do what is due by now. -/
def Node.expire (node : Node) : Node :=
  let service := node.service.expireReads
  match node.nextReport with
  | none => { node with service }
  | some due =>
    if due ≤ service.now then
      { node with
        service := service.publish
        nextReport := some (service.now + reportPeriod) }
    else { node with service }

/-- Apply an event. -/
def Node.apply (node : Node) : Event → IO Node
  | .accepted socket => node.join socket
  | .refused =>
    pure { node with service := node.service.measure (·.faulted .accept) }
  | .received id bytes =>
    pure { node with service := node.service.receiveBytes id bytes }
  | .hungUp id => pure { node with service := node.service.hangUp id }
  | .unwritten id =>
    pure { node with service := node.service.atOutlet id Outlet.fail }
  | .fromParent bytes => pure (node.receiveFromParent bytes)
  | .parentGone => pure { node with service := node.service.loseParent }
  | .unwrittenToParent =>
    pure { node with service :=
      (node.service.measure (·.faulted .parentWrite)).loseParent }
  | .asked socket request => do
    reply socket (HttpMessage.answer node.service.director request)
    pure node
  | .measured socket => do
    let text := "\n".intercalate node.service.metrics.lines ++ "\n"
    reply socket (HttpMessage.encode "text/plain" ⟨200, text⟩)
    pure node
  | .ticked => pure node.expire

/-- Take events until the parent is lost. -/
partial def loop (began : Nat) (node : Node) : IO UInt32 := do
  let event ← node.events.sync.recv
  let now ← IO.monoMsNow
  let node := { node with service := { node.service with now := now - began } }
  let node ← node.apply event
  let node ← node.emit
  let parent := node.service.director.router.parent
  if (parent.map ParentLink.lost).getD false then
    log node.prepared (Run.unreachable (node.prepared.settings.parent?.getD ""))
    return UInt32.ofNat (Ending.orphaned.status?.getD 1)
  loop began node

/-- End the program, saying why. -/
def finish (ending : Ending) : IO UInt32 := do
  match ending with
  | .exited exit =>
    match exit.output? with
    | some text => IO.print text
    | none => IO.eprintln "error: invalid arguments; try --help"
  | .failed message => IO.eprintln ("Error: " ++ message)
  | .orphaned | .serving _ => pure ()
  return UInt32.ofNat (ending.status?.getD 0)

/-- Start the server and serve. -/
def serve (prepared : Prepared) : IO UInt32 := do
  let settings := prepared.settings
  log prepared (Run.starting settings)
  let events : Events ← Std.Channel.new
  let limit := settings.service.maxDatagram
  let parentSocket ←
    match settings.parent? with
    | none => pure none
    | some parent =>
      match ← connectTo parent with
      | none => return ← finish (.unreached parent)
      | some socket => pure (some socket)
  if settings.admin.enabled then
    match settings.adminAddress with
    | .error error => return ← finish (.failed error.message)
    | .ok address =>
      match ← listenAt address with
      | none =>
        return ← finish (.failed (StartError.adminTaken address).message)
      | some server =>
        start (acceptAll server events fun socket =>
          background (t := AsyncTask) do
            post events (.asked socket (← readHead socket [])))
  match settings.bindAddress with
  | .error error => finish (.failed error.message)
  | .ok address =>
    match ← listenAt address with
    | none => finish (.failed (StartError.bindTaken address).message)
    | some server =>
      start (acceptAll server events fun socket =>
        post events (.accepted socket))
      if settings.metrics.enabled then
        if let some server ← listenAt
          ⟨.v4 [0, 0, 0, 0], settings.metrics.port⟩ then
          start (acceptAll server events fun socket =>
            background (t := AsyncTask) do
              discard (readHead socket [])
              post events (.measured socket))
      let mut parent : Option Outbox := none
      if let some socket := parentSocket then
        let outbox : Outbox ← Std.CloseableChannel.new
        start (readAll socket events .fromParent .parentGone)
        start (writeAll socket events outbox settings.service.writePatience
          .unwrittenToParent)
        parent := some outbox
      start (tickAll events)
      let director := Director.start settings.director.queueCapacity
        (parent.map fun _ => .new)
      let service := Service.start settings.service director (.start true)
      loop (← IO.monoMsNow)
        { prepared, events, service, connections := 0, outboxes := ∅, parent
          parentReader := .start limit
          nextReport := if settings.metrics.enabled then some 0 else none }

/-- The bytes of a file, if it can be read. -/
def readFile? (path : String) : IO (Option (List UInt8)) := do
  try
    pure (some (← IO.FS.readBinFile path).toList)
  catch _ => pure none

/-- Read the arguments, the settings and the environment, and run. -/
def run (arguments : List String) : IO UInt32 := do
  let home := (← IO.getEnv "HOME").getD ""
  let named :=
    match CommandLine.read (name :: arguments) with
    | .ok line => line.config.toList
    | .error _ => []
  let files ← (named ++ Settings.usualPaths home).mapM fun path => do
    pure (path, ← readFile? path)
  let surroundings : Surroundings :=
    { environment := ⟨← IO.getEnv "ASTRON_BIND", ← IO.getEnv "ASTRON_UPSTREAM"⟩
      logDirectives := ← IO.getEnv "RUST_LOG"
      file := fun path => ⟨path, (files.lookup path).getD none⟩
      home }
  match Prepared.read surroundings (name :: arguments) with
  | .ok prepared => serve prepared
  | .error ending => finish ending

end Program

end ChannelRouter

/-- Run the program. -/
def main (arguments : List String) : IO UInt32 :=
  ChannelRouter.Program.run arguments
