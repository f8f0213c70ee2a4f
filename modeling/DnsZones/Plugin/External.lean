import DnsZones.Host
import DnsZones.Store.Program

/-!
# External Plugins

Plugins that run as programs of their own.

The host starts the program, agrees with it on the version of the protocol, and
from then on asks it one thing at a time. A program can serve several zones with
different configurations, so the host remembers the configuration that the
program last confirmed, and sends the right one before a question that depends on
it. As soon as a configuration is sent the earlier one is forgotten; only a
confirmation is remembered, so an exchange that goes wrong in the middle leaves
nothing remembered that the program may not have.

## Main definitions

* `Connection.call`, `Connection.configure`, `Connection.callConfigured`: Exchanges.
* `Connection.handshake`: The agreement on the version.
* `External.plugin`: The plugin behind a connection.
* `Host.spawn`: Starting a program.
-/

namespace DnsZones

/-- An exchange with a running plugin. -/
abbrev Exchange (α : Type) := Connection → Except PluginError α × Connection

namespace Connection

/-- Ask something. A refusal is the plugin's own error. -/
def call (request : Request) : Exchange Response := fun connection =>
  match connection.channel.call request with
  | (.error error, channel) => (.error (.transport error), { connection with channel := channel })
  | (.ok (.error message), channel) =>
    (.error (.rejected message), { connection with channel := channel })
  | (.ok response, channel) => (.ok response, { connection with channel := channel })

/-- The error of a response that the request does not allow. -/
def unexpected (request : Request) (response : Response) : PluginError :=
  .transport (.unexpected request.method response.kind)

/-- Send a configuration and remember it once it is confirmed. -/
def configure (config : Config) : Exchange Unit := fun connection =>
  match call (.configure config) { connection with configured := none } with
  | (.error error, after) => (.error error, after)
  | (.ok .configured, after) => (.ok (), { after with configured := some config })
  | (.ok other, after) => (.error (unexpected (.configure config) other), after)

/-- Whether a configuration is the one that the plugin last confirmed. -/
def hasConfig (connection : Connection) (config : Config) : Bool :=
  match connection.configured with
  | some confirmed => confirmed.same config
  | none => false

/-- Ask something that depends on the configuration. -/
def callConfigured (config : Config) (request : Request) : Exchange Response :=
  fun connection =>
    if connection.hasConfig config then call request connection
    else
      match configure config connection with
      | (.error error, after) => (.error error, after)
      | (.ok (), after) => call request after

/-- Continue with the response that a request allows. -/
def expect {α : Type} (request : Request) (wanted : Response → Option α) :
    Except PluginError Response × Connection → Except PluginError α × Connection
  | (.error error, after) => (.error error, after)
  | (.ok response, after) =>
    match wanted response with
    | some value => (.ok value, after)
    | none => (.error (unexpected request response), after)

/-- Ask for the record types. -/
def types : Exchange (List RecordType) := fun connection =>
  expect .types
    (fun | .types handled => some handled
         | _ => none)
    (call .types connection)

/-- Have a record normalized. -/
def normalize (config : Config) (zone identifier : String) (record : Record) : Exchange Record :=
  fun connection =>
    let request := .normalize zone identifier record
    expect request
      (fun | .normalized record => some record
           | _ => none)
      (callConfigured config request connection)

/-- Have a zone validated, under its own configuration if it has one. -/
def validateZone (name : String) (zone : Zone) : Exchange Unit := fun connection =>
  let request := .validateZone name zone
  expect request
    (fun | .validated => some ()
         | _ => none)
    (match zone.config with
      | some config => callConfigured config request connection
      | none => call request connection)

/-- Have a record written. -/
def render (config : Config) (identifier : String) (record : Record) : Exchange String :=
  fun connection =>
    let request := .render identifier record
    expect request
      (fun | .rendered text => some text
           | _ => none)
      (callConfigured config request connection)

/-- Agree on the version of the protocol, and learn the plugin's own. -/
def handshake (connection : Connection) : Except TransportError String × Connection :=
  match connection.channel.call .version with
  | (.error error, channel) => (.error error, { connection with channel := channel })
  | (.ok (.version protocol version), channel) =>
    (if protocol = protocolVersion then .ok version else .error (.versionMismatch protocol),
      { connection with channel := channel })
  | (.ok other, channel) =>
    (.error (.unexpected Request.version.method other.kind), { connection with channel := channel })

end Connection

namespace External

/-- What a program that was just started is at the other end of a channel. -/
def peer : Program → Peer
  | .answers replies => .program replies
  | .mute => .ended

/-- The plugin behind one of the programs that were started. -/
def plugin (index : Nat) (version : String) : Plugin Host where
  version := fun host => (.ok version, host)
  types := fun host => host.onConnection index Connection.types
  configure := fun config host => host.onConnection index (Connection.configure config)
  normalize := fun config zone identifier record host =>
    host.onConnection index (Connection.normalize config zone identifier record)
  validateZone := fun name zone host =>
    host.onConnection index (Connection.validateZone name zone)
  render := fun config identifier record host =>
    host.onConnection index (Connection.render config identifier record)

end External

namespace Host

/-- Start a program. Gives its number among the programs that were started. -/
def spawn (host : Host) (path : Path) : Except SystemError (Nat × Host) :=
  match host.store.programAt path with
  | .error error => .error error
  | .ok program =>
    let process : Process := {
      name := path.fileName?.getD path.text
      connection := { channel := { peer := External.peer program } } }
    .ok (host.processes.length, { host with processes := host.processes ++ [process] })

/-- Agree with a program on the version of the protocol. -/
def handshake (host : Host) (index : Nat) : Except TransportError String × Host :=
  match host.onConnection index fun connection =>
      match connection.handshake with
      | (.ok version, after) => (.ok version, after)
      | (.error error, after) => (.error (.transport error), after) with
  | (.ok version, after) => (.ok version, after)
  | (.error (.transport error), after) => (.error error, after)
  | (.error _, after) => (.error .closed, after)

end Host

end DnsZones
