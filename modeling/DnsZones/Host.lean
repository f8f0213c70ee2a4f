import DnsZones.Plugin

/-!
# The Host

The machine on which zones are generated.

Generating zones reads and writes files, asks the clock for the date and talks to
running plugins. `Host` has all of it as one value, so that an operation on the
host is a function. It also keeps a journal of what plugins were asked, which is
how one sees what a run did.

## Main definitions

* `Connection`: What the host knows of a running plugin.
* `Host`: Files, clock, running plugins and journal.
* `Host.tick`: The clock goes on.
* `Host.onConnection`: An exchange with one of the running plugins.
-/

namespace DnsZones

/-- A running plugin as the host knows it. -/
structure Connection where
  channel : Channel
  /-- The configuration that the plugin last confirmed, unless another was tried since. -/
  configured : Option Config := none

/-- A program that was started. -/
structure Process where
  /-- The name of the file that it was started from. -/
  name : String
  /-- What connects it to the host. -/
  connection : Connection

/-- Files, clock, running programs and journal. -/
structure Host where
  store : Store := {}
  /-- The date that the clock gives at the next allocation of a serial number. -/
  today : Date := default
  /-- The dates that it gives at the allocations after that, in order. The last one stays. -/
  laterDates : List Date := []
  /-- The programs that were started, in order. -/
  processes : List Process := []
  /-- What plugins were asked, in order: the plugin's name and the question. -/
  journal : List (String × Json) := []

namespace Host

/-- The host when an allocation is over. -/
def tick (host : Host) : Host :=
  match host.laterDates with
  | [] => host
  | date :: later => { host with today := date, laterDates := later }

/-- The messages that were written to a channel between two moments. -/
def messagesSince (before after : Channel) : List Json :=
  let written := after.written.extract before.written.size after.written.size
  (Channel.frames written).1.filterMap fun message =>
    (String.fromUTF8? message).map fun text => (Json.Document.read text).value

/-- Exchange messages with one of the programs that were started, and note in the journal
    what it was asked. -/
def onConnection {α : Type} (host : Host) (index : Nat)
    (exchange : Connection → Except PluginError α × Connection) : Except PluginError α × Host :=
  match host.processes[index]? with
  | none => (.error (.transport .closed), host)
  | some process =>
    let (result, after) := exchange process.connection
    let asked := (messagesSince process.connection.channel after.channel).map (process.name, ·)
    (result, { host with
      processes := host.processes.set index { process with connection := after }
      journal := host.journal ++ asked })

/-- Note a question in the journal. -/
def note (host : Host) (name : String) (question : Json) : Host :=
  { host with journal := host.journal ++ [(name, question)] }

end Host

end DnsZones
