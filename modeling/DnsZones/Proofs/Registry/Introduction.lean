import DnsZones.Proofs.Channel.Pairing
import DnsZones.Registry.Discovery

/-!
# What a Plugin Tells

The conversation with a plugin that is started, with nothing around it.

Every plugin has a connection of its own, so what it tells about itself does not depend
on the plugins that were started before it, nor on what is registered. `introduce` is
this conversation, and loading a plugin comes to a registration for each type that was
told, or to nothing at all.

A plugin may spell the tags of its types as it likes. They are read into the same
canonical form as every other tag, so that it is the types that are told.

## Main definitions

* `Discovery.introduce`: A plugin is started and tells its version and types.
* `Discovery.declaration`: A message that declares types.

## Theorems

* `Discovery.loadOne_eq`: What loading one plugin comes to.
* `Discovery.decode_declaration`: Which types are declared.
* `Discovery.introduce_of_answers`: A plugin that answers what it should.
-/

namespace DnsZones

namespace Host

/-- An exchange with the program that was started last is one over its own connection, and
    leaves the programs before it alone. -/
theorem onConnection_last {α : Type} (host : Host) (process : Process) (exchange : Exchange α) :
    ∃ journal, { host with processes := host.processes ++ [process] }.onConnection
        host.processes.length exchange
      = ((exchange process.connection).1, { host with
          processes := host.processes
            ++ [{ process with connection := (exchange process.connection).2 }]
          journal := journal }) := by
  have hlast : (host.processes ++ [process])[host.processes.length]? = some process :=
    List.getElem?_concat_length
  refine ⟨({ host with processes := host.processes ++ [process] }.onConnection
    host.processes.length exchange).2.journal, ?_⟩
  simp only [onConnection, hlast, List.set_append_right _ _ (Nat.le_refl _), Nat.sub_self,
    List.set_cons_zero]

/-- So is the agreement on the version. -/
theorem handshake_last (host : Host) (process : Process) :
    ∃ journal, { host with processes := host.processes ++ [process] }.handshake
        host.processes.length
      = (process.connection.handshake.1, { host with
          processes := host.processes
            ++ [{ process with connection := process.connection.handshake.2 }]
          journal := journal }) := by
  unfold handshake
  -- The exchange tells the error as one of a plugin, and it is told back as what it was.
  generalize hexchange : (fun connection : Connection => _) = exchange
  rcases onConnection_last host process exchange with ⟨journal, h⟩
  refine ⟨journal, ?_⟩
  rw [h]
  simp only [← hexchange]
  rcases process.connection.handshake with ⟨error | version, after⟩
  · rfl
  · rfl

end Host

namespace Discovery

open Json

variable {store : Store} {path : Path}

/-! ### One plugin -/

/-- A plugin that was started and told what there is to know about it. -/
structure Introduced where
  path : Path
  version : String
  types : List RecordType
  /-- The program and its connection. -/
  process : Process

/-- Start a plugin and let it tell its version and its types, over a connection of its own. -/
def introduce (store : Store) (path : Path) : Except LoadError Introduced :=
  match store.programAt path with
  | .error cause => .error (.spawn path cause)
  | .ok program =>
    let connection : Connection := { channel := { peer := External.peer program } }
    match connection.handshake with
    | (.error cause, _) => .error (.handshake path cause)
    | (.ok version, greeted) =>
      match Connection.types greeted with
      | (.error cause, _) => .error (.types path cause)
      | (.ok types, told) => .ok ⟨path, version, types, ⟨path.fileName?.getD path.text, told⟩⟩

/-- What loading one plugin comes to. A plugin that fails is not registered, and one that does
    not is registered for the types that it told; the plugins before it stay either way. -/
theorem loadOne_eq (loading : Loading) (path : Path) :
    match introduce loading.host.store path with
    | .error error => ∃ host, loadOne loading path = (.error error, { loading with host := host })
        ∧ loading.host.processes <+: host.processes
    | .ok plugin => ∃ journal notices, loadOne loading path = (.ok (), {
        registry := (loading.registry.adopt (.ofExecutable path)
          (External.plugin loading.host.processes.length plugin.version) plugin.types).1
        host := { loading.host with
          processes := loading.host.processes ++ [plugin.process]
          journal := journal }
        notices := notices }) := by
  rcases loading with ⟨registry, host, notices⟩
  cases hprogram : host.store.programAt path with
  | error cause =>
      have hspawn : host.spawn path = .error cause := by rw [Host.spawn, hprogram]
      simp only [introduce, hprogram, loadOne, hspawn]
      exact ⟨host, rfl, List.prefix_rfl⟩
  | ok program =>
      let connection : Connection := { channel := { peer := External.peer program } }
      let process : Process := ⟨path.fileName?.getD path.text, connection⟩
      have hspawn : host.spawn path = .ok (host.processes.length,
          { host with processes := host.processes ++ [process] }) := by
        rw [Host.spawn, hprogram]
      rcases Host.handshake_last host process with ⟨journal, hhandshake⟩
      simp only [introduce, hprogram, loadOne, hspawn, hhandshake]
      rcases hgreeted : connection.handshake with ⟨error | version, greeted⟩
      · exact ⟨_, rfl, List.prefix_append _ _⟩
      · rcases Host.onConnection_last { host with journal := journal }
          { process with connection := greeted } Connection.types with ⟨journal, htypes⟩
        simp only [External.plugin, process] at htypes ⊢
        simp only [htypes]
        rcases Connection.types greeted with ⟨error | types, told⟩
        · exact ⟨_, rfl, List.prefix_append _ _⟩
        · exact ⟨_, _, rfl⟩

theorem path_of_introduce {plugin : Introduced} (h : introduce store path = .ok plugin) :
    plugin.path = path := by
  unfold introduce at h
  split at h
  · cases h
  · simp only at h
    split at h
    · cases h
    · split at h
      · cases h
      · cases h
        rfl

/-! ### Plugins that answer -/

/-- A message that declares types by their tags. -/
def declaration (tags : List String) : ByteArray :=
  (Json.object [(some "result", .text "types"),
    (some "types", .array (tags.map .text))]).write.toUTF8

/-- The types that are declared are those of the tags, in whatever spelling these are. -/
theorem decode_declaration (tags : List String) :
    Channel.decode (declaration tags) = .ok (.types (tags.map RecordType.ofText)) := by
  have hplain : arePlain 125 (tags.map Json.text) = true := by
    rw [arePlain_iff]
    intro item hm
    rcases List.mem_map.mp hm with ⟨tag, -, rfl⟩
    rfl
  have htagged : Message.tagged "result" (.object [(some "result", .text "types"),
        (some "types", .array (tags.map .text))])
      = .ok ("types", .object [(some "types", .array (tags.map .text))]) :=
    Message.tagged_object "types" (by decide : some "result" ∉ [some "types"])
      (by rw [membersArePlain, isPlain, hplain]; rfl)
  have htypes : asList RecordType.ofJson (.array (tags.map .text))
      = .ok (tags.map RecordType.ofText) := readItems_map_eq fun tag _ => rfl
  have hread : Response.ofJson (.object [(some "result", .text "types"),
      (some "types", .array (tags.map .text))]) = .ok (.types (tags.map RecordType.ofText)) := by
    simp only [Response.ofJson, htagged, bind, Except.bind]
    exact map_eq_ok_iff.mpr ⟨_, Message.asField_object htypes, rfl⟩
  have hwritten : AreWritten [(some "result", .text "types"),
      (some "types", .array (tags.map .text))] := by
    refine (areWritten_nil.cons _ (isWritten_array fun item hm => ?_)).cons _ (isWritten_text _)
    rcases List.mem_map.mp hm with ⟨tag, -, rfl⟩
    exact isWritten_text _
  simp only [Channel.decode, declaration, Json.fromUTF8?_toUTF8, Json.readText_write hwritten hread]

theorem introduce_of_answers {greeting declared : ByteArray} {exits : Bool} {replies : List Reply}
    {version : String} {types : List RecordType}
    (hprogram : store.programAt path = .ok (.answers
      (⟨Channel.frame greeting, false⟩ :: ⟨Channel.frame declared, exits⟩ :: replies)))
    (hgreeting : Channel.decode greeting = .ok (.version protocolVersion version))
    (hdeclared : Channel.decode declared = .ok (.types types))
    (hsize : greeting.size ≤ maxMessageSize) (hsize' : declared.size ≤ maxMessageSize) :
    ∃ process, introduce store path = .ok ⟨path, version, types, process⟩ := by
  let started : Channel :=
    { peer := .program
        (⟨Channel.frame greeting, false⟩ :: ⟨Channel.frame declared, exits⟩ :: replies) }
  let greeted : Channel :=
    { written := started.written ++ Channel.frame Request.version.payload
      peer := .program (⟨Channel.frame declared, exits⟩ :: replies) }
  have hversion : started.call .version = (.ok (.version protocolVersion version), greeted) :=
    (Channel.call_program rfl rfl Channel.size_payload_version hsize).trans (by rw [hgreeting]; rfl)
  have htypes : (greeted.call .types).1 = .ok (.types types) :=
    (congrArg Prod.fst
      (Channel.call_program rfl rfl Channel.size_payload_types hsize')).trans hdeclared
  have hhandshake : Connection.handshake { channel := started }
      = (.ok version, { channel := greeted }) := by
    rw [Connection.handshake, hversion]
    rfl
  have htold : (Connection.types { channel := greeted }).1 = .ok types := by
    unfold Connection.types Connection.call
    rcases hcall : greeted.call .types with ⟨result, after⟩
    rw [hcall] at htypes
    cases htypes
    rfl
  rcases hconnection : Connection.types { channel := greeted } with ⟨result, told⟩
  rw [hconnection] at htold
  cases htold
  refine ⟨⟨path.fileName?.getD path.text, told⟩, ?_⟩
  rw [introduce, hprogram]
  simp only [External.peer, hhandshake, hconnection, started]

end Discovery

end DnsZones
