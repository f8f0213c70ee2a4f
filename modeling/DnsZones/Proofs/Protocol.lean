import DnsZones.Plugin.External
import DnsZones.Proofs.Channel.Pairing

/-!
# The Configuration Protocol

Which configuration an external plugin has when it is asked something.

A plugin's answer may depend on a configuration, and the host sends one only when
it has to. What it goes by is a single field, the configuration that the program
last confirmed. To say what that field is worth, every exchange is listed beside
the plain run: what was asked, whether it could be written, and what was read
back. The list decides what the program can have in mind, and the field agrees
with the list after every call, whatever the program answers, breaks off or sends
too late.

Everything else follows from what one call adds to the list: at most a
configuration, then at most the question itself, and the question only if the
program has confirmed the right configuration last.

## Main definitions

* `External.Ask`: A call of a plugin.
* `External.Transfer`: One exchange over a channel.
* `External.Confirms`: The configuration that a program last confirmed.
* `External.Talk`: A connection with the exchanges that were made over it.
* `External.IsProper`: What a call may add to the exchanges.

## Theorems

* `External.Talk.connection_answer`: The listed run is the plain one.
* `External.Talk.IsKept.configure`, `External.Talk.IsKept.call`: The host remembers what was last
  confirmed.
* `External.Talk.hasConfig_iff`: When the host relies on a configuration.
* `External.Talk.isProper_answer`: What one call adds to the exchanges.
* `External.protocol`: All of it for every sequence of calls of a plugin.
-/

namespace DnsZones

theorem Config.same_refl (config : Config) : config.same config = true := by
  simp only [Config.same, Path.same, beq_self_eq_true, Bool.and_self]

namespace External

/-! ### Calls and exchanges -/

/-- A call of a plugin. -/
inductive Ask where
  | types
  | configure (config : Config)
  | normalize (config : Config) (zone identifier : String) (record : Record)
  | validateZone (name : String) (zone : Zone)
  | render (config : Config) (identifier : String) (record : Record)

namespace Ask

/-- The request that a call is about. -/
def request : Ask → Request
  | types => .types
  | configure config => .configure config
  | normalize _ zone identifier record => .normalize zone identifier record
  | validateZone name zone => .validateZone name zone
  | render _ identifier record => .render identifier record

/-- The configuration that the answer depends on. -/
def config? : Ask → Option Config
  | types | configure _ => none
  | normalize config _ _ _ | render config _ _ => some config
  | validateZone _ zone => zone.config

/-- The state after a plugin was called. -/
def through {σ : Type} (plugin : Plugin σ) (state : σ) : Ask → σ
  | types => (plugin.types state).2
  | configure config => (plugin.configure config state).2
  | normalize config zone identifier record =>
    (plugin.normalize config zone identifier record state).2
  | validateZone name zone => (plugin.validateZone name zone state).2
  | render config identifier record => (plugin.render config identifier record state).2

/-- The connection after a call over it. -/
def connectionAfter (connection : Connection) : Ask → Connection
  | types => (Connection.types connection).2
  | configure config => (Connection.configure config connection).2
  | normalize config zone identifier record =>
    (Connection.normalize config zone identifier record connection).2
  | validateZone name zone => (Connection.validateZone name zone connection).2
  | render config identifier record => (Connection.render config identifier record connection).2

end Ask

/-- One exchange over a channel. -/
structure Transfer where
  request : Request
  /-- Whether the whole request was written. -/
  written : Bool
  /-- What was read back. -/
  reply : Except TransportError Response

namespace Transfer

/-- The exchange that a request begins on a channel. -/
def make (request : Request) (channel : Channel) : Transfer :=
  ⟨request, (channel.send request).1.isOk, (channel.call request).1⟩

/-- The request is to prepare for a zone. -/
def IsConfiguring (transfer : Transfer) : Prop := ∃ config, transfer.request = .configure config

/-- A configuration was written, and its confirmation was read back. -/
structure Confirms (transfer : Transfer) (config : Config) : Prop where
  request : transfer.request = .configure config
  written : transfer.written = true
  reply : transfer.reply = .ok .configured

/-- A request that was answered was written. -/
theorem written_make {request : Request} {channel : Channel} {response : Response}
    (h : (make request channel).reply = .ok response) : (make request channel).written = true := by
  simp only [make, Channel.call] at h ⊢
  cases hs : channel.send request with
  | mk result after =>
      cases result with
      | error error =>
          rw [hs] at h
          cases h
      | ok _ => rfl

end Transfer

/-- The last configuration that was asked for was written and confirmed, and it is this one. -/
def Confirms (transfers : List Transfer) (config : Config) : Prop :=
  ∃ earlier given later, transfers = earlier ++ given :: later ∧ given.Confirms config
    ∧ ∀ transfer ∈ later, ¬transfer.IsConfiguring

theorem not_confirms_nil (config : Config) : ¬Confirms [] config := by
  rintro ⟨earlier, given, later, heq, -⟩
  cases earlier with
  | nil => cases heq
  | cons first rest => cases heq

/-- What one more exchange says about the configuration that was last confirmed. -/
theorem confirms_concat_iff {transfers : List Transfer} {last : Transfer} {config : Config} :
    Confirms (transfers ++ [last]) config
      ↔ last.Confirms config ∨ ¬last.IsConfiguring ∧ Confirms transfers config := by
  constructor
  · rintro ⟨earlier, given, later, heq, hgiven, hlater⟩
    rcases List.eq_nil_or_concat later with rfl | ⟨middle, final, rfl⟩
    · -- The confirmation is the last exchange.
      rcases List.append_inj' heq rfl with ⟨-, hlast⟩
      cases hlast
      exact Or.inl hgiven
    · rw [List.concat_eq_append, ← List.cons_append, ← List.append_assoc] at heq
      rcases List.append_inj' heq rfl with ⟨htransfers, hlast⟩
      cases hlast
      rw [List.concat_eq_append] at hlater
      exact Or.inr ⟨hlater last (List.mem_append_right _ List.mem_cons_self), earlier, given,
        middle, htransfers, hgiven, fun transfer hm => hlater transfer (List.mem_append_left _ hm)⟩
  · rintro (hlast | ⟨hnot, earlier, given, later, rfl, hgiven, hlater⟩)
    · exact ⟨transfers, last, [], rfl, hlast, fun _ hm => absurd hm List.not_mem_nil⟩
    · refine ⟨earlier, given, later ++ [last], by simp only [List.append_assoc, List.cons_append],
        hgiven, fun transfer hm => ?_⟩
      rcases List.mem_append.mp hm with hm | hm
      · exact hlater transfer hm
      · rw [List.mem_singleton.mp hm]
        exact hnot

/-! ### The listed run -/

/-- A connection with the exchanges that were made over it. -/
structure Talk where
  connection : Connection
  transfers : List Transfer := []

namespace Talk

/-- Ask something, and list the exchange. -/
def call (request : Request) (talk : Talk) : Except PluginError Response × Talk :=
  ((Connection.call request talk.connection).1, {
    connection := (Connection.call request talk.connection).2
    transfers := talk.transfers ++ [.make request talk.connection.channel] })

/-- Send a configuration and remember it once it is confirmed. -/
def configure (config : Config) (talk : Talk) : Except PluginError Unit × Talk :=
  match call (.configure config)
    { talk with connection := { talk.connection with configured := none } } with
  | (.error error, after) => (.error error, after)
  | (.ok .configured, after) =>
    (.ok (), { after with connection := { after.connection with configured := some config } })
  | (.ok other, after) => (.error (Connection.unexpected (.configure config) other), after)

/-- Ask something that depends on the configuration. -/
def callConfigured (config : Config) (request : Request) (talk : Talk) :
    Except PluginError Response × Talk :=
  if talk.connection.hasConfig config then talk.call request
  else
    match talk.configure config with
    | (.error error, after) => (.error error, after)
    | (.ok (), after) => after.call request

/-- Carry out one call. -/
def answer (talk : Talk) (ask : Ask) : Talk :=
  match ask with
  | .configure config => (talk.configure config).2
  | ask =>
    match ask.config? with
    | some config => (talk.callConfigured config ask.request).2
    | none => (talk.call ask.request).2

/-- A call that depends on a configuration. -/
theorem answer_of_config {talk : Talk} {ask : Ask} (hask : ∀ config, ask ≠ .configure config)
    {config : Config} (h : ask.config? = some config) :
    talk.answer ask = (talk.callConfigured config ask.request).2 := by
  cases ask with
  | configure other => exact absurd rfl (hask other)
  | types => cases h
  | normalize other zone identifier record =>
      cases h
      rfl
  | validateZone name zone =>
      have hzone : zone.config = some config := h
      simp only [answer, Ask.config?, hzone]
  | render other identifier record =>
      cases h
      rfl

/-- A call that depends on no configuration. -/
theorem answer_of_none {talk : Talk} {ask : Ask} (hask : ∀ config, ask ≠ .configure config)
    (h : ask.config? = none) : talk.answer ask = (talk.call ask.request).2 := by
  cases ask with
  | configure other => exact absurd rfl (hask other)
  | types => rfl
  | normalize other zone identifier record => cases h
  | validateZone name zone =>
      have hzone : zone.config = none := h
      simp only [answer, Ask.config?, hzone]
  | render other identifier record => cases h

/-- A call sends a configuration, or depends on one, or depends on none. -/
theorem answer_cases (talk : Talk) (ask : Ask) :
    (∃ config, ask = .configure config ∧ talk.answer ask = (talk.configure config).2)
      ∨ (∀ config, ask ≠ .configure config)
        ∧ ((∃ config, ask.config? = some config
            ∧ talk.answer ask = (talk.callConfigured config ask.request).2)
          ∨ ask.config? = none ∧ talk.answer ask = (talk.call ask.request).2) := by
  by_cases hask : ∃ config, ask = .configure config
  · rcases hask with ⟨config, rfl⟩
    exact Or.inl ⟨config, rfl, rfl⟩
  · have hne : ∀ config, ask ≠ .configure config := fun config he => hask ⟨config, he⟩
    cases hc : ask.config? with
    | none => exact Or.inr ⟨hne, Or.inr ⟨rfl, answer_of_none hne hc⟩⟩
    | some config => exact Or.inr ⟨hne, Or.inl ⟨config, rfl, answer_of_config hne hc⟩⟩

/-- Sending a configuration is the same with and without the list. -/
theorem configure_plain (config : Config) (talk : Talk) :
    (talk.configure config).1 = (Connection.configure config talk.connection).1
      ∧ (talk.configure config).2.connection
        = (Connection.configure config talk.connection).2 := by
  unfold configure call Connection.configure
  cases Connection.call (.configure config) { talk.connection with configured := none } with
  | mk result after =>
      cases result with
      | error error => exact ⟨rfl, rfl⟩
      | ok response =>
          cases response with
          | configured => exact ⟨rfl, rfl⟩
          | version protocol text => exact ⟨rfl, rfl⟩
          | types handled => exact ⟨rfl, rfl⟩
          | normalized record => exact ⟨rfl, rfl⟩
          | validated => exact ⟨rfl, rfl⟩
          | rendered text => exact ⟨rfl, rfl⟩
          | error message => exact ⟨rfl, rfl⟩

theorem callConfigured_plain (config : Config) (request : Request) (talk : Talk) :
    (talk.callConfigured config request).2.connection
      = (Connection.callConfigured config request talk.connection).2 := by
  rw [callConfigured, Connection.callConfigured]
  split
  · rfl
  · rcases configure_plain config talk with ⟨hresult, hafter⟩
    cases hc : talk.configure config with
    | mk result after =>
        rw [hc] at hresult hafter
        cases hp : Connection.configure config talk.connection with
        | mk plain next =>
            rw [hp] at hresult hafter
            subst hresult
            subst hafter
            cases result with
            | error error => rfl
            | ok _ => rfl

theorem expect_snd {α : Type} (request : Request) (wanted : Response → Option α)
    (answered : Except PluginError Response × Connection) :
    (Connection.expect request wanted answered).2 = answered.2 := by
  rcases answered with ⟨_ | response, after⟩
  · rfl
  · rw [Connection.expect]
    cases wanted response with
    | none => rfl
    | some value => rfl

/-- The listed run is the plain one. -/
theorem connection_answer (talk : Talk) (ask : Ask) :
    (talk.answer ask).connection = ask.connectionAfter talk.connection := by
  cases ask with
  | types => exact (expect_snd _ _ _).symm
  | configure config => exact (configure_plain config talk).2
  | normalize config zone identifier record =>
      exact (callConfigured_plain config _ talk).trans (expect_snd _ _ _).symm
  | validateZone name zone =>
      rw [Ask.connectionAfter, Connection.validateZone, expect_snd, answer, Ask.config?,
        Ask.request]
      · cases zone.config with
        | none => rfl
        | some config => exact callConfigured_plain config _ talk
      · exact nofun
  | render config identifier record =>
      exact (callConfigured_plain config _ talk).trans (expect_snd _ _ _).symm

/-! ### What the host remembers -/

/-- What the host remembers is what was last confirmed. -/
def IsKept (talk : Talk) : Prop :=
  ∀ config, talk.connection.configured = some config ↔ Confirms talk.transfers config

theorem configured_call (request : Request) (connection : Connection) :
    (Connection.call request connection).2.configured = connection.configured := by
  rw [Connection.call]
  split
  · rfl
  · rfl
  · rfl

/-- A configuration is listed as one exchange; the host remembers it if it was confirmed, and
    nothing otherwise. -/
theorem configure_spec (config : Config) (talk : Talk) :
    ∃ given : Transfer, given.request = .configure config
      ∧ (talk.configure config).2.transfers = talk.transfers ++ [given]
      ∧ (given.Confirms config ∧ (talk.configure config).1 = .ok ()
          ∧ (talk.configure config).2.connection.configured = some config
        ∨ given.reply ≠ .ok .configured ∧ (∃ error, (talk.configure config).1 = .error error)
          ∧ (talk.configure config).2.connection.configured = none) := by
  refine ⟨.make (.configure config) talk.connection.channel, rfl, ?_⟩
  have hmake : (Transfer.make (.configure config) talk.connection.channel).reply
      = (talk.connection.channel.call (.configure config)).1 := rfl
  simp only [configure, call, Connection.call]
  cases hc : talk.connection.channel.call (.configure config) with
  | mk reply channel =>
      rw [hc] at hmake
      -- Only one reply is a confirmation.
      cases reply with
      | error error => exact ⟨rfl, Or.inr ⟨by rw [hmake]; exact nofun, ⟨_, rfl⟩, rfl⟩⟩
      | ok response =>
          cases response with
          | configured => exact ⟨rfl, Or.inl ⟨⟨rfl, Transfer.written_make hmake, hmake⟩, rfl, rfl⟩⟩
          | _ => exact ⟨rfl, Or.inr ⟨by rw [hmake]; exact nofun, ⟨_, rfl⟩, rfl⟩⟩

/-- Sending a configuration keeps in mind what the program has. -/
theorem IsKept.configure (config : Config) (talk : Talk) : (talk.configure config).2.IsKept := by
  rcases configure_spec config talk with ⟨given, hrequest, htransfers, hcase⟩
  intro other
  rw [htransfers, confirms_concat_iff]
  have hconfiguring : given.IsConfiguring := ⟨config, hrequest⟩
  rcases hcase with ⟨hconfirms, -, hconfigured⟩ | ⟨hreply, -, hconfigured⟩
  · rw [hconfigured, Option.some.injEq]
    constructor
    · rintro rfl
      exact Or.inl hconfirms
    · rintro (hother | ⟨hnot, -⟩)
      · exact Request.configure.inj (hconfirms.request.symm.trans hother.request)
      · exact absurd hconfiguring hnot
  · rw [hconfigured]
    refine iff_of_false nofun ?_
    rintro (hother | ⟨hnot, -⟩)
    · exact hreply hother.reply
    · exact hnot hconfiguring

/-- Any other question changes nothing about what the program has. -/
theorem IsKept.call {talk : Talk} (h : talk.IsKept) {request : Request}
    (hrequest : ∀ config, request ≠ .configure config) : (talk.call request).2.IsKept := by
  intro config
  have hnot : ¬(Transfer.make request talk.connection.channel).IsConfiguring := by
    rintro ⟨other, hother⟩
    exact hrequest other hother
  change (Connection.call request talk.connection).2.configured = some config
    ↔ Confirms (talk.transfers ++ [.make request talk.connection.channel]) config
  rw [configured_call, confirms_concat_iff, h config]
  constructor
  · intro hc
    exact Or.inr ⟨hnot, hc⟩
  · rintro (hc | ⟨-, hc⟩)
    · exact absurd ⟨config, hc.request⟩ hnot
    · exact hc

/-! ### What a call adds -/

end Talk

/-- What a call may add to the exchanges before it. -/
structure IsProper (ask : Ask) (before made : List Transfer) : Prop where
  /-- Nothing is asked but for configurations and what the call is about. -/
  requests : ∀ transfer ∈ made, transfer.IsConfiguring ∨ transfer.request = ask.request
  /-- What depends on a configuration is asked only after that was the last one to be confirmed,
      and none was tried since. -/
  covered : ∀ config, ask.config? = some config → ∀ earlier own later,
    made = earlier ++ own :: later → ¬own.IsConfiguring →
    ∃ confirmed, Confirms (before ++ earlier) confirmed ∧ confirmed.same config = true
  /-- A configuration that was confirmed is not sent again. -/
  frugal : ∀ config confirmed, ask.config? = some config → Confirms before confirmed →
    confirmed.same config = true → ∀ transfer ∈ made, ¬transfer.IsConfiguring
  /-- After a configuration that was not confirmed nothing else is asked. -/
  halted : ∀ transfer ∈ made, transfer.IsConfiguring → transfer.reply ≠ .ok .configured →
    ∀ other ∈ made, other.IsConfiguring

namespace IsProper

variable {ask : Ask} {before : List Transfer} {given own : Transfer}

/-- A call may ask what it is about, under the configuration that was last confirmed. -/
theorem of_own (hrequest : own.request = ask.request) (hown : ¬own.IsConfiguring)
    (hconfig : ∀ config, ask.config? = some config →
      ∃ confirmed, Confirms before confirmed ∧ confirmed.same config = true) :
    IsProper ask before [own] where
  requests := fun transfer hm => by
    rw [List.mem_singleton.mp hm]
    exact Or.inr hrequest
  covered := fun config hc earlier last later heq _ => by
    cases earlier with
    | nil =>
        rw [List.append_nil]
        exact hconfig config hc
    | cons first rest =>
        cases rest with
        | nil => cases heq
        | cons second rest => cases heq
  frugal := fun _ _ _ _ _ transfer hm => by
    rw [List.mem_singleton.mp hm]
    exact hown
  halted := fun transfer hm hconfiguring => by
    rw [List.mem_singleton.mp hm] at hconfiguring
    exact absurd hconfiguring hown

/-- A call may only send a configuration, if there is none that it could rely on. -/
theorem of_given (hgiven : given.IsConfiguring)
    (hnone : ∀ config confirmed, ask.config? = some config → Confirms before confirmed →
      confirmed.same config ≠ true) : IsProper ask before [given] where
  requests := fun transfer hm => by
    rw [List.mem_singleton.mp hm]
    exact Or.inl hgiven
  covered := fun config hc earlier last later heq hlast => by
    have hm : last ∈ [given] := by
      rw [heq]
      exact List.mem_append_right _ List.mem_cons_self
    rw [List.mem_singleton.mp hm] at hlast
    exact absurd hgiven hlast
  frugal := fun config confirmed hc hconfirms hsame =>
    absurd hsame (hnone config confirmed hc hconfirms)
  halted := fun _ _ _ _ other hm => by
    rw [List.mem_singleton.mp hm]
    exact hgiven

/-- A call may send its configuration, if there is none that it could rely on, and ask what it is
    about once that is confirmed. -/
theorem of_given_own {config : Config} (hask : ask.config? = some config)
    (hconfirms : given.Confirms config) (hrequest : own.request = ask.request)
    (hown : ¬own.IsConfiguring)
    (hnone : ∀ confirmed, Confirms before confirmed → confirmed.same config ≠ true) :
    IsProper ask before [given, own] where
  requests := fun transfer hm => by
    rcases List.mem_cons.mp hm with rfl | hm
    · exact Or.inl ⟨config, hconfirms.request⟩
    · rw [List.mem_singleton.mp hm]
      exact Or.inr hrequest
  covered := fun other hc earlier last later heq hlast => by
    cases hask.symm.trans hc
    cases earlier with
    | nil =>
        cases heq
        exact absurd ⟨config, hconfirms.request⟩ hlast
    | cons first rest =>
        cases rest with
        | nil =>
            cases heq
            exact ⟨config, confirms_concat_iff.mpr (Or.inl hconfirms), config.same_refl⟩
        | cons second rest =>
            cases rest with
            | nil => cases heq
            | cons third rest => cases heq
  frugal := fun other confirmed hc hbefore hsame => by
    cases hask.symm.trans hc
    exact absurd hsame (hnone confirmed hbefore)
  halted := fun transfer hm hconfiguring hreply => by
    rcases List.mem_cons.mp hm with rfl | hm
    · exact absurd hconfirms.reply hreply
    · rw [List.mem_singleton.mp hm] at hconfiguring
      exact absurd hconfiguring hown

end IsProper

namespace Talk

variable {talk : Talk} {ask : Ask}

/-- The host may rely on a configuration exactly if the program confirmed it last. -/
theorem hasConfig_iff (h : talk.IsKept) {config : Config} :
    talk.connection.hasConfig config = true
      ↔ ∃ confirmed, Confirms talk.transfers confirmed ∧ confirmed.same config = true := by
  rw [Connection.hasConfig]
  cases hc : talk.connection.configured with
  | none =>
      refine iff_of_false Bool.false_ne_true ?_
      rintro ⟨confirmed, hconfirms, -⟩
      rw [(h confirmed).mpr hconfirms] at hc
      cases hc
  | some known =>
      constructor
      · intro hsame
        exact ⟨known, (h known).mp hc, hsame⟩
      · rintro ⟨confirmed, hconfirms, hsame⟩
        rw [(h confirmed).mpr hconfirms] at hc
        cases hc
        exact hsame

theorem request_ne_configure (hask : ∀ config, ask ≠ .configure config) (config : Config) :
    ask.request ≠ .configure config := by
  cases ask with
  | configure other => exact absurd rfl (hask other)
  | types => exact nofun
  | normalize other zone identifier record => exact nofun
  | validateZone name zone => exact nofun
  | render other identifier record => exact nofun

/-- A call that depends on a configuration. -/
theorem isProper_callConfigured (h : talk.IsKept) (hask : ∀ config, ask ≠ .configure config)
    {config : Config} (hconfig : ask.config? = some config) :
    (talk.callConfigured config ask.request).2.IsKept
      ∧ ∃ made, (talk.callConfigured config ask.request).2.transfers = talk.transfers ++ made
        ∧ IsProper ask talk.transfers made := by
  have hrequest := request_ne_configure hask
  have hown : ∀ channel, ¬(Transfer.make ask.request channel).IsConfiguring := by
    rintro channel ⟨other, hother⟩
    exact hrequest other hother
  rw [callConfigured]
  split
  · -- The program has the configuration.
    next hhas =>
      refine ⟨h.call hrequest, _, rfl, .of_own rfl (hown _) fun other hother => ?_⟩
      cases hconfig.symm.trans hother
      exact (hasConfig_iff h).mp hhas
  · next hhas =>
      have hnone : ∀ confirmed, Confirms talk.transfers confirmed →
          confirmed.same config ≠ true := fun confirmed hconfirms hsame =>
        hhas ((hasConfig_iff h).mpr ⟨confirmed, hconfirms, hsame⟩)
      rcases configure_spec config talk with ⟨given, hgiven, htransfers, hcase⟩
      have hkept := IsKept.configure config talk
      cases hc : talk.configure config with
      | mk result after =>
          rw [hc] at htransfers hcase hkept
          rcases hcase with ⟨hconfirms, hresult, -⟩ | ⟨-, ⟨error, hresult⟩, -⟩
          · -- The configuration is confirmed, and the question follows.
            cases hresult
            refine ⟨hkept.call hrequest, [given, .make ask.request after.connection.channel], ?_,
              .of_given_own hconfig hconfirms rfl (hown _) hnone⟩
            change after.transfers ++ _ = _
            rw [htransfers, List.append_assoc]
            rfl
          · cases hresult
            refine ⟨hkept, [given], htransfers, .of_given ⟨config, hgiven⟩
              fun other confirmed hother hconfirms => ?_⟩
            cases hconfig.symm.trans hother
            exact hnone confirmed hconfirms

/-- What one call adds to the exchanges, while the host keeps in mind what was last confirmed. -/
theorem isProper_answer (h : talk.IsKept) (ask : Ask) :
    (talk.answer ask).IsKept
      ∧ ∃ made, (talk.answer ask).transfers = talk.transfers ++ made
        ∧ IsProper ask talk.transfers made := by
  rcases answer_cases talk ask with
    ⟨config, rfl, hanswer⟩ | ⟨hask, ⟨config, hconfig, hanswer⟩ | ⟨hnone, hanswer⟩⟩
  · rcases configure_spec config talk with ⟨given, hgiven, htransfers, -⟩
    rw [hanswer]
    exact ⟨.configure config talk, [given], htransfers, .of_given ⟨config, hgiven⟩ nofun⟩
  · rw [hanswer]
    exact isProper_callConfigured h hask hconfig
  · rw [hanswer]
    refine ⟨h.call (request_ne_configure hask), _, rfl, .of_own rfl ?_ fun config hconfig => ?_⟩
    · rintro ⟨config, hrequest⟩
      exact request_ne_configure hask config hrequest
    · cases hnone.symm.trans hconfig

/-! ### Sequences of calls -/

/-- Carry out calls one after the other. -/
def answers (talk : Talk) (asks : List Ask) : Talk := asks.foldl answer talk

theorem isKept_of_configured_eq_none {connection : Connection}
    (h : connection.configured = none) : IsKept ⟨connection, []⟩ := by
  intro config
  refine iff_of_false ?_ (not_confirms_nil config)
  rw [show Talk.connection ⟨connection, []⟩ = connection from rfl, h]
  exact nofun

/-- After every sequence of calls the host keeps in mind what was last confirmed. -/
theorem IsKept.answers (h : talk.IsKept) (asks : List Ask) : (talk.answers asks).IsKept := by
  induction asks generalizing talk with
  | nil => exact h
  | cons ask rest ih => exact ih (isProper_answer h ask).1

theorem connection_answers (talk : Talk) (asks : List Ask) :
    (talk.answers asks).connection = asks.foldl Ask.connectionAfter talk.connection := by
  induction asks generalizing talk with
  | nil => rfl
  | cons ask rest ih => exact (ih (talk.answer ask)).trans (by rw [connection_answer]; rfl)

end Talk

/-! ### The bytes -/

/-- The bytes of a request as they are written. -/
def Transfer.frame (transfer : Transfer) : ByteArray :=
  Channel.frame transfer.request.toJson.write.toUTF8

/-- The bytes that were written to a channel are the requests of exchanges that are listed as
    written, in order. -/
def Talk.IsOnWire (before : ByteArray) (talk : Talk) : Prop :=
  ∃ delivered : List Transfer, delivered.Sublist (talk.transfers.filter (·.written))
    ∧ talk.connection.channel.written
      = delivered.foldl (fun bytes transfer => bytes ++ transfer.frame) before

theorem written_receive (channel : Channel) : channel.receive.2.written = channel.written := by
  rw [Channel.receive]
  split
  · rfl
  · dsimp only
    split
    · rfl
    · split
      · rfl
      · rfl

/-- Only asking writes something. -/
theorem written_call (request : Request) (channel : Channel) :
    (channel.call request).2.written = (channel.send request).2.written := by
  rw [Channel.call]
  rcases channel.send request with ⟨_ | _, after⟩
  · rfl
  · exact written_receive after

/-- A request is written whole or not at all. -/
theorem written_send (request : Request) (channel : Channel) :
    (channel.send request).2.written = channel.written
      ∨ (channel.send request).1.isOk = true
        ∧ (channel.send request).2.written
          = channel.written ++ Channel.frame request.toJson.write.toUTF8 := by
  simp only [Channel.send]
  split
  · -- A request that is too large is refused.
    exact Or.inl rfl
  · rw [Channel.deliver]
    split
    · exact Or.inl rfl
    · exact Or.inr ⟨rfl, rfl⟩
    · exact Or.inl rfl
    · exact Or.inr ⟨rfl, rfl⟩
    · exact Or.inr ⟨rfl, rfl⟩

namespace Talk

variable {talk : Talk} {before : ByteArray}

theorem channel_call (request : Request) (connection : Connection) :
    (Connection.call request connection).2.channel = (connection.channel.call request).2 := by
  rw [Connection.call]
  split
  · next hc => rw [hc]
  · next hc => rw [hc]
  · next hc => rw [hc]

theorem IsOnWire.call (h : talk.IsOnWire before) (request : Request) :
    (talk.call request).2.IsOnWire before := by
  rcases h with ⟨delivered, hsub, hwritten⟩
  have hchannel : (talk.call request).2.connection.channel
      = (talk.connection.channel.call request).2 := channel_call request talk.connection
  have htransfers : (talk.call request).2.transfers
      = talk.transfers ++ [.make request talk.connection.channel] := rfl
  unfold IsOnWire
  rw [hchannel, htransfers, List.filter_append, written_call]
  rcases written_send request talk.connection.channel with hsame | ⟨hmake, hmore⟩
  · exact ⟨delivered, hsub.trans (List.sublist_append_left _ _), hsame.trans hwritten⟩
  · have hkeep : [Transfer.make request talk.connection.channel].filter (·.written)
        = [.make request talk.connection.channel] :=
      List.filter_cons_of_pos (a := Transfer.make request talk.connection.channel) hmake
    refine ⟨delivered ++ [.make request talk.connection.channel], hsub.append ?_, ?_⟩
    · simp only [hkeep, List.Sublist.refl]
    · rw [hmore, hwritten, List.foldl_append]
      rfl

/-- What the host remembers is no part of what was written. -/
theorem IsOnWire.configure (h : talk.IsOnWire before) (config : Config) :
    (talk.configure config).2.IsOnWire before := by
  have hforgotten : IsOnWire before
      { talk with connection := { talk.connection with configured := none } } := h
  have hcall := hforgotten.call (.configure config)
  unfold Talk.configure
  split
  · next hc =>
      rw [hc] at hcall
      exact hcall
  · next hc =>
      rw [hc] at hcall
      exact hcall
  · next hc =>
      rw [hc] at hcall
      exact hcall

theorem IsOnWire.callConfigured (h : talk.IsOnWire before) (config : Config) (request : Request) :
    (talk.callConfigured config request).2.IsOnWire before := by
  have hconfigure := h.configure config
  rw [Talk.callConfigured]
  split
  · exact h.call request
  · split
    · next hc =>
        rw [hc] at hconfigure
        exact hconfigure
    · next hc =>
        rw [hc] at hconfigure
        exact hconfigure.call request

theorem IsOnWire.answer (h : talk.IsOnWire before) (ask : Ask) :
    (talk.answer ask).IsOnWire before := by
  rcases answer_cases talk ask with
    ⟨config, rfl, hanswer⟩ | ⟨-, ⟨config, -, hanswer⟩ | ⟨-, hanswer⟩⟩
  · exact hanswer ▸ h.configure config
  · exact hanswer ▸ h.callConfigured config _
  · exact hanswer ▸ h.call _

theorem IsOnWire.answers (h : talk.IsOnWire before) (asks : List Ask) :
    (talk.answers asks).IsOnWire before := by
  induction asks generalizing talk with
  | nil => exact h
  | cons ask rest ih => exact ih (h.answer ask)

end Talk

/-! ### The plugin -/

theorem processes_onConnection {α : Type} {host : Host} {index : Nat} {process : Process}
    (h : host.processes[index]? = some process) (exchange : Exchange α) :
    (host.onConnection index exchange).2.processes[index]?
      = some { process with connection := (exchange process.connection).2 } := by
  rw [Host.onConnection, h]
  exact List.getElem?_set_self (List.getElem?_eq_some_iff.mp h).1

/-- A call of a plugin is a call over its connection. -/
theorem processes_through {host : Host} {index : Nat} {process : Process}
    (h : host.processes[index]? = some process) (version : String) (ask : Ask) :
    (ask.through (plugin index version) host).processes[index]?
      = some { process with connection := ask.connectionAfter process.connection } := by
  cases ask with
  | types => exact processes_onConnection h _
  | configure config => exact processes_onConnection h _
  | normalize config zone identifier record => exact processes_onConnection h _
  | validateZone name zone => exact processes_onConnection h _
  | render config identifier record => exact processes_onConnection h _

theorem processes_foldl_through {host : Host} {index : Nat} {process : Process}
    (h : host.processes[index]? = some process) (version : String) (asks : List Ask) :
    (asks.foldl (Ask.through (plugin index version)) host).processes[index]?
      = some { process with connection := asks.foldl Ask.connectionAfter process.connection } := by
  induction asks generalizing host process with
  | nil => exact h
  | cons ask rest ih => exact ih (processes_through h version ask)

/-- The protocol of a plugin, for every sequence of calls and whatever the program replies. The
    exchanges listed for the calls are those that the plugin makes: its connection is the one they
    end with, and what was written are requests among those listed as written. The host remembers
    a configuration exactly if it was the last one to be confirmed, and none was tried since. And
    whatever is called next keeps to the protocol: it asks what depends on a configuration only
    after the program confirmed that configuration last, sends no configuration that the program
    has confirmed last, and asks nothing after a configuration that was not confirmed. -/
theorem protocol {host : Host} {index : Nat} {process : Process}
    (hprocess : host.processes[index]? = some process)
    (hconfigured : process.connection.configured = none) (version : String) (asks : List Ask) :
    (asks.foldl (Ask.through (plugin index version)) host).processes[index]?
        = some { process with
            connection := (Talk.answers ⟨process.connection, []⟩ asks).connection }
      ∧ (Talk.answers ⟨process.connection, []⟩ asks).IsOnWire process.connection.channel.written
      ∧ (∀ config, (Talk.answers ⟨process.connection, []⟩ asks).connection.configured = some config
        ↔ Confirms (Talk.answers ⟨process.connection, []⟩ asks).transfers config)
      ∧ ∀ ask, ∃ made, ((Talk.answers ⟨process.connection, []⟩ asks).answer ask).transfers
          = (Talk.answers ⟨process.connection, []⟩ asks).transfers ++ made
        ∧ IsProper ask (Talk.answers ⟨process.connection, []⟩ asks).transfers made := by
  have hkept := (Talk.isKept_of_configured_eq_none hconfigured).answers asks
  have hwire : Talk.IsOnWire process.connection.channel.written ⟨process.connection, []⟩ :=
    ⟨[], List.nil_sublist _, rfl⟩
  refine ⟨?_, hwire.answers asks, hkept, fun ask => (Talk.isProper_answer hkept ask).2⟩
  rw [processes_foldl_through hprocess, Talk.connection_answers]

/-- A reply that consists of one response. -/
def replying (response : Response) : Reply :=
  ⟨Channel.frame response.toJson.write.toUTF8, false⟩

/-- A request to a program that replies with a response, where no byte is left from before. -/
theorem Talk.call_replying {talk : Talk} {request : Request} (response : Response)
    {replies : List Reply} (hunread : talk.connection.channel.unread = ByteArray.empty)
    (hpeer : talk.connection.channel.peer = .program (replying response :: replies))
    (hrequest : request.payload.size ≤ maxMessageSize)
    (hresponse : response.toJson.write.toUTF8.size ≤ maxMessageSize) (hwhole : response.IsWhole)
    (herror : ∀ message, response ≠ .error message) :
    talk.call request = (.ok response, {
      connection := { talk.connection with
        channel := {
          written := talk.connection.channel.written ++ Channel.frame request.payload
          peer := .program replies } }
      transfers := talk.transfers ++ [⟨request, true, .ok response⟩] }) := by
  have hcall := Channel.call_program hunread hpeer hrequest hresponse
  rw [Channel.decode_toJson hwhole] at hcall
  have hmake : Transfer.make request talk.connection.channel = ⟨request, true, .ok response⟩ := by
    have hreply : (Transfer.make request talk.connection.channel).reply = .ok response :=
      congrArg Prod.fst hcall
    have hsent : (talk.connection.channel.send request).1.isOk = true :=
      Transfer.written_make hreply
    simp only [Transfer.make, hsent, hcall]
  rw [Talk.call, hmake, Connection.call, hcall]
  cases response with
  | error message => exact absurd rfl (herror message)
  | _ => rfl

/-- A program that confirms a configuration and then renders two records. -/
def willing : Connection where
  channel := { peer := .program [replying .configured, replying (.rendered "mail A 192.0.2.2"),
    replying (.rendered "www A 192.0.2.1")] }

/-- The first of the two records. -/
def mail : Ask := .render {} "mail" (.ofValue .a ⟨"192.0.2.2", none⟩)

/-- The second. -/
def web : Ask := .render {} "www" (.ofValue .a ⟨"192.0.2.1", none⟩)

set_option maxRecDepth 2000 in
theorem size_payload_configure : (Request.configure {}).payload.size ≤ maxMessageSize := by
  rw [Request.payload, Json.write_eq]
  decide

/-- The first record is asked for after the configuration, the second without it. -/
theorem answers_willing :
    (Talk.answers ⟨willing, []⟩ [mail]).connection.configured = some {}
      ∧ (Talk.answers ⟨willing, []⟩ [mail]).transfers
        = [⟨.configure {}, true, .ok .configured⟩,
          ⟨mail.request, true, .ok (.rendered "mail A 192.0.2.2")⟩]
      ∧ ((Talk.answers ⟨willing, []⟩ [mail]).answer web).transfers
        = (Talk.answers ⟨willing, []⟩ [mail]).transfers
          ++ [⟨web.request, true, .ok (.rendered "www A 192.0.2.1")⟩] := by
  have hmail : mail.request.payload.size ≤ maxMessageSize := by
    rw [Request.payload, Json.write_eq]
    decide
  have hweb : web.request.payload.size ≤ maxMessageSize := by
    rw [Request.payload, Json.write_eq]
    decide
  have hrendered : ∀ text message, Response.rendered text ≠ .error message := fun _ _ h => by
    cases h
  have hfirst : ∃ written, Talk.answers ⟨willing, []⟩ [mail] = {
      connection := {
        channel := {
          written := written
          peer := .program [replying (.rendered "www A 192.0.2.1")] }
        configured := some {} }
      transfers := [⟨.configure {}, true, .ok .configured⟩,
        ⟨mail.request, true, .ok (.rendered "mail A 192.0.2.2")⟩] } := by
    refine ⟨ByteArray.empty ++ Channel.frame (Request.configure {}).payload
      ++ Channel.frame mail.request.payload, ?_⟩
    have hconfigured : ∀ message, Response.configured ≠ .error message := fun _ h => by
      cases h
    -- There is no configuration yet to rely on, so two replies are read.
    change (Talk.callConfigured {} mail.request ⟨willing, []⟩).2 = _
    rw [Talk.callConfigured, if_neg, Talk.configure,
      Talk.call_replying .configured rfl rfl size_payload_configure
        (by rw [Json.write_eq]; decide) trivial hconfigured]
    · exact congrArg Prod.snd (Talk.call_replying (.rendered "mail A 192.0.2.2") rfl rfl hmail
        (by rw [Json.write_eq]; decide) trivial (hrendered _))
    · exact Bool.false_ne_true
  rcases hfirst with ⟨written, hfirst⟩
  rw [hfirst]
  refine ⟨rfl, rfl, ?_⟩
  -- The same configuration is remembered, and only one reply is left.
  change (Talk.callConfigured {} web.request _).2.transfers = _
  rw [Talk.callConfigured, if_pos, Talk.call_replying (.rendered "www A 192.0.2.1") rfl rfl hweb
    (by rw [Json.write_eq]; decide) trivial (hrendered _)]
  exact Config.same_refl {}

/-- The first record is asked for after the configuration was confirmed, and the second after the
    first, under the same configuration, which covers it. -/
theorem protocol_willing :
    ∃ given first second : Transfer,
      (Talk.answers ⟨willing, []⟩ [mail]).transfers = [given, first]
      ∧ ((Talk.answers ⟨willing, []⟩ [mail]).answer web).transfers = [given, first, second]
      ∧ given.Confirms {} ∧ first.request = mail.request ∧ second.request = web.request
      ∧ second.written = true ∧ second.reply = .ok (.rendered "www A 192.0.2.1")
      ∧ Confirms [given, first] {} ∧ IsProper web [given, first] [second] := by
  have hprocess : ({ processes := [⟨"plugin", willing⟩] } : Host).processes[0]?
      = some ⟨"plugin", willing⟩ := rfl
  rcases protocol hprocess rfl "1.0.0" [mail] with ⟨-, -, hconfigured, hproper⟩
  rcases answers_willing with ⟨hknown, hfirst, hsecond⟩
  have hconfirms := (hconfigured {}).mp hknown
  rcases hproper web with ⟨made, hmade, hproper⟩
  cases List.append_cancel_left (hmade.symm.trans hsecond)
  rw [hfirst] at hsecond hconfirms hproper
  exact ⟨_, _, _, hfirst, hsecond, ⟨rfl, rfl, rfl⟩, rfl, rfl, rfl, rfl, hconfirms, hproper⟩

end External

end DnsZones
