import DnsZones.Proofs.Channel.Framing
import DnsZones.Proofs.Writing

/-!
# Requests and Responses in Pairs

Which response answers which request.

The host has one request under way at a time and reads one message for it, whatever
the message holds. So as long as there is nothing but messages to be read, calls and
messages stay side by side: a call that is made takes the next message, also when
that is no response and the call fails for it; and a call that is refused because its
request is over the limit takes nothing and leaves nothing. Where the channel stands
is known from the requests that came before, without running them.

What is written is the other half of it: the requests that were made, one message
each, from which all of them are read again.

## Main definitions

* `Request.payload`: The message of a request.
* `Channel.holding`, `Channel.after`: A channel with messages to be read, and after some calls.
* `Channel.accepted`: The requests that are made.
* `Channel.IsPaired`: Calls and messages are side by side.

## Theorems

* `Request.decode_payload`: A request is read from its message.
* `Channel.call_of_tooLarge`, `Channel.call_frame`, `Channel.call_empty`,
  `Channel.call_program`: One call.
* `Channel.after_holding`: Where a channel stands after some calls.
* `Channel.paired`: Calls and messages stay side by side.
-/

namespace DnsZones

namespace Request

/-- The message of a request. -/
def payload (request : Request) : ByteArray := request.toJson.write.toUTF8

/-- The message of the request is within the limit. -/
def isAcceptable (request : Request) : Bool := request.payload.size ≤ maxMessageSize

/-- Read a request from a message. -/
def decode? (message : ByteArray) : Option Request :=
  (String.fromUTF8? message).bind fun text => (Json.readText ofJson text).toOption

/-- A whole request is read from its message. -/
theorem decode_payload {request : Request} (h : request.IsWhole) :
    decode? request.payload = some request := by
  rw [decode?, payload, Json.fromUTF8?_toUTF8, Option.bind_some, readText_write h]
  rfl

end Request

namespace Channel

variable {message rest : ByteArray} {messages : List ByteArray} {request : Request}
  {requests : List Request} {channel : Channel}

/-- What a message is read as, if it is no response. -/
theorem decode_eq_ok_or (message : ByteArray) :
    (∃ response, decode message = .ok response) ∨ decode message = .error .unreadable := by
  rw [decode]
  split
  · exact .inr rfl
  · split
    · exact .inl ⟨_, rfl⟩
    · exact .inr rfl

/-- The message of a response is read as the response. -/
theorem decode_toJson {response : Response} (h : response.IsWhole) :
    decode response.toJson.write.toUTF8 = .ok response := by
  simp only [decode, Json.fromUTF8?_toUTF8, Response.readText_write h]

/-! ### One call -/

/-- A request over the limit is refused, and nothing else happens. -/
theorem call_of_tooLarge (h : maxMessageSize < request.payload.size) :
    channel.call request = (.error (.tooLarge request.payload.size), channel) := by
  have hsend : channel.send request = (.error (.tooLarge request.payload.size), channel) :=
    if_pos h
  rw [call, hsend]

/-- A request within the limit is written before anything is read. -/
theorem call_of_buffer (hpeer : channel.peer = .buffer)
    (h : request.payload.size ≤ maxMessageSize) :
    channel.call request
      = { channel with written := channel.written ++ frame request.payload }.receive := by
  have hsend : channel.send request = channel.deliver (frame request.payload) :=
    if_neg (Nat.not_lt.mpr h)
  rw [call, hsend, deliver, hpeer]

/-- A call takes the message that is to be read next. -/
theorem call_frame (hpeer : channel.peer = .buffer) (h : request.payload.size ≤ maxMessageSize)
    (hunread : channel.unread = frame message ++ rest) (hle : message.size ≤ maxMessageSize) :
    channel.call request
      = (decode message, { channel with
          unread := rest
          written := channel.written ++ frame request.payload }) := by
  rw [call_of_buffer hpeer h]
  exact receive_frame hunread hle

/-- A call fails where there is no message left. -/
theorem call_empty (hpeer : channel.peer = .buffer) (h : request.payload.size ≤ maxMessageSize)
    (hunread : channel.unread = ByteArray.empty) :
    channel.call request
      = (.error .closed, { channel with
          written := channel.written ++ frame request.payload }) := by
  rw [call_of_buffer hpeer h, receive_of_short, exhaust]
  · rw [hpeer, hunread]
  · rw [hunread]
    decide

/-- A program that answers with a message, and has that message alone to be read, is read. -/
theorem call_program {exits : Bool} {replies : List Reply}
    (hunread : channel.unread = ByteArray.empty)
    (hpeer : channel.peer = .program (⟨frame message, exits⟩ :: replies))
    (h : request.payload.size ≤ maxMessageSize) (hle : message.size ≤ maxMessageSize) :
    channel.call request = (decode message, {
      unread := ByteArray.empty
      written := channel.written ++ frame request.payload
      peer := if exits then .ended else .program replies }) := by
  have hsend : channel.send request = channel.deliver (frame request.payload) :=
    if_neg (Nat.not_lt.mpr h)
  rw [call, hsend, deliver, hpeer]
  refine receive_frame ?_ hle
  rw [hunread, ByteArray.empty_append, ByteArray.append_empty]

/-- There are requests within the limit. -/
theorem size_payload_version : Request.version.payload.size ≤ maxMessageSize := by
  rw [Request.payload, Json.write_eq]
  decide

theorem size_payload_types : Request.types.payload.size ≤ maxMessageSize := by
  rw [Request.payload, Json.write_eq]
  decide

/-! ### Many calls -/

/-- A channel with messages to be read, and nobody at the other end. -/
def holding (messages : List ByteArray) : Channel := { unread := stream messages }

/-- The channel after a request for each in a list was made. -/
def after (channel : Channel) (requests : List Request) : Channel :=
  requests.foldl (fun channel request => (channel.call request).2) channel

/-- The requests of a list that are within the limit. -/
def accepted (requests : List Request) : List Request :=
  requests.filter Request.isAcceptable

theorem after_concat (channel : Channel) (requests : List Request) (request : Request) :
    channel.after (requests ++ [request]) = ((channel.after requests).call request).2 :=
  List.foldl_concat ..

theorem accepted_concat_of_tooLarge (h : maxMessageSize < request.payload.size) :
    accepted (requests ++ [request]) = accepted requests := by
  rw [accepted, List.filter_append, List.filter_cons_of_neg, List.filter_nil, List.append_nil]
  · rfl
  · rw [Request.isAcceptable, decide_eq_true_eq]
    exact Nat.not_le.mpr h

theorem accepted_concat (requests : List Request) (h : request.payload.size ≤ maxMessageSize) :
    accepted (requests ++ [request]) = accepted requests ++ [request] := by
  have hkeep : request.isAcceptable = true := decide_eq_true h
  rw [accepted, List.filter_append, List.filter_cons_of_pos hkeep, List.filter_nil]
  rfl

/-- Every request within the limit took a message, if there was one, and was written. -/
theorem after_holding (h : ∀ message ∈ messages, message.size ≤ maxMessageSize)
    (requests : List Request) :
    (holding messages).after requests
      = { unread := stream (messages.drop (accepted requests).length)
          written := stream ((accepted requests).map Request.payload) } := by
  induction requests using List.reverseRecOn with
  | nil => rfl
  | append_singleton requests request ih =>
      rw [after_concat, ih]
      rcases Nat.lt_or_ge maxMessageSize request.payload.size with hover | hle
      · rw [call_of_tooLarge hover, accepted_concat_of_tooLarge hover]
      · have hwritten : stream ((accepted requests).map Request.payload) ++ frame request.payload
            = stream ((accepted (requests ++ [request])).map Request.payload) := by
          rw [accepted_concat _ hle, List.map_append, stream_append, List.map_singleton, stream,
            stream, ByteArray.append_empty]
        have hrest : messages.drop (accepted (requests ++ [request])).length
            = (messages.drop (accepted requests).length).tail := by
          rw [accepted_concat _ hle, List.length_append, List.length_singleton, List.tail_drop]
        rw [← hwritten, hrest]
        cases hdrop : messages.drop (accepted requests).length with
        | nil => rw [call_empty rfl hle rfl]; rfl
        | cons message later =>
            have hmessage := h message (List.mem_of_mem_drop (hdrop ▸ List.mem_cons_self))
            rw [call_frame rfl hle rfl hmessage]
            rfl

/-- A channel that had messages to be read, after calls for some requests. -/
structure IsPaired (messages : List ByteArray) (requests : List Request) (channel : Channel) :
    Prop where
  /-- Each request within the limit took one message. -/
  unread : channel.unread = stream (messages.drop (accepted requests).length)
  /-- Each of them was written. -/
  written : channel.written = stream ((accepted requests).map Request.payload)
  /-- They are found again in what was written. -/
  recovered : frames channel.written = ((accepted requests).map Request.payload, ByteArray.empty)
  /-- Another request over the limit is refused, and nothing else happens. -/
  refused : ∀ request : Request, maxMessageSize < request.payload.size →
    channel.call request = (.error (.tooLarge request.payload.size), channel)
  /-- Another request within the limit is answered by the message in its place. -/
  answered : ∀ request : Request, request.payload.size ≤ maxMessageSize →
    (channel.call request).1
      = match messages[(accepted requests).length]? with
        | some message => decode message
        | none => .error .closed

/-- **Calls and messages stay side by side.** Whatever the requests and the messages are, the
    calls before another one have taken as many messages as there were requests within the
    limit, and it is answered by the message that comes next, which is a response or fails as
    none. The requests are read again from what was written. -/
theorem paired (h : ∀ message ∈ messages, message.size ≤ maxMessageSize)
    (requests : List Request) :
    IsPaired messages requests ((holding messages).after requests)
      ∧ (∀ message ∈ messages,
        (∃ response, decode message = .ok response) ∨ decode message = .error .unreadable)
      ∧ ∀ request ∈ accepted requests, request.IsWhole →
        Request.decode? request.payload = some request := by
  rw [after_holding h]
  refine ⟨⟨rfl, rfl, frames_stream ?_, fun request hover => call_of_tooLarge hover,
    fun request hle => ?_⟩, fun message _ => decode_eq_ok_or message,
    fun request _ hwhole => Request.decode_payload hwhole⟩
  · intro message hm
    rcases List.mem_map.mp hm with ⟨request, hr, rfl⟩
    have hle := (List.mem_filter.mp hr).2
    exact Nat.lt_of_le_of_lt (of_decide_eq_true hle) maxMessageSize_lt
  · cases hdrop : messages.drop (accepted requests).length with
    | nil =>
        rw [call_empty rfl hle rfl, List.getElem?_eq_none (List.drop_eq_nil_iff.mp hdrop)]
    | cons message later =>
        have hmessage := h message (List.mem_of_mem_drop (hdrop ▸ List.mem_cons_self))
        have hget : messages[(accepted requests).length]? = some message := by
          rw [← List.head?_drop, hdrop, List.head?_cons]
        rw [call_frame rfl hle rfl hmessage, hget]

/-- A response, and a byte that begins no text. -/
def garbled : List ByteArray := [Response.validated.toJson.write.toUTF8, ByteArray.mk #[0xFF]]

/-- Of three calls the first is answered, the second takes what is no response, and for the
    third nothing is left. -/
theorem paired_garbled :
    (∀ message ∈ garbled, message.size ≤ maxMessageSize)
      ∧ ((holding garbled).call .version).1 = .ok .validated
      ∧ (((holding garbled).after [.version]).call .types).1 = .error .unreadable
      ∧ (((holding garbled).after [.version, .types]).call .version).1 = .error .closed
      ∧ frames ((holding garbled).after [.version, .types]).written
        = ([Request.version.payload, Request.types.payload], ByteArray.empty) := by
  have hversion := size_payload_version
  have htypes := size_payload_types
  have hsmall : ∀ message ∈ garbled, message.size ≤ maxMessageSize := by
    rw [garbled, Json.write_eq]
    decide
  have hone : accepted [.version] = [.version] := accepted_concat [] hversion
  have htwo : accepted [.version, .types] = [.version, .types] :=
    (accepted_concat [.version] htypes).trans (congrArg (· ++ [.types]) hone)
  refine ⟨hsmall, ?_, ?_, ?_, ?_⟩
  · exact ((paired hsmall []).1.answered .version hversion).trans (decode_toJson trivial)
  · refine ((paired hsmall [.version]).1.answered .types htypes).trans ?_
    rw [hone]
    decide
  · refine ((paired hsmall [.version, .types]).1.answered .version hversion).trans ?_
    rw [htwo]
    rfl
  · rw [(paired hsmall [.version, .types]).1.recovered, htwo]
    rfl

end Channel

end DnsZones
