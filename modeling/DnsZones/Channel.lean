import DnsZones.Message
import DnsZones.SystemError
import DnsZones.Store

/-!
# Channels to Plugins

Requests and responses as bytes.

Every message is preceded by its length as four bytes, the most significant
first. The host writes one request and then reads one response; it never has two
requests under way. A message over the size limit is refused on either side: a
request before anything is written, a response after its length is read.

A channel is what the host sees of the other end: the bytes that are there to be
read, the bytes that were written, and what the other end will do next. A program
answers each request with its next reply, and ends when a request finds no reply
left; a mere buffer takes what is written and does nothing. That a program has ended
shows first at the end of the bytes that it wrote; from then on writing fails.

## Main definitions

* `TransportError`: Why an exchange fails.
* `Channel`: The host's end.
* `Channel.send`, `Channel.receive`, `Channel.call`: One exchange.
* `Channel.frames`: The messages in a sequence of bytes.
-/

namespace DnsZones

/-- Why an exchange with a plugin fails. -/
inductive TransportError where
  /-- Writing or reading failed. -/
  | system (cause : SystemError)
  /-- A message is over the size limit. -/
  | tooLarge (size : Nat)
  /-- A message is not a document of the right shape. -/
  | unreadable
  /-- The plugin speaks another version of the protocol. -/
  | versionMismatch (actual : UInt32)
  /-- The response is none that the request allows. -/
  | unexpected (request response : String)
  | closed
  deriving DecidableEq, Repr

/-- The version of the protocol. -/
def protocolVersion : UInt32 := 1

/-- The largest number of bytes in a message: 10 MiB. -/
def maxMessageSize : Nat := 10 * 1024 * 1024

namespace TransportError

/-- How an error is reported. -/
def message : TransportError → String
  | system cause => "IO error: " ++ cause.message
  | tooLarge size =>
    "Message too large: " ++ Numeral.decimal size ++ " bytes (max: "
      ++ Numeral.decimal maxMessageSize ++ ")"
  | unreadable => "Serialization error: " ++ Json.errorText
  | versionMismatch actual =>
    "Protocol version mismatch: expected " ++ Numeral.decimal protocolVersion.toNat ++ ", got "
      ++ Numeral.decimal actual.toNat
  | unexpected request response => "Unexpected response to " ++ request ++ ": " ++ response
  | closed => "Plugin closed the connection"

end TransportError

/-- What is at the other end of a channel. -/
inductive Peer where
  /-- Nobody: what is written is kept, and nothing is answered. -/
  | buffer
  /-- A running program and the replies that it has left. -/
  | program (replies : List Reply)
  /-- A program that has ended, which nobody has noticed. -/
  | ended
  /-- A program that is known to have ended. -/
  | gone

/-- The host's end of a channel. -/
structure Channel where
  /-- The bytes that can be read and were not yet. -/
  unread : ByteArray := ByteArray.empty
  /-- The bytes that were written. -/
  written : ByteArray := ByteArray.empty
  /-- The other end. -/
  peer : Peer := .buffer

namespace Channel

/-- A length as four bytes, the most significant first. -/
def lengthBytes (n : Nat) : ByteArray :=
  ByteArray.mk #[UInt8.ofNat (n / 0x1000000), UInt8.ofNat (n / 0x10000), UInt8.ofNat (n / 0x100),
    UInt8.ofNat n]

/-- The length that the first four bytes denote. -/
def lengthOf (bytes : ByteArray) : Nat :=
  (bytes.toList.take 4).foldl (fun n byte => n * 256 + byte.toNat) 0

/-- A message with its length in front. -/
def frame (message : ByteArray) : ByteArray := lengthBytes message.size ++ message

/-- The channel after whole messages were written to it. -/
def deliver (channel : Channel) (bytes : ByteArray) : Except TransportError Unit × Channel :=
  match channel.peer with
  | .gone => (.error (.system .brokenPipe), channel)
  | .buffer => (.ok (), { channel with written := channel.written ++ bytes })
  | .ended => (.ok (), channel)
  | .program [] => (.ok (), { channel with written := channel.written ++ bytes, peer := .ended })
  | .program (reply :: replies) =>
    (.ok (), {
      unread := channel.unread ++ reply.bytes
      written := channel.written ++ bytes
      peer := if reply.exits then .ended else .program replies })

/-- Write a request. -/
def send (channel : Channel) (request : Request) : Except TransportError Unit × Channel :=
  let message := request.toJson.write.toUTF8
  if maxMessageSize < message.size then (.error (.tooLarge message.size), channel)
  else channel.deliver (frame message)

/-- The channel after so many bytes were read, or all if there are fewer. -/
def skip (channel : Channel) (count : Nat) : Channel :=
  { channel with unread := channel.unread.extract count channel.unread.size }

/-- The channel after all bytes were read and the end was reached. -/
def exhaust (channel : Channel) : Channel :=
  { channel with
    unread := ByteArray.empty
    peer := match channel.peer with
      | .ended => .gone
      | peer => peer }

/-- Read a response from the bytes of a message. -/
def decode (message : ByteArray) : Except TransportError Response :=
  match String.fromUTF8? message with
  | none => .error .unreadable
  | some text =>
    match Json.readText Response.ofJson text with
    | .ok response => .ok response
    | .error _ => .error .unreadable

/-- Read a response: its length, then as many bytes. -/
def receive (channel : Channel) : Except TransportError Response × Channel :=
  if channel.unread.size < 4 then (.error .closed, channel.exhaust)
  else
    let length := lengthOf (channel.unread.extract 0 4)
    let channel := channel.skip 4
    if maxMessageSize < length then (.error (.tooLarge length), channel)
    else if channel.unread.size < length then (.error (.system .unexpectedEnd), channel.exhaust)
    else (decode (channel.unread.extract 0 length), channel.skip length)

/-- Write a request and read the response to it. -/
def call (channel : Channel) (request : Request) : Except TransportError Response × Channel :=
  match channel.send request with
  | (.error error, channel) => (.error error, channel)
  | (.ok (), channel) => channel.receive

/-- The messages in a sequence of bytes, and the bytes after the last whole one. Each message
    takes four bytes or more, so as many steps as there are bytes are enough. -/
def framesFrom : (steps : Nat) → ByteArray → List ByteArray × ByteArray
  | 0, bytes => ([], bytes)
  | steps + 1, bytes =>
    if bytes.size < 4 then ([], bytes)
    else
      let length := lengthOf (bytes.extract 0 4)
      if bytes.size < 4 + length then ([], bytes)
      else
        let (messages, rest) := framesFrom steps (bytes.extract (4 + length) bytes.size)
        (bytes.extract 4 (4 + length) :: messages, rest)

/-- The messages in a sequence of bytes, and the bytes after the last whole one. -/
def frames (bytes : ByteArray) : List ByteArray × ByteArray := framesFrom bytes.size bytes

end Channel

end DnsZones
