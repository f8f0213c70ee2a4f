import DnsZones.Channel

/-!
# Frames in a Stream of Bytes

What is read where a stream begins with a message.

A length of 32 bits is written as four bytes, and any four bytes are such a
length. So a stream of four bytes or more always begins with the length of some
message, and there are three ways to go on: the message is over the limit, it is
there, or the stream ends before it does. Together with a stream that is too short
for a length this is all that reading a response can come to. Of a message over the
limit only the length is read; the message itself stays where it was.

A message with its length in front determines where it ends, so a sequence of
messages is recovered from the bytes of all of them.

## Main definitions

* `Channel.stream`: The bytes of a sequence of messages.
* `Channel.Front`: What a stream begins with.

## Theorems

* `Channel.lengthOf_lengthBytes`, `Channel.lengthBytes_lengthOf`: Lengths there and back.
* `Channel.frame_append_inj`: Where a message ends.
* `Channel.front`: There is nothing else that a stream begins with.
* `Channel.receive_of_short`, `Channel.receive_oversized`, `Channel.receive_cut`,
  `Channel.receive_frame`: Reading a response in each case.
* `Channel.frames_stream`: A sequence of messages is recovered.
-/

namespace DnsZones

namespace Channel

variable {bytes message other rest more : ByteArray} {messages later : List ByteArray} {n : Nat}
  {channel : Channel}

/-! ### Lengths -/

/-- The number of lengths that four bytes can denote. -/
def lengthBound : Nat := 0x100000000

theorem maxMessageSize_lt : maxMessageSize < lengthBound := by decide

/-- The bytes in a list are those in the array. -/
theorem toList_eq (bytes : ByteArray) : bytes.toList = bytes.data.toList := by
  -- The loop has the bytes before its place, last first, and those from there on to go.
  have hloop : ∀ count i read, bytes.size - i = count →
      ByteArray.toList.loop bytes i read = read.reverse ++ bytes.data.toList.drop i := by
    intro count
    induction count with
    | zero =>
        intro i read hi
        have hsize : bytes.data.toList.length ≤ i := by
          rw [Array.length_toList, ByteArray.size_data]
          omega
        rw [ByteArray.toList.loop, if_neg (by omega), List.drop_eq_nil_of_le hsize, List.append_nil]
    | succ count ih =>
        intro i read hi
        have hlt : i < bytes.size := by omega
        have hlength : i < bytes.data.toList.length := by
          rw [Array.length_toList, ByteArray.size_data]
          exact hlt
        have hget : bytes.get! i = bytes.data.toList[i] := by
          rw [Array.getElem_toList]
          exact getElem!_pos bytes.data i _
        rw [ByteArray.toList.loop, if_pos hlt, ih _ _ (by omega), List.reverse_cons,
          List.append_assoc, List.drop_eq_getElem_cons hlength, hget]
        rfl
  exact hloop _ 0 [] rfl

@[simp]
theorem size_lengthBytes (n : Nat) : (lengthBytes n).size = 4 := rfl

theorem size_frame (message : ByteArray) : (frame message).size = 4 + message.size :=
  ByteArray.size_append

/-- The length that the four bytes of a length denote. -/
theorem lengthOf_lengthBytes (h : n < lengthBound) : lengthOf (lengthBytes n) = n := by
  unfold lengthBound at h
  simp only [lengthOf, toList_eq, lengthBytes, List.take, List.foldl, UInt8.toNat_ofNat']
  omega

/-- Any four bytes are the bytes of the length that they denote. -/
theorem lengthBytes_lengthOf (h : bytes.size = 4) :
    lengthBytes (lengthOf bytes) = bytes ∧ lengthOf bytes < lengthBound := by
  rcases bytes with ⟨⟨list⟩⟩
  match list, h with
  | [a, b, c, d], _ =>
      have ha := a.toNat_lt
      have hb := b.toNat_lt
      have hc := c.toNat_lt
      have hd := d.toNat_lt
      have hlength : lengthOf ⟨⟨[a, b, c, d]⟩⟩
          = ((a.toNat * 256 + b.toNat) * 256 + c.toNat) * 256 + d.toNat := by
        simp only [lengthOf, toList_eq, List.take, List.foldl, Nat.zero_mul, Nat.zero_add]
      have hbyte : ∀ (byte : UInt8) (m : Nat), m % 256 = byte.toNat → UInt8.ofNat m = byte := by
        intro byte m hm
        rw [← UInt8.toNat_inj, UInt8.toNat_ofNat', hm]
      rw [hlength, lengthBytes, hbyte a _ (by omega), hbyte b _ (by omega), hbyte c _ (by omega),
        hbyte d _ (by omega)]
      exact ⟨rfl, by unfold lengthBound; omega⟩

/-- The length in front of two streams of the same bytes is the same. -/
theorem lengthBytes_append_inj {m : Nat} (hm : m < lengthBound) (hn : n < lengthBound)
    (h : lengthBytes m ++ rest = lengthBytes n ++ more) : m = n ∧ rest = more := by
  have hsize : (lengthBytes m).size = (lengthBytes n).size := by
    rw [size_lengthBytes, size_lengthBytes]
  rcases (ByteArray.append_eq_append_iff_of_size_eq_left hsize).mp h with ⟨hlength, hrest⟩
  exact ⟨by rw [← lengthOf_lengthBytes hm, hlength, lengthOf_lengthBytes hn], hrest⟩

/-! ### Messages -/

/-- The bytes of a sequence of messages. -/
def stream : List ByteArray → ByteArray
  | [] => ByteArray.empty
  | message :: messages => frame message ++ stream messages

theorem stream_append (messages later : List ByteArray) :
    stream (messages ++ later) = stream messages ++ stream later := by
  induction messages with
  | nil => exact ByteArray.empty_append.symm
  | cons message messages ih =>
      rw [List.cons_append, stream, ih, stream, ByteArray.append_assoc]

theorem size_stream_cons (message : ByteArray) (messages : List ByteArray) :
    (stream (message :: messages)).size = 4 + message.size + (stream messages).size := by
  rw [stream, ByteArray.size_append, size_frame]

/-- The message in front of two streams of the same bytes is the same. -/
theorem frame_append_inj (hm : message.size < lengthBound) (ho : other.size < lengthBound)
    (h : frame message ++ rest = frame other ++ more) : message = other ∧ rest = more := by
  rw [frame, frame, ByteArray.append_assoc, ByteArray.append_assoc] at h
  rcases lengthBytes_append_inj hm ho h with ⟨hsize, hbytes⟩
  exact (ByteArray.append_eq_append_iff_of_size_eq_left hsize).mp hbytes

/-- What a stream begins with. -/
inductive Front : ByteArray → Prop
  /-- Less than a length. -/
  | short {bytes : ByteArray} (h : bytes.size < 4) : Front bytes
  /-- The length of a message over the limit. -/
  | oversized {n : Nat} (hover : maxMessageSize < n) (hbound : n < lengthBound)
      (rest : ByteArray) : Front (lengthBytes n ++ rest)
  /-- The length of a message that is not all there. -/
  | cut {n : Nat} {rest : ByteArray} (hle : n ≤ maxMessageSize) (hcut : rest.size < n) :
      Front (lengthBytes n ++ rest)
  /-- A message. -/
  | whole {message : ByteArray} (hle : message.size ≤ maxMessageSize) (rest : ByteArray) :
      Front (frame message ++ rest)

/-- Every stream begins in one of these ways. -/
theorem front (bytes : ByteArray) : Front bytes := by
  rcases Nat.lt_or_ge bytes.size 4 with hshort | hfour
  · exact .short hshort
  · have hsize : (bytes.extract 0 4).size = 4 := by
      rw [ByteArray.size_extract]
      omega
    rcases lengthBytes_lengthOf hsize with ⟨hlength, hbound⟩
    generalize lengthOf (bytes.extract 0 4) = n at hlength hbound
    have hbytes : bytes = lengthBytes n ++ bytes.extract 4 bytes.size := by
      rw [hlength, ByteArray.extract_append_extract, Nat.min_eq_left (Nat.zero_le 4),
        Nat.max_eq_right hfour, ByteArray.extract_zero_size]
    generalize bytes.extract 4 bytes.size = rest at hbytes
    subst hbytes
    rcases Nat.lt_or_ge maxMessageSize n with hover | hle
    · exact .oversized hover hbound rest
    · rcases Nat.lt_or_ge rest.size n with hcut | hthere
      · exact .cut hle hcut
      · -- As many bytes as the length says are the message.
        have hmessage : (rest.extract 0 n).size = n := by
          rw [ByteArray.size_extract]
          omega
        have hrest : lengthBytes n ++ rest
            = frame (rest.extract 0 n) ++ rest.extract n rest.size := by
          rw [frame, hmessage, ByteArray.append_assoc, ByteArray.extract_append_extract,
            Nat.min_eq_left (Nat.zero_le n), Nat.max_eq_right hthere, ByteArray.extract_zero_size]
        rw [hrest]
        exact .whole (by rw [hmessage]; exact hle) _

/-! ### Reading -/

/-- Nothing is read where there is less than a length. -/
theorem receive_of_short (h : channel.unread.size < 4) :
    channel.receive = (.error .closed, channel.exhaust) := by
  rw [receive, if_pos h]

/-- Reading goes on after the length. -/
theorem receive_length (hunread : channel.unread = lengthBytes n ++ rest) (hn : n < lengthBound) :
    channel.receive
      = if maxMessageSize < n then (.error (.tooLarge n), { channel with unread := rest })
        else if rest.size < n then
          (.error (.system .unexpectedEnd), { channel with unread := rest }.exhaust)
        else (decode (rest.extract 0 n), { channel with unread := rest.extract n rest.size }) := by
  have hfour : ¬(lengthBytes n ++ rest).size < 4 := by
    rw [ByteArray.size_append, size_lengthBytes]
    omega
  have hlength : lengthOf ((lengthBytes n ++ rest).extract 0 4) = n := by
    rw [ByteArray.extract_append_eq_left (size_lengthBytes n).symm, lengthOf_lengthBytes hn]
  have hskip : channel.skip 4 = { channel with unread := rest } := by
    rw [skip, hunread, ByteArray.extract_append_eq_right (size_lengthBytes n).symm
      ByteArray.size_append]
  simp only [receive, hskip]
  rw [hunread, if_neg hfour, hlength]
  rfl

/-- Of a message over the limit no more than the length is read. -/
theorem receive_oversized (hunread : channel.unread = lengthBytes n ++ rest)
    (hover : maxMessageSize < n) (hbound : n < lengthBound) :
    channel.receive = (.error (.tooLarge n), { channel with unread := rest }) := by
  rw [receive_length hunread hbound, if_pos hover]

/-- A stream that ends inside a message is read to its end. -/
theorem receive_cut (hunread : channel.unread = lengthBytes n ++ rest) (hle : n ≤ maxMessageSize)
    (hcut : rest.size < n) :
    channel.receive
      = (.error (.system .unexpectedEnd), { channel with unread := rest }.exhaust) := by
  rw [receive_length hunread (Nat.lt_of_le_of_lt hle maxMessageSize_lt),
    if_neg (Nat.not_lt.mpr hle), if_pos hcut]

/-- A message that is there is read, and nothing after it. -/
theorem receive_frame (hunread : channel.unread = frame message ++ rest)
    (hle : message.size ≤ maxMessageSize) :
    channel.receive = (decode message, { channel with unread := rest }) := by
  have hthere : ¬(message ++ rest).size < message.size := by
    rw [ByteArray.size_append]
    omega
  rw [frame, ByteArray.append_assoc] at hunread
  rw [receive_length hunread (Nat.lt_of_le_of_lt hle maxMessageSize_lt),
    if_neg (Nat.not_lt.mpr hle), if_neg hthere, ByteArray.extract_append_eq_left rfl,
    ByteArray.extract_append_eq_right rfl ByteArray.size_append]

/-! ### Many messages -/

/-- The messages of a sequence are found one by one. -/
theorem framesFrom_stream (h : ∀ message ∈ messages, message.size < lengthBound) (steps : Nat) :
    framesFrom (messages.length + steps) (stream messages) = (messages, ByteArray.empty) := by
  induction messages with
  | nil =>
      cases steps with
      | zero => rfl
      | succ steps => rfl
  | cons message messages ih =>
      have hfour : ¬(stream (message :: messages)).size < 4 := by
        rw [size_stream_cons]
        omega
      have hthere : ¬(stream (message :: messages)).size < 4 + message.size := by
        rw [size_stream_cons]
        omega
      have hbytes : stream (message :: messages)
          = lengthBytes message.size ++ (message ++ stream messages) := by
        rw [stream, frame, ByteArray.append_assoc]
      have hlength : lengthOf ((stream (message :: messages)).extract 0 4) = message.size := by
        rw [hbytes, ByteArray.extract_append_eq_left (size_lengthBytes _).symm,
          lengthOf_lengthBytes (h message List.mem_cons_self)]
      have hmessage : (stream (message :: messages)).extract 4 (4 + message.size) = message := by
        rw [hbytes, ← Nat.add_zero 4, ByteArray.extract_append_size_add' (size_lengthBytes _).symm,
          ByteArray.extract_append_eq_left rfl]
      have hrest : (stream (message :: messages)).extract (4 + message.size)
          (stream (message :: messages)).size = stream messages := by
        rw [stream]
        exact ByteArray.extract_append_eq_right (size_frame message).symm ByteArray.size_append
      rw [List.length_cons, Nat.add_right_comm, framesFrom]
      simp only [hfour, hlength, hthere, hmessage, hrest, if_false,
        ih fun other ho => h other (List.mem_cons_of_mem _ ho)]

/-- The messages of a sequence are recovered from its bytes, and nothing is left over. -/
theorem frames_stream (h : ∀ message ∈ messages, message.size < lengthBound) :
    frames (stream messages) = (messages, ByteArray.empty) := by
  have hsteps : messages.length ≤ (stream messages).size := by
    clear h
    induction messages with
    | nil => exact Nat.le_refl 0
    | cons message messages ih =>
        rw [size_stream_cons, List.length_cons]
        omega
  obtain ⟨steps, hsize⟩ := Nat.exists_eq_add_of_le hsteps
  rw [frames, hsize, framesFrom_stream h]

end Channel

end DnsZones
