import DnsZones.Proofs.Channel.Pairing

/-!
# Messages That Are Left Behind

What becomes of the calls after one that met a message over the limit.

Such a message is refused as soon as its length is known, and is not read. The next
call begins to read inside of it, takes its first four bytes for a length, and so on
through the message and whatever follows. Nothing tells the host where the
messages begin any more, so from there on the bytes of the lost message decide what
the calls come to: they may all fail, they may find the later messages again, or a
whole response may stand inside the lost message and answer a request that it was not
meant for.

A stream stays in step exactly if none of the messages over the limit has such bytes.

## Main definitions

* `Channel.Reaches`: Where reading gets from the beginning of a stream.
* `Channel.IsInStep`: Every response that a call returns is a message of the stream.
* `Channel.IsHarmless`: What a lost message may hold so that this stays so.
* `Channel.ones`: A message with no other message inside of it.

## Theorems

* `Channel.exists_after_of_reaches`, `Channel.reaches_after`: Where calls get is where
  reading does.
* `Channel.reaches_stream`: Reading a sequence of messages, up to a lost one.
* `Channel.isHarmless_of_isInStep`, `Channel.isInStep_of_isHarmless`, `Channel.isInStep_iff`: When
  a stream stays in step.
* `Channel.isHarmless_ones`: A kind of lost message that does no harm.
* `Channel.not_isInStep_nested`: A stream that does not.
-/

namespace DnsZones

namespace Channel

variable {bytes rest more message lost : ByteArray} {messages later : List ByteArray} {n : Nat}
  {request : Request} {requests : List Request} {response : Response} {channel : Channel}

/-! ### Reading from place to place -/

/-- Some responses are read from a stream of bytes, and more is left. -/
inductive Reaches : ByteArray → ByteArray → Prop
  | here (bytes : ByteArray) : Reaches bytes bytes
  /-- A message is read. -/
  | message {message rest more : ByteArray} (hle : message.size ≤ maxMessageSize)
      (h : Reaches rest more) : Reaches (frame message ++ rest) more
  /-- Of a message over the limit its length is read. -/
  | length {n : Nat} {rest more : ByteArray} (hover : maxMessageSize < n)
      (hbound : n < lengthBound) (h : Reaches rest more) : Reaches (lengthBytes n ++ rest) more

theorem Reaches.trans (h : Reaches bytes rest) (hmore : Reaches rest more) :
    Reaches bytes more := by
  induction h with
  | here bytes => exact hmore
  | message hle _ ih => exact .message hle (ih hmore)
  | length hover hbound _ ih => exact .length hover hbound (ih hmore)

/-- Nothing is read after the end. -/
theorem Reaches.eq_of_size (h : Reaches bytes more) (hsize : bytes.size = 0) : bytes = more := by
  cases h with
  | here => rfl
  | message hle h =>
      rw [ByteArray.size_append, size_frame] at hsize
      omega
  | length hover hbound h =>
      rw [ByteArray.size_append, size_lengthBytes] at hsize
      omega

/-- Messages within the limit are read one after the other. -/
theorem reaches_stream_append (h : ∀ message ∈ messages, message.size ≤ maxMessageSize)
    (later : List ByteArray) : Reaches (stream (messages ++ later)) (stream later) := by
  induction messages with
  | nil => exact .here _
  | cons message messages ih =>
      exact .message (h message List.mem_cons_self)
        (ih fun other ho => h other (List.mem_cons_of_mem _ ho))

/-- Where reading gets from a sequence of messages: to one of them, or past the length of one
    that is over the limit and on from there. -/
theorem reaches_stream (hbound : ∀ message ∈ messages, message.size < lengthBound)
    (h : Reaches (stream messages) more) :
    (∃ later, later <:+ messages ∧ more = stream later)
      ∨ ∃ read lost rest, messages = read ++ lost :: rest
        ∧ (∀ message ∈ read, message.size ≤ maxMessageSize) ∧ maxMessageSize < lost.size
        ∧ Reaches (lost ++ stream rest) more := by
  induction messages with
  | nil => exact .inl ⟨[], List.suffix_rfl, (h.eq_of_size rfl).symm⟩
  | cons first messages ih =>
      have hfirst := hbound first List.mem_cons_self
      have hlater : ∀ message ∈ messages, message.size < lengthBound := fun message hm =>
        hbound message (List.mem_cons_of_mem _ hm)
      generalize hbytes : stream (first :: messages) = bytes at h
      rw [stream] at hbytes
      cases h with
      | here => exact .inl ⟨first :: messages, List.suffix_rfl, hbytes.symm⟩
      | message hle h =>
          rcases frame_append_inj hfirst (Nat.lt_of_le_of_lt hle maxMessageSize_lt) hbytes with
            ⟨rfl, rfl⟩
          rcases ih hlater h with ⟨later, hsuffix, rfl⟩ | ⟨read, lost, rest, rfl, hread, hlost, h⟩
          · exact .inl ⟨later, hsuffix.trans (List.suffix_cons _ _), rfl⟩
          · refine .inr ⟨first :: read, lost, rest, rfl, fun message hm => ?_, hlost, h⟩
            rcases List.mem_cons.mp hm with rfl | hm
            · exact hle
            · exact hread message hm
      | length hover hn h =>
          rw [frame, ByteArray.append_assoc] at hbytes
          rcases lengthBytes_append_inj hfirst hn hbytes with ⟨rfl, rfl⟩
          exact .inr ⟨[], first, messages, rfl, fun _ hm => absurd hm List.not_mem_nil, hover, h⟩

/-- A message that stands where some messages of a sequence do is the first of these. -/
theorem exists_of_frame_eq_stream (hbound : ∀ message ∈ messages, message.size < lengthBound)
    (hsuffix : later <:+ messages) (hle : message.size ≤ maxMessageSize)
    (hstream : frame message ++ rest = stream later) :
    ∃ behind, (message :: behind) <:+ messages ∧ rest = stream behind := by
  cases later with
  | nil =>
      have hsize := congrArg ByteArray.size hstream
      rw [ByteArray.size_append, size_frame, stream, ByteArray.size_empty] at hsize
      omega
  | cons other later =>
      have hother := hbound other (hsuffix.subset List.mem_cons_self)
      rcases frame_append_inj (Nat.lt_of_le_of_lt hle maxMessageSize_lt) hother hstream with
        ⟨rfl, rfl⟩
      exact ⟨later, hsuffix, rfl⟩

/-! ### Calls -/

/-- A call that meets a message over the limit reads its length and nothing else. -/
theorem call_oversized (hpeer : channel.peer = .buffer) (h : request.payload.size ≤ maxMessageSize)
    (hunread : channel.unread = lengthBytes n ++ rest) (hover : maxMessageSize < n)
    (hbound : n < lengthBound) :
    channel.call request
      = (.error (.tooLarge n), { channel with
          unread := rest
          written := channel.written ++ frame request.payload }) := by
  rw [call_of_buffer hpeer h]
  exact receive_oversized hunread hover hbound

/-- Wherever reading gets, calls do. -/
theorem exists_after_of_reaches (h : Reaches bytes more) (channel : Channel)
    (hunread : channel.unread = bytes) (hpeer : channel.peer = .buffer) :
    ∃ requests, (channel.after requests).unread = more
      ∧ (channel.after requests).peer = .buffer := by
  induction h generalizing channel with
  | here bytes => exact ⟨[], hunread, hpeer⟩
  | message hle _ ih =>
      have hcall := call_frame hpeer size_payload_version hunread hle
      rcases ih (channel.call .version).2 (by rw [hcall]) (by rw [hcall]; exact hpeer)
        with ⟨requests, hafter⟩
      exact ⟨.version :: requests, hafter⟩
  | length hover hbound _ ih =>
      have hcall := call_oversized hpeer size_payload_version hunread hover hbound
      rcases ih (channel.call .version).2 (by rw [hcall]) (by rw [hcall]; exact hpeer)
        with ⟨requests, hafter⟩
      exact ⟨.version :: requests, hafter⟩

/-- What a call came to: it returns a message that was in front, or it fails. -/
inductive Outcome (channel : Channel) : Except TransportError Response × Channel → Prop
  /-- The message in front was read, whatever it is. -/
  | message {message rest written : ByteArray} (hunread : channel.unread = frame message ++ rest)
      (hle : message.size ≤ maxMessageSize) :
      Outcome channel (decode message, { unread := rest, written := written })
  /-- The call failed, and reading got on or to the end. -/
  | failure {error : TransportError} {rest written : ByteArray}
      (h : Reaches channel.unread rest ∨ rest = ByteArray.empty) :
      Outcome channel (.error error, { unread := rest, written := written })

/-- There is nothing else that a call comes to. -/
theorem call_outcome (hpeer : channel.peer = .buffer) (request : Request) :
    Outcome channel (channel.call request) := by
  rcases channel with ⟨unread, written, peer⟩
  obtain rfl : peer = .buffer := hpeer
  rcases Nat.lt_or_ge maxMessageSize request.payload.size with hover | hle
  · rw [call_of_tooLarge hover]
    exact .failure (.inl (.here _))
  · have hfront := front unread
    cases hfront with
    | short hshort =>
        rw [call_of_buffer rfl hle, receive_of_short hshort]
        exact .failure (.inr rfl)
    | oversized hover hbound rest =>
        rw [call_oversized rfl hle rfl hover hbound]
        exact .failure (.inl (.length hover hbound (.here _)))
    | cut hsmall hcut =>
        rw [call_of_buffer rfl hle, receive_cut rfl hsmall hcut]
        exact .failure (.inr rfl)
    | whole hsmall rest =>
        rw [call_frame rfl hle rfl hsmall]
        exact .message rfl hsmall

/-- Wherever calls get, reading does, or they are at the end. -/
theorem reaches_after (channel : Channel) (hpeer : channel.peer = .buffer)
    (requests : List Request) :
    (Reaches channel.unread (channel.after requests).unread
        ∨ (channel.after requests).unread = ByteArray.empty)
      ∧ (channel.after requests).peer = .buffer := by
  induction requests using List.reverseRecOn with
  | nil => exact ⟨.inl (.here _), hpeer⟩
  | append_singleton requests request ih =>
      rcases ih with ⟨hreaches, hbuffer⟩
      rw [after_concat]
      -- From the end there is nowhere to get.
      have hnext : ∀ rest, Reaches (channel.after requests).unread rest →
          Reaches channel.unread rest ∨ rest = ByteArray.empty := fun rest h =>
        hreaches.imp (fun hbefore => hbefore.trans h)
          fun hend => (h.eq_of_size (by rw [hend]; rfl)).symm.trans hend
      have houtcome := call_outcome hbuffer request
      generalize (channel.after requests).call request = result at houtcome ⊢
      cases houtcome with
      | message hunread hle =>
          exact ⟨hnext _ (hunread ▸ .message hle (.here _)), rfl⟩
      | failure h => exact ⟨h.elim (hnext _) .inr, rfl⟩

/-! ### Staying in step -/

/-- Every response that a call returns is a message of the stream, read where that message
    stands. -/
def IsInStep (messages : List ByteArray) : Prop :=
  ∀ (requests : List Request) (request : Request) (response : Response),
    (((holding messages).after requests).call request).1 = .ok response →
      ∃ message later, (message :: later) <:+ messages
        ∧ ((holding messages).after requests).unread = stream (message :: later)
        ∧ decode message = .ok response

/-- Whatever is read as a response from the bytes of a lost message and of those after it is one
    of those after it. -/
def IsHarmless (lost : ByteArray) (messages : List ByteArray) : Prop :=
  ∀ (message rest : ByteArray) (response : Response), message.size ≤ maxMessageSize →
    decode message = .ok response → Reaches (lost ++ stream messages) (frame message ++ rest) →
      ∃ later, (message :: later) <:+ messages ∧ rest = stream later

theorem size_stream_le_of_suffix (h : later <:+ messages) :
    (stream later).size ≤ (stream messages).size := by
  rcases h with ⟨read, rfl⟩
  rw [stream_append, ByteArray.size_append]
  exact Nat.le_add_left _ _

/-- Reading never gets back. -/
theorem Reaches.size_le (h : Reaches bytes more) : more.size ≤ bytes.size := by
  induction h with
  | here => exact Nat.le_refl _
  | message hle _ ih =>
      rw [ByteArray.size_append]
      exact Nat.le_trans ih (Nat.le_add_left _ _)
  | length hover hbound _ ih =>
      rw [ByteArray.size_append]
      exact Nat.le_trans ih (Nat.le_add_left _ _)

/-- What a lost message holds that is no later message is what some call returns. -/
theorem isHarmless_of_isInStep {read rest : List ByteArray}
    (hbound : ∀ message ∈ read ++ lost :: rest, message.size < lengthBound)
    (hread : ∀ message ∈ read, message.size ≤ maxMessageSize) (hlost : maxMessageSize < lost.size)
    (hstep : IsInStep (read ++ lost :: rest)) : IsHarmless lost rest := by
  intro message tail response hle hdecode hreaches
  -- Some calls get past the length of the lost message and to the response.
  have hlength : Reaches (stream (read ++ lost :: rest)) (frame message ++ tail) := by
    refine (reaches_stream_append hread _).trans ?_
    rw [stream, frame, ByteArray.append_assoc]
    exact .length hlost (hbound lost (List.mem_append_right _ List.mem_cons_self)) hreaches
  rcases exists_after_of_reaches hlength (holding (read ++ lost :: rest)) rfl rfl with
    ⟨requests, hunread, hpeer⟩
  have hcall := call_frame hpeer size_payload_version hunread hle
  rcases hstep requests .version response (by rw [hcall]; exact hdecode) with
    ⟨other, later, hsuffix, hstream, -⟩
  have hother := hbound other (hsuffix.subset List.mem_cons_self)
  rw [hunread, stream] at hstream
  rcases frame_append_inj (Nat.lt_of_le_of_lt hle maxMessageSize_lt) hother hstream with
    ⟨rfl, rfl⟩
  refine ⟨later, ?_, rfl⟩
  -- It stands after the lost message, since fewer bytes are left than that takes.
  have hsize : (stream (message :: later)).size < (stream (lost :: rest)).size := by
    have hle : (stream (message :: later)).size ≤ (lost ++ stream rest).size := hreaches.size_le
    rw [ByteArray.size_append] at hle
    rw [size_stream_cons lost]
    omega
  rcases List.suffix_or_suffix_of_suffix hsuffix (List.suffix_append read (lost :: rest)) with
    hsuffix | hsuffix
  · rcases List.suffix_cons_iff.mp hsuffix with heq | hsuffix
    · rw [heq] at hsize
      exact absurd hsize (Nat.lt_irrefl _)
    · exact hsuffix
  · exact absurd (size_stream_le_of_suffix hsuffix) (Nat.not_le.mpr hsize)

/-- Where calls get from a stream whose lost message is harmless, there is no response but the
    messages of the stream. -/
theorem isInStep_of_isHarmless (hbound : ∀ message ∈ messages, message.size < lengthBound)
    (hharmless : ∀ read lost rest, messages = read ++ lost :: rest →
      (∀ message ∈ read, message.size ≤ maxMessageSize) → maxMessageSize < lost.size →
        IsHarmless lost rest) : IsInStep messages := by
  intro requests request response hok
  rcases reaches_after (holding messages) rfl requests with ⟨hreaches, hpeer⟩
  have houtcome := call_outcome hpeer request
  generalize ((holding messages).after requests).call request = result at hok houtcome
  cases houtcome with
  | failure h => cases hok
  | @message message rest written hunread hle =>
      have hsize : (frame message ++ rest).size ≠ 0 := by
        rw [ByteArray.size_append, size_frame]
        omega
      rw [hunread] at hreaches
      have hreaches := hreaches.resolve_right fun hend => hsize (by rw [hend]; rfl)
      rcases reaches_stream hbound hreaches with
        ⟨later, hsuffix, hstream⟩ | ⟨read, lost, more, rfl, hread, hlost, hreaches⟩
      · rcases exists_of_frame_eq_stream hbound hsuffix hle hstream with ⟨behind, hsuffix, rfl⟩
        exact ⟨message, behind, hsuffix, hunread, hok⟩
      · rcases hharmless read lost more rfl hread hlost message rest response hle hok hreaches
          with ⟨later, hsuffix, rfl⟩
        refine ⟨message, later, ?_, hunread, hok⟩
        exact (hsuffix.trans (List.suffix_cons _ _)).trans (List.suffix_append _ _)

/-- **When a stream stays in step.** A response that a call returns is a message of the stream,
    whatever the calls are, exactly if the first message over the limit, where there is one, is
    harmless. -/
theorem isInStep_iff (hbound : ∀ message ∈ messages, message.size < lengthBound) :
    IsInStep messages
      ↔ ∀ read lost rest, messages = read ++ lost :: rest →
        (∀ message ∈ read, message.size ≤ maxMessageSize) → maxMessageSize < lost.size →
          IsHarmless lost rest := by
  refine ⟨?_, isInStep_of_isHarmless hbound⟩
  rintro hstep read lost rest rfl hread hlost
  exact isHarmless_of_isInStep hbound hread hlost hstep

/-- So many words of ones. Each of them is read as the length of a message over the limit. -/
def ones : Nat → ByteArray
  | 0 => ByteArray.empty
  | count + 1 => lengthBytes (lengthBound - 1) ++ ones count

theorem size_ones (count : Nat) : (ones count).size = 4 * count := by
  induction count with
  | zero => rfl
  | succ count ih =>
      rw [ones, ByteArray.size_append, size_lengthBytes, ih]
      omega

/-- Reading gets past them. -/
theorem reaches_ones (count : Nat) (rest : ByteArray) : Reaches (ones count ++ rest) rest := by
  induction count with
  | zero =>
      rw [ones, ByteArray.empty_append]
      exact .here rest
  | succ count ih =>
      rw [ones, ByteArray.append_assoc]
      exact .length (by decide) (by decide) ih

/-- A message of such words is harmless where no other message after it is over the limit: there
    is nothing inside of it, and behind it the later messages are found again. -/
theorem isHarmless_ones (h : ∀ message ∈ messages, message.size ≤ maxMessageSize) (count : Nat) :
    IsHarmless (ones count) messages := by
  intro message rest response hle _ hreaches
  -- By induction on the words that are left in front of the later messages.
  induction count with
  | zero =>
      have hlength : ∀ other ∈ messages, other.size < lengthBound := fun other ho =>
        Nat.lt_of_le_of_lt (h other ho) maxMessageSize_lt
      rw [ones, ByteArray.empty_append] at hreaches
      rcases reaches_stream hlength hreaches with
        ⟨later, hsuffix, hstream⟩ | ⟨read, lost, tail, rfl, -, hlost, -⟩
      · exact exists_of_frame_eq_stream hlength hsuffix hle hstream
      · exact absurd hlost
          (Nat.not_lt.mpr (h lost (List.mem_append_right _ List.mem_cons_self)))
  | succ count ih =>
      have hone : lengthBound - 1 < lengthBound := by decide
      have hover : ¬lengthBound - 1 ≤ maxMessageSize := by decide
      generalize hbytes : ones (count + 1) ++ stream messages = bytes at hreaches
      rw [ones, ByteArray.append_assoc] at hbytes
      -- The first word is not the length of a message that is read.
      have hword : ∀ {other tail : ByteArray}, other.size ≤ maxMessageSize →
          lengthBytes (lengthBound - 1) ++ (ones count ++ stream messages)
            ≠ frame other ++ tail := by
        intro other tail hother heq
        rw [frame, ByteArray.append_assoc] at heq
        have hlength := (lengthBytes_append_inj hone
          (Nat.lt_of_le_of_lt hother maxMessageSize_lt) heq).1
        exact hover (hlength ▸ hother)
      cases hreaches with
      | here => exact absurd hbytes (hword hle)
      | message hother _ => exact absurd hbytes (hword hother)
      | length _ hn hreaches =>
          rcases lengthBytes_append_inj hone hn hbytes with ⟨-, rfl⟩
          exact ih hreaches

/-- The response of a program that tells its version. -/
def answer : ByteArray := (Response.version 1 "1.0.0").toJson.write.toUTF8

theorem size_answer : answer.size ≤ maxMessageSize := by
  rw [answer, Json.write_eq]
  decide

/-- A stream with a message over the limit in the middle. -/
def interrupted : List ByteArray := [answer, ones (maxMessageSize / 4 + 1), answer]

/-- The stream stays in step though its second message is lost, and some calls get to the third. -/
theorem isInStep_interrupted :
    (∀ message ∈ interrupted, message.size < lengthBound)
      ∧ maxMessageSize < (ones (maxMessageSize / 4 + 1)).size ∧ IsInStep interrupted
      ∧ ∃ requests, ((holding interrupted).after requests).unread = stream [answer]
        ∧ (((holding interrupted).after requests).call .version).1
          = .ok (.version 1 "1.0.0") := by
  have hsize := size_ones (maxMessageSize / 4 + 1)
  have hlost : maxMessageSize < (ones (maxMessageSize / 4 + 1)).size := by
    rw [hsize]
    decide
  have hanswer : answer.size < lengthBound := Nat.lt_of_le_of_lt size_answer maxMessageSize_lt
  have hones : (ones (maxMessageSize / 4 + 1)).size < lengthBound := by
    rw [hsize]
    decide
  have hbound : ∀ message ∈ interrupted, message.size < lengthBound := by
    simp only [interrupted, List.forall_mem_cons, hanswer, hones, true_and]
    exact nofun
  refine ⟨hbound, hlost, (isInStep_iff hbound).mpr ?_, ?_⟩
  · rintro read lost rest heq - hover
    -- It is the second message that is lost.
    rcases read with _ | ⟨first, _ | ⟨second, _ | ⟨third, read⟩⟩⟩
    · cases heq
      exact absurd hover (Nat.not_lt.mpr size_answer)
    · cases heq
      exact isHarmless_ones (fun other ho => List.mem_singleton.mp ho ▸ size_answer) _
    · cases heq
      exact absurd hover (Nat.not_lt.mpr size_answer)
    · cases read with
      | nil => cases heq
      | cons fourth read => cases heq
  · have hreaches : Reaches (stream interrupted) (stream [answer]) := by
      refine .message size_answer ?_
      rw [stream, frame, ByteArray.append_assoc]
      exact .length hlost hones (reaches_ones _ _)
    rcases exists_after_of_reaches hreaches (holding interrupted) rfl rfl with
      ⟨requests, hunread, hpeer⟩
    refine ⟨requests, hunread, ?_⟩
    rw [call_frame hpeer size_payload_version hunread size_answer]
    exact decode_toJson trivial

/-! ### A response inside a message -/

/-- A message over the limit, inside of which a whole response comes first. -/
def nested : ByteArray :=
  frame Response.validated.toJson.write.toUTF8 ++ ⟨Array.replicate (maxMessageSize - 25) 97⟩

theorem size_nested : nested.size = maxMessageSize + 1 := by
  have hresponse : Response.validated.toJson.write.toUTF8.size = 22 := by
    rw [Json.write_eq]
    decide
  have hpadding : (ByteArray.mk (Array.replicate (maxMessageSize - 25) 97)).size
      = maxMessageSize - 25 := Array.size_replicate
  rw [nested, ByteArray.size_append, size_frame, hresponse, hpadding, maxMessageSize]

/-- The call after the one that is refused returns the response inside the lost message. -/
theorem not_isInStep_nested : ¬IsInStep [nested, answer] := by
  intro hstep
  have hlost : maxMessageSize < nested.size := by
    rw [size_nested]
    exact Nat.lt_succ_self _
  have hbound : nested.size < lengthBound := by
    rw [size_nested]
    decide
  have hfirst : (holding [nested, answer]).call .version
      = (.error (.tooLarge nested.size), {
          unread := nested ++ stream [answer]
          written := ByteArray.empty ++ frame Request.version.payload }) :=
    call_oversized rfl size_payload_version (by
      rw [holding, stream, frame, ByteArray.append_assoc]) hlost hbound
  have hafter : ((holding [nested, answer]).after [.version]).unread
      = nested ++ stream [answer] := by
    rw [after, List.foldl_cons, List.foldl_nil, hfirst]
  have hpeer : ((holding [nested, answer]).after [.version]).peer = .buffer := by
    rw [after, List.foldl_cons, List.foldl_nil, hfirst]
  have hsmall : Response.validated.toJson.write.toUTF8.size ≤ maxMessageSize := by
    rw [Json.write_eq]
    decide
  have hcall := call_frame hpeer size_payload_version
    (hafter.trans (by rw [nested, ByteArray.append_assoc])) hsmall
  rcases hstep [.version] .version .validated (by
    rw [hcall]
    exact decode_toJson trivial) with ⟨message, later, hsuffix, hstream, -⟩
  -- The bytes that are left are neither both messages nor the second alone.
  have hsize := congrArg ByteArray.size (hafter.symm.trans hstream)
  rw [ByteArray.size_append] at hsize
  rcases List.suffix_cons_iff.mp hsuffix with heq | hsuffix
  · rw [heq, size_stream_cons nested] at hsize
    omega
  · have hle := size_stream_le_of_suffix hsuffix
    omega

end Channel

end DnsZones
