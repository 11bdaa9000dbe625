/-
  WebSocket/Stream.lean --- `WsStream` of `common/transport/websocket.rs`.

  `poll_read` makes a stream of bytes of the messages that the inner WebSocket stream
  gives, and `poll_write` makes a message of each buffer.  The inner stream is the list of
  what its `poll_next` is going to return; behind the list it returns `None`.  It comes from
  a library, which gives no message any more once it has given a Close or an error
  (`Fused`); an error may still follow a Close.
-/
import Ruproxy.Foundation.Text

set_option autoImplicit false

namespace Ruproxy.WebSocket

open Ruproxy.Foundation

/-- `Message`. -/
inductive Message where
  | text (s : String)
  | binary (v : Bytes)
  | ping (v : Bytes)
  | pong (v : Bytes)
  | close
  | frame
  deriving DecidableEq

/-- What `poll_next` returns, but for the end. -/
inductive PollNext where
  | pending
  | error (e : String)
  | message (msg : Message)
  deriving DecidableEq

/-- `WsStream`. -/
structure WsStream where
  inner : List PollNext
  readBuf : Bytes
  deriving DecidableEq

/-- What `poll_read` returns; `ready` has the bytes put into the buffer. -/
inductive PollRead where
  | pending
  /-- an error of the kind `ConnectionReset` -/
  | error (e : String)
  | ready (data : Bytes)
  deriving DecidableEq

/-! ## Reading -/

namespace WsStream

/-- `WsStream::new`. -/
def new (inner : List PollNext) : WsStream := ⟨inner, []⟩

/-- The end of `poll_read` with the payload of a message: what does not fit into the buffer,
which has room for `n` bytes, is kept. -/
def deliver (n : Nat) (data : Bytes) (inner : List PollNext) : PollRead × WsStream :=
  (.ready (data.take (min data.length n)), ⟨inner, data.drop (min data.length n)⟩)

/-- The loop of `poll_read`. -/
def pollInner (n : Nat) : List PollNext → PollRead × WsStream
  | [] => (.ready [], ⟨[], []⟩)
  | .pending :: inner => (.pending, ⟨inner, []⟩)
  | .error e :: inner => (.error e, ⟨inner, []⟩)
  | .message (.binary v) :: inner => if v.isEmpty then pollInner n inner else deliver n v inner
  | .message (.text s) :: inner =>
      if (asBytes s).isEmpty then pollInner n inner else deliver n (asBytes s) inner
  | .message (.ping _) :: inner => pollInner n inner
  | .message (.pong _) :: inner => pollInner n inner
  | .message .frame :: inner => pollInner n inner
  | .message .close :: inner => (.ready [], ⟨inner, []⟩)

/-- `poll_read` into a buffer with room for `n` bytes. -/
def pollRead (n : Nat) (this : WsStream) : PollRead × WsStream :=
  if this.readBuf ≠ [] then
    let k := min this.readBuf.length n
    (.ready (this.readBuf.take k), { this with readBuf := this.readBuf.drop k })
  else pollInner n this.inner

end WsStream

/-- The bytes that a call of `poll_read` returns. -/
def PollRead.bytes : PollRead → Bytes
  | .ready data => data
  | _ => []

/-- What `poll_ready` of the sink returns. -/
inductive PollReady where
  | pending
  | error (e : String)
  | ready
  deriving DecidableEq

/-- What `poll_write` returns. -/
inductive PollWrite where
  | pending
  /-- an error of the kind `BrokenPipe` -/
  | error (e : String)
  | ready (n : Nat)
  deriving DecidableEq

/-- `poll_write`: what it returns, and the messages that it gives to the sink, which answers
with `sink` and with the error `send` or none. -/
def pollWrite (sink : PollReady) (send : Option String) (buf : Bytes) :
    PollWrite × List Message :=
  match sink with
  | .pending => (.pending, [])
  | .error e => (.error e, [])
  | .ready =>
      match send with
      | some e => (.error e, [])
      | none => (.ready buf.length, [.binary buf])

/-- The payload of a message that carries data. -/
def Message.payload : Message → Bytes
  | .text s => asBytes s
  | .binary v => v
  | _ => []

namespace PollNext

/-- The stream of messages ends here. -/
def ends : PollNext → Bool
  | .message .close | .error _ => true
  | _ => false

/-- The payload that is given here. -/
def payload : PollNext → Bytes
  | .message msg => msg.payload
  | _ => []

/-- Nothing that has a part in the bytes: a wait or a control message. -/
def idle : PollNext → Bool
  | .pending | .message (.ping _) | .message (.pong _) | .message .frame => true
  | _ => false

end PollNext

/-- The payloads before the first Close, the first error or the end. -/
def payload : List PollNext → Bytes
  | [] => []
  | p :: inner => if p.ends then [] else p.payload ++ payload inner

/-- Behind a Close or an error the inner stream gives no message: nothing but errors and its
end, which may have to be waited for. -/
def Fused : List PollNext → Prop
  | [] => True
  | p :: inner => if p.ends then ∀ msg, .message msg ∉ inner else Fused inner

/-! ## One read -/

/-- The bytes that a stream is still going to return. -/
def WsStream.bytes (s : WsStream) : Bytes := s.readBuf ++ payload s.inner

/-- How long a stream can go on. -/
def WsStream.weight (s : WsStream) : Nat := s.bytes.length + s.inner.length

/-- What a read does: it takes what it returns off the bytes of the stream.  It returns
nothing only at their end, and before that the stream comes closer to it. -/
structure ReadStep (s : WsStream) (r : PollRead × WsStream) : Prop where
  bytes : s.bytes = r.1.bytes ++ r.2.bytes
  fused : Fused r.2.inner
  eof : r.1 = .ready [] → s.bytes = []
  weight : s.bytes ≠ [] → r.2.weight < s.weight

/-- What has no part in the bytes is passed over. -/
theorem ReadStep.skip {p : PollNext} {inner : List PollNext} {r : PollRead × WsStream}
    (h : ReadStep ⟨inner, []⟩ r) (hends : p.ends = false) (hpayload : p.payload = []) :
    ReadStep ⟨p :: inner, []⟩ r := by
  have hbytes : WsStream.bytes ⟨p :: inner, []⟩ = WsStream.bytes ⟨inner, []⟩ := by
    rw [WsStream.bytes, WsStream.bytes, payload, hends, hpayload]
    rfl
  refine ⟨hbytes ▸ h.bytes, h.fused, fun heof => hbytes ▸ h.eof heof, fun hne => ?_⟩
  have hlt := h.weight (hbytes ▸ hne)
  refine hlt.trans ?_
  rw [WsStream.weight, WsStream.weight, hbytes]
  exact Nat.add_lt_add_left (Nat.lt_succ_self _) _

/-- The inner stream gives these messages, between waits and control messages, and then
ends. -/
def Delivers (inner : List PollNext) (msgs : List Message) : Prop :=
  ∃ before after, inner = before ++ after ∧
    before.filter (fun p => !p.idle) = msgs.map .message ∧ payload after = []

end Ruproxy.WebSocket
