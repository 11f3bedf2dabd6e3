import Arcbox.Bridge.TcpBridge

set_option autoImplicit false

/-!
# Bridge: downloads of polled flows

The host-to-guest half of a flow the bridge polls.  Positions count the host's
byte stream: byte `k` travels under sequence number `our_isn + 1 + k`, and the FIN
takes the position after the last byte.  `Downloading` relates the flow's cursors
to positions: what was sent, what the guest acknowledged, and where the
retransmission buffer starts.
-/

namespace Arcbox.Bridge

open Foundation List TcpBridge FastPathConn Option
open Foundation.Serial

/-- The position after everything sent, the FIN included. -/
def sentPos (c : FastPathConn) : Nat := c.stream.received.length + c.hostEof.toNat

/-- The download half of a polled flow: the guest has acknowledged position
`acked`, and the retransmission buffer starts at position `start`. -/
structure Downloading (isn : BitVec 32) (c : FastPathConn) (acked start : Nat) : Prop where
  polled : c.inlineOwned = false
  ourSeq : c.ourSeq = seqAt isn (sentPos c)
  guestAcked : c.guestAcked = seqAt isn acked
  acked_le : acked ≤ sentPos c
  retransmitSeq : c.retransmitSeq = seqAt isn start
  start_le : start ≤ acked
  window : sentPos c ≤ start + 256 * 1024
  buffer : c.retransmitBuf = c.stream.received.drop start
  finSeq : c.finSeq = if c.hostEof then some (seqAt isn c.stream.received.length) else none

/-- A frame of the download, when the stream read so far is `H` and the guest has
acknowledged `acked`: its bytes are those of the stream at its sequence number,
and a FIN stands at the end of a stream that has ended. -/
structure FrameOf (isn : BitVec 32) (acked : Nat) (H : Bytes) (ended : Bool) (f : TcpFrame) :
    Prop where
  data : f.payload ≠ [] → ∃ k, acked ≤ k ∧ f.params.seq = seqAt isn k
    ∧ k + f.payload.length ≤ H.length ∧ f.payload = (H.drop k).take f.payload.length
  fin : f.isFin = true → ended = true ∧ f.params.seq = seqAt isn H.length

/-- The download fields of two flows agree. -/
structure SameDownload (c c' : FastPathConn) : Prop where
  received : c'.stream.received = c.stream.received
  ourSeq : c'.ourSeq = c.ourSeq
  guestAcked : c'.guestAcked = c.guestAcked
  guestWindow : c'.guestWindow = c.guestWindow
  retransmitBuf : c'.retransmitBuf = c.retransmitBuf
  retransmitSeq : c'.retransmitSeq = c.retransmitSeq
  finSeq : c'.finSeq = c.finSeq
  hostEof : c'.hostEof = c.hostEof
  inlineOwned : c'.inlineOwned = c.inlineOwned

theorem SameDownload.refl (c : FastPathConn) : SameDownload c c :=
  ⟨rfl, rfl, rfl, rfl, rfl, rfl, rfl, rfl, rfl⟩

variable {c'' : FastPathConn}

theorem SameDownload.trans {c c' : FastPathConn} (h : SameDownload c c')
    (h' : SameDownload c' c'') : SameDownload c c'' :=
  ⟨h'.received.trans h.received, h'.ourSeq.trans h.ourSeq, h'.guestAcked.trans h.guestAcked,
    h'.guestWindow.trans h.guestWindow, h'.retransmitBuf.trans h.retransmitBuf,
    h'.retransmitSeq.trans h.retransmitSeq, h'.finSeq.trans h.finSeq, h'.hostEof.trans h.hostEof,
    h'.inlineOwned.trans h.inlineOwned⟩

theorem sameDownload_of_onlyUpload {c c' : FastPathConn} (h : c.OnlyUpload c') :
    SameDownload c c' := by
  constructor <;> (rw [h]; rfl)

variable {out : List TcpFrame}
variable {live : Bool}

section Flow

variable {isn : BitVec 32} {c c' : FastPathConn} {acked start : Nat}

theorem SameDownload.sentPos_eq (h : SameDownload c c') : sentPos c' = sentPos c := by
  rw [sentPos, sentPos, h.received, h.hostEof]

section

variable (h : Downloading isn c acked start)

include h

theorem Downloading.congr (hs : SameDownload c c') : Downloading isn c' acked start := by
  have hpos := hs.sentPos_eq
  constructor
  · rw [hs.inlineOwned]
    exact h.polled
  · rw [hs.ourSeq, hpos]
    exact h.ourSeq
  · rw [hs.guestAcked]
    exact h.guestAcked
  · rw [hpos]
    exact h.acked_le
  · rw [hs.retransmitSeq]
    exact h.retransmitSeq
  · exact h.start_le
  · rw [hpos]
    exact h.window
  · rw [hs.retransmitBuf, hs.received]
    exact h.buffer
  · rw [hs.finSeq, hs.hostEof, hs.received]
    exact h.finSeq

theorem Downloading.inFlight_toNat : (c.ourSeq - c.guestAcked).toNat = sentPos c - acked := by
  have := h.acked_le
  have := h.start_le
  have := h.window
  rw [h.ourSeq, h.guestAcked]
  exact toNat_sub_of_le isn h.acked_le (by omega)

theorem Downloading.inFlight_eq : inFlight c.ourSeq c.guestAcked = decide (acked < sentPos c) := by
  have := h.acked_le
  have := h.start_le
  have := h.window
  rw [inFlight, h.inFlight_toNat, decide_eq_decide, half]
  omega

theorem Downloading.sendBudget_eq (window : Nat) :
    sendBudget c.ourSeq c.guestAcked window = window - (sentPos c - acked) := by
  have := h.acked_le
  have := h.start_le
  have := h.window
  simp only [sendBudget, h.inFlight_toNat]
  exact if_neg (by simp only [half]; omega)

/-! ## Acknowledgements -/

/-- An acknowledgement is taken only if it covers bytes that were sent, and moves
the cursor forward. -/
theorem Downloading.handleAck (t : TcpView) :
    ∃ acked', acked ≤ acked' ∧ Downloading isn (c.handleAck t) acked' start := by
  have hle := h.acked_le
  have hstart := h.start_le
  have hwin := h.window
  simp only [FastPathConn.handleAck]
  split
  next hacc =>
    obtain ⟨-, hadvance, hbeyond⟩ := hacc
    obtain ⟨d, hd, hack⟩ := exists_seqAt isn t.ack acked
    have hd' : (t.ack - c.guestAcked).toNat = d := by
      rw [hack, h.guestAcked, toNat_sub_of_le isn (by omega) (by omega)]
      omega
    rw [hd'] at hadvance
    simp only [half] at hadvance hbeyond
    -- A position past what was sent would show as a small positive difference.
    have hsent : acked + d ≤ sentPos c := by
      refine Nat.le_of_not_lt fun hlt => hbeyond ?_
      rw [hack, h.ourSeq, toNat_sub_of_le isn (by omega) (by omega)]
      omega
    refine ⟨acked + d, by omega, ?_⟩
    have hframe : SameDownload c (c.countDupAck c.ourSeq t (c.scaledWindow t)) := by
      simp only [countDupAck]
      repeat' split
      all_goals exact ⟨rfl, rfl, rfl, rfl, rfl, rfl, rfl, rfl, rfl⟩
    have hd := h.congr hframe
    have hpos := hframe.sentPos_eq
    exact ⟨hd.polled, hd.ourSeq, hack, by rw [← hpos] at hsent; exact hsent, hd.retransmitSeq,
      by omega, hd.window, hd.buffer, hd.finSeq⟩
  · exact ⟨acked, .refl, h⟩

/-- The acknowledged part of the buffer is released. -/
theorem Downloading.drainRetransmit (now : Instant) :
    Downloading isn (c.drainRetransmit now) acked acked := by
  have hle := h.acked_le
  have hstart := h.start_le
  have hwin := h.window
  have hdrained : (c.guestAcked - c.retransmitSeq).toNat = acked - start := by
    rw [h.guestAcked, h.retransmitSeq]
    exact toNat_sub_of_le isn hstart (by omega)
  simp only [FastPathConn.drainRetransmit, hdrained, half]
  split
  · refine ⟨h.polled, h.ourSeq, h.guestAcked, hle, h.guestAcked, .refl, ?_, ?_, h.finSeq⟩
    · change sentPos c ≤ acked + 256 * 1024
      omega
    simp only [FastPathConn.noteProgress]
    rw [h.buffer, drop_drop]
    congr 1
    omega
  · have heq : start = acked := by omega
    rw [← heq] at h ⊢
    exact h

end

/-! ## Frames -/

variable {ctx : FrameCtx} {H : Bytes} {f : TcpFrame}
variable {data : Bytes} {ended : Bool} {now : Instant}

/-- Frames made from the stream from position `k` on. -/
theorem frameOf_emitDataFrames {k : Nat} {seqStart : BitVec 32} (hk : acked ≤ k)
    (hseq : seqStart = seqAt isn k) (hdata : data = H.drop k)
    (hf : f ∈ emitDataFrames ctx c seqStart data) : FrameOf isn acked H ended f := by
  obtain ⟨off, n, hoff, hparams, hpay, hfin, -⟩ := mem_emitDataFrames hf
  refine ⟨fun _ => ⟨k + off, by omega, ?_, ?_, ?_⟩, ?_⟩
  · rw [hparams, hseq]
    exact seqAt_add isn k off
  · rw [hpay, hdata, drop_drop, length_take, length_drop]
    rw [hdata, length_drop] at hoff
    omega
  · rw [hpay, hdata, drop_drop]
    exact take_length_take _ _
  · rw [hfin]
    exact nofun

theorem frameOf_control (hpay : f.payload = []) (hfin : f.isFin = false) :
    FrameOf isn acked H ended f :=
  ⟨absurd hpay, fun ht => by rw [hfin] at ht; exact absurd ht (by decide)⟩

/-- Frames stay what they are as the stream grows, as long as it does not grow
past its end. -/
theorem FrameOf.mono {H' : Bytes} {ended' : Bool} (h : FrameOf isn acked H ended f)
    (hgrow : H <+: H') (hend : ended = true → ended' = true ∧ H' = H) :
    FrameOf isn acked H' ended' f := by
  obtain ⟨tail, rfl⟩ := hgrow
  refine ⟨fun hne => ?_, fun hfin => ?_⟩
  · obtain ⟨k, hk, hseq, hlen, hpay⟩ := h.data hne
    refine ⟨k, hk, hseq, ?_, ?_⟩
    · rw [length_append]
      omega
    · rw [drop_append_of_le_length (by omega), take_append_of_le_length
        (by rw [length_drop]; omega)]
      exact hpay
  obtain ⟨hended, hseq⟩ := h.fin hfin
  obtain ⟨hended', heq⟩ := hend hended
  rw [heq]
  exact ⟨hended', hseq⟩

/-- Loss recovery sends bytes from the acknowledged position on, and the FIN at
the end of the stream. -/
theorem Downloading.resendBuffered (h : Downloading isn c acked acked)
    (hf : f ∈ c.resendBuffered ctx) : FrameOf isn acked c.stream.received c.hostEof f := by
  have hzero : (c.guestAcked - c.retransmitSeq).toNat = 0 := by
    rw [h.guestAcked, h.retransmitSeq]
    simp
  simp only [FastPathConn.resendBuffered, hzero, drop_zero] at hf
  rcases mem_append.mp hf with hd | hfin
  · split at hd
    · exact frameOf_emitDataFrames .refl h.guestAcked h.buffer hd
    · cases hd
  have hseq := h.finSeq
  simp only [resendFin] at hfin
  split at hfin
  · cases hfin
  rename_i finSeq hsome
  rw [hseq] at hsome
  split at hsome
  next heof =>
    rw [some.injEq] at hsome
    split at hfin
    · rw [mem_singleton] at hfin
      subst hfin
      exact ⟨absurd rfl, fun _ => ⟨heof, hsome.symm⟩⟩
    · cases hfin
  · cases hsome

theorem sameDownload_recoverPolled (c : FastPathConn) (ctx : FrameCtx) (now : Instant) :
    SameDownload c (c.recoverPolled ctx now).1 := by
  simp only [recoverPolled]
  repeat' split
  all_goals exact ⟨rfl, rfl, rfl, rfl, rfl, rfl, rfl, rfl, rfl⟩

theorem Downloading.recoverPolled (h : Downloading isn c acked acked)
    (hf : f ∈ (c.recoverPolled ctx now).2) : FrameOf isn acked c.stream.received c.hostEof f := by
  simp only [FastPathConn.recoverPolled] at hf
  repeat' split at hf
  · exact h.resendBuffered hf
  all_goals cases hf

/-! ## Reading -/

theorem sameDownload_readCap (c : FastPathConn) (now : Instant) (bufCap : Nat) :
    SameDownload c (c.readCap now bufCap).1 := by
  simp only [readCap, stallWindow, reopenWindow]
  repeat' split
  all_goals exact ⟨rfl, rfl, rfl, rfl, rfl, rfl, rfl, rfl, rfl⟩

/-- What may be read fits the honoured window behind what is in flight, except
for the one byte of a probe, with nothing in flight and the window closed. -/
theorem Downloading.readCap_le (h : Downloading isn c acked start) {bufCap cap : Nat}
    (hcap : (c.readCap now bufCap).2 = some cap) :
    sentPos c - acked + max cap 1 ≤ min c.guestWindow.toNat (256 * 1024)
      ∨ (cap = 1 ∧ acked = sentPos c ∧ c.guestWindow = 0) := by
  have hle := h.acked_le
  simp only [readCap, h.sendBudget_eq, honoredWindow,
    honoredWindowCap] at hcap
  split at hcap
  next hzero =>
    split at hcap
    next hprobe =>
      right
      simp only [some.injEq] at hcap
      have hidle := hprobe.1
      rw [h.inFlight_eq, decide_eq_false_iff_not, Nat.not_lt] at hidle
      refine ⟨hcap.symm, by omega, ?_⟩
      apply BitVec.eq_of_toNat_eq
      change c.guestWindow.toNat = 0
      omega
    · cases hcap
  rename_i hpos
  left
  simp only [some.injEq] at hcap
  omega

theorem Downloading.readHost (h : Downloading isn c acked acked) (heof : c.hostEof = false)
    {read : FastPathConn.ReadOutcome} {cap : Nat}
    (hcap : sentPos c - acked + max cap 1 ≤ 256 * 1024) : let p := c.readHost ctx now read cap
    Downloading isn p.conn acked acked
      ∧ (∃ data, p.conn.stream.received = c.stream.received ++ data ∧ data.length ≤ cap
        ∧ (data ≠ [] → p.conn.hostEof = false))
      ∧ ∀ f ∈ p.frames, FrameOf isn acked p.conn.stream.received p.conn.hostEof f := by
  have hle := h.acked_le
  have hpos : sentPos c = c.stream.received.length := by
    rw [sentPos, heof]
    rfl
  have hour := h.ourSeq
  rw [hpos] at hour
  cases read with
  | ok data =>
    simp only [FastPathConn.readHost]
    split
    · -- End of stream: the FIN takes the position after the last byte.
      have hsent : sentPos (c.sendFin ctx.macs).conn = c.stream.received.length + 1 := rfl
      refine ⟨⟨h.polled, ?_, h.guestAcked, by omega, h.retransmitSeq, .refl, by omega,
        h.buffer, ?_⟩, ⟨[], (append_nil _).symm, Nat.zero_le _, absurd rfl⟩, ?_⟩
      · rw [hsent, ← seqAt_add, ← hour]
        rfl
      · simp only [sendFin]
        rw [hour]
        rfl
      intro f hf
      rw [sendFin, mem_singleton] at hf
      subst hf
      exact ⟨absurd rfl, fun _ => ⟨rfl, hour⟩⟩
    next hne =>
      generalize hread : data.take cap = bytes
      have hlen : bytes.length ≤ cap := by
        rw [← hread, length_take]
        omega
      have hsent : sentPos (c.sendData ctx now bytes).conn
          = c.stream.received.length + bytes.length := by
        simp only [sentPos, sendData, heof, length_append, Bool.toNat_false,
          Nat.add_zero]
      refine ⟨⟨h.polled, ?_, h.guestAcked, by omega, h.retransmitSeq, .refl, by omega,
        ?_, ?_⟩, ⟨bytes, rfl, hlen, fun _ => heof⟩, ?_⟩
      · rw [hsent, ← seqAt_add, ← hour]
        rfl
      · simp only [sendData]
        rw [h.buffer, drop_append_of_le_length (by omega)]
      · have hfin := h.finSeq
        simp only [sendData, heof, Bool.false_eq_true, if_false] at hfin ⊢
        exact hfin
      · intro f hf
        refine frameOf_emitDataFrames (k := c.stream.received.length) (by omega) hour ?_ hf
        simp [sendData]
  | wouldBlock =>
    exact ⟨h, ⟨[], (append_nil _).symm, Nat.zero_le _, absurd rfl⟩,
      by simp [FastPathConn.readHost]⟩
  | failed =>
    refine ⟨h, ⟨[], (append_nil _).symm, Nat.zero_le _, absurd rfl⟩, ?_⟩
    intro f hf
    rw [FastPathConn.readHost, mem_singleton] at hf
    subst hf
    exact frameOf_control rfl rfl

/-! ## Polling -/

/-- What polling may add to the stream of a flow whose guest has acknowledged
`acked`: nothing after the end of the stream, and otherwise bytes inside the
honoured window or the one byte of a probe. -/
structure Grows (c c' : FastPathConn) (acked : Nat) (data : Bytes) : Prop where
  received : c'.stream.received = c.stream.received ++ data
  ended : c.hostEof = true → c'.hostEof = true ∧ data = []
  notEnded : data ≠ [] → c'.hostEof = false
  window : data = [] ∨ sentPos c - acked + data.length ≤ min c.guestWindow.toNat (256 * 1024)
    ∨ (data.length = 1 ∧ acked = sentPos c ∧ c.guestWindow = 0)

theorem Grows.same (h : SameDownload c c') : Grows c c' acked [] :=
  ⟨by rw [h.received, append_nil], fun heof => ⟨h.hostEof.trans heof, rfl⟩, nofun, .inl rfl⟩

structure SameReceived (c c' : FastPathConn) : Prop where
  received : c'.stream.received = c.stream.received
  hostEof : c'.hostEof = c.hostEof
  guestWindow : c'.guestWindow = c.guestWindow

theorem SameReceived.trans (h : SameReceived c c') (h' : SameReceived c' c'') :
    SameReceived c c'' :=
  ⟨h'.received.trans h.received, h'.hostEof.trans h.hostEof,
    h'.guestWindow.trans h.guestWindow⟩

theorem SameDownload.sameReceived (h : SameDownload c c') : SameReceived c c' :=
  ⟨h.received, h.hostEof, h.guestWindow⟩

theorem Grows.of_sameReceived {c₀ : FastPathConn} (h : Grows c c' acked data)
    (hs : SameReceived c₀ c) : Grows c₀ c' acked data := by
  have hpos : sentPos c = sentPos c₀ := by rw [sentPos, sentPos, hs.received, hs.hostEof]
  obtain ⟨h1, h2, h3, h4⟩ := h
  rw [hpos, hs.guestWindow] at h4
  rw [hs.received] at h1
  rw [hs.hostEof] at h2
  exact ⟨h1, h2, h3, h4⟩

theorem Grows.of_sameDownload {c₀ : FastPathConn} (h : Grows c c' acked data)
    (hs : SameDownload c₀ c) : Grows c₀ c' acked data := h.of_sameReceived hs.sameReceived

theorem Downloading.pollRead (h : Downloading isn c acked acked) (ctx : FrameCtx) (now : Instant)
    (bufCap : Nat) (read : FastPathConn.ReadOutcome) :
    let p := c.pollRead ctx now bufCap read
    Downloading isn p.conn acked acked ∧ (∃ data, Grows c p.conn acked data)
      ∧ ∀ f ∈ p.frames, FrameOf isn acked p.conn.stream.received p.conn.hostEof f := by
  have hsame := sameDownload_readCap c now bufCap
  have hcaps : ∀ cap, (c.readCap now bufCap).2 = some cap → _ := fun cap => h.readCap_le
  have hwin := h.window
  simp only [FastPathConn.pollRead]
  split
  · exact ⟨h, ⟨[], .same (.refl c)⟩, by simp⟩
  rename_i heof
  revert hsame hcaps
  rcases c.readCap now bufCap with ⟨c₁, cap?⟩
  intro hsame hcaps
  dsimp only at hsame hcaps
  cases cap? with
  | none => exact ⟨h.congr hsame, ⟨[], .same hsame⟩, by simp⟩
  | some cap =>
    have hcap := hcaps cap rfl
    have heof₁ : c₁.hostEof = false := by
      rw [hsame.hostEof]
      simpa using heof
    have hfits : sentPos c₁ - acked + max cap 1 ≤ 256 * 1024 := by
      rw [hsame.sentPos_eq]
      rcases hcap with hcap | ⟨rfl, hidle, -⟩ <;> omega
    obtain ⟨hdown, ⟨data, hdata, hlen, hopen⟩, hframes⟩ := (h.congr hsame).readHost heof₁ hfits
    refine ⟨hdown, ⟨data, ?_⟩, hframes⟩
    refine Grows.of_sameDownload ⟨hdata, fun ht => ?_, hopen, ?_⟩ hsame
    · rw [heof₁] at ht
      cases ht
    rw [hsame.sentPos_eq, hsame.guestWindow]
    cases data with
    | nil => exact .inl rfl
    | cons byte rest =>
      rw [length_cons] at hlen ⊢
      rcases hcap with hcap | ⟨rfl, hidle, hzero⟩
      · exact .inr (.inl (by omega))
      · exact .inr (.inr ⟨by omega, hidle, hzero⟩)

theorem Downloading.pollStream (h : Downloading isn c acked start) (ctx : FrameCtx)
    (now timeout : Instant) (bufCap : Nat) (read : FastPathConn.ReadOutcome) :
    let p := c.pollStream ctx now timeout bufCap read
    (∃ start', Downloading isn p.conn acked start' ∧ (p.remove = false → start' = acked))
      ∧ (∃ data, Grows c p.conn acked data)
      ∧ ∀ f ∈ p.frames, FrameOf isn acked p.conn.stream.received p.conn.hostEof f := by
  have hdrain := h.drainRetransmit now
  have hgrow : SameReceived c (c.drainRetransmit now) := by
    simp only [FastPathConn.drainRetransmit]
    split <;> exact ⟨rfl, rfl, rfl⟩
  simp only [FastPathConn.pollStream]
  split
  · exact ⟨⟨start, h, fun h => by cases h⟩, ⟨[], .same (.refl c)⟩, by simp⟩
  generalize hc₁ : (c.drainRetransmit now).solicit _ now = c₁
  have hsolicit : SameDownload (c.drainRetransmit now) c₁ := by
    subst hc₁
    exact ⟨rfl, rfl, rfl, rfl, rfl, rfl, rfl, rfl, rfl⟩
  have h₁ := hdrain.congr hsolicit
  have hgrow₁ : SameReceived c c₁ := hgrow.trans ⟨hsolicit.received, hsolicit.hostEof,
    hsolicit.guestWindow⟩
  split
  · refine ⟨⟨acked, h₁, fun _ => rfl⟩, ⟨[], Grows.of_sameReceived (.same (.refl c₁)) hgrow₁⟩, ?_⟩
    exact forall_mem_singleton.mpr (frameOf_control rfl rfl)
  have hrec := sameDownload_recoverPolled c₁ ctx now
  obtain ⟨hdown, ⟨data, hdata⟩, hframes⟩ := (h₁.congr hrec).pollRead ctx now bufCap read
  refine ⟨⟨acked, hdown, fun _ => rfl⟩,
    ⟨data, (hdata.of_sameDownload hrec).of_sameReceived hgrow₁⟩, ?_⟩
  intro f hf
  rcases mem_append.mp hf with hf | hf
  · have hold := h₁.recoverPolled hf
    rw [← hrec.received, ← hrec.hostEof] at hold
    refine hold.mono ⟨data, hdata.received.symm⟩ fun hended => ?_
    obtain ⟨heof, hnil⟩ := hdata.ended hended
    exact ⟨heof, by rw [hdata.received, hnil, append_nil]⟩
  · exact hframes f hf

/-- Polling a flow: the buffer starts at the guest's acknowledgement if the flow
stays, the stream grows as the window allows, and the frames are the stream's. -/
theorem Downloading.poll (h : Downloading isn c acked start) (ctx : FrameCtx)
    (now timeout : Instant) (bufCap : Nat) (env : FastPathConn.PollEnv) :
    let p := c.poll ctx now timeout bufCap env
    (∃ start', Downloading isn p.conn acked start' ∧ (p.remove = false → start' = acked))
      ∧ (∃ data, Grows c p.conn acked data)
      ∧ ∀ f ∈ p.frames, FrameOf isn acked p.conn.stream.received p.conn.hostEof f := by
  have hreset : ∀ c₁ : FastPathConn, ∀ H ended, ∀ f ∈ [c₁.resetFrame ctx.macs],
      FrameOf isn acked H ended f :=
    fun _ _ _ => forall_mem_singleton.mpr (frameOf_control rfl rfl)
  simp only [FastPathConn.poll]
  split
  · exact ⟨⟨start, h, fun h => by cases h⟩, ⟨[], .same (.refl c)⟩, hreset c _ _⟩
  split
  · exact ⟨⟨start, h, fun h => by cases h⟩, ⟨[], .same (.refl c)⟩, by simp⟩
  have hupload : SameDownload c (c.pollUpload ctx.macs env.writes).1
      ∧ ∀ acks ∈ (c.pollUpload ctx.macs env.writes).2, ∀ f ∈ acks,
          f.payload = [] ∧ f.isFin = false := by
    have hdrain := sameDownload_of_onlyUpload
      (uploads_drainParkedSegments env.writes c).only
    simp only [pollUpload]
    split
    · exact ⟨.refl c, by simp⟩
    revert hdrain
    rcases c.drainParkedSegments env.writes with ⟨c₁, ok⟩
    intro hdrain
    cases ok with
    | false => exact ⟨hdrain, by simp⟩
    | true =>
      refine ⟨hdrain, ?_⟩
      simp only [mem_def, some.injEq]
      rintro acks rfl f hf
      split at hf
      · cases hf
      · rw [mem_singleton] at hf
        subst hf
        exact ⟨rfl, rfl⟩
  revert hupload
  rcases c.pollUpload ctx.macs env.writes with ⟨c₁, acks?⟩
  rintro ⟨hsame, hacks⟩
  dsimp only at hsame hacks
  cases acks? with
  | none => exact ⟨⟨start, h.congr hsame, fun h => by cases h⟩, ⟨[], .same hsame⟩, hreset c₁ _ _⟩
  | some acks =>
    have h₁ := h.congr hsame
    simp only [h₁.polled, Bool.false_eq_true, if_false]
    obtain ⟨hdown, ⟨data, hdata⟩, hframes⟩ := h₁.pollStream ctx now timeout bufCap env.read
    refine ⟨hdown, ⟨data, hdata.of_sameDownload hsame⟩, fun f hf => ?_⟩
    rcases mem_append.mp hf with hf | hf
    · obtain ⟨hpay, hfin⟩ := hacks acks rfl f hf
      exact frameOf_control hpay hfin
    · exact hframes f hf

/-! ## Interception -/

theorem sameDownload_takePayload (c : FastPathConn) (env : FastPathConn.InterceptEnv)
    (t : TcpView) (following : List (Option TcpView)) :
    SameDownload c (c.takePayload env t following).1 := by
  obtain ⟨n, honly⟩ := onlyUpload_takePayload c env t following
  refine SameDownload.trans ?_ (sameDownload_of_onlyUpload honly)
  exact ⟨rfl, rfl, rfl, rfl, rfl, rfl, rfl, rfl, rfl⟩

theorem bare_of_mem {g : TcpFrame} (h : g.payload = [] ∧ g.isFin = false) :
    ∀ f ∈ some g, f.payload = [] ∧ f.isFin = false := by
  intro f hf
  rw [mem_def, some.injEq] at hf
  subst hf
  exact h

/-- The reply of a polled flow carries neither data nor a FIN. -/
theorem replyTo_download (hpolled : c.inlineOwned = false) (macs : LinkMacs) (now : Instant)
    (t : TcpView) (consumed : Nat) :
    SameDownload c (c.replyTo macs now t consumed).conn ∧
      ∀ f ∈ (c.replyTo macs now t consumed).reply, f.payload = [] ∧ f.isFin = false := by
  have hack := fun c' : FastPathConn => bare_of_mem (g := c'.ackFrame macs) ⟨rfl, rfl⟩
  simp only [replyTo]
  split
  · have hin : (c.setLastAck (c.lastAck + 1)).inlineOwned = false := hpolled
    rw [if_neg (by rw [hin]; decide)]
    exact ⟨⟨rfl, rfl, rfl, rfl, rfl, rfl, rfl, rfl, rfl⟩, hack _⟩
  · split
    · exact ⟨.refl c, by simp⟩
    · exact ⟨.refl c, hack c⟩

/-- An intercepted segment moves the acknowledged position forward at most, and
leaves the rest of the download alone. -/
theorem Downloading.intercept (h : Downloading isn c acked start) (macs : LinkMacs)
    (env : FastPathConn.InterceptEnv) (t : TcpView) (following : List (Option TcpView)) :
    let r := c.intercept macs env t following
    (∃ acked', acked ≤ acked' ∧ Downloading isn r.conn acked' start)
      ∧ r.conn.stream.received = c.stream.received ∧ r.conn.hostEof = c.hostEof
      ∧ ∀ f ∈ r.reply, f.payload = [] ∧ f.isFin = false := by
  have hreset := fun c' : FastPathConn => bare_of_mem (g := c'.resetFrame macs) ⟨rfl, rfl⟩
  simp only [FastPathConn.intercept]
  generalize hc₀ : ({ c with lastGuestActivity := env.now } : FastPathConn) = c₀
  have hsame₀ : SameDownload c c₀ := by
    subst hc₀
    exact ⟨rfl, rfl, rfl, rfl, rfl, rfl, rfl, rfl, rfl⟩
  have h₀ := h.congr hsame₀
  split
  · exact ⟨⟨acked, .refl, h₀⟩, hsame₀.received, hsame₀.hostEof, by simp⟩
  split
  · exact ⟨⟨acked, .refl, h₀⟩, hsame₀.received, hsame₀.hostEof, hreset c₀⟩
  obtain ⟨acked', hle, h₁⟩ := h₀.handleAck t
  have hrecv₁ : (c₀.handleAck t).stream.received = c.stream.received
      ∧ (c₀.handleAck t).hostEof = c.hostEof := by
    rw [← hsame₀.received, ← hsame₀.hostEof]
    simp only [FastPathConn.handleAck, FastPathConn.storeAcked, FastPathConn.storeWindow,
      countDupAck]
    repeat' split
    all_goals exact ⟨rfl, rfl⟩
  have hsame₂ := sameDownload_takePayload (c₀.handleAck t) env t following
  revert hsame₂
  rcases (c₀.handleAck t).takePayload env t following with ⟨c₂, consumed, wrote⟩
  intro hsame₂
  dsimp only at hsame₂
  have h₂ := h₁.congr hsame₂
  have hrecv₂ : c₂.stream.received = c.stream.received ∧ c₂.hostEof = c.hostEof :=
    ⟨hsame₂.received.trans hrecv₁.1, hsame₂.hostEof.trans hrecv₁.2⟩
  cases wrote with
  | none => exact ⟨⟨acked', hle, h₂⟩, hrecv₂.1, hrecv₂.2, hreset c₂⟩
  | some advanced =>
    have hreply : ∀ c₃ : FastPathConn, SameDownload c₂ c₃ →
        (∃ acked', acked ≤ acked'
            ∧ Downloading isn (c₃.replyTo macs env.now t consumed).conn acked' start)
          ∧ (c₃.replyTo macs env.now t consumed).conn.stream.received = c.stream.received
          ∧ (c₃.replyTo macs env.now t consumed).conn.hostEof = c.hostEof
          ∧ ∀ f ∈ (c₃.replyTo macs env.now t consumed).reply,
              f.payload = [] ∧ f.isFin = false := by
      intro c₃ hsame₃
      have h₃ := h₂.congr hsame₃
      obtain ⟨hsame₄, hframes⟩ := replyTo_download h₃.polled macs env.now t consumed
      have hsame := hsame₃.trans hsame₄
      exact ⟨⟨acked', hle, h₂.congr hsame⟩, hsame.received.trans hrecv₂.1,
        hsame.hostEof.trans hrecv₂.2, hframes⟩
    dsimp only
    split
    · have hsame₃ := sameDownload_of_onlyUpload
        (uploads_drainParkedSegments env.writes.tail c₂).only
      revert hsame₃
      rcases c₂.drainParkedSegments env.writes.tail with ⟨c₃, ok⟩
      intro hsame₃
      cases ok with
      | false =>
        exact ⟨⟨acked', hle, h₂.congr hsame₃⟩, hsame₃.received.trans hrecv₂.1,
          hsame₃.hostEof.trans hrecv₂.2, hreset c₃⟩
      | true => exact hreply c₃ hsame₃
    · exact hreply c₂ (.refl c₂)

/-! ## Runs -/

structure DownloadStep (isn : BitVec 32) (e : TcpBridge.Event) (c c' : FastPathConn)
    (out : List TcpFrame) (live : Bool) (acked acked' start : Nat) : Prop where
  before : ∃ start₀, Downloading isn c acked start₀
  after : Downloading isn c' acked' start
  forward : acked ≤ acked'
  drained : (∃ env, e = .poll env) → live = true → start = acked'
  grows : ∃ data, Grows c c' acked data
  frames : ∀ f ∈ out, FrameOf isn acked c'.stream.received c'.hostEof f

theorem flowStep_download {key : SynFlowKey} {e : TcpBridge.Event}
    (h : Downloading isn c acked start) (hstep : TcpBridge.FlowStep key e c out c' live) :
    ∃ acked' start', DownloadStep isn e c c' out live acked acked' start' := by
  cases hstep with
  | idle hidle =>
    exact ⟨acked, start, ⟨start, h⟩, h, .refl, fun ⟨env, he⟩ => absurd he (hidle env),
      ⟨[], .same (.refl c)⟩, by simp⟩
  | abandoned =>
    exact ⟨acked, start, ⟨start, h⟩, h, .refl, fun _ => nofun, ⟨[], .same (.refl c)⟩,
      by simp⟩
  | @intercept bareIp env t following macs he hkey =>
    obtain ⟨⟨acked', hle, h'⟩, hrecv, heof, hreply⟩ := h.intercept macs env t following
    refine ⟨acked', start, ⟨start, h⟩, h', hle, ?_, ⟨[], ?_, ?_, nofun, .inl rfl⟩, ?_⟩
    · rintro ⟨env', hpoll⟩
      rw [he] at hpoll
      cases hpoll
    · rw [hrecv, append_nil]
    · exact fun ht => ⟨heof.trans ht, rfl⟩
    intro f hf
    rw [mem_toList] at hf
    obtain ⟨hpay, hfin⟩ := hreply f hf
    exact frameOf_control hpay hfin
  | poll ctx now timeout bufCap env hlive =>
    obtain ⟨⟨start', h', hdrained⟩, hgrows, hframes⟩ := h.poll ctx now timeout bufCap env
    exact ⟨acked, start', ⟨start, h⟩, h', .refl, fun _ hl => hdrained (hlive hl), hgrows,
      hframes⟩
  | reader cells hinline =>
    have hpolled := h.polled
    rw [hinline] at hpolled
    cases hpolled

/-- The invariant of a polled download. -/
def DownloadInv (isn : BitVec 32) (c : FastPathConn) : Prop :=
  ∃ acked start, Downloading isn c acked start

theorem flowStep_downloadInv {key : SynFlowKey} {e : TcpBridge.Event} (h : DownloadInv isn c)
    (hstep : TcpBridge.FlowStep key e c out c' live) : DownloadInv isn c' := by
  obtain ⟨acked, start, hdown⟩ := h
  obtain ⟨acked', start', hds⟩ := flowStep_download hdown hstep
  exact ⟨acked', start', hds.after⟩

end Flow

theorem downloading_promoted (key : SynFlowKey) (init : FastPathInit) (observed : Bool)
    (now : Instant) : Downloading init.ourSeq (promoted key init false observed now) 0 0 := by
  have hzero : init.ourSeq = seqAt init.ourSeq 0 := (seqAt_zero init.ourSeq).symm
  exact ⟨rfl, hzero, hzero, .refl, hzero, .refl, Nat.zero_le _, rfl, rfl⟩

namespace TcpBridge

end TcpBridge

section Run

variable {b : TcpBridge} {key : SynFlowKey} {init : FastPathInit} {sinkTakes observed : Bool}
  {now : Instant}

theorem lookup_promoteToFastPath (observed : Bool) (now : Instant)
    (hpolled : b.promotesInline key init sinkTakes = false) :
    (b.promoteToFastPath key init sinkTakes observed now).fastPathConns.lookup key
      = some (promoted key init false observed now) := by
  simp only [promoteToFastPath, hpolled]
  exact AList.lookup_insert _

variable {r : TcpBridge.Record}

theorem record_download (hb : b.Keyed) (hpolled : b.promotesInline key init sinkTakes = false)
    (events : List TcpBridge.Event)
    (hr : r ∈ TcpBridge.run (b.promoteToFastPath key init sinkTakes observed now) events) :
    (∃ c c' out live acked acked' start, r.before.fastPathConns.lookup key = some c
      ∧ r.after.Has key c' live ∧ (∀ f ∈ r.frames, f.flow = key → f ∈ out)
      ∧ DownloadStep init.ourSeq r.event c c' out live acked acked' start)
    ∨ (r.before.fastPathConns.lookup key = none ∧ ∀ f ∈ r.frames, f.flow ≠ key) := by
  have hstart : ∃ c, (b.promoteToFastPath key init sinkTakes observed now).fastPathConns.lookup key
      = some c ∧ DownloadInv init.ourSeq c :=
    ⟨_, lookup_promoteToFastPath observed now hpolled, 0, 0, downloading_promoted key init observed now⟩
  have hstep : ∀ e c out c' live, DownloadInv init.ourSeq c → True →
      FlowStep key e c out c' live →
        (live = true → DownloadInv init.ourSeq c') ∧ True :=
    fun e c out c' live hinv _ hs => ⟨fun _ => flowStep_downloadInv hinv hs, trivial⟩
  have hok := run_flow hstep
    events (keyed_promoteToFastPath hb key init sinkTakes observed now) (.inl hstart)
    (fun _ _ _ _ => trivial) r hr
  cases hok with
  | @step c c' out live hbefore hinv hstep hafter hframes =>
    obtain ⟨acked, start, hdown⟩ := hinv
    obtain ⟨acked', start', hds⟩ := flowStep_download hdown hstep
    exact .inl ⟨c, c', out, live, acked, acked', start', hbefore, hafter, hframes, hds⟩
  | closed hbefore hdone hafter hsilent => exact .inr ⟨hbefore.1, hsilent⟩

/-- Window discipline of an event, for a flow that goes from `c` to `c'`: a byte
that was not sent before lies inside the honoured window of the guest, or it is
the single byte of a probe into a closed window with nothing in flight. -/
structure WindowKept (key : SynFlowKey) (r : TcpBridge.Record) (c c' : FastPathConn) : Prop where
  flow : r.after.flow? key = some c'
  firstSent : ∀ f ∈ r.frames, f.flow = key → ∀ i < f.payload.length,
    let offset := (f.params.seq + BitVec.ofNat 32 i - c.guestAcked).toNat
    offset < (c.ourSeq - c.guestAcked).toNat
      ∨ offset < min c.guestWindow.toNat honoredWindowCap
      ∨ (offset = 0 ∧ c.ourSeq = c.guestAcked ∧ c.guestWindow = 0 ∧ c'.ourSeq = c.ourSeq + 1)
  buffer : c'.retransmitBuf.length ≤ honoredWindowCap

theorem DownloadStep.windowKept {isn : BitVec 32} {c c' : FastPathConn} {acked acked' start : Nat}
    (hds : DownloadStep isn r.event c c' out live acked acked' start)
    (hafter : r.after.Has key c' live) (hout : ∀ f ∈ r.frames, f.flow = key → f ∈ out) :
    WindowKept key r c c' := by
  obtain ⟨start₀, hdown⟩ := hds.before
  obtain ⟨data, hgrows⟩ := hds.grows
  have hdown' := hds.after
  have hwin := hdown.window
  have hstart := hdown.start_le
  have hle := hdown.acked_le
  refine ⟨flow?_eq_of_has hafter, ?_, ?_⟩
  · intro f hf hkey i hi offset
    have hne : f.payload ≠ [] := ne_nil_of_length_pos (by omega)
    obtain ⟨k, hk, hseq, hlen, -⟩ := (hds.frames f (hout f hf hkey)).data hne
    rw [hgrows.received, length_append] at hlen
    have hrecv : c.stream.received.length ≤ sentPos c := Nat.le_add_right _ _
    have hoffset : k + i < sentPos c + data.length → data.length ≤ 256 * 1024 →
        offset = k + i - acked := by
      intro _ _
      simp only [offset, hseq, seqAt_add]
      rw [hdown.guestAcked]
      exact toNat_sub_of_le isn (by omega) (by omega)
    rcases Nat.lt_or_ge (k + i) (sentPos c) with hold | hnew
    · left
      rw [hoffset (by omega), hdown.inFlight_toNat]
      · omega
      rcases hgrows.window with rfl | h | h
      · exact Nat.zero_le _
      · omega
      · omega
    right
    have hdata : data ≠ [] := by
      rintro rfl
      simp only [length_nil] at hlen
      omega
    have heof : c.hostEof = false := by
      refine Bool.eq_false_iff.mpr fun ht => ?_
      exact hdata (hgrows.ended ht).2
    have hsent : sentPos c = c.stream.received.length := by
      rw [sentPos, heof]
      rfl
    rcases hgrows.window with rfl | hfits | ⟨hone, hidle, hzero⟩
    · exact absurd rfl hdata
    · left
      rw [hoffset (by omega) (by omega), honoredWindowCap]
      omega
    right
    refine ⟨?_, ?_, hzero, ?_⟩
    · rw [hoffset (by omega) (by omega)]
      omega
    · rw [hdown.ourSeq, hdown.guestAcked, hidle]
    · rw [hdown'.ourSeq, hdown.ourSeq, sentPos, hgrows.notEnded hdata, hgrows.received,
        length_append, hone, ← hsent, Bool.toNat_false, Nat.add_zero, ← seqAt_add]
      rfl
  · rw [hdown'.buffer, length_drop, honoredWindowCap]
    have hw := hdown'.window
    have hrecv : c'.stream.received.length ≤ sentPos c' := Nat.le_add_right _ _
    omega

/-- Window discipline.  In every run from the promotion of a flow the bridge
polls, every event that finds the flow in the table keeps the window and the
bound on the retransmission buffer. -/
theorem window_discipline (hb : b.Keyed) (hpolled : b.promotesInline key init sinkTakes = false)
    (events : List TcpBridge.Event) :
    ∀ r ∈ TcpBridge.run (b.promoteToFastPath key init sinkTakes observed now) events,
      ∀ c, r.before.fastPathConns.lookup key = some c → ∃ c', WindowKept key r c c' := by
  intro r hr c₀ hc₀
  rcases record_download hb hpolled events hr with
    ⟨c, c', out, live, acked, acked', start, hbefore, hafter, hout, hds⟩ | ⟨hnone, -⟩
  · rw [hbefore, some.injEq] at hc₀
    subst hc₀
    exact ⟨c', hds.windowKept hafter hout⟩
  · exact absurd (hnone.symm.trans hc₀) (by simp)

/-- A guest with a window of two bytes, which it closes. -/
theorem window_discipline_closed_window :
    let key : SynFlowKey := ⟨.v4 ⟨10, 0, 0, 2⟩, 40000, .v4 ⟨10, 0, 0, 1⟩, 80⟩
    let init : FastPathInit := ⟨5001, 1001, 1460, none, 2⟩
    let read (data : Bytes) (t : Instant) : BridgePollEnv :=
      ⟨t, t, fun _ => false, fun _ => false, fun _ => ⟨false, [], .ok data⟩⟩
    let close : TcpView := ⟨key, 1001, 5003, 0x10, 0, [], by decide⟩
    ∀ r ∈ TcpBridge.run (TcpBridge.new.promoteToFastPath key init false false 0)
        [.poll (read [7, 8, 9] 1), .intercept false ⟨2, false, []⟩ [some close],
          .poll (read [9] 3), .poll (read [9] (300 * msec))],
      ∀ c, r.before.fastPathConns.lookup key = some c → ∃ c', WindowKept key r c c' := by
  intro key init read close
  exact window_discipline keyed_new rfl _

end Run

end Arcbox.Bridge
