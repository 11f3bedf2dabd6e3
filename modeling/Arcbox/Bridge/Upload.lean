import Arcbox.Foundation.Serial
import Arcbox.Bridge.Conn

set_option autoImplicit false

/-!
# Bridge: the upload queue

Guest bytes on their way to the host socket: `FastPathConn::buffer_upload_segment`
(`tcp_bridge/mod.rs`), `UploadBatch` and `drain_parked_segments`
(`tcp_bridge/upload_batch.rs`).  What the socket does with each write is an
argument; a loop of writes takes the list of their outcomes, and a socket whose
list has run out would block.

The queue is read through `Span`: a run of positions of the guest's stream.  A
queue that holds honest segments is the image of a sorted list of spans, and
every operation is an operation on the spans.
-/

namespace Arcbox.Bridge

open Foundation List
open Foundation.Serial

/-- What one `write` on the host socket does. -/
inductive WriteOutcome where
  | accepted (n : Nat)
  | wouldBlock
  | failed
  deriving DecidableEq, Repr

/-- A parked segment: its sequence number and payload. -/
abbrev Segment := BitVec 32 × Bytes

/-! ## Parking a segment -/

/-- The eviction loop of `buffer_upload_segment`, on the queue back to front:
drop segments while `n` more bytes or one more segment do not fit. -/
def evictBack (n : Nat) : List Segment → Nat → Nat → List Segment × Nat × Nat
  | [], bytes, dropped => ([], bytes, dropped)
  | s :: rest, bytes, dropped =>
      if oooReassemblyCap < bytes + n ∨ oooMaxSegments ≤ rest.length + 1 then
        evictBack n rest (bytes - s.2.length) (dropped + 1)
      else (s :: rest, bytes, dropped)

/-- `partition_point` of the queue: how many segments start before `seq`, by
signed distance from `base`. -/
def parkIndex (base seq : BitVec 32) (segs : List Segment) : Nat :=
  (segs.takeWhile fun s => decide ((s.1 - base).toInt < (seq - base).toInt)).length

namespace FastPathConn

variable (c : FastPathConn) (seq : BitVec 32)

/-- The segment already parked at `seq`, if any. -/
def parkedAt : Option Segment :=
  c.oooSegs[parkIndex c.lastAck seq c.oooSegs]?.filter fun s => s.1 == seq

/-- The queue without the segment that one at `seq` replaces. -/
def withoutParkedAt : List Segment :=
  if (c.parkedAt seq).isSome then c.oooSegs.eraseIdx (parkIndex c.lastAck seq c.oooSegs)
  else c.oooSegs

/-- `buffer_upload_segment`. -/
def bufferUploadSegment (payload : Bytes) : FastPathConn :=
  let rel := (seq - c.lastAck).toNat
  let idx := parkIndex c.lastAck seq c.oooSegs
  let existing := c.parkedAt seq
  let replacedBytes := existing.elim 0 fun s => s.2.length
  if payload.length ≤ replacedBytes then c
  else
    let exceedsCap := oooReassemblyCap < c.oooBytes - replacedBytes + payload.length ∨
      (existing = none ∧ oooMaxSegments ≤ c.oooSegs.length)
    if oooReassemblyCap < rel + payload.length ∨ (0 < rel ∧ exceedsCap) then
      { c with upOooDropped := c.upOooDropped + 1 }
    else
      let (kept, bytes, dropped) :=
        evictBack payload.length (c.withoutParkedAt seq).reverse (c.oooBytes - replacedBytes)
          c.upOooDropped
      let queue := kept.reverse
      { c with
        oooSegs := queue.take idx ++ (seq, payload) :: queue.drop idx
        oooBytes := bytes + payload.length
        upOooDropped := dropped }

/-! ## Writing -/

/-- The socket takes the bytes `data`, and the acknowledgement moves over them. -/
def acceptUpload (data : Bytes) : FastPathConn :=
  { c with
    stream := { c.stream with written := c.stream.written ++ data }
    upBytes := c.upBytes + data.length }.setLastAck (c.lastAck + BitVec.ofNat 32 data.length)

/-- A write the socket did not take. -/
def countWouldBlock : FastPathConn := { c with upWouldBlock := c.upWouldBlock + 1 }

/-- A write the socket took in part. -/
def countShortWrite : FastPathConn := { c with upShortWrites := c.upShortWrites + 1 }

def isAcked (s : Segment) : Bool :=
  decide ((s.1 + BitVec.ofNat 32 s.2.length - c.lastAck).toInt ≤ 0)

/-- `discard_acked_upload_segments`. -/
def discardAckedUploadSegments : FastPathConn :=
  { c with
    oooSegs := c.oooSegs.dropWhile c.isAcked
    oooBytes := c.oooBytes - ((c.oooSegs.takeWhile c.isAcked).map fun s => s.2.length).sum }

end FastPathConn

/-- `MAX_SEGMENTS`. -/
def maxSegments : Nat := 64

/-- `MAX_BYTES`. -/
def maxBytes : Nat := 256 * 1024

/-- `UploadBatch`: the payloads of one vectored write. -/
structure UploadBatch where
  payloads : List Bytes
  deriving DecidableEq, Repr

/-- A frame that may join a batch: nothing but ACK, or PSH and ACK, with data. -/
def plainUpload (frame : Option TcpView) : Option TcpView :=
  frame.filter fun t => (t.flags == 0x10 || t.flags == 0x18) && !t.payload.isEmpty

namespace UploadBatch

variable (batch : UploadBatch)

/-- `count`. -/
def count : Nat := batch.payloads.length

/-- The bytes the batch offers to the socket. -/
def data : Bytes := batch.payloads.flatten

/-- `bytes`. -/
def bytes : Nat := batch.data.length

/-- The loop of `extend`: the payloads of the frames that continue the batch. -/
def following (first : TcpView) : List (Option TcpView) → Nat → BitVec 32 → List Bytes
  | [], _, _ => []
  | frame :: rest, bytes, seq =>
      match plainUpload frame with
      | none => []
      | some tcp =>
          if tcp.key ≠ first.key ∨ tcp.ack ≠ first.ack ∨ tcp.window ≠ first.window
              ∨ tcp.seq ≠ seq ∨ maxBytes < bytes + tcp.payload.length then []
          else
            tcp.payload :: following first rest (bytes + tcp.payload.length)
              (seq + BitVec.ofNat 32 tcp.payload.length)

/-- `extend`. -/
def extend (first : TcpView) (frames : List (Option TcpView)) (seq : BitVec 32) : UploadBatch :=
  match plainUpload (some first) with
  | none => batch
  | some _ => ⟨batch.payloads ++ following first (frames.take (maxSegments - 1)) batch.bytes seq⟩

/-- The loop of `send` over the payloads: park what is left of each one after
`skip` bytes were accepted. -/
def parkTails : FastPathConn → Nat → BitVec 32 → List Bytes → FastPathConn
  | c, _, _, [] => c
  | c, skip, seq, payload :: rest =>
      let tail := payload.drop skip
      if tail = [] then parkTails c (skip - payload.length) seq rest
      else
        parkTails (c.bufferUploadSegment seq tail) (skip - payload.length)
          (seq + BitVec.ofNat 32 tail.length) rest

/-- `send`: the flow afterwards, and whether the socket took the write; `none`
when it failed. -/
def send (outcome : WriteOutcome) (c : FastPathConn) : FastPathConn × Option Bool :=
  match outcome with
  | .accepted n =>
      let taken := batch.data.take n
      let c := c.acceptUpload taken
      let c := if taken.length < batch.bytes then c.countShortWrite else c
      (parkTails c taken.length c.lastAck batch.payloads, some true)
  | .wouldBlock =>
      let c := c.countWouldBlock
      (parkTails c 0 c.lastAck batch.payloads, some false)
  | .failed => (c, none)

end UploadBatch

/-! ## Draining the queue -/

/-- The loop of `drain_parked_segments` that fills a batch from the queue:
contiguous payloads from `cursor` on, clipped where they overlap. -/
def gather (cursor : BitVec 32) (count bytes : Nat) : List Segment → List Bytes
  | [] => []
  | (seq, data) :: rest =>
      let overlap := (cursor - seq).toNat
      if half ≤ overlap then []
      else if data.length ≤ overlap then gather cursor count bytes rest
      else
        let piece := (data.drop overlap).take (maxBytes - bytes)
        if count + 1 = maxSegments ∨ bytes + piece.length = maxBytes then [piece]
        else
          piece ::
            gather (cursor + BitVec.ofNat 32 piece.length) (count + 1) (bytes + piece.length) rest

namespace FastPathConn

/-- The batch `drain_parked_segments` offers next. -/
def parkedBatch (c : FastPathConn) : UploadBatch := ⟨gather c.lastAck 0 0 c.oooSegs⟩

/-- `drain_parked_segments`: the flow afterwards, and whether no write failed.
Every pass of the loop makes one write, so the recursion is on the outcomes. -/
def drainParkedSegments : List WriteOutcome → FastPathConn → FastPathConn × Bool
  | [], c =>
      let c := c.discardAckedUploadSegments
      if c.parkedBatch.count = 0 then (c.discardAckedUploadSegments, true)
      else (c.countWouldBlock.discardAckedUploadSegments, true)
  | outcome :: rest, c =>
      let c := c.discardAckedUploadSegments
      let batch := c.parkedBatch
      if batch.count = 0 then (c.discardAckedUploadSegments, true)
      else
        match outcome with
        | .accepted n =>
            let taken := batch.data.take n
            let c := c.acceptUpload taken
            if taken.length < batch.bytes then
              (c.countShortWrite.discardAckedUploadSegments, true)
            else drainParkedSegments rest c
        | .wouldBlock => (c.countWouldBlock.discardAckedUploadSegments, true)
        | .failed => (c, false)

end FastPathConn

/-! ## What the upload path leaves alone -/

/-- The fields of a flow the upload path writes. -/
structure UploadPart where
  written : Bytes
  lastAck : BitVec 32
  lastAckShared : Option (BitVec 32)
  upBytes : Nat
  upWouldBlock : Nat
  upShortWrites : Nat
  oooSegs : List Segment
  oooBytes : Nat
  upOooDropped : Nat

variable {c' : FastPathConn}

namespace FastPathConn

/-- Replace the upload fields. -/
def withUpload (c : FastPathConn) (u : UploadPart) : FastPathConn :=
  { c with
    stream := { c.stream with written := u.written }
    lastAck := u.lastAck
    lastAckShared := u.lastAckShared
    upBytes := u.upBytes
    upWouldBlock := u.upWouldBlock
    upShortWrites := u.upShortWrites
    oooSegs := u.oooSegs
    oooBytes := u.oooBytes
    upOooDropped := u.upOooDropped }

/-- The upload fields of a flow. -/
def uploadPart (c : FastPathConn) : UploadPart :=
  ⟨c.stream.written, c.lastAck, c.lastAckShared, c.upBytes, c.upWouldBlock, c.upShortWrites,
    c.oooSegs, c.oooBytes, c.upOooDropped⟩

/-- `c'` differs from `c` in upload fields only. -/
def OnlyUpload (c c' : FastPathConn) : Prop := c' = c.withUpload c'.uploadPart

variable {c : FastPathConn}

theorem OnlyUpload.trans {c'' : FastPathConn} (h : c.OnlyUpload c') (h' : c'.OnlyUpload c'') :
    c.OnlyUpload c'' := by
  rw [OnlyUpload] at h'
  rw [OnlyUpload, h', h]
  rfl

theorem OnlyUpload.key_eq (h : c.OnlyUpload c') : c'.key = c.key := by
  rw [h]
  rfl

theorem onlyUpload_bufferUploadSegment (c : FastPathConn) (seq : BitVec 32) (payload : Bytes) :
    c.OnlyUpload (c.bufferUploadSegment seq payload) := by
  simp only [bufferUploadSegment]
  split
  · rfl
  · split <;> rfl

theorem bufferUploadSegment_cursor (c : FastPathConn) (seq : BitVec 32) (payload : Bytes) :
    (c.bufferUploadSegment seq payload).lastAck = c.lastAck ∧
      (c.bufferUploadSegment seq payload).stream = c.stream := by
  simp only [bufferUploadSegment]
  split
  · exact ⟨rfl, rfl⟩
  · split <;> exact ⟨rfl, rfl⟩

/-- Only upload fields change, and bytes the socket accepted stay as they are. -/
structure Uploads (c c' : FastPathConn) : Prop where
  only : c.OnlyUpload c'
  written : c.stream.written <+: c'.stream.written

theorem Uploads.trans {c'' : FastPathConn} (h : c.Uploads c') (h' : c'.Uploads c'') :
    c.Uploads c'' := ⟨h.only.trans h'.only, h.written.trans h'.written⟩

theorem uploads_parkTails (payloads : List Bytes) (c : FastPathConn) (skip : Nat)
    (seq : BitVec 32) : c.Uploads (UploadBatch.parkTails c skip seq payloads) := by
  induction payloads generalizing c skip seq with
  | nil => exact ⟨rfl, prefix_refl _⟩
  | cons payload rest ih =>
    simp only [UploadBatch.parkTails]
    split
    · exact ih c _ seq
    · obtain ⟨-, hstream⟩ := bufferUploadSegment_cursor c seq (payload.drop skip)
      refine Uploads.trans ⟨onlyUpload_bufferUploadSegment c seq _, ?_⟩ (ih _ _ _)
      exact hstream.symm ▸ prefix_refl _

theorem uploads_send (batch : UploadBatch) (outcome : WriteOutcome) (c : FastPathConn) :
    c.Uploads (batch.send outcome c).1 := by
  cases outcome with
  | accepted n =>
    simp only [UploadBatch.send]
    refine Uploads.trans ?_ (uploads_parkTails _ _ _ _)
    split <;> exact ⟨rfl, prefix_append _ _⟩
  | wouldBlock =>
    have hcount : c.Uploads c.countWouldBlock := ⟨rfl, prefix_refl _⟩
    exact hcount.trans (uploads_parkTails _ _ _ _)
  | failed => exact ⟨rfl, prefix_refl _⟩

theorem uploads_drainParkedSegments (script : List WriteOutcome) (c : FastPathConn) :
    c.Uploads (drainParkedSegments script c).1 := by
  induction script generalizing c with
  | nil =>
    simp only [drainParkedSegments]
    split <;> exact ⟨rfl, prefix_refl _⟩
  | cons outcome rest ih =>
    simp only [drainParkedSegments]
    split
    · exact ⟨rfl, prefix_refl _⟩
    cases outcome with
    | accepted n =>
      dsimp only
      split
      · exact ⟨rfl, prefix_append _ _⟩
      · refine Uploads.trans ?_ (ih _)
        exact ⟨rfl, prefix_append _ _⟩
    | wouldBlock | failed => exact ⟨rfl, prefix_refl _⟩

end FastPathConn

/-! ## Spans -/

/-- A run of positions of the guest's stream. -/
structure Span where
  start : Nat
  len : Nat
  deriving DecidableEq, Repr

namespace Span

/-- The position after the run. -/
def stop (s : Span) : Nat := s.start + s.len

/-- The segment that carries the run, for a stream `G` whose first byte has the
sequence number `base`. -/
def segment (G : Bytes) (base : BitVec 32) (s : Span) : Segment :=
  (seqAt base s.start, (G.drop s.start).take s.len)

end Span

/-- A span that may be parked when the cursor stands at position `cur`: the size
of a segment, inside the stream and the reassembly cap, and not so far behind the
cursor that wrapping arithmetic would take it for future data. -/
structure Span.Fits (G : Bytes) (cur : Nat) (s : Span) : Prop where
  pos : 0 < s.len
  size : s.len ≤ 65535
  inside : s.start + s.len ≤ G.length
  reach : s.start + s.len ≤ cur + 4 * 1024 * 1024
  close : cur ≤ s.start + 0x40000000

/-- The spans of a queue, in order. -/
structure Parked (G : Bytes) (cur : Nat) (spans : List Span) : Prop where
  sorted : spans.Pairwise fun s t => s.start < t.start
  fits : ∀ s ∈ spans, s.Fits G cur

/-- The front of the queue still has bytes past the cursor. -/
def Ahead (cur : Nat) (spans : List Span) : Prop := ∀ s ∈ spans.head?, cur < s.stop

section Spans

variable {G : Bytes} {base : BitVec 32} {cur : Nat} {spans : List Span}
variable {s : Span} {p : Nat} {c : FastPathConn} {α : Type}

theorem segment_length (base : BitVec 32) (h : s.start + s.len ≤ G.length) :
    (s.segment G base).2.length = s.len := by
  simp only [Span.segment, length_take, length_drop]
  omega

/-- Once its front is ahead, no part of the queue lags by more than a segment. -/
theorem Parked.close_of_ahead (hp : Parked G cur spans) (ha : Ahead cur spans) :
    ∀ s ∈ spans, cur < s.start + 65535 := by
  cases spans with
  | nil => simp
  | cons t rest =>
    have hfront : cur < t.start + 65535 := by
      have hstop := ha t (by simp)
      have hsize := (hp.fits t (by simp)).size
      simp only [Span.stop] at hstop
      omega
    refine forall_mem_cons.mpr ⟨hfront, fun s hmem => ?_⟩
    have hlt := (pairwise_cons.mp hp.sorted).1 s hmem
    omega

/-- At the end of the stream nothing can be parked. -/
theorem Parked.eq_nil_of_length_le (hp : Parked G cur spans) (ha : Ahead cur spans)
    (h : G.length ≤ cur) : spans = [] := by
  cases spans with
  | nil => rfl
  | cons t rest =>
    have hstop := ha t (by simp)
    have hin := (hp.fits t (by simp)).inside
    simp only [Span.stop] at hstop
    omega

/-- Moving the cursor forward by less than a quarter of the sequence space keeps
a queue in order. -/
theorem Parked.advance (hp : Parked G cur spans) (ha : Ahead cur spans) {n : Nat}
    (hn : n ≤ 0x20000000) : Parked G (cur + n) spans where
  sorted := hp.sorted
  fits s hs := by
    obtain ⟨hpos, hsize, hin, hreach, -⟩ := hp.fits s hs
    have hclose := hp.close_of_ahead ha s hs
    exact ⟨hpos, hsize, hin, by omega, by omega⟩

theorem Parked.sublist {spans' : List Span} (hp : Parked G cur spans)
    (h : spans'.Sublist spans) : Parked G cur spans' :=
  ⟨hp.sorted.sublist h, fun s hs => hp.fits s (h.subset hs)⟩

/-- The wrapped comparisons of the code compare positions. -/
theorem Span.Fits.signed_lt_iff (hs : s.Fits G cur) (hcur : cur ≤ p) (hlt : p - cur < half) :
    ((s.segment G base).1 - seqAt base cur).toInt < (seqAt base p - seqAt base cur).toInt
      ↔ s.start < p := by
  obtain ⟨-, -, -, hreach, hclose⟩ := hs
  simp only [half] at hlt
  rw [Span.segment, toInt_sub_seqAt base (by omega) (by omega),
    toInt_sub_seqAt base (by omega) (by omega)]
  omega

theorem Span.Fits.isAcked_eq (hs : s.Fits G cur) (hack : c.lastAck = seqAt base cur) :
    c.isAcked (s.segment G base) = decide (s.stop ≤ cur) := by
  have hlen : ((s.segment G base).2).length = s.len := segment_length base hs.inside
  obtain ⟨-, -, -, hreach, hclose⟩ := hs
  rw [FastPathConn.isAcked, hlen, hack, Span.segment]
  simp only [seqAt_add]
  rw [toInt_sub_seqAt base (by omega) (by omega), decide_eq_decide, Span.stop]
  omega

/-! ## Parking -/

private theorem takeWhile_congr_mem {p q : α → Bool} {l : List α} (h : ∀ a ∈ l, p a = q a) :
    l.takeWhile p = l.takeWhile q := by
  induction l with
  | nil => rfl
  | cons a rest ih =>
    have hrest := ih fun b hb => h b (mem_cons_of_mem a hb)
    simp only [takeWhile_cons, h a (by simp), hrest]

private theorem dropWhile_congr_mem {p q : α → Bool} {l : List α} (h : ∀ a ∈ l, p a = q a) :
    l.dropWhile p = l.dropWhile q := by
  induction l with
  | nil => rfl
  | cons a rest ih =>
    have hrest := ih fun b hb => h b (mem_cons_of_mem a hb)
    simp only [dropWhile_cons, h a (by simp), hrest]

private theorem getElem?_length_takeWhile (p : α → Bool) (l : List α) :
    l[(l.takeWhile p).length]? = (l.dropWhile p).head? := by
  induction l with
  | nil => rfl
  | cons a rest ih =>
    rw [takeWhile_cons, dropWhile_cons]
    split
    · simpa using ih
    · rfl

theorem evictBack_eq_drop (n : Nat) (segs : List Segment) (bytes dropped : Nat) :
    ∃ m, (evictBack n segs bytes dropped).1 = segs.drop m := by
  induction segs generalizing bytes dropped with
  | nil => exact ⟨0, rfl⟩
  | cons s rest ih =>
    simp only [evictBack]
    split
    · obtain ⟨m, hm⟩ := ih (bytes - s.2.length) (dropped + 1)
      exact ⟨m + 1, hm⟩
    · exact ⟨0, rfl⟩

theorem parkIndex_eq (base : BitVec 32) (hp : Parked G cur spans) (hcur : cur ≤ p)
    (hlt : p - cur < half) :
    parkIndex (seqAt base cur) (seqAt base p) (spans.map (Span.segment G base))
      = (spans.takeWhile fun s => decide (s.start < p)).length := by
  rw [parkIndex, takeWhile_map, length_map]
  congr 1
  refine takeWhile_congr_mem fun s hs => ?_
  simp only [Function.comp, decide_eq_decide]
  exact (hp.fits s hs).signed_lt_iff hcur hlt

/-- The spans at or after position `p`, without the one that starts there. -/
def after (p : Nat) (spans : List Span) : List Span :=
  (spans.dropWhile fun s => decide (s.start < p)).filter fun s => decide (p < s.start)

/-- In a sorted list, what `after` filters out is at most the first entry. -/
theorem after_eq (hs : spans.Pairwise fun s t => s.start < t.start) (p : Nat) :
    after p spans = match spans.dropWhile fun s => decide (s.start < p) with
      | [] => []
      | s :: rest => if s.start = p then rest else s :: rest := by
  have hsub := hs.sublist (dropWhile_sublist fun s => decide (s.start < p))
  have hhead := List.head?_dropWhile_not (fun s : Span => decide (s.start < p)) spans
  rw [after]
  cases hd : spans.dropWhile fun s => decide (s.start < p) with
  | nil => rfl
  | cons s rest =>
    rw [hd] at hsub hhead
    simp only [List.head?_cons, decide_eq_false_iff_not, Nat.not_lt] at hhead
    have hrest : rest.filter (fun t => decide (p < t.start)) = rest := by
      rw [filter_eq_self]
      intro t ht
      have := (pairwise_cons.mp hsub).1 t ht
      simp only [decide_eq_true_eq]
      omega
    rcases Nat.eq_or_lt_of_le hhead with heq | hgt
    · rw [filter_cons_of_neg (by simp [heq]), hrest]
      exact (if_pos heq.symm).symm
    · rw [filter_cons_of_pos (by simpa using hgt), hrest]
      exact (if_neg (Nat.ne_of_gt hgt)).symm

/-- Placing a span between those before it and those after it keeps the order. -/
theorem sorted_place (hs : spans.Pairwise fun s t => s.start < t.start) (new : Span) :
    ((spans.takeWhile fun s => decide (s.start < new.start)) ++ new :: after new.start spans).Pairwise
      fun s t => s.start < t.start := by
  have hbefore : ∀ s ∈ spans.takeWhile fun s => decide (s.start < new.start),
      s.start < new.start := by
    intro s hmem
    simpa using all_eq_true.mp all_takeWhile s hmem
  have hafter : ∀ s ∈ after new.start spans, new.start < s.start := by
    intro s hmem
    simpa using (mem_filter.mp hmem).2
  rw [pairwise_append]
  refine ⟨hs.sublist (takeWhile_sublist _), ?_, ?_⟩
  · rw [pairwise_cons]
    refine ⟨hafter, hs.sublist ?_⟩
    exact filter_sublist.trans (dropWhile_sublist _)
  intro s hmem
  have hlt := hbefore s hmem
  exact forall_mem_cons.mpr ⟨hlt, fun t ht => Nat.lt_trans hlt (hafter t ht)⟩

/-- The queue's fields after parking, when the segment is admitted: what is left
of the queue around the new segment. -/
theorem bufferUploadSegment_cases (c : FastPathConn) (seq : BitVec 32) (payload : Bytes) :
    (c.bufferUploadSegment seq payload).oooSegs = c.oooSegs ∨
    ((seq - c.lastAck).toNat + payload.length ≤ oooReassemblyCap ∧
      ∃ m, (c.bufferUploadSegment seq payload).oooSegs =
        let idx := parkIndex c.lastAck seq c.oooSegs
        let queue := (c.withoutParkedAt seq).take m
        queue.take idx ++ (seq, payload) :: queue.drop idx) := by
  simp only [FastPathConn.bufferUploadSegment]
  split
  · exact .inl rfl
  split
  · exact .inl rfl
  rename_i hfits
  obtain ⟨m, hm⟩ := evictBack_eq_drop payload.length (c.withoutParkedAt seq).reverse
    (c.oooBytes - (c.parkedAt seq).elim 0 fun s => s.2.length) c.upOooDropped
  refine .inr ⟨by omega, (c.withoutParkedAt seq).length - m, ?_⟩
  rw [hm, drop_reverse, reverse_reverse]

/-- A segment parked at `seq` is the span that starts at its position. -/
theorem parkedAt_isSome_iff (hp : Parked G cur spans) (hack : c.lastAck = seqAt base cur)
    (hq : c.oooSegs = spans.map (Span.segment G base)) (hcur : cur ≤ p) (hlt : p - cur < half) :
    (c.parkedAt (seqAt base p)).isSome ↔
      ∃ s ∈ (spans.dropWhile fun s => decide (s.start < p)).head?, s.start = p := by
  have hidx := parkIndex_eq base hp hcur hlt
  have hget : c.oooSegs[parkIndex c.lastAck (seqAt base p) c.oooSegs]?
      = ((spans.dropWhile fun s => decide (s.start < p)).head?).map (Span.segment G base) := by
    rw [hack, hq, hidx, List.getElem?_map, getElem?_length_takeWhile]
  rw [FastPathConn.parkedAt, hget]
  cases hd : (spans.dropWhile fun s => decide (s.start < p)).head? with
  | none => simp
  | some s =>
    have hmem : s ∈ spans :=
      (dropWhile_sublist _).subset (mem_of_mem_head? hd)
    obtain ⟨-, -, -, hreach, hclose⟩ := hp.fits s hmem
    have hinj : seqAt base s.start = seqAt base p ↔ s.start = p := by
      simp only [half] at hlt
      exact seqAt_inj base (by omega) (by omega)
    simp [Span.segment, hinj]

theorem withoutParkedAt_eq (hp : Parked G cur spans) (hack : c.lastAck = seqAt base cur)
    (hq : c.oooSegs = spans.map (Span.segment G base)) (hcur : cur ≤ p) (hlt : p - cur < half) :
    c.withoutParkedAt (seqAt base p)
      = ((spans.takeWhile fun s => decide (s.start < p)) ++ after p spans).map
          (Span.segment G base) := by
  have hsome := parkedAt_isSome_iff hp hack hq hcur hlt
  have hidx := parkIndex_eq base hp hcur hlt
  have hsplit := takeWhile_append_dropWhile (p := fun s : Span => decide (s.start < p))
    (l := spans)
  rw [FastPathConn.withoutParkedAt, hack, hq, hidx, after_eq hp.sorted p]
  cases hd : spans.dropWhile fun s => decide (s.start < p) with
  | nil =>
    rw [hd] at hsome hsplit
    simp only [List.head?_nil, Option.mem_def, reduceCtorEq, false_and, exists_false,
      iff_false] at hsome
    rw [if_neg hsome, hsplit]
  | cons s rest =>
    rw [hd] at hsome hsplit
    simp only [List.head?_cons, Option.mem_def, Option.some.injEq, exists_eq_left'] at hsome
    by_cases hs : s.start = p
    · simp only [if_pos (hsome.mpr hs), if_pos hs]
      have hmap : spans.map (Span.segment G base)
          = (spans.takeWhile fun s => decide (s.start < p)).map (Span.segment G base)
            ++ s.segment G base :: rest.map (Span.segment G base) := by
        rw [← map_cons, ← map_append, hsplit]
      rw [hmap, eraseIdx_append_of_length_le (by simp), map_append]
      simp
    · simp only [if_neg (fun h => hs (hsome.mp h)), if_neg hs]
      rw [hsplit]

/-- Parking an honest segment at or past the cursor keeps the queue an image of
spans, whatever is replaced, refused or evicted. -/
theorem bufferUploadSegment_spec (hp : Parked G cur spans) (hack : c.lastAck = seqAt base cur)
    (hq : c.oooSegs = spans.map (Span.segment G base)) {new : Span} (hcur : cur ≤ new.start)
    (hlt : new.start - cur < half) (hpos : 0 < new.len) (hsize : new.len ≤ 65535)
    (hin : new.start + new.len ≤ G.length) :
    ∃ spans', (c.bufferUploadSegment (new.segment G base).1 (new.segment G base).2).oooSegs
        = spans'.map (Span.segment G base)
      ∧ Parked G cur spans' ∧ (Ahead cur spans → Ahead cur spans') := by
  rcases bufferUploadSegment_cases c (new.segment G base).1 (new.segment G base).2 with
    hsame | ⟨hfits, m, hnew⟩
  · exact ⟨spans, hsame.trans hq, hp, id⟩
  have hwidth : (seqAt base new.start - seqAt base cur).toNat = new.start - cur :=
    toNat_sub_of_le base hcur (by simp only [half] at hlt; omega)
  have hreach : new.start - cur + new.len ≤ oooReassemblyCap := by
    rw [segment_length base hin, hack] at hfits
    simpa only [Span.segment, hwidth] using hfits
  let before := spans.takeWhile fun s => decide (s.start < new.start)
  have hplaced : Parked G cur (before ++ new :: after new.start spans) := by
    refine ⟨sorted_place hp.sorted new, fun s hs => ?_⟩
    have hmem : s = new ∨ s ∈ spans := by
      rcases mem_append.mp hs with h | h
      · exact .inr ((takeWhile_sublist _).subset h)
      · rcases mem_cons.mp h with rfl | h
        · exact .inl rfl
        · exact .inr ((dropWhile_sublist _).subset (mem_filter.mp h).1)
    rcases hmem with rfl | h
    · simp only [oooReassemblyCap] at hreach
      exact ⟨hpos, hsize, hin, by omega, by omega⟩
    · exact hp.fits s h
  refine ⟨before.take m ++ new :: (after new.start spans).take (m - before.length), ?_, ?_, ?_⟩
  · rw [hnew]
    have hidx := parkIndex_eq base hp hcur hlt
    have hwithout := withoutParkedAt_eq hp hack hq hcur hlt
    change let idx := parkIndex c.lastAck (seqAt base new.start) c.oooSegs
      let queue := (c.withoutParkedAt (seqAt base new.start)).take m
      queue.take idx ++ new.segment G base :: queue.drop idx = _
    simp only []
    rw [hwithout, hack, hq, hidx, ← map_take, ← map_take, ← map_drop, take_take, Nat.min_comm,
      ← take_take, take_left', drop_take, drop_left']
    · rw [map_append, map_cons]
    · rfl
    · rfl
  · exact hplaced.sublist ((take_sublist _ _).append (take_sublist _ _ |>.cons_cons new))
  intro ha s hs
  cases hb : before.take m with
  | nil =>
    rw [hb] at hs
    simp only [nil_append, List.head?_cons, Option.mem_def, Option.some.injEq] at hs
    subst hs
    simp only [Span.stop]
    omega
  | cons t rest =>
    rw [hb] at hs
    simp only [cons_append, List.head?_cons, Option.mem_def, Option.some.injEq] at hs
    subst hs
    refine ha t ?_
    have hsplit := takeWhile_append_dropWhile
      (p := fun s : Span => decide (s.start < new.start)) (l := spans)
    have hbefore : before = t :: before.tail := by
      cases hbe : before with
      | nil => simp [hbe] at hb
      | cons u us =>
        cases m with
        | zero => simp at hb
        | succ m =>
          rw [hbe, take_succ_cons] at hb
          simp only [List.cons.injEq] at hb
          rw [hb.1, tail_cons]
    rw [← hsplit]
    change t ∈ (before ++ _).head?
    rw [hbefore]
    simp

/-! ## Draining -/

/-- Discarding what the cursor has passed drops the spans that end there, and
leaves a front that is ahead. -/
theorem discardAckedUploadSegments_spec (hp : Parked G cur spans)
    (hack : c.lastAck = seqAt base cur) (hq : c.oooSegs = spans.map (Span.segment G base)) :
    let spans' := spans.dropWhile fun s => decide (s.stop ≤ cur)
    c.discardAckedUploadSegments.oooSegs = spans'.map (Span.segment G base)
      ∧ Parked G cur spans' ∧ Ahead cur spans' := by
  refine ⟨?_, hp.sublist (dropWhile_sublist _), ?_⟩
  · simp only [FastPathConn.discardAckedUploadSegments]
    rw [hq, dropWhile_map]
    congr 1
    exact dropWhile_congr_mem fun s hs => (hp.fits s hs).isAcked_eq hack
  intro s hs
  have hhead := List.head?_dropWhile_not (fun s : Span => decide (s.stop ≤ cur)) spans
  rw [Option.mem_def.mp hs] at hhead
  simpa using hhead

theorem gather_spec (base : BitVec 32) (hp : Parked G cur spans) (count : Nat) {bytes : Nat}
    (hbytes : bytes ≤ maxBytes) :
    ∃ n, n ≤ maxBytes - bytes ∧ n ≤ G.length - (cur + bytes) ∧
      (gather (seqAt base (cur + bytes)) count bytes (spans.map (Span.segment G base))).flatten
        = (G.drop (cur + bytes)).take n := by
  induction spans generalizing count bytes with
  | nil => exact ⟨0, Nat.zero_le _, Nat.zero_le _, rfl⟩
  | cons s rest ih =>
    have hrest : Parked G cur rest := hp.sublist (sublist_cons_self s rest)
    obtain ⟨hpos, hsize, hin, hreach, hclose⟩ := hp.fits s (by simp)
    have hlen : ((G.drop s.start).take s.len).length = s.len := segment_length base hin
    have hhole : half ≤ (seqAt base (cur + bytes) - seqAt base s.start).toNat
        ↔ cur + bytes < s.start := by
      simp only [maxBytes] at hbytes
      exact half_le_toNat_sub_iff base (by omega) (by omega)
    simp only [map_cons, Span.segment, gather]
    split
    · exact ⟨0, Nat.zero_le _, Nat.zero_le _, rfl⟩
    rename_i hbehind
    have hle : s.start ≤ cur + bytes := by
      have := mt hhole.mpr hbehind
      omega
    have hoverlap : (seqAt base (cur + bytes) - seqAt base s.start).toNat
        = cur + bytes - s.start := by
      simp only [maxBytes] at hbytes
      exact toNat_sub_of_le base hle (by omega)
    rw [hoverlap, hlen]
    split
    · exact ih hrest count hbytes
    rename_i hfresh
    -- The piece is the rest of the span, up to the batch limit.
    have hpiece : (((G.drop s.start).take s.len).drop (cur + bytes - s.start)).take
        (maxBytes - bytes)
          = (G.drop (cur + bytes)).take (min (maxBytes - bytes) (s.start + s.len - (cur + bytes))) := by
      rw [drop_take, take_take, drop_drop]
      congr 2 <;> omega
    rw [hpiece]
    have hpl : ((G.drop (cur + bytes)).take
        (min (maxBytes - bytes) (s.start + s.len - (cur + bytes)))).length
          = min (maxBytes - bytes) (s.start + s.len - (cur + bytes)) := by
      rw [length_take, length_drop]
      omega
    rw [hpl]
    split
    · exact ⟨min (maxBytes - bytes) (s.start + s.len - (cur + bytes)), by omega, by omega,
        by simp⟩
    have hnext : bytes + min (maxBytes - bytes) (s.start + s.len - (cur + bytes))
        ≤ maxBytes := by omega
    obtain ⟨n, hn, hnG, hflat⟩ := ih hrest (count + 1) hnext
    refine ⟨min (maxBytes - bytes) (s.start + s.len - (cur + bytes)) + n, by omega, by omega,
      ?_⟩
    rw [seqAt_add, flatten_cons, Nat.add_assoc, hflat, take_add, drop_drop,
      Nat.add_assoc]

end Spans

/-! ## The state of an upload -/

/-- The position the flow acknowledges: the bytes written, and one more once the
guest's FIN is taken. -/
def cursor (fin : Bool) (c : FastPathConn) : Nat := c.stream.written.length + fin.toNat

/-- The upload half of a flow whose guest sends the stream `G`, the first byte
with sequence number `base`: what was written is a beginning of `G`, the
acknowledgement stands right after it, and the queue holds spans of `G`. -/
structure Uploading (G : Bytes) (base : BitVec 32) (fin : Bool) (c : FastPathConn)
    (spans : List Span) : Prop where
  written : c.stream.written = G.take c.stream.written.length
  ack : c.lastAck = seqAt base (cursor fin c)
  whole : fin = true → c.stream.written.length = G.length
  queue : c.oooSegs = spans.map (Span.segment G base)
  parked : Parked G (cursor fin c) spans

section Uploading

variable {G : Bytes} {base : BitVec 32} {fin : Bool} {c : FastPathConn} {spans : List Span}

theorem Uploading.congr (h : Uploading G base fin c spans)
    (hwritten : c'.stream.written = c.stream.written) (hack : c'.lastAck = c.lastAck)
    (hqueue : c'.oooSegs = c.oooSegs) : Uploading G base fin c' spans := by
  obtain ⟨h1, h2, h3, h4, h5⟩ := h
  simp only [cursor] at h2 h5
  constructor <;> simp only [cursor, hwritten, hack, hqueue] <;> assumption

/-- Writing the bytes that follow the cursor. -/
theorem Uploading.acceptUpload (h : Uploading G base false c spans)
    (ha : Ahead (cursor false c) spans) {n : Nat} (hn : n ≤ 0x20000000)
    (hin : n ≤ G.length - cursor false c) :
    Uploading G base false (c.acceptUpload ((G.drop (cursor false c)).take n)) spans
      ∧ cursor false (c.acceptUpload ((G.drop (cursor false c)).take n)) = cursor false c + n := by
  have hlen : ((G.drop (cursor false c)).take n).length = n := by
    rw [length_take, length_drop]
    omega
  have hcur : cursor false (c.acceptUpload ((G.drop (cursor false c)).take n))
      = cursor false c + n := by
    simp only [cursor, FastPathConn.acceptUpload, FastPathConn.setLastAck, length_append,
      Bool.toNat_false, Nat.add_zero] at hlen ⊢
    rw [hlen]
  refine ⟨⟨?_, ?_, nofun, h.queue, ?_⟩, hcur⟩
  · have hwl : (c.acceptUpload ((G.drop (cursor false c)).take n)).stream.written.length
        = c.stream.written.length + n := by
      simpa only [cursor, Bool.toNat_false, Nat.add_zero] using hcur
    rw [hwl, take_add, ← h.written]
    rfl
  · rw [hcur, ← seqAt_add, ← h.ack]
    simp only [FastPathConn.acceptUpload, FastPathConn.setLastAck, hlen]
  · rw [hcur]
    exact h.parked.advance ha hn

section

variable (h : Uploading G base fin c spans)

include h

theorem Uploading.countWouldBlock :
    Uploading G base fin c.countWouldBlock spans := h.congr rfl rfl rfl

theorem Uploading.countShortWrite :
    Uploading G base fin c.countShortWrite spans := h.congr rfl rfl rfl

theorem Uploading.discard :
    ∃ spans', Uploading G base fin c.discardAckedUploadSegments spans'
      ∧ Ahead (cursor fin c.discardAckedUploadSegments) spans' := by
  obtain ⟨hq, hp, ha⟩ := discardAckedUploadSegments_spec h.parked h.ack h.queue
  exact ⟨_, ⟨h.written, h.ack, h.whole, hq, hp⟩, ha⟩

theorem Uploading.parkedBatch (ha : Ahead (cursor fin c) spans) :
    (c.parkedBatch.count = 0 ∨ fin = false) ∧
    ∃ n, n ≤ maxBytes ∧ n ≤ G.length - cursor fin c ∧
      c.parkedBatch.data = (G.drop (cursor fin c)).take n := by
  refine ⟨?_, ?_⟩
  · cases fin with
    | false => exact .inr rfl
    | true =>
      have hnil : spans = [] := h.parked.eq_nil_of_length_le ha (by
        rw [cursor, h.whole rfl]
        exact Nat.le_add_right _ _)
      left
      simp [FastPathConn.parkedBatch, UploadBatch.count, h.queue, hnil, gather]
  · obtain ⟨n, hn, hin, hflat⟩ := gather_spec base h.parked 0 (Nat.zero_le maxBytes)
    rw [Nat.add_zero, ← h.ack, ← h.queue] at hflat
    exact ⟨n, by omega, by omega, hflat⟩

end

/-- Draining writes the next bytes of the stream, in order, however the socket
answers. -/
theorem Uploading.drain (script : List WriteOutcome) (h : Uploading G base fin c spans) :
    ∃ spans', Uploading G base fin (c.drainParkedSegments script).1 spans'
      ∧ Ahead (cursor fin (c.drainParkedSegments script).1) spans' := by
  induction script generalizing c spans with
  | nil =>
    obtain ⟨spans₁, h₁, -⟩ := h.discard
    simp only [FastPathConn.drainParkedSegments]
    split
    · exact h₁.discard
    · exact h₁.countWouldBlock.discard
  | cons outcome rest ih =>
    obtain ⟨spans₁, h₁, ha₁⟩ := h.discard
    obtain ⟨hcount, n, hn, hin, hdata⟩ := h₁.parkedBatch ha₁
    simp only [FastPathConn.drainParkedSegments]
    split
    · exact h₁.discard
    rename_i hne
    have hfin : fin = false := hcount.resolve_left hne
    subst hfin
    cases outcome with
    | accepted k =>
      dsimp only
      rw [hdata, take_take]
      obtain ⟨h₂, -⟩ := h₁.acceptUpload ha₁ (n := min k n)
        (by simp only [maxBytes] at hn; omega) (by omega)
      split
      · exact h₂.countShortWrite.discard
      · exact ih h₂
    | wouldBlock => exact h₁.countWouldBlock.discard
    | failed => exact ⟨spans₁, h₁, ha₁⟩

/-- Parking what a write left over: consecutive runs of the stream from the
cursor on. -/
theorem Uploading.parkTails {payloads : List Bytes} {x skip : Nat}
    (h : Uploading G base false c spans) (hsize : ∀ payload ∈ payloads, payload.length ≤ 65535)
    (hdata : payloads.flatten = (G.drop x).take payloads.flatten.length)
    (hin : x + payloads.flatten.length ≤ G.length) (hskip : skip ≤ payloads.flatten.length)
    (hcur : cursor false c ≤ x + skip)
    (hnear : x + payloads.flatten.length ≤ cursor false c + 0x40000000) :
    let c' := UploadBatch.parkTails c skip (seqAt base (x + skip)) payloads
    ∃ spans', Uploading G base false c' spans' ∧ cursor false c' = cursor false c
      ∧ (Ahead (cursor false c) spans → Ahead (cursor false c) spans') := by
  induction payloads generalizing c spans x skip with
  | nil => exact ⟨spans, h, rfl, id⟩
  | cons payload rest ih =>
    rw [flatten_cons, length_append] at hdata hin hskip hnear
    have hpayload : payload = (G.drop x).take payload.length := by
      have := congrArg (List.take payload.length) hdata
      rwa [take_left', take_take, Nat.min_eq_left (Nat.le_add_right _ _)] at this
      rfl
    have hrest : rest.flatten = (G.drop (x + payload.length)).take rest.flatten.length := by
      have := congrArg (List.drop payload.length) hdata
      rwa [drop_left', drop_take, Nat.add_sub_cancel_left, drop_drop] at this
      rfl
    have hsizes : ∀ p ∈ rest, p.length ≤ 65535 := (forall_mem_cons.mp hsize).2
    simp only [UploadBatch.parkTails]
    split
    · -- The write took the whole payload.
      rename_i hnil
      rw [drop_eq_nil_iff] at hnil
      have hpos : x + skip = x + payload.length + (skip - payload.length) := by omega
      rw [hpos]
      exact ih h hsizes hrest (by omega) (by omega) (by omega) (by omega)
    rename_i htail
    rw [drop_eq_nil_iff, Nat.not_le] at htail
    -- The rest of the payload is the span from the cursor of the loop on.
    let new : Span := ⟨x + skip, payload.length - skip⟩
    have hseg : new.segment G base = (seqAt base (x + skip), payload.drop skip) := by
      simp only [Span.segment, new]
      rw [hpayload, drop_take, drop_drop, ← hpayload]
    have hmax := hsize payload (by simp)
    have hcur' : cursor false c ≤ new.start := hcur
    obtain ⟨spans₁, hq₁, hp₁, ha₁⟩ := bufferUploadSegment_spec h.parked h.ack h.queue hcur'
      (by simp only [new, half]; omega) (by simp only [new]; omega) (by simp only [new]; omega)
      (by simp only [new]; omega)
    rw [hseg] at hq₁
    obtain ⟨hlast, hstream⟩ :=
      FastPathConn.bufferUploadSegment_cursor c (seqAt base (x + skip)) (payload.drop skip)
    have hcursor : cursor false (c.bufferUploadSegment (seqAt base (x + skip)) (payload.drop skip))
        = cursor false c := by
      rw [cursor, hstream]
      rfl
    have h₁ : Uploading G base false
        (c.bufferUploadSegment (seqAt base (x + skip)) (payload.drop skip)) spans₁ := by
      refine ⟨?_, ?_, nofun, hq₁, ?_⟩
      · rw [hstream]
        exact h.written
      · rw [hlast, hcursor]
        exact h.ack
      · rw [hcursor]
        exact hp₁
    have hpos : x + skip + (payload.drop skip).length = x + payload.length + 0 := by
      rw [length_drop]
      omega
    have hskip' : skip - payload.length = 0 := by omega
    rw [seqAt_add, hpos, hskip']
    obtain ⟨spans', h', hc', ha'⟩ := ih h₁ hsizes hrest (by omega) (Nat.zero_le _)
      (by rw [hcursor]; omega) (by rw [hcursor]; omega)
    rw [hcursor] at hc' ha'
    exact ⟨spans', h', hc', fun ha => ha' (ha₁ ha)⟩

/-- Sending a batch that continues the stream at the cursor.  Afterwards the
front of the queue is ahead, except that an accepted write may have passed what
was parked before. -/
theorem Uploading.send {batch : UploadBatch} (outcome : WriteOutcome)
    (h : Uploading G base false c spans) (ha : Ahead (cursor false c) spans)
    (hsize : ∀ payload ∈ batch.payloads, payload.length ≤ 65535)
    (hdata : batch.data = (G.drop (cursor false c)).take batch.bytes)
    (hin : cursor false c + batch.bytes ≤ G.length) (hbytes : batch.bytes ≤ 0x20000000) :
    ∃ spans', Uploading G base false (batch.send outcome c).1 spans'
      ∧ ((batch.send outcome c).2 ≠ some true →
          Ahead (cursor false (batch.send outcome c).1) spans') := by
  cases outcome with
  | accepted n =>
    have htaken : batch.data.take n = (G.drop (cursor false c)).take (min n batch.bytes) := by
      rw [hdata, take_take]
    obtain ⟨h₁, hcur₁⟩ := h.acceptUpload ha (n := min n batch.bytes) (by omega) (by omega)
    have hlen : ((G.drop (cursor false c)).take (min n batch.bytes)).length
        = min n batch.bytes := by
      rw [length_take, length_drop]
      omega
    simp only [UploadBatch.send]
    rw [htaken, hlen]
    generalize hc₂ : (if min n batch.bytes < batch.bytes then _ else _) = c₂
    have h₂ : Uploading G base false c₂ spans
        ∧ cursor false c₂ = cursor false c + min n batch.bytes := by
      subst hc₂
      split
      · exact ⟨h₁.countShortWrite, hcur₁⟩
      · exact ⟨h₁, hcur₁⟩
    have hb : batch.payloads.flatten.length = batch.bytes := rfl
    have hskip : min n batch.bytes ≤ batch.payloads.flatten.length := by omega
    obtain ⟨spans', h', -, -⟩ :=
      h₂.1.parkTails hsize hdata (by omega) hskip (by omega) (by omega)
    rw [← h₂.2, ← h₂.1.ack] at h'
    exact ⟨spans', h', absurd rfl⟩
  | wouldBlock =>
    have hb : batch.payloads.flatten.length = batch.bytes := rfl
    have h₁ := h.countWouldBlock
    have hcur : cursor false c.countWouldBlock = cursor false c := rfl
    obtain ⟨spans', h', hcur', ha'⟩ := h₁.parkTails hsize hdata (by omega) (Nat.zero_le _)
      (by omega) (by omega)
    rw [Nat.add_zero, ← hcur, ← h₁.ack] at h' hcur'
    refine ⟨spans', h', fun _ => ?_⟩
    change Ahead (cursor false (UploadBatch.parkTails _ _ _ _)) spans'
    rw [hcur', hcur]
    exact ha' ha
  | failed => exact ⟨spans, h, fun _ => ha⟩

end Uploading

end Arcbox.Bridge
