import RustP2p.Core.SockAddr
import RustP2p.Core.UdpWriter

/-!
# The UDP read task

The task of `endpoint/pool.rs` that takes datagrams from a socket and dispatches them.
There are two versions.  `run_udp_reader_single` receives one datagram after the other.
`run_udp_reader_mmsg` receives up to 16 with one `recvmmsg`, into buffers and addresses
that it uses again for the next batch, and then dispatches them.

What is dispatched does not tell the versions apart: each run of the second is a run of
the first, with the same arrivals, failures, shutdowns and calls of `dispatch`, in the
same order (`udp_reader_refines`).  `Follows` is the relation: the datagrams of a batch
that are not dispatched yet are those the plain reader has still in its socket, and the
buffers hold them and nothing of the batch before.
-/

namespace RustP2p

open BigEndian Transition

/-! ## Receiving -/

/-- A datagram that has arrived at a socket. -/
structure Arrival where
  data : List UInt8
  source : SocketAddr
deriving DecidableEq, Repr

/-- The error of a receive call: of the system, with its `raw_os_error`, or made by the
program. -/
inductive RecvError where
  | os (code : Nat)
  | made (e : IoError)
deriving DecidableEq, Repr

/-- `libc::EINTR`. -/
def EINTR : Nat := 4

/-- `libc::EAGAIN`. -/
def EAGAIN : Nat := 11

namespace RecvError

/-- Its kind is `Interrupted`. -/
def isInterrupted : RecvError → Bool
  | os code => code = EINTR
  | made e => e.kind = .interrupted

/-- Its kind is `WouldBlock`. -/
def isWouldBlock : RecvError → Bool
  | os code => code = EAGAIN
  | made e => e.kind = .wouldBlock

/-- `ECONNREFUSED`, `ECONNRESET`, `ECONNABORTED`, `EHOSTUNREACH`, `ENETUNREACH`,
`EADDRNOTAVAIL`, `EPROTO` and `EMSGSIZE`. -/
def recoverableCodes : List Nat := [111, 104, 103, 113, 101, 99, 71, 90]

/-- `is_recoverable_udp_recv_error`. -/
def isRecoverable (error : RecvError) : Bool :=
  if error.isInterrupted then true
  else match error with
    | os code => code ∈ recoverableCodes
    | made _ => false

end RecvError

/-- A byte vector with its capacity. -/
structure Buffer where
  bytes : List UInt8
  capacity : Nat
  fits : bytes.length ≤ capacity
deriving DecidableEq, Repr

namespace Buffer

/-- `Vec::with_capacity`. -/
def withCapacity (capacity : Nat) : Buffer := ⟨[], capacity, Nat.zero_le _⟩

/-- `clear`. -/
def clear (b : Buffer) : Buffer := .withCapacity b.capacity

/-- `set_len`, when the kernel has written these bytes. -/
def fill (b : Buffer) (written : List UInt8) : Buffer where
  bytes := written.take (min written.length b.capacity)
  capacity := b.capacity
  fits := by
    rw [List.length_take]
    omega

end Buffer

/-- A `libc::mmsghdr` that `recvmmsg` has filled: the address with its length, and the bytes
it wrote. -/
structure RecvMessage where
  name : SockaddrStorage
  nameLen : Nat
  written : List UInt8

/-- What the kernel writes for a datagram.  It cuts it to the capacity it is given. -/
def Arrival.message (a : Arrival) (endian : Endian) (capacity : Nat) : RecvMessage where
  name := (socketAddrToSockaddr endian a.source).1
  nameLen := (socketAddrToSockaddr endian a.source).2
  written := a.data.take capacity

/-- What `libc::recvmmsg` returns. -/
inductive RecvmmsgAnswer where
  | received (messages : List RecvMessage)
  | error (code : Nat)

/-- The buffers and addresses of a batch. -/
structure RecvBatch where
  buffers : List Buffer
  peerAddrs : List SocketAddr
deriving DecidableEq, Repr

namespace RecvBatch

/-- The buffers of a new task. -/
def new (size : Nat) : RecvBatch where
  buffers := List.replicate UDP_BATCH_SIZE (.withCapacity size)
  peerAddrs := List.replicate UDP_BATCH_SIZE (.v4 ⟨0, 0, 0, 0⟩ 0)

/-- How many messages `recvmmsg` is offered. -/
def count (b : RecvBatch) : Nat := min (min b.buffers.length b.peerAddrs.length) UDP_BATCH_SIZE

/-- The loop that clears the buffers. -/
def clear (b : RecvBatch) : RecvBatch :=
  { b with buffers := (b.buffers.take b.count).map .clear ++ b.buffers.drop b.count }

/-- The loop over the received messages, from an index on. -/
def takeMessages (endian : Endian) : Nat → List RecvMessage → RecvBatch → IoResult Unit × RecvBatch
  | _, [], b => (.ok (), b)
  | index, m :: ms, b =>
      match sockaddrToSocketAddr endian m.name m.nameLen with
      | .error e => (.error e, b)
      | .ok addr => takeMessages endian (index + 1) ms
          ⟨b.buffers.modify index (·.fill m.written), b.peerAddrs.set index addr⟩

end RecvBatch

/-- `recv_mmsg` with the answer of the kernel.  The loop asks again when there is no result. -/
def recvMmsg (endian : Endian) (b : RecvBatch) (answer : RecvmmsgAnswer) :
    Option (Except RecvError Nat × RecvBatch) :=
  if b.count = 0 then
    some (.error (.made ⟨.invalidInput, "recvmmsg requires at least one buffer"⟩), b)
  else
    match answer with
    | .error code =>
        if (RecvError.os code).isInterrupted then none else some (.error (.os code), b.clear)
    | .received [] => some (.error (.made ⟨.wouldBlock, "operation would block"⟩), b.clear)
    | .received messages =>
        match RecvBatch.takeMessages endian 0 messages b.clear with
        | (.ok (), b) => some (.ok messages.length, b)
        | (.error e, b) => some (.error (.made e), b)

/-! ## The tasks -/

/-- What can happen to a read task. -/
inductive UdpReaderEvent where
  /-- A datagram arrives at the socket. -/
  | arrive (a : Arrival)
  /-- `recv_from` gives a datagram. -/
  | recvFrom
  /-- `recvmmsg` gives so many. -/
  | recvmmsg (count : Nat)
  /-- The system call fails. -/
  | failed (code : Nat)
  /-- `dispatch` returns. -/
  | dispatched (result : Bool)
  | shutdown
deriving DecidableEq, Repr

namespace UdpReaderEvent

/-- The event, if it is not a receive call that gives datagrams. -/
def visible : UdpReaderEvent → Option UdpReaderEvent
  | recvFrom => none
  | recvmmsg _ => none
  | e => some e

/-- The datagram that arrives. -/
def arrival : UdpReaderEvent → Option Arrival
  | arrive a => some a
  | _ => none

theorem arrival_visible (es : List UdpReaderEvent) :
    (es.filterMap visible).filterMap arrival = es.filterMap arrival := by
  rw [List.filterMap_filterMap]
  congr 1
  funext e
  cases e <;> rfl

end UdpReaderEvent

/-- A call of `dispatch`. -/
structure Dispatched where
  routeKey : RouteKey
  data : List UInt8
  result : Bool
deriving DecidableEq, Repr

/-- Where `run_udp_reader_single` is. -/
inductive SingleReadPhase where
  | receiving
  | dispatching (routeKey : RouteKey) (data : List UInt8)
  | stopped
deriving DecidableEq, Repr

/-- The task of `run_udp_reader_single`. -/
structure SingleReader where
  /-- The datagrams in the socket. -/
  arrivals : List Arrival
  phase : SingleReadPhase
  dispatched : List Dispatched
deriving DecidableEq, Repr

/-- The call that dispatches a datagram, with a buffer of `size` bytes. -/
def Arrival.call (localAddr : SocketAddr) (size : Nat) (a : Arrival) : RouteKey × List UInt8 :=
  (⟨.udp, localAddr, a.source⟩, a.data.take size)

namespace SingleReader

/-- A new task. -/
def new : SingleReader := ⟨[], .receiving, []⟩

/-- A step of `run_udp_reader_single`. -/
def step (localAddr : SocketAddr) (size : Nat) (r : SingleReader) :
    UdpReaderEvent → Option SingleReader
  | .arrive a => some { r with arrivals := r.arrivals ++ [a] }
  | .recvFrom =>
      match r.phase, r.arrivals with
      | .receiving, a :: rest => some { r with
          arrivals := rest
          phase := .dispatching ⟨.udp, localAddr, a.source⟩ (a.data.take size) }
      | _, _ => none
  | .recvmmsg _ => none
  | .failed code =>
      match r.phase with
      | .receiving =>
          -- `recv_from` itself waits when the socket would block.
          if (RecvError.os code).isWouldBlock then some r
          else if (RecvError.os code).isRecoverable then some r
          else some { r with phase := .stopped }
      | _ => none
  | .dispatched result =>
      match r.phase with
      | .dispatching routeKey data => some { r with
          phase := if result then .receiving else .stopped
          dispatched := r.dispatched ++ [⟨routeKey, data, result⟩] }
      | _ => none
  | .shutdown =>
      match r.phase with
      | .receiving => some { r with phase := .stopped }
      | _ => none

end SingleReader

/-- Where `run_udp_reader_mmsg` is. -/
inductive MmsgReadPhase where
  | receiving
  /-- In the loop over a batch. -/
  | dispatching (index count : Nat)
  | stopped
deriving DecidableEq, Repr

/-- The loop over a batch, or the top of the outer loop after its end. -/
def MmsgReadPhase.resume (index count : Nat) : MmsgReadPhase :=
  if index < count then dispatching index count else receiving

/-- The task of `run_udp_reader_mmsg`. -/
structure MmsgReader where
  /-- The datagrams in the socket. -/
  arrivals : List Arrival
  batch : RecvBatch
  phase : MmsgReadPhase
  dispatched : List Dispatched
deriving DecidableEq, Repr

namespace MmsgReader

/-- A new task. -/
def new (size : Nat) : MmsgReader := ⟨[], .new size, .receiving, []⟩

/-- The task after an answer of the kernel.  `async_io` waits when the socket would block. -/
def answered (r : MmsgReader) (endian : Endian) (answer : RecvmmsgAnswer) : MmsgReader :=
  match recvMmsg endian r.batch answer with
  | none => r
  | some (.ok count, batch) => { r with batch := batch, phase := .resume 0 count }
  | some (.error e, batch) =>
      if e.isWouldBlock then { r with batch := batch }
      else if e.isRecoverable then { r with batch := batch }
      else { r with batch := batch, phase := .stopped }

/-- A step of `run_udp_reader_mmsg`. -/
def step (endian : Endian) (localAddr : SocketAddr) (r : MmsgReader) :
    UdpReaderEvent → Option MmsgReader
  | .arrive a => some { r with arrivals := r.arrivals ++ [a] }
  | .recvFrom => none
  | .recvmmsg count =>
      match r.phase with
      | .receiving =>
          if 0 < count ∧ count ≤ min r.arrivals.length r.batch.count then
            let messages := List.zipWith (fun a b => a.message endian b.capacity)
              (r.arrivals.take count) r.batch.buffers
            some ({ r with arrivals := r.arrivals.drop count }.answered endian (.received messages))
          else none
      | _ => none
  | .failed code =>
      match r.phase with
      | .receiving => some (r.answered endian (.error code))
      | _ => none
  | .dispatched result =>
      match r.phase with
      | .dispatching index count =>
          match r.batch.buffers[index]?, r.batch.peerAddrs[index]? with
          | some buffer, some addr => some { r with
              phase := if result then .resume (index + 1) count else .stopped
              dispatched := r.dispatched ++ [⟨⟨.udp, localAddr, addr⟩, buffer.bytes, result⟩] }
          | _, _ => none
      | _ => none
  | .shutdown =>
      match r.phase with
      | .receiving => some { r with phase := .stopped }
      | _ => none

end MmsgReader

/-! ## A batch -/

namespace RecvBatch

/-- The buffers are as the task made them. -/
structure Ready (size : Nat) (b : RecvBatch) : Prop where
  buffers : b.buffers.length = UDP_BATCH_SIZE
  peerAddrs : b.peerAddrs.length = UDP_BATCH_SIZE
  capacity : ∀ buffer ∈ b.buffers, buffer.capacity = size

/-- From an index on, the batch holds these datagrams. -/
structure Holds (size : Nat) (b : RecvBatch) (index : Nat) (held : List Arrival) : Prop where
  data : held.map (·.data.take size) <+: (b.buffers.drop index).map Buffer.bytes
  source : held.map Arrival.source <+: b.peerAddrs.drop index

variable {size index : Nat} {b : RecvBatch} {endian : Endian} {a : Arrival} {held : List Arrival}

theorem ready_new (size : Nat) : Ready size (.new size) where
  buffers := List.length_replicate
  peerAddrs := List.length_replicate
  capacity buffer h := by
    rw [List.eq_of_mem_replicate h]
    rfl

theorem Ready.count (h : Ready size b) : b.count = UDP_BATCH_SIZE := by
  rw [RecvBatch.count, h.buffers, h.peerAddrs]
  rfl

theorem Ready.clear (h : Ready size b) : Ready size b.clear where
  buffers := by simp [RecvBatch.clear, h.count, h.buffers]
  peerAddrs := h.peerAddrs
  capacity buffer hmem := by
    rcases List.mem_append.mp hmem with hcleared | hrest
    · obtain ⟨old, hold, rfl⟩ := List.mem_map.mp hcleared
      exact h.capacity old (List.mem_of_mem_take hold)
    · exact h.capacity buffer (List.mem_of_mem_drop hrest)

/-- Filling one buffer keeps the others. -/
theorem Ready.fill (h : Ready size b) (written : List UInt8) (addr : SocketAddr) :
    Ready size ⟨b.buffers.modify index (·.fill written), b.peerAddrs.set index addr⟩ where
  buffers := (List.length_modify _ _ _).trans h.buffers
  peerAddrs := List.length_set.trans h.peerAddrs
  capacity buffer hmem := by
    obtain ⟨i, hi, rfl⟩ := List.mem_iff_getElem.mp hmem
    rw [List.length_modify] at hi
    have hcapacity := h.capacity _ (List.getElem_mem hi)
    rw [List.getElem_modify]
    split
    next => exact hcapacity
    next => exact hcapacity

/-- The address that the kernel writes is read. -/
theorem sockaddrToSocketAddr_message (a : Arrival) (endian : Endian) (capacity : Nat) :
    sockaddrToSocketAddr endian (a.message endian capacity).name
      (a.message endian capacity).nameLen = .ok a.source := by
  obtain ⟨data, source⟩ := a
  cases source with
  | v4 ip port => exact sockaddrToSocketAddr_v4 endian ip port
  | v6 ip port flowinfo scopeId => exact sockaddrToSocketAddr_v6 endian ip port flowinfo scopeId

/-- The front of a list decides its first elements. -/
theorem getElem?_of_take {α : Type} {as bs : List α}
    (h : as.take (index + 1) = bs.take (index + 1)) : as[index]? = bs[index]? := by
  have hget := congrArg (fun l => l[index]?) h
  simpa [List.getElem?_take] using hget

theorem take_of_take {α : Type} {as bs : List α}
    (h : as.take (index + 1) = bs.take (index + 1)) : as.take index = bs.take index := by
  have htake := congrArg (List.take index) h
  simpa [List.take_take] using htake

/-- A batch that holds more has it at the index and behind it. -/
theorem Holds.cons {buffer : Buffer} (h : Holds size b (index + 1) held)
    (hbuffer : b.buffers[index]? = some buffer) (hdata : buffer.bytes = a.data.take size)
    (haddr : b.peerAddrs[index]? = some a.source) : Holds size b index (a :: held) := by
  obtain ⟨hi, rfl⟩ := List.getElem?_eq_some_iff.mp hbuffer
  obtain ⟨hj, hsource⟩ := List.getElem?_eq_some_iff.mp haddr
  constructor
  · rw [List.drop_eq_getElem_cons hi, List.map_cons, List.map_cons, hdata]
    exact List.cons_prefix_cons.mpr ⟨rfl, h.data⟩
  · rw [List.drop_eq_getElem_cons hj, List.map_cons, hsource]
    exact List.cons_prefix_cons.mpr ⟨rfl, h.source⟩

/-- And the other way round. -/
theorem Holds.uncons (h : Holds size b index (a :: held)) :
    ∃ buffer, b.buffers[index]? = some buffer ∧ buffer.bytes = a.data.take size ∧
      b.peerAddrs[index]? = some a.source ∧ Holds size b (index + 1) held := by
  obtain ⟨hdata, hsource⟩ := h
  have hi : index < b.buffers.length := by
    have hle := hdata.length_le
    simp only [List.length_map, List.length_cons, List.length_drop] at hle
    omega
  have hj : index < b.peerAddrs.length := by
    have hle := hsource.length_le
    simp only [List.length_map, List.length_cons, List.length_drop] at hle
    omega
  rw [List.drop_eq_getElem_cons hi, List.map_cons, List.map_cons] at hdata
  rw [List.drop_eq_getElem_cons hj, List.map_cons] at hsource
  obtain ⟨hbytes, hdata⟩ := List.cons_prefix_cons.mp hdata
  obtain ⟨haddr, hsource⟩ := List.cons_prefix_cons.mp hsource
  refine ⟨b.buffers[index], List.getElem?_eq_getElem hi, hbytes.symm, ?_, hdata, hsource⟩
  rw [List.getElem?_eq_getElem hj, haddr]

/-- The loop of `recv_mmsg` puts the datagrams into the batch, and leaves what is before the
index alone. -/
theorem takeMessages_eq (endian : Endian) (index : Nat) (h : Ready size b)
    (hlen : index + held.length ≤ UDP_BATCH_SIZE) :
    ∃ b', takeMessages endian index (held.map (·.message endian size)) b = (.ok (), b') ∧
      Ready size b' ∧ Holds size b' index held ∧
      b'.buffers.take index = b.buffers.take index ∧
      b'.peerAddrs.take index = b.peerAddrs.take index := by
  induction held generalizing index b with
  | nil => exact ⟨b, rfl, h, ⟨List.nil_prefix, List.nil_prefix⟩, rfl, rfl⟩
  | cons a held ih =>
      rw [List.length_cons] at hlen
      have hfilled : Ready size ⟨b.buffers.modify index (·.fill (a.message endian size).written),
          b.peerAddrs.set index a.source⟩ := h.fill _ _
      obtain ⟨b', htake, hready, hholds, hbuffers, haddrs⟩ := ih (index + 1) hfilled
        (by omega)
      have hi : index < b.buffers.length := by
        rw [h.buffers]
        omega
      have hj : index < b.peerAddrs.length := by
        rw [h.peerAddrs]
        omega
      have hbuffer : b'.buffers[index]? =
          some (b.buffers[index].fill (a.message endian size).written) := by
        rw [getElem?_of_take hbuffers]
        simp [hi]
      have haddr : b'.peerAddrs[index]? = some a.source := by
        rw [getElem?_of_take haddrs]
        simp [hj]
      have hbytes : (b.buffers[index].fill (a.message endian size).written).bytes =
          a.data.take size := by
        have hcapacity := h.capacity _ (List.getElem_mem hi)
        have hlength : (a.data.take size).length ≤ size := List.length_take_le _ _
        simp only [Buffer.fill, Arrival.message, hcapacity]
        rw [Nat.min_eq_left hlength, List.take_length]
      refine ⟨b', ?_, hready, hholds.cons hbuffer hbytes haddr, ?_, ?_⟩
      · rw [List.map_cons, takeMessages, sockaddrToSocketAddr_message]
        exact htake
      · rw [take_of_take hbuffers]
        rw [List.take_modify, List.modify_eq_self (List.length_take_le _ _)]
      · rw [take_of_take haddrs]
        exact List.take_set_of_le (Nat.le_refl _)

/-- A batch of datagrams that fits is received. -/
theorem recvMmsg_eq (endian : Endian) (h : Ready size b) (hne : held ≠ [])
    (hlen : held.length ≤ UDP_BATCH_SIZE) :
    ∃ b', recvMmsg endian b (.received (List.zipWith (fun a b => a.message endian b.capacity)
        held b.buffers)) = some (.ok held.length, b') ∧ Ready size b' ∧ Holds size b' 0 held := by
  have hmessages : List.zipWith (fun (a : Arrival) (b : Buffer) => a.message endian b.capacity)
      held b.buffers = held.map (·.message endian size) := by
    apply List.ext_getElem
    · rw [List.length_zipWith, List.length_map, h.buffers]
      omega
    · intro i hi hi'
      rw [List.getElem_zipWith, List.getElem_map, h.capacity _ (List.getElem_mem _)]
  have hzero : ¬ b.count = 0 := by
    rw [h.count]
    decide
  obtain ⟨b', htake, hready, hholds, -⟩ := takeMessages_eq endian 0 h.clear
    (by rwa [Nat.zero_add])
  refine ⟨b', ?_, hready, hholds⟩
  rw [hmessages, recvMmsg, if_neg hzero]
  simp only [htake, List.length_map]
  exact fun hnil => hne (List.map_eq_nil_iff.mp hnil)

end RecvBatch

/-! ## The batched reader follows the plain one -/

/-- The batched reader is where the plain one is.  `held` are the datagrams of its batch that
it has not dispatched. -/
structure Follows (size : Nat) (held : List Arrival) (m : MmsgReader) (s : SingleReader) :
    Prop where
  ready : m.batch.Ready size
  dispatched : s.dispatched = m.dispatched
  arrivals : m.phase ≠ .stopped → s.arrivals = held ++ m.arrivals
  stopped : m.phase = .stopped → s.phase = .stopped
  receiving : m.phase = .receiving → s.phase = .receiving ∧ held = []
  dispatching : ∀ {index count}, m.phase = .dispatching index count →
    s.phase = .receiving ∧ held ≠ [] ∧ index + held.length = count ∧ m.batch.Holds size index held

namespace Follows

variable {size : Nat} {held : List Arrival} {m m' : MmsgReader} {s : SingleReader}
  {endian : Endian} {localAddr : SocketAddr}

theorem start (size : Nat) : Follows size [] (.new size) .new where
  ready := RecvBatch.ready_new size
  dispatched := rfl
  arrivals _ := rfl
  stopped h := by cases h
  receiving _ := ⟨rfl, rfl⟩
  dispatching h := by cases h

/-- Both readers stop. -/
theorem stop (h : Follows size held m s) {batch : RecvBatch} (hready : batch.Ready size) :
    Follows size [] { m with batch := batch, phase := .stopped } { s with phase := .stopped } where
  ready := hready
  dispatched := h.dispatched
  arrivals hne := absurd rfl hne
  stopped _ := rfl
  receiving h := by cases h
  dispatching h := by cases h

/-- A batch is received. -/
theorem recvmmsg (h : Follows size held m s) {count : Nat}
    (hstep : m.step endian localAddr (.recvmmsg count) = some m') :
    ∃ held', Follows size held' m' s := by
  simp only [MmsgReader.step] at hstep
  split at hstep
  next hphase =>
    split at hstep
    next hcount =>
      cases hstep
      obtain ⟨hreceiving, rfl⟩ := h.receiving hphase
      rw [h.ready.count] at hcount
      have hlength : (m.arrivals.take count).length = count := by
        rw [List.length_take]
        omega
      have hne : m.arrivals.take count ≠ [] := by
        intro hnil
        rw [hnil, List.length_nil] at hlength
        omega
      obtain ⟨b', hrecv, hready, hholds⟩ := RecvBatch.recvMmsg_eq endian h.ready hne
        (by omega)
      rw [hlength] at hrecv
      refine ⟨m.arrivals.take count, ?_⟩
      simp only [MmsgReader.answered, hrecv, MmsgReadPhase.resume, if_pos hcount.1]
      refine ⟨hready, h.dispatched, ?_, (fun h => by cases h), (fun h => by cases h), ?_⟩
      · intro _
        rw [List.take_append_drop, h.arrivals (by rw [hphase]; exact fun h => by cases h)]
        rfl
      · intro index count' hphase'
        cases hphase'
        exact ⟨hreceiving, hne, by omega, hholds⟩
    next => cases hstep
  next => cases hstep

/-- A receive call fails. -/
theorem failed (h : Follows size held m s) {code : Nat}
    (hstep : m.step endian localAddr (.failed code) = some m') :
    ∃ held' s', s.step localAddr size (.failed code) = some s' ∧ Follows size held' m' s' := by
  simp only [MmsgReader.step] at hstep
  split at hstep
  next hphase =>
    cases hstep
    obtain ⟨hreceiving, rfl⟩ := h.receiving hphase
    have hzero : ¬ m.batch.count = 0 := by
      rw [h.ready.count]
      decide
    have hkeep : Follows size [] { m with batch := m.batch.clear } s := by
      refine ⟨h.ready.clear, h.dispatched, h.arrivals, h.stopped, h.receiving, ?_⟩
      intro index count hdispatching
      rw [hphase] at hdispatching
      cases hdispatching
    simp only [SingleReader.step, hreceiving, MmsgReader.answered, recvMmsg, if_neg hzero]
    by_cases hinterrupted : (RecvError.os code).isInterrupted = true
    · -- `recv_mmsg` asks again itself, and an interrupted `recv_from` is recoverable
      have hrecoverable : (RecvError.os code).isRecoverable = true := by
        rw [RecvError.isRecoverable, if_pos hinterrupted]
      simp only [if_pos hinterrupted, if_pos hrecoverable, ite_self]
      exact ⟨[], s, rfl, h⟩
    · simp only [if_neg hinterrupted]
      by_cases hblock : (RecvError.os code).isWouldBlock = true
      · simp only [if_pos hblock]
        exact ⟨[], s, rfl, hkeep⟩
      · simp only [if_neg hblock]
        by_cases hrecoverable : (RecvError.os code).isRecoverable = true
        · simp only [if_pos hrecoverable]
          exact ⟨[], s, rfl, hkeep⟩
        · simp only [if_neg hrecoverable]
          exact ⟨[], _, rfl, h.stop h.ready.clear⟩
  next => cases hstep

/-- A datagram of the batch is dispatched.  The plain reader takes it from its socket first. -/
theorem dispatch (h : Follows size held m s) {result : Bool}
    (hstep : m.step endian localAddr (.dispatched result) = some m') :
    ∃ held' s₁ s', s.step localAddr size .recvFrom = some s₁ ∧
      s₁.step localAddr size (.dispatched result) = some s' ∧ Follows size held' m' s' := by
  simp only [MmsgReader.step] at hstep
  split at hstep
  next index count hphase =>
    obtain ⟨hreceiving, hne, hcount, hholds⟩ := h.dispatching hphase
    obtain ⟨a, rest, rfl⟩ := List.exists_cons_of_ne_nil hne
    obtain ⟨buffer, hbuffer, hbytes, haddr, hrest⟩ := hholds.uncons
    have harrivals : s.arrivals = a :: (rest ++ m.arrivals) :=
      h.arrivals (by rw [hphase]; exact fun h => by cases h)
    rw [hbuffer, haddr] at hstep
    cases hstep
    rw [List.length_cons] at hcount
    refine ⟨rest, _, _, by simp only [SingleReader.step, hreceiving, harrivals]; rfl, rfl, ?_⟩
    have hdispatched : s.dispatched ++ [⟨⟨.udp, localAddr, a.source⟩, a.data.take size, result⟩] =
        m.dispatched ++ [⟨⟨.udp, localAddr, a.source⟩, buffer.bytes, result⟩] := by
      rw [h.dispatched, hbytes]
    cases result with
    | false =>
        exact ⟨h.ready, hdispatched, fun hne => absurd rfl hne, fun _ => rfl,
          (fun h => by cases h), (fun h => by cases h)⟩
    | true =>
        simp only [if_true, MmsgReadPhase.resume]
        split
        next hmore =>
          refine ⟨h.ready, hdispatched, fun _ => rfl, (fun h => by cases h),
            (fun h => by cases h), ?_⟩
          intro index' count' hphase'
          cases hphase'
          refine ⟨rfl, ?_, by omega, hrest⟩
          rintro rfl
          simp only [List.length_nil] at hcount
          omega
        next hlast =>
          have hnil : rest = [] := List.eq_nil_of_length_eq_zero (by omega)
          exact ⟨h.ready, hdispatched, fun _ => rfl, (fun h => by cases h),
            fun _ => ⟨rfl, hnil⟩, (fun h => by cases h)⟩
  next => cases hstep

/-- Each step of the batched reader is a run of the plain one with the same visible events. -/
theorem step (h : Follows size held m s) {e : UdpReaderEvent}
    (hstep : m.step endian localAddr e = some m') :
    ∃ fs s', run (SingleReader.step localAddr size) s fs = some s' ∧
      fs.filterMap UdpReaderEvent.visible = e.visible.toList ∧
      ∃ held', Follows size held' m' s' := by
  cases e with
  | arrive a =>
      cases hstep
      refine ⟨[.arrive a], { s with arrivals := s.arrivals ++ [a] }, rfl, rfl, held, h.ready,
        h.dispatched, ?_, h.stopped, h.receiving, h.dispatching⟩
      intro hne
      rw [h.arrivals hne, List.append_assoc]
  | recvFrom => cases hstep
  | recvmmsg count => exact ⟨[], s, rfl, rfl, h.recvmmsg hstep⟩
  | failed code =>
      obtain ⟨held', s', hs', hfollows⟩ := h.failed hstep
      exact ⟨[.failed code], s', by rw [run_cons, hs']; rfl, rfl, held', hfollows⟩
  | dispatched result =>
      obtain ⟨held', s₁, s', hs₁, hs', hfollows⟩ := h.dispatch hstep
      refine ⟨[.recvFrom, .dispatched result], s', ?_, rfl, held', hfollows⟩
      rw [run_cons, hs₁, Option.bind_some, run_cons, hs']
      rfl
  | shutdown =>
      simp only [MmsgReader.step] at hstep
      split at hstep <;> cases hstep
      next hphase =>
        have hreceiving := (h.receiving hphase).1
        refine ⟨[.shutdown], { s with phase := .stopped }, ?_, rfl, [], h.stop h.ready⟩
        simp only [run_cons, SingleReader.step, hreceiving]
        rfl

end Follows

/-! ## What is dispatched -/

namespace SingleReader

variable {localAddr : SocketAddr} {size : Nat}

/-- The call the reader is about to make. -/
def upcoming (r : SingleReader) : List (RouteKey × List UInt8) :=
  match r.phase with
  | .dispatching routeKey data => [(routeKey, data)]
  | _ => []

/-- The calls it has made. -/
def calls (r : SingleReader) : List (RouteKey × List UInt8) :=
  r.dispatched.map fun d => (d.routeKey, d.data)

/-- The plain reader dispatches the datagrams as they arrived, cut to its buffer. -/
theorem calls_run {es : List UdpReaderEvent} {s : SingleReader}
    (hrun : run (step localAddr size) new es = some s) :
    (es.filterMap UdpReaderEvent.arrival).map (Arrival.call localAddr size) =
      s.calls ++ s.upcoming ++ s.arrivals.map (Arrival.call localAddr size) := by
  refine run_history (P := fun es s =>
    (es.filterMap UdpReaderEvent.arrival).map (Arrival.call localAddr size) =
      s.calls ++ s.upcoming ++ s.arrivals.map (Arrival.call localAddr size)) rfl ?_ hrun
  intro es m e u _ ih hstep
  rw [List.filterMap_append, List.map_append, ih]
  cases e with
  | arrive a =>
      cases hstep
      simp [calls, upcoming, UdpReaderEvent.arrival]
  | recvFrom =>
      simp only [step] at hstep
      split at hstep <;> cases hstep
      next a rest hphase harrivals =>
        simp [calls, upcoming, hphase, harrivals, UdpReaderEvent.arrival, Arrival.call]
  | recvmmsg count => cases hstep
  | failed code =>
      simp only [step] at hstep
      split at hstep
      next hphase =>
        split at hstep
        next =>
          cases hstep
          simp [UdpReaderEvent.arrival]
        next =>
          split at hstep <;> cases hstep <;>
            simp [calls, upcoming, hphase, UdpReaderEvent.arrival]
      next => cases hstep
  | dispatched result =>
      simp only [step] at hstep
      split at hstep <;> cases hstep
      next routeKey data hphase =>
        cases result <;> simp [calls, upcoming, hphase, UdpReaderEvent.arrival]
  | shutdown =>
      simp only [step] at hstep
      split at hstep <;> cases hstep
      next hphase => simp [calls, upcoming, hphase, UdpReaderEvent.arrival]

end SingleReader

/-- Each run of the batched reader is a run of the plain one with the same arrivals, failures,
shutdowns and results of `dispatch`, in which the same calls are made and which stops when it
does.  So both dispatch the datagrams in the order they arrived, each once, under the key of
its source and cut to the size of a buffer. -/
theorem udp_reader_refines (endian : Endian) (localAddr : SocketAddr) (size : Nat)
    {es : List UdpReaderEvent} {m : MmsgReader}
    (hrun : run (MmsgReader.step endian localAddr) (.new size) es = some m) :
    (∃ fs s, run (SingleReader.step localAddr size) .new fs = some s ∧
      fs.filterMap UdpReaderEvent.visible = es.filterMap UdpReaderEvent.visible ∧
      s.dispatched = m.dispatched ∧ (m.phase = .stopped → s.phase = .stopped)) ∧
      m.dispatched.map (fun d => (d.routeKey, d.data)) <+:
        (es.filterMap UdpReaderEvent.arrival).map (Arrival.call localAddr size) := by
  obtain ⟨fs, s, hs, hvisible, held, hfollows⟩ := run_simulates
    (R := fun m s => ∃ held, Follows size held m s)
    (fun _ _ _ _ _ h hstep => h.elim fun _ h => h.step hstep) hrun ⟨[], .start size⟩
  refine ⟨⟨fs, s, hs, hvisible, hfollows.dispatched, hfollows.stopped⟩, ?_⟩
  have hcalls := SingleReader.calls_run hs
  rw [← UdpReaderEvent.arrival_visible, hvisible, UdpReaderEvent.arrival_visible] at hcalls
  rw [hcalls, List.append_assoc, ← hfollows.dispatched]
  exact List.prefix_append _ _

/-- Three datagrams in two batches, the longest of them cut to four bytes. -/
def batchedReads : List UdpReaderEvent :=
  [.arrive ⟨[1, 2, 3, 4, 5], .v4 ⟨10, 0, 0, 2⟩ 5000⟩, .arrive ⟨[6], .v4 ⟨10, 0, 0, 3⟩ 5000⟩,
    .recvmmsg 2, .dispatched true, .arrive ⟨[7, 8], .v4 ⟨10, 0, 0, 2⟩ 5000⟩, .dispatched true,
    .failed 111, .recvmmsg 1, .dispatched true]

/-- The plain reader makes the same three calls. -/
theorem udp_reader_refines_batches :
    ∃ m, run (MmsgReader.step .little (.v4 ⟨10, 0, 0, 1⟩ 5000)) (.new 4) batchedReads = some m ∧
      m.dispatched.map Dispatched.data = [[1, 2, 3, 4], [6], [7, 8]] ∧
      ∃ fs s, run (SingleReader.step (.v4 ⟨10, 0, 0, 1⟩ 5000) 4) .new fs = some s ∧
        s.dispatched = m.dispatched := by
  obtain ⟨m, hm, hdata⟩ :
      ∃ m, run (MmsgReader.step .little (.v4 ⟨10, 0, 0, 1⟩ 5000)) (.new 4) batchedReads = some m ∧
        m.dispatched.map Dispatched.data = [[1, 2, 3, 4], [6], [7, 8]] := by
    decide +kernel
  obtain ⟨⟨fs, s, hs, -, hdispatched, -⟩, -⟩ := udp_reader_refines .little _ 4 hm
  exact ⟨m, hm, hdata, fs, s, hs, hdispatched⟩

end RustP2p
