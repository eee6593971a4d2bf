import Libfabric.Errno
import Libfabric.Byteq

/-! The buffered socket of `common.c`: a stream socket with a staging queue on
each side. A send queues behind bytes not yet sent, sends directly otherwise,
and falls back to the queue when the socket would block. A receive drains the
staged bytes first, then refills the queue when the request is small or reads
directly into the caller's buffer. The socket is an oracle: what each call
returns may depend on how many calls it has answered, so any behaviour of the
peer and the network is one `Sockapi`. -/
namespace Libfabric

open Buffer

def ofiEinprogressAsync : Int := 512

def ofiEinprogressUring : Int := 513

def uint32Max : Nat := 2 ^ 32 - 1

def sockTryAgain (err : Int) : Bool := err == eagain || err == ewouldblock

/-- The socket calls a buffered socket makes. The `call`-th call returns
`send call len` when offered `len` bytes and `recv call room` when given room
for `room` bytes: a non-negative value is a byte count, a negative one
`-errno`. The peer's bytes arrive in the order of `stream`. As POSIX requires,
no call reports more bytes than it was offered or given room for. -/
structure Sockapi where
  send : Nat → Nat → Int
  recv : Nat → Nat → Int
  stream : Nat → UInt8
  send_le : ∀ call len, send call len ≤ len
  recv_le : ∀ call room, recv call room ≤ room

/-- The socket as the buffered socket sees it: the calls it has answered, the
bytes its sends accepted, in order, and how many bytes of the incoming stream
its receives delivered. -/
structure Socket where
  calls : Nat
  accepted : Bytes
  received : Nat

def Socket.fresh : Socket := { calls := 0, accepted := [], received := 0 }

namespace Sockapi

variable (api : Sockapi)

def streamFrom (start n : Nat) : Bytes := (List.range n).map (fun i => api.stream (start + i))

def streamPrefix (n : Nat) : Bytes := api.streamFrom 0 n

/-- `sockapi->send`, and `sockapi->sendv` on the gathered segments: a
non-negative return counts the bytes taken from the front of `data`. -/
def sendBytes (sock : Socket) (data : Bytes) : Int × Socket :=
  let ret := api.send sock.calls data.length
  (ret, { sock with calls := sock.calls + 1, accepted := sock.accepted ++ data.take ret.toNat })

/-- `sockapi->recv` and `sockapi->recvv` with room for `room` bytes: a
positive return counts the next bytes of the stream, which it hands over. -/
def recvBytes (sock : Socket) (room : Nat) : Int × Bytes × Socket :=
  let ret := api.recv sock.calls room
  (ret, api.streamFrom sock.received ret.toNat,
    { sock with calls := sock.calls + 1, received := sock.received + ret.toNat })

/-- The socket completes every send before it returns: it never answers
`-OFI_EINPROGRESS_URING`, the io_uring code for a send still in flight. -/
def SendsComplete : Prop := ∀ call len, api.send call len ≠ -ofiEinprogressUring

end Sockapi

/-- The parts of `struct ofi_bsock` the calls read and write. -/
structure Bsock where
  sq : Byteq
  rq : Byteq
  zerocopySize : Nat
  asyncIndex : Nat
  asyncPrefetch : Bool

namespace Bsock

variable (api : Sockapi)

def init (sbufSize rbufSize : Int) : Bsock where
  sq := Byteq.init sbufSize
  rq := Byteq.init rbufSize
  zerocopySize := sizeMax
  asyncIndex := uint32Max
  asyncPrefetch := false

def tosend (bsock : Bsock) : Nat := bsock.sq.readable

def flush (bsock : Bsock) (sock : Socket) : Int × Bsock × Socket :=
  if bsock.tosend = 0 then (0, bsock, sock)
  else
    let avail := bsock.sq.readable
    let (ret, sock) := api.sendBytes sock ((bsock.sq.data.drop bsock.sq.head).take avail)
    if ret < 0 then (ret, bsock, sock)
    else
      let bsock := { bsock with sq := bsock.sq.consume ret.toNat }
      (if bsock.tosend ≠ 0 then -fiEagain else 0, bsock, sock)

/-- The tail shared by `ofi_bsock_send` and `ofi_bsock_sendv`, after
`assert(!ofi_bsock_tosend(bsock))`: send `offer` directly, with zero copy
above `zerocopy_size`, and queue it with `enqueue` if the socket would block. -/
def sendDirect (enqueue : Byteq → Byteq) (offer : Bytes) (bsock : Bsock) (sock : Socket) :
    Int × Nat × Bsock × Socket :=
  let len := offer.length
  let (ret, sock) := api.sendBytes sock offer
  if len > bsock.zerocopySize ∧ ret ≥ 0 then
    (-ofiEinprogressAsync, ret.toNat, { bsock with asyncIndex := (bsock.asyncIndex + 1) % 2 ^ 32 }, sock)
  else if ret < 0 then
    if ret = -ofiEinprogressUring then (ret, len, bsock, sock)
    else if sockTryAgain (-ret) ∧ len < bsock.sq.writeable then
      (0, len, { bsock with sq := enqueue bsock.sq }, sock)
    else (ret, 0, bsock, sock)
  else (0, ret.toNat, bsock, sock)

/-- The body of `ofi_bsock_send` and of `ofi_bsock_sendv` with more than one
segment: `offer` is the caller's bytes, and `enqueue` copies them into `sq`
(`ofi_byteq_write` or `ofi_byteq_writev`). Returns the code and `*len`. -/
def sendWith (enqueue : Byteq → Byteq) (offer : Bytes) (bsock : Bsock) (sock : Socket) :
    Int × Nat × Bsock × Socket :=
  let len := offer.length
  if bsock.tosend ≠ 0 then
    if len < bsock.sq.writeable then
      let (err, bsock, sock) := flush api { bsock with sq := enqueue bsock.sq } sock
      (if err = 0 ∨ err = -fiEagain then 0 else err, len, bsock, sock)
    else
      let (err, bsock, sock) := flush api bsock sock
      if err ≠ 0 then (err, 0, bsock, sock) else sendDirect api enqueue offer bsock sock
  else sendDirect api enqueue offer bsock sock

def send (bsock : Bsock) (sock : Socket) (buf : Bytes) : Int × Nat × Bsock × Socket :=
  sendWith api (fun sq => sq.write buf) buf bsock sock

def sendv (bsock : Bsock) (sock : Socket) (iov : List Bytes) : Int × Nat × Bsock × Socket :=
  match iov with
  | [seg] => send api bsock sock seg
  | _ => sendWith api (fun sq => sq.writev iov) iov.flatten bsock sock

/-- The `out:` label of `ofi_bsock_recv` and `ofi_bsock_recvv`: report the
`bytes` already copied, and remember an io_uring prefetch into the queue. -/
def recvOut {β : Type} (ret : Int) (bytes avail : Nat) (buf : β) (bsock : Bsock) (sock : Socket) :
    Int × Nat × β × Bsock × Socket :=
  if ret = -ofiEinprogressUring then (ret, bytes, buf, { bsock with asyncPrefetch := avail != 0 }, sock)
  else if bytes ≠ 0 then (0, bytes, buf, bsock, sock)
  else (ret, bytes, buf, bsock, sock)

/-- The socket's receive into `&rq.data[rq.tail]`, then `ofi_byteq_add(&rq, ret)`. -/
def refill (rq : Byteq) (got : Bytes) (ret : Int) : Byteq :=
  ({ rq with data := writeAt rq.data rq.tail got }).add ret.toNat

def recv (bsock : Bsock) (sock : Socket) (buf : Bytes) : Int × Nat × Bytes × Bsock × Socket :=
  let len := buf.length
  let (bytes, first, rq) := bsock.rq.read len
  let bsock := { bsock with rq := rq }
  let buf := writeAt buf 0 first
  if bytes ≠ 0 ∧ bytes = len then (0, len, buf, bsock, sock)
  else
    -- `buf += bytes; *len -= bytes`
    let len := len - bytes
    if len < bsock.rq.size / 2 then
      let avail := bsock.rq.writeable
      let (ret, got, sock) := api.recvBytes sock avail
      if ret ≤ 0 then recvOut ret bytes avail buf bsock sock
      else
        let (more, copied, rq) := (refill bsock.rq got ret).read len
        (0, bytes + more, writeAt buf bytes copied, { bsock with rq := rq }, sock)
    else
      let (ret, got, sock) := api.recvBytes sock len
      if ret > 0 then (0, bytes + ret.toNat, writeAt buf bytes got, bsock, sock)
      else recvOut ret bytes 0 buf bsock sock

/-- `ofi_bsock_recvv` once the staged bytes, `bytes` of them, are copied and
`len` is what is left of `*len`. -/
def recvvRefill (bsock : Bsock) (sock : Socket) (iov : List Bytes) (bytes len : Nat) :
    Int × Nat × List Bytes × Bsock × Socket :=
  if len < bsock.rq.size / 2 then
    let avail := bsock.rq.writeable
    let (ret, got, sock) := api.recvBytes sock avail
    if ret ≤ 0 then recvOut ret bytes avail iov bsock sock
    else
      let (more, iov, rq) := (refill bsock.rq got ret).readv iov bytes
      (0, bytes + more, iov, { bsock with rq := rq }, sock)
  -- the request is large: return what is staged, or read into the segments
  else if bytes ≠ 0 then (0, bytes, iov, bsock, sock)
  else
    let (ret, got, sock) := api.recvBytes sock iov.flatten.length
    if ret > 0 then (0, ret.toNat, scatter iov 0 got, bsock, sock)
    else recvOut ret bytes 0 iov bsock sock

/-- `ofi_bsock_recvv` for other than one segment: copy the staged bytes, then
`recvvRefill`. -/
def recvvSegments (bsock : Bsock) (sock : Socket) (iov : List Bytes) :
    Int × Nat × List Bytes × Bsock × Socket :=
  let len := iov.flatten.length
  if bsock.rq.readable ≠ 0 then
    let (bytes, iov, rq) := bsock.rq.readv iov 0
    let bsock := { bsock with rq := rq }
    if bytes = len then (0, len, iov, bsock, sock)
    else recvvRefill api bsock sock iov bytes (len - bytes)
  else recvvRefill api bsock sock iov 0 len

def recvv (bsock : Bsock) (sock : Socket) (iov : List Bytes) :
    Int × Nat × List Bytes × Bsock × Socket :=
  match iov with
  | [seg] =>
      let (ret, len, seg, bsock, sock) := recv api bsock sock seg
      (ret, len, [seg], bsock, sock)
  | _ => recvvSegments api bsock sock iov

inductive Op where
  | send (buf : Bytes)
  | sendv (iov : List Bytes)
  | flush
  | recv (buf : Bytes)
  | recvv (iov : List Bytes)

/-- What a call hands back: its code, `*len`, and the caller's buffer after
the call, its segments joined. -/
structure Reply where
  ret : Int
  len : Nat
  buf : Bytes

def call (bsock : Bsock) (sock : Socket) : Op → Reply × Bsock × Socket
  | .send buf =>
      let (ret, len, bsock, sock) := send api bsock sock buf
      (⟨ret, len, buf⟩, bsock, sock)
  | .sendv iov =>
      let (ret, len, bsock, sock) := sendv api bsock sock iov
      (⟨ret, len, iov.flatten⟩, bsock, sock)
  | .flush =>
      let (ret, bsock, sock) := flush api bsock sock
      (⟨ret, 0, []⟩, bsock, sock)
  | .recv buf =>
      let (ret, len, buf, bsock, sock) := recv api bsock sock buf
      (⟨ret, len, buf⟩, bsock, sock)
  | .recvv iov =>
      let (ret, len, iov, bsock, sock) := recvv api bsock sock iov
      (⟨ret, len, iov.flatten⟩, bsock, sock)

structure Run where
  replies : List Reply
  bsock : Bsock
  sock : Socket

def run : List Op → Bsock → Socket → Run
  | [], bsock, sock => ⟨[], bsock, sock⟩
  | op :: ops, bsock, sock =>
      let (reply, bsock, sock) := call api bsock sock op
      let rest := run ops bsock sock
      { rest with replies := reply :: rest.replies }

end Bsock

end Libfabric
