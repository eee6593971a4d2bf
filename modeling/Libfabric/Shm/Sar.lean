import Libfabric.Errno
import Mathlib.Logic.Function.Basic

/-! Segmentation and reassembly buffers of the shm provider. A region owns
`SMR_MAX_PEERS` buffers on a free stack; `smr_format_sar` pops a batch, capped
per peer by `max_sar_buf_per_peer`, and the completion or the format's error
path pushes them back. The AV insert, the AV remove and a connection request
recompute the cap. The model keeps one endpoint on its AV, and what a copy
returns is an input of the run. -/
namespace Libfabric.Shm

/-- `SMR_BUF_BATCH_MAX`, the length of the array `smr_cmd_data.sar`. -/
def smrBufBatchMax : Nat := 64

/-- `SMR_MAX_PEERS`, which is also the number of buffers in the SAR pool. -/
def smrMaxPeers : Nat := 256

def smrSarSize : Nat := 32768

inductive SmrSarStatus where
  | free
  | busy
  | ready
  deriving DecidableEq, Repr

inductive SarCopyFn where
  | smrCopySar
  | smrDsaCopySar
  deriving DecidableEq, Repr

/-- What `pend->sar_copy_fn` returns: `smr_copy_sar` always `FI_SUCCESS`, the
DSA copy whatever the offload answered (`dsaRet`). -/
def SarCopyFn.call : SarCopyFn → Int → Int
  | .smrCopySar, _ => 0
  | .smrDsaCopySar, dsaRet => dsaRet

/-! ### The free stack -/

/-- `struct smr_freestack` as the list of its free indices, top first; its
`free` count is the length. -/
abbrev SmrFreestack := List Nat

def smrFreestackPushByIndex (fs : SmrFreestack) (entryIndex : Nat) : SmrFreestack :=
  entryIndex :: fs

def smrFreestackAvail (fs : SmrFreestack) : Nat := fs.length

def smrFreestackInit (elemCount : Nat) : SmrFreestack :=
  (List.range elemCount).foldr (fun i fs => smrFreestackPushByIndex fs i) []

/-- The loop of `smr_format_sar` that pops `count` indices into `sar[0..count)`.
`smr_freestack_pop_by_index` on an empty stack is never reached there: the count
is at most `smr_freestack_avail`. -/
def popSarBufs : Nat → SmrFreestack → List Nat × SmrFreestack
  | 0, fs => ([], fs)
  | _ + 1, [] => ([], [])
  | count + 1, top :: rest =>
      let (sar, fs) := popSarBufs count rest
      (top :: sar, fs)

/-- `smr_return_sar_buf_by_index` for `sar[count - 1]` down to `sar[0]`, the loop
of both the rollback in `smr_format_sar` and `smr_free_sar_bufs`. -/
def returnSarBufs (sar : List Nat) (fs : SmrFreestack) : SmrFreestack :=
  sar.foldr (fun index fs => smrFreestackPushByIndex fs index) fs

/-! ### Endpoint state -/

/-- The SAR part of a command: the peer it goes to (`hdr.tx_id`), whether it is
a read request, the copy function of its pending entry, `data.buf_batch_size`
and the indices written into `data.sar`. -/
structure SmrCmd where
  txId : Nat
  readReq : Bool
  copyFn : SarCopyFn
  bufBatchSize : Nat
  sar : List Nat
  deriving DecidableEq, Repr

/-- An endpoint and its AV: `smr_map.num_peers`, `smr_av.used`, and of the
region `max_sar_buf_per_peer`, the SAR pool and `sar_status` of each peer. -/
structure SmrEp where
  numPeers : Nat
  used : Nat
  maxSarBufPerPeer : Nat
  sarPool : SmrFreestack
  sarStatus : Nat → SmrSarStatus

def smrCreate : SmrEp where
  numPeers := 0
  used := 0
  maxSarBufPerPeer := smrBufBatchMax
  sarPool := smrFreestackInit smrMaxPeers
  sarStatus := fun _ => .free

/-! ### The per-peer cap -/

/-- `MIN(SMR_BUF_BATCH_MAX, SMR_MAX_PEERS / num_peers)`, the cap the AV insert
and the connection request set. -/
def sarBufPerPeer (numPeers : Nat) : Nat :=
  min smrBufBatchMax (smrMaxPeers / numPeers)

/-- `smr_av_insert` of one address not yet in the AV. `smr_map_add` maps it;
`insertOk` is whether `ofi_av_insert_addr` succeeds, and if not the mapping is
dropped again. Returns the count of inserted addresses. -/
def smrAvInsert (ep : SmrEp) (insertOk : Bool) : Nat × SmrEp :=
  if ep.used < smrMaxPeers then
    let numPeers := ep.numPeers + 1
    if insertOk then
      (1, { ep with numPeers, used := ep.used + 1, maxSarBufPerPeer := sarBufPerPeer numPeers })
    else (0, ep)
  else (0, ep)

/-- `smr_av_remove` of one address. `ofi_av_remove_addr` fails with
`-FI_EINVAL` when the AV holds none. Unlike the insert, the cap is
`SMR_MAX_PEERS / num_peers` with no `MIN` against `SMR_BUF_BATCH_MAX`. -/
def smrAvRemove (ep : SmrEp) : Int × SmrEp :=
  if ep.used = 0 then (-fiEinval, ep)
  else
    let numPeers := ep.numPeers - 1
    let cap := if numPeers > 0 then smrMaxPeers / numPeers else smrBufBatchMax
    (0, { ep with numPeers, maxSarBufPerPeer := cap, used := ep.used - 1 })

/-- `smr_progress_connreq`: `smr_map_add` maps the requesting peer if its name
is new (`fresh`); when its region is mapped (`mapOk`) the cap is recomputed. -/
def smrProgressConnreq (ep : SmrEp) (fresh mapOk : Bool) : SmrEp :=
  let numPeers := if fresh then ep.numPeers + 1 else ep.numPeers
  if mapOk then { ep with numPeers, maxSarBufPerPeer := sarBufPerPeer numPeers }
  else { ep with numPeers }

/-! ### Formatting and completing a SAR command -/

def sarChunks (totalLen : Nat) : Nat := (totalLen + smrSarSize - 1) / smrSarSize

/-- `smr_format_sar` for a command to `txId`: `copyRet` is what the first call
of the copy function returns. A copy error other than `-FI_EBUSY` pushes the
batch back and fails with `-FI_EAGAIN`. -/
def smrFormatSar (ep : SmrEp) (txId : Nat) (readReq : Bool) (totalLen : Nat)
    (copyFn : SarCopyFn) (copyRet : Int) : Int × SmrCmd × SmrEp :=
  let cmd : SmrCmd := { txId, readReq, copyFn, bufBatchSize := 0, sar := [] }
  if ep.maxSarBufPerPeer = 0 ∨ ep.sarStatus txId ≠ .free then (-fiEagain, cmd, ep)
  else
    let bufBatchSize :=
      min (min ep.maxSarBufPerPeer (sarChunks totalLen)) (smrFreestackAvail ep.sarPool)
    let (sar, sarPool) := popSarBufs bufBatchSize ep.sarPool
    let cmd := { cmd with bufBatchSize, sar }
    if !readReq then
      if copyRet < 0 ∧ copyRet ≠ -fiEbusy then
        (-fiEagain, cmd, { ep with sarPool := returnSarBufs sar sarPool })
      else
        let status := if copyFn = .smrCopySar then SmrSarStatus.ready else .busy
        (0, cmd, { ep with sarPool, sarStatus := Function.update ep.sarStatus txId status })
    else (0, cmd, { ep with sarPool, sarStatus := Function.update ep.sarStatus txId .ready })

def smrFreeSarBufs (ep : SmrEp) (cmd : SmrCmd) : SmrEp :=
  { ep with
    sarPool := returnSarBufs cmd.sar ep.sarPool
    sarStatus := Function.update ep.sarStatus cmd.txId .free }

/-- The `smr_proto_sar` case of `smr_progress_return_entry`, on the sender's
return of a command: `opError` is `SMR_OP_ERROR` in its flags, `copyRet` what
the copy function returns, and `done` whether `bytes_done == hdr.size` at the
check (for a read request, after the copy). -/
def smrProgressReturnEntry (ep : SmrEp) (cmd : SmrCmd) (opError done : Bool) (copyRet : Int) :
    Int × SmrEp :=
  if opError then (-fiEio, smrFreeSarBufs ep cmd)
  else if cmd.readReq then
    if copyRet = -fiEbusy then (-fiEagain, ep)
    else if copyRet ≠ 0 then (copyRet, ep)
    else if done then (0, smrFreeSarBufs ep cmd)
    else (-fiEagain, { ep with sarStatus := Function.update ep.sarStatus cmd.txId .ready })
  else if done then (0, smrFreeSarBufs ep cmd)
  else if copyRet ≠ 0 ∧ copyRet ≠ -fiEbusy then (copyRet, ep)
  else
    let status := if copyRet ≠ 0 then SmrSarStatus.busy else .ready
    (-fiEagain, { ep with sarStatus := Function.update ep.sarStatus cmd.txId status })

/-! ### Runs -/

structure Sender where
  ep : SmrEp
  inflight : List SmrCmd

/-- What happens to the endpoint: AV inserts and removes, connection requests,
SAR sends (`smr_do_sar`, with `dsa` whether it picks the DSA copy and `dsaRet`
what that copy returns) and returns of in-flight commands, in any order. -/
inductive SmrOp where
  | avInsert (insertOk : Bool)
  | avRemove
  | connreq (fresh mapOk : Bool)
  | sar (txId : Nat) (readReq : Bool) (totalLen : Nat) (dsa : Bool) (dsaRet : Int)
  | returnEntry (txId : Nat) (opError done : Bool) (dsaRet : Int)
  deriving DecidableEq, Repr

/-- `smr_do_sar` installs the DSA copy when `smr_env.use_dsa_sar` is set and
all buffers are host memory. -/
def sarCopyFn (dsa : Bool) : SarCopyFn := if dsa then .smrDsaCopySar else .smrCopySar

/-- A send commits its command on success. A return finds the command of its
peer; the caller of `smr_progress_return_entry` releases it on anything but
`-FI_EAGAIN`. -/
def step (s : Sender) : SmrOp → Sender
  | .avInsert insertOk => { s with ep := (smrAvInsert s.ep insertOk).2 }
  | .avRemove => { s with ep := (smrAvRemove s.ep).2 }
  | .connreq fresh mapOk => { s with ep := smrProgressConnreq s.ep fresh mapOk }
  | .sar txId readReq totalLen dsa dsaRet =>
      let copyFn := sarCopyFn dsa
      let (ret, cmd, ep) := smrFormatSar s.ep txId readReq totalLen copyFn (copyFn.call dsaRet)
      if ret = 0 then { ep, inflight := s.inflight ++ [cmd] } else { s with ep }
  | .returnEntry txId opError done dsaRet =>
      match s.inflight.find? (fun cmd => cmd.txId == txId) with
      | none => s
      | some cmd =>
          let (ret, ep) := smrProgressReturnEntry s.ep cmd opError done (cmd.copyFn.call dsaRet)
          if ret = -fiEagain then { s with ep } else { ep, inflight := s.inflight.erase cmd }

def run (s : Sender) : List SmrOp → Sender
  | [] => s
  | op :: ops => run (step s op) ops

def Sender.init : Sender := { ep := smrCreate, inflight := [] }

end Libfabric.Shm
