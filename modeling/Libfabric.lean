import Libfabric.Lib.Serial
import Libfabric.Lib.Mex
import Libfabric.Lib.Buffer
import Libfabric.Lib.Ring
import Libfabric.Lib.Pool
import Libfabric.Lib.CText
import Libfabric.Lib.Doubling
import Libfabric.Lib.Bits
import Libfabric.Lib.Fields
import Libfabric.Errno
import Libfabric.Ofi
import Libfabric.Recvwin
import Libfabric.Efa.Reorder
import Libfabric.Efa.ReorderProofs
import Libfabric.Byteq
import Libfabric.Bsock
import Libfabric.BsockProofs
import Libfabric.Shm.Sar
import Libfabric.Shm.SarProofs
import Libfabric.Rxd.Seq
import Libfabric.Rxd.SeqProofs
import Libfabric.Util.Srx
import Libfabric.Util.SrxProofs
import Libfabric.Util.MultiRecv
import Libfabric.Addr
import Libfabric.AddrProofs
import Libfabric.Rbuf
import Libfabric.RbufProofs
import Libfabric.Indexer
import Libfabric.IndexerProofs
import Libfabric.Iov
import Libfabric.IovProofs
import Libfabric.Coll.Allreduce
import Libfabric.Coll.Schedule
import Libfabric.Coll.Values
import Libfabric.Coll.Phase
import Libfabric.Coll.Runs
import Libfabric.Coll.Blocks
import Libfabric.Coll.Ring
import Libfabric.Coll.Tree
import Libfabric.Coll.Broadcast
import Libfabric.Efa.Req
import Libfabric.Efa.ReqProofs
import Libfabric.Efa.ReqWriters
import Libfabric.Efa.Split
import Libfabric.Rxd.Unpack
import Libfabric.Lib.Cells
import Libfabric.Util.Atomic
import Libfabric.Util.AtomicProofs
import Libfabric.Rxd.Sar
import Libfabric.Rxd.SarProofs
import Libfabric.Lib.Reach
import Libfabric.AtomicQueue
import Libfabric.AtomicQueueProofs
import Libfabric.Rxd.Recv
import Libfabric.Rxd.RecvProofs
