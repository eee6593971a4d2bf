import Libfabric.Errno
import Libfabric.Lib.CText

/-! The text form of addresses in `common.c`. `ofi_straddr` prints an address
of a given format with `snprintf`, and `ofi_str_toaddr` reads one back: it
takes the format from the scheme with `ofi_addr_format` and calls that
format's parser, written with `sscanf`, `strtok_r` and `strtol`. The formats
are spelled out here directive by directive over the conversions of `CText`.
Binary fields are kept in host order, since `htons`, `ntohll` and the like
only reorder bytes. `inet_ntop` and `inet_pton` are any pair that meets POSIX. -/
namespace Libfabric

open CText

/-- The address formats of `fabric.h`. -/
inductive FiAddrFormat where
  | formatUnspec | sockaddr | sockaddrIn | sockaddrIn6 | sockaddrIb | addrPsmx | addrGni | addrBgq
  | addrMlx | addrStr | addrPsmx2 | addrIbUd | addrEfa | addrPsmx3 | addrOpx | addrCxi | addrUcx
  | sockaddrIp
  deriving DecidableEq, Repr

/-- `struct in_addr`: its four bytes in network order. -/
abbrev InAddr := Vector UInt8 4

/-- `struct in6_addr`: its eight 16-bit groups in network order. -/
abbrev In6Addr := Vector UInt16 8

structure SockaddrIn where
  sinPort : UInt16
  sinAddr : InAddr
  deriving DecidableEq, Repr

/-- `struct sockaddr_in6` of family `AF_INET6`, without the flow label and the
scope id that neither side reads. -/
structure SockaddrIn6 where
  sin6Port : UInt16
  sin6Addr : In6Addr
  deriving DecidableEq, Repr

/-- `struct ofi_sockaddr_ib` of family `AF_IB`, without the flow label that
neither side reads. -/
structure OfiSockaddrIb where
  sibPkey : UInt16
  sibAddr : In6Addr
  sibSid : UInt64
  sibSidMask : UInt64
  sibScopeId : UInt64
  deriving DecidableEq, Repr

structure EfaEpAddr where
  raw : In6Addr
  qpn : UInt16
  qkey : UInt32
  deriving DecidableEq, Repr

/-- `struct ofi_ib_ud_ep_name`, the fields at the offsets `ofi_straddr` reads. -/
structure OfiIbUdEpName where
  gid : In6Addr
  qpn : UInt32
  lid : UInt16
  pkey : UInt16
  sl : UInt8
  deriving DecidableEq, Repr

/-- An address, as the blob of its format. -/
inductive FiAddr where
  | sin (a : SockaddrIn)
  | sin6 (a : SockaddrIn6)
  | sib (a : OfiSockaddrIb)
  | efa (a : EfaEpAddr)
  | psmx2 (w0 w1 : UInt64)
  | psmx3 (w0 w1 w2 w3 : UInt64)
  | opx (w : UInt64)
  | ibUd (a : OfiIbUdEpName)
  | str (s : List Char)
  | cxi (w : UInt32)
  deriving DecidableEq, Repr

def ofiIbIpPsMask : UInt64 := 0xFFFFFFFFFFFF0000

def ofiIbIpPortMask : UInt64 := 0x000000000000FFFF

def schemeText (name : String) : List Char := name.toList ++ "://".toList

/-- The port space `ofi_straddr` prints for an IB address: bits 16 to 27 of the
service id. -/
def OfiSockaddrIb.portSpace (a : OfiSockaddrIb) : UInt16 := (a.sibSid >>> 16).toUInt16 &&& 0xfff

variable (inet4 : InetText InAddr inet4Char 15) (inet6 : InetText In6Addr inet6Char 45)

section Print

def sinText (a : SockaddrIn) : List Char :=
  schemeText "fi_sockaddr_in" ++ (inet4.ntop a.sinAddr ++ ':' :: fmtDec a.sinPort.toNat)

def sin6Text (a : SockaddrIn6) : List Char :=
  schemeText "fi_sockaddr_in6" ++ ('[' :: (inet6.ntop a.sin6Addr ++ ']' :: ':' :: fmtDec a.sin6Port.toNat))

def efaText (a : EfaEpAddr) : List Char :=
  schemeText "fi_addr_efa" ++
    ('[' :: (inet6.ntop a.raw ++ ']' :: ':' :: (fmtDec a.qpn.toNat ++ ':' :: fmtDec a.qkey.toNat)))

/-- `"fi_sockaddr_ib://[%s]:0x%" PRIx16 ":0x%" PRIx16 ":0x%" PRIx8`: the GID,
the P_Key, the port space and the low byte of the scope id. The port itself
is not printed. -/
def sibText (a : OfiSockaddrIb) : List Char :=
  schemeText "fi_sockaddr_ib" ++
    ('[' :: (inet6.ntop a.sibAddr ++ ']' :: ':' :: '0' :: 'x' :: (fmtHex a.sibPkey.toNat ++
      ':' :: '0' :: 'x' :: (fmtHex a.portSpace.toNat ++
      ':' :: '0' :: 'x' :: fmtHex (a.sibScopeId.toUInt8 &&& 0xff).toNat))))

def psmx2Text (w0 w1 : UInt64) : List Char :=
  schemeText "fi_addr_psmx2" ++ (fmtHex w0.toNat ++ ':' :: fmtHex w1.toNat)

def psmx3Text (w0 w1 w2 w3 : UInt64) : List Char :=
  schemeText "fi_addr_psmx3" ++
    (fmtHex w0.toNat ++ ':' :: (fmtHex w1.toNat ++ ':' :: (fmtHex w2.toNat ++ ':' :: fmtHex w3.toNat)))

def opxText (w : UInt64) : List Char := schemeText "fi_addr_opx" ++ fmtHexPadded 16 w.toNat

/-- `"fi_addr_ib_ud://%s:%" PRIx32 "/%" PRIx16 "/%" PRIx16 "/%" PRIx8`: the
GID, QPN, LID, P_Key and SL. -/
def ibUdText (a : OfiIbUdEpName) : List Char :=
  schemeText "fi_addr_ib_ud" ++
    (inet6.ntop a.gid ++ ':' :: (fmtHex a.qpn.toNat ++ '/' :: (fmtHex a.lid.toNat ++
      '/' :: (fmtHex a.pkey.toNat ++ '/' :: fmtHex a.sl.toNat))))

def cxiText (w : UInt32) : List Char := schemeText "fi_addr_cxi" ++ '0' :: 'x' :: fmtHexPadded 8 w.toNat

/-- `ofi_straddr` with a buffer large enough for the whole text. `FI_SOCKADDR`
and `FI_SOCKADDR_IP` take the printer of the address's family; a blob read as
another format than its own is `NULL` here. -/
def ofiStraddr (fmt : FiAddrFormat) (addr : FiAddr) : Option (List Char) :=
  match fmt, addr with
  | .sockaddr, .sin a | .sockaddrIp, .sin a | .sockaddrIn, .sin a => some (sinText inet4 a)
  | .sockaddr, .sin6 a | .sockaddrIp, .sin6 a | .sockaddrIn6, .sin6 a => some (sin6Text inet6 a)
  | .sockaddr, .sib a | .sockaddrIb, .sib a => some (sibText inet6 a)
  | .addrEfa, .efa a => some (efaText inet6 a)
  | .addrPsmx2, .psmx2 w0 w1 => some (psmx2Text w0 w1)
  | .addrPsmx3, .psmx3 w0 w1 w2 w3 => some (psmx3Text w0 w1 w2 w3)
  | .addrOpx, .opx w => some (opxText w)
  | .addrIbUd, .ibUd a => some (ibUdText inet6 a)
  | .addrStr, .str s => some s
  | .addrCxi, .cxi w => some (cxiText w)
  | _, _ => none

end Print

section Parse

/-- `"%*[^:]://"`: the scheme every parser skips. -/
def schemeSkip : List Directive := .conv (.scanset true [':'] none) false :: literals "://".toList

def hexConv : Directive := .conv (.integer 16) true

def decConv : Directive := .conv (.integer 10) true

/-- The scheme names `ofi_addr_format` compares with, ignoring case, in its order. -/
def formatNames : List (String × FiAddrFormat) :=
  [("fi_sockaddr_in", .sockaddrIn), ("fi_sockaddr_in6", .sockaddrIn6), ("fi_sockaddr_ib", .sockaddrIb),
   ("fi_addr_psmx2", .addrPsmx2), ("fi_addr_psmx3", .addrPsmx3), ("fi_addr_opx", .addrOpx),
   ("fi_addr_efa", .addrEfa), ("fi_addr_mlx", .addrMlx), ("fi_addr_ucx", .addrUcx),
   ("fi_addr_ib_ud", .addrIbUd)]

/-- The `strcasecmp` chain of `ofi_addr_format`: the format of the first name
equal to `scheme` but for case. -/
def formatOfScheme (scheme : List Char) : FiAddrFormat :=
  match formatNames.find? (fun entry => entry.1.toList = scheme.map Char.toLower) with
  | some (_, format) => format
  | none => .formatUnspec

/-- `ofi_addr_format`: `sscanf(str, "%16[^:]://", fmt)`, then the name chain. -/
def ofiAddrFormat (str : List Char) : FiAddrFormat :=
  let fields := sscanf (.conv (.scanset true [':'] (some 16)) true :: literals "://".toList) str
  if fields.length ≠ 1 then .formatUnspec else formatOfScheme (fieldAt fields 0).chars

def ofiStrToPsmx2 (str : List Char) : Except Int FiAddr :=
  let fields := sscanf (schemeSkip ++ [hexConv, .literal ':', hexConv]) str
  if fields.length = 2 then
    .ok (.psmx2 (UInt64.ofNat (fieldAt fields 0).value) (UInt64.ofNat (fieldAt fields 1).value))
  else .error (-fiEinval)

def ofiStrToPsmx3 (str : List Char) : Except Int FiAddr :=
  let fields := sscanf (schemeSkip ++
    [hexConv, .literal ':', hexConv, .literal ':', hexConv, .literal ':', hexConv]) str
  if fields.length = 4 then
    .ok (.psmx3 (UInt64.ofNat (fieldAt fields 0).value) (UInt64.ofNat (fieldAt fields 1).value)
      (UInt64.ofNat (fieldAt fields 2).value) (UInt64.ofNat (fieldAt fields 3).value))
  else .error (-fiEinval)

def ofiStrToOpx (str : List Char) : Except Int FiAddr :=
  let fields := sscanf (schemeSkip ++ [hexConv]) str
  if fields.length = 1 then .ok (.opx (UInt64.ofNat (fieldAt fields 0).value))
  else .error (-fiEinval)

/-- `ofi_str_to_ib_ud`: `"%*[^:]://%s:%" SCNx32 ":%" SCNx16 ":%" SCNx16 ":%" SCNx8`,
then `inet_pton` of the GID. -/
def ofiStrToIbUd (str : List Char) : Except Int FiAddr :=
  let fields := sscanf (schemeSkip ++ [.conv (.string none) true, .literal ':', hexConv,
    .literal ':', hexConv, .literal ':', hexConv, .literal ':', hexConv]) str
  if fields.length = 5 then
    match inet6.pton (fieldAt fields 0).chars with
    | some gid =>
      .ok (.ibUd { gid, qpn := UInt32.ofNat (fieldAt fields 1).value,
                   lid := UInt16.ofNat (fieldAt fields 2).value,
                   pkey := UInt16.ofNat (fieldAt fields 3).value,
                   sl := UInt8.ofNat (fieldAt fields 4).value })
    | none => .error (-fiEinval)
  else .error (-fiEinval)

/-- `strtol(tok, &endptr, 0)` where `*endptr` must be the end of the token. -/
def wholeNumber (tok : List Char) : Option Int :=
  let (value, endptr) := strtol 0 tok
  if endptr = [] then some value else none

/-- `ofi_str_to_sib`: `"%*[^:]://[%64[^]]]:%64s"`, then the P_Key, the port
space, the scope id and an optional port as `:`-separated `strtol` tokens. A
service id is set only when both the port space and the port are nonzero. -/
def ofiStrToSib (str : List Char) : Except Int FiAddr :=
  let fields := sscanf (schemeSkip ++ [.literal '[', .conv (.scanset true [']'] (some 64)) true,
    .literal ']', .literal ':', .conv (.string (some 64)) true]) str
  if fields.length ≠ 2 then .error (-fiEinval)
  else
    match strtokR ':' (fieldAt fields 1).chars with
    | none => .error (-fiEinval)
    | some (tok, save) =>
      match wholeNumber tok with
      | none => .error (-fiEinval)
      | some pkey =>
        match strtokR ':' save with
        | none => .error (-fiEinval)
        | some (tok, save) =>
          match wholeNumber tok with
          | none => .error (-fiEinval)
          | some ps =>
            match strtokR ':' save with
            | none => .error (-fiEinval)
            | some (tok, save) =>
              match wholeNumber tok with
              | none => .error (-fiEinval)
              | some scopeId =>
                -- the port is optional, and its token is not checked
                let port : UInt16 :=
                  match strtokR ':' save with
                  | some (tok, _) => UInt16.ofInt (strtol 0 tok).1
                  | none => 0
                let ps := UInt16.ofInt ps
                match inet6.pton (fieldAt fields 0).chars with
                | some addr =>
                  .ok (.sib { sibPkey := UInt16.ofInt pkey, sibAddr := addr,
                              sibSid := if ps ≠ 0 ∧ port ≠ 0 then (ps.toUInt64 <<< 16) + port.toUInt64 else 0,
                              sibSidMask := if ps ≠ 0 ∧ port ≠ 0 then ofiIbIpPsMask ||| ofiIbIpPortMask else 0,
                              sibScopeId := UInt64.ofInt scopeId })
                | none => .error (-fiEinval)

/-- `ofi_str_to_efa`: `"%*[^:]://[%46[^]]]:%" SCNu16 ":%" SCNu32`; the GID is
enough, the numbers stay 0 when they are missing. -/
def ofiStrToEfa (str : List Char) : Except Int FiAddr :=
  let fields := sscanf (schemeSkip ++ [.literal '[', .conv (.scanset true [']'] (some 46)) true,
    .literal ']', .literal ':', decConv, .literal ':', decConv]) str
  if fields.length < 1 then .error (-fiEinval)
  else
    match inet6.pton (fieldAt fields 0).chars with
    | some raw =>
      .ok (.efa { raw, qpn := UInt16.ofNat (fieldAt fields 1).value,
                  qkey := UInt32.ofNat (fieldAt fields 2).value })
    | none => .error (-fiEinval)

/-- `ofi_str_to_sin`: a port alone (`"%*[^:]://:%hu"`), an address and a port
(`"%*[^:]://%64[^:]:%hu"`) or an address alone (`"%*[^:]://%64[^:/]"`). -/
def ofiStrToSin (str : List Char) : Except Int FiAddr :=
  let portOnly := sscanf (schemeSkip ++ [.literal ':', decConv]) str
  if portOnly.length = 1 then
    .ok (.sin { sinPort := UInt16.ofNat (fieldAt portOnly 0).value, sinAddr := Vector.replicate 4 0 })
  else
    let both := sscanf (schemeSkip ++ [.conv (.scanset true [':'] (some 64)) true, .literal ':', decConv]) str
    let ipOnly := sscanf (schemeSkip ++ [.conv (.scanset true [':', '/'] (some 64)) true]) str
    -- the `match_ip` label: the port is 0 unless the second form read it
    let matched :=
      if both.length = 2 then some ((fieldAt both 0).chars, (fieldAt both 1).value)
      else if ipOnly.length = 1 then some ((fieldAt ipOnly 0).chars, 0)
      else none
    match matched with
    | none => .error (-fiEinval)
    | some (ip, port) =>
      match inet4.pton ip with
      | some addr => .ok (.sin { sinPort := UInt16.ofNat port, sinAddr := addr })
      | none => .error (-fiEinval)

/-- `ofi_str_to_sin6`: a port alone (`"%*[^:]://:%hu"`), an address and a port
(`"%*[^:]://[%64[^]]]:%hu"`) or an address alone (`"%*[^:]://[%64[^]]"`). -/
def ofiStrToSin6 (str : List Char) : Except Int FiAddr :=
  let portOnly := sscanf (schemeSkip ++ [.literal ':', decConv]) str
  if portOnly.length = 1 then
    .ok (.sin6 { sin6Port := UInt16.ofNat (fieldAt portOnly 0).value, sin6Addr := Vector.replicate 8 0 })
  else
    let both := sscanf (schemeSkip ++ [.literal '[', .conv (.scanset true [']'] (some 64)) true,
      .literal ']', .literal ':', decConv]) str
    let ipOnly := sscanf (schemeSkip ++ [.literal '[', .conv (.scanset true [']'] (some 64)) true]) str
    let matched :=
      if both.length = 2 then some ((fieldAt both 0).chars, (fieldAt both 1).value)
      else if ipOnly.length = 1 then some ((fieldAt ipOnly 0).chars, 0)
      else none
    match matched with
    | none => .error (-fiEinval)
    | some (ip, port) =>
      match inet6.pton ip with
      | some addr => .ok (.sin6 { sin6Port := UInt16.ofNat port, sin6Addr := addr })
      | none => .error (-fiEinval)

/-- `ofi_str_toaddr`: the format it stores and the address, or the error, it
returns. A string with no known scheme goes to the interface and host name
lookups of the system, `resolve` here. -/
def ofiStrToaddr (resolve : List Char → Option (FiAddrFormat × FiAddr)) (str : List Char) :
    FiAddrFormat × Except Int FiAddr :=
  let fmt := ofiAddrFormat str
  match fmt with
  | .formatUnspec =>
    match resolve str with
    | some (found, addr) => (found, .ok addr)
    | none => (fmt, .error (-fiEinval))
  | .sockaddrIn => (fmt, ofiStrToSin inet4 str)
  | .sockaddrIn6 => (fmt, ofiStrToSin6 inet6 str)
  | .addrPsmx2 => (fmt, ofiStrToPsmx2 str)
  | .addrPsmx3 => (fmt, ofiStrToPsmx3 str)
  | .addrOpx => (fmt, ofiStrToOpx str)
  | .addrIbUd => (fmt, ofiStrToIbUd inet6 str)
  | .addrEfa => (fmt, ofiStrToEfa inet6 str)
  | .sockaddrIb => (fmt, ofiStrToSib inet6 str)
  | _ => (fmt, .error (-fiEnosys))

end Parse

end Libfabric
