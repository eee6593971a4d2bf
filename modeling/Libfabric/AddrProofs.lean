import Libfabric.Addr

/-! What `ofi_str_toaddr` makes of the text `ofi_straddr` prints. For the
socket addresses, EFA, PSM2, PSM3 and OPX the text reads back as the address.
An IB address reads back without its service id, so the port space it printed
is lost. An IB UD address never reads back: its GID is taken with a `%s`, which
runs to the end of a text that has no white space, and the `:` after it finds
nothing. -/
namespace Libfabric

open CText

variable (inet4 : InetText InAddr inet4Char 15) (inet6 : InetText In6Addr inet6Char 45)

section Texts

theorem colon_not_mem_ntop4 (a : InAddr) : ':' ∉ inet4.ntop a := by
  intro member
  have allowed := inet4.ntop_chars a ':' member
  revert allowed
  decide

theorem bracket_not_mem_ntop6 (a : In6Addr) : ']' ∉ inet6.ntop a := by
  intro member
  have allowed := inet6.ntop_chars a ']' member
  revert allowed
  decide

theorem isSpace_of_mem_ntop6 (a : In6Addr) : ∀ c ∈ inet6.ntop a, isSpace c = false :=
  fun c member => isSpace_of_inet6Char (inet6.ntop_chars a c member)

theorem isSpace_of_mem_fmtHex (n : Nat) : ∀ c ∈ fmtHex n, isSpace c = false :=
  fun _ member => isSpace_of_isDigitOf (isDigitOf_of_mem_fmtHex member)

theorem colon_not_mem_fmtHex (n : Nat) : ':' ∉ fmtHex n := by
  intro member
  have digit := isDigitOf_of_mem_fmtHex member
  revert digit
  decide

theorem scheme_inside {name : String} (noColon : ':' ∉ name.toList) :
    ∀ c ∈ name.toList, ([':'].contains c != true) = true := by
  intro c member
  have other : c ≠ ':' := fun same => noColon (same ▸ member)
  simpa using other

theorem sscanf_schemeSkip {name : String} (nonempty : name.toList ≠ []) (noColon : ':' ∉ name.toList)
    (format : List Directive) (body : List Char) :
    sscanf (schemeSkip ++ format) (schemeText name ++ body) = sscanf format body := by
  have read : (Conv.scanset true [':'] none).read (name.toList ++ ("://".toList ++ body)) =
      some (.text name.toList, "://".toList ++ body) :=
    read_scanset nonempty (scheme_inside noColon) (by simp) (by simp)
  rw [schemeSkip, schemeText, List.cons_append, List.append_assoc, sscanf_conv false read,
    sscanf_literals]
  rfl

theorem ofiAddrFormat_schemeText {name : String} (nonempty : name.toList ≠ [])
    (noColon : ':' ∉ name.toList) (short : name.toList.length ≤ 16) (body : List Char) :
    ofiAddrFormat (schemeText name ++ body) = formatOfScheme name.toList := by
  have read : (Conv.scanset true [':'] (some 16)).read (name.toList ++ ("://".toList ++ body)) =
      some (.text name.toList, "://".toList ++ body) :=
    read_scanset nonempty (scheme_inside noColon) (by simp) (by simpa using short)
  have fields : sscanf (.conv (.scanset true [':'] (some 16)) true :: literals "://".toList)
      (schemeText name ++ body) = [.text name.toList] := by
    rw [schemeText, List.append_assoc, sscanf_conv true read,
      ← List.append_nil (literals "://".toList), sscanf_literals]
    rfl
  simp only [ofiAddrFormat, fields]
  simp [fieldAt, Field.chars]

end Texts

section Numbers

theorem value_number {n : Nat} (small : n < 2 ^ 64) : (Field.number false n).value = n :=
  strtoulValue_of_lt small

theorem wholeNumber_hex {n : Nat} (small : n < 2 ^ 63) :
    wholeNumber ('0' :: 'x' :: fmtHex n) = some (n : Int) := by
  have read := strtol_hex n stop_nil
  rw [List.append_nil] at read
  have fits : min (n : Int) (2 ^ 63 - 1) = n := by omega
  simp only [wholeNumber, fmtHex, read, fits]
  simp

theorem strtokR_hexToken (n : Nat) (rest : List Char) :
    strtokR ':' ('0' :: 'x' :: (fmtHex n ++ ':' :: rest)) = some ('0' :: 'x' :: fmtHex n, rest) := by
  have token : strtokR ':' (('0' :: 'x' :: fmtHex n) ++ ':' :: rest) = some ('0' :: 'x' :: fmtHex n, rest) :=
    strtokR_token (List.cons_ne_nil _ _) (by simpa using colon_not_mem_fmtHex n) rest
  simpa using token

theorem strtokR_hexToken_last (n : Nat) :
    strtokR ':' ('0' :: 'x' :: fmtHex n) = some ('0' :: 'x' :: fmtHex n, []) :=
  strtokR_last (List.cons_ne_nil _ _) (by simpa using colon_not_mem_fmtHex n)

end Numbers

section Parsers

theorem ofiStrToPsmx2_psmx2Text (w0 w1 : UInt64) :
    ofiStrToPsmx2 (psmx2Text w0 w1) = .ok (.psmx2 w0 w1) := by
  have fields : sscanf (schemeSkip ++ [hexConv, .literal ':', hexConv]) (psmx2Text w0 w1) =
      [.number false w0.toNat, .number false w1.toNat] := by
    rw [psmx2Text, sscanf_schemeSkip (by decide) (by decide), hexConv,
      sscanf_hex true _ (stop_cons (by decide) _), sscanf_literal_cons,
      ← List.append_nil (fmtHex w1.toNat), sscanf_hex true _ stop_nil]
    rfl
  simp [ofiStrToPsmx2, fields, fieldAt, value_number w0.toNat_lt, value_number w1.toNat_lt]

theorem ofiStrToPsmx3_psmx3Text (w0 w1 w2 w3 : UInt64) :
    ofiStrToPsmx3 (psmx3Text w0 w1 w2 w3) = .ok (.psmx3 w0 w1 w2 w3) := by
  have fields : sscanf (schemeSkip ++
      [hexConv, .literal ':', hexConv, .literal ':', hexConv, .literal ':', hexConv])
      (psmx3Text w0 w1 w2 w3) =
      [.number false w0.toNat, .number false w1.toNat, .number false w2.toNat, .number false w3.toNat] := by
    rw [psmx3Text, sscanf_schemeSkip (by decide) (by decide), hexConv,
      sscanf_hex true _ (stop_cons (by decide) _), sscanf_literal_cons,
      sscanf_hex true _ (stop_cons (by decide) _), sscanf_literal_cons,
      sscanf_hex true _ (stop_cons (by decide) _), sscanf_literal_cons,
      ← List.append_nil (fmtHex w3.toNat), sscanf_hex true _ stop_nil]
    rfl
  simp [ofiStrToPsmx3, fields, fieldAt, value_number w0.toNat_lt, value_number w1.toNat_lt,
    value_number w2.toNat_lt, value_number w3.toNat_lt]

theorem ofiStrToOpx_opxText (w : UInt64) : ofiStrToOpx (opxText w) = .ok (.opx w) := by
  have fields : sscanf (schemeSkip ++ [hexConv]) (opxText w) = [.number false w.toNat] := by
    rw [opxText, sscanf_schemeSkip (by decide) (by decide), hexConv,
      ← List.append_nil (fmtHexPadded 16 w.toNat), sscanf_hexPadded true _ stop_nil]
    rfl
  simp [ofiStrToOpx, fields, fieldAt, value_number w.toNat_lt]

theorem ofiStrToEfa_efaText (a : EfaEpAddr) : ofiStrToEfa inet6 (efaText inet6 a) = .ok (.efa a) := by
  have gid : (Conv.scanset true [']'] (some 46)).read (inet6.ntop a.raw ++ ']' :: ':' ::
      (fmtDec a.qpn.toNat ++ ':' :: fmtDec a.qkey.toNat)) =
      some (.text (inet6.ntop a.raw), ']' :: ':' :: (fmtDec a.qpn.toNat ++ ':' :: fmtDec a.qkey.toNat)) := by
    apply read_scanset (inet6.ntop_ne_nil a.raw) _ (by simp)
    · simpa using Nat.le_trans (inet6.ntop_length a.raw) (by decide)
    · intro c member
      have other : c ≠ ']' := fun same => bracket_not_mem_ntop6 inet6 a.raw (same ▸ member)
      simpa using other
  have fields : sscanf (schemeSkip ++ [.literal '[', .conv (.scanset true [']'] (some 46)) true,
      .literal ']', .literal ':', decConv, .literal ':', decConv]) (efaText inet6 a) =
      [.text (inet6.ntop a.raw), .number false a.qpn.toNat, .number false a.qkey.toNat] := by
    rw [efaText, sscanf_schemeSkip (by decide) (by decide), sscanf_literal_cons,
      sscanf_conv true gid, sscanf_literal_cons, sscanf_literal_cons, decConv,
      sscanf_dec true _ (stop_cons (by decide) _), sscanf_literal_cons,
      ← List.append_nil (fmtDec a.qkey.toNat), sscanf_dec true _ stop_nil]
    rfl
  have qpn := value_number (Nat.lt_of_lt_of_le a.qpn.toNat_lt (by decide))
  have qkey := value_number (Nat.lt_of_lt_of_le a.qkey.toNat_lt (by decide))
  simp [ofiStrToEfa, fields, fieldAt, Field.chars, inet6.pton_ntop, qpn, qkey]

theorem ofiStrToSin_sinText (a : SockaddrIn) : ofiStrToSin inet4 (sinText inet4 a) = .ok (.sin a) := by
  obtain ⟨d, t, text⟩ := List.exists_cons_of_ne_nil (inet4.ntop_ne_nil a.sinAddr)
  have first : d ≠ ':' := fun same => colon_not_mem_ntop4 inet4 a.sinAddr (by simp [text, same])
  have portOnly : sscanf (schemeSkip ++ [.literal ':', decConv]) (sinText inet4 a) = [] := by
    rw [sinText, sscanf_schemeSkip (by decide) (by decide), text, List.cons_append]
    simp [sscanf, first]
  have ip : (Conv.scanset true [':'] (some 64)).read (inet4.ntop a.sinAddr ++ ':' :: fmtDec a.sinPort.toNat) =
      some (.text (inet4.ntop a.sinAddr), ':' :: fmtDec a.sinPort.toNat) := by
    apply read_scanset (inet4.ntop_ne_nil a.sinAddr) _ (by simp)
    · simpa using Nat.le_trans (inet4.ntop_length a.sinAddr) (by decide)
    · intro c member
      have other : c ≠ ':' := fun same => colon_not_mem_ntop4 inet4 a.sinAddr (same ▸ member)
      simpa using other
  have both : sscanf (schemeSkip ++ [.conv (.scanset true [':'] (some 64)) true, .literal ':', decConv])
      (sinText inet4 a) = [.text (inet4.ntop a.sinAddr), .number false a.sinPort.toNat] := by
    rw [sinText, sscanf_schemeSkip (by decide) (by decide), sscanf_conv true ip, sscanf_literal_cons,
      decConv, ← List.append_nil (fmtDec a.sinPort.toNat), sscanf_dec true _ stop_nil]
    rfl
  have port := value_number (Nat.lt_of_lt_of_le a.sinPort.toNat_lt (by decide))
  simp [ofiStrToSin, portOnly, both, fieldAt, Field.chars, inet4.pton_ntop, port]

theorem ofiStrToSin6_sin6Text (a : SockaddrIn6) :
    ofiStrToSin6 inet6 (sin6Text inet6 a) = .ok (.sin6 a) := by
  have portOnly : sscanf (schemeSkip ++ [.literal ':', decConv]) (sin6Text inet6 a) = [] := by
    rw [sin6Text, sscanf_schemeSkip (by decide) (by decide)]
    simp [sscanf]
  have ip : (Conv.scanset true [']'] (some 64)).read (inet6.ntop a.sin6Addr ++ ']' :: ':' ::
      fmtDec a.sin6Port.toNat) =
      some (.text (inet6.ntop a.sin6Addr), ']' :: ':' :: fmtDec a.sin6Port.toNat) := by
    apply read_scanset (inet6.ntop_ne_nil a.sin6Addr) _ (by simp)
    · simpa using Nat.le_trans (inet6.ntop_length a.sin6Addr) (by decide)
    · intro c member
      have other : c ≠ ']' := fun same => bracket_not_mem_ntop6 inet6 a.sin6Addr (same ▸ member)
      simpa using other
  have both : sscanf (schemeSkip ++ [.literal '[', .conv (.scanset true [']'] (some 64)) true,
      .literal ']', .literal ':', decConv]) (sin6Text inet6 a) =
      [.text (inet6.ntop a.sin6Addr), .number false a.sin6Port.toNat] := by
    rw [sin6Text, sscanf_schemeSkip (by decide) (by decide), sscanf_literal_cons, sscanf_conv true ip,
      sscanf_literal_cons, sscanf_literal_cons, decConv,
      ← List.append_nil (fmtDec a.sin6Port.toNat), sscanf_dec true _ stop_nil]
    rfl
  have port := value_number (Nat.lt_of_lt_of_le a.sin6Port.toNat_lt (by decide))
  simp [ofiStrToSin6, portOnly, both, fieldAt, Field.chars, inet6.pton_ntop, port]

/-- The three numbers `ofi_straddr` prints after the GID of an IB address. -/
def sibNumbers (a : OfiSockaddrIb) : List Char :=
  '0' :: 'x' :: (fmtHex a.sibPkey.toNat ++ ':' :: '0' :: 'x' :: (fmtHex a.portSpace.toNat ++
    ':' :: '0' :: 'x' :: fmtHex (a.sibScopeId.toUInt8 &&& 0xff).toNat))

theorem sibText_eq (a : OfiSockaddrIb) :
    sibText inet6 a = schemeText "fi_sockaddr_ib" ++ ('[' :: (inet6.ntop a.sibAddr ++ ']' :: ':' :: sibNumbers a)) :=
  rfl

/-- What `ofi_str_to_sib` makes of the text of `a`: the P_Key and the GID, no
service id and no mask, and the low byte of the scope id. -/
def OfiSockaddrIb.reread (a : OfiSockaddrIb) : OfiSockaddrIb :=
  { a with sibSid := 0, sibSidMask := 0, sibScopeId := UInt64.ofNat (a.sibScopeId.toUInt8 &&& 0xff).toNat }

theorem ofInt_toNat_uint16 (x : UInt16) : UInt16.ofInt (x.toNat : Int) = x := by
  have small := x.toNat_lt
  rw [UInt16.ofInt, Int.emod_eq_of_lt (by omega) (by omega), Int.toNat_natCast, UInt16.ofNat_toNat]

theorem ofInt_toNat_uint8 (x : UInt8) : UInt64.ofInt (x.toNat : Int) = UInt64.ofNat x.toNat := by
  have small := x.toNat_lt
  rw [UInt64.ofInt, Int.emod_eq_of_lt (by omega) (by omega), Int.toNat_natCast]

/-- The text of an IB address reads back without its service id. The numbers
after the GID are one `%64s` field, cut at each `:` by `strtok_r`; the fourth
token, the port, is missing, so the port space read before it is dropped. -/
theorem ofiStrToSib_sibText (a : OfiSockaddrIb) :
    ofiStrToSib inet6 (sibText inet6 a) = .ok (.sib a.reread) := by
  have pkey : a.sibPkey.toNat < 2 ^ 16 := a.sibPkey.toNat_lt
  have space : a.portSpace.toNat < 2 ^ 16 := a.portSpace.toNat_lt
  have scope : (a.sibScopeId.toUInt8 &&& 0xff).toNat < 2 ^ 8 := UInt8.toNat_lt _
  have gid : (Conv.scanset true [']'] (some 64)).read (inet6.ntop a.sibAddr ++ ']' :: ':' :: sibNumbers a) =
      some (.text (inet6.ntop a.sibAddr), ']' :: ':' :: sibNumbers a) := by
    apply read_scanset (inet6.ntop_ne_nil a.sibAddr) _ (by simp)
    · simpa using Nat.le_trans (inet6.ntop_length a.sibAddr) (by decide)
    · intro c member
      have other : c ≠ ']' := fun same => bracket_not_mem_ntop6 inet6 a.sibAddr (same ▸ member)
      simpa using other
  -- the numbers fit the 64 characters of `extra_str`
  have short : (sibNumbers a).length ≤ 64 := by
    have first := length_fmtHex_le (n := a.sibPkey.toNat) (by omega : _ < 16 ^ 4) (by decide)
    have second := length_fmtHex_le (n := a.portSpace.toNat) (by omega : _ < 16 ^ 4) (by decide)
    have third := length_fmtHex_le (n := (a.sibScopeId.toUInt8 &&& 0xff).toNat) (by omega : _ < 16 ^ 2) (by decide)
    simp only [sibNumbers, List.length_cons, List.length_append]
    omega
  have solid : ∀ c ∈ sibNumbers a, isSpace c = false := by
    simp only [sibNumbers, List.forall_mem_cons, List.forall_mem_append]
    exact ⟨rfl, rfl, isSpace_of_mem_fmtHex _, rfl, rfl, rfl, isSpace_of_mem_fmtHex _, rfl, rfl, rfl,
      isSpace_of_mem_fmtHex _⟩
  have fields : sscanf (schemeSkip ++ [.literal '[', .conv (.scanset true [']'] (some 64)) true,
      .literal ']', .literal ':', .conv (.string (some 64)) true]) (sibText inet6 a) =
      [.text (inet6.ntop a.sibAddr), .text (sibNumbers a)] := by
    rw [sibText_eq, sscanf_schemeSkip (by decide) (by decide), sscanf_literal_cons, sscanf_conv true gid,
      sscanf_literal_cons, sscanf_literal_cons,
      sscanf_conv true (read_string (by simp [sibNumbers] : sibNumbers a ≠ []) solid short)]
    rfl
  simp only [ofiStrToSib, fields, fieldAt, List.length_cons, List.length_nil, Field.chars, sibNumbers,
    List.getD_cons_succ, List.getD_cons_zero, strtokR_hexToken, strtokR_hexToken_last, strtokR_nil,
    wholeNumber_hex (by omega : a.sibPkey.toNat < 2 ^ 63),
    wholeNumber_hex (by omega : a.portSpace.toNat < 2 ^ 63),
    wholeNumber_hex (by omega : (a.sibScopeId.toUInt8 &&& 0xff).toNat < 2 ^ 63), inet6.pton_ntop,
    ofInt_toNat_uint16, ofInt_toNat_uint8, ne_eq, not_true_eq_false, and_false, if_false]
  rfl

theorem sibText_reread (a : OfiSockaddrIb) :
    sibText inet6 a.reread = sibText inet6 a ↔ a.portSpace = 0 := by
  have byte : ∀ b : UInt8, (UInt64.ofNat (b &&& 0xff).toNat).toUInt8 &&& 0xff = b &&& 0xff := by
    intro b
    have back : (UInt64.ofNat (b &&& 0xff).toNat).toUInt8 = b &&& 0xff := by
      apply UInt8.toNat_inj.mp
      have small := (b &&& 0xff).toNat_lt
      simp only [UInt64.toNat_toUInt8, UInt64.toNat_ofNat']
      omega
    rw [back, UInt8.and_assoc]
    rfl
  have reprinted : sibText inet6 a.reread = schemeText "fi_sockaddr_ib" ++ ('[' :: (inet6.ntop a.sibAddr ++
      ']' :: ':' :: '0' :: 'x' :: (fmtHex a.sibPkey.toNat ++ ':' :: '0' :: 'x' :: (fmtHex 0 ++
      ':' :: '0' :: 'x' :: fmtHex (a.sibScopeId.toUInt8 &&& 0xff).toNat)))) := by
    rw [sibText, OfiSockaddrIb.reread]
    simp only [OfiSockaddrIb.portSpace, byte]
    rfl
  rw [reprinted, sibText]
  constructor
  · intro same
    simp only [List.append_cancel_left_eq, List.cons.injEq, true_and, List.append_cancel_right_eq] at same
    exact UInt16.toNat_inj.mp (fmtHex_injective same).symm
  · intro zero
    rw [zero]
    rfl

/-- The text after the scheme of an IB UD address. -/
def ibUdBody (a : OfiIbUdEpName) : List Char :=
  inet6.ntop a.gid ++ ':' :: (fmtHex a.qpn.toNat ++ '/' :: (fmtHex a.lid.toNat ++
    '/' :: (fmtHex a.pkey.toNat ++ '/' :: fmtHex a.sl.toNat)))

/-- The text of an IB UD address never reads back. Its `%s` takes the whole
rest of the text, GID, QPN, LID, P_Key and SL, since none of it is white space;
the `:` that follows finds the end of the input, and `sscanf` returns 1. -/
theorem ofiStrToIbUd_ibUdText (a : OfiIbUdEpName) :
    ofiStrToIbUd inet6 (ibUdText inet6 a) = .error (-fiEinval) := by
  have solid : ∀ c ∈ ibUdBody inet6 a, isSpace c = false := by
    simp only [ibUdBody, List.forall_mem_cons, List.forall_mem_append]
    exact ⟨isSpace_of_mem_ntop6 inet6 a.gid, rfl, isSpace_of_mem_fmtHex _, rfl, isSpace_of_mem_fmtHex _,
      rfl, isSpace_of_mem_fmtHex _, rfl, isSpace_of_mem_fmtHex _⟩
  have nonempty : ibUdBody inet6 a ≠ [] := by simp [ibUdBody]
  have fields : sscanf (schemeSkip ++ [.conv (.string none) true, .literal ':', hexConv,
      .literal ':', hexConv, .literal ':', hexConv, .literal ':', hexConv]) (ibUdText inet6 a) =
      [.text (ibUdBody inet6 a)] := by
    rw [show ibUdText inet6 a = schemeText "fi_addr_ib_ud" ++ ibUdBody inet6 a from rfl,
      sscanf_schemeSkip (by decide) (by decide), sscanf_conv true (read_string_all nonempty solid),
      sscanf_literal_nil]
    rfl
  simp [ofiStrToIbUd, fields]

end Parsers

section RoundTrip

/-- The format of an address's own blob. -/
def FiAddr.format : FiAddr → FiAddrFormat
  | .sin _ => .sockaddrIn
  | .sin6 _ => .sockaddrIn6
  | .sib _ => .sockaddrIb
  | .efa _ => .addrEfa
  | .psmx2 .. => .addrPsmx2
  | .psmx3 .. => .addrPsmx3
  | .opx _ => .addrOpx
  | .ibUd _ => .addrIbUd
  | .str _ => .addrStr
  | .cxi _ => .addrCxi

/-- `ofi_str_toaddr` has a parser for the format of the address: every format
but `FI_ADDR_STR` and `FI_ADDR_CXI`. -/
def FiAddr.parsed : FiAddr → Bool
  | .str _ | .cxi _ => false
  | _ => true

/-- What `ofi_str_toaddr` reads back from the text of an address. -/
def FiAddr.reread : FiAddr → Except Int FiAddr
  | .sib a => .ok (.sib a.reread)
  | .ibUd _ => .error (-fiEinval)
  | addr => .ok addr

theorem ofiAddrFormat_text {name : String} {fmt : FiAddrFormat} (named : formatOfScheme name.toList = fmt)
    (nonempty : name.toList ≠ []) (noColon : ':' ∉ name.toList) (short : name.toList.length ≤ 16)
    (body : List Char) : ofiAddrFormat (schemeText name ++ body) = fmt := by
  rw [ofiAddrFormat_schemeText nonempty noColon short, named]

variable (resolve : List Char → Option (FiAddrFormat × FiAddr))

theorem ofiStrToaddr_ofiStraddr (addr : FiAddr) (parsed : addr.parsed = true) :
    ∃ s, ofiStraddr inet4 inet6 addr.format addr = some s ∧
      ofiStrToaddr inet4 inet6 resolve s = (addr.format, addr.reread) := by
  cases addr with
  | sin a =>
    have format : ofiAddrFormat (sinText inet4 a) = .sockaddrIn :=
      ofiAddrFormat_text (by decide) (by decide) (by decide) (by decide) _
    refine ⟨_, rfl, ?_⟩
    simp [ofiStrToaddr, format, FiAddr.format, FiAddr.reread, ofiStrToSin_sinText]
  | sin6 a =>
    have format : ofiAddrFormat (sin6Text inet6 a) = .sockaddrIn6 :=
      ofiAddrFormat_text (by decide) (by decide) (by decide) (by decide) _
    refine ⟨_, rfl, ?_⟩
    simp [ofiStrToaddr, format, FiAddr.format, FiAddr.reread, ofiStrToSin6_sin6Text]
  | sib a =>
    have format : ofiAddrFormat (sibText inet6 a) = .sockaddrIb :=
      ofiAddrFormat_text (by decide) (by decide) (by decide) (by decide) _
    refine ⟨_, rfl, ?_⟩
    simp [ofiStrToaddr, format, FiAddr.format, FiAddr.reread, ofiStrToSib_sibText]
  | efa a =>
    have format : ofiAddrFormat (efaText inet6 a) = .addrEfa :=
      ofiAddrFormat_text (by decide) (by decide) (by decide) (by decide) _
    refine ⟨_, rfl, ?_⟩
    simp [ofiStrToaddr, format, FiAddr.format, FiAddr.reread, ofiStrToEfa_efaText]
  | psmx2 w0 w1 =>
    have format : ofiAddrFormat (psmx2Text w0 w1) = .addrPsmx2 :=
      ofiAddrFormat_text (by decide) (by decide) (by decide) (by decide) _
    refine ⟨_, rfl, ?_⟩
    simp [ofiStrToaddr, format, FiAddr.format, FiAddr.reread, ofiStrToPsmx2_psmx2Text]
  | psmx3 w0 w1 w2 w3 =>
    have format : ofiAddrFormat (psmx3Text w0 w1 w2 w3) = .addrPsmx3 :=
      ofiAddrFormat_text (by decide) (by decide) (by decide) (by decide) _
    refine ⟨_, rfl, ?_⟩
    simp [ofiStrToaddr, format, FiAddr.format, FiAddr.reread, ofiStrToPsmx3_psmx3Text]
  | opx w =>
    have format : ofiAddrFormat (opxText w) = .addrOpx :=
      ofiAddrFormat_text (by decide) (by decide) (by decide) (by decide) _
    refine ⟨_, rfl, ?_⟩
    simp [ofiStrToaddr, format, FiAddr.format, FiAddr.reread, ofiStrToOpx_opxText]
  | ibUd a =>
    have format : ofiAddrFormat (ibUdText inet6 a) = .addrIbUd :=
      ofiAddrFormat_text (by decide) (by decide) (by decide) (by decide) _
    refine ⟨_, rfl, ?_⟩
    simp [ofiStrToaddr, format, FiAddr.format, FiAddr.reread, ofiStrToIbUd_ibUdText]
  | str s => cases parsed
  | cxi w => cases parsed

/-- The round trip the text form is for: `ofi_str_toaddr` reads the text
`ofi_straddr` prints for `addr` back in the same format, as an address that
prints the same text, that is one equal to `addr` on every field the text shows. -/
def RoundTrips (addr : FiAddr) : Prop :=
  ∃ s back, ofiStraddr inet4 inet6 addr.format addr = some s ∧
    ofiStrToaddr inet4 inet6 resolve s = (addr.format, .ok back) ∧
    ofiStraddr inet4 inet6 addr.format back = some s

/-- The addresses whose text reads back: no IB UD address, and an IB address
only when its port space is 0. -/
def FiAddr.KeepsText : FiAddr → Prop
  | .ibUd _ => False
  | .sib a => a.portSpace = 0
  | _ => True

/-- Exactly the addresses of `FiAddr.KeepsText` survive the round trip through
their text, for every format `ofi_str_toaddr` parses. -/
theorem roundTrips_iff (addr : FiAddr) (parsed : addr.parsed = true) :
    RoundTrips inet4 inet6 resolve addr ↔ addr.KeepsText := by
  obtain ⟨s, printed, read⟩ := ofiStrToaddr_ofiStraddr inet4 inet6 resolve addr parsed
  constructor
  · rintro ⟨s', back, printed', read', again⟩
    have same : s' = s := Option.some.inj (printed'.symm.trans printed)
    subst same
    have reread : addr.reread = .ok back := (Prod.mk.inj (read.symm.trans read')).2
    cases addr with
    | ibUd a => cases reread
    | sib a =>
      cases reread
      exact (sibText_reread inet6 a).mp (Option.some.inj (again.trans printed.symm))
    | sin a | sin6 a | efa a | psmx2 w0 w1 | psmx3 w0 w1 w2 w3 | opx w | str t | cxi w => trivial
  · intro keeps
    cases addr with
    | ibUd a => exact keeps.elim
    | sib a =>
      refine ⟨s, .sib a.reread, printed, read, ?_⟩
      rw [← printed]
      exact congrArg some ((sibText_reread inet6 a).mpr keeps)
    | sin a | sin6 a | efa a | psmx2 w0 w1 | psmx3 w0 w1 w2 w3 | opx w => exact ⟨s, _, printed, read, printed⟩
    | str t | cxi w => cases parsed

/-- The IB UD address of GID `fe80::1`, QPN `0x10`, LID 1, P_Key `0xffff` and
SL 0 does not survive its text `fi_addr_ib_ud://fe80::1:10/1/ffff/0`. -/
theorem roundTrips_iff_ibUd :
    (FiAddr.ibUd ⟨#v[0xfe80, 0, 0, 0, 0, 0, 0, 1], 0x10, 1, 0xffff, 0⟩).parsed = true ∧
      (RoundTrips dottedQuad compressedGroups (fun _ => none)
        (.ibUd ⟨#v[0xfe80, 0, 0, 0, 0, 0, 0, 1], 0x10, 1, 0xffff, 0⟩) ↔ False) :=
  ⟨rfl, roundTrips_iff dottedQuad compressedGroups (fun _ => none) _ rfl⟩

example : ofiStraddr dottedQuad compressedGroups .addrIbUd (.ibUd ⟨#v[0xfe80, 0, 0, 0, 0, 0, 0, 1], 0x10, 1, 0xffff, 0⟩) =
    some "fi_addr_ib_ud://fe80::1:10/1/ffff/0".toList := by
  decide

example : ofiStrToaddr dottedQuad compressedGroups (fun _ => none) "fi_addr_ib_ud://fe80::1:10/1/ffff/0".toList =
    (.addrIbUd, .error (-22)) := by
  decide

example : ofiStrToaddr dottedQuad compressedGroups (fun _ => none) "fi_sockaddr_in://10.0.0.1:80".toList =
    (.sockaddrIn, .ok (.sin ⟨80, #v[10, 0, 0, 1]⟩)) := by
  decide

end RoundTrip

end Libfabric
