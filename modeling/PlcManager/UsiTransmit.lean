/-
# Sending a command

Embeds the transmit half of `hal_usi.c`: `_usi_shift_buffer_right`,
`_usi_encode_and_send` and `hal_usi_send_cmd`.  The encoder works in place in
`puc_txbuf0`; its three loops (the search for the next byte to escape, the shift,
the `write` loop) are definitions of their own.
-/
import PlcManager.UsiProtocol

namespace Usi

/-- `_usi_shift_buffer_right`: every byte travels through a two-entry backup whose
index toggles. -/
def usiShiftBufferRight (pucTxBuf : Mem UInt8) (usIdx usLen : ℕ) : Mem UInt8 :=
  let usOrig := (usIdx + 1) % 65536
  (forRange 0 usLen
    (fun i (t : Mem UInt8 × (Bool → UInt8) × Bool) =>
      let chars := Function.update t.2.1 t.2.2 (t.1.cell (usOrig + i))
      let idx := !t.2.2
      (t.1.store (usOrig + i) (chars idx), chars, idx))
    (pucTxBuf, Function.update (fun _ => 0) true (pucTxBuf.cell usIdx), false)).1

/-- The next byte to escape among the `usLen` bytes from `p` on, with what takes
its place behind the escape mark. -/
def nextToken (pucTxBuf : Mem UInt8) (p usLen : ℕ) : Option (ℕ × UInt8) :=
  match pucTxBuf.find msgMark p usLen with
  -- no mark: the next escape mark, if there is one
  | none => (pucTxBuf.find escMark p usLen).map fun token => (token, escEscMark)
  -- an escape mark in front of the mark comes first
  | some token =>
      match pucTxBuf.find escMark p (token - p) with
      | some auxToken => some (auxToken, escEscMark)
      | none => some (token, escMsgMark)

/-- The escape loop of `_usi_encode_and_send`: `usLen` bytes at `ulIdxAux` are still
to be looked at, `ulSizeCoded` bytes are accounted for.  The result is the index
behind the coded bytes, or `none` where the loop gives up for lack of room. -/
def escapeLoop (ulIdxInOrig usSize : ℕ) : ℕ → Mem UInt8 → ℕ → ℕ → ℕ → Mem UInt8 × Option ℕ
  | 0, m, ulIdxAux, _, _ => (m, some ulIdxAux)
  | fuel + 1, m, ulIdxAux, usLen, ulSizeCoded =>
      if usLen = 0 then (m, some ulIdxAux)
      else
        match nextToken m (ulIdxInOrig + ulIdxAux) usLen with
        | none => escapeLoop ulIdxInOrig usSize fuel m (ulIdxAux + usLen) 0 ulSizeCoded
        | some (token, ucEscapedByte) =>
            if ulIdxInOrig + (ulSizeCoded + 1) > usSize then (m, none)
            else
              let usLenToken := token - (ulIdxInOrig + ulIdxAux)
              let idx := ulIdxAux + usLenToken
              let m := m.store idx escMark
              let usLen := usLen - (usLenToken + 1)
              let m := usiShiftBufferRight m (idx + 1) usLen
              let m := m.store (idx + 1) ucEscapedByte
              escapeLoop ulIdxInOrig usSize fuel m (idx + 2) usLen (ulSizeCoded + 1)

/-- The CRC type that the `switch` over the protocol selects. -/
def crcType (ucPType : UInt8) : UInt8 :=
  if ucPType ∈ mngpProtocols then Pcrc.halPcrcCrcType32
  else if ucPType ∈ crc16Protocols then Pcrc.halPcrcCrcType16
  else Pcrc.halPcrcCrcType8

/-- The bytes of a CRC, most significant first, as many as its protocol uses. -/
def crcBytes (ucPType : UInt8) (ulCrc : UInt32) : List UInt8 :=
  if ucPType ∈ mngpProtocols then
    [(ulCrc >>> 24).toUInt8, (ulCrc >>> 16).toUInt8, (ulCrc >>> 8).toUInt8, ulCrc.toUInt8]
  else if ucPType ∈ crc16Protocols then [(ulCrc >>> 8).toUInt8, ulCrc.toUInt8]
  else [ulCrc.toUInt8]

/-- The plain message in the transmit buffer: opening mark, header, payload with
the length bit of the extended protocol, CRC. -/
def layOut (m : Mem UInt8) (ulIdxInOrig : ℕ) (msg : XUsiCmd) : Mem UInt8 :=
  let usLen := msg.usLen
  let m := m.storeList 0
    [msgMark, lenHiProtocol usLen, lenLoProtocol usLen + typeProtocol msg.ucPType]
  let m := m.storeList 3 msg.pucBuf
  let m :=
    if msg.ucPType = protocolPrimeApi then
      m.store 3 (lenExProtocol usLen + cmdProtocol (msg.pucBuf.headD 0))
    else m
  let ulCrc := Pcrc.halPcrcCalc {} m (ulIdxInOrig + 1) (usLen + 2) Pcrc.halPcrcHtUsi
    (crcType msg.ucPType) false
  m.storeList (3 + usLen) (crcBytes msg.ucPType ulCrc)

/-- The number of bytes `layOut` accounts for: mark, header, payload, CRC. -/
def laidOutLen (msg : XUsiCmd) : ℕ :=
  (msg.usLen + 3 + (if msg.ucPType ∈ mngpProtocols then 4
    else if msg.ucPType ∈ crc16Protocols then 2 else 1)) % 65536

/-- The `write` loop at the end of `_usi_encode_and_send`: each round offers the
same `usLen` bytes.  The result is the final `us_idx_in`, the status and what was
written; `none` means that the loop is still running after the last answer the
environment gives. -/
def sendLoop (result : ℕ → ℕ → ℤ) (fdWr : ℤ) (m : Mem UInt8) (usLen : ℕ) :
    ℕ → ℕ → ℕ → Option (ℕ × Status × List Event)
  | fuel, k, usIdxIn =>
      if usIdxIn = 0 then some (0, .ok, [])
      else
        match fuel with
        | 0 => none
        | fuel + 1 =>
            -- the same bytes in every round, whatever has been accepted before
            let iSentChars := result k usLen
            if 0 < iSentChars then
              (sendLoop result fdWr m usLen fuel (k + 1) (uint16 (usIdxIn - iSentChars))).map
                fun r => (r.1, r.2.1, .write fdWr (m.slice 0 iSentChars.toNat) :: r.2.2)
            else some (uint16 (usIdxIn - usLen), .uartError, [])

/-- `_usi_encode_and_send`. -/
def usiEncodeAndSend (w : Writes) (s : State) (msg : XUsiCmd) :
    Option (State × Status × List Event) :=
  let ulIdxInOrig := s.usIdxIn
  -- the message is copied before the room for it is checked
  let m := layOut s.pucTxbuf0 ulIdxInOrig msg
  let usLen := laidOutLen msg
  if ulIdxInOrig + (usLen + 1) > s.txUsSize then
    some ({ s with pucTxbuf0 := m }, .txBufferOverflow, [])
  else
    -- skip the initial mark
    let usLen' := uint16 ((usLen : ℤ) - 1)
    match escapeLoop ulIdxInOrig s.txUsSize usLen' m (ulIdxInOrig + 1) usLen' (usLen + 1) with
    | (m, none) => some ({ s with pucTxbuf0 := m }, .txBufferOverflow, [])
    | (m, some ulIdxAux) =>
        let m := m.store ulIdxAux msgMark
        let usLen := (ulIdxAux + 1) % 65536
        let fdWr := if msg.fd < 0 then s.portFd else msg.fd
        (sendLoop w.result fdWr m usLen w.patience 0 usLen).map fun r =>
          ({ s with pucTxbuf0 := m, usIdxIn := r.1 }, r.2.1, r.2.2)

/-- `hal_usi_send_cmd`. -/
def halUsiSendCmd (w : Writes) (s : State) (msg : XUsiCmd) :
    Option (State × Status × List Event) :=
  if msg.usLen = 0 then some (s, .formatError, [])
  else if usiProtId2idx msg.ucPType = usiInvalidProtocolIdx then some (s, .protocolNotFound, [])
  else
    let usAvailableLen := uint16 ((s.txUsSize : ℤ) - s.usIdxIn)
    if usAvailableLen < msg.usLen + minOverhead then some (s, .rxBufferOverflow, [])
    else usiEncodeAndSend w s msg

end Usi
