/-
# Receiving

Embeds the receive half of `hal_usi.c`: the left shift, the in-place unescaping,
the length check, the CRC check, the dispatcher and `hal_usi_process`.

A pointer into the receive buffer is an address of `puc_rxbuf0`.  `memchr` stops
at its first hit, so `Mem.find` reads the cells it reads.
-/
import PlcManager.UsiTransmit

namespace Usi

/-- `_usi_shift_buffer_left`, with both counts as `int16_t` and the index as
`uint16_t`. -/
def usiShiftBufferLeft (m : Mem UInt8) (pucBuf : ℕ) (usN usLen : ℤ) : Mem UInt8 :=
  let m := forRange (uint16 usN) usLen.toNat
    (fun i m => m.store (pucBuf + (i - usN : ℤ).toNat) (m.cell (pucBuf + i))) m
  forRange (uint16 (usLen - usN)) usLen.toNat (fun i m => m.store (pucBuf + i) 0) m

/-- The loop of `_decode_copy`. -/
def decodeLoop (pucStart : ℕ) : ℕ → Mem UInt8 → ℕ → ℕ → Mem UInt8 × ℕ
  | 0, m, _, usCurrSize => (m, usCurrSize)
  | fuel + 1, m, i, usCurrSize =>
      if i < usCurrSize then
        if m.cell (pucStart + i) = escMark then
          if m.cell (pucStart + (i + 1)) = escMsgMark then
            let m := m.store (pucStart + i) msgMark
            let m := usiShiftBufferLeft m (pucStart + (i + 1)) 1 (int16 (usCurrSize - i))
            decodeLoop pucStart fuel m (i + 1) (usCurrSize - 1)
          else if m.cell (pucStart + (i + 1)) = escEscMark then
            let m := m.store (pucStart + i) escMark
            let m := usiShiftBufferLeft m (pucStart + (i + 1)) 1 (int16 (usCurrSize - i))
            decodeLoop pucStart fuel m (i + 1) (usCurrSize - 1)
          else
            -- an escape mark with anything else behind it spoils the frame
            (m, 0)
        else decodeLoop pucStart fuel m (i + 1) usCurrSize
      else (m, usCurrSize)

/-- `_decode_copy`: the buffer with the escapes resolved in place, and the decoded
length, 0 for an error. -/
def decodeCopy (m : Mem UInt8) (pucStart pucEnd : ℕ) : Mem UInt8 × ℕ :=
  let usCurrSize := uint16 ((pucEnd : ℤ) - pucStart - 1)
  if usCurrSize = 0 then (m, 0)
  else decodeLoop pucStart usCurrSize m 0 usCurrSize

/-- `_check_integrity_len`. -/
def checkIntegrityLen (m : Mem UInt8) (pucRxStart usMsgLen : ℕ) : Bool :=
  let pucData := pucRxStart + 1
  if usMsgLen < 4 then false
  else
    let usLen := lenProtocol (m.cell pucData) (m.cell (pucData + 1))
    let ucType := typeProtocol (m.cell (pucData + 1))
    if ucType ∈ mngpProtocols then usLen + 4 + 2 == usMsgLen
    else if ucType ∈ crc16Protocols then usLen + 2 + 2 == usMsgLen
    else if ucType = protocolPrimeApi then
      xlenProtocol (m.cell pucData) (m.cell (pucData + 1)) (m.cell (pucData + 2)) + 1 + 2
        == usMsgLen
    else false

/-- The number of bytes `_doEoMsg` and `_process_msg` take a message to announce:
with the extended bit for the PRIME API, without it for everything else. -/
def announcedLen (m : Mem UInt8) (pucRxBuf : ℕ) : ℕ :=
  if typeProtocol (m.cell (pucRxBuf + 1)) = protocolPrimeApi then
    xlenProtocol (m.cell pucRxBuf) (m.cell (pucRxBuf + 1)) (m.cell (pucRxBuf + 2))
  else lenProtocol (m.cell pucRxBuf) (m.cell (pucRxBuf + 1))

/-- The received CRC as `_doEoMsg` puts it together from the last bytes of a message
that ends in front of address `pucEnd`. -/
def rxCrc (m : Mem UInt8) (ucType : UInt8) (pucEnd : ℕ) : UInt32 :=
  if ucType ∈ mngpProtocols then
    let pucTb := pucEnd - 4
    ((m.cell pucTb).toUInt32 <<< 24) ||| ((m.cell (pucTb + 1)).toUInt32 <<< 16)
      ||| ((m.cell (pucTb + 2)).toUInt32 <<< 8) ||| (m.cell (pucTb + 3)).toUInt32
  else if ucType ∈ crc16Protocols then
    let pucTb := pucEnd - 2
    ((m.cell pucTb).toUInt32 <<< 8) ||| (m.cell (pucTb + 1)).toUInt32
  else (m.cell (pucEnd - 1)).toUInt32

/-- `_doEoMsg`.  The CRC is always evaluated over the announced length, wherever
the message ends. -/
def doEoMsg (m : Mem UInt8) (pucRxBuf usMsgSize : ℕ) : Bool :=
  if usMsgSize < 4 then false
  else
    let usLen := lenProtocol (m.cell pucRxBuf) (m.cell (pucRxBuf + 1))
    let ucType := typeProtocol (m.cell (pucRxBuf + 1))
    if usLen = 0 ∧ ¬ (ucType = protocolMngpPrimeReset ∨ ucType = protocolMngpPrimeReboot) then
      false
    else if ucType ∈ mngpProtocols ∨ ucType ∈ crc16Protocols ∨ ucType = protocolPrimeApi then
      let ulEvCrc := Pcrc.halPcrcCalc {} m pucRxBuf (announcedLen m pucRxBuf + 2)
        Pcrc.halPcrcHtUsi (crcType ucType) false
      rxCrc m ucType (pucRxBuf + usMsgSize) == ulEvCrc
    else false

/-- One branch of the dispatcher: the callback registered for `protocolId`, if any,
is called with the `usLen` bytes at `puc`. -/
def callSerialization (s : State) (protocolId : UInt8) (puc usLen : ℕ) :
    Option (List Event × UInt8) :=
  (s.usiCfgMapProtocols (usiProtId2idx protocolId)).map fun pf =>
    let msg := s.pucRxbuf0.slice puc usLen
    ([.callback (usiProtId2idx protocolId) puc msg], pf msg)

/-- The `switch` of `_process_msg`: management messages are handed over with their
header, all others without. -/
def dispatch (s : State) (ucType : UInt8) (pucRxBuf usLen : ℕ) : Option (List Event × UInt8) :=
  let payload := pucRxBuf + 2
  if ucType ∈ mngpProtocols then callSerialization s protocolMngpPrime pucRxBuf (usLen + 2)
  else if ucType = protocolAtpl230 then callSerialization s protocolAtpl230 payload usLen
  else if ucType = protocolSnifPrime then callSerialization s protocolSnifPrime payload usLen
  else if ucType = protocolPrimeApi then callSerialization s protocolPrimeApi payload usLen
  else if ucType = protocolUserDefined then callSerialization s protocolUserDefined payload usLen
  else none

/-- `uc_retx_len`, a `uint8_t`: how much of the payload goes to the loopback. -/
def ucRetxLen (s : State) (ucType : UInt8) (usLen : ℕ) : ℕ :=
  if (ucType ∈ mngpProtocols ∨ ucType = protocolPrimeApi) ∧ 0 < s.fdSocketLoopback then
    usLen % 256
  else 0

theorem ucRetxLen_lt (s : State) (ucType : UInt8) (usLen : ℕ) : ucRetxLen s ucType usLen < 256 := by
  unfold ucRetxLen
  split_ifs <;> omega

theorem ucRetxLen_lt_usLen (s : State) (ucType : UInt8) (usLen : ℕ) :
    ucRetxLen s ucType usLen < 65536 :=
  (ucRetxLen_lt s ucType usLen).trans (by decide)

/-- The command that redirects `n` payload bytes to the loopback. -/
def loopbackCmd (s : State) (ucType : UInt8) (payload n : ℕ) (h : n < 65536) : XUsiCmd where
  fd := s.fdSocketLoopback
  ucPType := ucType
  pucBuf := s.pucRxbuf0.slice payload n
  usLen_lt := by rwa [Mem.length_slice]

/-- `_process_msg`: hand the message at `pucRxBuf` to its callback and, if the
loopback is on, send its payload there as well. -/
def processMsg (w : Writes) (s : State) (pucRxBuf : ℕ) : Option (State × List Event × UInt8) :=
  let ucType := typeProtocol (s.pucRxbuf0.cell (pucRxBuf + 1))
  let usLen := announcedLen s.pucRxbuf0 pucRxBuf
  if usLen = 0 ∧ ¬ (ucType = protocolMngpPrimeReset ∨ ucType = protocolMngpPrimeReboot) then
    some (s, [], 0)
  else
    -- the callback comes first, then the redirection
    match dispatch s ucType pucRxBuf usLen with
    | none => some (s, [], 0)
    | some (events, ucResult) =>
        if 0 < ucRetxLen s ucType usLen then
          (halUsiSendCmd w s (loopbackCmd s ucType (pucRxBuf + 2) (ucRetxLen s ucType usLen)
            ((ucRetxLen_lt s ucType usLen).trans (by omega)))).map
              fun r => (r.1, events ++ r.2.2, ucResult)
        else some (s, events, ucResult)

/-- What one call of `hal_usi_process` gets from outside: the outcome of its
`read` (`none` is a negative result), the bytes that currently lie behind
`puc_rxbuf0`, and the answers to `write`. -/
structure Input where
  read : Option (List UInt8)
  behind : ℕ → UInt8
  writes : Writes

/-- The part of `hal_usi_process` that runs once both marks are found. -/
def processFrame (w : Writes) (s : State) (pending first last : ℕ) :
    Option (State × List Event) :=
  let usMsgSize := (last + 1) % 65536
  let dec := decodeCopy s.pucRxbuf0 first last
  let s := { s with pucRxbuf0 := dec.1 }
  if s.sbCheckLen && !checkIntegrityLen dec.1 first dec.2 then
    -- keep the last mark: it is taken to open the next frame
    some ({ s with
              pucRxbuf0 := usiShiftBufferLeft dec.1 0 (int16 ((usMsgSize : ℤ) - 1)) (int16 pending)
              rxUsSize := uint16 ((pending : ℤ) - ((usMsgSize : ℤ) - 1))
              sbCheckLen := false }, [])
  else
    let s := { s with sbCheckLen := false }
    let done :=
      if doEoMsg s.pucRxbuf0 (first + 1) dec.2 then
        (processMsg w s (first + 1)).map fun r => (r.1, r.2.1)
      else some (s, [])
    done.map fun r =>
      ({ r.1 with
          pucRxbuf0 := usiShiftBufferLeft r.1.pucRxbuf0 0 (int16 usMsgSize) (int16 pending)
          rxUsSize := uint16 ((pending : ℤ) - usMsgSize) }, r.2)

/-- `hal_usi_process`.  The second search starts one past the first mark and still
spans the whole pending count. -/
def halUsiProcess (inp : Input) (s : State) : Option (State × List Event) :=
  match inp.read with
  | none => some (s, [])
  | some bytes =>
      let m := (s.pucRxbuf0.withBehind txauxSize inp.behind).storeList s.rxUsSize bytes
      let pending := (s.rxUsSize + bytes.length) % 65536
      let s := { s with pucRxbuf0 := m }
      if pending = 0 then some (s, [])
      else
        match m.find msgMark 0 pending with
        | none =>
            -- no mark: everything pending is dropped
            some ({ s with
                      rxUsSize := 0
                      pucRxbuf0 := m.storeList 0 (List.replicate pending 0) }, [])
        | some first =>
            match m.find msgMark (first + 1) pending with
            -- one mark: wait for more, and check the length of what comes
            | none => some ({ s with sbCheckLen := true, rxUsSize := pending }, [])
            | some last => processFrame inp.writes s pending first last

end Usi
