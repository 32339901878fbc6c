/-
# The serial protocol: numbers, header fields, state

Embeds the types, constants and macros of `hal_usi.c` and `hal_utils.h`: the
protocol identifiers, the header operators, the commands handed to the layer,
and the static variables of `hal_usi.c`, gathered in one `State`.

Byte arrays are flat memories.  `puc_rxbuf0` and `puc_txbuf0` are the first
`TXAUX_SIZE` cells of theirs; the cells behind belong to whatever the linker put
there.
-/
import PlcManager.Pcrc
import PlcManager.Stuffing

namespace Usi

/-! ## Machine integers -/

/-- Conversion to `uint16_t`. -/
def uint16 (z : ℤ) : ℕ := (z % 65536).toNat

/-- Conversion to `int16_t`. -/
def int16 (z : ℤ) : ℤ := if z % 65536 < 32768 then z % 65536 else z % 65536 - 65536

theorem uint16_natCast {n : ℕ} (h : n < 65536) : uint16 n = n := by
  unfold uint16
  omega

theorem uint16_of_nonneg {z : ℤ} (h0 : 0 ≤ z) (h : z < 65536) : uint16 z = z.toNat := by
  unfold uint16
  rw [Int.emod_eq_of_lt h0 h]

theorem int16_of_nonneg {z : ℤ} (h0 : 0 ≤ z) (h : z < 32768) : int16 z = z := by
  unfold int16
  split_ifs <;> omega

/-! ## Protocol identifiers -/

/-- `PROTOCOL_MNGP_PRIME`, the number the management callback is registered under. -/
def protocolMngpPrime : UInt8 := 0x00
/-- The identifiers of `usi_protocol_t`. -/
def protocolMngpPrimeGetqry : UInt8 := 0x00
@[inherit_doc protocolMngpPrimeGetqry] def protocolMngpPrimeGetrsp : UInt8 := 0x01
@[inherit_doc protocolMngpPrimeGetqry] def protocolMngpPrimeSet : UInt8 := 0x02
@[inherit_doc protocolMngpPrimeGetqry] def protocolMngpPrimeReset : UInt8 := 0x03
@[inherit_doc protocolMngpPrimeGetqry] def protocolMngpPrimeReboot : UInt8 := 0x04
@[inherit_doc protocolMngpPrimeGetqry] def protocolMngpPrimeFu : UInt8 := 0x05
@[inherit_doc protocolMngpPrimeGetqry] def protocolMngpPrimeGetqryEn : UInt8 := 0x06
@[inherit_doc protocolMngpPrimeGetqry] def protocolMngpPrimeGetrspEn : UInt8 := 0x07
@[inherit_doc protocolMngpPrimeGetqry] def protocolSnifPrime : UInt8 := 0x13
@[inherit_doc protocolMngpPrimeGetqry] def protocolAtpl230 : UInt8 := 0x22
@[inherit_doc protocolMngpPrimeGetqry] def protocolPrimeApi : UInt8 := 0x30
@[inherit_doc protocolMngpPrimeGetqry] def protocolInternal : UInt8 := 0x3f
@[inherit_doc protocolMngpPrimeGetqry] def protocolUserDefined : UInt8 := 0xfe

/-- The eight management labels that every `switch` of `hal_usi.c` lists together. -/
def mngpProtocols : List UInt8 :=
  [protocolMngpPrimeGetqry, protocolMngpPrimeGetrsp, protocolMngpPrimeSet,
    protocolMngpPrimeReset, protocolMngpPrimeReboot, protocolMngpPrimeFu,
    protocolMngpPrimeGetqryEn, protocolMngpPrimeGetrspEn]

/-- The labels that share the CRC-16 branch. -/
def crc16Protocols : List UInt8 := [protocolSnifPrime, protocolAtpl230, protocolUserDefined]

/-- `USI_INVALID_PROTOCOL_IDX`. -/
def usiInvalidProtocolIdx : ℕ := 0xff

/-- `_usi_prot_id2idx`. -/
def usiProtId2idx (protocolId : UInt8) : ℕ :=
  if protocolId ∈ mngpProtocols then 0
  else if protocolId = protocolSnifPrime then 1
  else if protocolId = protocolAtpl230 then 2
  else if protocolId = protocolUserDefined then 3
  else if protocolId = protocolPrimeApi then 4
  else if protocolId = protocolInternal then 5
  else usiInvalidProtocolIdx

/-- `usi_status_t`. -/
inductive Status where
  | protocolNotFound | protocolNotRegistered | txBufferOverflow | txBusy | txBlocked
  | rxBufferOverflow | rxBlocked | uartError | formatError | ok | invalid
  deriving DecidableEq, Repr

/-! ## Framing bytes and header operators -/

/-- `MSGMARK`. -/
def msgMark : UInt8 := 0x7e
/-- `ESC_MSGMARK`. -/
def escMsgMark : UInt8 := 0x5e
/-- `ESCMARK`. -/
def escMark : UInt8 := 0x7d
/-- `ESC_ESCMARK`. -/
def escEscMark : UInt8 := 0x5d

/-- The four framing bytes form a stuffing scheme. -/
def usiEscapes : Escapes UInt8 where
  mark := msgMark
  esc := escMark
  markSub := escMsgMark
  escSub := escEscMark
  mark_ne_esc := by decide
  markSub_ne_mark := by decide
  escSub_ne_mark := by decide
  escSub_ne_markSub := by decide

/-- `TYPE_PROTOCOL`. -/
def typeProtocol (a : UInt8) : UInt8 := a &&& 0x3f

/-- `LEN_PROTOCOL`: ten bits, from two header bytes. -/
def lenProtocol (a b : UInt8) : ℕ := (a.toNat <<< 2) + (b.toNat >>> 6)

/-- `XLEN_PROTOCOL`: an eleventh bit comes from the first payload byte. -/
def xlenProtocol (a b c : UInt8) : ℕ :=
  (a.toNat <<< 2) + (b.toNat >>> 6) + ((c.toNat &&& 0x80) <<< 3)

/-- `LEN_HI_PROTOCOL`. -/
def lenHiProtocol (a : ℕ) : UInt8 := UInt8.ofNat ((a >>> 2) &&& 0xff)

/-- `LEN_LO_PROTOCOL`. -/
def lenLoProtocol (a : ℕ) : UInt8 := UInt8.ofNat ((a <<< 6) &&& 0xc0)

/-- `LEN_EX_PROTOCOL`. -/
def lenExProtocol (a : ℕ) : UInt8 := UInt8.ofNat ((a &&& 0x0400) >>> 3)

/-- `CMD_PROTOCOL`. -/
def cmdProtocol (a : UInt8) : UInt8 := a &&& 0x7f

/-- `MIN_OVERHEAD`. -/
def minOverhead : ℕ := 5

/-- `TXAUX_SIZE`, the size of both buffers. -/
def txauxSize : ℕ := 1000

/-! ## Commands, events, state -/

/-- `x_usi_cmd_t`.  `pucBuf` is the stretch of `us_len` bytes the pointer of that
name points to. -/
structure XUsiCmd where
  fd : ℤ
  ucPType : UInt8
  pucBuf : List UInt8
  usLen_lt : pucBuf.length < 65536

/-- `us_len` of a command. -/
def XUsiCmd.usLen (msg : XUsiCmd) : ℕ := msg.pucBuf.length

/-- A `serialization_function`: it looks at a stretch of the receive buffer and
returns a verdict. -/
abbrev Serialization := List UInt8 → UInt8

/-- What the layer does to the outside. -/
inductive Event where
  /-- The callback of protocol index `ucProtIdx` is called with the bytes `msg`,
  which start at address `pucRxMsg` of the receive buffer. -/
  | callback (ucProtIdx pucRxMsg : ℕ) (msg : List UInt8)
  /-- `write` on descriptor `fd` accepted these bytes. -/
  | write (fd : ℤ) (bytes : List UInt8)
  deriving DecidableEq, Repr

/-- The answers of the operating system to the `write` calls of one command:
`result k n` answers the `k`-th call when it asks for `n` bytes, for the first
`patience` calls. -/
structure Writes where
  result : ℕ → ℕ → ℤ
  patience : ℕ

/-- A `write` that always takes everything. -/
def Writes.acceptAll : Writes := ⟨fun _ n => n, 1⟩

/-- The static variables of `hal_usi.c`. -/
structure State where
  pucRxbuf0 : Mem UInt8
  /-- `usi_rx_buf.us_size` -/
  rxUsSize : ℕ
  sbCheckLen : Bool
  pucTxbuf0 : Mem UInt8
  /-- `usi_tx_buf.us_size` -/
  txUsSize : ℕ
  /-- `usi_cfg_param.us_idx_in` -/
  usIdxIn : ℕ
  /-- `usiMapPorts._fd` -/
  portFd : ℤ
  /-- `usiMapPorts.us_tx_size` -/
  portTxSize : ℕ
  /-- `usiMapPorts.us_rx_size` -/
  portRxSize : ℕ
  usiCfgMapProtocols : ℕ → Option Serialization
  fdSocketLoopback : ℤ

/-- Program start: statics are zero; the cells behind the two arrays are not ours. -/
def State.static (behindRx behindTx : ℕ → UInt8) : State where
  pucRxbuf0 := (Mem.init fun _ => 0).withBehind txauxSize behindRx
  rxUsSize := 0
  sbCheckLen := false
  pucTxbuf0 := (Mem.init fun _ => 0).withBehind txauxSize behindTx
  txUsSize := 0
  usIdxIn := 0
  portFd := 0
  portTxSize := 0
  portRxSize := 0
  usiCfgMapProtocols := fun _ => none
  fdSocketLoopback := 0

/-- `hal_usi_init`. -/
def halUsiInit (s : State) : State :=
  { s with usiCfgMapProtocols := fun _ => none, sbCheckLen := false, fdSocketLoopback := -1 }

/-- `hal_usi_open` when the device opens as descriptor `fd` at a supported rate. -/
def halUsiOpen (fd : ℤ) (s : State) : State :=
  { s with usIdxIn := 0, portFd := fd, portRxSize := txauxSize, portTxSize := txauxSize,
           txUsSize := txauxSize }

/-- `hal_usi_set_callback`. -/
def halUsiSetCallback (protocolId : UInt8) (pHandler : Option Serialization) (s : State) :
    State × Status :=
  let ucProtIdx := usiProtId2idx protocolId
  if ucProtIdx = usiInvalidProtocolIdx then (s, .protocolNotFound)
  else
    ({ s with usiCfgMapProtocols := Function.update s.usiCfgMapProtocols ucProtIdx pHandler }, .ok)

/-- `hal_usi_loopback`. -/
def halUsiLoopback (fdRedirect : ℤ) (s : State) : State :=
  { s with fdSocketLoopback := fdRedirect }

end Usi
