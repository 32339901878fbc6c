/-
# What the request primitives send

Embeds the request primitives of `ifacePrime_api.c` that send data with its length.  Each
writes its parameters into `uc_serial_buf` through a pointer that it moves by hand, and
sends as many bytes as the pointer has been moved over.

A string that is laid out with its lengths can be taken apart again.  All but one of the
primitives lay their parameters out in this way; `bmng_pprof_get_enhanced` copies its last
parameter without moving the pointer over it.
-/
import PlcManager.MessageLayout
import PlcManager.MessageWriter
import PlcManager.PrimeApi
import PlcManager.UsiProtocol

namespace PrimeApi

open Layout

/-- `MAX_LENGTH_432_DATA`, the size of `uc_serial_buf`. -/
def maxLength432Data : ℕ := 1024 - 3

/-! ## The serialisers -/

namespace Serial

/-- `*ptr++ = (uint8_t)(x >> 8); *ptr++ = (uint8_t)(x & 0xFF)`. -/
def word (x : UInt16) (pucMsg : Pen) : Pen :=
  pucMsg |>.byte (x >>> 8).toUInt8 |>.byte (x &&& 0xff).toUInt8

/-- `memcpy(ptr, xs, n); ptr += n`. -/
def block (xs : List UInt8) (n : ℕ) (pucMsg : Pen) : Pen :=
  pucMsg |>.memcpy xs n |>.advance n

/-- `MNGP_PRIME_LISTQRY`. -/
def mngpPrimeListqry : UInt8 := 0x0e

variable (pucMsg : Pen)

/-- `prime_cl_null_establish_request`. -/
def primeClNullEstablishRequest (pucEui48 : List UInt8) (ucType : UInt8)
    (pucData : List UInt8) (usDataLen : UInt16) (ucArq ucCfbytes : UInt8) : Pen :=
  pucMsg |>.byte 0x01
    |> block pucEui48 lenIdEui48
    |>.byte ucType
    |> word usDataLen
    |> block pucData usDataLen.toNat
    |>.byte ucArq
    |>.byte ucCfbytes

/-- `prime_cl_null_establish_response`. -/
def primeClNullEstablishResponse (usConHandle : UInt16) (ucAnswer : UInt8)
    (pucData : List UInt8) (usDataLen : UInt16) : Pen :=
  pucMsg |>.byte 0x04
    |> word usConHandle
    |>.byte ucAnswer
    |> word usDataLen
    |> block pucData usDataLen.toNat

/-- `prime_cl_null_redirect_response`. -/
def primeClNullRedirectResponse (usConHandle : UInt16) (pucEui48 pucData : List UInt8)
    (usDataLen : UInt16) : Pen :=
  pucMsg |>.byte 0x3c
    |> word usConHandle
    |> block pucEui48 6
    |> word usDataLen
    |> block pucData usDataLen.toNat

/-- `prime_cl_null_join_request`. -/
def primeClNullJoinRequest (ucBroadcast : UInt8) (usConnHandle : UInt16)
    (pucEui48 : List UInt8) (ucConType : UInt8) (pucData : List UInt8) (usDataLen : UInt16) :
    Pen :=
  pucMsg |>.byte 0x09
    |>.byte ucBroadcast
    |> word usConnHandle
    |> block pucEui48 6
    |>.byte ucConType
    |> word usDataLen
    |> block pucData usDataLen.toNat

/-- `prime_cl_null_data_request`, without the pointer that it remembers. -/
def primeClNullDataRequest (usConHandle : UInt16) (pucData : List UInt8)
    (usDataLen : UInt16) (ucPrio : UInt8) : Pen :=
  pucMsg |>.byte 0x10
    |> word usConHandle
    |> word usDataLen
    |> block pucData usDataLen.toNat
    |>.byte ucPrio

/-- A PIB attribute with its value. -/
def setPib (cmd : UInt8) (usPibAttrib : UInt16) (pvPibValue : List UInt8)
    (ucPibSize : UInt8) : Pen :=
  pucMsg |>.byte cmd
    |> word usPibAttrib
    |>.byte ucPibSize
    |> block pvPibValue ucPibSize.toNat

/-- `prime_cl_null_plme_set_request`. -/
def primeClNullPlmeSetRequest : UInt16 → List UInt8 → UInt8 → Pen := setPib pucMsg 0x1d

/-- `prime_cl_null_mlme_set_request`. -/
def primeClNullMlmeSetRequest : UInt16 → List UInt8 → UInt8 → Pen := setPib pucMsg 0x31

/-- `prime_cl_432_establish_request`. -/
def primeCl432EstablishRequest (pucDeviceId : List UInt8) (ucDeviceIdLen : UInt8) : Pen :=
  pucMsg |>.byte 0x33
    |>.byte ucDeviceIdLen
    |> block pucDeviceId ucDeviceIdLen.toNat

/-- `prime_cl_432_dl_data_request`; `pxBuff` is the data of the buffer. -/
def primeCl432DlDataRequest (ucDstLsap ucSrcLsap : UInt8) (usDstAddress : UInt16)
    (pxBuff : List UInt8) (usLsduLen : UInt16) (ucLinkClass : UInt8) : Pen :=
  pucMsg |>.byte 0x37
    |>.byte ucDstLsap
    |>.byte ucSrcLsap
    |> word usDstAddress
    |> word usLsduLen
    |> block pxBuff usLsduLen.toNat
    |>.byte ucLinkClass

/-- `bmng_fup_set_fw_data_request`. -/
def bmngFupSetFwDataRequest (ucVendorLen : UInt8) (pucVendor : List UInt8)
    (ucModelLen : UInt8) (pucModel : List UInt8) (ucVersionLen : UInt8)
    (pucVersion : List UInt8) : Pen :=
  pucMsg |>.byte 0x3f
    |>.byte ucVendorLen
    |> block pucVendor ucVendorLen.toNat
    |>.byte ucModelLen
    |> block pucModel ucModelLen.toNat
    |>.byte ucVersionLen
    |> block pucVersion ucVersionLen.toNat

/-- `bmng_fup_data_frame_request`. -/
def bmngFupDataFrameRequest (usFrameNum usLen : UInt16) (pucData : List UInt8) : Pen :=
  pucMsg |>.byte 0x42
    |> word usFrameNum
    |> word usLen
    |> block pucData usLen.toNat

/-- `bmng_pprof_get_request`. -/
def bmngPprofGetRequest (pucEui48 : List UInt8) (usPib : UInt16) (ucIndex : UInt8) : Pen :=
  pucMsg |>.byte 0x50
    |> block pucEui48 6
    |>.byte 0 |>.byte 3
    |> word usPib
    |>.byte ucIndex

/-- `bmng_pprof_set_request`. -/
def bmngPprofSetRequest (pucEui48 : List UInt8) (usPib : UInt16) (ulValue : UInt32) : Pen :=
  pucMsg |>.byte 0x51
    |> block pucEui48 6
    |>.byte 0 |>.byte 6
    |> word usPib
    |>.byte (ulValue >>> 24).toUInt8
    |>.byte ((ulValue >>> 16) &&& 0xff).toUInt8
    |>.byte ((ulValue >>> 8) &&& 0xff).toUInt8
    |>.byte (ulValue &&& 0xff).toUInt8

/-- `bmng_pprof_get_enhanced`; the pointer is not moved over the iterator. -/
def bmngPprofGetEnhanced (pucEui48 : List UInt8) (usPib : UInt16) (ucMaxRecords : UInt8)
    (usIterator : UInt16) : Pen :=
  pucMsg |>.byte 0x54
    |> block pucEui48 6
    |>.byte 0 |>.byte 6
    |>.byte mngpPrimeListqry
    |> word usPib
    |>.byte ucMaxRecords
    |>.memcpy [usIterator.toUInt8, (usIterator >>> 8).toUInt8] 2

end Serial

/-- `prime_api_msg` as every primitive of this module fills it in: the bytes of the buffer up
to the pointer. -/
def primeApiMsg (pucMsg : Pen) : Usi.XUsiCmd where
  fd := -1
  ucPType := Usi.protocolPrimeApi
  pucBuf := pucMsg.mem.slice 0 (UInt16.ofNat pucMsg.pos).toNat
  usLen_lt := by
    rw [Mem.length_slice]
    exact UInt16.toNat_lt _

/-! ## The primitives -/

/-- The request primitives that send data with its length. -/
inductive Primitive where
  | clNullEstablishRequest | clNullEstablishResponse | clNullRedirectResponse
  | clNullJoinRequest | clNullDataRequest | clNullPlmeSetRequest | clNullMlmeSetRequest
  | cl432EstablishRequest | cl432DlDataRequest
  | fupSetFwDataRequest | fupDataFrameRequest
  | pprofGetRequest | pprofSetRequest | pprofGetEnhanced
  deriving DecidableEq, Repr

namespace Primitive

/-- The command in `prime_api_cmd_t`. -/
def cmd : Primitive → UInt8
  | clNullEstablishRequest => 0x01
  | clNullEstablishResponse => 0x04
  | clNullRedirectResponse => 0x3c
  | clNullJoinRequest => 0x09
  | clNullDataRequest => 0x10
  | clNullPlmeSetRequest => 0x1d
  | clNullMlmeSetRequest => 0x31
  | cl432EstablishRequest => 0x33
  | cl432DlDataRequest => 0x37
  | fupSetFwDataRequest => 0x3f
  | fupDataFrameRequest => 0x42
  | pprofGetRequest => 0x50
  | pprofSetRequest => 0x51
  | pprofGetEnhanced => 0x54

/-- The primitives. -/
def all : List Primitive :=
  [clNullEstablishRequest, clNullEstablishResponse, clNullRedirectResponse, clNullJoinRequest,
    clNullDataRequest, clNullPlmeSetRequest, clNullMlmeSetRequest, cl432EstablishRequest,
    cl432DlDataRequest, fupSetFwDataRequest, fupDataFrameRequest, pprofGetRequest,
    pprofSetRequest, pprofGetEnhanced]

/-- A command belongs to one primitive only. -/
theorem cmd_injective : Function.Injective cmd := by
  have hfind (p : Primitive) : (all.find? fun q => q.cmd = p.cmd) = some p := by
    cases p <;> rfl
  intro p q h
  have hp := hfind p
  rw [h, hfind q] at hp
  exact (Option.some.inj hp).symm

/-- What follows the command. -/
def layout : Primitive → List Item
  | clNullEstablishRequest => [.block lenIdEui48, .byte, .data16, .byte, .byte]
  | clNullEstablishResponse => [.word, .byte, .data16]
  | clNullRedirectResponse => [.word, .block lenIdEui48, .data16]
  | clNullJoinRequest => [.byte, .word, .block lenIdEui48, .byte, .data16]
  | clNullDataRequest => [.word, .data16, .byte]
  | clNullPlmeSetRequest | clNullMlmeSetRequest => [.word, .data8]
  | cl432EstablishRequest => [.data8]
  | cl432DlDataRequest => [.byte, .byte, .word, .data16, .byte]
  | fupSetFwDataRequest => [.data8, .data8, .data8]
  | fupDataFrameRequest => [.word, .data16]
  | pprofGetRequest | pprofSetRequest | pprofGetEnhanced => [.block lenIdEui48, .data16]

/-- The arguments of a call, where a pointer and a length stand for the bytes they are of. -/
@[reducible] def Args : Primitive → Type
  | clNullEstablishRequest => Values [.block lenIdEui48, .byte, .data16, .byte, .byte]
  | clNullEstablishResponse => Values [.word, .byte, .data16]
  | clNullRedirectResponse => Values [.word, .block lenIdEui48, .data16]
  | clNullJoinRequest => Values [.byte, .word, .block lenIdEui48, .byte, .data16]
  | clNullDataRequest => Values [.word, .data16, .byte]
  | clNullPlmeSetRequest | clNullMlmeSetRequest => Values [.word, .data8]
  | cl432EstablishRequest => Values [.data8]
  | cl432DlDataRequest => Values [.byte, .byte, .word, .data16, .byte]
  | fupSetFwDataRequest => Values [.data8, .data8, .data8]
  | fupDataFrameRequest => Values [.word, .data16]
  | pprofGetRequest => Values [.block lenIdEui48, .word, .byte]
  | pprofSetRequest => (Item.block lenIdEui48).Value × UInt16 × UInt32
  | pprofGetEnhanced => Values [.block lenIdEui48, .word, .byte, .word]

/-- The call of the source function. -/
def write (pucMsg : Pen) : (p : Primitive) → p.Args → Pen
  | clNullEstablishRequest, (pucEui48, ucType, pucData, ucArq, ucCfbytes, _) =>
      Serial.primeClNullEstablishRequest pucMsg pucEui48.1 ucType pucData.1
        (UInt16.ofNat pucData.1.length) ucArq ucCfbytes
  | clNullEstablishResponse, (usConHandle, ucAnswer, pucData, _) =>
      Serial.primeClNullEstablishResponse pucMsg usConHandle ucAnswer pucData.1
        (UInt16.ofNat pucData.1.length)
  | clNullRedirectResponse, (usConHandle, pucEui48, pucData, _) =>
      Serial.primeClNullRedirectResponse pucMsg usConHandle pucEui48.1 pucData.1
        (UInt16.ofNat pucData.1.length)
  | clNullJoinRequest, (ucBroadcast, usConnHandle, pucEui48, ucConType, pucData, _) =>
      Serial.primeClNullJoinRequest pucMsg ucBroadcast usConnHandle pucEui48.1 ucConType
        pucData.1 (UInt16.ofNat pucData.1.length)
  | clNullDataRequest, (usConHandle, pucData, ucPrio, _) =>
      Serial.primeClNullDataRequest pucMsg usConHandle pucData.1
        (UInt16.ofNat pucData.1.length) ucPrio
  | clNullPlmeSetRequest, (usPibAttrib, pvPibValue, _) =>
      Serial.primeClNullPlmeSetRequest pucMsg usPibAttrib pvPibValue.1
        (UInt8.ofNat pvPibValue.1.length)
  | clNullMlmeSetRequest, (usPibAttrib, pvPibValue, _) =>
      Serial.primeClNullMlmeSetRequest pucMsg usPibAttrib pvPibValue.1
        (UInt8.ofNat pvPibValue.1.length)
  | cl432EstablishRequest, (pucDeviceId, _) =>
      Serial.primeCl432EstablishRequest pucMsg pucDeviceId.1
        (UInt8.ofNat pucDeviceId.1.length)
  | cl432DlDataRequest, (ucDstLsap, ucSrcLsap, usDstAddress, pxBuff, ucLinkClass, _) =>
      Serial.primeCl432DlDataRequest pucMsg ucDstLsap ucSrcLsap usDstAddress pxBuff.1
        (UInt16.ofNat pxBuff.1.length) ucLinkClass
  | fupSetFwDataRequest, (pucVendor, pucModel, pucVersion, _) =>
      Serial.bmngFupSetFwDataRequest pucMsg (UInt8.ofNat pucVendor.1.length) pucVendor.1
        (UInt8.ofNat pucModel.1.length) pucModel.1 (UInt8.ofNat pucVersion.1.length)
        pucVersion.1
  | fupDataFrameRequest, (usFrameNum, pucData, _) =>
      Serial.bmngFupDataFrameRequest pucMsg usFrameNum (UInt16.ofNat pucData.1.length)
        pucData.1
  | pprofGetRequest, (pucEui48, usPib, ucIndex, _) =>
      Serial.bmngPprofGetRequest pucMsg pucEui48.1 usPib ucIndex
  | pprofSetRequest, (pucEui48, usPib, ulValue) =>
      Serial.bmngPprofSetRequest pucMsg pucEui48.1 usPib ulValue
  | pprofGetEnhanced, (pucEui48, usPib, ucMaxRecords, usIterator, _) =>
      Serial.bmngPprofGetEnhanced pucMsg pucEui48.1 usPib ucMaxRecords usIterator

/-- The bytes that are passed to `hal_usi_send_cmd`, when `uc_serial_buf` holds `buf`. -/
def sent (p : Primitive) (a : p.Args) (buf : Mem UInt8) : List UInt8 :=
  (primeApiMsg (p.write (.start buf) a)).pucBuf

/-- The serialisation fits `uc_serial_buf`. -/
def Fits (p : Primitive) (a : p.Args) (buf : Mem UInt8) : Prop :=
  (p.write (.start buf) a).mem.top ≤ maxLength432Data

instance (p : Primitive) (a : p.Args) (buf : Mem UInt8) : Decidable (p.Fits a buf) :=
  inferInstanceAs (Decidable (_ ≤ _))

/-! ## What is written -/

end Primitive

section Writing

variable {p : Pen} {x : UInt16} {xs : List UInt8} {n : ℕ}

@[simp] theorem Serial.text_word : (Serial.word x p).text = p.text ++ wordBytes x := by
  simp [Serial.word, wordBytes]

@[simp] theorem Serial.text_block (h : xs.length = n) :
    (Serial.block xs n p).text = p.text ++ xs :=
  Pen.text_block_all h

/-! ### Lengths of arguments -/

@[simp] theorem length_block (xs : {xs : List UInt8 // xs.length = n}) : xs.1.length = n := xs.2

@[simp] theorem length8_mod (xs : {xs : List UInt8 // xs.length < 2 ^ 8}) :
    xs.1.length % 256 = xs.1.length := Nat.mod_eq_of_lt xs.2

@[simp] theorem length16_mod (xs : {xs : List UInt8 // xs.length < 2 ^ 16}) :
    xs.1.length % 65536 = xs.1.length := Nat.mod_eq_of_lt xs.2

/-! ### The text has been stored -/

@[simp] theorem Serial.behind_word : (Serial.word x p).Behind := Pen.behind_byte

@[simp] theorem Serial.behind_block (h : p.Behind) (hn : n ≤ xs.length) :
    (Serial.block xs n p).Behind :=
  h.block hn

end Writing

namespace Primitive

variable {p : Primitive} {a : p.Args} {pucMsg : Pen} {buf : Mem UInt8}

/-- The four bytes of a value. -/
def dwordBytes (x : UInt32) : List UInt8 :=
  [(x >>> 24).toUInt8, ((x >>> 16) &&& 0xff).toUInt8, ((x >>> 8) &&& 0xff).toUInt8,
    (x &&& 0xff).toUInt8]

/-- The values of the fields for the arguments of a call. -/
def values : (p : Primitive) → p.Args → Values p.layout
  | clNullEstablishRequest, a | clNullEstablishResponse, a | clNullRedirectResponse, a
  | clNullJoinRequest, a | clNullDataRequest, a | clNullPlmeSetRequest, a
  | clNullMlmeSetRequest, a | cl432EstablishRequest, a | cl432DlDataRequest, a
  | fupSetFwDataRequest, a | fupDataFrameRequest, a => a
  | pprofGetRequest, (pucEui48, usPib, ucIndex, _) =>
      (pucEui48, ⟨wordBytes usPib ++ [ucIndex], by simp⟩, ())
  | pprofSetRequest, (pucEui48, usPib, ulValue) =>
      (pucEui48, ⟨wordBytes usPib ++ dwordBytes ulValue, by simp [dwordBytes]⟩, ())
  | pprofGetEnhanced, (pucEui48, usPib, ucMaxRecords, usIterator, _) =>
      (pucEui48, ⟨Serial.mngpPrimeListqry :: wordBytes usPib ++ ucMaxRecords
        :: [usIterator.toUInt8, (usIterator >>> 8).toUInt8], by simp⟩, ())

/-- **Writing.**  All primitives but one write the values of their fields. -/
theorem text_write (hp : p ≠ .pprofGetEnhanced) :
    (p.write pucMsg a).text = pucMsg.text ++ p.cmd :: encode p.layout (p.values a) := by
  have hthree : wordBytes 3 = [0, 3] := rfl
  have hsix : wordBytes 6 = [0, 6] := rfl
  cases p
  case pprofGetEnhanced => exact absurd rfl hp
  case pprofGetRequest | pprofSetRequest =>
    simp [write, Serial.bmngPprofGetRequest, Serial.bmngPprofSetRequest, cmd, layout, values,
      encode, Item.encode, dwordBytes, lenIdEui48, hthree, hsix]
  all_goals
    simp [write, Serial.primeClNullEstablishRequest, Serial.primeClNullEstablishResponse,
      Serial.primeClNullRedirectResponse, Serial.primeClNullJoinRequest,
      Serial.primeClNullDataRequest, Serial.primeClNullPlmeSetRequest,
      Serial.primeClNullMlmeSetRequest, Serial.setPib, Serial.primeCl432EstablishRequest,
      Serial.primeCl432DlDataRequest, Serial.bmngFupSetFwDataRequest,
      Serial.bmngFupDataFrameRequest, cmd, layout, values, encode, Item.encode, lenIdEui48]

/-- The one that is left does not write its iterator. -/
theorem text_write_enhanced (a : pprofGetEnhanced.Args) :
    (pprofGetEnhanced.write pucMsg a).text
      = pucMsg.text ++ pprofGetEnhanced.cmd :: (a.1.1 ++ [0, 6, Serial.mngpPrimeListqry]
        ++ wordBytes a.2.1 ++ [a.2.2.1]) := by
  simp [write, Serial.bmngPprofGetEnhanced, cmd, lenIdEui48]

/-- What is sent has been stored. -/
theorem behind_write : (p.write pucMsg a).Behind := by
  cases p
  all_goals
    simp [write, Serial.primeClNullEstablishRequest, Serial.primeClNullEstablishResponse,
      Serial.primeClNullRedirectResponse, Serial.primeClNullJoinRequest,
      Serial.primeClNullDataRequest, Serial.primeClNullPlmeSetRequest,
      Serial.primeClNullMlmeSetRequest, Serial.setPib, Serial.primeCl432EstablishRequest,
      Serial.primeCl432DlDataRequest, Serial.bmngFupSetFwDataRequest,
      Serial.bmngFupDataFrameRequest, Serial.bmngPprofGetRequest, Serial.bmngPprofSetRequest,
      Serial.bmngPprofGetEnhanced, Pen.behind_byte, Pen.Behind.memcpy]

/-- If the serialisation fits, what has been written is sent. -/
theorem sent_eq_text (h : p.Fits a buf) : p.sent a buf = (p.write (.start buf) a).text := by
  have hpos : (p.write (.start buf) a).pos ≤ maxLength432Data := behind_write.trans h
  change Mem.slice _ 0 (UInt16.ofNat _).toNat = Mem.slice _ 0 _
  rw [UInt16.toNat_ofNat_of_lt' (lt_of_le_of_lt hpos (by decide))]

theorem sent_eq (hp : p ≠ .pprofGetEnhanced) (h : p.Fits a buf) :
    p.sent a buf = p.cmd :: encode p.layout (p.values a) := by
  rw [sent_eq_text h, text_write hp, Pen.text_start, List.nil_append]

theorem sent_enhanced {a : pprofGetEnhanced.Args} (h : pprofGetEnhanced.Fits a buf) :
    pprofGetEnhanced.sent a buf = pprofGetEnhanced.cmd
      :: (a.1.1 ++ [0, 6, Serial.mngpPrimeListqry] ++ wordBytes a.2.1 ++ [a.2.2.1]) := by
  rw [sent_eq_text h, text_write_enhanced, Pen.text_start, List.nil_append]

/-! ## Taking the string apart -/

/-- A value is known by its four bytes. -/
theorem dwordBytes_injective : Function.Injective dwordBytes := by
  intro x y h
  have hx := x.toNat_lt
  have hy := y.toNat_lt
  have hlow (n : ℕ) : n % 256 &&& 255 = n % 256 := by
    rw [Nat.and_two_pow_sub_one_eq_mod (n % 256) 8]
    omega
  simp only [dwordBytes, List.cons.injEq, and_true] at h
  obtain ⟨h3, h2, h1, h0⟩ := h
  replace h3 := congrArg UInt8.toNat h3
  replace h2 := congrArg UInt8.toNat h2
  replace h1 := congrArg UInt8.toNat h1
  replace h0 := congrArg UInt8.toNat h0
  simp [Nat.shiftRight_eq_div_pow, hlow] at h3 h2 h1 h0
  apply UInt32.toNat_inj.mp
  omega

/-- The arguments can be told from the values of the fields. -/
theorem values_injective (hp : p ≠ .pprofGetEnhanced) : Function.Injective p.values := by
  intro a b h
  cases p
  case pprofGetEnhanced => exact absurd rfl hp
  case pprofGetRequest =>
    obtain ⟨heui48, hrest⟩ := Prod.mk.inj h
    obtain ⟨hpib, hindex⟩ := List.append_inj (congrArg Subtype.val (Prod.mk.inj hrest).1) rfl
    exact Prod.ext heui48
      (Prod.ext (wordBytes_injective hpib) (Prod.ext (List.cons.inj hindex).1 rfl))
  case pprofSetRequest =>
    obtain ⟨heui48, hrest⟩ := Prod.mk.inj h
    obtain ⟨hpib, hvalue⟩ := List.append_inj (congrArg Subtype.val (Prod.mk.inj hrest).1) rfl
    exact Prod.ext heui48 (Prod.ext (wordBytes_injective hpib) (dwordBytes_injective hvalue))
  all_goals exact h

/-- After each length stand exactly as many bytes as it says, and no other call of any
primitive sends the same string. -/
structure Recoverable (p : Primitive) (a : p.Args) (buf : Mem UInt8) : Prop where
  laidOut : ∃ v : Values p.layout, p.sent a buf = p.cmd :: encode p.layout v
  unique : ∀ (q : Primitive) (b : q.Args) (buf' : Mem UInt8), q.Fits b buf' →
    q.sent b buf' = p.sent a buf → (⟨q, b⟩ : Sigma Args) = ⟨p, a⟩

/-- The command is sent first. -/
theorem head_sent (h : p.Fits a buf) : (p.sent a buf).head? = some p.cmd := by
  by_cases hp : p = .pprofGetEnhanced
  · subst hp
    rw [sent_enhanced h]
    rfl
  · rw [sent_eq hp h]
    rfl

/-- A string that is laid out tells the arguments. -/
theorem recoverable_of_ne (hp : p ≠ .pprofGetEnhanced) (h : p.Fits a buf) :
    p.Recoverable a buf where
  laidOut := ⟨p.values a, sent_eq hp h⟩
  unique := by
    intro q b buf' hfits hsent
    have hcmd : q.cmd = p.cmd := by
      have hheads := congrArg List.head? hsent
      rw [head_sent hfits, head_sent h] at hheads
      exact Option.some.inj hheads
    obtain rfl := cmd_injective hcmd
    rw [sent_eq hp hfits, sent_eq hp h] at hsent
    rw [values_injective hp (encode_injective (List.cons.inj hsent).2)]

/-- The length in front of an enhanced request announces two bytes more than there are. -/
theorem not_laidOut_enhanced {a : pprofGetEnhanced.Args} (h : pprofGetEnhanced.Fits a buf) :
    ¬ ∃ v : Values pprofGetEnhanced.layout,
      pprofGetEnhanced.sent a buf = pprofGetEnhanced.cmd :: encode _ v := by
  rintro ⟨⟨pucEui48, data, _⟩, hsent⟩
  rw [sent_enhanced h, List.append_assoc, List.append_assoc] at hsent
  have hbytes := (List.cons.inj hsent).2
  obtain ⟨-, hrest⟩ := List.append_inj hbytes (a.1.2.trans pucEui48.2.symm)
  simp only [encode, Item.encode, List.append_nil] at hrest
  have hsplit : ([0, 6] : List UInt8) ++ _ = _ ++ data.1 := hrest
  obtain ⟨hlen, hdata⟩ := List.append_inj hsplit rfl
  -- the data is what is left, four bytes
  have hfour : data.1.length = 4 := by
    rw [← hdata]
    rfl
  rw [hfour] at hlen
  exact absurd hlen (by decide)

end Primitive

/-- **Request layouts.**  For every primitive that sends data with its length, and all
arguments whose serialisation fits the buffer: the string is laid out with its lengths and
tells the arguments, exactly if the primitive is not the enhanced request of the profile. -/
theorem prime_request_recoverable_iff {p : Primitive} {a : p.Args} {buf : Mem UInt8}
    (h : p.Fits a buf) : p.Recoverable a buf ↔ p ≠ .pprofGetEnhanced := by
  constructor
  · rintro hrec rfl
    exact Primitive.not_laidOut_enhanced h hrec.laidOut
  · intro hp
    exact Primitive.recoverable_of_ne hp h

/-- The first page of a list of a node. -/
def firstPage : Primitive.pprofGetEnhanced.Args :=
  (⟨[0x0a, 0x0b, 0x0c, 0x0d, 0x0e, 0x0f], rfl⟩, 0x0052, 8, 0, ())

/-- The page after it. -/
def nextPage : Primitive.pprofGetEnhanced.Args :=
  (⟨[0x0a, 0x0b, 0x0c, 0x0d, 0x0e, 0x0f], rfl⟩, 0x0052, 8, 1, ())

/-- The two requests are the same string. -/
theorem enhanced_iterator_lost :
    ¬ ∀ (p : Primitive) (a : p.Args) (buf : Mem UInt8), p.Fits a buf → p.Recoverable a buf := by
  intro h
  have hrec := h .pprofGetEnhanced firstPage (Mem.init fun _ => 0) (by decide)
  have heq := hrec.unique .pprofGetEnhanced nextPage (Mem.init fun _ => 0) (by decide) (by decide)
  have hargs := eq_of_heq (Sigma.mk.inj heq).2
  exact absurd hargs (by decide)

/-- The rule applies to a data request of the 4-32 layer. -/
theorem dl_data_request_recoverable_iff :
    Primitive.cl432DlDataRequest.Recoverable (1, 16, 0x0005, ⟨[0xaa, 0xbb], by decide⟩, 0, ())
      (Mem.init fun _ => 0) ↔ Primitive.cl432DlDataRequest ≠ .pprofGetEnhanced :=
  prime_request_recoverable_iff (by decide)

end PrimeApi
