/-
# Reading a list response

`_dlmsotcp_mngp_rsp_cb` and `_dlms_mngp_rsp_cb` read a response in the same way: a header,
then as many records as the response says, with the stride that it says.  They look at the
length of the response once, to see that it has four bytes.

Here both are written down as readers, which compute what the callbacks compute and know how
far they have read.
-/
import PlcManager.DlmsEmu
import PlcManager.DlmsotcpNodes

namespace ListResponses

open Read
open Dlmsotcp (mngpPrimeListrsp pibAtml432NodeList mngpPrimeEnhancedListMaxRecords
  serialNumber432Mac pibMacEui48 recordAt recordAddress IsBroadcast)

variable {σ : Type}

/-! ## The reader -/

/-- What an application does with a response. -/
structure Handler (σ : Type) where
  /-- A response with one attribute, read up to its index. -/
  pib (usPibAttrib : UInt16) : σ → Read σ
  /-- A record that is not one of a broadcast connection. -/
  record (usAddress : UInt16) (serialNumber : Vector UInt8 serialNumber432Mac)
    (lenSerialNumber : UInt8) (mac : Vector UInt8 6) : σ → σ
  /-- The list has come to its end. -/
  endQuery : σ → σ
  /-- The list goes on behind this iterator. -/
  nextQuery (usLastIterator : UInt16) : σ → σ

namespace Handler

/-- One record, from `puc_pib_value` on; `us_last_iterator` is the second component. -/
def readRecord (h : Handler σ) (ucRecordLen : UInt8) (x : σ × UInt16) : Read (σ × UInt16) := do
  let usLastIterator ← peekWord 0
  let usAddress ← peekWord 2
  if IsBroadcast usAddress then
    let _ ← field (ucRecordLen.toNat + 2)
    pure (x.1, usLastIterator)
  else
    let serialNumber ← copyAt serialNumber432Mac 4
    let lenSerialNumber ← peek (4 + serialNumber432Mac)
    let mac ← copyAt 6 (4 + serialNumber432Mac + 1)
    let _ ← field (ucRecordLen.toNat + 2)
    pure (h.record usAddress serialNumber lenSerialNumber mac x.1, usLastIterator)

/-- What follows the last record. -/
def after (h : Handler σ) (ucRecords : ℕ) (usLastIterator : UInt16) (s : σ) : σ :=
  if ucRecords = 0 ∨ ucRecords < mngpPrimeEnhancedListMaxRecords then h.endQuery s
  else if usLastIterator = 0xffff then s
  else if usLastIterator &&& 0x8000 ≠ 0 then s
  else h.nextQuery usLastIterator s

/-- A response of `len` bytes, from its third byte on. -/
def readResponse (h : Handler σ) (len : UInt16) (s : σ) : Read σ :=
  if len < 4 then pure s
  else do
    let first ← peek 0
    if first ≠ mngpPrimeListrsp then
      let usPibAttrib ← word
      h.pib usPibAttrib s
    else
      let _ucEnhancedPib ← byte
      let usPibAttrib ← word
      if usPibAttrib = pibAtml432NodeList then
        let ucRecords ← byte
        let ucRecordLen ← byte
        let x ← loop (h.readRecord ucRecordLen) ucRecords.toNat (s, 0xffff)
        pure (h.after ucRecords.toNat x.2 x.1)
      else pure s

end Handler

/-- The query for the next page asks for what comes behind this iterator, its bytes turned
round. -/
def nextIterator (usLastIterator : UInt16) : UInt16 :=
  let next := usLastIterator + 1
  ((next &&& 0xff) <<< 8) + ((next >>> 8) &&& 0xff)

/-- A pointer to the third byte of a response of which nothing has been read. -/
def response (ptrMsg : Mem UInt8) : Cursor := ⟨ptrMsg, 2, 0, true⟩

/-- `_dlmsotcp_mngp_rsp_cb` keeps the EUI48 of the base node. -/
def dlmsotcpHandler : Handler Dlmsotcp.Server where
  pib usPibAttrib w :=
    if usPibAttrib = pibMacEui48 then do
      let mac ← copyAt 6 1
      pure { w with pucMacAddress := w.pucMacAddress.storeList 0 mac.toList }
    else pure w
  record usAddress serialNumber lenSerialNumber mac w :=
    { w with
      core := w.core.setNode usAddress.toNat
        { w.core.xListNodesConnected.cell usAddress.toNat with
          dstAddress := usAddress
          serialNumber := serialNumber
          lenSerialNumber := lenSerialNumber
          mac := mac } }
  endQuery w :=
    if w.pucMacAddress.slice 0 6 = List.replicate 6 0 then
      w.manage [.newMsg Dlmsotcp.mngpPrimeGetqry, .addGetPibQuery pibMacEui48 0,
        .sendMsg w.core.siDlmsoctpAppId]
    else w
  nextQuery usLastIterator w :=
    w.manage [.newMsg Dlmsotcp.mngpPrimeEnPibqry,
      .addGetPibListEnQuery pibAtml432NodeList mngpPrimeEnhancedListMaxRecords
        (nextIterator usLastIterator),
      .sendMsg w.core.siDlmsoctpAppId]

/-- `_dlms_mngp_rsp_cb` takes nothing from a response with one attribute. -/
def dlmsEmuHandler : Handler DlmsEmu.State where
  pib _ s := pure s
  record usAddress serialNumber lenSerialNumber mac s :=
    let s := DlmsEmu.updateMaxIndex usAddress s
    let p := DlmsEmu.sizeofNode * usAddress.toNat
    let nodes := DlmsEmu.storeDstAddress usAddress.toNat usAddress s.sxListNodes
    let nodes := nodes.storeList (p + DlmsEmu.offsetSerialNumber) serialNumber.toList
    let nodes := nodes.store (p + DlmsEmu.offsetLenSerialNumber) lenSerialNumber
    let nodes := nodes.store (p + DlmsEmu.offsetSerialNumber + lenSerialNumber.toNat) 0
    let nodes := nodes.storeList (p + DlmsEmu.offsetMac) mac.toList
    { s with sxListNodes := nodes }
  endQuery := DlmsEmu.startCycle
  nextQuery usLastIterator := DlmsEmu.queryNodesList (nextIterator usLastIterator)

/-- `_dlmsotcp_mngp_rsp_cb`, reading. -/
def dlmsotcpMngpRspCb (len : UInt16) : Dlmsotcp.Server → Read Dlmsotcp.Server :=
  dlmsotcpHandler.readResponse len

/-- `_dlms_mngp_rsp_cb`, reading. -/
def dlmsMngpRspCb (len : UInt16) : DlmsEmu.State → Read DlmsEmu.State :=
  dlmsEmuHandler.readResponse len

/-! ## One record -/

section Record

variable {h : Handler σ} {ptrMsg : Mem UInt8} {ucRecordLen : UInt8} {c : Cursor} {s : σ}
  {x : σ × UInt16} {i p : ℕ}

/-- The bytes that are read of a record: iterator and address, and the rest unless it is one of
a broadcast connection. -/
def recordSize (usAddress : UInt16) : ℕ := if IsBroadcast usAddress then 4 else 27

/-- What a record at the address `p` is taken for. -/
def Handler.storeAt (h : Handler σ) (ptrMsg : Mem UInt8) (p : ℕ) (s : σ) : σ :=
  if IsBroadcast (wordAt ptrMsg (p + 2)) then s
  else
    h.record (wordAt ptrMsg (p + 2)) (Vector.ofFn fun j => ptrMsg.cell (p + 4 + j))
      (ptrMsg.cell (p + 4 + serialNumber432Mac))
      (Vector.ofFn fun j => ptrMsg.cell (p + 4 + serialNumber432Mac + 1 + j)) s

/-- **One record**: what it is taken for, and how far it is read. -/
theorem readRecord_apply : ∃ d, h.readRecord ucRecordLen x c
      = (some (h.storeAt c.mem c.pos x.1, wordAt c.mem c.pos), d)
    ∧ d.mem = c.mem ∧ d.pos = c.pos + (ucRecordLen.toNat + 2)
    ∧ d.extent = max c.extent (c.pos + recordSize (wordAt c.mem (c.pos + 2))) := by
  unfold Handler.readRecord Handler.storeAt recordSize
  rw [peekWord_bind, peekWord_bind]
  dsimp only
  by_cases hcast : IsBroadcast (wordAt c.mem (c.pos + 2))
  · simp only [if_pos hcast, field_bind, pure_apply]
    refine ⟨_, rfl, rfl, rfl, ?_⟩
    dsimp only
    omega
  · simp only [if_neg hcast, copyAt_bind, peek_bind, field_bind, pure_apply]
    refine ⟨_, rfl, rfl, rfl, ?_⟩
    unfold serialNumber432Mac
    dsimp only
    rw [if_neg (by decide), if_neg (by decide)]
    omega

end Record

/-! ## A response -/

section Response

variable {h : Handler σ} {ptrMsg : Mem UInt8} {len : UInt16} {s : σ} {n : ℕ}

/-- The list that a response announces lies inside of its `len` bytes. -/
def HoldsList (ptrMsg : Mem UInt8) (len : ℕ) : Prop :=
  5 ≤ len ∧ (wordAt ptrMsg 3 = pibAtml432NodeList →
    7 ≤ len ∧ ∀ i < (ptrMsg.cell 5).toNat,
      recordAt (ptrMsg.cell 6) i + recordSize (recordAddress ptrMsg i) ≤ len)

instance (ptrMsg : Mem UInt8) (len : ℕ) : Decidable (HoldsList ptrMsg len) :=
  inferInstanceAs (Decidable (_ ∧ (_ → _ ∧ ∀ i < _, _)))

/-- A loop that also remembers something of its last round. -/
theorem forRange_pair {f : ℕ → σ → σ} {last : ℕ → UInt16} {x : UInt16} :
    forRange 0 n (fun i (y : σ × UInt16) => (f i y.1, last i)) (s, x)
      = (forRange 0 n f s, if n = 0 then x else last (n - 1)) := by
  induction n with
  | zero => rfl
  | succ n ih => rw [forRange_succ (Nat.zero_le n), forRange_succ (Nat.zero_le n), ih]; rfl

theorem readResponse_short (hlen : len < 4) :
    h.readResponse len s (response ptrMsg) = (some s, response ptrMsg) := by
  unfold Handler.readResponse
  rw [if_pos hlen]
  rfl

theorem readResponse_pib (hlen : ¬ len < 4) (hfirst : ptrMsg.cell 2 ≠ mngpPrimeListrsp) :
    h.readResponse len s (response ptrMsg) = h.pib (wordAt ptrMsg 2) s ⟨ptrMsg, 4, 4, true⟩ := by
  unfold Handler.readResponse
  rw [if_neg hlen, peek_bind]
  change (if ptrMsg.cell 2 ≠ mngpPrimeListrsp then _ else _ : Read σ) _ = _
  rw [if_pos hfirst]
  rfl

/-- The header of a list response. -/
theorem readResponse_listrsp (hlen : ¬ len < 4) (hfirst : ptrMsg.cell 2 = mngpPrimeListrsp) :
    h.readResponse len s (response ptrMsg)
      = (if wordAt ptrMsg 3 = pibAtml432NodeList then do
          let ucRecords ← byte
          let ucRecordLen ← byte
          let x ← loop (h.readRecord ucRecordLen) ucRecords.toNat (s, 0xffff)
          pure (h.after ucRecords.toNat x.2 x.1)
        else pure s : Read σ) ⟨ptrMsg, 5, 5, true⟩ := by
  unfold Handler.readResponse
  rw [if_neg hlen, peek_bind]
  change (if ptrMsg.cell 2 ≠ mngpPrimeListrsp then _ else _ : Read σ) _ = _
  rw [if_neg (not_not.mpr hfirst), byte_bind, word_bind]
  rfl

theorem readResponse_other (hlen : ¬ len < 4) (hfirst : ptrMsg.cell 2 = mngpPrimeListrsp)
    (hpib : wordAt ptrMsg 3 ≠ pibAtml432NodeList) :
    h.readResponse len s (response ptrMsg) = (some s, ⟨ptrMsg, 5, 5, true⟩) := by
  rw [readResponse_listrsp hlen hfirst, if_neg hpib]
  rfl

/-- The iterator that the loop starts with is not looked at: without a record the list is at
its end. -/
theorem Handler.after_initial {x y : UInt16} :
    h.after n (if n = 0 then x else y) s = h.after n y s := by
  unfold Handler.after
  by_cases hn : n = 0
  · rw [if_pos (.inl hn), if_pos (.inl hn)]
  · rw [if_neg hn]

/-- **A list**: what is computed of it, and how far it is read. -/
theorem readResponse_list (hlen : ¬ len < 4) (hfirst : ptrMsg.cell 2 = mngpPrimeListrsp)
    (hpib : wordAt ptrMsg 3 = pibAtml432NodeList) :
    ∃ d, h.readResponse len s (response ptrMsg)
        = (some (h.after (ptrMsg.cell 5).toNat
            (wordAt ptrMsg (recordAt (ptrMsg.cell 6) ((ptrMsg.cell 5).toNat - 1)))
            (forRange 0 (ptrMsg.cell 5).toNat
              (fun i => h.storeAt ptrMsg (recordAt (ptrMsg.cell 6) i)) s)), d)
      ∧ ∀ b, d.extent ≤ b ↔ 7 ≤ b ∧ ∀ i < (ptrMsg.cell 5).toNat,
          recordAt (ptrMsg.cell 6) i + recordSize (recordAddress ptrMsg i) ≤ b := by
  have hbody : ∀ i (x : σ × UInt16) (d : Cursor), d.mem = ptrMsg →
      d.pos = recordAt (ptrMsg.cell 6) i → ∃ d', h.readRecord (ptrMsg.cell 6) x d
        = (some (h.storeAt ptrMsg (recordAt (ptrMsg.cell 6) i) x.1,
            wordAt ptrMsg (recordAt (ptrMsg.cell 6) i)), d')
        ∧ d'.mem = ptrMsg ∧ d'.pos = recordAt (ptrMsg.cell 6) (i + 1)
        ∧ d'.extent = max d.extent
          (recordAt (ptrMsg.cell 6) i + recordSize (recordAddress ptrMsg i)) := by
    rintro i x d rfl hpos
    obtain ⟨d', hd', hmem, hpos', hextent⟩ :=
      @readRecord_apply σ h (d.mem.cell 6) d x
    rw [hpos] at hd' hpos' hextent
    refine ⟨d', hd', hmem, ?_, hextent⟩
    rw [hpos']
    unfold recordAt
    rw [Nat.add_mul, Nat.one_mul, Nat.add_assoc]
  obtain ⟨d, hd, -, -, hextent⟩ := loop_apply (c := ⟨ptrMsg, 7, 7, true⟩)
    (n := (ptrMsg.cell 5).toNat) hbody (by unfold recordAt; simp) (s, 0xffff)
  refine ⟨d, ?_, hextent⟩
  rw [forRange_pair] at hd
  rw [readResponse_listrsp hlen hfirst, if_pos hpib, byte_bind, byte_bind]
  apply (bind_apply_of hd).trans
  exact congrArg (fun t => (some t, d)) Handler.after_initial

/-- **How far a response is read.** -/
theorem extent_readResponse_le_iff :
    (h.readResponse len s (response ptrMsg)).2.extent ≤ len.toNat
      ↔ len < 4 ∨ if ptrMsg.cell 2 = mngpPrimeListrsp then HoldsList ptrMsg len.toNat
        else (h.pib (wordAt ptrMsg 2) s ⟨ptrMsg, 4, 4, true⟩).2.extent ≤ len.toNat := by
  by_cases hlen : len < 4
  · rw [readResponse_short hlen]
    exact iff_of_true (Nat.zero_le _) (.inl hlen)
  rw [or_iff_right hlen]
  by_cases hfirst : ptrMsg.cell 2 = mngpPrimeListrsp
  · rw [if_pos hfirst]
    unfold HoldsList
    by_cases hpib : wordAt ptrMsg 3 = pibAtml432NodeList
    · obtain ⟨d, hd, hextent⟩ := readResponse_list (h := h) (s := s) hlen hfirst hpib
      rw [hd, hextent]
      constructor
      · intro hinside
        exact ⟨by omega, fun _ => hinside⟩
      · rintro ⟨-, hinside⟩
        exact hinside hpib
    · rw [readResponse_other hlen hfirst hpib]
      constructor
      · intro hfive
        exact ⟨hfive, fun h => absurd h hpib⟩
      · rintro ⟨hfive, -⟩
        exact hfive
  · rw [if_neg hfirst, readResponse_pib hlen hfirst]

end Response

/-! ## The callbacks -/

section Callbacks

variable {ptrMsg : Mem UInt8} {len : UInt16} {w : Dlmsotcp.Server} {s : DlmsEmu.State} {p n : ℕ}

/-- A record is stored as `_dlmsotcp_mngp_rsp_cb` stores it. -/
theorem dlmsotcp_storeAt {i : ℕ} :
    dlmsotcpHandler.storeAt ptrMsg (recordAt (ptrMsg.cell 6) i) w
      = { w with core := Dlmsotcp.storeRecord ptrMsg i w.core } := by
  rw [Dlmsotcp.storeRecord_eq]
  unfold Handler.storeAt
  by_cases hcast : IsBroadcast (recordAddress ptrMsg i)
  · rw [if_pos hcast]
    exact if_pos hcast
  · rw [if_neg hcast]
    exact if_neg hcast

theorem dlmsotcp_listRecords : forRange 0 n
      (fun i => dlmsotcpHandler.storeAt ptrMsg (recordAt (ptrMsg.cell 6) i)) w
    = { w with core := forRange 0 n (Dlmsotcp.storeRecord ptrMsg) w.core } := by
  induction n with
  | zero => rfl
  | succ n ih =>
      rw [forRange_succ (Nat.zero_le n), forRange_succ (Nat.zero_le n), ih, dlmsotcp_storeAt]

/-- **The reader computes what `_dlmsotcp_mngp_rsp_cb` computes.** -/
theorem dlmsotcpMngpRspCb_fst : (dlmsotcpMngpRspCb len w (response ptrMsg)).1
    = some (Dlmsotcp.dlmsotcpMngpRspCb ptrMsg len w) := by
  unfold dlmsotcpMngpRspCb Dlmsotcp.dlmsotcpMngpRspCb
  by_cases hlen : len < 4
  · rw [readResponse_short hlen, if_pos hlen]
  rw [if_neg hlen]
  by_cases hfirst : ptrMsg.cell 2 = mngpPrimeListrsp
  · rw [if_neg (not_not.mpr hfirst)]
    by_cases hpib : wordAt ptrMsg 3 = pibAtml432NodeList
    · obtain ⟨d, hd, -⟩ := readResponse_list (h := dlmsotcpHandler) (s := w) hlen hfirst hpib
      rw [hd, if_pos hpib, dlmsotcp_listRecords]
      rfl
    · rw [readResponse_other hlen hfirst hpib, if_neg hpib]
  · rw [readResponse_pib hlen hfirst, if_pos hfirst]
    unfold dlmsotcpHandler
    dsimp only
    by_cases hmac : wordAt ptrMsg 2 = pibMacEui48
    · rw [if_pos hmac, if_pos hmac, copyAt_bind, ← Mem.toList_ofFn_cell]
      rfl
    · rw [if_neg hmac, if_neg hmac]
      rfl

/-- A record is stored as `_dlms_mngp_rsp_cb` stores it. -/
theorem dlmsEmu_storeAt : dlmsEmuHandler.storeAt ptrMsg p s = DlmsEmu.listRecord ptrMsg p s := by
  unfold Handler.storeAt dlmsEmuHandler DlmsEmu.listRecord
  dsimp only
  rw [Mem.toList_ofFn_cell, Mem.toList_ofFn_cell]
  rfl

theorem dlmsEmu_after {usLastIterator : UInt16} : dlmsEmuHandler.after n usLastIterator s
    = if n = 0 ∨ n < mngpPrimeEnhancedListMaxRecords then DlmsEmu.startCycle s
      else if usLastIterator = 0xffff then s
      else if usLastIterator &&& 0x8000 ≠ 0 then s
      else DlmsEmu.queryNodesList (nextIterator usLastIterator) s := by
  unfold Handler.after dlmsEmuHandler
  with_reducible rfl

/-- **The reader computes what `_dlms_mngp_rsp_cb` computes.** -/
theorem dlmsMngpRspCb_fst : (dlmsMngpRspCb len s (response ptrMsg)).1
    = some (DlmsEmu.dlmsMngpRspCb ptrMsg len s) := by
  unfold dlmsMngpRspCb DlmsEmu.dlmsMngpRspCb
  by_cases hlen : len < 4
  · rw [readResponse_short hlen, if_pos hlen]
  rw [if_neg hlen]
  by_cases hfirst : ptrMsg.cell 2 = DlmsEmu.mngpPrimeListrsp
  · rw [if_neg (not_not.mpr hfirst)]
    by_cases hpib : DlmsEmu.bigEndian ptrMsg 3 = pibAtml432NodeList
    · obtain ⟨d, hd, -⟩ := readResponse_list (h := dlmsEmuHandler) (s := s) hlen hfirst hpib
      have hrecords : (fun i => dlmsEmuHandler.storeAt ptrMsg (recordAt (ptrMsg.cell 6) i))
          = fun i => DlmsEmu.listRecord ptrMsg (DlmsEmu.recordAt (ptrMsg.cell 6) i) := by
        funext i s
        exact dlmsEmu_storeAt
      rw [hd, if_pos hpib, hrecords]
      unfold DlmsEmu.listRecords
      generalize forRange 0 (ptrMsg.cell 5).toNat (fun i => DlmsEmu.listRecord ptrMsg
        (DlmsEmu.recordAt (ptrMsg.cell 6) i)) s = t
      exact congrArg some dlmsEmu_after
    · rw [readResponse_other hlen hfirst hpib, if_neg hpib]
  · rw [readResponse_pib hlen hfirst, if_pos hfirst]
    rfl

end Callbacks

section Inside

variable {ptrMsg : Mem UInt8} {len : UInt16} {w : Dlmsotcp.Server} {s : DlmsEmu.State}

theorem le_toNat_of_not_lt (h : ¬ len < 4) : 4 ≤ len.toNat :=
  UInt16.le_iff_toNat_le.mp (UInt16.not_lt.mp h)

theorem dlmsotcp_inside_iff : (dlmsotcpMngpRspCb len w (response ptrMsg)).2.extent ≤ len.toNat
    ↔ len < 4 ∨ if ptrMsg.cell 2 = mngpPrimeListrsp then HoldsList ptrMsg len.toNat
      else wordAt ptrMsg 2 = pibMacEui48 → 11 ≤ len.toNat := by
  refine extent_readResponse_le_iff.trans (or_congr_right' fun hlen => ?_)
  by_cases hfirst : ptrMsg.cell 2 = mngpPrimeListrsp
  · rw [if_pos hfirst, if_pos hfirst]
  rw [if_neg hfirst, if_neg hfirst]
  unfold dlmsotcpHandler
  dsimp only
  by_cases hmac : wordAt ptrMsg 2 = pibMacEui48
  · rw [if_pos hmac, copyAt_bind]
    constructor
    · intro hinside _
      exact hinside
    · intro hinside
      exact hinside hmac
  · rw [if_neg hmac]
    exact iff_of_true (le_toNat_of_not_lt hlen) fun h => absurd h hmac

theorem dlmsEmu_inside_iff : (dlmsMngpRspCb len s (response ptrMsg)).2.extent ≤ len.toNat
    ↔ len < 4 ∨ (ptrMsg.cell 2 = mngpPrimeListrsp → HoldsList ptrMsg len.toNat) := by
  refine extent_readResponse_le_iff.trans (or_congr_right' fun hlen => ?_)
  by_cases hfirst : ptrMsg.cell 2 = mngpPrimeListrsp
  · rw [if_pos hfirst]
    exact ⟨fun hlist _ => hlist, fun hlist => hlist hfirst⟩
  · rw [if_neg hfirst]
    exact iff_of_true (le_toNat_of_not_lt hlen) fun h => absurd h hfirst

end Inside

/-- **How far the responses are read.**  `_dlmsotcp_mngp_rsp_cb` stays inside of a response
exactly if it has less than four bytes, or is a list response that holds the list that it
announces, or another response, which has eleven bytes if it is the one with the EUI48.
`_dlms_mngp_rsp_cb` stays inside of the same list responses, and of all the others. -/
theorem list_responses_inside_iff (ptrMsg : Mem UInt8) (len : UInt16) (w : Dlmsotcp.Server)
    (s : DlmsEmu.State) :
    ((dlmsotcpMngpRspCb len w (response ptrMsg)).2.extent ≤ len.toNat
        ↔ len < 4 ∨ if ptrMsg.cell 2 = mngpPrimeListrsp then HoldsList ptrMsg len.toNat
          else wordAt ptrMsg 2 = pibMacEui48 → 11 ≤ len.toNat)
      ∧ ((dlmsMngpRspCb len s (response ptrMsg)).2.extent ≤ len.toNat
        ↔ len < 4 ∨ (ptrMsg.cell 2 = mngpPrimeListrsp → HoldsList ptrMsg len.toNat)) :=
  ⟨dlmsotcp_inside_iff, dlmsEmu_inside_iff⟩

/-- A list response of seven bytes announces a record of 25. -/
def announcing : Mem UInt8 := messageOf [0, 0, 0x0f, 0x82, 0x50, 1, 25]

/-- Both callbacks read the record that is not there. -/
theorem announced_record_read : ¬ (∀ (ptrMsg : Mem UInt8) (len : UInt16) (w : Dlmsotcp.Server),
      (dlmsotcpMngpRspCb len w (response ptrMsg)).2.extent ≤ len.toNat)
    ∧ ¬ ∀ (ptrMsg : Mem UInt8) (len : UInt16) (s : DlmsEmu.State),
      (dlmsMngpRspCb len s (response ptrMsg)).2.extent ≤ len.toNat := by
  have hlong : ¬ (7 : UInt16) < 4 := by decide
  have hlist : announcing.cell 2 = mngpPrimeListrsp := rfl
  have hno : ¬ HoldsList announcing 7 := by decide
  constructor
  · intro hclaim
    have hinside := dlmsotcp_inside_iff.mp (hclaim announcing 7
      (Dlmsotcp.serverStarted 3 Dlmsotcp.zeroMemory Dlmsotcp.zeroNodes))
    rw [or_iff_right hlong, if_pos hlist] at hinside
    exact hno hinside
  · intro hclaim
    have hinside := dlmsEmu_inside_iff.mp
      (hclaim announcing 7 (DlmsEmu.started 3 .inOrder fun _ => 0))
    exact hno (hinside.resolve_left hlong hlist)

end ListResponses
