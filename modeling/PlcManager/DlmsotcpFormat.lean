/-
# The format of what the client is sent

Every byte string written to the client is one message, and a NEW_DEVICE notification
gives back what the table says of the node, as long as the stored identifiers are no
longer than their array.  A join cuts the identifier; a list of nodes stores whatever
length the base node sends, and the next answer to command 3 copies as many bytes.
-/
import PlcManager.DlmsotcpNodes
import PlcManager.DlmsotcpSegments

namespace Dlmsotcp

/-! ## Notifications -/

/-- What a NEW_DEVICE notification says of a node. -/
structure Identity where
  deviceId : UInt16
  identifier : List UInt8
  eui48 : List UInt8
  deriving DecidableEq, Repr

/-- What the table says of the node with address `i`. -/
def State.identity (s : State) (i : ℕ) : Identity :=
  let node := s.xListNodesConnected.cell i
  ⟨UInt16.ofNat i, node.serialNumber.toList.take node.lenSerialNumber.toNat, node.mac.toList⟩

/-- A NEW_DEVICE notification as the client reads it: type, device, flags, length of the
identifier, identifier, EUI48. -/
def decodeNew (bytes : List UInt8) : Option Identity :=
  match bytes.drop 8 with
  | kind :: hi :: lo :: _ :: _ :: n :: rest =>
      if kind = 1 ∧ rest.length = n.toNat + 6 then
        some ⟨word hi lo, rest.take n.toNat, rest.drop n.toNat⟩
      else none
  | _ => none

section Notifications

variable {usDstAddress : UInt16} {n : UInt8} {deviceId mac : List UInt8} {nodes : Mem ConnectedNode}
  {i : ℕ}

theorem newDeviceNotification_eq : newDeviceNotification nodes i
    = joinNotification (nodes.cell i).dstAddress (nodes.cell i).lenSerialNumber
        (serialBytes nodes i (nodes.cell i).lenSerialNumber.toNat) (nodes.cell i).mac.toList := rfl

/-- What a notification says after its header. -/
def newDevicePayload (usDstAddress : UInt16) (n : UInt8) (deviceId mac : List UInt8) :
    List UInt8 :=
  1 :: (usDstAddress >>> 8).toUInt8 :: usDstAddress.toUInt8 :: 0 :: 1 :: n :: (deviceId ++ mac)

/-- A length that does not wrap. -/
theorem toNat_add_of_le {k : UInt8} (hk : k ≤ 20) (hn : n ≤ 16) :
    (k + n).toNat = k.toNat + n.toNat := by
  have hk : k.toNat ≤ 20 := UInt8.le_iff_toNat_le.mp hk
  have hn : n.toNat ≤ 16 := UInt8.le_iff_toNat_le.mp hn
  rw [UInt8.toNat_add]
  omega

/-- The length field of a message that has less than 256 bytes. -/
theorem Message.len_eq_word {m : Message} {lo : UInt8} (h : m.payload.length = lo.toNat) :
    m.len = word 0 lo := by
  apply UInt16.toNat_inj.mp
  rw [m.toNat_len, toNat_word, h]
  simp

theorem joinNotification_eq (hn : n ≤ 16) (hid : deviceId.length = n.toNat)
    (hmac : mac.length = 6) : joinNotification usDstAddress n deviceId mac
      = [0, 1, 0, 0, 0, 1, 0, 12 + n] ++ newDevicePayload usDstAddress n deviceId mac := by
  unfold joinNotification
  dsimp only
  rw [List.take_of_length_le]
  · rw [List.append_assoc]
    rfl
  · rw [toNat_add_of_le (by decide) hn]
    simp only [List.length_append, List.length_cons, List.length_nil, hid, hmac]
    have h20 : (20 : UInt8).toNat = 20 := rfl
    omega

theorem length_joinNotification_le :
    (joinNotification usDstAddress n deviceId mac).length ≤ (20 + n).toNat :=
  List.length_take_le _ _

/-- An identifier that fits is sent in one message. -/
theorem joinNotification_encode (hn : n ≤ 16) (hid : deviceId.length = n.toNat)
    (hmac : mac.length = 6) : ∃ m : Message,
      joinNotification usDstAddress n deviceId mac = m.encode := by
  have hle : n.toNat ≤ 16 := UInt8.le_iff_toNat_le.mp hn
  have hlength : (newDevicePayload usDstAddress n deviceId mac).length = (12 + n).toNat := by
    rw [toNat_add_of_le (by decide) hn]
    simp only [newDevicePayload, List.length_cons, List.length_append, hid, hmac]
    have h12 : (12 : UInt8).toNat = 12 := rfl
    omega
  let m : Message := ⟨0, 1, newDevicePayload usDstAddress n deviceId mac, by
    rw [hlength, maxLength432Data]
    exact (12 + n).toNat_lt.trans (by decide)⟩
  refine ⟨m, ?_⟩
  have hlen : m.len = word 0 (12 + n) := m.len_eq_word hlength
  have h0 : ((0 : UInt16) >>> 8).toUInt8 = 0 := by decide
  have h1 : ((1 : UInt16) >>> 8).toUInt8 = 0 := by decide
  rw [joinNotification_eq hn hid hmac, Message.encode, Message.header, hlen, high_word, low_word,
    show m.source = 0 from rfl, show m.dest = 1 from rfl, h0, h1]
  rfl

/-- The client reads back what was sent. -/
theorem decodeNew_joinNotification (hn : n ≤ 16) (hid : deviceId.length = n.toNat)
    (hmac : mac.length = 6) : decodeNew (joinNotification usDstAddress n deviceId mac)
      = some ⟨usDstAddress, deviceId, mac⟩ := by
  rw [joinNotification_eq hn hid hmac]
  change (if (1 : UInt8) = 1 ∧ (deviceId ++ mac).length = n.toNat + 6 then
    some (⟨word (usDstAddress >>> 8).toUInt8 usDstAddress.toUInt8, (deviceId ++ mac).take n.toNat,
      (deviceId ++ mac).drop n.toNat⟩ : Identity) else none) = _
  rw [if_pos ⟨rfl, by rw [List.length_append, hid, hmac]⟩, word_bytes, ← hid, List.take_left,
    List.drop_left]

/-- What a client reads has the length that was sent. -/
theorem length_identifier_of_decodeNew {d : Identity}
    (h : decodeNew (joinNotification usDstAddress n deviceId mac) = some d) :
    d.identifier.length = n.toNat := by
  have hdrop : (joinNotification usDstAddress n deviceId mac).drop 8
      = (newDevicePayload usDstAddress n deviceId mac).take ((20 + n).toNat - 8) := by
    unfold joinNotification
    rw [List.drop_take, List.append_assoc]
    rfl
  unfold decodeNew at h
  rw [hdrop] at h
  obtain hshort | ⟨j, hj⟩ : (20 + n).toNat - 8 < 6 ∨ ∃ j, (20 + n).toNat - 8 = j + 6 := by
    rcases Nat.lt_or_ge ((20 + n).toNat - 8) 6 with hlt | hge
    · exact .inl hlt
    · exact .inr ⟨(20 + n).toNat - 8 - 6, by omega⟩
  · -- less than the fields before the identifier
    generalize (20 + n).toNat - 8 = k at h hshort
    interval_cases k <;> exact absurd h (by simp [newDevicePayload])
  · rw [hj] at h
    change (if (1 : UInt8) = 1 ∧ ((deviceId ++ mac).take j).length = n.toNat + 6 then
      some (⟨_, ((deviceId ++ mac).take j).take n.toNat, _⟩ : Identity) else none) = some d at h
    split_ifs at h with hlen
    obtain rfl := Option.some.inj h
    rw [List.length_take, hlen.2]
    omega

/-- A stored identifier that fits its array. -/
theorem serialBytes_of_le {k : ℕ} (hk : k ≤ serialNumber432Mac) :
    serialBytes nodes i k = (nodes.cell i).serialNumber.toList.take k := by
  have hlength : (nodes.cell i).serialNumber.toList.length = serialNumber432Mac := by simp
  unfold serialBytes
  rw [Mem.slice, List.flatMap_cons, ConnectedNode.image]
  simp only [List.append_assoc]
  change ((nodes.cell i).serialNumber.toList ++ _).take k = _
  rw [List.take_append_of_le_length (by rw [hlength]; exact hk)]

theorem newDeviceNotification_of_le (hn : (nodes.cell i).lenSerialNumber ≤ 16) :
    newDeviceNotification nodes i
      = joinNotification (nodes.cell i).dstAddress (nodes.cell i).lenSerialNumber
          ((nodes.cell i).serialNumber.toList.take (nodes.cell i).lenSerialNumber.toNat)
          (nodes.cell i).mac.toList := by
  rw [newDeviceNotification_eq, serialBytes_of_le (UInt8.le_iff_toNat_le.mp hn)]

theorem leaveNotification_encode : ∃ m : Message, leaveNotification usDstAddress = m.encode := by
  have h0 : ((0 : UInt16) >>> 8).toUInt8 = 0 := by decide
  have h1 : ((1 : UInt16) >>> 8).toUInt8 = 0 := by decide
  let m : Message :=
    ⟨0, 1, [2, (usDstAddress >>> 8).toUInt8, usDstAddress.toUInt8],
      (by decide : 3 < maxLength432Data)⟩
  refine ⟨m, ?_⟩
  have hlen : m.len = word 0 3 := m.len_eq_word rfl
  rw [Message.encode, Message.header, hlen, high_word, low_word, show m.source = 0 from rfl,
    show m.dest = 1 from rfl, h0, h1]
  rfl

theorem dataNotification_encode {ucDstLsap : UInt8} {srcAddress ucLsduLen : UInt16}
    {pucData : Mem UInt8} (hfits : ucLsduLen.toNat + 8 ≤ maxLength432Data) :
    ∃ m : Message, dataNotification ucDstLsap srcAddress pucData ucLsduLen = m.encode := by
  have hlength : (pucData.slice 0 ucLsduLen.toNat).length = ucLsduLen.toNat := Mem.length_slice
  let m : Message := ⟨srcAddress, word 0 ucDstLsap, pucData.slice 0 ucLsduLen.toNat, by
    rw [hlength]; omega⟩
  refine ⟨m, ?_⟩
  have hlen : m.len = ucLsduLen := by
    apply UInt16.toNat_inj.mp
    rw [m.toNat_len]
    exact hlength
  have htotal : (ucLsduLen + 8).toNat = ucLsduLen.toNat + 8 := by
    rw [UInt16.toNat_add]
    unfold maxLength432Data at hfits
    have h8 : (8 : UInt16).toNat = 8 := rfl
    omega
  rw [Message.encode, Message.header, hlen, show m.dest = word 0 ucDstLsap from rfl, high_word,
    low_word, dataNotification, List.take_of_length_le]
  rw [htotal, List.length_append, hlength, Nat.add_comm]
  rfl

end Notifications

/-! ## What is written -/

/-- The bytes are, for `dlmsotcp_RxProcess`, one message, and its length field counts what
follows the header. -/
def IsOneMessage (bytes : List UInt8) : Prop :=
  ∃ m : Message, messages bytes = [m] ∧ bytes.length = 8 + m.len.toNat

/-- Events that write NEW_DEVICE notifications and nothing else. -/
def Announces : ServerEvent → Prop
  | .joinInd .. | .core (.packet ..) => True
  | _ => False

/-- Every byte string that an event writes is one message, and a NEW_DEVICE notification
says what the table says of its node. -/
def WellFormatted (clock : ℕ → ℕ) (e : ServerEvent) (w : Server) : Prop :=
  ∀ w', serverStep clock e w = some w' → ∀ x ∈ w'.core.writes.drop w.core.writes.length,
    IsOneMessage x.2
      ∧ (Announces e → ∃ i, (w'.core.xListNodesConnected.cell i).dstAddress.toNat = i
          ∧ decodeNew x.2 = some (w'.core.identity i))

/-- The data of an indication fits the buffer for the message. -/
def FitsBuffer (e : ServerEvent) (_ : Server) : Prop :=
  match e with
  | .dataInd _ _ _ _ _ ucLsduLen _ => ucLsduLen.toNat + 8 ≤ maxLength432Data
  | _ => True

/-- When the list is sent, no used entry has an identifier longer than its array. -/
def IdentifiersFit (e : ServerEvent) (w : Server) : Prop :=
  match e with
  | .core (.packet fd buf) => 0 < fd → (∃ m ∈ messages buf, m.AsksList) →
      ∀ i, w.core.Connected i → (w.core.xListNodesConnected.cell i).lenSerialNumber ≤ 16
  | _ => True

section Format

variable {clock : ℕ → ℕ} {e : ServerEvent} {w w' : Server} {s t : State} {bytes : List UInt8}
  {i : ℕ}

theorem isOneMessage_encode (h : ∃ m : Message, bytes = m.encode) : IsOneMessage bytes := by
  obtain ⟨m, rfl⟩ := h
  refine ⟨m, ?_, ?_⟩
  · rw [← List.append_nil m.encode, messages_encode, messages_nil]
  · rw [Message.length_encode, m.toNat_len]

/-- What is written to the client is the notification. -/
theorem mem_drop_notifyClient {x : ℤ × List UInt8} (hs : s.writes = t.writes)
    (hx : x ∈ (notifyClient bytes s).writes.drop t.writes.length) : x.2 = bytes := by
  rw [notifyClient_spec.2.2.2, hs, List.drop_left] at hx
  split_ifs at hx
  · rw [List.mem_singleton.mp hx]
  · exact absurd hx List.not_mem_nil

/-- A NEW_DEVICE notification of an entry that fits. -/
theorem identity_spec (hfit : (s.xListNodesConnected.cell i).lenSerialNumber ≤ 16)
    (hown : (s.xListNodesConnected.cell i).dstAddress.toNat = i) :
    IsOneMessage (newDeviceNotification s.xListNodesConnected i)
      ∧ decodeNew (newDeviceNotification s.xListNodesConnected i) = some (s.identity i) := by
  have hlength : ((s.xListNodesConnected.cell i).serialNumber.toList.take
      (s.xListNodesConnected.cell i).lenSerialNumber.toNat).length
        = (s.xListNodesConnected.cell i).lenSerialNumber.toNat := by
    rw [List.length_take, Vector.length_toList]
    exact Nat.min_eq_left (UInt8.le_iff_toNat_le.mp hfit)
  rw [newDeviceNotification_of_le hfit]
  refine ⟨isOneMessage_encode (joinNotification_encode hfit hlength (Vector.length_toList ..)), ?_⟩
  rw [decodeNew_joinNotification hfit hlength (Vector.length_toList ..)]
  unfold State.identity
  rw [show UInt16.ofNat i = (s.xListNodesConnected.cell i).dstAddress by
    rw [← UInt16.ofNat_toNat (x := (s.xListNodesConnected.cell i).dstAddress), hown]]

/-- The count of auto close is not part of what is told of a node. -/
theorem identity_of_entries
    (hentries : SameEntries s.xListNodesConnected t.xListNodesConnected) :
    t.identity i = s.identity i := by
  obtain ⟨count, hcount⟩ := hentries i
  unfold State.identity
  rw [hcount]

theorem toList_ofFn_take {k n : ℕ} {f : Fin k → UInt8} {m : Mem UInt8} (hn : n ≤ k)
    (hf : ∀ j : Fin k, j.val < n → f j = m.cell j) :
    (Vector.ofFn f).toList.take n = m.slice 0 n := by
  apply List.ext_getElem
  · rw [List.length_take, Vector.length_toList, Mem.length_slice, Nat.min_eq_left hn]
  · intro j hj hj'
    rw [Mem.length_slice] at hj'
    rw [List.getElem_take, Vector.getElem_toList, Vector.getElem_ofFn, Mem.getElem_slice,
      hf ⟨j, hj'.trans_le hn⟩ hj', Nat.zero_add]

/-- What a join stores is what it announces. -/
theorem identity_join {pucDeviceId pucMac : Mem UInt8} {n : UInt8} {usDstAddress : UInt16}
    {node : ConnectedNode} (hn : n ≤ 16) :
    (s.setNode usDstAddress.toNat (node.join pucDeviceId n usDstAddress pucMac)).identity
        usDstAddress.toNat
      = ⟨usDstAddress, pucDeviceId.slice 0 n.toNat, pucMac.slice 0 6⟩ := by
  have hmac : (Vector.ofFn fun j : Fin 6 => pucMac.cell j).toList = pucMac.slice 0 6 := by
    rw [← toList_ofFn_take (k := 6) le_rfl fun _ _ => rfl, List.take_of_length_le]
    rw [Vector.length_toList]
  have hid : (Vector.ofFn fun j : Fin serialNumber432Mac =>
      if j.val < n.toNat then pucDeviceId.cell j else node.serialNumber[j]).toList.take n.toNat
        = pucDeviceId.slice 0 n.toNat :=
    toList_ofFn_take (UInt8.le_iff_toNat_le.mp hn) fun j hj => if_pos hj
  unfold State.identity
  rw [State.node_setNode, if_pos rfl]
  unfold ConnectedNode.join
  dsimp only
  rw [hmac, hid, UInt16.ofNat_toNat]

/-- **One packet.**  The answer to command 3 is well formatted exactly when the stored
identifiers fit. -/
theorem packet_wellFormatted_iff {fd : ℤ} {buf : List UInt8} (hown : OwnAddress w.core)
    (hw : serverStep clock (.core (.packet fd buf)) w = some w') :
    WellFormatted clock (.core (.packet fd buf)) w ↔ IdentifiersFit (.core (.packet fd buf)) w := by
  obtain ⟨s, hs, rfl⟩ := Option.map_eq_some_iff.mp hw
  obtain ⟨ws, hshows⟩ := step_packet_shows hs
  have hdrop : s.writes.drop w.core.writes.length = ws := by
    rw [hshows.writes]
    exact List.drop_left
  constructor
  · intro hformat hfd hasks i hi
    obtain ⟨x, hx, nodes, hentries, rfl⟩ := hshows.complete hfd hasks i hi
    obtain ⟨-, hdecode⟩ := hformat _ hw _ (by rw [hdrop]; exact hx)
    obtain ⟨j, -, hj⟩ := hdecode trivial
    -- the length that was sent is the length of a stored identifier
    rw [newDeviceNotification_eq] at hj
    have hlength := length_identifier_of_decodeNew hj
    have hstored : (s.identity j).identifier.length ≤ 16 := by
      unfold State.identity
      rw [List.length_take, Vector.length_toList]
      exact Nat.min_le_right ..
    obtain ⟨count, hcount⟩ := hentries i
    rw [hcount] at hlength
    exact UInt8.le_iff_toNat_le.mpr (hlength.symm.le.trans hstored)
  · intro hfit w'' hw'' x hx
    obtain rfl := Option.some.inj (hw.symm.trans hw'')
    rw [hdrop] at hx
    obtain ⟨hfd, hasks, i, hi, nodes, hentries, rfl⟩ := hshows.lines x hx
    have hsame : SameEntries w.core.xListNodesConnected nodes := hentries
    obtain ⟨hmessage, hdecode⟩ := identity_spec (s := { w.core with xListNodesConnected := nodes })
      (i := i) (by
        obtain ⟨count, hcount⟩ := hsame i
        rw [hcount]
        exact hfit hfd hasks i hi) (by
        rw [hsame.dstAddress]
        exact hown i hi)
    refine ⟨hmessage, fun _ => ⟨i, ?_, ?_⟩⟩
    · rw [hshows.entries.dstAddress]
      exact hown i hi
    · rw [hdecode, identity_of_entries (t := s) (s := w.core) hshows.entries]
      exact congrArg some (identity_of_entries (s := w.core) hsame)

/-- A join announces the node as it has been stored. -/
theorem join_wellFormatted {pucDeviceId pucMac : Mem UInt8} {ucDeviceIdLen : UInt8}
    {usDstAddress : UInt16} :
    WellFormatted clock (.joinInd pucDeviceId ucDeviceIdLen usDstAddress pucMac) w := by
  intro w' hw x hx
  obtain rfl := Option.some.inj hw
  rw [join_core] at hx ⊢
  split_ifs at hx ⊢
  · have hbytes := mem_drop_notifyClient (s := w.core.setNode _ _) (t := w.core) rfl hx
    have hn : joinLength ucDeviceIdLen ≤ 16 := joinLength_le
    have hid : (pucDeviceId.slice 0 (joinLength ucDeviceIdLen).toNat).length
        = (joinLength ucDeviceIdLen).toNat := Mem.length_slice
    rw [hbytes]
    refine ⟨isOneMessage_encode (joinNotification_encode hn hid Mem.length_slice),
      fun _ => ⟨usDstAddress.toNat, ?_, ?_⟩⟩
    · rw [notifyClient_spec.1, State.node_setNode, if_pos rfl]
      rfl
    · rw [decodeNew_joinNotification hn hid Mem.length_slice]
      rw [identity_of_entries (t := notifyClient _ _) (s := w.core.setNode _ _) (by
        rw [notifyClient_spec.1]; exact .refl _), identity_join hn]
  · have hx : x ∈ w.core.writes.drop w.core.writes.length := hx
    rw [List.drop_length] at hx
    exact absurd hx List.not_mem_nil

/-- An event that writes nothing. -/
theorem wellFormatted_of_silent (hw : serverStep clock e w = some w')
    (hwrites : w'.core.writes = w.core.writes) : WellFormatted clock e w := by
  intro w'' hw'' x hx
  obtain rfl := Option.some.inj (hw.symm.trans hw'')
  rw [hwrites, List.drop_length] at hx
  exact absurd hx List.not_mem_nil

/-- An event that tells the client one message, which is no NEW_DEVICE notification. -/
theorem wellFormatted_of_told (hw : serverStep clock e w = some w')
    (hcore : w'.core = notifyClient bytes s) (hwrites : s.writes = w.core.writes)
    (hbytes : IsOneMessage bytes) (hquiet : ¬ Announces e) : WellFormatted clock e w := by
  intro w'' hw'' x hx
  obtain rfl := Option.some.inj (hw.symm.trans hw'')
  rw [hcore] at hx
  rw [mem_drop_notifyClient hwrites hx]
  exact ⟨hbytes, fun h => absurd h hquiet⟩

/-- Data is told as it is, if it fits. -/
theorem dataInd_wellFormatted {ucDstLsap ucSrcLsap ucLinkClass : UInt8}
    {usDstAddress srcAddress ucLsduLen : UInt16} {pucData : Mem UInt8}
    (hfits : FitsBuffer (.dataInd ucDstLsap ucSrcLsap usDstAddress srcAddress pucData ucLsduLen
      ucLinkClass) w) :
    WellFormatted clock (.dataInd ucDstLsap ucSrcLsap usDstAddress srcAddress pucData ucLsduLen
      ucLinkClass) w := by
  by_cases hsome : 0 < ucLsduLen
  · have hcore : (dlmsotcpCl432DlDataIndCb ucDstLsap ucSrcLsap usDstAddress srcAddress pucData
        ucLsduLen ucLinkClass w).core
          = notifyClient (dataNotification ucDstLsap srcAddress pucData ucLsduLen) w.core := by
      unfold dlmsotcpCl432DlDataIndCb
      rw [if_pos hsome]
    exact wellFormatted_of_told rfl hcore rfl
      (isOneMessage_encode (dataNotification_encode hfits)) id
  · apply wellFormatted_of_silent rfl
    unfold dlmsotcpCl432DlDataIndCb
    rw [if_neg hsome]

/-- **One event.**  What is written is well formatted exactly when the identifiers fit. -/
theorem wellFormatted_iff (hown : OwnAddress w.core) (hfits : FitsBuffer e w)
    (hw : serverStep clock e w = some w') :
    WellFormatted clock e w ↔ IdentifiersFit e w := by
  cases e with
  | core e =>
      cases e with
      | packet fd buf => exact packet_wellFormatted_iff hown hw
      | confirm ucDstLsap ucSrcLsap usDst ucTxStatus =>
          refine iff_of_true (wellFormatted_of_silent hw ?_) trivial
          obtain ⟨s, hs, rfl⟩ := Option.map_eq_some_iff.mp hw
          have hs : dlmsotcpCl432DlDataCfmCb clock ucDstLsap ucSrcLsap usDst ucTxStatus w.core
            = some s := hs
          exact (State.SameNodes.confirm hs).writes
  | closed =>
      refine iff_of_true (wellFormatted_of_silent hw ?_) trivial
      obtain rfl := Option.some.inj hw
      dsimp only
      exact lastConnectionClosed_spec.2.1
  | joinInd pucDeviceId ucDeviceIdLen usDstAddress pucMac =>
      exact iff_of_true join_wellFormatted trivial
  | leaveInd usDstAddress =>
      refine iff_of_true (wellFormatted_of_told rfl leave_core ?_
        (isOneMessage_encode leaveNotification_encode) id) trivial
      rfl
  | response ptrMsg len =>
      refine iff_of_true (wellFormatted_of_silent hw ?_) trivial
      obtain rfl := Option.some.inj hw
      rw [response_core]
      split_ifs
      · exact listRecords_spec.2.2
      · rfl
  | dataInd ucDstLsap ucSrcLsap usDst srcAddress pucData ucLsduLen ucLinkClass =>
      exact iff_of_true (dataInd_wellFormatted hfits) trivial

/-- **The format of every write.**  In every run with data that fits the buffer, all that
is written to the client is well formatted exactly when no list is sent while a stored
identifier is longer than its array. -/
theorem dlmsotcp_writes_well_formatted_iff (clock : ℕ → ℕ) (appId : ℤ) (memory : ℕ → XDlmsMsg)
    (behind : ℕ → ConnectedNode) (es : List ServerEvent) (w : Server)
    (hrun : runSteps (serverStep clock) es (serverStarted appId memory behind) = some w)
    (hfits : AlongSteps (serverStep clock) FitsBuffer es (serverStarted appId memory behind)) :
    AlongSteps (serverStep clock) (WellFormatted clock) es (serverStarted appId memory behind)
      ↔ AlongSteps (serverStep clock) IdentifiersFit es
          (serverStarted appId memory behind) := by
  have htaken : AlongSteps (serverStep clock) (fun e w => ∃ w', serverStep clock e w = some w') es
      (serverStarted appId memory behind) :=
    alongSteps_of_run (I := fun _ => True) (fun e w w' _ hw => ⟨⟨w', hw⟩, trivial⟩) trivial hrun
  refine alongSteps_congr_of (I := fun w => OwnAddress w.core) (hfits.and htaken) ?_ ?_
    (ownAddress_started appId memory behind)
  · rintro e w hown ⟨hfits, w', hw⟩
    exact wellFormatted_iff hown hfits hw
  · intro e w w' hown _ _ hw
    exact hown.step hw

end Format

/-! ## A list that is ill formatted -/

/-- A page of the list with node 1, whose identifier is said to have `n` bytes. -/
def listPage (n : UInt8) : Mem UInt8 :=
  messageOf ([0, 3, mngpPrimeListrsp, 0x82, 0x50, 1, 25, 0xff, 0xff, 0, 1]
    ++ List.replicate 16 65 ++ [n, 1, 2, 3, 4, 5, 6])

/-- The page of the list comes from the base node. -/
def pageArrives (n : UInt8) : ServerEvent := .response (listPage n) 34

/-- The concentrator asks for the list. -/
def listAsked : ServerEvent := .core (.packet 5 (encodeAll [listRequest]))

section Examples

variable {clock : ℕ → ℕ} {w : Server} {n : UInt8}

/-- The module that has been asked for the list. -/
def Server.answer (w : Server) (fd : ℤ) : Server :=
  { w with core := answerList { w.core with siDlmsoctpDataFd := fd } }

theorem handleMessage_listRequest {s : State} :
    handleMessage clock listRequest s = some (answerList s) := by
  have hread : readByte listRequest.payload 0 = some 3 := rfl
  unfold handleMessage rxMessage
  rw [if_pos (by decide)]
  unfold customMessage
  rw [hread, Option.bind_some, if_pos rfl]
  unfold answerList
  rfl

theorem step_listAsked : serverStep clock listAsked w = some (w.answer 5) := by
  have hstep : serverStep clock listAsked w
      = (step clock (.packet 5 (encodeAll [listRequest])) w.core).map
          fun s => { w with core := s } := rfl
  rw [hstep, step_encodeAll, runSteps_cons, handleMessage_listRequest, Option.bind_some,
    runSteps_nil, Option.map_some, Server.answer]

theorem Server.writes_answer {fd : ℤ} (hfd : 0 < fd) : (w.answer fd).core.writes
    = w.core.writes ++ listBytes w.core.xListNodesConnected fd := by
  have hwrites := (answerList_spec (s := { w.core with siDlmsoctpDataFd := fd })).2.2.2
  rw [if_pos hfd] at hwrites
  exact hwrites

/-- The page stores node 1. -/
theorem page_core : (dlmsotcpMngpRspCb (listPage n) 34 w).core
    = w.core.setNode 1 ((w.core.xListNodesConnected.cell 1).record (listPage n) 7) := by
  have hrecords : ((listPage n).cell 5).toNat = 0 + 1 := rfl
  have haddress : recordAddress (listPage n) 0 = 1 := rfl
  have hat : recordAt ((listPage n).cell 6) 0 = 7 := rfl
  have hlisted : ¬ IsBroadcast (recordAddress (listPage n) 0) := by
    rw [haddress]
    decide
  rw [response_core, if_pos ⟨by decide, rfl, rfl⟩, listRecords, hrecords,
    forRange_succ le_rfl, forRange_of_le le_rfl, storeRecord_eq, if_neg hlisted, haddress, hat]
  rfl

/-- The run in which the page comes and then the list is asked for. -/
theorem runSteps_page_asked :
    runSteps (serverStep clock) [pageArrives n, listAsked] w
      = some ((dlmsotcpMngpRspCb (listPage n) 34 w).answer 5) := by
  rw [runSteps_cons]
  change (some (dlmsotcpMngpRspCb (listPage n) 34 w)).bind _ = _
  rw [Option.bind_some, runSteps_cons, step_listAsked]
  rfl

/-- An identifier of 240 bytes: what is written is less than a header. -/
theorem dlmsotcp_list_ill_formatted :
    ¬ ∀ (clock : ℕ → ℕ) (appId : ℤ) (memory : ℕ → XDlmsMsg) (behind : ℕ → ConnectedNode)
        (es : List ServerEvent) (w : Server),
      runSteps (serverStep clock) es (serverStarted appId memory behind) = some w →
      AlongSteps (serverStep clock) FitsBuffer es (serverStarted appId memory behind) →
      AlongSteps (serverStep clock) (WellFormatted clock) es
        (serverStarted appId memory behind) := by
  intro h
  let w0 := serverStarted 3 zeroMemory zeroNodes
  let w1 := dlmsotcpMngpRspCb (listPage 240) 34 w0
  obtain ⟨-, hasked⟩ := h (fun _ => 0) 3 zeroMemory zeroNodes [pageArrives 240, listAsked] _
    runSteps_page_asked ⟨trivial, fun _ _ => ⟨trivial, fun _ _ => trivial⟩⟩
  have hformat : WellFormatted (fun _ => 0) listAsked w1 := (hasked w1 rfl).1
  -- the line of the list for node 1
  have hnode : w1.core.xListNodesConnected.cell 1
      = (w0.core.xListNodesConnected.cell 1).record (listPage 240) 7 := by
    rw [page_core, State.node_setNode, if_pos rfl]
  have hmem : ((5, newDeviceNotification w1.core.xListNodesConnected 1) : ℤ × List UInt8)
      ∈ (w1.answer 5).core.writes.drop w1.core.writes.length := by
    rw [Server.writes_answer (by decide), List.drop_left]
    refine List.mem_map_of_mem (List.mem_filter.mpr ⟨List.mem_range.mpr (by decide), ?_⟩)
    rw [hnode]
    rfl
  obtain ⟨⟨m, -, hlength⟩, -⟩ := hformat _ step_listAsked _ hmem
  have hshort : (newDeviceNotification w1.core.xListNodesConnected 1).length ≤ 4 := by
    rw [newDeviceNotification_eq, hnode]
    exact length_joinNotification_le.trans (by decide)
  dsimp only at hlength
  omega

/-- An identifier of 13 bytes: the rule applies to the run, and all is well formatted. -/
theorem dlmsotcp_list_well_formatted :
    AlongSteps (serverStep fun _ => 0) (WellFormatted fun _ => 0) [pageArrives 13, listAsked]
        (serverStarted 3 zeroMemory zeroNodes)
      ↔ AlongSteps (serverStep fun _ => 0) IdentifiersFit [pageArrives 13, listAsked]
        (serverStarted 3 zeroMemory zeroNodes) :=
  dlmsotcp_writes_well_formatted_iff (fun _ => 0) 3 zeroMemory zeroNodes _ _ runSteps_page_asked
    ⟨trivial, fun _ _ => ⟨trivial, fun _ _ => trivial⟩⟩

end Examples

end Dlmsotcp
