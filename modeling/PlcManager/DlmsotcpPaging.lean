/-
# The list of the connected nodes is retrieved in pages

`dlmsotcp_init` asks the base node for the first page of the list of the 4-32 nodes, and
`_dlmsotcp_mngp_rsp_cb` stores the records of a page and asks for the next one.  The queries
are put together by the management layer, which takes their length from the iterator.

The base node is not part of the program: what it answers is an assumption.  The exchange
retrieves its list as the pages of an abstract list are retrieved, whatever else happens that
makes no node join or leave.
-/
import PlcManager.DlmsotcpAutoClose
import PlcManager.MessageLayout
import PlcManager.MngLayer
import PlcManager.Paging

namespace Dlmsotcp

open Layout Read

/-! ## The base node -/

/-- A node in the list of the base node. -/
structure ListedNode where
  iterator : UInt16
  address : UInt16
  serialNumber : Vector UInt8 serialNumber432Mac
  lenSerialNumber : UInt8
  mac : Vector UInt8 6

namespace ListedNode

/-- The place of a node in the list. -/
def key (x : ListedNode) : ℕ := x.iterator.toNat

/-- The record of a node: the iterator, then 25 bytes. -/
def record (x : ListedNode) : List UInt8 :=
  wordBytes x.iterator ++ (wordBytes x.address ++ (x.serialNumber.toList
    ++ ([x.lenSerialNumber] ++ x.mac.toList)))

/-- An entry of the table is about the node. -/
structure Entry (x : ListedNode) (node : ConnectedNode) : Prop where
  dstAddress : node.dstAddress = x.address
  serialNumber : node.serialNumber = x.serialNumber
  lenSerialNumber : node.lenSerialNumber = x.lenSerialNumber
  mac : node.mac = x.mac

/-- The node is stored at its address. -/
def Stored (x : ListedNode) (s : State) : Prop :=
  x.Entry (s.xListNodesConnected.cell x.address.toNat)

end ListedNode

/-- A list that can be retrieved: an iterator for each node, and a place in the table. -/
structure ValidList (nodes : List ListedNode) : Prop where
  iterators : nodes.Pairwise fun x y => x.iterator ≠ y.iterator
  iterator_lt : ∀ x ∈ nodes, x.iterator.toNat < 0x7fff
  addresses : nodes.Pairwise fun x y => x.address ≠ y.address
  address_lt : ∀ x ∈ nodes, x.address.toNat < maxNumNodesConnected

/-- The base node answers the query with this cursor: a header of two bytes, the list
response, the attribute, the number of records and their length, then the records. -/
def IsAnswer (nodes : List ListedNode) (cursor : ℕ) (ptrMsg : Mem UInt8) (len : UInt16) : Prop :=
  ∃ page h1 h0, Paging.IsPage ListedNode.key mngpPrimeEnhancedListMaxRecords nodes cursor page
    ∧ ptrMsg.slice 0 (7 + 27 * page.length)
      = [h1, h0, 0x0f, 0x82, 0x50, UInt8.ofNat page.length, 25] ++ page.flatMap ListedNode.record
    ∧ len.toNat = 7 + 27 * page.length

/-! ## The exchange -/

/-- The memory of a word on a little-endian host. -/
def wordImage (x : UInt16) : Mem UInt8 := messageOf [x.toUInt8, (x >>> 8).toUInt8]

/-- The application id as the layer gets it. -/
def appIdByte (appId : ℤ) : UInt8 := UInt8.ofNat (appId % 256).toNat

/-- A call of the management layer, as the layer sees it. -/
def MngCall.call : MngCall → MngLayer.Call
  | newMsg cmd => .newMsg cmd
  | addGetPibQuery pibAttrib index => .addGetPibQuery pibAttrib index
  | addGetPibListEnQuery pibAttrib maxRecords iterator =>
      .addGetPibListEnQuery pibAttrib (UInt8.ofNat maxRecords) (wordImage iterator)
  | sendMsg appId => .sendMsg (appIdByte appId) .ok

/-- The same for the calls that `dlmsotcp_init` makes. -/
def Output.mngCall : Output → Option MngLayer.Call
  | newMsg cmd => some (.newMsg cmd)
  | addGetPibListEnQuery pibAttrib maxRecords iterator =>
      some (.addGetPibListEnQuery pibAttrib (UInt8.ofNat maxRecords) (wordImage iterator))
  | sendMsg appId => some (.sendMsg (appIdByte appId) .ok)
  | setRspCallback appId => some (.setRspCallback (appIdByte appId) true)
  | _ => none

/-- The cursor of a query for the list of the 4-32 nodes. -/
def listCursor : MngLayer.Output → Option ℕ
  | .sendCmd _ ucPType [qry, pib1, pib0, maxRecords, hi, lo] =>
      if ucPType = mngpPrimeEnPibqry ∧ qry = MngLayer.mngpPrimeListqry
          ∧ word pib1 pib0 = pibAtml432NodeList ∧ maxRecords = 30 then
        some (word hi lo).toNat
      else none
  | _ => none

/-- The last query for the list that the layer has sent since it was in the state `m`. -/
def lastQuery (m m' : MngLayer.State) : Option ℕ :=
  ((m'.trace.drop m.trace.length).filterMap listCursor).getLast?

/-- The server with the management layer below, and the cursor of the query for the list that
has not been answered. -/
structure Exchange where
  server : Server
  layer : MngLayer.State
  asked : Option ℕ

/-- The response callback is called, and the calls that it makes. -/
def Exchange.receive (ptrMsg : Mem UInt8) (len : UInt16) (x : Exchange) : Exchange :=
  let server := dlmsotcpMngpRspCb ptrMsg len x.server
  let calls := (server.mngCalls.drop x.server.mngCalls.length).map MngCall.call
  let layer := MngLayer.runCalls calls x.layer
  ⟨server, layer, lastQuery x.layer layer⟩

/-- What happens in an exchange. -/
inductive ExchangeEvent where
  | answer (ptrMsg : Mem UInt8) (len : UInt16)
  | other (e : ServerEvent)
  /-- Another application uses the management layer. -/
  | layer (e : MngLayer.Event)

/-- The reaction to it. -/
def exchangeStep (clock : ℕ → ℕ) : ExchangeEvent → Exchange → Option Exchange
  | .answer ptrMsg len, x => some (x.receive ptrMsg len)
  | .other e, x => (serverStep clock e x.server).map fun w => { x with server := w }
  | .layer e, x => some { x with layer := MngLayer.step e x.layer }

/-- The exchange that `dlmsotcp_init` starts, whatever was in the layer before. -/
def exchangeStarted (appId : ℤ) (memory : ℕ → XDlmsMsg) (behind : ℕ → ConnectedNode)
    (m : MngLayer.State) : Exchange :=
  let server := serverStarted appId memory behind
  let layer := MngLayer.runCalls (server.core.trace.filterMap Output.mngCall) m
  ⟨server, layer, lastQuery m layer⟩

/-- No node joins or leaves: the client going away makes those leave that are to be closed
automatically.  There is no list that has not been asked for. -/
def NoJoinOrLeave (e : ServerEvent) (w : Server) : Prop :=
  match e with
  | .core _ | .dataInd .. => True
  | .closed => ∀ i, w.core.Connected i → (w.core.xListNodesConnected.cell i).autocloseEnabled ≠ 1
  | .response ptrMsg len => ¬ IsNodeList ptrMsg len
  | .joinInd .. | .leaveInd _ => False

/-- The base node answers the queries for its list, and no node joins or leaves. -/
def BaseNode (nodes : List ListedNode) (e : ExchangeEvent) (x : Exchange) : Prop :=
  match e with
  | .answer ptrMsg len => ∃ cursor, x.asked = some cursor ∧ IsAnswer nodes cursor ptrMsg len
  | .other e => NoJoinOrLeave e x.server
  | .layer _ => True

/-- The number of answers. -/
def answers : List ExchangeEvent → ℕ
  | [] => 0
  | .answer .. :: evs => answers evs + 1
  | .other _ :: evs => answers evs
  | .layer _ :: evs => answers evs

/-! ## The queries -/

section Queries

variable {m : MngLayer.State} {appId : ℤ} {x iterator : UInt16}

/-- A message of one item, as it is sent. -/
theorem trace_send_item {cmd a : UInt8} {item : List UInt8}
    (hlen : item.length < MngLayer.maxLengthTxBuffer) :
    (MngLayer.mngLaySendMsg a .ok
        (MngLayer.addItem cmd item (MngLayer.mngLayNewMsg cmd m)).2).2.trace
      = m.trace ++ [.sendCmd (-1) cmd item] := by
  have hroom : ¬ MngLayer.maxLengthTxBuffer
      ≤ (MngLayer.mngLayNewMsg cmd m).sulNumCharsTxBuff.toNat + item.length := by
    change ¬ _ ≤ 0 + item.length
    omega
  have hnat : (0 + UInt16.ofNat item.length).toNat = item.length := by
    unfold MngLayer.maxLengthTxBuffer at hlen
    rw [UInt16.zero_add, UInt16.toNat_ofNat']
    exact Nat.mod_eq_of_lt (by omega)
  have htype : ¬ (MngLayer.mngLayNewMsg cmd m).sxTxMsgUcPType ≠ cmd := not_not.mpr rfl
  unfold MngLayer.addItem
  rw [if_neg htype, if_neg hroom]
  change m.trace ++ [.sendCmd (-1) cmd ((m.pucBuffTx.storeList 0 item).slice 0
    (0 + UInt16.ofNat item.length).toNat)] = _
  rw [hnat, Mem.slice_storeList]

/-- A query with a short iterator. -/
theorem trace_query (hshort : (iterator.toUInt8 >>> 7) &&& 0x01 = 0) :
    (MngLayer.runCalls ([MngCall.newMsg mngpPrimeEnPibqry, .addGetPibListEnQuery pibAtml432NodeList
        mngpPrimeEnhancedListMaxRecords iterator, .sendMsg appId].map MngCall.call) m).trace
      = m.trace ++ [.sendCmd (-1) mngpPrimeEnPibqry
        [0x0e, 0x82, 0x50, 30, iterator.toUInt8, (iterator >>> 8).toUInt8]] := by
  have hlen : MngLayer.gePibListEnLength (wordImage iterator) = 6 := if_pos hshort
  have hitem : ([MngLayer.mngpPrimeListqry] ++ MngLayer.pibBytes pibAtml432NodeList
      ++ [UInt8.ofNat mngpPrimeEnhancedListMaxRecords]
      ++ (wordImage iterator).slice 0 (MngLayer.gePibListEnLength (wordImage iterator) - 4))
      = [0x0e, 0x82, 0x50, 30, iterator.toUInt8, (iterator >>> 8).toUInt8] := by
    rw [hlen]
    rfl
  rw [← hitem]
  exact trace_send_item (by rw [hitem]; exact show 6 < 512 by decide)

/-- The query for the address of the base node. -/
theorem trace_macQuery :
    (MngLayer.runCalls ([MngCall.newMsg mngpPrimeGetqry, .addGetPibQuery pibMacEui48 0,
        .sendMsg appId].map MngCall.call) m).trace
      = m.trace ++ [.sendCmd (-1) mngpPrimeGetqry [0x81, 0, 0]] :=
  trace_send_item (show 3 < 512 by decide)

/-- The bytes of a word turned round, low byte first, are those of the word, high byte first. -/
theorem turned_bytes (x : UInt16) :
    (((x &&& 0xff) <<< 8) + ((x >>> 8) &&& 0xff)).toUInt8 = (x >>> 8).toUInt8
      ∧ ((((x &&& 0xff) <<< 8) + ((x >>> 8) &&& 0xff)) >>> 8).toUInt8 = x.toUInt8 := by
  have hx := x.toNat_lt
  have hlow : (x &&& 0xff).toNat = x.toNat % 256 := Nat.and_two_pow_sub_one_eq_mod x.toNat 8
  have hhigh : ((x >>> 8) &&& 0xff).toNat = x.toNat / 256 := by
    rw [UInt16.toNat_and, UInt16.toNat_shiftRight]
    change (x.toNat >>> 8) &&& 255 = _
    rw [Nat.shiftRight_eq_div_pow, Nat.and_two_pow_sub_one_eq_mod _ 8]
    omega
  have hturned : (((x &&& 0xff) <<< 8) + ((x >>> 8) &&& 0xff)).toNat
      = x.toNat % 256 * 256 + x.toNat / 256 := by
    rw [UInt16.toNat_add, UInt16.toNat_shiftLeft, hlow, hhigh]
    change ((x.toNat % 256) <<< 8 % 65536 + x.toNat / 256) % 65536 = _
    rw [Nat.shiftLeft_eq]
    omega
  constructor
  · apply UInt8.toNat_inj.mp
    rw [UInt16.toNat_toUInt8, hturned, UInt16.toNat_toUInt8, UInt16.toNat_shiftRight]
    change _ % 256 = (x.toNat >>> 8) % 256
    rw [Nat.shiftRight_eq_div_pow]
    omega
  · apply UInt8.toNat_inj.mp
    rw [UInt16.toNat_toUInt8, UInt16.toNat_shiftRight, hturned, UInt16.toNat_toUInt8]
    change ((x.toNat % 256 * 256 + x.toNat / 256) >>> 8) % 256 = x.toNat % 256
    have hdiv : (x.toNat % 256 * 256 + x.toNat / 256) >>> 8 = x.toNat % 256 := by
      rw [Nat.shiftRight_eq_div_pow]
      change _ / 256 = _
      omega
    rw [hdiv, Nat.mod_mod]

/-- The cursor of a query for the list. -/
theorem listCursor_query {fd : ℤ} {hi lo : UInt8} :
    listCursor (.sendCmd fd mngpPrimeEnPibqry [0x0e, 0x82, 0x50, 30, hi, lo])
      = some (word hi lo).toNat := by
  unfold listCursor
  exact if_pos ⟨rfl, rfl, rfl, rfl⟩

end Queries

/-! ## The pages -/

section Pages

variable {nodes page got : List ListedNode} {ptrMsg : Mem UInt8} {len : UInt16} {p i : ℕ}
  {x : ListedNode} {node : ConnectedNode} {s t : State} {w : Server}

theorem ListedNode.length_record : x.record.length = 27 := by
  unfold record
  simp only [List.length_append, length_wordBytes, Vector.length_toList, List.length_singleton]
  rfl

/-- A slice that is the array gives the array. -/
theorem ofFn_of_slice {n : ℕ} {xs : Vector UInt8 n} (h : ptrMsg.slice p n = xs.toList) :
    (Vector.ofFn fun j : Fin n => ptrMsg.cell (p + j)) = xs :=
  Vector.toList_inj.mp (Mem.toList_ofFn_cell.trans h)

/-- The parts of a record. -/
theorem ListedNode.parts_of_slice (h : ptrMsg.slice p 27 = x.record) :
    wordAt ptrMsg p = x.iterator ∧ wordAt ptrMsg (p + 2) = x.address
      ∧ ptrMsg.slice (p + 4) serialNumber432Mac = x.serialNumber.toList
      ∧ ptrMsg.cell (p + 4 + serialNumber432Mac) = x.lenSerialNumber
      ∧ ptrMsg.slice (p + 4 + serialNumber432Mac + 1) 6 = x.mac.toList := by
  obtain ⟨hiterator, h⟩ := Mem.slice_append h
  obtain ⟨haddress, h⟩ := Mem.slice_append h
  obtain ⟨hserial, h⟩ := Mem.slice_append h
  obtain ⟨hlen, hmac⟩ := Mem.slice_append h
  rw [Vector.length_toList] at hserial hlen hmac
  rw [Vector.length_toList] at hmac
  exact ⟨wordAt_of_slice hiterator, wordAt_of_slice haddress, hserial, (List.cons.inj hlen).1, hmac⟩

/-- What is stored of a record. -/
theorem ListedNode.entry_record (h : ptrMsg.slice p 27 = x.record) :
    x.Entry (node.record ptrMsg p) := by
  obtain ⟨-, haddress, hserial, hlen, hmac⟩ := parts_of_slice h
  exact ⟨haddress, ofFn_of_slice hserial, hlen, ofFn_of_slice hmac⟩

/-- What the callback finds in the answer with a page. -/
structure Found (page : List ListedNode) (ptrMsg : Mem UInt8) (len : UInt16) : Prop where
  isNodeList : IsNodeList ptrMsg len
  records : (ptrMsg.cell 5).toNat = page.length
  recordLen : ptrMsg.cell 6 = 25
  record : ∀ i (hi : i < page.length), ptrMsg.slice (recordAt 25 i) 27 = page[i].record

theorem length_records : (page.flatMap ListedNode.record).length = 27 * page.length := by
  rw [List.length_flatMap]
  simp [ListedNode.length_record, Nat.mul_comm]

/-- The records stand one after the other. -/
theorem slice_records (h : ptrMsg.slice p (27 * page.length) = page.flatMap ListedNode.record) :
    ∀ i (hi : i < page.length), ptrMsg.slice (p + i * 27) 27 = page[i].record := by
  induction page generalizing p with
  | nil => exact fun i hi => absurd hi (Nat.not_lt_zero i)
  | cons y ys ih =>
      rw [List.flatMap_cons] at h
      obtain ⟨hfirst, hrest⟩ := Mem.slice_append h
      rw [ListedNode.length_record] at hfirst hrest
      rw [length_records] at hrest
      intro i hi
      cases i with
      | zero =>
          rw [Nat.zero_mul]
          exact hfirst
      | succ i =>
          have hat := ih hrest i (Nat.lt_of_succ_lt_succ hi)
          rw [show p + (i + 1) * 27 = p + 27 + i * 27 by omega]
          exact hat

theorem IsAnswer.found {cursor : ℕ} (h : IsAnswer nodes cursor ptrMsg len) :
    ∃ page, Paging.IsPage ListedNode.key mngpPrimeEnhancedListMaxRecords nodes cursor page
      ∧ Found page ptrMsg len := by
  obtain ⟨page, h1, h0, hpage, hslice, hlen⟩ := h
  have hsmall : page.length ≤ 30 := by
    rw [hpage.length]
    exact Nat.min_le_left _ _
  obtain ⟨hheader, hrecords⟩ := Mem.slice_append hslice
  rw [length_records] at hrecords
  have hcell (k : ℕ) (hk : k < 7) : ptrMsg.cell (0 + k)
      = ([h1, h0, 0x0f, 0x82, 0x50, UInt8.ofNat page.length, 25] : List UInt8)[k] :=
    Mem.cell_of_slice hheader hk
  refine ⟨page, hpage, ⟨?_, hcell 2 (by omega), ?_⟩, ?_, hcell 6 (by omega), slice_records hrecords⟩
  · rw [UInt16.le_iff_toNat_le, hlen]
    change 4 ≤ _
    omega
  · have h3 := hcell 3 (by omega)
    have h4 := hcell 4 (by omega)
    rw [Nat.zero_add] at h3 h4
    rw [wordAt, h3, h4]
    rfl
  · have h5 := hcell 5 (by omega)
    rw [Nat.zero_add] at h5
    rw [h5]
    exact UInt8.toNat_ofNat_of_lt' (lt_of_le_of_lt hsmall (by decide))

/-- A list that can be retrieved has an answer to every query. -/
theorem exists_isAnswer (h : ValidList nodes) (cursor : ℕ) :
    ∃ ptrMsg len, IsAnswer nodes cursor ptrMsg len := by
  have hkeys : nodes.Pairwise fun x y => x.key ≠ y.key :=
    h.iterators.imp fun hxy heq => hxy (UInt16.toNat_inj.mp heq)
  obtain ⟨page, hpage⟩ : ∃ page,
      Paging.IsPage ListedNode.key mngpPrimeEnhancedListMaxRecords nodes cursor page :=
    Paging.exists_isPage hkeys cursor
  have hsmall : page.length ≤ 30 := by
    rw [hpage.length]
    exact Nat.min_le_left _ _
  set bytes := [0, 0, 0x0f, 0x82, 0x50, UInt8.ofNat page.length, 25]
    ++ page.flatMap ListedNode.record with hbytes
  have hlength : bytes.length = 7 + 27 * page.length := by
    rw [hbytes, List.length_append, length_records]
    rfl
  refine ⟨messageOf bytes, UInt16.ofNat bytes.length, page, 0, 0, hpage, ?_, ?_⟩
  · rw [← hlength]
    apply Mem.slice_eq rfl
    intro k hk
    rw [Nat.zero_add]
    exact List.getD_eq_getElem _ _ hk
  · have hlt : 7 + 27 * page.length < 65536 := by omega
    rw [hlength, UInt16.toNat_ofNat_of_lt' hlt]

/-! ### What is stored -/

theorem ListedNode.Stored.of_entries (h : x.Stored s)
    (hentries : SameEntries s.xListNodesConnected t.xListNodesConnected) : x.Stored t := by
  obtain ⟨count, hcount⟩ := hentries x.address.toNat
  unfold Stored
  rw [hcount]
  exact ⟨h.dstAddress, h.serialNumber, h.lenSerialNumber, h.mac⟩

theorem ListedNode.Stored.of_nodes (h : x.Stored s)
    (hnodes : t.xListNodesConnected = s.xListNodesConnected) : x.Stored t := by
  apply h.of_entries
  rw [hnodes]
  exact .refl _

/-- One record is stored, and what has been stored at other addresses stays. -/
theorem stored_storeRecord (hfound : Found page ptrMsg len) (hi : i < page.length)
    (hlt : page[i].address.toNat < maxNumNodesConnected) :
    page[i].Stored (storeRecord ptrMsg i s)
      ∧ ∀ y : ListedNode, y.address ≠ page[i].address → y.Stored s →
        y.Stored (storeRecord ptrMsg i s) := by
  have hslice := hfound.record i hi
  have haddress : recordAddress ptrMsg i = page[i].address := by
    unfold recordAddress
    rw [hfound.recordLen]
    exact (ListedNode.parts_of_slice hslice).2.1
  have hcast : ¬ IsBroadcast page[i].address := by
    unfold IsBroadcast
    unfold maxNumNodesConnected at hlt
    rw [UInt16.le_iff_toNat_le]
    change ¬ 4094 ≤ _
    omega
  rw [storeRecord_eq, haddress, if_neg hcast, hfound.recordLen]
  constructor
  · unfold ListedNode.Stored
    rw [State.node_setNode, if_pos rfl]
    exact ListedNode.entry_record hslice
  · intro y hy hstored
    unfold ListedNode.Stored
    rw [State.node_setNode, if_neg fun h => hy (UInt16.toNat_inj.mp h)]
    exact hstored

/-- **A page is stored**, and what has been stored before stays. -/
theorem stored_listRecords (hfound : Found page ptrMsg len)
    (haddresses : (got ++ page).Pairwise fun x y => x.address ≠ y.address)
    (hlt : ∀ x ∈ page, x.address.toNat < maxNumNodesConnected) (hgot : ∀ x ∈ got, x.Stored s) :
    ∀ x ∈ got ++ page, x.Stored (listRecords ptrMsg s) := by
  unfold listRecords
  rw [hfound.records]
  have hloop : ∀ x ∈ got ++ page.take page.length,
      x.Stored (forRange 0 page.length (storeRecord ptrMsg) s) := by
    refine forRange_induction (fun n (t : State) => ∀ x ∈ got ++ page.take n, x.Stored t)
      (Nat.zero_le _) (by simpa using hgot) ?_
    intro i t _ hi ht
    obtain ⟨hnew, hold⟩ := stored_storeRecord (s := t) hfound hi (hlt _ (List.getElem_mem hi))
    -- the records up to this one have addresses of their own
    have hsub : ((got ++ page.take i) ++ [page[i]]).Sublist (got ++ page) := by
      rw [List.append_assoc, ← List.take_succ_eq_append_getElem hi]
      exact List.Sublist.append_left (List.take_sublist _ _) _
    have hpairwise := List.pairwise_append.mp (haddresses.sublist hsub)
    rw [List.take_succ_eq_append_getElem hi, ← List.append_assoc]
    intro x hx
    rcases List.mem_append.mp hx with hx | hx
    · exact hold x (hpairwise.2.2 x hx _ (List.mem_singleton.mpr rfl)) (ht x hx)
    · rw [List.mem_singleton.mp hx]
      exact hnew
  rwa [List.take_length] at hloop

/-! ### What is asked for next -/

/-- The iterator after the last one of a page does not wrap round, and is a short one. -/
theorem next_iterator {iterator : UInt16} (h : iterator.toNat < 0x7fff) :
    (iterator + 1).toNat = iterator.toNat + 1 ∧ iterator ≠ 0xffff ∧ iterator &&& 0x8000 = 0
      ∧ (((iterator + 1) >>> 8).toUInt8 >>> 7) &&& 0x01 = 0 := by
  have hnext : (iterator + 1).toNat = iterator.toNat + 1 := by
    rw [UInt16.toNat_add]
    change (_ + 1) % 65536 = _
    omega
  refine ⟨hnext, ?_, ?_, ?_⟩
  · rintro rfl
    exact absurd h (by decide)
  · apply UInt16.toNat_inj.mp
    rw [UInt16.toNat_and]
    change iterator.toNat &&& 2 ^ 15 = 0
    rw [Nat.and_two_pow, Nat.testBit_lt_two_pow (by omega)]
    rfl
  · apply UInt8.toNat_inj.mp
    rw [UInt8.toNat_and, UInt8.toNat_shiftRight, UInt16.toNat_toUInt8, UInt16.toNat_shiftRight,
      hnext]
    change ((((iterator.toNat + 1) >>> 8) % 256) >>> 7) &&& 1 = 0
    rw [Nat.and_one_is_mod, Nat.shiftRight_eq_div_pow, Nat.shiftRight_eq_div_pow]
    have hsmall : (iterator.toNat + 1) / 2 ^ 8 < 128 := by
      rw [Nat.div_lt_iff_lt_mul (by decide)]
      omega
    have hzero : (iterator.toNat + 1) / 2 ^ 8 % 256 / 2 ^ 7 = 0 :=
      Nat.div_eq_of_lt (lt_of_le_of_lt (Nat.mod_le _ _) hsmall)
    rw [hzero]

theorem lastQuery_next {m : MngLayer.State} {appId : ℤ} {iterator : UInt16}
    (h : iterator.toNat < 0x7fff) :
    lastQuery m (MngLayer.runCalls ([MngCall.newMsg mngpPrimeEnPibqry,
        .addGetPibListEnQuery pibAtml432NodeList mngpPrimeEnhancedListMaxRecords
          ((((iterator + 1) &&& 0xff) <<< 8) + (((iterator + 1) >>> 8) &&& 0xff)),
        .sendMsg appId].map MngCall.call) m) = some (iterator.toNat + 1) := by
  obtain ⟨hnext, -, -, hshort⟩ := next_iterator h
  obtain ⟨hhigh, hlow⟩ := turned_bytes (iterator + 1)
  unfold lastQuery
  rw [trace_query (by rwa [hhigh]), List.drop_left, hhigh, hlow,
    List.filterMap_cons_some listCursor_query, word_bytes, hnext]
  rfl

theorem response_list (h : IsNodeList ptrMsg len) : dlmsotcpMngpRspCb ptrMsg len w
    = afterRecords ptrMsg { w with core := listRecords ptrMsg w.core } := by
  obtain ⟨hlen, hlist, hpib⟩ := h
  unfold dlmsotcpMngpRspCb
  rw [if_neg (UInt16.not_lt.mpr hlen), if_neg (not_not.mpr hlist), if_pos hpib]

/-- **What is asked for after a page**: what the retrieval of an abstract list asks for. -/
theorem lastQuery_response (hfound : Found page ptrMsg len)
    (hsmall : page.length ≤ mngpPrimeEnhancedListMaxRecords)
    (hlt : ∀ x ∈ page, x.iterator.toNat < 0x7fff) (m : MngLayer.State) :
    ∃ calls, (dlmsotcpMngpRspCb ptrMsg len w).mngCalls = w.mngCalls ++ calls
      ∧ lastQuery m (MngLayer.runCalls (calls.map MngCall.call) m)
        = Paging.next ListedNode.key mngpPrimeEnhancedListMaxRecords page := by
  rw [response_list hfound.isNodeList]
  unfold afterRecords Paging.next
  dsimp only
  rw [hfound.records]
  by_cases hshort : page.length < mngpPrimeEnhancedListMaxRecords
  · rw [if_pos (.inr hshort), if_pos hshort]
    split_ifs
    · refine ⟨_, rfl, ?_⟩
      unfold lastQuery
      rw [trace_macQuery, List.drop_left]
      rfl
    · refine ⟨[], (List.append_nil _).symm, ?_⟩
      unfold lastQuery
      rw [List.map_nil, show MngLayer.runCalls [] m = m from rfl, List.drop_length]
      rfl
  · have hfull : page.length = 30 := by
      unfold mngpPrimeEnhancedListMaxRecords at hshort hsmall
      omega
    have hlast : wordAt ptrMsg (recordAt (ptrMsg.cell 6) (page.length - 1))
        = page[page.length - 1].iterator := by
      rw [hfound.recordLen]
      exact (ListedNode.parts_of_slice (hfound.record _ (by omega))).1
    have hmem := hlt page[page.length - 1] (List.getElem_mem _)
    obtain ⟨-, hvalid, hbit, -⟩ := next_iterator hmem
    have hno : ¬ (page.length = 0 ∨ page.length < mngpPrimeEnhancedListMaxRecords) := by
      rintro (hzero | hlt)
      · omega
      · exact hshort hlt
    rw [if_neg hno, if_neg hshort, hlast, if_neg hvalid, if_neg (not_not.mpr hbit)]
    refine ⟨_, rfl, ?_⟩
    rw [lastQuery_next hmem, List.getLast?_eq_getElem?, List.getElem?_eq_getElem (by omega)]
    rfl

end Pages

/-! ## The run -/

section Run

variable {nodes : List ListedNode} {clock : ℕ → ℕ} {e : ExchangeEvent} {evs : List ExchangeEvent}
  {x x' : Exchange} {n : ℕ} {w w' : Server} {y : ListedNode}

/-- After `n` answers the nodes received so far are stored, and the open query asks for the
next page. -/
def Exchange.Retrieves (nodes : List ListedNode) (n : ℕ) (x : Exchange) : Prop :=
  ∃ got, Paging.Progress ListedNode.key mngpPrimeEnhancedListMaxRecords nodes n got x.asked
    ∧ ∀ y ∈ got, y.Stored x.server.core

/-- A node stays stored as long as none joins or leaves. -/
theorem ListedNode.Stored.serverStep {e : ServerEvent} (h : y.Stored w.core)
    (he : NoJoinOrLeave e w) (hlt : y.address.toNat < maxNumNodesConnected)
    (hw : serverStep clock e w = some w') : y.Stored w'.core := by
  cases e with
  | core e =>
      obtain ⟨s, hs, rfl⟩ := Option.map_eq_some_iff.mp hw
      exact h.of_entries (step_entries hs)
  | closed =>
      obtain rfl := Option.some.inj hw
      dsimp only
      have hvalid : (w.core.xListNodesConnected.cell y.address.toNat).dstAddress
          ≠ cl432InvalidAddress := by
        rw [h.dstAddress]
        intro heq
        rw [heq] at hlt
        exact absurd hlt (by decide)
      unfold Stored
      rw [lastConnectionClosed_releases.2, if_neg fun hone => he _ ⟨hlt, hvalid⟩ hone.2]
      exact h
  | joinInd | leaveInd => exact he.elim
  | response ptrMsg len =>
      obtain rfl := Option.some.inj hw
      rw [response_core, if_neg he]
      exact h
  | dataInd ucDstLsap ucSrcLsap usDst srcAddress pucData ucLsduLen ucLinkClass =>
      obtain rfl := Option.some.inj hw
      unfold dlmsotcpCl432DlDataIndCb
      split_ifs
      · exact h.of_nodes notifyClient_spec.1
      · exact h

/-- **One event.** -/
theorem Exchange.Retrieves.step (hnodes : ValidList nodes) (h : x.Retrieves nodes n)
    (he : BaseNode nodes e x) (hx : exchangeStep clock e x = some x') :
    x'.Retrieves nodes (n + answers [e]) := by
  obtain ⟨got, hprogress, hstored⟩ := h
  cases e with
  | other e =>
      obtain ⟨w, hw, rfl⟩ := Option.map_eq_some_iff.mp hx
      refine ⟨got, hprogress, fun y hy => ?_⟩
      exact (hstored y hy).serverStep he (hnodes.address_lt y (hprogress.subperm.subset hy)) hw
  | layer e =>
      obtain rfl := Option.some.inj hx
      exact ⟨got, hprogress, hstored⟩
  | answer ptrMsg len =>
      obtain rfl := Option.some.inj hx
      obtain ⟨cursor, hasked, hanswer⟩ := he
      obtain ⟨page, hpage, hfound⟩ := hanswer.found
      rw [hasked] at hprogress
      have hnext := hprogress.answer (by decide) hpage
      have hsubset := hnext.subperm
      -- the received nodes have addresses of their own
      obtain ⟨l, hperm, hsub⟩ := hsubset
      have haddresses : (got ++ page).Pairwise fun x y => x.address ≠ y.address :=
        (hperm.pairwise_iff fun h => h.symm).mp (hnodes.addresses.sublist hsub)
      have hmem : ∀ y ∈ page, y ∈ nodes := fun y hy => (hpage.mem hy).1
      have hsmall : page.length ≤ mngpPrimeEnhancedListMaxRecords := by
        rw [hpage.length]
        exact Nat.min_le_left _ _
      obtain ⟨calls, hcalls, hquery⟩ := lastQuery_response (w := x.server) hfound hsmall
        (fun y hy => hnodes.iterator_lt y (hmem y hy)) x.layer
      refine ⟨got ++ page, ?_, ?_⟩
      · have hreceived : (x.receive ptrMsg len).asked
            = Paging.next ListedNode.key mngpPrimeEnhancedListMaxRecords page := by
          unfold receive
          dsimp only
          rw [hcalls, List.drop_left]
          exact hquery
        rw [hreceived]
        exact hnext
      · have hcore : (x.receive ptrMsg len).server.core = listRecords ptrMsg x.server.core :=
          response_core.trans (if_pos hfound.isNodeList)
        rw [hcore]
        exact stored_listRecords hfound haddresses
          (fun y hy => hnodes.address_lt y (hmem y hy)) hstored

theorem answers_cons : answers (e :: evs) = answers [e] + answers evs := by
  cases e with
  | answer => exact Nat.add_comm _ _
  | other | layer => exact (Nat.zero_add _).symm

/-- **A run.** -/
theorem Exchange.Retrieves.run (hnodes : ValidList nodes) (h : x.Retrieves nodes n)
    (hbase : AlongSteps (exchangeStep clock) (BaseNode nodes) evs x)
    (hrun : runSteps (exchangeStep clock) evs x = some x') :
    x'.Retrieves nodes (n + answers evs) := by
  induction evs generalizing n x with
  | nil =>
      obtain rfl := Option.some.inj hrun
      exact h
  | cons e evs ih =>
      obtain ⟨u, hu, hrest⟩ := Option.bind_eq_some_iff.mp hrun
      rw [answers_cons, ← Nat.add_assoc]
      exact ih (h.step hnodes hbase.1 hu) (hbase.2 u hu) hrest

theorem trace_reserveMemory {n i : ℕ} {s t : State} (h : reserveMemory n i s = some t) :
    t.trace = s.trace := by
  induction n generalizing i s with
  | zero => exact Option.some.inj h ▸ rfl
  | succ n ih =>
      obtain ⟨u, hu, hrest⟩ := Option.bind_eq_some_iff.mp h
      obtain ⟨r, -, rfl⟩ := Option.map_eq_some_iff.mp hu
      have htrace := ih hrest
      exact htrace

/-- The calls of `dlmsotcp_init`. -/
theorem trace_started (appId : ℤ) (memory : ℕ → XDlmsMsg) (behind : ℕ → ConnectedNode) :
    (started appId memory behind).trace
      = [.setCl432Callbacks appId, .setRspCallback appId, .newMsg mngpPrimeEnPibqry,
        .addGetPibListEnQuery pibAtml432NodeList mngpPrimeEnhancedListMaxRecords 0,
        .sendMsg appId] := by
  have hinit := (dlmsotcpInit_spec appId memory behind).1
  unfold dlmsotcpInit at hinit
  obtain ⟨t, ht, hstarted⟩ := Option.map_eq_some_iff.mp hinit
  have htrace := trace_reserveMemory ht
  rw [← hstarted]
  change t.trace ++ _ = _
  rw [htrace]
  rfl

/-- `dlmsotcp_init` asks for the front of the list. -/
theorem asked_exchangeStarted (appId : ℤ) (memory : ℕ → XDlmsMsg) (behind : ℕ → ConnectedNode)
    (m : MngLayer.State) : (exchangeStarted appId memory behind m).asked = some 0 := by
  have hcore : (serverStarted appId memory behind).core = started appId memory behind := rfl
  have hcalls : ((serverStarted appId memory behind).core.trace.filterMap Output.mngCall)
      = .setRspCallback (appIdByte appId) true :: ([MngCall.newMsg mngpPrimeEnPibqry,
        .addGetPibListEnQuery pibAtml432NodeList mngpPrimeEnhancedListMaxRecords 0,
        .sendMsg appId].map MngCall.call) := by
    rw [hcore, trace_started]
    rfl
  have hshort : ((0 : UInt16).toUInt8 >>> 7) &&& 0x01 = 0 := by decide
  have htrace : (MngLayer.mngLaySetRspCallback (appIdByte appId) true m).trace = m.trace := rfl
  unfold exchangeStarted lastQuery
  dsimp only
  rw [hcalls, MngLayer.runCalls, List.foldl_cons]
  change ((List.drop _ (MngLayer.runCalls _ (MngLayer.mngLaySetRspCallback (appIdByte appId) true
    m)).trace).filterMap listCursor).getLast? = _
  rw [trace_query hshort, htrace, List.drop_left]
  rfl

theorem exchangeStarted_retrieves (appId : ℤ) (memory : ℕ → XDlmsMsg) (behind : ℕ → ConnectedNode)
    (m : MngLayer.State) : (exchangeStarted appId memory behind m).Retrieves nodes 0 := by
  refine ⟨[], ?_, fun y hy => absurd hy List.not_mem_nil⟩
  rw [asked_exchangeStarted]
  exact .start

end Run

/-- **The list is retrieved.**  The base node has any list of nodes that can be retrieved and
answers the queries for it, and no node joins or leaves.  Then a query is open exactly as long
as fewer answers have come than the list has pages, the base node has an answer to it, and
when no query is open every node of the list is stored at its address. -/
theorem dlmsotcp_list_retrieved (clock : ℕ → ℕ) (appId : ℤ) (memory : ℕ → XDlmsMsg)
    (behind : ℕ → ConnectedNode) (m : MngLayer.State) {nodes : List ListedNode}
    (hnodes : ValidList nodes) {evs : List ExchangeEvent} {x : Exchange}
    (hbase : AlongSteps (exchangeStep clock) (BaseNode nodes) evs
      (exchangeStarted appId memory behind m))
    (hrun : runSteps (exchangeStep clock) evs (exchangeStarted appId memory behind m) = some x) :
    (x.asked.isSome ↔ answers evs < nodes.length / mngpPrimeEnhancedListMaxRecords + 1)
      ∧ (∀ cursor, x.asked = some cursor → ∃ ptrMsg len, IsAnswer nodes cursor ptrMsg len)
      ∧ (x.asked = none → ∀ y ∈ nodes, y.Stored x.server.core) := by
  have hstart : (exchangeStarted appId memory behind m).Retrieves nodes 0 :=
    exchangeStarted_retrieves appId memory behind m
  obtain ⟨got, hprogress, hstored⟩ := hstart.run hnodes hbase hrun
  rw [Nat.zero_add] at hprogress
  refine ⟨hprogress.isSome_iff (by decide), ?_, ?_⟩
  · intro cursor _
    exact exists_isAnswer hnodes cursor
  · intro hnone y hy
    rw [hnone] at hprogress
    exact hstored y (hprogress.mem_of_none hy)

/-- A node with the iterator and the address `k + 1`, and nothing else. -/
def listedNode (k : ℕ) : ListedNode :=
  ⟨UInt16.ofNat (k + 1), UInt16.ofNat (k + 1), Vector.replicate _ 0, 0, Vector.replicate _ 0⟩

/-- One node more than a page holds. -/
def listedNodes : List ListedNode := (List.range 31).map listedNode

theorem validList_listedNodes : ValidList listedNodes :=
  ⟨by decide +kernel, by decide +kernel, by decide +kernel, by decide +kernel⟩

/-- The list is retrieved with two answers. -/
theorem list_of_two_pages_retrieved : ∃ ptrMsg len ptrMsg' len' x,
    runSteps (exchangeStep fun _ => 0) [.answer ptrMsg len, .answer ptrMsg' len']
        (exchangeStarted 3 zeroMemory zeroNodes (MngLayer.mngLayInit (fun _ => 0) fun _ => false))
      = some x
    ∧ x.asked = none ∧ ∀ y ∈ listedNodes, y.Stored x.server.core := by
  set x0 := exchangeStarted 3 zeroMemory zeroNodes (MngLayer.mngLayInit (fun _ => 0) fun _ => false)
  have hasked : x0.asked = some 0 := asked_exchangeStarted _ _ _ _
  obtain ⟨ptrMsg, len, hfirst⟩ := exists_isAnswer validList_listedNodes 0
  have hbase1 : AlongSteps (exchangeStep fun _ => 0) (BaseNode listedNodes)
      [.answer ptrMsg len] x0 := ⟨⟨0, hasked, hfirst⟩, fun _ _ => trivial⟩
  -- the first page leaves a query open, and there is an answer to it
  obtain ⟨hopen1, hanswer, -⟩ := dlmsotcp_list_retrieved (fun _ => 0) 3 zeroMemory zeroNodes
    (MngLayer.mngLayInit (fun _ => 0) fun _ => false) validList_listedNodes hbase1 rfl
  obtain ⟨cursor, hcursor⟩ := Option.isSome_iff_exists.mp (hopen1.mpr (show 1 < 2 by decide))
  obtain ⟨ptrMsg', len', hsecond⟩ := hanswer cursor hcursor
  have hbase2 : AlongSteps (exchangeStep fun _ => 0) (BaseNode listedNodes)
      [.answer ptrMsg len, .answer ptrMsg' len'] x0 := by
    refine ⟨⟨0, hasked, hfirst⟩, fun x hx => ⟨⟨cursor, ?_, hsecond⟩, fun _ _ => trivial⟩⟩
    obtain rfl := Option.some.inj hx
    exact hcursor
  obtain ⟨hopen2, -, hstored⟩ := dlmsotcp_list_retrieved (fun _ => 0) 3 zeroMemory zeroNodes
    (MngLayer.mngLayInit (fun _ => 0) fun _ => false) validList_listedNodes hbase2 rfl
  have hnone := Option.not_isSome_iff_eq_none.mp fun h =>
    absurd (hopen2.mp h) (show ¬ 2 < 2 by decide)
  exact ⟨ptrMsg, len, ptrMsg', len', _, rfl, hnone, hstored hnone⟩

end Dlmsotcp
