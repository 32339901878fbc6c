/-
# From the line to the concentrator

What becomes of the data that the nodes send.  On the serial line it comes as data indications;
the client is written the messages that they contain, unless the callback of the DLMS module is
not called: an indication goes to the application that was selected last.  As long as what is read
fits the receive buffer, and whatever else happens: the client is written all data, in order and
each once, if and only if each indication finds the DLMS module selected and its client connected.
-/
import PlcManager.DlmsotcpOutputs
import PlcManager.Gateway
import PlcManager.PrimeApiAcceptance

namespace PrimeApi

/-! ## What a message calls -/

/-- Between the two states callbacks for the command `ucCmd` have been called. -/
structure Calls (ucCmd : ℕ) (s t : State) : Prop where
  table : t.sxPrimeApi = s.sxPrimeApi
  adds : ∃ new, t.calls = s.calls ++ new ∧ ∀ c ∈ new, c.cb.cmd.toNat = ucCmd

section Calls

variable {unset : Bool} {cb : Cb} {read : Read (List Arg)} {p : Cursor} {len : UInt16}
  {s t : State} {ptrMsg : Mem UInt8} {k : ℕ}

theorem Calls.of_same (htable : t.sxPrimeApi = s.sxPrimeApi) (hcalls : t.calls = s.calls) :
    Calls k s t := ⟨htable, [], by rw [hcalls, List.append_nil], List.forall_mem_nil _⟩

theorem Calls.refl (k : ℕ) (s : State) : Calls k s s := of_same rfl rfl

theorem Calls.call (h : Calls k s t) (appId : ℕ) (args : List Arg) (hcb : cb.cmd.toNat = k) :
    Calls k s (t.call ⟨appId, cb, args⟩) := by
  obtain ⟨new, hnew, hcmd⟩ := h.adds
  refine ⟨h.table, new ++ [⟨appId, cb, args⟩], ?_, ?_⟩
  · rw [State.call, hnew, List.append_assoc]
  · rw [List.forall_mem_append, List.forall_mem_singleton]
    exact ⟨hcmd, hcb⟩

theorem calls_handleSelected (hcb : cb.cmd.toNat = k) :
    Calls k s (handleSelected unset cb read p s).2 := by
  unfold handleSelected
  split
  · split
    · exact .refl k s
    · exact (Calls.refl k s).call _ _ hcb
  · exact .refl k s

theorem calls_handleAll (hcb : cb.cmd.toNat = k) : Calls k s (handleAll cb read p s).2 := by
  unfold handleAll
  split
  · exact .refl k s
  · refine forRange_invariant (fun t => Calls k s t) (.refl k s) ?_
    intro i t _ _ ht
    split_ifs
    · exact ht.call _ _ hcb
    · exact ht

theorem calls_clNullDataCfm : Calls 0x11 s (clNullDataCfm len p s).2 := by
  unfold clNullDataCfm
  split
  · split
    · exact .refl _ s
    · dsimp only
      split
      · exact (Calls.refl _ s).call _ _ rfl
      · dsimp only
        apply Calls.call
        · exact .of_same rfl rfl
        · rfl
  · exact .refl _ s

/-- **A message calls the callbacks for its command**, and registers none. -/
theorem calls_receivedCmd :
    Calls (ptrMsg.cell 0 &&& 0x7f).toNat s (ifacePrimeApiReceivedCmd ptrMsg len s).2 := by
  unfold ifacePrimeApiReceivedCmd
  dsimp only
  split
  all_goals rename_i hcmd
  all_goals first
    | rw [hcmd]; exact calls_handleSelected rfl
    | rw [hcmd]; exact calls_handleAll rfl
    | rw [hcmd]; exact calls_clNullDataCfm
    | exact .refl _ s

/-- **A data indication** goes to the application that is selected, if it has the length that
it says. -/
theorem calls_dataInd (hcmd : ptrMsg.cell 0 &&& 0x7f = Cb.cl432DlDataInd.cmd) :
    (ifacePrimeApiReceivedCmd ptrMsg len s).2.calls = s.calls ++
      if s.Selected .cl432DlDataInd ∧ (len - 1).toNat = 9 + (Read.wordAt ptrMsg 7).toNat then
        [⟨s.sucPrimeAppIdReq.toNat, .cl432DlDataInd,
          [.u8 (ptrMsg.cell 1), .u8 (ptrMsg.cell 2), .u16 (Read.wordAt ptrMsg 3),
            .u16 (Read.wordAt ptrMsg 5), .bytes (ptrMsg.slice 9 (Read.wordAt ptrMsg 7).toNat),
            .u16 (Read.wordAt ptrMsg 7),
            .u8 (ptrMsg.cell (9 + (Read.wordAt ptrMsg 7).toNat))]⟩]
      else [] := by
  have hread : (Cb.cl432DlDataInd.reader (len - 1) (.start ptrMsg 1)).1
      = if (len - 1).toNat = 9 + (Read.wordAt ptrMsg 7).toNat then
          some [.u8 (ptrMsg.cell 1), .u8 (ptrMsg.cell 2), .u16 (Read.wordAt ptrMsg 3),
            .u16 (Read.wordAt ptrMsg 5), .bytes (ptrMsg.slice 9 (Read.wordAt ptrMsg 7).toNat),
            .u16 (Read.wordAt ptrMsg 7), .u8 (ptrMsg.cell (9 + (Read.wordAt ptrMsg 7).toNat))]
        else none := by
    show (readCl432DlDataInd (len - 1) (.start ptrMsg 1)).1 = _
    rw [readCl432DlDataInd]
    simp only [Read.byte_bind, Read.word_bind, Read.require_bind, Cursor.start]
    split_ifs <;> rfl
  rw [receivedCmd_eq_handler hcmd, handler_selected rfl Cb.noConfusion, handleSelected, hread]
  by_cases hsel : s.Selected .cl432DlDataInd
  · rw [if_pos hsel]
    by_cases hlen : (len - 1).toNat = 9 + (Read.wordAt ptrMsg 7).toNat
    · rw [if_pos hlen, if_pos ⟨hsel, hlen⟩]
      rfl
    · rw [if_neg hlen, if_neg fun h => hlen h.2, List.append_nil]
  · rw [if_neg hsel, if_neg fun h => hsel h.1, List.append_nil]

end Calls

end PrimeApi

namespace Gateway

open Dlmsotcp (IsNote Message Server ServerEvent dataNotification serverStep word)
open SocketHandler (dlmsotcpAppId)
open Usi (Happening HostEvent Upper UsiMsg XUsiCmd)

/-! ## The data of the nodes -/

/-- The message in a data indication: the address that it comes from and the association, with
the data.  There is none in an indication of the base node itself or without data, and none if
it has not the length that it says. -/
def dataOf? : List UInt8 → Option Message
  | cmd :: ucDstLsap :: _ :: _ :: _ :: s1 :: s0 :: l1 :: l0 :: rest =>
      if h : (cmd &&& 0x7f = 0x38 ∧ rest.length = (word l1 l0).toNat + 1)
          ∧ (word s1 s0 ≠ 0 ∧ 0 < (word l1 l0).toNat)
          ∧ (word l1 l0).toNat < Dlmsotcp.maxLength432Data then
        some ⟨word s1 s0, word 0 ucDstLsap, rest.take (word l1 l0).toNat,
          (List.length_take_le _ _).trans_lt h.2.2⟩
      else none
  | _ => none

/-- The message in what is delivered. -/
def uplink? (msg : ℕ × List UInt8) : Option Message :=
  if msg.1 = Usi.usiProtId2idx Usi.protocolPrimeApi then dataOf? msg.2 else none

/-- What is written to the client, but for the notifications of the module itself. -/
def dataWrites (s : Dlmsotcp.State) : List (ℤ × List UInt8) :=
  s.writes.filter fun x => ¬ IsNote x.2

/-- The DLMS module is selected, and there is a client that wants to know. -/
def Forwards (g : State) : Prop :=
  g.board.api.sucPrimeAppIdReq.toNat = dlmsotcpAppId
    ∧ 0 < g.server.core.siDlmsoctpDataFd ∧ g.server.core.iEnableNotifications = true

instance (g : State) : Decidable (Forwards g) := inferInstanceAs (Decidable (_ ∧ _))

/-- What is written for a message that is delivered. -/
def forward (msg : ℕ × List UInt8) (g : State) : List (ℤ × List UInt8) :=
  if Forwards g then
    (uplink? msg).toList.map fun m => (g.server.core.siDlmsoctpDataFd, m.encode)
  else []

section Indication

variable {ptrMsg : Mem UInt8} {bytes : List UInt8} {m : Message}

/-- The bytes of a message are those of the memory that it lies in. -/
theorem exists_fields (hmem : ptrMsg.slice 0 bytes.length = bytes) :
    (bytes.length < 9 ∧ dataOf? bytes = none) ∨ ∃ rest, ptrMsg.slice 9 rest.length = rest
      ∧ bytes = ptrMsg.cell 0 :: ptrMsg.cell 1 :: ptrMsg.cell 2 :: ptrMsg.cell 3
        :: ptrMsg.cell 4 :: ptrMsg.cell 5 :: ptrMsg.cell 6 :: ptrMsg.cell 7 :: ptrMsg.cell 8
        :: rest := by
  rcases bytes with _ | ⟨a0, _ | ⟨a1, _ | ⟨a2, _ | ⟨a3, _ | ⟨a4, _ | ⟨a5, _ | ⟨a6, _ | ⟨a7,
    _ | ⟨a8, rest⟩⟩⟩⟩⟩⟩⟩⟩⟩
  case cons.cons.cons.cons.cons.cons.cons.cons.cons =>
    simp only [List.length_cons, Mem.slice_succ, List.cons.injEq] at hmem
    obtain ⟨rfl, rfl, rfl, rfl, rfl, rfl, rfl, rfl, rfl, hrest⟩ := hmem
    exact Or.inr ⟨rest, hrest, rfl⟩
  all_goals exact Or.inl ⟨by simp only [List.length_cons, List.length_nil]; omega, rfl⟩

/-- An indication of the right length, as the handler reads it. -/
theorem dataOf?_of_length (hmem : ptrMsg.slice 0 bytes.length = bytes)
    (hcmd : ptrMsg.cell 0 &&& 0x7f = 0x38) (hshort : bytes.length < 1024)
    (hlen : bytes.length = 10 + (Read.wordAt ptrMsg 7).toNat) :
    ∃ m : Message, m.source = Read.wordAt ptrMsg 5 ∧ m.dest = word 0 (ptrMsg.cell 1)
      ∧ m.payload = ptrMsg.slice 9 (Read.wordAt ptrMsg 7).toNat
      ∧ dataOf? bytes
        = if m.source ≠ 0 ∧ 0 < (Read.wordAt ptrMsg 7).toNat then some m else none := by
  rcases exists_fields hmem with ⟨hfew, -⟩ | ⟨rest, hrest, rfl⟩
  · omega
  · set n := (Read.wordAt ptrMsg 7).toNat
    simp only [List.length_cons] at hlen hshort
    have hlength : rest.length = n + 1 := by omega
    have hlt : n < Dlmsotcp.maxLength432Data := by
      unfold Dlmsotcp.maxLength432Data
      omega
    have hdata : rest.take n = ptrMsg.slice 9 n := by
      rw [← hrest]
      exact Mem.take_slice (by omega)
    refine ⟨⟨Read.wordAt ptrMsg 5, word 0 (ptrMsg.cell 1), ptrMsg.slice 9 n,
      Mem.length_slice.trans_lt hlt⟩, rfl, rfl, rfl, ?_⟩
    by_cases h : Read.wordAt ptrMsg 5 ≠ 0 ∧ 0 < n
    · rw [if_pos h]
      refine (dif_pos ⟨⟨hcmd, hlength⟩, h, hlt⟩).trans (congrArg some ?_)
      rw [Message.mk.injEq]
      exact ⟨rfl, rfl, hdata⟩
    · rw [if_neg h]
      exact dif_neg fun hall => h hall.2.1

/-- An indication of another length. -/
theorem dataOf?_of_length_ne (hmem : ptrMsg.slice 0 bytes.length = bytes)
    (hlen : bytes.length ≠ 10 + (Read.wordAt ptrMsg 7).toNat) : dataOf? bytes = none := by
  rcases exists_fields hmem with ⟨-, hnone⟩ | ⟨rest, -, rfl⟩
  · exact hnone
  · simp only [List.length_cons] at hlen
    refine dif_neg fun hall => hlen ?_
    rw [hall.1.2]
    exact Nat.add_comm _ 10

/-- Another command. -/
theorem dataOf?_of_command (hmem : ptrMsg.slice 0 bytes.length = bytes)
    (hcmd : ptrMsg.cell 0 &&& 0x7f ≠ 0x38) : dataOf? bytes = none := by
  rcases exists_fields hmem with ⟨-, hnone⟩ | ⟨rest, -, rfl⟩
  · exact hnone
  · exact dif_neg fun hall => hcmd hall.1.1

/-- A message of a node is no notification. -/
theorem isNote_encode_iff : IsNote m.encode ↔ m.source = 0 := by
  constructor
  · rintro ⟨hhigh, hlow⟩
    have hbytes := Dlmsotcp.word_bytes (x := m.source)
    rw [show (m.source >>> 8).toUInt8 = 0 from hhigh, show m.source.toUInt8 = 0 from hlow] at hbytes
    exact hbytes.symm
  · intro h
    constructor
    · show (m.source >>> 8).toUInt8 = 0
      rw [h]
      rfl
    · show m.source.toUInt8 = 0
      rw [h]
      rfl

/-- What is written for data is its message. -/
theorem dataNotification_eq_encode {ucDstLsap : UInt8} {srcAddress ucLsduLen : UInt16}
    {pucData : Mem UInt8} (hsource : m.source = srcAddress) (hdest : m.dest = word 0 ucDstLsap)
    (hpayload : m.payload = pucData.slice 0 ucLsduLen.toNat) :
    dataNotification ucDstLsap srcAddress pucData ucLsduLen = m.encode := by
  have hlen : m.len = ucLsduLen := by
    apply UInt16.toNat_inj.mp
    rw [m.toNat_len, hpayload, Mem.length_slice]
  have hshort := m.length_lt
  rw [hpayload, Mem.length_slice] at hshort
  have htotal : (ucLsduLen + 8).toNat = ucLsduLen.toNat + 8 := by
    rw [UInt16.toNat_add]
    unfold Dlmsotcp.maxLength432Data at hshort
    have h8 : (8 : UInt16).toNat = 8 := rfl
    omega
  rw [Message.encode, Message.header, hlen, hdest, hsource, Dlmsotcp.high_word,
    Dlmsotcp.low_word, dataNotification, List.take_of_length_le]
  · rw [hpayload]
  · rw [htotal, List.length_append, Mem.length_slice, Nat.add_comm]
    rfl

end Indication

/-! ## What the DLMS module writes -/

section Writes

variable {s t : Dlmsotcp.State} {m : Message} {w : Server}

/-- What the module does of itself is no data. -/
theorem dataWrites_of_adds (h : s.Adds t) : dataWrites t = dataWrites s := by
  obtain ⟨outs, htrace, houts⟩ := h
  unfold dataWrites Dlmsotcp.State.writes
  rw [htrace, List.filterMap_append, List.filter_append, List.append_right_eq_self]
  apply List.filter_eq_nil_iff.mpr
  intro x hx
  obtain ⟨out, hout, hwrite⟩ := List.mem_filterMap.mp hx
  cases out with
  | write fd bytes =>
      obtain rfl := Option.some.inj hwrite
      have hnote : IsNote bytes := houts _ hout
      simpa using hnote
  | _ => cases hwrite

theorem dataWrites_notifyClient (bytes : List UInt8) (s : Dlmsotcp.State) :
    dataWrites (Dlmsotcp.notifyClient bytes s) = dataWrites s ++
      if (0 < s.siDlmsoctpDataFd ∧ s.iEnableNotifications = true) ∧ ¬ IsNote bytes then
        [(s.siDlmsoctpDataFd, bytes)] else [] := by
  unfold dataWrites
  rw [Dlmsotcp.notifyClient_spec.2.2.2, List.filter_append]
  by_cases hopen : 0 < s.siDlmsoctpDataFd ∧ s.iEnableNotifications = true
  · by_cases hnote : IsNote bytes
    · simp [hopen, hnote]
    · simp [hopen, hnote]
  · simp [hopen]

/-- **Data of a node** is written as its message. -/
theorem dataWrites_dataInd {ucDstLsap : UInt8} {srcAddress ucLsduLen : UInt16}
    {pucData : Mem UInt8} (ucSrcLsap ucLinkClass : UInt8) (usDstAddress : UInt16)
    (hsource : m.source = srcAddress) (hdest : m.dest = word 0 ucDstLsap)
    (hpayload : m.payload = pucData.slice 0 ucLsduLen.toNat) :
    dataWrites (Dlmsotcp.dlmsotcpCl432DlDataIndCb ucDstLsap ucSrcLsap usDstAddress srcAddress
        pucData ucLsduLen ucLinkClass w).core
      = dataWrites w.core ++
        if (0 < w.core.siDlmsoctpDataFd ∧ w.core.iEnableNotifications = true)
            ∧ m.source ≠ 0 ∧ 0 < ucLsduLen.toNat then
          [(w.core.siDlmsoctpDataFd, m.encode)] else [] := by
  have hpos : 0 < ucLsduLen ↔ 0 < ucLsduLen.toNat := UInt16.lt_iff_toNat_lt
  unfold Dlmsotcp.dlmsotcpCl432DlDataIndCb
  by_cases hdata : 0 < ucLsduLen.toNat
  · rw [if_pos (hpos.mpr hdata)]
    dsimp only
    rw [dataWrites_notifyClient, dataNotification_eq_encode hsource hdest hpayload]
    simp only [isNote_encode_iff, hdata, and_true, ne_eq]
  · rw [if_neg fun h => hdata (hpos.mp h), if_neg fun h => hdata h.2.2, List.append_nil]

end Writes

/-! ## The gateway step by step -/

/-- The gateway with the PRIME API in another state. -/
def State.withApi (g : State) (api : PrimeApi.State) : State :=
  { g with board := { g.board with api := api } }

/-- The DLMS module has registered its callback for the data of the nodes. -/
def Registered (g : State) : Prop :=
  g.board.api.sxPrimeApi dlmsotcpAppId .cl432DlDataInd = true

/-- Between the two states no callback has been registered, and `xs` has been written. -/
structure Writes (g g' : State) (xs : List (ℤ × List UInt8)) : Prop where
  table : g'.board.api.sxPrimeApi = g.board.api.sxPrimeApi
  writes : dataWrites g'.server.core = dataWrites g.server.core ++ xs

/-- The event is no data indication. -/
def Other (e : ServerEvent) : Prop :=
  ∀ a b c d data len link, e ≠ .dataInd a b c d data len link

section Steps

variable {clock : ℕ → ℕ} {g g' g'' : State} {cmds : List XUsiCmd} {e : ServerEvent}
  {es : List ServerEvent} {b : Board} {outs : List Dlmsotcp.Output}
  {xs ys : List (ℤ × List UInt8)} {ptrMsg : Mem UInt8} {bytes : List UInt8}

theorem Writes.of_same (htable : g'.board.api.sxPrimeApi = g.board.api.sxPrimeApi)
    (hserver : g'.server = g.server) : Writes g g' [] :=
  ⟨htable, by rw [hserver, List.append_nil]⟩

theorem Writes.refl (g : State) : Writes g g [] := .of_same rfl rfl

theorem Writes.trans (h : Writes g g' xs) (h' : Writes g' g'' ys) : Writes g g'' (xs ++ ys) := by
  refine ⟨h'.table.trans h.table, ?_⟩
  rw [h'.writes, h.writes, List.append_assoc]

theorem Writes.after (h : Writes g g' []) (h' : Writes g' g'' ys) : Writes g g'' ys :=
  h.trans h'

theorem Writes.registered (h : Writes g g' xs) (hreg : Registered g) : Registered g' := by
  unfold Registered
  rwa [h.table]

/-- Once the module has been started, it registers no callbacks. -/
theorem performAll_table (houts : ∀ out ∈ outs, out.Plain) :
    (b.performAll outs).1.api.sxPrimeApi = b.api.sxPrimeApi := by
  induction outs generalizing b with
  | nil => rfl
  | cons out outs ih =>
      rw [List.forall_mem_cons] at houts
      rw [Board.performAll]
      refine (ih houts.2).trans ?_
      cases out with
      | selectApi | dataRequest | releaseRequest | write | printf => rfl
      | _ => exact houts.1.elim

theorem serve_table (hs : serve clock e g = some (g', cmds)) :
    g'.board.api.sxPrimeApi = g.board.api.sxPrimeApi := by
  obtain ⟨w, hw, heq⟩ := Option.map_eq_some_iff.mp hs
  obtain ⟨rfl, -⟩ := Prod.mk.inj heq
  obtain ⟨outs, htrace, houts⟩ := Dlmsotcp.exists_plain_outputs hw
  dsimp only
  rw [htrace, List.drop_left]
  exact performAll_table houts

/-- Another event. -/
theorem serve_other (he : Other e) (hs : serve clock e g = some (g', cmds)) : Writes g g' [] := by
  refine ⟨serve_table hs, ?_⟩
  obtain ⟨w, hw, heq⟩ := Option.map_eq_some_iff.mp hs
  obtain ⟨rfl, -⟩ := Prod.mk.inj heq
  rw [List.append_nil]
  exact dataWrites_of_adds (.serverStep hw he)

theorem serveAll_other (hes : ∀ e ∈ es, Other e) (hs : serveAll clock es g = some (g', cmds)) :
    Writes g g' [] := by
  induction es generalizing g cmds with
  | nil =>
      obtain ⟨rfl, -⟩ := Prod.mk.inj (Option.some.inj hs)
      exact .refl g
  | cons e es ih =>
      rw [List.forall_mem_cons] at hes
      obtain ⟨⟨g1, cmds1⟩, hfirst, hrest⟩ := Option.bind_eq_some_iff.mp hs
      obtain ⟨⟨g2, cmds2⟩, hlater, heq⟩ := Option.map_eq_some_iff.mp hrest
      obtain ⟨rfl, -⟩ := Prod.mk.inj heq
      exact (serve_other hes.1 hfirst).trans (ih hes.2 hlater)

/-- Only the callback for the data of the nodes is called with data. -/
theorem other_serverEvent {cb : PrimeApi.Cb} {args : List PrimeApi.Arg}
    (hcb : cb ≠ .cl432DlDataInd) (h : serverEvent cb args = some e) : Other e := by
  unfold serverEvent at h
  split at h
  · obtain rfl := Option.some.inj h
    exact fun _ _ _ _ _ _ _ => ServerEvent.noConfusion
  · exact absurd rfl hcb
  · obtain rfl := Option.some.inj h
    exact fun _ _ _ _ _ _ _ => ServerEvent.noConfusion
  · obtain rfl := Option.some.inj h
    exact fun _ _ _ _ _ _ _ => ServerEvent.noConfusion
  · cases h

theorem writes_withApi {api : PrimeApi.State}
    (htable : api.sxPrimeApi = g.board.api.sxPrimeApi) : Writes g (g.withApi api) [] :=
  .of_same htable rfl

/-- The module gets the calls that a message makes. -/
theorem apiReceived_eq {len : UInt16} {new : List PrimeApi.Call}
    (hcalls : (PrimeApi.ifacePrimeApiReceivedCmd ptrMsg len g.board.api).2.calls
      = g.board.api.calls ++ new) :
    apiReceived clock ptrMsg len g
      = serveAll clock ((new.filter fun c => c.appId = dlmsotcpAppId).filterMap
          fun c => serverEvent c.cb c.args)
        (g.withApi (PrimeApi.ifacePrimeApiReceivedCmd ptrMsg len g.board.api).2) := by
  unfold apiReceived
  dsimp only
  rw [hcalls, List.drop_left]
  rfl

theorem apiReceived_other {len : UInt16} (hcmd : ptrMsg.cell 0 &&& 0x7f ≠ 0x38)
    (hs : apiReceived clock ptrMsg len g = some (g', cmds)) : Writes g g' [] := by
  have hcalls : PrimeApi.Calls _ g.board.api
      (PrimeApi.ifacePrimeApiReceivedCmd ptrMsg len g.board.api).2 := PrimeApi.calls_receivedCmd
  obtain ⟨new, hnew, hcb⟩ := hcalls.adds
  rw [apiReceived_eq hnew] at hs
  refine (writes_withApi hcalls.table).after (serveAll_other ?_ hs)
  intro e he
  obtain ⟨c, hc, hevent⟩ := List.mem_filterMap.mp he
  refine other_serverEvent (fun hdata => hcmd ?_) hevent
  have hcode := hcb c (List.mem_filter.mp hc).1
  rw [hdata] at hcode
  exact (UInt8.toNat_inj.mp hcode).symm

/-- The event for a data indication. -/
theorem serve_dataInd {ucDstLsap ucSrcLsap ucLinkClass : UInt8}
    {usDstAddress srcAddress ucLsduLen : UInt16} {pucData : Mem UInt8} {m : Message}
    (hsource : m.source = srcAddress) (hdest : m.dest = word 0 ucDstLsap)
    (hpayload : m.payload = pucData.slice 0 ucLsduLen.toNat)
    (hs : serveAll clock [.dataInd ucDstLsap ucSrcLsap usDstAddress srcAddress pucData ucLsduLen
      ucLinkClass] g = some (g', cmds)) :
    Writes g g' (if (0 < g.server.core.siDlmsoctpDataFd
        ∧ g.server.core.iEnableNotifications = true) ∧ m.source ≠ 0 ∧ 0 < ucLsduLen.toNat then
      [(g.server.core.siDlmsoctpDataFd, m.encode)] else []) := by
  obtain ⟨⟨g1, cmds1⟩, hfirst, hrest⟩ := Option.bind_eq_some_iff.mp hs
  obtain ⟨rfl, -⟩ := Prod.mk.inj (Option.some.inj hrest)
  refine ⟨serve_table hfirst, ?_⟩
  obtain ⟨w, hw, heq⟩ := Option.map_eq_some_iff.mp hfirst
  obtain ⟨rfl, -⟩ := Prod.mk.inj heq
  obtain rfl := Option.some.inj hw
  exact dataWrites_dataInd ucSrcLsap ucLinkClass usDstAddress hsource hdest hpayload

/-- What an indication of the right length is forwarded as. -/
theorem forward_of_length {m : Message} {usLsduLen : UInt16}
    (hid : g.board.api.sucPrimeAppIdReq.toNat = dlmsotcpAppId)
    (hdata : dataOf? bytes = if m.source ≠ 0 ∧ 0 < usLsduLen.toNat then some m else none) :
    (if Forwards g then
        (dataOf? bytes).toList.map fun m => (g.server.core.siDlmsoctpDataFd, m.encode) else [])
      = if (0 < g.server.core.siDlmsoctpDataFd ∧ g.server.core.iEnableNotifications = true)
          ∧ m.source ≠ 0 ∧ 0 < usLsduLen.toNat then
        [(g.server.core.siDlmsoctpDataFd, m.encode)] else [] := by
  by_cases hopen : 0 < g.server.core.siDlmsoctpDataFd ∧ g.server.core.iEnableNotifications = true
  · rw [if_pos (show Forwards g from ⟨hid, hopen⟩), hdata]
    by_cases hsome : m.source ≠ 0 ∧ 0 < usLsduLen.toNat
    · rw [if_pos hsome, if_pos ⟨hopen, hsome⟩]
      rfl
    · rw [if_neg hsome, if_neg fun h => hsome h.2]
      rfl
  · rw [if_neg fun h : Forwards g => hopen h.2, if_neg fun h => hopen h.1]

/-- **A data indication.** -/
theorem apiReceived_dataInd (hreg : Registered g) (hmem : ptrMsg.slice 0 bytes.length = bytes)
    (hcmd : ptrMsg.cell 0 &&& 0x7f = 0x38) (hne : bytes ≠ []) (hshort : bytes.length < 1024)
    (hs : apiReceived clock ptrMsg (UInt16.ofNat bytes.length) g = some (g', cmds)) :
    Writes g g' (if Forwards g then
      (dataOf? bytes).toList.map fun m => (g.server.core.siDlmsoctpDataFd, m.encode) else []) := by
  have hpos := List.length_pos_of_ne_nil hne
  have hlen : (UInt16.ofNat bytes.length - 1).toNat = bytes.length - 1 := by
    have htoNat : (UInt16.ofNat bytes.length).toNat = bytes.length := by
      rw [UInt16.toNat_ofNat']
      omega
    rw [PrimeApi.toNat_sub_one (by omega), htoNat]
  have hcalled : PrimeApi.Calls _ g.board.api
      (PrimeApi.ifacePrimeApiReceivedCmd ptrMsg (UInt16.ofNat bytes.length) g.board.api).2 :=
    PrimeApi.calls_receivedCmd
  rw [apiReceived_eq (PrimeApi.calls_dataInd hcmd)] at hs
  refine (writes_withApi hcalled.table).after ?_
  by_cases hwhole : bytes.length = 10 + (Read.wordAt ptrMsg 7).toNat
  · obtain ⟨m, hsource, hdest, hpayload, hdata⟩ := dataOf?_of_length hmem hcmd hshort hwhole
    by_cases hid : g.board.api.sucPrimeAppIdReq.toNat = dlmsotcpAppId
    · have hsel : g.board.api.Selected .cl432DlDataInd := by
        refine ⟨?_, ?_⟩
        · rw [hid]
          decide
        · rwa [hid]
      rw [if_pos ⟨hsel, by omega⟩, hid] at hs
      have hmessage : m.payload
          = (messageOf (ptrMsg.slice 9 (Read.wordAt ptrMsg 7).toNat)).slice 0
            (Read.wordAt ptrMsg 7).toNat := by
        have hslice : (messageOf m.payload).slice 0 m.payload.length = m.payload := slice_messageOf
        rw [hpayload, Mem.length_slice] at hslice
        rw [hslice, hpayload]
      rw [forward_of_length hid hdata]
      exact serve_dataInd hsource hdest hmessage hs
    · -- another application is called, or none
      rw [List.filter_eq_nil_iff.mpr] at hs
      · rw [if_neg fun h : Forwards g => hid h.1]
        exact serveAll_other (List.forall_mem_nil _) hs
      · intro c hc
        split_ifs at hc
        · rw [List.mem_singleton.mp hc, decide_eq_true_eq]
          exact hid
        · cases hc
  · rw [if_neg fun h => hwhole (by omega)] at hs
    rw [dataOf?_of_length_ne hmem hwhole, Option.toList_none, List.map_nil, ite_self]
    exact serveAll_other (List.forall_mem_nil _) hs

/-- The management layer brings no data. -/
theorem mngReceived_writes (g : State) (ptrMsg : Mem UInt8) (len : UInt16) (bytes : List UInt8)
    (nested : List MngLayer.Call) : Writes g (mngReceived ptrMsg len bytes nested g).1 [] := by
  refine ⟨rfl, ?_⟩
  rw [List.append_nil]
  unfold mngReceived
  dsimp only
  split_ifs
  · have hstep : serverStep (fun _ => 0) (.response ptrMsg len) g.server
        = some (Dlmsotcp.dlmsotcpMngpRspCb ptrMsg len g.server) := rfl
    exact dataWrites_of_adds (.serverStep hstep fun _ _ _ _ _ _ _ => ServerEvent.noConfusion)
  · rfl

/-- **A message is delivered.** -/
theorem received_writes {memory : ℕ → ℕ → UInt8} {nested : ℕ → List MngLayer.Call}
    {msg : ℕ × List UInt8} (hreg : Registered g)
    (hmsg : msg.1 = Usi.usiProtId2idx Usi.protocolPrimeApi → msg.2 ≠ [] ∧ msg.2.length < 1024)
    (hs : received clock memory nested msg g = some (g', cmds)) : Writes g g' (forward msg g) := by
  have hcount : Writes g { g with count := g.count + 1 } [] := .of_same rfl rfl
  refine hcount.after ?_
  unfold received at hs
  dsimp only at hs
  by_cases hapi : msg.1 = Usi.usiProtId2idx Usi.protocolPrimeApi
  · obtain ⟨hne, hshort⟩ := hmsg hapi
    have hmem : ((Mem.init (memory g.count)).storeList 0 msg.2).slice 0 msg.2.length = msg.2 :=
      Mem.slice_storeList
    rw [if_pos hapi] at hs
    rw [forward, uplink?, if_pos hapi]
    by_cases hcmd : ((Mem.init (memory g.count)).storeList 0 msg.2).cell 0 &&& 0x7f = 0x38
    · exact apiReceived_dataInd (hcount.registered hreg) hmem hcmd hne hshort hs
    · rw [dataOf?_of_command hmem hcmd, Option.toList_none, List.map_nil, ite_self]
      exact apiReceived_other hcmd hs
  · rw [if_neg hapi] at hs
    rw [forward, uplink?, if_neg hapi, Option.toList_none, List.map_nil, ite_self]
    split_ifs at hs
    · have hmng := mngReceived_writes { g with count := g.count + 1 }
        ((Mem.init (memory g.count)).storeList 0 msg.2) (UInt16.ofNat msg.2.length) msg.2
        (nested g.count)
      rwa [Option.some.inj hs] at hmng
    · obtain ⟨rfl, -⟩ := Prod.mk.inj (Option.some.inj hs)
      exact .refl _

/-- Something else happens. -/
theorem doing_writes {a : Act} (hs : doing clock a g = some (g', cmds)) : Writes g g' [] := by
  cases a with
  | packet fd buf => exact serve_other (fun _ _ _ _ _ _ _ => ServerEvent.noConfusion) hs
  | closed => exact serve_other (fun _ _ _ _ _ _ _ => ServerEvent.noConfusion) hs
  | select primeAppId =>
      obtain ⟨rfl, -⟩ := Prod.mk.inj (Option.some.inj hs)
      exact .of_same rfl rfl
  | request r =>
      obtain ⟨rfl, -⟩ := Prod.mk.inj (Option.some.inj hs)
      exact .of_same rfl rfl
  | manage c =>
      obtain ⟨rfl, -⟩ := Prod.mk.inj (Option.some.inj hs)
      exact .of_same rfl rfl
  | send cmd =>
      obtain ⟨rfl, -⟩ := Prod.mk.inj (Option.some.inj hs)
      exact .refl g

end Steps

/-! ## The run -/

/-- What is written for a message, in whatever state it comes. -/
def forwarded (msg : ℕ × List UInt8) (u : Option State) : List (ℤ × List UInt8) :=
  u.elim [] (forward msg)

/-- A message with data finds the module selected and the client connected. -/
def Finds (msg : ℕ × List UInt8) (u : Option State) : Prop :=
  ∀ m ∈ uplink? msg, ∃ g ∈ u, Forwards g

section Run

variable {clock : ℕ → ℕ} {memory : ℕ → ℕ → UInt8} {nested : ℕ → List MngLayer.Call}
  {hs : List (Happening Act)} {g g' : State} {u : Option State}

/-- **The whole run.** -/
theorem run_writes (hreg : Registered g)
    (hmsgs : ∀ msg ∈ hs.filterMap Happening.msg?,
      msg.1 = Usi.usiProtId2idx Usi.protocolPrimeApi → msg.2 ≠ [] ∧ msg.2.length < 1024)
    (hrun : ((gateway clock memory nested).run hs (some g)).1 = some g') :
    Writes g g' ((gateway clock memory nested).gather forwarded hs (some g)) := by
  induction hs generalizing g with
  | nil =>
      obtain rfl := Option.some.inj hrun
      exact .refl g
  | cons x hs ih =>
      cases x with
      | delivered msg =>
          rw [List.filterMap_cons_some (show Happening.msg? (.delivered msg) = some msg from rfl),
            List.forall_mem_cons] at hmsgs
          rw [Upper.run] at hrun
          rw [Upper.gather]
          dsimp only [gateway, Option.bind_some] at hrun ⊢
          cases hstep : received clock memory nested msg g with
          | none =>
              rw [hstep] at hrun
              exact absurd (run_none.symm.trans hrun) (Option.some_ne_none _).symm
          | some r =>
              rw [hstep] at hrun
              have hfirst := received_writes hreg hmsgs.1 hstep
              exact hfirst.trans (ih (hfirst.registered hreg) hmsgs.2 hrun)
      | acted a =>
          rw [Upper.run] at hrun
          rw [Upper.gather]
          dsimp only [gateway, Option.bind_some] at hrun ⊢
          cases hstep : doing clock a g with
          | none =>
              rw [hstep] at hrun
              exact absurd (run_none.symm.trans hrun) (Option.some_ne_none _).symm
          | some r =>
              rw [hstep] at hrun
              have hfirst := doing_writes hstep
              exact hfirst.after (ih (hfirst.registered hreg) hmsgs hrun)

theorem registered_started (heap : ℕ → Dlmsotcp.XDlmsMsg) (behind : ℕ → Dlmsotcp.ConnectedNode)
    (b : Board) : Registered (started heap behind b).1
      ∧ dataWrites (started heap behind b).1.server.core = [] := by
  have htrace : (Dlmsotcp.serverStarted dlmsotcpAppId heap behind).core.trace = _ :=
    Dlmsotcp.trace_started _ heap behind
  refine ⟨?_, ?_⟩
  · unfold Registered started
    dsimp only
    rw [htrace]
    rfl
  · unfold dataWrites Dlmsotcp.State.writes started
    dsimp only
    rw [htrace]
    rfl

/-- A message for the PRIME API is not empty. -/
theorem delivery_valid {u : UsiMsg}
    (hapi : u.delivery.1 = Usi.usiProtId2idx Usi.protocolPrimeApi) :
    u.delivery.2 ≠ [] ∧ u.delivery.2.length < 1024 := by
  have htypes : ∀ ucType ∈ Usi.receivedProtocols,
      Usi.usiProtId2idx ucType = Usi.usiProtId2idx Usi.protocolPrimeApi
        → ucType = Usi.protocolPrimeApi := by
    decide +kernel
  have htype : u.ucType = Usi.protocolPrimeApi := htypes u.ucType u.type_mem hapi
  have hpayload : u.delivery.2 = u.payload := by
    show u.delivered = u.payload
    rw [UsiMsg.delivered, if_neg]
    rw [htype]
    decide
  rw [hpayload]
  refine ⟨fun hnil => ?_, u.length_lt⟩
  rcases u.eq_of_nil hnil with h | h
  · rw [htype] at h
    exact absurd h (by decide)
  · rw [htype] at h
    exact absurd h (by decide)

/-- A message without data has nothing to find; a message with data gives one write. -/
theorem map_forwarded {msg : ℕ × List UInt8} (h : Finds msg u) :
    (forwarded msg u).map Prod.snd = ((uplink? msg).map Message.encode).toList := by
  cases hm : uplink? msg with
  | none =>
      cases u with
      | none => rfl
      | some g =>
          unfold forwarded
          rw [Option.elim_some, forward, hm, Option.toList_none, List.map_nil, ite_self]
          rfl
  | some m =>
      obtain ⟨g, hg, hforwards⟩ := h m hm
      rw [Option.mem_def.mp hg]
      unfold forwarded
      rw [Option.elim_some, forward, if_pos hforwards, hm]
      rfl

theorem forwarded_of_not {msg : ℕ × List UInt8} (h : ¬ Finds msg u) :
    forwarded msg u = [] ∧ ((uplink? msg).map Message.encode).toList ≠ [] := by
  unfold Finds at h
  push Not at h
  obtain ⟨m, hm, hnot⟩ := h
  refine ⟨?_, ?_⟩
  · cases u with
    | none => rfl
    | some g => exact if_neg (hnot g rfl)
  · rw [Option.mem_def.mp hm]
    exact List.cons_ne_nil _ _

end Run

/-- **The uplink.**  The line carries a stream that is read with less than a buffer pending at any
time.  However it is cut by `read`, and whatever happens in between: the client is written, to the
connection that is open at the time, the data of those indications that find the DLMS module
selected and its client connected.  All data of the line is written, in order and each once, if
and only if all of them do. -/
theorem dlms_uplink_iff {clock : ℕ → ℕ} {memory : ℕ → ℕ → UInt8}
    {nested : ℕ → List MngLayer.Call} (heap : ℕ → Dlmsotcp.XDlmsMsg)
    (behind : ℕ → Dlmsotcp.ConnectedNode) (b : Board) (fd : ℤ) (behindRx behindTx : ℕ → UInt8)
    (regs : List (UInt8 × Option Usi.Serialization)) {us : List UsiMsg}
    (hreg : ∀ u ∈ us,
      (Usi.opened fd behindRx behindTx regs).usiCfgMapProtocols u.callbackIdx ≠ none)
    {es : List (HostEvent Act)}
    (hes : Usi.ReadsStream us [] (Usi.inputs es) (Usi.opened fd behindRx behindTx regs))
    {s' : Usi.State} {g : State} {evs : List Usi.Event}
    (hrun : Usi.hostRun (gateway clock memory nested) es
      (Usi.opened fd behindRx behindTx regs, some (started heap behind b).1)
        = some ((s', some g), evs)) :
    ∃ hs : List (Happening Act), hs.filterMap Happening.msg? = us.map UsiMsg.delivery
      ∧ hs.filterMap Happening.act? = Usi.acts es
      ∧ ((gateway clock memory nested).run hs (some (started heap behind b).1)).1 = some g
      ∧ dataWrites g.server.core
        = (gateway clock memory nested).gather forwarded hs (some (started heap behind b).1)
      ∧ ((dataWrites g.server.core).map Prod.snd
          = (us.filterMap fun u => uplink? u.delivery).map Message.encode
        ↔ (gateway clock memory nested).AtEach Finds hs (some (started heap behind b).1)) := by
  obtain ⟨hs, hmsgs, hacts, s2, evs2, hhost, -⟩ := Usi.usi_host_linear (gateway clock memory nested)
    (some (started heap behind b).1) fd behindRx behindTx regs hreg es hes
  rw [hrun] at hhost
  have hend := congrArg (fun r => r.1.2) (Option.some.inj hhost)
  dsimp only at hend
  obtain ⟨hregistered, hnone⟩ := registered_started heap behind b
  have hvalid : ∀ msg ∈ hs.filterMap Happening.msg?,
      msg.1 = Usi.usiProtId2idx Usi.protocolPrimeApi → msg.2 ≠ [] ∧ msg.2.length < 1024 := by
    rw [hmsgs]
    intro msg hmsg hapi
    obtain ⟨u, -, rfl⟩ := List.mem_map.mp hmsg
    exact delivery_valid hapi
  have hwrites := run_writes hregistered hvalid hend.symm
  have hdata := hwrites.writes
  rw [hnone, List.nil_append] at hdata
  refine ⟨hs, hmsgs, hacts, hend.symm, hdata, ?_⟩
  have hwant : (us.filterMap fun u => uplink? u.delivery).map Message.encode
      = (hs.filterMap Happening.msg?).flatMap fun msg =>
        ((uplink? msg).map Message.encode).toList := by
    rw [hmsgs, List.map_filterMap, List.filterMap_eq_flatMap_toList, List.flatMap_map]
  rw [hdata, hwant]
  exact Upper.gather_eq_iff (fun _ _ => map_forwarded) fun _ _ => forwarded_of_not

/-- Two bytes from node 5. -/
def indication : UsiMsg where
  ucType := Usi.protocolPrimeApi
  payload := [0x38, 1, 16, 0x0f, 0xfe, 0, 5, 0, 2, 0xaa, 0xbb, 0]
  type_mem := protocolPrimeApi_mem
  length_lt := by decide
  eq_of_nil := by decide
  head_lt := by decide

/-- A message of the client for node 5. -/
def forFive : Message := ⟨1, 5, [0xc4], by decide⟩

/-- With no node connected, a client that asks for the list of the nodes gets no answer; its next
message is handled as if it came alone. -/
theorem serve_listRequest (clock : ℕ → ℕ) (fd : ℤ) (g : State) (m : Message)
    (hnone : ∀ i, ¬ g.server.core.Connected i) :
    serve clock (.core (.packet fd (Dlmsotcp.encodeAll [Dlmsotcp.listRequest, m]))) g
      = (Dlmsotcp.handleMessage clock m
          { g.server.core with siDlmsoctpDataFd := fd, iEnableNotifications := true }).map fun s =>
        let r := g.board.performAll (s.trace.drop g.server.core.trace.length)
        ({ g with server := { g.server with core := s }, board := r.1 }, r.2) := by
  have hlist : Dlmsotcp.handleMessage clock Dlmsotcp.listRequest
      { g.server.core with siDlmsoctpDataFd := fd } = some
        { g.server.core with siDlmsoctpDataFd := fd, iEnableNotifications := true } :=
    congrArg some (Dlmsotcp.answerList_of_none (s := { g.server.core with siDlmsoctpDataFd := fd })
      hnone)
  unfold serve
  rw [serverStep, Dlmsotcp.step_encodeAll, runSteps_cons, hlist, Option.bind_some, runSteps_cons]
  cases Dlmsotcp.handleMessage clock m
    { g.server.core with siDlmsoctpDataFd := fd, iEnableNotifications := true } <;> rfl

/-- The client asks for the list and sends a message. -/
def firstPacket : Act := .packet 7 (Dlmsotcp.encodeAll [Dlmsotcp.listRequest, forFive])

/-- The indication twice, in two reads. -/
def indicationReads : List Usi.Input :=
  Usi.cutReads 20 (Usi.streamOf [indication, indication]) ++ Usi.silence Usi.txauxSize

/-- No node is connected at the start. -/
theorem not_connected_started (heap : ℕ → Dlmsotcp.XDlmsMsg) (behind : ℕ → Dlmsotcp.ConnectedNode)
    (b : Board) (i : ℕ) : ¬ (started heap behind b).1.server.core.Connected i := by
  have hserver : (started heap behind b).1.server
      = Dlmsotcp.serverStarted dlmsotcpAppId heap behind := rfl
  rw [hserver]
  exact Dlmsotcp.not_connected_started dlmsotcpAppId heap behind i

theorem act_packet (clock : ℕ → ℕ) (memory : ℕ → ℕ → UInt8) (nested : ℕ → List MngLayer.Call)
    (fd : ℤ) (buf : List UInt8) (g : State) : (gateway clock memory nested).act (.packet fd buf)
      (some g) = orStopped (serve clock (.core (.packet fd buf)) g) := rfl

/-- What the client is written after the packet and the two indications. -/
theorem dataWrites_indications : (((gateway (fun _ => 0) (fun _ _ => 0) fun _ => []).run
      [.acted firstPacket, .delivered indication.delivery, .delivered indication.delivery]
        (some (started Dlmsotcp.zeroMemory Dlmsotcp.zeroNodes board).1)).1.map fun g =>
          dataWrites g.server.core)
      = some [(7, [0, 1, 0, 5, 0, 1, 0, 2, 0xaa, 0xbb]),
        (7, [0, 1, 0, 5, 0, 1, 0, 2, 0xaa, 0xbb])] := by
  rw [Upper.run, firstPacket, act_packet, serve_listRequest _ _ _ _ (not_connected_started _ _ _)]
  decide +kernel

/-- The client gets the data of both indications, so both have found the module selected and the
client connected. -/
theorem dlms_uplink_indication : ∃ (hs : List (Happening Act)) (g : State),
    hs.filterMap Happening.msg? = [indication, indication].map UsiMsg.delivery
      ∧ hs.filterMap Happening.act? = [firstPacket]
      ∧ ((gateway (fun _ => 0) (fun _ _ => 0) fun _ => []).run hs
        (some (started Dlmsotcp.zeroMemory Dlmsotcp.zeroNodes board).1)).1 = some g
      ∧ dataWrites g.server.core = [(7, [0, 1, 0, 5, 0, 1, 0, 2, 0xaa, 0xbb]),
        (7, [0, 1, 0, 5, 0, 1, 0, 2, 0xaa, 0xbb])]
      ∧ (gateway (fun _ => 0) (fun _ _ => 0) fun _ => []).AtEach Finds hs
        (some (started Dlmsotcp.zeroMemory Dlmsotcp.zeroNodes board).1) := by
  have hreg : ∀ u ∈ [indication, indication],
      apiReceiver.usiCfgMapProtocols u.callbackIdx ≠ none := by
    refine List.forall_mem_cons.mpr ⟨Option.some_ne_none _, ?_⟩
    exact List.forall_mem_singleton.mpr (Option.some_ne_none _)
  have htr : Usi.Tracks apiReceiver [] false := Usi.tracks_opened _ _ _ _
  have hread : Usi.ReadsStream [indication, indication] [] indicationReads apiReceiver :=
    Usi.readsStream_cut 20 htr (by decide +kernel)
  obtain ⟨s', ev, hrun, hmsgs, -⟩ := Usi.usiRun_stream htr (by decide) hreg hread
  obtain ⟨x, evs, hhost⟩ := Usi.hostRun_act_process
    (gateway (fun _ => 0) (fun _ _ => 0) fun _ => []) firstPacket
    (some (started Dlmsotcp.zeroMemory Dlmsotcp.zeroNodes board).1) (by decide) rfl rfl hrun
  obtain ⟨g, hg, hwrites⟩ := Option.map_eq_some_iff.mp dataWrites_indications
  rw [hmsgs] at hhost
  have hend : ((gateway (fun _ => 0) (fun _ _ => 0) fun _ => []).run
      (.acted firstPacket :: ([indication, indication].map UsiMsg.delivery).map .delivered)
      (some (started Dlmsotcp.zeroMemory Dlmsotcp.zeroNodes board).1)).1 = some g := hg
  rw [hend] at hhost
  obtain ⟨hs, hmsgs, hacts, hgate, -, hiff⟩ := dlms_uplink_iff Dlmsotcp.zeroMemory
    Dlmsotcp.zeroNodes board 3 (fun _ => 0) (fun _ => 0) _ hreg
    (by rwa [Usi.inputs_act, Usi.inputs_map_process]) hhost
  refine ⟨hs, g, hmsgs, ?_, hgate, hwrites, hiff.mp ?_⟩
  · rw [hacts, Usi.acts_act, Usi.acts_map_process]
  · rw [hwrites]
    decide +kernel

end Gateway
