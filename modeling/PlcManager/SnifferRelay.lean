/-
# The sniffer relay

Embeds `ifacePrimeSniffer.c` and the rest of `sniffer.c`, and puts the main loop of `main.c`
on top of the serial line: a round of the loop calls `usi_host_process`, or it changes the
sockets, and every message that is delivered meets the connections of that moment.

A message of the sniffer is framed again for each client.  The frame is the one that has
been received, so a client sees what the serial line carries, less what is not for it.
-/
import PlcManager.MessageReader
import PlcManager.SocketHandler
import PlcManager.UsiRedirect

namespace Sniffer

open Usi SocketHandler

/-! ## The sniffer -/

/-- The static variables of `sniffer.c` and `ifacePrimeSniffer.c`; of the callback only
whether it is set. -/
structure Static where
  pfPrimeSnifferCb : Bool
  siSnifferAppId : ℕ
  siSerialPortFd : ℤ

/-- `prime_sniffer_init`, with the static variables of `sniffer.c` as they are at the start. -/
def primeSnifferInit : Static := ⟨false, 0, 0⟩

/-- `prime_sniffer_set_cb`. -/
def primeSnifferSetCb (sapHandler : Bool) (x : Static) : Static :=
  { x with pfPrimeSnifferCb := sapHandler }

/-- `sniffer_init`. -/
def snifferInit (appId : ℕ) (serialFd : ℤ) (x : Static) : Static :=
  let x := { x with siSerialPortFd := socketUnused, siSnifferAppId := appId }
  if 0 < serialFd then primeSnifferSetCb true { x with siSerialPortFd := serialFd } else x

/-- `_sniffer_data_rcv`: a command for each connection, in the order of the slots. -/
def snifferDataRcv (appId : ℕ) (msg : Mem UInt8) (len : UInt16) (t : SocketHandler.State) :
    List XUsiCmd :=
  if 0 < socketGetConnectionsFds appId t then
    ((t.conns appId).filter fun fd => 0 < fd).map fun fd =>
      ⟨fd, protocolSnifPrime, msg.slice 0 len.toNat, by
        rw [Mem.length_slice]
        exact UInt16.toNat_lt len⟩
  else []

/-- `prime_sniffer_receivedCmd`. -/
def primeSnifferReceivedCmd (ptrMsg : Mem UInt8) (len : UInt16) (x : Static)
    (t : SocketHandler.State) : List XUsiCmd × UInt8 :=
  (if x.pfPrimeSnifferCb then snifferDataRcv x.siSnifferAppId ptrMsg len t else [], 1)

/-- What the sniffer sends when a message is delivered. -/
def relayed (x : Static) (t : SocketHandler.State) (msg : ℕ × List UInt8) : List XUsiCmd :=
  if msg.1 = usiProtId2idx protocolSnifPrime then
    (primeSnifferReceivedCmd (messageOf msg.2) (UInt16.ofNat msg.2.length) x t).1
  else []

/-! ## The main loop on the serial line -/

/-- The round calls `usi_host_process`. -/
def callsUsi (r : Round) (t : SocketHandler.State) : Bool :=
  match socketSelect r.ready t with
  | .timeout => true
  | .success evInfo => evInfo.iAppId == usiAppId
  | .error => false

/-- What happens to the host in rounds of the main loop, each with what `usi_host_process`
finds on the line if it is called. -/
def loopEvents : List (Round × Input) → SocketHandler.State → List (HostEvent Round)
  | [], _ => []
  | (r, inp) :: rs, t =>
      (if callsUsi r t then [.process inp] else []) ++ .act r :: loopEvents rs (mainLoop r t)

/-- The sockets after rounds of the main loop. -/
def socketsAfter (rs : List Round) (t : SocketHandler.State) : SocketHandler.State :=
  rs.foldl (fun t r => mainLoop r t) t

/-- The layers above the line: the sniffer, any other applications, and the loopback, which
comes last. -/
def manager {ω : Type*} (x : Static) (others : Upper Round ω) :
    Upper Round (SocketHandler.State × ω) where
  deliver msg u :=
    let r := others.deliver msg u.2
    ((u.1, r.1), relayed x u.1 msg ++ r.2 ++ redirect u.1.fdSocketLoopback msg)
  act r u :=
    let q := others.act r u.2
    ((mainLoop r u.1, q.1), q.2)

/-- Commands of these applications are for the serial port. -/
structure ForPort {ω : Type*} (others : Upper Round ω) : Prop where
  deliver : ∀ msg w, ∀ cmd ∈ (others.deliver msg w).2, cmd.fd < 0
  act : ∀ r w, ∀ cmd ∈ (others.act r w).2, cmd.fd < 0

/-- A descriptor is in one slot of the sniffer, and is not the loopback. -/
structure Connected (fd : ℤ) (t : SocketHandler.State) : Prop where
  once : (t.conns snifferAppId).count fd = 1
  notLoopback : t.fdSocketLoopback ≠ fd

section Rounds

variable {r : Round} {t : SocketHandler.State} {rs : List (Round × Input)}

/-- A round that calls `usi_host_process` changes no socket. -/
theorem mainLoop_of_callsUsi (h : callsUsi r t = true) :
    mainLoop r t = t.emit [.usiHostProcess, .cliProcess] := by
  unfold callsUsi at h
  unfold mainLoop
  cases hsel : socketSelect r.ready t with
  | timeout => rfl
  | error =>
      rw [hsel] at h
      cases h
  | success evInfo =>
      rw [hsel] at h
      exact if_pos (beq_iff_eq.mp h)

/-- The rounds, in their order. -/
theorem acts_loopEvents : acts (loopEvents rs t) = rs.map Prod.fst := by
  induction rs generalizing t with
  | nil => rfl
  | cons e rs ih =>
      obtain ⟨r, inp⟩ := e
      rw [loopEvents]
      cases callsUsi r t with
      | true => exact congrArg (r :: ·) ih
      | false => exact congrArg (r :: ·) ih

end Rounds

/-! ## What the clients get -/

/-- The frames of the messages that are for the sniffer. -/
def sniffed (us : List UsiMsg) : List UInt8 :=
  (us.filter fun u => u.ucType = protocolSnifPrime).flatMap UsiMsg.frame

section Relay

variable {ω : Type*} {others : Upper Round ω} {x : Static} {u : UsiMsg} {us : List UsiMsg}
  {t : SocketHandler.State} {w : ω} {fd portFd : ℤ} {cmds : List XUsiCmd}
  {hs : List (Happening Round)}

/-- Commands for other descriptors put nothing on this one. -/
theorem wireTo_of_ne (h : ∀ cmd ∈ cmds, cmd.target portFd ≠ fd) : wireTo portFd fd cmds = [] := by
  unfold wireTo
  rw [List.filter_eq_nil_iff.mpr]
  · rfl
  · intro cmd hcmd
    simpa using h cmd hcmd

theorem wireTo_of_neg (hport : fd ≠ portFd) (h : ∀ cmd ∈ cmds, cmd.fd < 0) :
    wireTo portFd fd cmds = [] := by
  apply wireTo_of_ne
  intro cmd hcmd
  rw [XUsiCmd.target, if_pos (h cmd hcmd)]
  exact hport.symm

/-- The index of the sniffer's callback is that of no other type. -/
theorem callbackIdx_eq_sniffer : u.callbackIdx = usiProtId2idx protocolSnifPrime
    ↔ u.ucType = protocolSnifPrime := by
  have h : ∀ ucType ∈ receivedProtocols,
      usiProtId2idx ucType = usiProtId2idx protocolSnifPrime ↔ ucType = protocolSnifPrime := by
    decide +kernel
  exact h u.ucType u.type_mem

/-- A message is framed again as it was. -/
theorem wire_relayed {buf : List UInt8} {hlt : buf.length < 65536}
    (htype : u.ucType = protocolSnifPrime) (hfit : u.frame.length ≤ txauxSize)
    (hbuf : buf = u.payload) : XUsiCmd.wire ⟨fd, protocolSnifPrime, buf, hlt⟩ = u.frame := by
  subst hbuf
  have hother : ¬ protocolSnifPrime = protocolPrimeApi := by decide
  have hknown : usiProtId2idx protocolSnifPrime ≠ usiInvalidProtocolIdx := by decide
  have hframe : XUsiCmd.frame ⟨fd, protocolSnifPrime, u.payload, hlt⟩ = u.frame := by
    rw [XUsiCmd.frame, XUsiCmd.wirePayload, if_neg hother]
    show Usi.frame protocolSnifPrime u.payload = Usi.frame u.ucType u.payload
    rw [htype]
  have hne : u.payload.length ≠ 0 := by
    intro hzero
    rcases u.eq_of_nil (List.length_eq_zero_iff.mp hzero) with h | h
    · rw [htype] at h
      exact absurd h (by decide)
    · rw [htype] at h
      exact absurd h (by decide)
  rw [XUsiCmd.wire, hframe, if_pos]
  exact ⟨hne, hknown, hfit⟩

/-- One command for each descriptor of a list. -/
theorem wireTo_map {fds : List ℤ} (ys : List UInt8) (cmd : ℤ → XUsiCmd) (hpos : ∀ d ∈ fds, 0 < d)
    (hcmd : ∀ d, (cmd d).fd = d) (hwire : ∀ d, (cmd d).wire = ys) :
    wireTo portFd fd (fds.map cmd) = (List.replicate (fds.count fd) ys).flatten := by
  induction fds with
  | nil => rfl
  | cons d fds ih =>
      have htarget : (cmd d).target portFd = d := by
        rw [XUsiCmd.target, hcmd, if_neg]
        exact (hpos d List.mem_cons_self).not_gt
      rw [List.map_cons, wireTo_cons (cmd d), wireTo_singleton, htarget, hwire,
        ih fun e he => hpos e (List.mem_cons_of_mem _ he)]
      by_cases hd : d = fd
      · rw [if_pos hd, hd, List.count_cons_self, List.replicate_succ, List.flatten_cons]
      · rw [if_neg hd, List.count_cons_of_ne hd, List.nil_append]

/-- **One message.**  A client that is in one slot gets its frame, if it is for the sniffer. -/
theorem wireTo_relayed (hfit : u.frame.length ≤ txauxSize) (hfd : 0 < fd)
    (hcb : x.pfPrimeSnifferCb = true) (happ : x.siSnifferAppId = snifferAppId)
    (honce : (t.conns snifferAppId).count fd = 1) :
    wireTo portFd fd (relayed x t u.delivery)
      = if u.ucType = protocolSnifPrime then u.frame else [] := by
  unfold relayed
  by_cases htype : u.ucType = protocolSnifPrime
  · have hidx : u.delivery.1 = usiProtId2idx protocolSnifPrime := callbackIdx_eq_sniffer.mpr htype
    have hmsg : u.delivery.2 = u.payload := by
      show u.delivered = u.payload
      rw [UsiMsg.delivered, if_neg]
      rw [htype]
      decide
    have hlen : (UInt16.ofNat u.delivery.2.length).toNat = u.payload.length := by
      have hlt := u.length_lt
      rw [hmsg, UInt16.toNat_ofNat']
      exact Nat.mod_eq_of_lt (by omega)
    have hmem : fd ∈ t.conns snifferAppId := by
      apply List.count_pos_iff.mp
      rw [honce]
      exact Nat.one_pos
    have hsome : 0 < socketGetConnectionsFds snifferAppId t :=
      List.countP_pos_iff.mpr ⟨fd, hmem, by simpa using hfd⟩
    rw [if_pos hidx, if_pos htype, primeSnifferReceivedCmd, if_pos hcb, happ, snifferDataRcv,
      if_pos hsome, wireTo_map u.frame]
    · rw [List.count_filter (by simpa using hfd), honce]
      simp
    · exact fun d hd => by simpa using (List.mem_filter.mp hd).2
    · exact fun d => rfl
    · exact fun d => wire_relayed htype hfit (by rw [hlen, hmsg]; exact slice_messageOf)
  · have hidx : u.delivery.1 ≠ usiProtId2idx protocolSnifPrime :=
      mt callbackIdx_eq_sniffer.mp htype
    rw [if_neg hidx, if_neg htype]
    rfl

/-- The sockets follow the rounds, whatever is delivered in between. -/
theorem manager_sockets : ((manager x others).run hs (t, w)).1.1
    = socketsAfter (hs.filterMap Happening.act?) t := by
  induction hs generalizing t w with
  | nil => rfl
  | cons h hs ih => cases h <;> exact ih

theorem sniffed_cons : sniffed (u :: us)
    = (if u.ucType = protocolSnifPrime then u.frame else []) ++ sniffed us := by
  unfold sniffed
  by_cases htype : u.ucType = protocolSnifPrime
  · rw [List.filter_cons_of_pos (by simpa using htype), if_pos htype, List.flatMap_cons]
  · rw [List.filter_cons_of_neg (by simpa using htype), if_neg htype, List.nil_append]

/-- **The layers.**  In whatever order messages and rounds come, a client that stays connected
gets the frames for the sniffer, and nothing else. -/
theorem wireTo_manager (hothers : ForPort others) (hfit : ∀ u ∈ us, u.frame.length ≤ txauxSize)
    (hfd : 0 < fd) (hport : fd ≠ portFd) (hcb : x.pfPrimeSnifferCb = true)
    (happ : x.siSnifferAppId = snifferAppId)
    (hmsgs : hs.filterMap Happening.msg? = us.map UsiMsg.delivery)
    (hconn : ∀ pre, pre <+: hs.filterMap Happening.act? → Connected fd (socketsAfter pre t)) :
    wireTo portFd fd ((manager x others).run hs (t, w)).2 = sniffed us := by
  induction hs generalizing t w us with
  | nil =>
      obtain rfl : us = [] := List.map_eq_nil_iff.mp hmsgs.symm
      rfl
  | cons h hs ih =>
      cases h with
      | delivered msg =>
          obtain ⟨u, us, rfl, rfl, htail⟩ := List.map_eq_cons_iff.mp hmsgs.symm
          have hnow : Connected fd t := hconn [] List.nil_prefix
          rw [Upper.run, wireTo_append]
          show wireTo portFd fd (relayed x t u.delivery ++ (others.deliver u.delivery w).2
            ++ redirect t.fdSocketLoopback u.delivery) ++ _ = _
          rw [wireTo_append, wireTo_append, wireTo_of_neg hport (hothers.deliver _ _),
            wireTo_of_ne (fun cmd hcmd => (target_of_mem_redirect hcmd).trans_ne hnow.notLoopback),
            wireTo_relayed (hfit u List.mem_cons_self) hfd hcb happ hnow.once, List.append_nil,
            List.append_nil, sniffed_cons]
          exact congrArg _ (ih (fun v hv => hfit v (List.mem_cons_of_mem _ hv)) htail.symm hconn)
      | acted r =>
          have hnone : wireTo portFd fd ((manager x others).act r (t, w)).2 = [] :=
            wireTo_of_neg hport (hothers.act r w)
          rw [Upper.run, wireTo_append, hnone, List.nil_append]
          refine ih hfit hmsgs fun pre hpre => ?_
          exact hconn (r :: pre) (List.cons_prefix_cons.mpr ⟨rfl, hpre⟩)

end Relay

/-- **The sniffer relay.**  The line carries a stream that is read with less than a buffer pending
at any time.  While the main loop runs, a client of the sniffer that is connected gets the frames
of the sniffer's messages: the bytes that the serial line carried, each frame once and in order,
and nothing else of what is sent.  How `read` cut the line, who else connects or leaves, what
other applications send to the serial port and whether a management tool has turned the loopback
on makes no difference. -/
theorem sniffer_relay {ω : Type*} {others : Upper Round ω} (hothers : ForPort others) (w : ω)
    {s : Usi.State} {p : List UInt8} {f : Bool} (htr : Tracks s p f)
    (hoff : s.fdSocketLoopback ≤ 0) (hidx : s.usIdxIn = 0) (hsize : s.txUsSize = txauxSize)
    (hserial : 0 < s.portFd) {us : List UsiMsg}
    (hreg : ∀ u ∈ us, s.usiCfgMapProtocols u.callbackIdx ≠ none)
    (rs : List (Round × Input)) (t : SocketHandler.State)
    (hrs : ReadsStream us p (inputs (loopEvents rs t)) s)
    {fd : ℤ} (hfd : 0 < fd) (hport : fd ≠ s.portFd)
    (hconn : ∀ pre, pre <+: rs.map Prod.fst → Connected fd (socketsAfter pre t)) :
    ∃ x evs, hostRun (manager (snifferInit snifferAppId s.portFd primeSnifferInit) others)
        (loopEvents rs t) (s, (t, w)) = some (x, evs)
      ∧ x.2.1 = socketsAfter (rs.map Prod.fst) t ∧ writtenTo fd evs = sniffed us := by
  obtain ⟨s', ev, hrun, hmsgs, hfit⟩ := usiRun_stream htr hoff hreg hrs
  obtain ⟨hs, hhs, hacts, m, evs, hhost, hwire⟩ := hostRun_linear
    (manager (snifferInit snifferAppId s.portFd primeSnifferInit) others) (t, w)
    hoff hidx hsize hrun
  rw [acts_loopEvents] at hacts
  have hinit : snifferInit snifferAppId s.portFd primeSnifferInit
      = ⟨true, snifferAppId, s.portFd⟩ := if_pos hserial
  refine ⟨_, evs, hhost, ?_, ?_⟩
  · rw [← hacts]
    exact manager_sockets
  · rw [hwire, wireTo_manager hothers hfit hfd hport (by rw [hinit]) (by rw [hinit])
      (hhs.trans hmsgs) (by rwa [hacts])]

/-- A round in which `select` finds nothing. -/
def timeoutRound : Round := ⟨some [], -1, [], 0⟩

/-- No other application. -/
def nobody : Upper Round Unit := ⟨fun _ w => (w, []), fun _ w => (w, [])⟩

theorem forPort_nobody : ForPort nobody :=
  ⟨fun _ _ _ h => absurd h List.not_mem_nil, fun _ _ _ h => absurd h List.not_mem_nil⟩

theorem inputs_loopEvents_timeout {inps : List Input} {t : SocketHandler.State} :
    inputs (loopEvents (inps.map (timeoutRound, ·)) t) = inps := by
  induction inps generalizing t with
  | nil => rfl
  | cons inp inps ih => exact congrArg (inp :: ·) ih

/-- Rounds that do not touch the sockets leave a client connected. -/
theorem Connected.of_callsUsi {fd : ℤ} {t : SocketHandler.State} {rs : List Round}
    (h : Connected fd t) (hrs : ∀ r ∈ rs, ∀ t, callsUsi r t = true) :
    Connected fd (socketsAfter rs t) := by
  induction rs generalizing t with
  | nil => exact h
  | cons r rs ih =>
      rw [List.forall_mem_cons] at hrs
      have hnext : Connected fd (mainLoop r t) := by
        rw [mainLoop_of_callsUsi (hrs.1 t)]
        exact ⟨h.once, h.notLoopback⟩
      exact ih hnext hrs.2

/-- The sockets with two clients of the sniffer. -/
def twoClients : SocketHandler.State :=
  (socketAttachConnection snifferAppId 8
    (socketAttachConnection snifferAppId 9 (started (fun i => 4 + i) 3)).2).2

/-- Two messages in two reads, in the first of many rounds. -/
def sniffedRounds : List (Round × Input) :=
  (cutReads 10 (streamOf [snifferMsg, snifferMsg]) ++ silence txauxSize).map (timeoutRound, ·)

/-- One of two clients gets both. -/
theorem sniffer_relay_two :
    ∃ x evs, hostRun (manager (snifferInit snifferAppId 3 primeSnifferInit) nobody)
        (loopEvents sniffedRounds twoClients) (snifferReceiver, (twoClients, ())) = some (x, evs)
      ∧ x.2.1 = socketsAfter (sniffedRounds.map Prod.fst) twoClients
      ∧ writtenTo 9 evs = sniffed [snifferMsg, snifferMsg] := by
  have hes : ReadsStream [snifferMsg, snifferMsg] [] (inputs (loopEvents sniffedRounds twoClients))
      snifferReceiver := by
    rw [sniffedRounds, inputs_loopEvents_timeout]
    exact readsStream_cut 10 (tracks_opened _ _ _ _) (by decide +kernel)
  have hclient : Connected 9 twoClients := ⟨by decide +kernel, by decide +kernel⟩
  refine sniffer_relay forPort_nobody () (tracks_opened 3 _ _ _) (by decide) rfl rfl (by decide)
    (registered_snifferMsg (by simp)) sniffedRounds twoClients hes (by decide) (by decide) ?_
  intro pre hpre
  apply hclient.of_callsUsi
  intro r hr t
  obtain ⟨e, he, rfl⟩ := List.mem_map.mp (hpre.subset hr)
  obtain ⟨inp, -, rfl⟩ := List.mem_map.mp he
  rfl

end Sniffer
