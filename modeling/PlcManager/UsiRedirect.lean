/-
# The loopback as a layer above the line

With a loopback, `_process_msg` sends the payload of management and PRIME API messages back
through `hal_usi_send_cmd`, after the callback of the message has returned.  What it sends
depends on the message alone, and the receive half does not see it: a call of
`hal_usi_process` is the call without a loopback, followed by the commands of one more layer.
-/
import PlcManager.MessageReader
import PlcManager.UsiHost
import PlcManager.UsiLoopback

namespace Usi

/-! ## The layer -/

/-- The command that sends a payload to the loopback, cut to a length of eight bits. -/
def redirectCmd (fdSocketLoopback : ℤ) (ucType : UInt8) (payload : List UInt8) : List XUsiCmd :=
  if 0 < fdSocketLoopback ∧ 0 < payload.length % 256 then
    [⟨fdSocketLoopback, ucType, payload.take (payload.length % 256),
      (List.length_take_le _ _).trans_lt ((Nat.mod_lt _ (by decide)).trans (by decide))⟩]
  else []

/-- What is redirected of a message; management messages come with their header. -/
def redirect (fdSocketLoopback : ℤ) (msg : ℕ × List UInt8) : List XUsiCmd :=
  if msg.1 = usiProtId2idx protocolMngpPrime then
    redirectCmd fdSocketLoopback (typeProtocol (msg.2.getD 1 0)) (msg.2.drop 2)
  else if msg.1 = usiProtId2idx protocolPrimeApi then
    redirectCmd fdSocketLoopback protocolPrimeApi msg.2
  else []

/-- Everything is redirected to the loopback. -/
theorem target_of_mem_redirect {fdSocketLoopback portFd : ℤ} {msg : ℕ × List UInt8} {cmd : XUsiCmd}
    (h : cmd ∈ redirect fdSocketLoopback msg) : cmd.target portFd = fdSocketLoopback := by
  have hcmd : ∀ t payload, cmd ∈ redirectCmd fdSocketLoopback t payload →
      cmd.target portFd = fdSocketLoopback := by
    intro t payload hmem
    unfold redirectCmd at hmem
    split_ifs at hmem with hpos
    · rw [List.mem_singleton.mp hmem]
      exact if_neg hpos.1.not_gt
    · cases hmem
  unfold redirect at h
  split_ifs at h
  · exact hcmd _ _ h
  · exact hcmd _ _ h
  · cases h

/-- The state with another loopback. -/
def State.withLoopback (s : State) (fdSocketLoopback : ℤ) : State :=
  { s with fdSocketLoopback := fdSocketLoopback }

section Redirect

variable {s : State} {p : ℕ} {inp : Input}

/-- What is cut from the payload is the stretch of that length. -/
theorem redirectCmd_slice {ucType : UInt8} {payload usLen : ℕ}
    (htype : ucType ∈ mngpProtocols ∨ ucType = protocolPrimeApi) :
    redirectCmd s.fdSocketLoopback ucType (s.pucRxbuf0.slice payload usLen)
      = if 0 < ucRetxLen s ucType usLen then
          [loopbackCmd s ucType payload _ (ucRetxLen_lt_usLen s ucType usLen)]
        else [] := by
  have hcut : (s.pucRxbuf0.slice payload usLen).take (usLen % 256)
      = s.pucRxbuf0.slice payload (usLen % 256) := Mem.take_slice (Nat.mod_le _ _)
  by_cases hon : 0 < s.fdSocketLoopback
  · have hlen : ucRetxLen s ucType usLen = usLen % 256 := if_pos ⟨htype, hon⟩
    simp only [redirectCmd, loopbackCmd, hlen, Mem.length_slice, hcut, hon, true_and]
  · have hlen : ucRetxLen s ucType usLen = 0 := if_neg fun h => hon h.2
    rw [if_neg (by omega)]
    exact if_neg fun h => hon h.1

/-- A callback that is called gets the bytes it is told. -/
theorem callSerialization_received {protocolId : UInt8} {puc usLen : ℕ} {events : List Event}
    {ucResult : UInt8} (h : callSerialization s protocolId puc usLen = some (events, ucResult)) :
    received events = [(usiProtId2idx protocolId, s.pucRxbuf0.slice puc usLen)] := by
  obtain ⟨pf, -, heq⟩ := Option.map_eq_some_iff.mp h
  obtain ⟨rfl, -⟩ := Prod.mk.inj heq
  rfl

/-- A message that goes to a callback, and the command that redirects it. -/
theorem redirect_dispatch {ucType ucResult : UInt8} {usLen : ℕ} {events : List Event}
    (htype : ucType = typeProtocol (s.pucRxbuf0.cell (p + 1)))
    (hd : dispatch s ucType p usLen = some (events, ucResult)) :
    (received events).flatMap (redirect s.fdSocketLoopback)
      = if 0 < ucRetxLen s ucType usLen then
          [loopbackCmd s ucType (p + 2) _ (ucRetxLen_lt_usLen s ucType usLen)]
        else [] := by
  -- of other types nothing is redirected
  have hother : ∀ {protocolId : UInt8}, ¬ (ucType ∈ mngpProtocols ∨ ucType = protocolPrimeApi) →
      usiProtId2idx protocolId ≠ usiProtId2idx protocolMngpPrime →
      usiProtId2idx protocolId ≠ usiProtId2idx protocolPrimeApi →
      callSerialization s protocolId (p + 2) usLen = some (events, ucResult) →
      (received events).flatMap (redirect s.fdSocketLoopback)
        = if 0 < ucRetxLen s ucType usLen then
            [loopbackCmd s ucType (p + 2) _ (ucRetxLen_lt_usLen s ucType usLen)]
          else [] := by
    intro protocolId hnot hmngp hapi hcall
    have hlen : ucRetxLen s ucType usLen = 0 := if_neg fun h => hnot h.1
    rw [callSerialization_received hcall, List.flatMap_singleton, redirect, if_neg hmngp,
      if_neg hapi, if_neg (by omega)]
  have hidx : usiProtId2idx protocolPrimeApi ≠ usiProtId2idx protocolMngpPrime := by decide
  unfold dispatch at hd
  dsimp only at hd
  split_ifs at hd with hmngp hatpl hsnif hapi huser
  · have hslice : s.pucRxbuf0.slice p (usLen + 2) = s.pucRxbuf0.cell p
        :: s.pucRxbuf0.cell (p + 1) :: s.pucRxbuf0.slice (p + 2) usLen := rfl
    rw [callSerialization_received hd, List.flatMap_singleton, redirect, if_pos rfl, hslice]
    show redirectCmd _ (typeProtocol (s.pucRxbuf0.cell (p + 1))) _ = _
    rw [← htype]
    exact redirectCmd_slice (Or.inl hmngp)
  · exact hother (by rw [hatpl]; decide) (by decide) (by decide) hd
  · exact hother (by rw [hsnif]; decide) (by decide) (by decide) hd
  · rw [callSerialization_received hd, List.flatMap_singleton, redirect, if_neg hidx, if_pos rfl,
      ← hapi]
    exact redirectCmd_slice (Or.inr hapi)
  · exact hother (by rw [huser]; decide) (by decide) (by decide) hd

/-- What a call of the receiver leaves to be redirected, once `ev` has happened without a
loopback: the same state but for the transmit half, and the commands of the layer. -/
def Redirects (s s' : State) (ev : List Event) (r : Option (State × List Event)) : Prop :=
  ∃ m ev', r = some ((s'.withTx m 0).withLoopback s.fdSocketLoopback, ev ++ ev')
    ∧ (∀ fd, writtenTo fd ev'
      = wireTo s.portFd fd ((received ev).flatMap (redirect s.fdSocketLoopback)))
    ∧ received ev' = []

/-- When no message is handed over, nothing is redirected. -/
theorem redirects_nil {s' : State} (hidx : s'.usIdxIn = 0) :
    Redirects s s' [] (some (s'.withLoopback s.fdSocketLoopback, [])) := by
  refine ⟨s'.pucTxbuf0, [], ?_, fun _ => rfl, rfl⟩
  conv_lhs => rw [← withTx_self (s := s'), hidx]
  rfl

/-- The callbacks do not depend on the loopback. -/
theorem handed_withLoopback (s : State) (fd : ℤ) (p : ℕ) :
    handed (s.withLoopback fd) p = handed s p := rfl

/-- **One message.**  Its callback is called, then it is redirected. -/
theorem processMsg_redirect (hidx : s.usIdxIn = 0) (hsize : s.txUsSize = txauxSize) :
    ∃ m ev, processMsg .acceptAll s p
        = some (s.withTx m 0, (handed s p).1 ++ ev, (handed s p).2)
      ∧ (∀ fd, writtenTo fd ev = wireTo s.portFd fd
        ((received (handed s p).1).flatMap (redirect s.fdSocketLoopback)))
      ∧ received ev = [] := by
  have hkept : s = s.withTx s.pucTxbuf0 0 := by
    conv_lhs => rw [← withTx_self (s := s), hidx]
  have hnone : ∃ m ev, some (s, ([] : List Event), (0 : UInt8)) = some (s.withTx m 0, [] ++ ev, 0)
      ∧ (∀ fd, writtenTo fd ev = wireTo s.portFd fd []) ∧ received ev = [] :=
    ⟨s.pucTxbuf0, [], by rw [← hkept, List.append_nil], fun _ => rfl, rfl⟩
  unfold processMsg handed
  dsimp only
  set ucType := typeProtocol (s.pucRxbuf0.cell (p + 1)) with hu
  set usLen := announcedLen s.pucRxbuf0 p
  by_cases hempty : usLen = 0
      ∧ ¬ (ucType = protocolMngpPrimeReset ∨ ucType = protocolMngpPrimeReboot)
  · rw [if_pos hempty, if_pos hempty]
    exact hnone
  rw [if_neg hempty, if_neg hempty]
  cases hd : dispatch s ucType p usLen with
  | none => exact hnone
  | some r =>
      obtain ⟨events, ucResult⟩ := r
      dsimp only [Option.getD_some]
      rw [redirect_dispatch hu hd]
      by_cases hlen : 0 < ucRetxLen s ucType usLen
      · rw [if_pos hlen, if_pos hlen]
        obtain ⟨m, st, ev, hsend, hwire, hrx⟩ := halUsiSendCmd_wire
          (loopbackCmd s ucType (p + 2) _ (ucRetxLen_lt_usLen s ucType usLen)) hidx hsize
        exact ⟨m, ev, by rw [hsend]; rfl, hwire, hrx⟩
      · rw [if_neg hlen, if_neg hlen]
        exact ⟨s.pucTxbuf0, [], by rw [← hkept, List.append_nil], fun _ => rfl, rfl⟩

/-- The part of a call that runs once both marks are found. -/
theorem processFrame_redirect {pending first last : ℕ} {s' : State} {ev : List Event}
    (hidx : s.usIdxIn = 0) (hsize : s.txUsSize = txauxSize)
    (h : processFrame .acceptAll (s.withLoopback (-1)) pending first last = some (s', ev)) :
    Redirects s s' ev (processFrame .acceptAll s pending first last) := by
  obtain ⟨rx, n, check, tx, txSize, idx, fd, portTx, portRx, cb, loop⟩ := s
  generalize hdec : decodeCopy rx first last = dec
  have hsame := handed_withLoopback
    ⟨dec.1, n, false, tx, txSize, idx, fd, portTx, portRx, cb, loop⟩ (-1) (first + 1)
  have hoff : (-1 : ℤ) ≤ 0 := by decide
  have hmsg := processMsg_eq_handed (w := .acceptAll) (p := first + 1)
    (s := ⟨dec.1, n, false, tx, txSize, idx, fd, portTx, portRx, cb, -1⟩) hoff
  obtain ⟨m, ev', hmsg', hwire, hrx⟩ := processMsg_redirect (p := first + 1)
    (s := ⟨dec.1, n, false, tx, txSize, idx, fd, portTx, portRx, cb, loop⟩) hidx hsize
  unfold processFrame at h ⊢
  unfold State.withLoopback at h hsame
  dsimp +instances only at h hmsg hmsg' hwire hsame ⊢
  rw [hsame] at hmsg
  rw [hdec] at h ⊢
  generalize usiShiftBufferLeft = shiftLeft at h ⊢
  generalize uint16 = narrow at h ⊢
  split_ifs at h ⊢
  · obtain ⟨rfl, rfl⟩ := Prod.mk.inj (Option.some.inj h)
    exact redirects_nil hidx
  · rw [hmsg] at h
    rw [hmsg']
    obtain ⟨rfl, rfl⟩ := Prod.mk.inj (Option.some.inj h)
    refine ⟨m, ev', ?_, hwire, hrx⟩
    rw [Option.map_some, Option.map_some]
    unfold State.withTx State.withLoopback
    dsimp only
  · obtain ⟨rfl, rfl⟩ := Prod.mk.inj (Option.some.inj h)
    exact redirects_nil hidx

/-- **The loopback is one more layer.**  A call with a loopback does what the call without one
does, and then sends what the layer answers. -/
theorem halUsiProcess_redirect {s' : State} {ev : List Event} (hw : inp.writes = .acceptAll)
    (hidx : s.usIdxIn = 0) (hsize : s.txUsSize = txauxSize)
    (h : halUsiProcess inp (s.withLoopback (-1)) = some (s', ev)) :
    Redirects s s' ev (halUsiProcess inp s) := by
  unfold halUsiProcess at h ⊢
  cases hread : inp.read with
  | none =>
      rw [hread] at h
      obtain ⟨rfl, rfl⟩ := Prod.mk.inj (Option.some.inj h)
      exact redirects_nil hidx
  | some bytes =>
      rw [hread] at h
      dsimp only at h ⊢
      have hrx : (s.withLoopback (-1)).pucRxbuf0 = s.pucRxbuf0 := rfl
      have hrxSize : (s.withLoopback (-1)).rxUsSize = s.rxUsSize := rfl
      rw [hrx, hrxSize] at h
      generalize (s.pucRxbuf0.withBehind txauxSize inp.behind).storeList s.rxUsSize bytes = rx
        at h ⊢
      generalize (s.rxUsSize + bytes.length) % 65536 = pending at h ⊢
      split_ifs at h ⊢
      · obtain ⟨rfl, rfl⟩ := Prod.mk.inj (Option.some.inj h)
        exact redirects_nil hidx
      · cases hfirst : rx.find msgMark 0 pending with
        | none =>
            rw [hfirst] at h
            obtain ⟨rfl, rfl⟩ := Prod.mk.inj (Option.some.inj h)
            exact redirects_nil hidx
        | some first =>
            rw [hfirst] at h
            dsimp only at h ⊢
            cases hlast : rx.find msgMark (first + 1) pending with
            | none =>
                rw [hlast] at h
                obtain ⟨rfl, rfl⟩ := Prod.mk.inj (Option.some.inj h)
                exact redirects_nil hidx
            | some last =>
                rw [hlast] at h
                dsimp only at h ⊢
                rw [hw] at h ⊢
                exact processFrame_redirect (s := { s with pucRxbuf0 := rx }) hidx hsize h

end Redirect

/-! ## Runs -/

section Runs

variable {s s' : State} {inps : List Input} {ev : List Event} {us : List UsiMsg}

/-- With a loopback the callbacks get what they get without one, and the line carries what the
layer sends. -/
theorem usiRun_redirect (hw : ∀ inp ∈ inps, inp.writes = .acceptAll) (hidx : s.usIdxIn = 0)
    (hsize : s.txUsSize = txauxSize) (h : usiRun inps (s.withLoopback (-1)) = some (s', ev)) :
    ∃ m ev', usiRun inps s = some ((s'.withTx m 0).withLoopback s.fdSocketLoopback, ev')
      ∧ received ev' = received ev
      ∧ ∀ fd, writtenTo fd ev'
        = wireTo s.portFd fd ((received ev).flatMap (redirect s.fdSocketLoopback)) := by
  induction inps generalizing s s' ev with
  | nil =>
      obtain ⟨rfl, rfl⟩ := Prod.mk.inj (Option.some.inj h)
      refine ⟨s.pucTxbuf0, [], ?_, rfl, fun _ => rfl⟩
      rw [usiRun]
      conv_lhs => rw [← withTx_self (s := s), hidx]
      rfl
  | cons inp inps ih =>
      obtain ⟨⟨s1, ev1⟩, hproc, hrest⟩ := Option.bind_eq_some_iff.mp h
      obtain ⟨⟨s2, ev2⟩, hrun, heq⟩ := Option.map_eq_some_iff.mp hrest
      obtain ⟨rfl, rfl⟩ := Prod.mk.inj heq
      have hoff : (s.withLoopback (-1)).fdSocketLoopback ≤ 0 := show (-1 : ℤ) ≤ 0 by decide
      obtain ⟨⟨rx, n, f, hs1⟩, hone⟩ := halUsiProcess_off hoff hproc
      obtain ⟨m1, ev1', hproc', hwire1, hrx1⟩ := halUsiProcess_redirect
        (hw inp List.mem_cons_self) hidx hsize hproc
      -- the rest starts behind the redirected message
      have hrun' : usiRun inps
          (((s1.withTx m1 0).withLoopback s.fdSocketLoopback).withLoopback (-1))
            = some (s2.withTx m1 0, ev2) := by
        have hstate : ((s1.withTx m1 0).withLoopback s.fdSocketLoopback).withLoopback (-1)
            = s1.withTx m1 0 := by
          rw [hs1]
          rfl
        have hoff1 : s1.fdSocketLoopback ≤ 0 := by
          rw [hs1]
          exact hoff
        rw [hstate, usiRun_withTx hoff1]
        rw [show usiRun inps s1 = some (s2, ev2) from hrun]
        rfl
      have hsize1 : ((s1.withTx m1 0).withLoopback s.fdSocketLoopback).txUsSize = txauxSize := by
        rw [hs1]
        exact hsize
      have hport1 : ((s1.withTx m1 0).withLoopback s.fdSocketLoopback).portFd = s.portFd := by
        rw [hs1]
        rfl
      obtain ⟨m, ev', hfinal, hsame, hwire⟩ := ih (fun i hi => hw i (List.mem_cons_of_mem _ hi))
        rfl hsize1 hrun'
      refine ⟨m, (ev1 ++ ev1') ++ ev', ?_, ?_, ?_⟩
      · rw [usiRun, hproc', Option.bind_some, hfinal]
        rfl
      · rw [received_append, received_append, received_append, hrx1, List.append_nil, hsame]
      · intro fd
        rw [hport1] at hwire
        rw [writtenTo_append, writtenTo_append, hone.writtenTo_eq, hwire1, hwire, received_append,
          List.flatMap_append, wireTo_append]
        rfl

/-- The bytes that are pending do not depend on the transmit half. -/
theorem along_withTx {m : Mem UInt8} {k : ℕ} (hoff : s.fdSocketLoopback ≤ 0) :
    Along (fun _ => PendingBelow) inps (s.withTx m k) ↔ Along (fun _ => PendingBelow) inps s := by
  induction inps generalizing s with
  | nil => exact Iff.rfl
  | cons inp inps ih =>
      rw [Along, Along, halUsiProcess_withTx hoff]
      refine and_congr Iff.rfl ?_
      cases hproc : halUsiProcess inp s with
      | none => simp
      | some r =>
          obtain ⟨⟨rx, n, f, hr⟩, -⟩ := halUsiProcess_off hoff hproc
          have hoff' : r.1.fdSocketLoopback ≤ 0 := by
            rw [hr]
            exact hoff
          have hrest := ih (s := r.1) hoff'
          constructor
          · intro h s' ev hs'
            obtain rfl := Option.some.inj hs'
            exact hrest.mp (h _ _ rfl)
          · intro h s' ev hs'
            obtain ⟨rfl, rfl⟩ := Prod.mk.inj (Option.some.inj hs')
            exact hrest.mpr (h _ _ rfl)

/-- Nor do they depend on the loopback. -/
theorem along_withLoopback (hw : ∀ inp ∈ inps, inp.writes = .acceptAll) (hidx : s.usIdxIn = 0)
    (hsize : s.txUsSize = txauxSize) (h : Along (fun _ => PendingBelow) inps s) :
    Along (fun _ => PendingBelow) inps (s.withLoopback (-1)) := by
  induction inps generalizing s with
  | nil => trivial
  | cons inp inps ih =>
      refine ⟨h.1, fun s1 ev1 hproc => ?_⟩
      have hoff : (s.withLoopback (-1)).fdSocketLoopback ≤ 0 := show (-1 : ℤ) ≤ 0 by decide
      obtain ⟨⟨rx, n, f, rfl⟩, -⟩ := halUsiProcess_off hoff hproc
      obtain ⟨m, ev', hproc', -, -⟩ := halUsiProcess_redirect (hw inp List.mem_cons_self) hidx
        hsize hproc
      have hrest := ih (s := (((s.withLoopback (-1)).withRx rx n f).withTx m 0).withLoopback
        s.fdSocketLoopback) (fun i hi => hw i (List.mem_cons_of_mem _ hi)) rfl hsize
        (h.2 _ _ hproc')
      exact (along_withTx (s := (s.withLoopback (-1)).withRx rx n f) (m := m) (k := 0)
        hoff).mp hrest

end Runs

/-! ## Streams -/

/-- What the loopback carries for a message. -/
def echoed (fd : ℤ) (u : UsiMsg) : List UInt8 := (redirect fd u.delivery).flatMap XUsiCmd.wire

/-- The loopback carries the frames of the messages that it is for. -/
def forLoopback (us : List UsiMsg) : List UInt8 :=
  (us.filter fun u => u.ucType ∈ loopbackProtocols).flatMap UsiMsg.frame

section Echo

variable {fd : ℤ} {u : UsiMsg}

theorem redirect_delivery : redirect fd u.delivery
    = if u.ucType ∈ loopbackProtocols then redirectCmd fd u.ucType u.payload else [] := by
  have hidx : ∀ t ∈ receivedProtocols, (usiProtId2idx t = usiProtId2idx protocolMngpPrime
        ↔ t ∈ mngpProtocols)
      ∧ (usiProtId2idx t = usiProtId2idx protocolPrimeApi ↔ t = protocolPrimeApi) := by
    decide +kernel
  obtain ⟨hmngp, hapi⟩ := hidx u.ucType u.type_mem
  unfold redirect
  show (if usiProtId2idx u.ucType = _ then _ else if usiProtId2idx u.ucType = _ then _ else _) = _
  by_cases h : u.ucType ∈ mngpProtocols
  · have hdelivered : u.delivery.2 = header u.ucType u.payload.length ++ u.payload := if_pos h
    rw [if_pos (hmngp.mpr h), if_pos (mem_loopbackProtocols.mpr (Or.inl h)), hdelivered]
    show redirectCmd fd (typeProtocol (lenLoProtocol u.payload.length + typeProtocol u.ucType))
      u.payload = _
    rw [typeProtocol_header, u.typeProtocol_type]
  · have hdelivered : u.delivery.2 = u.payload := if_neg h
    rw [if_neg (mt hmngp.mp h), hdelivered]
    by_cases hp : u.ucType = protocolPrimeApi
    · rw [if_pos (hapi.mpr hp), if_pos (mem_loopbackProtocols.mpr (Or.inr hp)), hp]
    · rw [if_neg (mt hapi.mp hp), if_neg fun hmem => (mem_loopbackProtocols.mp hmem).elim h hp]

/-- The beginning of a payload can be sent, as it is in a memory that holds the message. -/
theorem sendable_take {n : ℕ} (hpos : 0 < n) (hle : n ≤ u.payload.length) (hn : n < 256)
    {hlt : (u.payload.take n).length < 65536} :
    XUsiCmd.Sendable ⟨fd, u.ucType, u.payload.take n, hlt⟩ := by
  obtain ⟨hsendable, hbuf⟩ := sendable_loopbackCmd (u := u) (p := 0)
    (s := { State.static (fun _ => 0) (fun _ => 0) with
      pucRxbuf0 := messageOf u.body
      fdSocketLoopback := fd }) slice_messageOf hpos hle hn (by omega)
  convert hsendable using 1
  exact XUsiCmd.mk.injEq .. ▸ ⟨rfl, rfl, hbuf.symm⟩

theorem echoed_of_pos (hfd : 0 < fd) (htype : u.ucType ∈ loopbackProtocols)
    (hpos : 0 < u.payload.length % 256) :
    echoed fd u = Usi.frame u.ucType (u.payload.take (u.payload.length % 256)) := by
  have hn : u.payload.length % 256 < 256 := Nat.mod_lt _ (by decide)
  have hlt : (u.payload.take (u.payload.length % 256)).length < 65536 :=
    (List.length_take_le _ _).trans_lt (by omega)
  have hsend : XUsiCmd.Sendable ⟨fd, u.ucType, u.payload.take (u.payload.length % 256), hlt⟩ :=
    sendable_take hpos (Nat.mod_le _ _) hn
  have hknown : usiProtId2idx u.ucType ≠ usiInvalidProtocolIdx := by
    have hall : ∀ t ∈ receivedProtocols, usiProtId2idx t ≠ usiInvalidProtocolIdx := by
      decide +kernel
    exact hall u.ucType u.type_mem
  have hne : (u.payload.take (u.payload.length % 256)).length ≠ 0 :=
    fun hzero => hsend.nonempty (List.length_eq_zero_iff.mp hzero)
  rw [echoed, redirect_delivery, if_pos htype, redirectCmd, if_pos ⟨hfd, hpos⟩,
    List.flatMap_singleton, XUsiCmd.wire, if_pos ⟨hne, hknown, hsend.fits⟩, XUsiCmd.frame,
    hsend.wirePayload_eq]

/-- Without a payload nothing comes back. -/
theorem echoed_of_zero (hzero : u.payload.length % 256 = 0) : echoed fd u = [] := by
  have hnone : redirectCmd fd u.ucType u.payload = [] := if_neg fun h => by omega
  rw [echoed, redirect_delivery, hnone, ite_self]
  rfl

theorem echoed_of_other (htype : u.ucType ∉ loopbackProtocols) : echoed fd u = [] := by
  rw [echoed, redirect_delivery, if_neg htype]
  rfl

/-- A payload of 1 to 255 bytes comes back as it was. -/
theorem echoed_eq (hfd : 0 < fd) (htype : u.ucType ∈ loopbackProtocols)
    (hpos : 0 < u.payload.length) (hlt : u.payload.length < 256) : echoed fd u = u.frame := by
  have hmod : u.payload.length % 256 = u.payload.length := Nat.mod_eq_of_lt hlt
  rw [echoed_of_pos hfd htype (by rwa [hmod]), hmod, List.take_length]
  rfl

/-- The frame of a message is longer than that of a payload cut by 256 bytes or more. -/
theorem length_frame_take_lt {n : ℕ} (hn : n + 256 ≤ u.payload.length) :
    (Usi.frame u.ucType (u.payload.take n)).length < u.frame.length := by
  have hle : ∀ xs, (usiEscapes.stuff xs).length ≤ 2 * xs.length := length_stuff_le
  have hge := usiEscapes.length_le_length_stuff
  have hcut : (usiEscapes.stuff u.payload).length
      = (usiEscapes.stuff (u.payload.take n)).length
        + (usiEscapes.stuff (u.payload.drop n)).length := by
    rw [← List.length_append, ← Escapes.stuff_append, List.take_append_drop]
  have hdrop := hge (u.payload.drop n)
  rw [List.length_drop] at hdrop
  have hcrc := crcLen_le u.ucType
  unfold UsiMsg.frame UsiMsg.text UsiMsg.body Usi.frame Usi.body
  simp only [Escapes.length_delimit, Escapes.stuff_append, List.length_append, hcut]
  have h1 := hle (header u.ucType (u.payload.take n).length)
  have h2 := hle (crcBytes u.ucType (usiCrc u.ucType
    (header u.ucType (u.payload.take n).length ++ u.payload.take n)))
  have h3 := hge (header u.ucType u.payload.length)
  rw [length_header] at h1 h3
  rw [length_crcBytes] at h2
  omega

/-- Of other payloads less comes back. -/
theorem length_echoed_lt (hfd : 0 < fd) (htype : u.ucType ∈ loopbackProtocols)
    (hlen : ¬ (0 < u.payload.length ∧ u.payload.length < 256)) :
    (echoed fd u).length < u.frame.length := by
  by_cases hzero : u.payload.length % 256 = 0
  · rw [echoed_of_zero hzero, length_frame_eq]
    exact Nat.succ_pos _
  · rw [echoed_of_pos hfd htype (Nat.pos_of_ne_zero hzero)]
    apply length_frame_take_lt
    omega

/-- Part by part no longer than the other, two lists of parts are as long as each other
only if all parts are. -/
theorem length_flatMap_le {α β : Type*} {f g : α → List β} {xs : List α}
    (hle : ∀ x ∈ xs, (f x).length ≤ (g x).length) :
    (xs.flatMap f).length ≤ (xs.flatMap g).length
      ∧ ((xs.flatMap f).length = (xs.flatMap g).length →
        ∀ x ∈ xs, (f x).length = (g x).length) := by
  induction xs with
  | nil => exact ⟨le_rfl, fun _ _ hx => absurd hx List.not_mem_nil⟩
  | cons x xs ih =>
      obtain ⟨hrest, heq⟩ := ih fun y hy => hle y (List.mem_cons_of_mem _ hy)
      have hx := hle x List.mem_cons_self
      rw [List.flatMap_cons, List.flatMap_cons, List.length_append, List.length_append]
      refine ⟨by omega, fun hsum y hy => ?_⟩
      rcases List.mem_cons.mp hy with rfl | hy
      · omega
      · exact heq (by omega) y hy

/-- The loopback carries all frames that it is for exactly if each has a payload of 1 to 255
bytes. -/
theorem flatMap_echoed_iff {us : List UsiMsg} (hfd : 0 < fd) :
    us.flatMap (echoed fd) = forLoopback us ↔ ∀ u ∈ us, u.ucType ∈ loopbackProtocols →
      0 < u.payload.length ∧ u.payload.length < 256 := by
  have hparts : forLoopback us
      = us.flatMap fun u => if u.ucType ∈ loopbackProtocols then u.frame else [] := by
    unfold forLoopback
    induction us with
    | nil => rfl
    | cons u us ih =>
        by_cases h : u.ucType ∈ loopbackProtocols
        · rw [List.filter_cons_of_pos (by simpa using h), List.flatMap_cons, List.flatMap_cons,
            if_pos h, ih]
        · rw [List.filter_cons_of_neg (by simpa using h), List.flatMap_cons, if_neg h, ih,
            List.nil_append]
  rw [hparts]
  have hle : ∀ u ∈ us, (echoed fd u).length
      ≤ (if u.ucType ∈ loopbackProtocols then u.frame else []).length := by
    intro u _
    by_cases h : u.ucType ∈ loopbackProtocols
    · rw [if_pos h]
      by_cases hlen : 0 < u.payload.length ∧ u.payload.length < 256
      · rw [echoed_eq hfd h hlen.1 hlen.2]
      · exact (length_echoed_lt hfd h hlen).le
    · rw [echoed_of_other h]
      exact Nat.zero_le _
  constructor
  · intro heq u hu htype
    by_contra hlen
    have hsame := (length_flatMap_le hle).2 (congrArg List.length heq) u hu
    rw [if_pos htype] at hsame
    exact (length_echoed_lt hfd htype hlen).ne hsame
  · intro hlen
    apply List.flatMap_congr
    intro u hu
    by_cases h : u.ucType ∈ loopbackProtocols
    · rw [if_pos h, echoed_eq hfd h (hlen u hu h).1 (hlen u hu h).2]
    · rw [if_neg h, echoed_of_other h]

end Echo

/-- **The loopback over a whole stream.**  With the loopback on, the callbacks get every
message of a stream, once and in order, and nothing is written but to the loopback.  What is
written there are the frames of the management and PRIME API messages, byte for byte, exactly
if each of them has a payload of 1 to 255 bytes. -/
theorem usi_loopback_stream_iff {s : State} {p : List UInt8} {f : Bool} (htr : Tracks s p f)
    (hidx : s.usIdxIn = 0) (hsize : s.txUsSize = txauxSize) (hfd : 0 < s.fdSocketLoopback)
    {us : List UsiMsg} (hreg : ∀ u ∈ us, s.usiCfgMapProtocols u.callbackIdx ≠ none)
    {inps : List Input} (hw : ∀ inp ∈ inps, inp.writes = .acceptAll)
    (hread : ReadsStream us p inps s) :
    ∃ s' ev, usiRun inps s = some (s', ev) ∧ received ev = us.map UsiMsg.delivery
      ∧ (∀ fd ≠ s.fdSocketLoopback, writtenTo fd ev = [])
      ∧ (writtenTo s.fdSocketLoopback ev = forLoopback us ↔
        ∀ u ∈ us, u.ucType ∈ loopbackProtocols →
          0 < u.payload.length ∧ u.payload.length < 256) := by
  have hoff : (s.withLoopback (-1)).fdSocketLoopback ≤ 0 := show (-1 : ℤ) ≤ 0 by decide
  obtain ⟨s1, ev1, hrun, hmsgs, -⟩ := usiRun_stream (s := s.withLoopback (-1))
    ⟨htr.loaded, htr.size, htr.flag⟩ hoff hreg
    ⟨hread.split, along_withLoopback hw hidx hsize hread.below⟩
  obtain ⟨m, ev, hrun', hsame, hwire⟩ := usiRun_redirect hw hidx hsize hrun
  refine ⟨_, ev, hrun', hsame.trans hmsgs, ?_, ?_⟩
  · intro fd hne
    rw [hwire, wireTo, List.filter_eq_nil_iff.mpr]
    · rfl
    · intro cmd hcmd
      obtain ⟨msg, -, hmem⟩ := List.mem_flatMap.mp hcmd
      simpa [target_of_mem_redirect hmem] using hne.symm
  · have hall : wireTo s.portFd s.fdSocketLoopback
        ((us.map UsiMsg.delivery).flatMap (redirect s.fdSocketLoopback))
        = us.flatMap (echoed s.fdSocketLoopback) := by
      rw [wireTo, List.filter_eq_self.mpr, List.flatMap_map, List.flatMap_assoc]
      · rfl
      · intro cmd hcmd
        obtain ⟨msg, -, hmem⟩ := List.mem_flatMap.mp hcmd
        simpa using target_of_mem_redirect hmem
    rw [← flatMap_echoed_iff hfd, hwire, hmsgs, hall]

/-- A receiver with a loopback, for the PRIME API and the sniffer. -/
def loopbackReceiver : State :=
  halUsiLoopback 5 (opened 3 (fun _ => 0) (fun _ => 0)
    [(protocolPrimeApi, some fun _ => 0), (protocolSnifPrime, some fun _ => 0)])

/-- A PRIME API command of one byte comes back as it was; a message of the sniffer, whose frame is
read in two pieces, does not. -/
theorem usi_loopback_stream_primeApi :
    ∃ s' ev, usiRun (cutReads 10 (streamOf [primeApiMsg, snifferMsg]) ++ silence txauxSize)
        loopbackReceiver = some (s', ev)
      ∧ received ev = [primeApiMsg, snifferMsg].map UsiMsg.delivery
      ∧ (∀ fd ≠ 5, writtenTo fd ev = [])
      ∧ (writtenTo 5 ev = forLoopback [primeApiMsg, snifferMsg] ↔
        ∀ u ∈ [primeApiMsg, snifferMsg], u.ucType ∈ loopbackProtocols →
          0 < u.payload.length ∧ u.payload.length < 256) := by
  have htr : Tracks loopbackReceiver [] false := tracks_loopback 5 _
  refine usi_loopback_stream_iff htr rfl rfl (by decide) ?_ ?_
    (readsStream_cut 10 htr (by decide +kernel))
  · refine List.forall_mem_cons.mpr ⟨Option.some_ne_none _, ?_⟩
    exact List.forall_mem_singleton.mpr (Option.some_ne_none _)
  · intro inp hinp
    rcases List.mem_append.mp hinp with h | h
    · rcases List.mem_pair.mp h with rfl | rfl
      · rfl
      · rfl
    · rw [List.eq_of_mem_replicate h]
      rfl

end Usi
