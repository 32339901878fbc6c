/-
# The layers above the serial line

Embeds `usi_host.c`: the calls of `hal_usi.c` under the names that the applications use.
The layers above get the messages that are delivered, and answer with commands of their own,
from inside the callback or later.  `Upper` is any such layer.

Receiving and sending share no variable, so the callbacks see the messages of a run of the
receiver alone, and what they send changes nothing for it.  Hence the whole machine is one run
of the upper layer: the messages come one after the other, each once, with the doings of the
layer itself anywhere in between.  How the bytes were cut by `read` cannot be told.

Here the loopback is off, and every `write` takes the whole frame; a line that takes less gets
other bytes than the frame.
-/
import PlcManager.UsiResync
import PlcManager.UsiSend

namespace Usi

/-! ## The transmit half -/

/-- The state with another transmit half. -/
def State.withTx (s : State) (pucTxbuf0 : Mem UInt8) (usIdxIn : ℕ) : State :=
  { s with pucTxbuf0 := pucTxbuf0, usIdxIn := usIdxIn }

section WithTx

variable {s : State} {m : Mem UInt8} {k p : ℕ} {w : Writes} {inp : Input}

@[simp] theorem withTx_withTx {m' : Mem UInt8} {k' : ℕ} :
    (s.withTx m k).withTx m' k' = s.withTx m' k' := rfl

@[simp] theorem withTx_self : s.withTx s.pucTxbuf0 s.usIdxIn = s := rfl

/-- What is handed to a callback of the message at `p`, and the result. -/
def handed (s : State) (p : ℕ) : List Event × UInt8 :=
  let ucType := typeProtocol (s.pucRxbuf0.cell (p + 1))
  if announcedLen s.pucRxbuf0 p = 0
      ∧ ¬ (ucType = protocolMngpPrimeReset ∨ ucType = protocolMngpPrimeReboot) then ([], 0)
  else (dispatch s ucType p (announcedLen s.pucRxbuf0 p)).getD ([], 0)

/-- With the loopback off, processing a message is handing it to its callback. -/
theorem processMsg_eq_handed (hoff : s.fdSocketLoopback ≤ 0) :
    processMsg w s p = some (s, handed s p) := by
  have hretx : ∀ t n, ¬ 0 < ucRetxLen s t n := by
    intro t n
    rw [ucRetxLen, if_neg (by omega)]
    omega
  unfold processMsg handed
  simp only [if_neg (hretx _ _)]
  split_ifs
  · rfl
  · cases dispatch s (typeProtocol (s.pucRxbuf0.cell (p + 1))) p (announcedLen s.pucRxbuf0 p) with
    | none => rfl
    | some r => rfl

theorem processMsg_withTx (hoff : s.fdSocketLoopback ≤ 0) :
    processMsg w (s.withTx m k) p = some (s.withTx m k, handed s p) :=
  processMsg_eq_handed (s := s.withTx m k) hoff

theorem processFrame_withTx {pending first last : ℕ} (hoff : s.fdSocketLoopback ≤ 0) :
    processFrame w (s.withTx m k) pending first last
      = (processFrame w s pending first last).map fun r => (r.1.withTx m k, r.2) := by
  obtain ⟨rx, n, check, tx, txSize, idx, fd, portTx, portRx, cb, loop⟩ := s
  generalize hdec : decodeCopy rx first last = dec
  have hmsg := processMsg_eq_handed (w := w) (p := first + 1)
    (s := ⟨dec.1, n, false, tx, txSize, idx, fd, portTx, portRx, cb, loop⟩) hoff
  have hmsg' := processMsg_withTx (w := w) (p := first + 1) (m := m) (k := k)
    (s := ⟨dec.1, n, false, tx, txSize, idx, fd, portTx, portRx, cb, loop⟩) hoff
  unfold processFrame
  unfold State.withTx at hmsg' ⊢
  dsimp +instances only at hmsg hmsg' ⊢
  rw [hdec]
  split_ifs
  · rw [Option.map_some]
  · rw [hmsg, hmsg']
    simp only [Option.map_some]
  · simp only [Option.map_some]

/-- **The receiver does not see the transmit half.** -/
theorem halUsiProcess_withTx (hoff : s.fdSocketLoopback ≤ 0) :
    halUsiProcess inp (s.withTx m k)
      = (halUsiProcess inp s).map fun r => (r.1.withTx m k, r.2) := by
  unfold halUsiProcess
  cases inp.read with
  | none => rfl
  | some bytes =>
      dsimp only [State.withTx]
      by_cases hnone : (s.rxUsSize + bytes.length) % 65536 = 0
      · rw [if_pos hnone, if_pos hnone]
        rfl
      · rw [if_neg hnone, if_neg hnone]
        cases ((s.pucRxbuf0.withBehind txauxSize inp.behind).storeList s.rxUsSize bytes).find
            msgMark 0 ((s.rxUsSize + bytes.length) % 65536) with
        | none => rfl
        | some first =>
            dsimp only
            cases ((s.pucRxbuf0.withBehind txauxSize inp.behind).storeList s.rxUsSize bytes).find
                msgMark (first + 1) ((s.rxUsSize + bytes.length) % 65536) with
            | none => rfl
            | some last => exact processFrame_withTx (s := { s with pucRxbuf0 := _ }) hoff

/-- The state with another receive half. -/
def State.withRx (s : State) (pucRxbuf0 : Mem UInt8) (rxUsSize : ℕ) (sbCheckLen : Bool) : State :=
  { s with pucRxbuf0 := pucRxbuf0, rxUsSize := rxUsSize, sbCheckLen := sbCheckLen }

/-- A message is handed to at most one callback. -/
def AtMostOne (ev : List Event) : Prop := ev = [] ∨ ∃ idx q msg, ev = [.callback idx q msg]

theorem atMostOne_handed : AtMostOne (handed s p).1 := by
  unfold handed
  dsimp only
  split_ifs
  · exact Or.inl rfl
  · cases hd : dispatch s (typeProtocol (s.pucRxbuf0.cell (p + 1))) p
        (announcedLen s.pucRxbuf0 p) with
    | none => exact Or.inl rfl
    | some r => exact Or.inr (dispatch_events hd)

theorem processFrame_off {pending first last : ℕ} {s' : State} {ev : List Event}
    (hoff : s.fdSocketLoopback ≤ 0) (h : processFrame w s pending first last = some (s', ev)) :
    (∃ rx n f, s' = s.withRx rx n f) ∧ AtMostOne ev := by
  obtain ⟨rx, n, check, tx, txSize, idx, fd, portTx, portRx, cb, loop⟩ := s
  generalize hdec : decodeCopy rx first last = dec
  have hmsg := processMsg_eq_handed (w := w) (p := first + 1)
    (s := ⟨dec.1, n, false, tx, txSize, idx, fd, portTx, portRx, cb, loop⟩) hoff
  unfold processFrame at h
  dsimp only at h hmsg
  rw [hdec] at h
  split_ifs at h
  · obtain ⟨rfl, rfl⟩ := Prod.mk.inj (Option.some.inj h)
    exact ⟨⟨_, _, _, rfl⟩, Or.inl rfl⟩
  · rw [hmsg] at h
    obtain ⟨rfl, rfl⟩ := Prod.mk.inj (Option.some.inj h)
    exact ⟨⟨_, _, _, rfl⟩, atMostOne_handed⟩
  · obtain ⟨rfl, rfl⟩ := Prod.mk.inj (Option.some.inj h)
    exact ⟨⟨_, _, _, rfl⟩, Or.inl rfl⟩

/-- With the loopback off a call changes the receive half only, and calls at most one callback. -/
theorem halUsiProcess_off {s' : State} {ev : List Event} (hoff : s.fdSocketLoopback ≤ 0)
    (h : halUsiProcess inp s = some (s', ev)) :
    (∃ rx n f, s' = s.withRx rx n f) ∧ AtMostOne ev := by
  unfold halUsiProcess at h
  cases hread : inp.read with
  | none =>
      rw [hread] at h
      obtain ⟨rfl, rfl⟩ := Prod.mk.inj (Option.some.inj h)
      exact ⟨⟨s.pucRxbuf0, s.rxUsSize, s.sbCheckLen, rfl⟩, Or.inl rfl⟩
  | some bytes =>
      rw [hread] at h
      dsimp only at h
      generalize (s.pucRxbuf0.withBehind txauxSize inp.behind).storeList s.rxUsSize bytes = rx at h
      generalize (s.rxUsSize + bytes.length) % 65536 = pending at h
      split_ifs at h
      · obtain ⟨rfl, rfl⟩ := Prod.mk.inj (Option.some.inj h)
        exact ⟨⟨_, _, _, rfl⟩, Or.inl rfl⟩
      · cases hfirst : rx.find msgMark 0 pending with
        | none =>
            rw [hfirst] at h
            obtain ⟨rfl, rfl⟩ := Prod.mk.inj (Option.some.inj h)
            exact ⟨⟨_, _, _, rfl⟩, Or.inl rfl⟩
        | some first =>
            rw [hfirst] at h
            dsimp only at h
            cases hlast : rx.find msgMark (first + 1) pending with
            | none =>
                rw [hlast] at h
                obtain ⟨rfl, rfl⟩ := Prod.mk.inj (Option.some.inj h)
                exact ⟨⟨_, _, _, rfl⟩, Or.inl rfl⟩
            | some last =>
                rw [hlast] at h
                obtain ⟨⟨rx', n, f, rfl⟩, hev⟩ := processFrame_off (s := { s with pucRxbuf0 := rx })
                  hoff h
                exact ⟨⟨rx', n, f, rfl⟩, hev⟩

/-- A run of the receiver does not see the transmit half either. -/
theorem usiRun_withTx {inps : List Input} (hoff : s.fdSocketLoopback ≤ 0) :
    usiRun inps (s.withTx m k) = (usiRun inps s).map fun r => (r.1.withTx m k, r.2) := by
  induction inps generalizing s with
  | nil => rfl
  | cons inp inps ih =>
      rw [usiRun, usiRun, halUsiProcess_withTx hoff]
      cases hproc : halUsiProcess inp s with
      | none => rfl
      | some r =>
          obtain ⟨⟨rx, n, f, hs⟩, -⟩ := halUsiProcess_off hoff hproc
          have hoff' : r.1.fdSocketLoopback ≤ 0 := by
            rw [hs]
            exact hoff
          simp only [Option.map_some, Option.bind_some]
          rw [ih hoff', Option.map_map, Option.map_map]
          rfl

end WithTx

/-! ## Commands -/

/-- Commands one after the other, on lines that take each frame whole; nobody looks at the
status. -/
def sendCmds : List XUsiCmd → State → Option (State × List Event)
  | [], s => some (s, [])
  | msg :: msgs, s =>
      (halUsiSendCmd .acceptAll s msg).bind fun r =>
        (sendCmds msgs r.1).map fun t => (t.1, r.2.2 ++ t.2)

/-- What a command puts on its line: its frame, if the transmit buffer holds it. -/
def XUsiCmd.wire (msg : XUsiCmd) : List UInt8 :=
  if msg.usLen ≠ 0 ∧ usiProtId2idx msg.ucPType ≠ usiInvalidProtocolIdx
      ∧ msg.frame.length ≤ txauxSize then msg.frame
  else []

/-- The descriptor that a command is written to. -/
def XUsiCmd.target (portFd : ℤ) (msg : XUsiCmd) : ℤ := if msg.fd < 0 then portFd else msg.fd

/-- What commands put on the line with descriptor `fd`. -/
def wireTo (portFd fd : ℤ) (msgs : List XUsiCmd) : List UInt8 :=
  (msgs.filter fun msg => msg.target portFd = fd).flatMap XUsiCmd.wire

/-- What has been written to a descriptor. -/
def writtenTo (fd : ℤ) (events : List Event) : List UInt8 :=
  events.flatMap fun
    | .callback _ _ _ => []
    | .write fd' bytes => if fd' = fd then bytes else []

section Commands

variable {s : State} {msg : XUsiCmd} {msgs cmds : List XUsiCmd} {portFd fd : ℤ} {xs ys : List Event}

@[simp] theorem writtenTo_append : writtenTo fd (xs ++ ys) = writtenTo fd xs ++ writtenTo fd ys :=
  List.flatMap_append

theorem wireTo_append : wireTo portFd fd (msgs ++ cmds)
    = wireTo portFd fd msgs ++ wireTo portFd fd cmds := by
  unfold wireTo
  rw [List.filter_append, List.flatMap_append]

theorem wireTo_cons (msg : XUsiCmd) (cmds : List XUsiCmd) : wireTo portFd fd (msg :: cmds)
    = wireTo portFd fd [msg] ++ wireTo portFd fd cmds := by
  rw [← List.singleton_append, wireTo_append]

theorem wireTo_singleton : wireTo portFd fd [msg]
    = if msg.target portFd = fd then msg.wire else [] := by
  unfold wireTo
  by_cases h : msg.target portFd = fd <;> simp [h]

/-- **One command**, on a line that is idle: it is idle again afterwards. -/
theorem halUsiSendCmd_wire (msg : XUsiCmd) (hidx : s.usIdxIn = 0) (hsize : s.txUsSize = txauxSize) :
    ∃ m st ev, halUsiSendCmd .acceptAll s msg = some (s.withTx m 0, st, ev)
      ∧ (∀ fd, writtenTo fd ev = wireTo s.portFd fd [msg]) ∧ received ev = [] := by
  have hkept : s = s.withTx s.pucTxbuf0 0 := by
    conv_lhs => rw [← withTx_self (s := s), hidx]
  -- nothing is written
  have hnone : msg.wire = [] → ∀ fd, writtenTo fd [] = wireTo s.portFd fd [msg] := by
    intro hwire fd
    rw [wireTo_singleton, hwire, ite_self]
    rfl
  by_cases hne : msg.usLen = 0
  · refine ⟨s.pucTxbuf0, .formatError, [], ?_, hnone (if_neg fun h => h.1 hne), rfl⟩
    rw [← hkept, halUsiSendCmd, if_pos hne]
  by_cases hknown : usiProtId2idx msg.ucPType = usiInvalidProtocolIdx
  · refine ⟨s.pucTxbuf0, .protocolNotFound, [], ?_, hnone (if_neg fun h => h.2.1 hknown), rfl⟩
    rw [← hkept, halUsiSendCmd, if_neg hne, if_pos hknown]
  have hbuf : msg.pucBuf ≠ [] := fun hnil => hne (congrArg List.length hnil)
  have hmin := XUsiCmd.le_length_frame hbuf
  have hpos := crcLen_pos msg.ucPType
  rw [halUsiSendCmd_eq hidx hsize.le hne hknown]
  by_cases hfit : msg.frame.length ≤ txauxSize
  · obtain ⟨m, hsend⟩ := usiEncodeAndSend_acceptAll hidx hsize.le hbuf (hfit.trans hsize.ge)
    refine ⟨m, .ok, [.write (msg.target s.portFd) msg.frame], ?_, ?_, ?_⟩
    · rw [if_neg (by rw [hsize]; unfold minOverhead; omega), hsend]
      rfl
    · intro fd
      have hwire : msg.wire = msg.frame := if_pos ⟨hne, hknown, hfit⟩
      rw [wireTo_singleton, hwire]
      exact List.append_nil _
    · rfl
  · have hwire : msg.wire = [] := if_neg fun h => hfit h.2.2
    by_cases hshort : s.txUsSize < msg.usLen + minOverhead
    · refine ⟨s.pucTxbuf0, .rxBufferOverflow, [], ?_, hnone hwire, rfl⟩
      rw [← hkept, if_pos hshort]
    · have hlen : msg.usLen + 7 < 65536 := by
        rw [hsize] at hshort
        unfold txauxSize minOverhead at hshort
        omega
      obtain ⟨m, hsend⟩ := usiEncodeAndSend_of_overflow (w := .acceptAll) hidx hsize.le hbuf hlen
        (by rw [hsize]; exact not_le.mp hfit)
      refine ⟨m, .txBufferOverflow, [], ?_, hnone hwire, rfl⟩
      rw [if_neg hshort, hsend]
      conv_rhs => rw [State.withTx, ← hidx]

/-- **Commands one after the other.** -/
theorem sendCmds_wire (msgs : List XUsiCmd) (hidx : s.usIdxIn = 0)
    (hsize : s.txUsSize = txauxSize) :
    ∃ m ev, sendCmds msgs s = some (s.withTx m 0, ev)
      ∧ (∀ fd, writtenTo fd ev = wireTo s.portFd fd msgs) ∧ received ev = [] := by
  induction msgs generalizing s with
  | nil =>
      refine ⟨s.pucTxbuf0, [], ?_, fun _ => rfl, rfl⟩
      rw [sendCmds]
      conv_lhs => rw [← withTx_self (s := s), hidx]
  | cons msg msgs ih =>
      obtain ⟨m, st, ev, hsend, hev, hrx⟩ := halUsiSendCmd_wire msg hidx hsize
      obtain ⟨m', ev', hrest, hev', hrx'⟩ := ih (s := s.withTx m 0) rfl hsize
      refine ⟨m', ev ++ ev', ?_, ?_, ?_⟩
      · rw [sendCmds, hsend, Option.bind_some, hrest]
        rfl
      · intro fd
        rw [writtenTo_append, hev, hev', wireTo_cons msg msgs]
        rfl
      · rw [received_append, hrx, hrx']
        rfl

end Commands

/-! ## Upper layers -/

/-- The layers above the line: what they do with a message that is delivered, of which they get
the index of its callback, and what they do by themselves.  They answer with commands. -/
structure Upper (α υ : Type*) where
  deliver : ℕ × List UInt8 → υ → υ × List XUsiCmd
  act : α → υ → υ × List XUsiCmd

/-- What happens in the layers above. -/
inductive Happening (α : Type*) where
  | delivered (msg : ℕ × List UInt8)
  | acted (a : α)

/-- What happens to the host: a call of `usi_host_process`, or something above. -/
inductive HostEvent (α : Type*) where
  | process (inp : Input)
  | act (a : α)

variable {α υ : Type*}

/-- The message, if one is delivered. -/
def Happening.msg? : Happening α → Option (ℕ × List UInt8)
  | .delivered msg => some msg
  | .acted _ => none

/-- What the layers do by themselves. -/
def Happening.act? : Happening α → Option α
  | .delivered _ => none
  | .acted a => some a

/-- The calls of `usi_host_process`. -/
def HostEvent.input? : HostEvent α → Option Input
  | .process inp => some inp
  | .act _ => none

@[inherit_doc Happening.act?] def HostEvent.act? : HostEvent α → Option α
  | .process _ => none
  | .act a => some a

/-- One thing after the other, with all commands. -/
def Upper.run (up : Upper α υ) : List (Happening α) → υ → υ × List XUsiCmd
  | [], u => (u, [])
  | .delivered msg :: hs, u =>
      let r := up.deliver msg u
      let t := up.run hs r.1
      (t.1, r.2 ++ t.2)
  | .acted a :: hs, u =>
      let r := up.act a u
      let t := up.run hs r.1
      (t.1, r.2 ++ t.2)

/-- One event.  The callbacks run while the line is being processed, but on the transmit half
only. -/
def hostStep (up : Upper α υ) (e : HostEvent α) (x : State × υ) :
    Option ((State × υ) × List Event) :=
  match e with
  | .process inp =>
      (halUsiProcess inp x.1).bind fun r =>
        let t := up.run ((received r.2).map .delivered) x.2
        (sendCmds t.2 r.1).map fun q => ((q.1, t.1), r.2 ++ q.2)
  | .act a =>
      let t := up.act a x.2
      (sendCmds t.2 x.1).map fun q => ((q.1, t.1), q.2)

/-- One event after the other. -/
def hostRun (up : Upper α υ) : List (HostEvent α) → State × υ → Option ((State × υ) × List Event)
  | [], x => some (x, [])
  | e :: es, x => (hostStep up e x).bind fun r => (hostRun up es r.1).map fun t => (t.1, r.2 ++ t.2)

/-- The calls of `usi_host_process`, in their order. -/
def inputs (es : List (HostEvent α)) : List Input := es.filterMap HostEvent.input?

/-- What the layers did by themselves, in its order. -/
def acts (es : List (HostEvent α)) : List α := es.filterMap HostEvent.act?

section Events

variable {inp : Input} {inps : List Input} {a : α} {es : List (HostEvent α)}

theorem inputs_process : inputs (.process inp :: es) = inp :: inputs es := rfl

theorem inputs_act : inputs (.act a :: es) = inputs es := rfl

theorem inputs_map_process : inputs (inps.map .process : List (HostEvent α)) = inps := by
  unfold inputs
  rw [List.filterMap_map]
  exact List.filterMap_some

theorem acts_process : acts (.process inp :: es) = acts es := rfl

theorem acts_act : acts (.act a :: es) = a :: acts es := rfl

theorem acts_map_process : acts (inps.map .process : List (HostEvent α)) = [] := by
  unfold acts
  rw [List.filterMap_map]
  exact List.filterMap_eq_nil_iff.mpr fun _ _ => rfl

end Events

section Linear

variable {up : Upper α υ} {s s' : State} {u : υ} {ev : List Event} {es : List (HostEvent α)}
  {hs gs : List (Happening α)} {fd : ℤ}

theorem Upper.run_append : up.run (hs ++ gs) u
    = ((up.run gs (up.run hs u).1).1, (up.run hs u).2 ++ (up.run gs (up.run hs u).1).2) := by
  induction hs generalizing u with
  | nil => rfl
  | cons h hs ih => cases h <;> simp only [List.cons_append, Upper.run, ih, List.append_assoc]

/-- Nothing is written when a message is handed over. -/
theorem AtMostOne.writtenTo_eq (h : AtMostOne ev) : writtenTo fd ev = [] := by
  rcases h with rfl | ⟨idx, q, msg, rfl⟩
  · rfl
  · rfl

theorem filterMap_msg?_delivered {msgs : List (ℕ × List UInt8)} :
    (msgs.map (.delivered : _ → Happening α)).filterMap Happening.msg? = msgs := by
  induction msgs with
  | nil => rfl
  | cons msg msgs ih => exact congrArg (msg :: ·) ih

theorem filterMap_act?_delivered {msgs : List (ℕ × List UInt8)} :
    (msgs.map (.delivered : _ → Happening α)).filterMap Happening.act? = [] := by
  induction msgs with
  | nil => rfl
  | cons msg msgs ih => exact ih

/-- What a layer does by itself puts its commands on the lines, and the run goes on behind
them. -/
theorem hostRun_act (up : Upper α υ) (a : α) (es : List (HostEvent α)) (u : υ)
    (hidx : s.usIdxIn = 0) (hsize : s.txUsSize = txauxSize) :
    ∃ m evs, hostRun up (.act a :: es) (s, u)
        = (hostRun up es (s.withTx m 0, (up.act a u).1)).map (fun t => (t.1, evs ++ t.2))
      ∧ ∀ fd, writtenTo fd evs = wireTo s.portFd fd (up.act a u).2 := by
  obtain ⟨m, evs, hsend, hwire, -⟩ := sendCmds_wire (up.act a u).2 hidx hsize
  refine ⟨m, evs, ?_, hwire⟩
  rw [hostRun, hostStep]
  simp only [hsend, Option.map_some, Option.bind_some]

/-- **The machine is a run of the upper layer.**  For every run of the receiver there is an
order of the messages it delivers and of the doings of the layer, each in its own order, such
that the state of the layer and what is on the lines is what the layer does in that order. -/
theorem hostRun_linear (up : Upper α υ) (u : υ) (hoff : s.fdSocketLoopback ≤ 0)
    (hidx : s.usIdxIn = 0) (hsize : s.txUsSize = txauxSize)
    (hrun : usiRun (inputs es) s = some (s', ev)) :
    ∃ hs : List (Happening α), hs.filterMap Happening.msg? = received ev
      ∧ hs.filterMap Happening.act? = acts es
      ∧ ∃ m evs, hostRun up es (s, u) = some ((s'.withTx m 0, (up.run hs u).1), evs)
        ∧ ∀ fd, writtenTo fd evs = wireTo s.portFd fd (up.run hs u).2 := by
  induction es generalizing s s' u ev with
  | nil =>
      obtain ⟨rfl, rfl⟩ := Prod.mk.inj (Option.some.inj hrun)
      refine ⟨[], rfl, rfl, s.pucTxbuf0, [], ?_, fun _ => rfl⟩
      rw [hostRun]
      conv_lhs => rw [← withTx_self (s := s), hidx]
      rfl
  | cons e es ih =>
      cases e with
      | process inp =>
          obtain ⟨⟨s1, ev1⟩, hproc, hrest⟩ := Option.bind_eq_some_iff.mp hrun
          obtain ⟨⟨s2, ev2⟩, hrun2, heq⟩ := Option.map_eq_some_iff.mp hrest
          obtain ⟨rfl, rfl⟩ := Prod.mk.inj heq
          obtain ⟨⟨rx, n, f, rfl⟩, hone⟩ := halUsiProcess_off hoff hproc
          -- the callback answers, and the rest of the run starts behind its commands
          obtain ⟨m1, evs1, hsend, hwire1, -⟩ := sendCmds_wire (s := s.withRx rx n f)
            (up.run ((received ev1).map .delivered) u).2 hidx hsize
          have hrun2' : usiRun (inputs es) ((s.withRx rx n f).withTx m1 0)
              = some (s2.withTx m1 0, ev2) := by
            have hkept : usiRun (inputs es) (s.withRx rx n f) = some (s2, ev2) := hrun2
            rw [usiRun_withTx (s := s.withRx rx n f) hoff, hkept]
            rfl
          obtain ⟨hs, hmsgs, hacts, m, evs, hhost, hwire⟩ := ih
            (s := (s.withRx rx n f).withTx m1 0)
            (u := (up.run ((received ev1).map .delivered) u).1) hoff rfl hsize hrun2'
          refine ⟨(received ev1).map .delivered ++ hs, ?_, ?_, m, (ev1 ++ evs1) ++ evs, ?_, ?_⟩
          · rw [List.filterMap_append, filterMap_msg?_delivered, hmsgs, received_append]
          · rw [List.filterMap_append, filterMap_act?_delivered, hacts]
            rfl
          · rw [hostRun, hostStep]
            simp only [hproc, Option.bind_some, hsend, Option.map_some, hhost, Upper.run_append]
            rfl
          · intro fd
            rw [writtenTo_append, writtenTo_append, hone.writtenTo_eq, hwire1, hwire,
              Upper.run_append, wireTo_append]
            rfl
      | act a =>
          obtain ⟨m1, evs1, hact, hwire1⟩ := hostRun_act up a es u hidx hsize
          have hrun' : usiRun (inputs es) (s.withTx m1 0) = some (s'.withTx m1 0, ev) := by
            have hkept : usiRun (inputs es) s = some (s', ev) := hrun
            rw [usiRun_withTx hoff, hkept]
            rfl
          obtain ⟨hs, hmsgs, hacts, m, evs, hhost, hwire⟩ := ih (s := s.withTx m1 0)
            (u := (up.act a u).1) hoff rfl hsize hrun'
          refine ⟨.acted a :: hs, hmsgs, congrArg (a :: ·) hacts, m, evs1 ++ evs, ?_, ?_⟩
          · rw [hact, hhost]
            rfl
          · intro fd
            rw [writtenTo_append, hwire1, hwire, Upper.run, wireTo_append]
            rfl

/-- Messages and nothing else. -/
theorem eq_map_delivered {hs : List (Happening α)} (hacts : hs.filterMap Happening.act? = []) :
    hs = (hs.filterMap Happening.msg?).map .delivered := by
  induction hs with
  | nil => rfl
  | cons x hs ih =>
      cases x with
      | delivered msg => exact congrArg (List.cons (.delivered msg)) (ih hacts)
      | acted a => exact absurd hacts (List.cons_ne_nil a _)

/-- What a layer does before the line is read comes before all messages. -/
theorem hostRun_act_process (up : Upper α υ) (a : α) (u : υ) (hoff : s.fdSocketLoopback ≤ 0)
    (hidx : s.usIdxIn = 0) (hsize : s.txUsSize = txauxSize) {inps : List Input}
    (hrun : usiRun inps s = some (s', ev)) :
    ∃ x evs, hostRun up (.act a :: inps.map .process) (s, u) = some ((x,
      (up.run (.acted a :: (received ev).map .delivered) u).1), evs) := by
  obtain ⟨m, evs, hact, -⟩ := hostRun_act up a (inps.map .process) u hidx hsize
  have hrun' : usiRun (inputs (inps.map .process : List (HostEvent α))) (s.withTx m 0)
      = some (s'.withTx m 0, ev) := by
    rw [inputs_map_process, usiRun_withTx hoff, hrun]
    rfl
  obtain ⟨hs, hmsgs, hacts, m', evs', hhost, -⟩ :=
    hostRun_linear (s := s.withTx m 0) up (up.act a u).1 hoff rfl hsize hrun'
  have honly : hs = (received ev).map .delivered := by
    rw [eq_map_delivered (hacts.trans acts_map_process), hmsgs]
  refine ⟨(s'.withTx m 0).withTx m' 0, evs ++ evs', ?_⟩
  rw [hact, hhost, honly]
  rfl

/-- When the host gets through its events, so does the receiver. -/
theorem exists_usiRun (up : Upper α υ) (hoff : s.fdSocketLoopback ≤ 0) (hidx : s.usIdxIn = 0)
    (hsize : s.txUsSize = txauxSize) {x : State × υ} (h : hostRun up es (s, u) = some (x, ev)) :
    ∃ s' log, usiRun (inputs es) s = some (s', log) := by
  induction es generalizing s u ev x with
  | nil => exact ⟨s, [], rfl⟩
  | cons e es ih =>
      cases e with
      | process inp =>
          obtain ⟨⟨⟨s1, u1⟩, ev1⟩, hstep, hrest⟩ := Option.bind_eq_some_iff.mp h
          obtain ⟨⟨x2, ev2⟩, hrest, -⟩ := Option.map_eq_some_iff.mp hrest
          obtain ⟨⟨s2, log2⟩, hproc, hstep⟩ := Option.bind_eq_some_iff.mp hstep
          obtain ⟨⟨rx, n, f, rfl⟩, -⟩ := halUsiProcess_off hoff hproc
          obtain ⟨m, evs, hsend, -⟩ := sendCmds_wire (s := s.withRx rx n f)
            (up.run ((received log2).map .delivered) u).2 hidx hsize
          obtain ⟨q, hq, heq⟩ := Option.map_eq_some_iff.mp hstep
          rw [hsend] at hq
          obtain rfl := Option.some.inj hq
          have hs1 : (s.withRx rx n f).withTx m 0 = s1 :=
            congrArg Prod.fst (congrArg Prod.fst heq)
          subst hs1
          obtain ⟨s', log, hrun⟩ := ih (s := (s.withRx rx n f).withTx m 0) hoff rfl hsize hrest
          rw [usiRun_withTx (s := s.withRx rx n f) hoff] at hrun
          obtain ⟨⟨s3, log3⟩, hrun, -⟩ := Option.map_eq_some_iff.mp hrun
          exact ⟨s3, log2 ++ log3, by rw [inputs_process, usiRun_cons hproc, hrun]; rfl⟩
      | act a =>
          obtain ⟨m, evs, hact, -⟩ := hostRun_act up a es u hidx hsize
          rw [hact] at h
          obtain ⟨⟨x2, ev2⟩, hrest, -⟩ := Option.map_eq_some_iff.mp h
          obtain ⟨s', log, hrun⟩ := ih (s := s.withTx m 0) hoff rfl hsize hrest
          rw [usiRun_withTx hoff] at hrun
          obtain ⟨⟨s3, log3⟩, hrun, -⟩ := Option.map_eq_some_iff.mp hrun
          exact ⟨s3, log3, hrun⟩

/-- The same order for a run of the host, whatever the line brings; the receive half is that of
a run of the receiver. -/
theorem hostRun_order {x : State × υ} {evs : List Event} (hoff : s.fdSocketLoopback ≤ 0)
    (hidx : s.usIdxIn = 0) (hsize : s.txUsSize = txauxSize)
    (h : hostRun up es (s, u) = some (x, evs)) :
    ∃ hs : List (Happening α), hs.filterMap Happening.act? = acts es
      ∧ x.2 = (up.run hs u).1
      ∧ (∀ fd, writtenTo fd evs = wireTo s.portFd fd (up.run hs u).2)
      ∧ ∃ s' log m, usiRun (inputs es) s = some (s', log) ∧ x.1 = s'.withTx m 0 := by
  obtain ⟨s', log, hrun⟩ := exists_usiRun up hoff hidx hsize h
  obtain ⟨hs, -, hacts, m, evs', hhost, hwire⟩ := hostRun_linear up u hoff hidx hsize hrun
  rw [h] at hhost
  obtain ⟨rfl, rfl⟩ := Prod.mk.inj (Option.some.inj hhost)
  exact ⟨hs, hacts, rfl, hwire, s', log, m, hrun, rfl⟩

end Linear

/-! ## What is done with each message -/

namespace Upper

/-- What `out` makes of each message that is delivered, and of the state in which it comes. -/
def gather {β : Type*} (up : Upper α υ) (out : ℕ × List UInt8 → υ → List β) :
    List (Happening α) → υ → List β
  | [], _ => []
  | .delivered msg :: hs, u => out msg u ++ up.gather out hs (up.deliver msg u).1
  | .acted a :: hs, u => up.gather out hs (up.act a u).1

/-- Each message is delivered in a state that suits it. -/
def AtEach (up : Upper α υ) (P : ℕ × List UInt8 → υ → Prop) : List (Happening α) → υ → Prop
  | [], _ => True
  | .delivered msg :: hs, u => P msg u ∧ up.AtEach P hs (up.deliver msg u).1
  | .acted a :: hs, u => up.AtEach P hs (up.act a u).1

section Gather

variable {β γ : Type*} {up : Upper α υ} {P : ℕ × List UInt8 → υ → Prop}
  {out : ℕ × List UInt8 → υ → List β} {want : ℕ × List UInt8 → List γ} {key : β → γ}
  {hs : List (Happening α)} {u : υ}

/-- Nothing is made of a message but what is wanted of it. -/
theorem length_gather_le (hle : ∀ msg u, (out msg u).length ≤ (want msg).length) :
    (up.gather out hs u).length ≤ ((hs.filterMap Happening.msg?).flatMap want).length := by
  induction hs generalizing u with
  | nil => exact le_rfl
  | cons x hs ih =>
      cases x with
      | delivered msg =>
          rw [gather, List.filterMap_cons_some (show Happening.msg? (.delivered msg) = some msg
            from rfl), List.flatMap_cons, List.length_append, List.length_append]
          exact Nat.add_le_add (hle msg u) ih
      | acted a => exact ih

/-- **All or nothing.**  If each message gives what is wanted of it in a state that suits it,
and otherwise nothing although something is wanted, a run gives all that is wanted exactly if
each state suits. -/
theorem gather_eq_iff (hall : ∀ msg u, P msg u → (out msg u).map key = want msg)
    (hnone : ∀ msg u, ¬ P msg u → out msg u = [] ∧ want msg ≠ []) :
    (up.gather out hs u).map key = (hs.filterMap Happening.msg?).flatMap want
      ↔ up.AtEach P hs u := by
  have hle : ∀ msg u, (out msg u).length ≤ (want msg).length := by
    intro msg u
    by_cases h : P msg u
    · rw [← hall msg u h, List.length_map]
    · rw [(hnone msg u h).1]
      exact Nat.zero_le _
  induction hs generalizing u with
  | nil => exact iff_of_true rfl trivial
  | cons x hs ih =>
      cases x with
      | acted a => exact ih
      | delivered msg =>
          rw [gather, AtEach, List.filterMap_cons_some (show Happening.msg? (.delivered msg)
            = some msg from rfl), List.flatMap_cons, List.map_append]
          by_cases h : P msg u
          · rw [hall msg u h, List.append_cancel_left_eq]
            exact ih.trans (and_iff_right h).symm
          · refine iff_of_false (fun heq => ?_) fun hboth => h hboth.1
            -- what is missing here does not come later
            have hlen := congrArg List.length heq
            have hpos := List.length_pos_of_ne_nil (hnone msg u h).2
            have hrest : (up.gather out hs (up.deliver msg u).1).length ≤ _ := length_gather_le hle
            rw [(hnone msg u h).1, List.map_nil, List.nil_append, List.length_map,
              List.length_append] at hlen
            omega

end Gather

end Upper

/-! ## Streams -/

section Streams

variable {cb : ℕ → Option Serialization} {us : List UsiMsg}

theorem length_frame_eq {u : UsiMsg} : u.frame.length = u.text.length + 2 := by
  unfold UsiMsg.frame Escapes.delimit
  simp

/-- While a stream is received: a part of the messages has been delivered, whose frames were in
the buffer, and the pending bytes with those to come are the stream of the rest. -/
def InBuffered (us : List UsiMsg) (p : List UInt8) (rest : List Input)
    (log : List (ℕ × List UInt8)) : Prop :=
  ∃ gone left, us = gone ++ left ∧ log = gone.map UsiMsg.delivery
    ∧ p ++ bytesRead rest = streamOf left ∧ ∀ u ∈ gone, u.frame.length ≤ txauxSize

theorem invariant_inBuffered (hreg : ∀ u ∈ us, cb u.callbackIdx ≠ none) :
    Invariant cb (fun _ => PendingBelow) fun p _ rest log => InBuffered us p rest log := by
  refine ⟨?_, ?_, ?_⟩
  · rintro inp rest p f log hnone ⟨gone, left, hus, hlog, hp, hfit⟩
    rw [bytesRead_cons, bytes_of_read_none hnone, List.nil_append] at hp
    exact ⟨gone, left, hus, hlog, hp, hfit⟩
  · rintro inp rest s p f b log htr hread hbelow ⟨gone, left, hus, hlog, hp, -⟩
    exact (invariant_inStream hreg).inside _ _ _ _ _ _ _ htr hread hbelow
      ⟨gone, left, hus, hlog, hp⟩
  · rintro inp rest s p f b log p' f' e htr hread hbelow ⟨gone, left, hus, hlog, hp, hfit⟩ hstep
    have hlen := hbelow.length_lt htr hread
    rw [bytesRead_cons, bytes_of_read hread, ← List.append_assoc] at hp
    rcases hstep.streamOf hp fun u hu => hreg u (by simp [hus, hu]) with
      ⟨hp', rfl⟩ | ⟨u, left', rfl, hp', rfl⟩
    · exact ⟨gone, left, hus, by simpa using hlog, hp', hfit⟩
    · refine ⟨gone ++ [u], left', by simp [hus], by simp [hlog], hp', ?_⟩
      -- the frame has left the buffer
      have hcount := congrArg List.length hp
      simp only [streamOf_cons, List.length_append, List.length_cons, ← hp'] at hcount
      rw [List.length_append] at hlen
      have hframe : u.frame.length ≤ txauxSize := by
        rw [length_frame_eq]
        omega
      intro v hv
      rcases List.mem_append.mp hv with hv | hv
      · exact hfit v hv
      · rwa [List.mem_singleton.mp hv]

/-- The stream whose beginning is pending, and whose rest is read by the calls `inps`; after
it there are enough calls that read nothing. -/
structure ReadsStream (us : List UsiMsg) (p : List UInt8) (inps : List Input) (s : State) :
    Prop where
  split : ∃ heads tail, inps = heads ++ tail ∧ p ++ bytesRead heads = streamOf us
    ∧ (∀ i ∈ tail, i.Empty) ∧ txauxSize ≤ tail.length
  below : Along (fun _ => PendingBelow) inps s

/-- All messages of a stream are delivered, and each frame has been in the buffer. -/
theorem usiRun_stream {s : State} {p : List UInt8} {f : Bool} {inps : List Input}
    (htr : Tracks s p f) (hoff : s.fdSocketLoopback ≤ 0)
    (hreg : ∀ u ∈ us, s.usiCfgMapProtocols u.callbackIdx ≠ none)
    (h : ReadsStream us p inps s) : ∃ s' ev, usiRun inps s = some (s', ev)
      ∧ received ev = us.map UsiMsg.delivery ∧ ∀ u ∈ us, u.frame.length ≤ txauxSize := by
  obtain ⟨heads, tail, rfl, hbytes, htail, hlong⟩ := h.split
  have hstart : InBuffered us p (heads ++ tail) [] := by
    refine ⟨[], us, rfl, rfl, ?_, List.forall_mem_nil _⟩
    rw [bytesRead_append, bytesRead_of_empty htail, List.append_nil, hbytes]
  obtain ⟨s1, ev1, p1, f1, hrun1, htr1, hcb1, hoff1, hbelow1, hbuffered1⟩ :=
    usiRun_induction (invariant_inBuffered hreg) tail heads s p f [] htr rfl hoff h.below hstart
  obtain ⟨s', ev, p', f', hrun, ⟨gone, left, hus, hlog, hp, hfit⟩, hone⟩ :=
    usiRun_settles (invariant_inBuffered hreg) htail htr1 hcb1 hoff1 hbelow1 hbuffered1
      (htr1.loaded.length_le.trans hlong)
  have hleft : left = [] := by
    have hcount := count_streamOf left
    rw [← hp, bytesRead_nil, List.append_nil] at hcount
    exact List.length_eq_zero_iff.mp (by omega)
  rw [hleft, List.append_nil] at hus
  subst hus
  refine ⟨s', ev1 ++ ev, ?_, ?_, hfit⟩
  · rw [usiRun_append, hrun1, Option.bind_some, hrun]
    rfl
  · rw [received_append, ← hlog, List.nil_append]

/-- **Any layer above the line.**  The stream is read with less than a buffer pending at any time,
and every message has a callback.  Then the messages are delivered once and in order, however
`read` cuts the stream and whatever the layers do in between; the layers end in the state, and
the lines carry the commands, of one order of the messages and of their own doings. -/
theorem usi_host_linear {α υ : Type*} (up : Upper α υ) (u : υ) (fd : ℤ)
    (behindRx behindTx : ℕ → UInt8) (regs : List (UInt8 × Option Serialization))
    (hreg : ∀ u ∈ us, (opened fd behindRx behindTx regs).usiCfgMapProtocols u.callbackIdx ≠ none)
    (es : List (HostEvent α))
    (hes : ReadsStream us [] (inputs es) (opened fd behindRx behindTx regs)) :
    ∃ hs : List (Happening α), hs.filterMap Happening.msg? = us.map UsiMsg.delivery
      ∧ hs.filterMap Happening.act? = acts es
      ∧ ∃ s' evs, hostRun up es (opened fd behindRx behindTx regs, u)
          = some ((s', (up.run hs u).1), evs)
        ∧ ∀ fd', writtenTo fd' evs = wireTo fd fd' (up.run hs u).2 := by
  have hoff : (opened fd behindRx behindTx regs).fdSocketLoopback ≤ 0 := by
    rw [loopback_opened]
    decide
  have hport : (opened fd behindRx behindTx regs).portFd = fd := by
    obtain ⟨cb, hcb⟩ := opened_eq fd behindRx behindTx regs
    rw [hcb]
    rfl
  obtain ⟨s', ev, hrun, hmsgs, -⟩ :=
    usiRun_stream (tracks_opened fd behindRx behindTx regs) hoff hreg hes
  obtain ⟨hs, hhs, hacts, m, evs, hhost, hwire⟩ := hostRun_linear up u hoff
    (usIdxIn_opened fd behindRx behindTx regs) (txUsSize_opened fd behindRx behindTx regs) hrun
  rw [hport] at hwire
  exact ⟨hs, hhs.trans hmsgs, hacts, _, evs, hhost, hwire⟩

/-- A short stream, read in two pieces. -/
theorem readsStream_cut {s : State} (k : ℕ) (htr : Tracks s [] false)
    (hshort : 2 * (streamOf us).length < txauxSize) :
    ReadsStream us [] (cutReads k (streamOf us) ++ silence txauxSize) s := by
  refine ⟨⟨_, _, rfl, bytesRead_cutReads, empty_of_mem_silence, length_silence.ge⟩, ?_⟩
  refine (along_of_short _ htr ?_).mono fun _ _ _ h => h.1
  rwa [bytesRead_append, bytesRead_cutReads, bytesRead_of_empty empty_of_mem_silence,
    List.append_nil, List.length_nil, Nat.zero_add]

/-- Counts the messages and answers each with a sniffer message; sends one by itself as well. -/
def counting : Upper Unit ℕ where
  deliver _ n := (n + 1, [snifferCmd])
  act _ n := (n, [snifferCmd])

/-- Two messages in two reads, between which comes a command that nobody asked for. -/
def countingEvents : List (HostEvent Unit) :=
  .process (oneRead ((streamOf [snifferMsg, snifferMsg]).take 10)) :: .act ()
    :: .process (oneRead ((streamOf [snifferMsg, snifferMsg]).drop 10))
    :: (silence txauxSize).map .process

theorem inputs_countingEvents :
    inputs countingEvents
      = cutReads 10 (streamOf [snifferMsg, snifferMsg]) ++ silence txauxSize := by
  rw [countingEvents, inputs_process, inputs_act, inputs_process, inputs_map_process]
  rfl

theorem usi_host_linear_counting :
    ∃ hs : List (Happening Unit), hs.filterMap Happening.msg? = [(1, [0x55]), (1, [0x55])]
      ∧ hs.filterMap Happening.act? = [()]
      ∧ ∃ s' evs, hostRun counting countingEvents (snifferReceiver, 0)
          = some ((s', (counting.run hs 0).1), evs)
        ∧ ∀ fd', writtenTo fd' evs = wireTo 3 fd' (counting.run hs 0).2 := by
  have hacts : acts countingEvents = [()] := by
    rw [countingEvents, acts_process, acts_act, acts_process, acts_map_process]
  have hes : ReadsStream [snifferMsg, snifferMsg] [] (inputs countingEvents) snifferReceiver := by
    rw [inputs_countingEvents]
    exact readsStream_cut 10 (tracks_opened _ _ _ _) (by decide +kernel)
  have hhost := usi_host_linear counting 0 3 (fun _ => 0) (fun _ => 0) _
    (registered_snifferMsg (by simp)) countingEvents hes
  rwa [hacts] at hhost

end Streams

end Usi
