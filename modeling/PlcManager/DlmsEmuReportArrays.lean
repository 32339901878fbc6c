/-
# The arrays of the report

A line of the report takes the serial number of a node, which the emulator copies into a record
of its own first.  As long as what comes from the base node fits the emulator's list, every
string fits the array that it is copied into, and every line and every name the array that it is
printed into.
-/
import PlcManager.DlmsEmuBounds
import PlcManager.DlmsEmuReportFiles

namespace DlmsEmuReport

open DlmsEmu (DlmsReportInfo)
open XmlRep (text fmtU length_fmtU_le Sprintf)

/-! ## The arrays -/

/-- The strings of a record are in its arrays, and its number is an `int`. -/
def HeldByRecord (info : DlmsReportInfo) : Prop :=
  info.pcDevSn.length < 20 ∧ (text info.pcOperation).length < 10
    ∧ (text info.pcResult).length < 30 ∧ info.iElementId < 2 ^ 31

instance (info : DlmsReportInfo) : Decidable (HeldByRecord info) :=
  inferInstanceAs (Decidable (_ ∧ _))

section Arrays

variable {tm : Tm} {s s' : State} {c : Call × Answers} {cs : List (Call × Answers)}

/-- The names of the days have three letters. -/
theorem length_wdayName (n : ℕ) : (wdayName n).length = 3 := by
  rcases n with _ | _ | _ | _ | _ | _ | _ | n <;> simp [wdayName, text]

/-- The names of the months have three letters. -/
theorem length_monName (n : ℕ) : (monName n).length = 3 := by
  rcases n with _ | _ | _ | _ | _ | _ | _ | _ | _ | _ | _ | _ | n <;> simp [monName, text]

/-- A day is printed in three characters. -/
theorem length_fmt3d {n : ℕ} (h : n < 1000) : (fmt3d n).length = 3 := by
  have hle : (fmtU n).length ≤ 3 := length_fmtU_le (by decide) h
  rw [fmt3d, List.length_append, List.length_replicate]
  omega

/-- A year is printed in four characters. -/
theorem length_year (tm : Tm) : (fmtU (tm.tmYear + 1900)).length ≤ 4 :=
  length_fmtU_le (by decide) (Nat.lt_succ_of_le tm.year_le)

/-- What `asctime` prints fits the array of 26 bytes that it is for. -/
theorem length_asctime (tm : Tm) : (asctime tm).length ≤ 25 := by
  have := tm.sec_le
  have := tm.min_le
  have := tm.hour_le
  have := tm.mday_le
  have hyear := length_year tm
  simp only [asctime, List.length_append]
  rw [length_wdayName, length_monName, length_fmt3d (by omega), length_fmt02u (by omega),
    length_fmt02u (by omega), length_fmt02u (by omega)]
  simp [text]
  omega

/-- The time in a line. -/
theorem length_rowTime (tm : Tm) : (rowTime tm).length ≤ 19 := by
  have := tm.sec_le
  have := tm.min_le
  have := tm.hour_le
  have := tm.mday_le
  have := tm.mon_le
  have hyear := length_year tm
  simp only [rowTime, List.length_append]
  rw [length_fmt02u (by omega), length_fmt02u (by omega), length_fmt02u (by omega),
    length_fmt02u (by omega), length_fmt02u (by omega)]
  simp [text]
  omega

/-- The name of a cycle. -/
theorem length_cycleName (tm : Tm) : (cycleName (text "top_name") tm).length ≤ 28 := by
  have hyear := length_year tm
  simp only [cycleName, List.length_append, length_stamp]
  simp [text]
  omega

/-- The lines of a call stay inside their arrays if the strings of its record are in theirs. -/
theorem fits_prints (h : ∀ info, c.1 = .nodeCycle info → HeldByRecord info) :
    ∀ p ∈ prints (text "top_name") c, p.Fits := by
  obtain ⟨c, a⟩ := c
  have htime := length_asctime a.tm
  cases c with
  | startCycle =>
      simp only [prints, startPrints, List.forall_mem_cons]
      refine ⟨?_, by decide, List.forall_mem_nil _⟩
      simp [Sprintf.Fits, text]
      omega
  | nodeCycle info =>
      obtain ⟨hsn, hoperation, hresult, helement⟩ := h info rfl
      have hrow := length_rowTime a.tm
      have hnumber : (fmtU info.iElementId).length ≤ 10 :=
        length_fmtU_le (by decide) (by omega)
      simp only [prints, nodePrint, List.forall_mem_singleton, Sprintf.Fits, List.length_append]
      rw [show (text ";").length = 1 from rfl, show (text "\r\n").length = 2 from rfl]
      omega
  | endCycle =>
      simp only [prints, endPrint, List.forall_mem_singleton, Sprintf.Fits, List.length_append]
      rw [show (text "ending cycle ").length = 13 from rfl,
        show (text "top_name").length = 8 from rfl, show (text " at ").length = 4 from rfl,
        show (text "\r\n").length = 2 from rfl]
      omega

/-- So do the names of the files, and with them everything that a call prints. -/
theorem fits_step (hconf : s.spucConfName = text "top_name")
    (hinfo : ∀ info, c.1 = .nodeCycle info → HeldByRecord info)
    (hs : reportStep c s = some s') (h : ∀ p ∈ s.sprintfs, p.Fits) : ∀ p ∈ s'.sprintfs, p.Fits := by
  have hprints := fits_prints hinfo
  obtain ⟨c, a⟩ := c
  cases c with
  | startCycle =>
      obtain rfl := Option.some.inj hs
      have hlen := length_cycleName a.tm
      have hnames : ∀ p ∈ (s.setNames (cycleName s.spucConfName a.tm)).sprintfs, p.Fits := by
        rw [hconf]
        simp only [State.setNames, List.forall_mem_append, List.forall_mem_cons]
        refine ⟨h, ?_, ?_, List.forall_mem_nil _⟩
        · show (tmpPath _).length < 50
          rw [tmpPath, List.length_append, show (text "/tmp/").length = 5 from rfl]
          omega
        · show (ftpPath _).length < 50
          rw [ftpPath, List.length_append, show (text "/home/ftp/Cycles/").length = 17 from rfl]
          omega
      unfold dlmsEmuReportStartCycle
      dsimp only
      split_ifs
      · simp only [State.print, List.forall_mem_append]
        rw [show (s.setNames (cycleName s.spucConfName a.tm)).spucConfName = _ from hconf]
        exact ⟨hnames, hprints⟩
      · exact hnames
  | nodeCycle info =>
      obtain rfl := Option.some.inj hs
      unfold dlmsEmuReportNodeCycle
      split_ifs
      · exact List.forall_mem_append.mpr ⟨h, hprints⟩
      · exact h
  | endCycle =>
      by_cases hopens : s.Opens a
      · rw [endCycle_eq hopens hs, hconf]
        split_ifs
        · exact List.forall_mem_append.mpr ⟨h, hprints⟩
        · exact List.forall_mem_append.mpr ⟨h, hprints⟩
      · unfold reportStep dlmsEmuReportEndCycle at hs
        rw [if_neg hopens] at hs
        rwa [← Option.some.inj hs]

/-- As long as the strings of each record are in their arrays, every print stays in its own. -/
theorem fits_run {k : Option (List UInt8)} (hat : s.At (text "top_name") k)
    (hinfo : ∀ c ∈ cs, ∀ info, c.1 = .nodeCycle info → HeldByRecord info)
    (hrun : runSteps reportStep cs s = some s') (h : ∀ p ∈ s.sprintfs, p.Fits) :
    ∀ p ∈ s'.sprintfs, p.Fits := by
  induction cs generalizing s k with
  | nil => rwa [← Option.some.inj hrun]
  | cons c cs ih =>
      obtain ⟨u, hu, hrest⟩ := Option.bind_eq_some_iff.mp hrun
      rw [List.forall_mem_cons] at hinfo
      exact ih (hat.step hu) hinfo.2 hrest (fits_step hat.conf hinfo.1 hu h)

end Arrays

/-! ## The emulator's records -/

/-- Every record that has been handed over holds its strings. -/
def Recorded (s : DlmsEmu.State) : Prop :=
  ∀ info, .reportNodeCycle info ∈ s.trace → HeldByRecord info

section Emulator

open DlmsEmu (reportNode sendRequest stMachineSend cycleNextNode startCycle nextStep startTimer
  dlmsEmuMaxNumNodesConnected Fits)

variable {s s' : DlmsEmu.State} {e : DlmsEmu.Event} {outs : List DlmsEmu.Output}
  {usIndex : UInt16} {t : DlmsEmu.DlmsStatusTag} {result : String}

/-- The records that are handed over now hold their strings, as those before. -/
theorem Recorded.append (h : Recorded s) (htrace : s'.trace = s.trace ++ outs)
    (houts : ∀ info, .reportNodeCycle info ∈ outs → HeldByRecord info) : Recorded s' := by
  intro info hinfo
  rw [htrace, List.mem_append] at hinfo
  rcases hinfo with hinfo | hinfo
  · exact h info hinfo
  · exact houts info hinfo

/-- No record is handed over. -/
theorem Recorded.congr (h : Recorded s) (htrace : s'.trace = s.trace) : Recorded s' :=
  h.append (htrace.trans (List.append_nil _).symm) fun _ hinfo => absurd hinfo List.not_mem_nil

/-- A request hands over no record. -/
theorem Recorded.sendRequest (h : Recorded s) : Recorded (sendRequest usIndex t s) := by
  obtain ⟨lsdu, -, htrace⟩ := DlmsEmu.sendRequest_trace usIndex t s
  exact h.append htrace (by simp)

/-- Nor does the step to the next node. -/
theorem Recorded.cycleNextNode (h : Recorded s) : Recorded (cycleNextNode s) := by
  by_cases hlt : DlmsEmu.getNextNodeToCycle s.susCurrentNode s < dlmsEmuMaxNumNodesConnected
  · rw [DlmsEmu.cycleNextNode_of_lt hlt]
    exact Recorded.sendRequest (h.congr rfl)
  · rw [DlmsEmu.cycleNextNode_of_not_lt hlt]
    exact h.append rfl (by simp)

/-- Nor does a state of the machine that sends. -/
theorem Recorded.stMachineSend (h : Recorded s) : Recorded (stMachineSend usIndex t s) := by
  rw [DlmsEmu.stMachineSend_eq]
  split_ifs
  · exact h.sendRequest
  · exact h.cycleNextNode

/-- Nor does the start of a cycle. -/
theorem Recorded.startCycle (h : Recorded s) : Recorded (startCycle s) := by
  rcases DlmsEmu.startCycle_cases s with ⟨m, c, hs⟩ | ⟨m, -, -, hs⟩
  · rw [hs]
    exact h.congr rfl
  · rw [hs]
    exact Recorded.sendRequest (h.append rfl (by simp))

/-- The current node is in the list, and its serial number in its array. -/
theorem Recorded.reportNode (h : Recorded s) (hs : s.WellKept)
    (hcurrent : s.susCurrentNode < dlmsEmuMaxNumNodesConnected)
    (hresult : (text result).length < 30) : Recorded (reportNode result s) := by
  refine h.append rfl fun info hinfo => ?_
  have hinfo := DlmsEmu.Output.reportNodeCycle.inj (List.mem_singleton.mp hinfo)
  have hserial := DlmsEmu.length_serialText hs.ended (UInt16.lt_iff_toNat_lt.mp hcurrent)
  rw [hinfo]
  refine ⟨lt_trans hserial (by decide), show (text "GET").length < 10 by decide, hresult, ?_⟩
  show s.sucCurrentNodeDlmsStep.elementId < 2 ^ 31
  cases s.sucCurrentNodeDlmsStep <;> decide

/-- The next step hands over at most the record of the current node. -/
theorem Recorded.nextStep (h : Recorded s) (hs : s.WellKept)
    (hcurrent : s.susCurrentNode < dlmsEmuMaxNumNodesConnected) : Recorded (nextStep s) := by
  have hreport := h.reportNode hs hcurrent
    (show (text DlmsEmu.spcRepResultSuccess).length < 30 by decide)
  by_cases hrelease : s.sucCurrentNodeDlmsStep = .releaseRequest
  · rw [DlmsEmu.nextStep_of_release hrelease]
    split_ifs
    · exact hreport.congr rfl
    · exact hreport.append rfl (by simp)
  · obtain ⟨t, bn, -, hstep⟩ := DlmsEmu.nextStep_of_ne_release hrelease
    rw [hstep]
    exact Recorded.stMachineSend (hreport.congr rfl)

/-- So do the handlers of the other timers. -/
theorem Recorded.timerHandler {u : DlmsEmu.Timer} (h : Recorded s) (hs : s.WellKept)
    (hcurrent : u = .timeout ∨ u = .nextStep → s.susCurrentNode < dlmsEmuMaxNumNodesConnected) :
    Recorded (DlmsEmu.timerHandler u s) := by
  cases u with
  | timeout =>
      exact Recorded.cycleNextNode (h.reportNode hs (hcurrent (.inl rfl))
        (show (text DlmsEmu.spcRepResultFailTimeout).length < 30 by decide))
  | nextCycle => exact h.startCycle
  | nextNode => exact h.cycleNextNode
  | nextStep => exact h.nextStep hs (hcurrent (.inr rfl))

/-- **One step.** -/
theorem Recorded.step (h : Recorded s) (hs : s.WellKept) (hfits : Fits e s)
    (hstep : DlmsEmu.step e s = some s') : Recorded s' := by
  cases e with
  | command buf =>
      obtain rfl := Option.some.inj hstep
      rcases DlmsEmu.dlmsEmuRcvCmd_cases buf s with ⟨-, hcmd⟩ | hcmd | hcmd
      · rw [hcmd]
        exact h.append rfl (by simp)
      · obtain ⟨ts, hts, -⟩ := DlmsEmu.stopCycles_eq s
        rw [hcmd, hts]
        exact h.congr rfl
      · rwa [hcmd]
  | response msg len =>
      obtain rfl := Option.some.inj hstep
      have hrecords : Recorded (DlmsEmu.listRecords msg s) := by
        obtain ⟨nodes, m, heq⟩ := DlmsEmu.listRecords_eq msg s
        rw [heq]
        exact h.congr rfl
      rcases DlmsEmu.dlmsMngpRspCb_cases msg len s with heq | heq | ⟨it, heq⟩ | ⟨-, heq⟩
      · rwa [heq]
      · rwa [heq]
      · rw [heq]
        exact hrecords.append rfl (by simp)
      · rw [heq]
        exact hrecords.startCycle
  | dataCfm dstLsap srcLsap dst status =>
      obtain rfl := Option.some.inj hstep
      unfold DlmsEmu.dlmsEmuCl432DlDataCfmCb
      split_ifs with hok hnegative
      · exact h.congr rfl
      · have hreport := h.reportNode hs (hfits hnegative)
          (show (text DlmsEmu.spcRepResultFail).length < 30 by decide)
        exact hreport.congr rfl
      · exact h
  | dataInd dstLsap srcLsap dst src data len linkClass =>
      obtain rfl := Option.some.inj hstep
      obtain ⟨ts, hts, -⟩ := DlmsEmu.dataInd_eq dstLsap srcLsap dst src data len linkClass s
      rw [hts]
      split_ifs with hcheck
      · exact h.congr rfl
      · have hstopped : Recorded { s with timers := ts } := h.congr rfl
        have hreport := hstopped.reportNode ⟨hs.max, hs.ended⟩ (hfits hcheck)
          (show (text DlmsEmu.spcRepResultFailInvalid).length < 30 by decide)
        exact hreport.congr rfl
  | joinInd deviceId len dst mac =>
      obtain rfl := Option.some.inj hstep
      obtain ⟨nodes, m, hjoin⟩ := DlmsEmu.joinInd_eq deviceId len dst mac s
      rw [hjoin]
      exact h.congr rfl
  | leaveInd dst =>
      obtain rfl := Option.some.inj hstep
      exact h.congr rfl
  | expire u =>
      rw [DlmsEmu.step_expire] at hstep
      split_ifs at hstep with harmed
      obtain rfl := Option.some.inj hstep
      have hstopped : Recorded (s.disarm u) := h.congr rfl
      exact hstopped.timerHandler ⟨hs.max, hs.ended⟩ (hfits harmed)

/-- **A run.** -/
theorem Recorded.run {es : List DlmsEmu.Event} (h : Recorded s) (hs : s.WellKept)
    (hfits : AlongSteps DlmsEmu.step Fits es s) (hrun : runSteps DlmsEmu.step es s = some s') :
    Recorded s' := by
  induction es generalizing s with
  | nil => rwa [← Option.some.inj hrun]
  | cons e es ih =>
      obtain ⟨u, hu, hrest⟩ := Option.bind_eq_some_iff.mp hrun
      exact ih (h.step hs hfits.1 hu) (hs.step hfits.1 hu) (hfits.2 u hu) hrest

/-- The emulator starts with no record handed over. -/
theorem recorded_started (appId : ℤ) (ids : DlmsEmu.TimerIds) (behind : ℕ → UInt8) :
    Recorded (DlmsEmu.started appId ids behind) := by
  intro info hinfo
  simp [DlmsEmu.started, DlmsEmu.dlmsEmuInit, DlmsEmu.State.emit, DlmsEmu.State.static] at hinfo

end Emulator

/-- The calls among what leaves the emulator, with what each is answered. -/
def calls (answers : ℕ → Answers) (outs : List DlmsEmu.Output) : List (Call × Answers) :=
  (outs.filterMap call?).zipIdx.map fun p => (p.1, answers p.2)

/-- What is handed over to the reports is a call of them. -/
theorem mem_calls {answers : ℕ → Answers} {outs : List DlmsEmu.Output} {c : Call × Answers}
    {info : DlmsReportInfo} (hc : c ∈ calls answers outs) (hcall : c.1 = .nodeCycle info) :
    .reportNodeCycle info ∈ outs := by
  obtain ⟨⟨call, n⟩, hmem, rfl⟩ := List.mem_map.mp hc
  obtain ⟨out, hout, hcall?⟩ := List.mem_filterMap.mp (List.fst_mem_of_mem_zipIdx hmem)
  obtain rfl : call = .nodeCycle info := hcall
  cases out with
  | reportNodeCycle info' =>
      obtain rfl := Call.nodeCycle.inj (Option.some.inj hcall?)
      exact hout
  | _ => cases hcall?

/-- **The arrays are large enough.**  In every run of the emulator in which addresses, serial
numbers and reports fit its list, each record holds the strings that are copied into it, and
each print of the reports, whatever the time is and whichever files can be opened, stays inside
the array that it is printed into. -/
theorem dlms_emu_report_prints_fit (appId : ℤ) (ids : DlmsEmu.TimerIds) (behind : ℕ → UInt8)
    {es : List DlmsEmu.Event} {s : DlmsEmu.State}
    (hrun : runSteps DlmsEmu.step es (DlmsEmu.started appId ids behind) = some s)
    (hfits : AlongSteps DlmsEmu.step DlmsEmu.Fits es (DlmsEmu.started appId ids behind))
    (files : List UInt8 → Option (List UInt8)) (answers : ℕ → Answers) {r : State}
    (hreport : runSteps reportStep (calls answers s.trace) (started files) = some r) :
    Recorded s ∧ ∀ p ∈ r.sprintfs, p.Fits := by
  have hrecorded := (recorded_started appId ids behind).run
    (DlmsEmu.wellKept_started appId ids behind) hfits hrun
  refine ⟨hrecorded, fits_run (at_started files) (fun c hc info hcall => ?_) hreport ?_⟩
  · exact hrecorded info (mem_calls hc hcall)
  · exact List.forall_mem_singleton.mpr (by decide)

/-- Node 1 joins with the serial number ZIV1, and a cycle is asked for.  The request to the
node fails, which ends the cycle. -/
def failingNode1 : List DlmsEmu.Event :=
  [.joinInd (DlmsEmu.message (text "ZIV1")) 4 1 (DlmsEmu.message []),
    .command [DlmsEmu.dlmsEmuCmdStartCycles],
    .response (DlmsEmu.message [0, 0, 0x0f, 0x82, 0x50, 0, 0]) 7,
    .dataCfm 0 0 1 DlmsEmu.cl432TxStatusTimeout, .expire .nextNode]

/-- The cycle and the node are reported, and all that is printed fits. -/
theorem dlms_emu_report_prints_fit_failingNode1 : ∃ (s : DlmsEmu.State) (r : State),
    runSteps DlmsEmu.step failingNode1 (DlmsEmu.started 4 .inOrder fun _ => 0) = some s
      ∧ s.trace.filterMap call?
        = [.startCycle, .nodeCycle ⟨0, text "ZIV1", "DLMS ERROR", "GET"⟩, .endCycle]
      ∧ runSteps reportStep (calls (fun _ => opened 0) s.trace) (started fun _ => none) = some r
      ∧ Recorded s ∧ ∀ p ∈ r.sprintfs, p.Fits := by
  have hrun : ((runSteps DlmsEmu.step failingNode1 (DlmsEmu.started 4 .inOrder fun _ => 0)).map
      fun s => s.trace.filterMap call?)
        = some [.startCycle, .nodeCycle ⟨0, text "ZIV1", "DLMS ERROR", "GET"⟩, .endCycle] := by
    decide +kernel
  have hfits : AlongSteps DlmsEmu.step DlmsEmu.Fits failingNode1
      (DlmsEmu.started 4 .inOrder fun _ => 0) := by
    decide +kernel
  obtain ⟨s, hs, htrace⟩ := Option.map_eq_some_iff.mp hrun
  have hanswers : ∀ c ∈ calls (fun _ => opened 0) s.trace, c.2.opensAgain = true := by
    intro c hc
    obtain ⟨p, -, rfl⟩ := List.mem_map.mp hc
    rfl
  obtain ⟨r, hr⟩ := exists_run (started fun _ => none) hanswers
  exact ⟨s, r, hs, htrace, hr, dlms_emu_report_prints_fit 4 .inOrder (fun _ => 0) hs hfits _ _ hr⟩

end DlmsEmuReport
