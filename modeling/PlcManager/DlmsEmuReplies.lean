/-
# Which messages end a step of the DLMS emulator

A step should be ended by a response of the current node that begins as a response to the
request does.  The callback looks at neither the sender nor the length of a message.  So a
message of another node ends the step as well, and so does one that is too short, if the
receive buffer still holds the rest of an earlier one; of the three bytes that a part of a
profile begins with, two are compared.
-/
import PlcManager.DlmsEmuTimers

namespace DlmsEmu

/-! ## Verdicts -/

/-- What a response begins with. -/
def expectedResponse : DlmsStatusTag → List UInt8
  | .associationRequest => assocResponseVal
  | .dateRequest => getRequestDateVal
  | .so2Request => getRequestS02val
  | .nextblockRequest => getRequestS02val
  | .releaseRequest => releaseResponseVal

/-- The callback arms the next-step timer, also when it has been disarmed. -/
def ArmsNextStep (ucDstLsap ucSrcLsap : UInt8) (usDstAddress srcAddress : UInt16)
    (pucData : Mem UInt8) (ucLsduLen : UInt16) (ucLinkClass : UInt8) (s : State) : Prop :=
  (dlmsEmuCl432DlDataIndCb ucDstLsap ucSrcLsap usDstAddress srcAddress pucData ucLsduLen
    ucLinkClass (s.disarm .nextStep)).timers.armed .nextStep = true

/-- The bytes of the message itself. -/
def ownBytes (pucData : Mem UInt8) (ucLsduLen : UInt16) : List UInt8 :=
  pucData.slice 0 ucLsduLen.toNat

/-- The next-step timer is armed for a response of the current node only, and the verdict
does not depend on what is behind the message. -/
structure VerdictLaw (ucDstLsap ucSrcLsap : UInt8) (usDstAddress srcAddress : UInt16)
    (pucData : Mem UInt8) (ucLsduLen : UInt16) (ucLinkClass : UInt8) (s : State) : Prop where
  sender : ArmsNextStep ucDstLsap ucSrcLsap usDstAddress srcAddress pucData ucLsduLen ucLinkClass
    s → srcAddress = s.susCurrentNode
  message : ArmsNextStep ucDstLsap ucSrcLsap usDstAddress srcAddress pucData ucLsduLen ucLinkClass
    s → expectedResponse s.sucCurrentNodeDlmsStep <+: ownBytes pucData ucLsduLen
  behind : ∀ pucData' : Mem UInt8, ownBytes pucData' ucLsduLen = ownBytes pucData ucLsduLen →
    (ArmsNextStep ucDstLsap ucSrcLsap usDstAddress srcAddress pucData' ucLsduLen ucLinkClass s
      ↔ ArmsNextStep ucDstLsap ucSrcLsap usDstAddress srcAddress pucData ucLsduLen ucLinkClass s)

/-- Every data indication gets the verdict that it should get. -/
def RightVerdict : Event → State → Prop
  | .dataInd ucDstLsap ucSrcLsap usDstAddress srcAddress pucData ucLsduLen ucLinkClass, s =>
      VerdictLaw ucDstLsap ucSrcLsap usDstAddress srcAddress pucData ucLsduLen ucLinkClass s
  | _, _ => True

/-- As far as the message goes, it does not differ from what it is compared with. -/
def Passes (t : DlmsStatusTag) (pucData : Mem UInt8) (ucLsduLen : UInt16) : Prop :=
  ∀ i (h : i < (responseVal t).length), i < ucLsduLen.toNat → pucData.cell i = (responseVal t)[i]

/-- A message that does not differ is of the current node and begins as a response does. -/
def GenuineReply : Event → State → Prop
  | .dataInd _ _ _ srcAddress pucData ucLsduLen _, s =>
      Passes s.sucCurrentNodeDlmsStep pucData ucLsduLen → srcAddress = s.susCurrentNode
        ∧ expectedResponse s.sucCurrentNodeDlmsStep <+: ownBytes pucData ucLsduLen
  | _, _ => True

section Verdicts

variable {ucDstLsap ucSrcLsap ucLinkClass : UInt8} {usDstAddress srcAddress ucLsduLen : UInt16}
  {pucData pucData' : Mem UInt8} {t : DlmsStatusTag} {s : State} {e : Event}

/-- The timer is armed when the message passes the comparison, and only then. -/
theorem armsNextStep_iff : ArmsNextStep ucDstLsap ucSrcLsap usDstAddress srcAddress pucData
    ucLsduLen ucLinkClass s ↔ CheckDlmsMessage s.sucCurrentNodeDlmsStep pucData := by
  obtain ⟨ts, hts, harmed⟩ := dataInd_eq ucDstLsap ucSrcLsap usDstAddress srcAddress pucData
    ucLsduLen ucLinkClass (s.disarm .nextStep)
  rw [ArmsNextStep, hts]
  have hdisarmed : ts.armed .nextStep = false := by
    rw [harmed, if_neg (by simp), disarm_timers, armed_set, if_pos rfl]
  split_ifs with h
  · exact iff_of_true rfl h
  · refine iff_of_false (fun hon => ?_) h
    rw [startTimer_timers, armed_set, if_neg (by simp)] at hon
    exact absurd (hdisarmed.symm.trans hon) (by simp)

/-- What is compared is the beginning of what is expected. -/
theorem responseVal_starts (t : DlmsStatusTag) : responseVal t <+: expectedResponse t := by
  cases t <;> decide

theorem checkDlmsMessage_iff : CheckDlmsMessage t pucData
    ↔ ∀ i (h : i < (responseVal t).length), pucData.cell i = (responseVal t)[i] := by
  constructor
  · intro h i hi
    rw [← Mem.cell_of_slice h hi, Nat.zero_add]
  · intro h
    apply Mem.slice_eq rfl
    intro k hk
    rw [Nat.zero_add]
    exact h k hk

theorem passes_of_check (h : CheckDlmsMessage t pucData) : Passes t pucData ucLsduLen :=
  fun i hi _ => checkDlmsMessage_iff.mp h i hi

/-- Whether a message passes depends on its own bytes only. -/
theorem Passes.congr (h : Passes t pucData ucLsduLen)
    (hown : ownBytes pucData' ucLsduLen = ownBytes pucData ucLsduLen) :
    Passes t pucData' ucLsduLen := by
  intro i hi hlt
  rw [← h i hi hlt]
  have hcell := Mem.cell_of_slice hown (k := i) (by rw [ownBytes, Mem.length_slice]; exact hlt)
  rw [Nat.zero_add] at hcell
  rw [hcell]
  unfold ownBytes
  rw [Mem.getElem_slice, Nat.zero_add]

/-- A message that has all bytes that are compared is accepted if it does not differ. -/
theorem Passes.check (h : Passes t pucData ucLsduLen)
    (hlong : (responseVal t).length ≤ ucLsduLen.toNat) : CheckDlmsMessage t pucData :=
  checkDlmsMessage_iff.mpr fun i hi => h i hi (lt_of_lt_of_le hi hlong)

/-- The message with the missing bytes behind it. -/
def completed (t : DlmsStatusTag) (pucData : Mem UInt8) (ucLsduLen : UInt16) : Mem UInt8 :=
  pucData.withBehind ucLsduLen.toNat fun i => (responseVal t).getD i 0

theorem ownBytes_completed :
    ownBytes (completed t pucData ucLsduLen) ucLsduLen = ownBytes pucData ucLsduLen :=
  Mem.slice_withBehind (by omega) _

/-- What does not differ is accepted with the right bytes behind it. -/
theorem Passes.check_completed (h : Passes t pucData ucLsduLen) :
    CheckDlmsMessage t (completed t pucData ucLsduLen) := by
  rw [checkDlmsMessage_iff]
  intro i hi
  show (if i < ucLsduLen.toNat then pucData.cell i else (responseVal t).getD i 0) = _
  split_ifs with hlt
  · exact h i hi hlt
  · rw [List.getD_eq_getElem _ _ hi]

/-- **One indication.**  The verdict is right exactly if the message differs from what it is
compared with, or is a response of the current node. -/
theorem verdictLaw_iff :
    VerdictLaw ucDstLsap ucSrcLsap usDstAddress srcAddress pucData ucLsduLen ucLinkClass s
      ↔ (Passes s.sucCurrentNodeDlmsStep pucData ucLsduLen → srcAddress = s.susCurrentNode
        ∧ expectedResponse s.sucCurrentNodeDlmsStep <+: ownBytes pucData ucLsduLen) := by
  constructor
  · intro h hpasses
    have harms : ArmsNextStep ucDstLsap ucSrcLsap usDstAddress srcAddress pucData ucLsduLen
        ucLinkClass s :=
      (h.behind _ ownBytes_completed).mp (armsNextStep_iff.mpr hpasses.check_completed)
    exact ⟨h.sender harms, h.message harms⟩
  · intro h
    have hgenuine (harms : ArmsNextStep ucDstLsap ucSrcLsap usDstAddress srcAddress pucData
        ucLsduLen ucLinkClass s) := h (passes_of_check (armsNextStep_iff.mp harms))
    refine ⟨fun harms => (hgenuine harms).1, fun harms => (hgenuine harms).2, ?_⟩
    intro pucData' hown
    rw [armsNextStep_iff, armsNextStep_iff]
    -- the message is long enough as soon as it passes
    have hlong (hpasses : Passes s.sucCurrentNodeDlmsStep pucData ucLsduLen) :
        (responseVal s.sucCurrentNodeDlmsStep).length ≤ ucLsduLen.toNat := by
      have hle := ((responseVal_starts _).trans (h hpasses).2).length_le
      rwa [ownBytes, Mem.length_slice] at hle
    constructor
    · intro hcheck
      have hother : Passes s.sucCurrentNodeDlmsStep pucData' ucLsduLen := passes_of_check hcheck
      have hpasses := hother.congr hown.symm
      exact hpasses.check (hlong hpasses)
    · intro hcheck
      have hpasses : Passes s.sucCurrentNodeDlmsStep pucData ucLsduLen := passes_of_check hcheck
      exact (hpasses.congr hown).check (hlong hpasses)

/-- In every run, the data indications get the verdict that they should get exactly if every
message that does not differ from what it is compared with, as far as it goes, is of the
current node and begins as a response does. -/
theorem dlms_emu_right_verdict_iff (appId : ℤ) (ids : TimerIds) (behind : ℕ → UInt8)
    (es : List Event) :
    AlongSteps step RightVerdict es (started appId ids behind)
      ↔ AlongSteps step GenuineReply es (started appId ids behind) := by
  refine alongSteps_congr (I := fun _ => True) (fun e s _ => ?_) (fun _ _ _ _ _ _ => trivial)
    trivial
  cases e with
  | dataInd => exact verdictLaw_iff
  | _ => exact Iff.rfl

end Verdicts

/-- Node 1 has been asked for an association.  An empty message of it comes, and the buffer
still holds an earlier response: the step is ended. -/
theorem dlms_emu_empty_reply :
    ¬ ∀ (appId : ℤ) (ids : TimerIds) (behind : ℕ → UInt8) (es : List Event),
    AlongSteps step RightVerdict es (started appId ids behind) := by
  intro hclaim
  have hrun : ((runSteps step startNode1 (started 4 .inOrder fun _ => 0)).map fun s =>
      (decide (s.sucCurrentNodeDlmsStep = .associationRequest),
        (dlmsEmuCl432DlDataIndCb 0 0 0 1 (message assocResponseVal) 0 0
          (s.disarm .nextStep)).timers.armed .nextStep)) = some (true, true) := by
    decide +kernel
  obtain ⟨s, hs, heq⟩ := Option.map_eq_some_iff.mp hrun
  rw [Prod.mk.injEq, decide_eq_true_iff] at heq
  have hall := hclaim 4 .inOrder (fun _ => 0)
    (startNode1 ++ [.dataInd 0 0 0 1 (message assocResponseVal) 0 0])
  have hlast := ((alongSteps_append.mp hall).2 s hs).1
  have hprefix := hlast.message heq.2
  rw [heq.1] at hprefix
  exact absurd hprefix (by decide)

end DlmsEmu
