/-
# The block numbers of the DLMS emulator

The profile of a node comes in blocks, which are to be asked for by the numbers 1, 2, 3 and
so on.  The number is counted up where a message is put together, and once more by
`_next_step` before it asks for the next block.  So the blocks are asked for by the numbers
1, 3, 5 and so on up to 13, and the numbers are right as long as no association gets further
than its first block.

The blocks asked for are read off the requests that have left the module.
-/
import PlcManager.DlmsEmuTimers

namespace DlmsEmu

open Dlmsotcp (DataRequest)

/-! ## The blocks that have been asked for -/

/-- The number in a request for a block. -/
def blockNumber? (lsdu : List UInt8) : Option UInt8 :=
  if lsdu.take 2 = cmdDlmsNextBlock.take 2 then lsdu[6]? else none

/-- For every node that is in an association, the numbers of the blocks that it has been
asked for in it. -/
abbrev Blocks := UInt16 → Option (List UInt8)

/-- The blocks after a request: an association begins with its own request, and it ends
with the one for its release. -/
def blocksAfter (blocks : Blocks) (r : DataRequest) : Blocks :=
  if r.lsdu = cmdDlmsAssociationRequest then Function.update blocks r.usDstAddress (some [])
  else if r.lsdu = cmdDlmsReleaseRequest then Function.update blocks r.usDstAddress none
  else
    match blockNumber? r.lsdu with
    | some b => Function.update blocks r.usDstAddress ((blocks r.usDstAddress).map (· ++ [b]))
    | none => blocks

/-- The blocks after all requests made so far. -/
def State.blocks (s : State) : Blocks := s.requests.foldl blocksAfter fun _ => none

/-- The numbers are 1, 2, 3 and so on, up to the number of blocks. -/
def InSequence (bs : List UInt8) : Prop :=
  ∀ i (h : i < bs.length), bs[i].toNat = i + 1 ∧ bs[i] ≤ dlmsSo2NumberOfBlocks

/-- In every association, the blocks are asked for in sequence. -/
def State.Numbered (s : State) : Prop := ∀ n, ∀ bs ∈ s.blocks n, InSequence bs

/-- After the event, the blocks are asked for in sequence. -/
def KeepsNumbered (e : Event) (s : State) : Prop := ∀ s', step e s = some s' → s'.Numbered

/-- An association is asked for no block after its first one. -/
def OneBlock : Event → State → Prop
  | .expire .nextStep, s =>
      s.timers.armed .nextStep = true → Connected s.sxListNodes s.susCurrentNode.toNat →
        ∀ bs ∈ s.blocks s.susCurrentNode, s.sucCurrentNodeDlmsStep ≠ .nextblockRequest
          ∧ (s.sucCurrentNodeDlmsStep = .so2Request → bs = [])
  | _, _ => True

/-- No node behind the list is in an association.  While the blocks of the current node are
asked for, it has been asked for the first one only. -/
structure State.AtFirstBlock (s : State) : Prop where
  numbered : s.Numbered
  inList : ∀ n, ¬ n < dlmsEmuMaxNumNodesConnected → s.blocks n = none
  first : s.sucCurrentNodeDlmsStep = .nextblockRequest → ∀ bs ∈ s.blocks s.susCurrentNode,
    bs.length = 1 ∧ s.sucBlocknumber = 1

/-- Nothing has been asked for, and a node of the list that is asked for its blocks has been
asked for them before. -/
structure AsksNothing (s s' : State) : Prop where
  blocks : s'.blocks = s.blocks
  same : s'.sucCurrentNodeDlmsStep = .nextblockRequest →
    s'.susCurrentNode < dlmsEmuMaxNumNodesConnected →
      s.sucCurrentNodeDlmsStep = .nextblockRequest ∧ s'.susCurrentNode = s.susCurrentNode
        ∧ s'.sucBlocknumber = s.sucBlocknumber

/-- A node of the list has been asked for an association. -/
def AsksAssociation (s s' : State) : Prop :=
  s'.sucCurrentNodeDlmsStep = .associationRequest
    ∧ ∃ n < dlmsEmuMaxNumNodesConnected, s'.blocks = Function.update s.blocks n (some [])

section Blocks

variable {s s' r : State} {e : Event} {n usIndex : UInt16} {t : DlmsStatusTag} {blocks : Blocks}
  {bs : List UInt8} {b : UInt8}

/-! ### Numbers in sequence -/

theorem inSequence_nil : InSequence [] := fun i h => absurd h (Nat.not_lt_zero i)

/-- The number behind others that are in sequence is theirs plus one. -/
theorem InSequence.last (h : InSequence (bs ++ [b])) : b.toNat = bs.length + 1 := by
  have hlast := (h bs.length (by simp)).1
  rwa [List.getElem_concat_length rfl] at hlast

theorem inSequence_one : InSequence [1] := by
  intro i h
  obtain rfl : i = 0 := Nat.lt_one_iff.mp h
  show (1 : UInt8).toNat = 1 ∧ (1 : UInt8) ≤ dlmsSo2NumberOfBlocks
  decide

/-! ### Requests -/

/-- The message of a step. -/
def lsduOf (t : DlmsStatusTag) (sucBlocknumber : UInt8) : List UInt8 :=
  match t with
  | .associationRequest => cmdDlmsAssociationRequest
  | .dateRequest => cmdDlmsDate.set 2 0xc1
  | .so2Request => cmdDlmsS02.set 2 (0xc1 + 1)
  | .nextblockRequest => (cmdDlmsNextBlock.set 2 (0xc1 + 1)).set 6 (sucBlocknumber + 1)
  | .releaseRequest => cmdDlmsReleaseRequest

theorem sendRequest_requests : (sendRequest usIndex t s).requests = s.requests
    ++ [⟨0, 0, usIndex, lsduOf t s.sucBlocknumber,
      UInt16.ofNat (lsduOf t s.sucBlocknumber).length, 0⟩] := by
  unfold State.requests
  cases t <;>
    simp only [sendRequest, State.emit, generateStr, Mem.slice_storeList, List.filterMap_append,
      lsduOf, List.filterMap_cons, Output.request?, List.filterMap_nil]

/-- What the message of a step does to the blocks. -/
theorem sendRequest_blocks : (sendRequest usIndex t s).blocks =
    match t with
    | .associationRequest => Function.update s.blocks usIndex (some [])
    | .dateRequest => s.blocks
    | .so2Request => s.blocks
    | .nextblockRequest => Function.update s.blocks usIndex
        ((s.blocks usIndex).map (· ++ [s.sucBlocknumber + 1]))
    | .releaseRequest => Function.update s.blocks usIndex none := by
  unfold State.blocks
  rw [sendRequest_requests, List.foldl_append]
  cases t
  case nextblockRequest =>
      have hlength : (lsduOf .nextblockRequest s.sucBlocknumber).length = 7 := rfl
      rw [List.foldl_cons, List.foldl_nil, blocksAfter,
        if_neg fun h => absurd (hlength.symm.trans (congrArg List.length h)) (by decide),
        if_neg fun h => absurd (hlength.symm.trans (congrArg List.length h)) (by decide)]
      rfl
  all_goals rfl

theorem blocks_of_requests (h : s'.requests = s.requests) : s'.blocks = s.blocks := by
  unfold State.blocks
  rw [h]

/-- Calls other than requests leave the blocks as they are. -/
theorem emit_blocks {outs : List Output} (h : outs.filterMap Output.request? = []) :
    (s.emit outs).blocks = s.blocks := by
  apply blocks_of_requests
  unfold State.requests State.emit
  rw [List.filterMap_append, h, List.append_nil]

theorem reportNode_blocks (pcResult : String) : (reportNode pcResult s).blocks = s.blocks :=
  emit_blocks rfl

/-! ### The handlers -/

/-- A change of other variables alone. -/
theorem AsksNothing.of_eq (hrequests : s'.requests = s.requests)
    (hstep : s'.sucCurrentNodeDlmsStep = s.sucCurrentNodeDlmsStep)
    (hcurrent : s'.susCurrentNode = s.susCurrentNode)
    (hnumber : s'.sucBlocknumber = s.sucBlocknumber) : AsksNothing s s' :=
  ⟨blocks_of_requests hrequests, fun h _ => ⟨hstep.symm.trans h, hcurrent, hnumber⟩⟩

/-- What nothing has been asked for before does not matter. -/
theorem asks_of_report (hblocks : r.blocks = s.blocks)
    (hstep : r.sucCurrentNodeDlmsStep = s.sucCurrentNodeDlmsStep)
    (hcurrent : r.susCurrentNode = s.susCurrentNode)
    (hnumber : r.sucBlocknumber = s.sucBlocknumber) (h : AsksNothing r s' ∨ AsksAssociation r s') :
    AsksNothing s s' ∨ AsksAssociation s s' := by
  rcases h with ⟨hsame, hkept⟩ | ⟨hassoc, n, hn, hupdate⟩
  · left
    refine ⟨hsame.trans hblocks, fun h1 h2 => ?_⟩
    rw [← hstep, ← hcurrent, ← hnumber]
    exact hkept h1 h2
  · right
    refine ⟨hassoc, n, hn, ?_⟩
    rw [hupdate, hblocks]

theorem asks_cycleNextNode (hblocks : r.blocks = s.blocks) :
    AsksNothing s (cycleNextNode r) ∨ AsksAssociation s (cycleNextNode r) := by
  by_cases h : getNextNodeToCycle r.susCurrentNode r < dlmsEmuMaxNumNodesConnected
  · right
    rw [cycleNextNode_of_lt h]
    refine ⟨rfl, _, h, sendRequest_blocks.trans ?_⟩
    exact congrArg (fun b : Blocks => Function.update b _ (some [])) hblocks
  · left
    rw [cycleNextNode_of_not_lt h]
    exact ⟨(emit_blocks rfl).trans hblocks, fun _ hlt => absurd hlt h⟩

theorem asks_startCycle (s : State) :
    AsksNothing s (startCycle s) ∨ AsksAssociation s (startCycle s) := by
  obtain ⟨m, hm⟩ := getNumberNodesConnected_snd s
  obtain ⟨r, hr⟩ : ∃ r, r = { s with susMaxIndexConnectedNode := m } := ⟨_, rfl⟩
  apply asks_of_report (r := r) (by rw [hr]; rfl) (by rw [hr]) (by rw [hr]) (by rw [hr])
  unfold startCycle
  dsimp only
  rw [hm, ← hr]
  split_ifs with hsome hlt
  · right
    rw [stMachineSend_eq]
    split_ifs with hconnected
    · refine ⟨rfl, _, hlt, sendRequest_blocks.trans ?_⟩
      exact congrArg (fun b : Blocks => Function.update b _ (some [])) (emit_blocks (s := r) rfl)
    · exact absurd (connected_getNextNodeToCycle hlt) hconnected
  · left
    exact ⟨rfl, fun _ h => absurd h hlt⟩
  · left
    exact AsksNothing.of_eq rfl rfl rfl rfl

theorem asks_timeout (s : State) :
    AsksNothing s (timeout s) ∨ AsksAssociation s (timeout s) :=
  asks_cycleNextNode (reportNode_blocks _)

theorem asks_response (msg : Mem UInt8) (len : UInt16) (s : State) :
    AsksNothing s (dlmsMngpRspCb msg len s) ∨ AsksAssociation s (dlmsMngpRspCb msg len s) := by
  obtain ⟨nodes, m, hrecords⟩ := listRecords_eq msg s
  rcases dlmsMngpRspCb_cases msg len s with h | h | ⟨it, h⟩ | ⟨-, h⟩
  · left
    rw [h]
    exact AsksNothing.of_eq rfl rfl rfl rfl
  · left
    rw [h, hrecords]
    exact AsksNothing.of_eq rfl rfl rfl rfl
  · left
    rw [h, hrecords]
    exact ⟨emit_blocks rfl, fun hstep _ => ⟨hstep, rfl, rfl⟩⟩
  · rw [h, hrecords]
    exact asks_of_report (r := { s with sxListNodes := nodes, susMaxIndexConnectedNode := m })
      rfl rfl rfl rfl (asks_startCycle _)

/-- Whatever happens but the expiry of the next-step timer, a node is asked for an
association at most. -/
theorem asks_step (he : e ≠ .expire .nextStep) (hs : step e s = some s') :
    AsksNothing s s' ∨ AsksAssociation s s' := by
  cases e with
  | command buf =>
      obtain rfl := Option.some.inj hs
      left
      rcases dlmsEmuRcvCmd_cases buf s with ⟨-, hcmd⟩ | hcmd | hcmd
      · rw [hcmd]
        exact ⟨emit_blocks rfl, fun hstep _ => ⟨hstep, rfl, rfl⟩⟩
      · obtain ⟨ts, hts, -⟩ := stopCycles_eq s
        rw [hcmd, hts]
        refine ⟨rfl, fun hstep _ => ?_⟩
        cases hstep
      · rw [hcmd]
        exact AsksNothing.of_eq rfl rfl rfl rfl
  | response msg len =>
      obtain rfl := Option.some.inj hs
      exact asks_response msg len s
  | dataCfm dstLsap srcLsap dst status =>
      obtain rfl := Option.some.inj hs
      left
      unfold dlmsEmuCl432DlDataCfmCb
      split_ifs
      · exact AsksNothing.of_eq rfl rfl rfl rfl
      · exact ⟨reportNode_blocks _, fun hstep _ => ⟨hstep, rfl, rfl⟩⟩
      · exact AsksNothing.of_eq rfl rfl rfl rfl
  | dataInd dstLsap srcLsap dst src data len linkClass =>
      obtain rfl := Option.some.inj hs
      left
      obtain ⟨ts, hts, -⟩ := dataInd_eq dstLsap srcLsap dst src data len linkClass s
      rw [hts]
      split_ifs
      · exact AsksNothing.of_eq rfl rfl rfl rfl
      · exact ⟨emit_blocks rfl, fun hstep _ => ⟨hstep, rfl, rfl⟩⟩
  | joinInd deviceId len dst mac =>
      obtain rfl := Option.some.inj hs
      left
      obtain ⟨nodes, m, hjoin⟩ := joinInd_eq deviceId len dst mac s
      rw [hjoin]
      exact AsksNothing.of_eq rfl rfl rfl rfl
  | leaveInd dst =>
      obtain rfl := Option.some.inj hs
      left
      exact AsksNothing.of_eq rfl rfl rfl rfl
  | expire u =>
      rw [step_expire] at hs
      split_ifs at hs with harmed
      obtain rfl := Option.some.inj hs
      cases u
      case timeout =>
          exact asks_of_report (r := s.disarm .timeout) rfl rfl rfl rfl (asks_timeout _)
      case nextCycle =>
          exact asks_of_report (r := s.disarm .nextCycle) rfl rfl rfl rfl (asks_startCycle _)
      case nextNode => exact asks_cycleNextNode (r := s.disarm .nextNode) rfl
      case nextStep => exact absurd rfl he

/-- Nothing is asked for either if the current node is not connected, or has been released. -/
theorem asks_nextStep (h : s.sucCurrentNodeDlmsStep = .releaseRequest
      ∨ ¬ Connected s.sxListNodes s.susCurrentNode.toNat) :
    AsksNothing s (nextStep s) ∨ AsksAssociation s (nextStep s) := by
  by_cases hrelease : s.sucCurrentNodeDlmsStep = .releaseRequest
  · left
    have hkept (h : s.sucCurrentNodeDlmsStep = .nextblockRequest) : False :=
      absurd (h.symm.trans hrelease) (by decide)
    rw [nextStep_of_release hrelease]
    split_ifs
    · exact ⟨reportNode_blocks _, fun hstep _ => (hkept hstep).elim⟩
    · exact ⟨(emit_blocks rfl).trans (reportNode_blocks _), fun hstep _ => (hkept hstep).elim⟩
  · have hnot := h.resolve_left hrelease
    have hpass : ∀ t r, ¬ Connected r.sxListNodes s.susCurrentNode.toNat → r.blocks = s.blocks →
        AsksNothing s (stMachineSend s.susCurrentNode t r)
          ∨ AsksAssociation s (stMachineSend s.susCurrentNode t r) := by
      intro t r hnot' hblocks
      rw [stMachineSend_eq, if_neg hnot']
      exact asks_cycleNextNode hblocks
    obtain ⟨t, bn, -, heq⟩ := nextStep_of_ne_release hrelease
    rw [heq]
    exact hpass _ _ hnot (reportNode_blocks _)

/-- A connected node is sent the message of its next step. -/
theorem nextStep_of_connected (hconnected : Connected s.sxListNodes s.susCurrentNode.toNat) :
    nextStep s = match s.sucCurrentNodeDlmsStep with
      | .associationRequest => sendRequest s.susCurrentNode .dateRequest
          { reportNode spcRepResultSuccess s with
            sucCurrentNodeDlmsStep := .dateRequest, sucBlocknumber := 0 }
      | .dateRequest => sendRequest s.susCurrentNode .so2Request
          { reportNode spcRepResultSuccess s with sucCurrentNodeDlmsStep := .so2Request }
      | .so2Request => sendRequest s.susCurrentNode .nextblockRequest
          { reportNode spcRepResultSuccess s with
            sucCurrentNodeDlmsStep := .nextblockRequest, sucBlocknumber := 0 }
      | .nextblockRequest =>
          if dlmsSo2NumberOfBlocks < s.sucBlocknumber + 1 then
            sendRequest s.susCurrentNode .releaseRequest
              { reportNode spcRepResultSuccess s with
                sucCurrentNodeDlmsStep := .releaseRequest, sucBlocknumber := 0 }
          else sendRequest s.susCurrentNode .nextblockRequest
            { reportNode spcRepResultSuccess s with sucBlocknumber := s.sucBlocknumber + 1 }
      | .releaseRequest => nextStep s := by
  have hsend : ∀ t r, r.sxListNodes = s.sxListNodes →
      stMachineSend s.susCurrentNode t r = sendRequest s.susCurrentNode t r := by
    intro t r hr
    apply stMachineSend_of_connected
    rwa [hr]
  cases hstep : s.sucCurrentNodeDlmsStep with
  | associationRequest =>
      unfold nextStep reportNode State.emit
      dsimp only
      rw [hstep]
      exact hsend _ _ rfl
  | dateRequest =>
      unfold nextStep reportNode State.emit
      dsimp only
      rw [hstep]
      exact hsend _ _ rfl
  | so2Request =>
      unfold nextStep reportNode State.emit
      dsimp only
      rw [hstep]
      exact hsend _ _ rfl
  | nextblockRequest =>
      unfold nextStep reportNode State.emit
      dsimp only
      rw [hstep]
      dsimp only
      split_ifs
      · exact hsend _ _ rfl
      · exact hsend _ _ rfl
  | releaseRequest => rfl

/-! ### Runs -/

/-- What asks for nothing or for an association keeps all blocks in sequence. -/
theorem State.AtFirstBlock.of_asks (h : s.AtFirstBlock)
    (hasks : AsksNothing s s' ∨ AsksAssociation s s') : s'.AtFirstBlock := by
  rcases hasks with ⟨hblocks, hsame⟩ | ⟨hstep, n, hn, hblocks⟩
  · refine ⟨?_, ?_, ?_⟩
    · unfold State.Numbered
      rw [hblocks]
      exact h.numbered
    · rw [hblocks]
      exact h.inList
    · intro hnext bs hbs
      rw [hblocks] at hbs
      by_cases hlt : s'.susCurrentNode < dlmsEmuMaxNumNodesConnected
      · obtain ⟨hold, hcurrent, hnumber⟩ := hsame hnext hlt
        rw [hcurrent] at hbs
        rw [hnumber]
        exact h.first hold bs hbs
      · rw [h.inList _ hlt] at hbs
        cases hbs
  · refine ⟨?_, ?_, ?_⟩
    · intro m bs hbs
      rw [hblocks] at hbs
      by_cases hm : m = n
      · subst hm
        rw [Function.update_self] at hbs
        obtain rfl := Option.some.inj hbs
        exact inSequence_nil
      · rw [Function.update_of_ne hm] at hbs
        exact h.numbered m bs hbs
    · intro m hm
      have hne : m ≠ n := by
        rintro rfl
        exact hm hn
      rw [hblocks, Function.update_of_ne hne]
      exact h.inList m hm
    · intro hnext
      exact absurd (hnext.symm.trans hstep) (by decide)

/-- Nothing new has been asked for, and no block is to be asked for next. -/
theorem State.AtFirstBlock.of_same_blocks (h : s.AtFirstBlock) (hblocks : s'.blocks = s.blocks)
    (hstep : s'.sucCurrentNodeDlmsStep ≠ .nextblockRequest) : s'.AtFirstBlock :=
  h.of_asks (Or.inl ⟨hblocks, fun hnext _ => absurd hnext hstep⟩)

/-- The next block of the current node. -/
theorem numbered_block_iff (h : s.AtFirstBlock) (hblocks : s'.blocks
      = Function.update s.blocks n ((s.blocks n).map (· ++ [b]))) :
    s'.Numbered ↔ ∀ bs ∈ s.blocks n, InSequence (bs ++ [b]) := by
  constructor
  · intro hnumbered bs hbs
    apply hnumbered n _
    rw [hblocks, Function.update_self, Option.mem_def.mp hbs]
    rfl
  · intro hall m bs hbs
    rw [hblocks] at hbs
    by_cases hm : m = n
    · subst hm
      rw [Function.update_self] at hbs
      obtain ⟨old, hold, rfl⟩ := Option.map_eq_some_iff.mp hbs
      exact hall old hold
    · rw [Function.update_of_ne hm] at hbs
      exact h.numbered m bs hbs

/-- A node behind the list is asked for blocks in no association. -/
theorem inList_block (h : s.AtFirstBlock)
    (hblocks : s'.blocks = Function.update s.blocks n ((s.blocks n).map (· ++ [b])))
    (m : UInt16) (hm : ¬ m < dlmsEmuMaxNumNodesConnected) : s'.blocks m = none := by
  rw [hblocks]
  by_cases hmn : m = n
  · subst hmn
    rw [Function.update_self, h.inList m hm]
    rfl
  · rw [Function.update_of_ne hmn]
    exact h.inList m hm

/-- The release ends the association of a node. -/
theorem State.AtFirstBlock.of_release (h : s.AtFirstBlock)
    (hblocks : s'.blocks = Function.update s.blocks n none)
    (hstep : s'.sucCurrentNodeDlmsStep ≠ .nextblockRequest) : s'.AtFirstBlock := by
  have hsub : ∀ m, ∀ bs ∈ s'.blocks m, bs ∈ s.blocks m := by
    intro m bs hbs
    rw [hblocks] at hbs
    by_cases hm : m = n
    · subst hm
      rw [Function.update_self] at hbs
      cases hbs
    · rwa [Function.update_of_ne hm] at hbs
  refine ⟨fun m bs hbs => h.numbered m bs (hsub m bs hbs), fun m hm => ?_,
    fun hnext => absurd hnext hstep⟩
  rw [Option.eq_none_iff_forall_not_mem]
  intro bs hbs
  have hold := hsub m bs hbs
  rw [h.inList m hm] at hold
  cases hold

/-- One more block, which is the first one of its association. -/
theorem State.AtFirstBlock.of_block (h : s.AtFirstBlock) (hblocks : s'.blocks
      = Function.update s.blocks s.susCurrentNode ((s.blocks s.susCurrentNode).map (· ++ [b])))
    (hcurrent : s'.susCurrentNode = s.susCurrentNode) (hnumbered : s'.Numbered)
    (hfirst : ∀ bs ∈ s.blocks s.susCurrentNode, bs = [] ∧ s'.sucBlocknumber = 1) :
    s'.AtFirstBlock := by
  refine ⟨hnumbered, inList_block h hblocks, fun _ bs hbs => ?_⟩
  rw [hcurrent, hblocks, Function.update_self] at hbs
  obtain ⟨old, hold, rfl⟩ := Option.map_eq_some_iff.mp hbs
  obtain ⟨hnil, hnumber⟩ := hfirst old hold
  rw [hnil]
  exact ⟨rfl, hnumber⟩

/-- A step that asks for no block. -/
theorem numbered_iff_of_no_block (hafter : s'.AtFirstBlock)
    (hnext : s.sucCurrentNodeDlmsStep ≠ .nextblockRequest)
    (hso2 : s.sucCurrentNodeDlmsStep ≠ .so2Request) :
    (s'.Numbered ↔ ∀ bs ∈ s.blocks s.susCurrentNode,
        s.sucCurrentNodeDlmsStep ≠ .nextblockRequest
          ∧ (s.sucCurrentNodeDlmsStep = .so2Request → bs = []))
      ∧ (s'.Numbered → s'.AtFirstBlock) :=
  ⟨iff_of_true hafter.numbered fun _ _ => ⟨hnext, fun hs => absurd hs hso2⟩, fun _ => hafter⟩

/-- After the association and after the date, no block is asked for. -/
theorem State.AtFirstBlock.nextStep_of_no_block (h : s.AtFirstBlock)
    (hconnected : Connected s.sxListNodes s.susCurrentNode.toNat)
    (hstep : s.sucCurrentNodeDlmsStep = .associationRequest
      ∨ s.sucCurrentNodeDlmsStep = .dateRequest) : (nextStep s).AtFirstBlock := by
  have hreport := reportNode_blocks (s := s) spcRepResultSuccess
  have hnext := nextStep_of_connected hconnected
  rcases hstep with hstep | hstep
  · rw [hstep] at hnext
    rw [hnext]
    exact h.of_same_blocks (sendRequest_blocks.trans hreport)
      (show DlmsStatusTag.dateRequest ≠ .nextblockRequest by decide)
  · rw [hstep] at hnext
    rw [hnext]
    exact h.of_same_blocks (sendRequest_blocks.trans hreport)
      (show DlmsStatusTag.so2Request ≠ .nextblockRequest by decide)

/-- After the S02 request the first block is asked for, which has to be the first one of the
association. -/
theorem nextStep_so2_iff (h : s.AtFirstBlock)
    (hconnected : Connected s.sxListNodes s.susCurrentNode.toNat)
    (hstep : s.sucCurrentNodeDlmsStep = .so2Request) :
    ((nextStep s).Numbered ↔ ∀ bs ∈ s.blocks s.susCurrentNode, bs = [])
      ∧ ((nextStep s).Numbered → (nextStep s).AtFirstBlock) := by
  have hreport := reportNode_blocks (s := s) spcRepResultSuccess
  have hnext := nextStep_of_connected hconnected
  rw [hstep] at hnext
  have hblocks : (nextStep s).blocks = Function.update s.blocks s.susCurrentNode
      ((s.blocks s.susCurrentNode).map (· ++ [1])) := by
    rw [hnext, ← hreport]
    exact sendRequest_blocks
  have hiff : (nextStep s).Numbered ↔ ∀ bs ∈ s.blocks s.susCurrentNode, bs = [] := by
    rw [numbered_block_iff h hblocks]
    refine forall₂_congr fun bs _ => ⟨fun hseq => ?_, ?_⟩
    · have hlength : 1 = bs.length + 1 := hseq.last
      exact List.length_eq_zero_iff.mp (by omega)
    · rintro rfl
      exact inSequence_one
  refine ⟨hiff, fun hnumbered => h.of_block hblocks ?_ hnumbered fun bs hbs => ?_⟩
  · rw [hnext]
    rfl
  · rw [hnext]
    exact ⟨hiff.mp hnumbered bs hbs, rfl⟩

/-- The number of a first block is not the last one. -/
theorem State.AtFirstBlock.not_mem_of_last (h : s.AtFirstBlock)
    (hstep : s.sucCurrentNodeDlmsStep = .nextblockRequest)
    (hlast : dlmsSo2NumberOfBlocks < s.sucBlocknumber + 1) (bs : List UInt8) :
    bs ∉ s.blocks s.susCurrentNode := by
  intro hbs
  rw [(h.first hstep bs hbs).2] at hlast
  exact absurd hlast (by decide)

/-- After the last block the node is released. -/
theorem State.AtFirstBlock.nextStep_of_last (h : s.AtFirstBlock)
    (hconnected : Connected s.sxListNodes s.susCurrentNode.toNat)
    (hstep : s.sucCurrentNodeDlmsStep = .nextblockRequest)
    (hlast : dlmsSo2NumberOfBlocks < s.sucBlocknumber + 1) : (nextStep s).AtFirstBlock := by
  have hreport := reportNode_blocks (s := s) spcRepResultSuccess
  have hnext := nextStep_of_connected hconnected
  rw [hstep] at hnext
  dsimp only at hnext
  rw [if_pos hlast] at hnext
  rw [hnext]
  exact h.of_release (sendRequest_blocks.trans (by rw [← hreport]; rfl))
    (show DlmsStatusTag.releaseRequest ≠ .nextblockRequest by decide)

/-- After another block the number is counted up twice: no association may have a block. -/
theorem nextStep_nextblock_iff (h : s.AtFirstBlock)
    (hconnected : Connected s.sxListNodes s.susCurrentNode.toNat)
    (hstep : s.sucCurrentNodeDlmsStep = .nextblockRequest) :
    ((nextStep s).Numbered ↔ ∀ bs, bs ∉ s.blocks s.susCurrentNode)
      ∧ ((nextStep s).Numbered → (nextStep s).AtFirstBlock) := by
  by_cases hlast : dlmsSo2NumberOfBlocks < s.sucBlocknumber + 1
  · have hafter := h.nextStep_of_last hconnected hstep hlast
    exact ⟨iff_of_true hafter.numbered (h.not_mem_of_last hstep hlast), fun _ => hafter⟩
  · have hreport := reportNode_blocks (s := s) spcRepResultSuccess
    have hnext := nextStep_of_connected hconnected
    rw [hstep] at hnext
    dsimp only at hnext
    rw [if_neg hlast] at hnext
    have hblocks : (nextStep s).blocks = Function.update s.blocks s.susCurrentNode
        ((s.blocks s.susCurrentNode).map (· ++ [s.sucBlocknumber + 1 + 1])) := by
      rw [hnext, ← hreport]
      exact sendRequest_blocks
    have hiff : (nextStep s).Numbered ↔ ∀ bs, bs ∉ s.blocks s.susCurrentNode := by
      rw [numbered_block_iff h hblocks]
      refine forall_congr' fun bs => ⟨fun hseq hbs => ?_, fun hno hbs => absurd hbs hno⟩
      obtain ⟨hlength, hnumber⟩ := h.first hstep bs hbs
      have hthree := (hseq hbs).last
      rw [hlength, hnumber] at hthree
      exact absurd hthree (by decide)
    refine ⟨hiff, fun hnumbered => h.of_block hblocks ?_ hnumbered fun bs hbs => ?_⟩
    · rw [hnext]
      rfl
    · exact absurd hbs (hiff.mp hnumbered bs)

/-- The next step of a connected node keeps the blocks in sequence if and only if it asks for
no block but the first one of an association; and then it goes on so. -/
theorem nextStep_numbered_iff (h : s.AtFirstBlock)
    (hconnected : Connected s.sxListNodes s.susCurrentNode.toNat) :
    ((nextStep s).Numbered ↔ ∀ bs ∈ s.blocks s.susCurrentNode,
        s.sucCurrentNodeDlmsStep ≠ .nextblockRequest
          ∧ (s.sucCurrentNodeDlmsStep = .so2Request → bs = []))
      ∧ ((nextStep s).Numbered → (nextStep s).AtFirstBlock) := by
  cases hstep : s.sucCurrentNodeDlmsStep with
  | associationRequest =>
      rw [← hstep]
      apply numbered_iff_of_no_block (h.nextStep_of_no_block hconnected (Or.inl hstep))
      · rw [hstep]
        decide
      · rw [hstep]
        decide
  | dateRequest =>
      rw [← hstep]
      apply numbered_iff_of_no_block (h.nextStep_of_no_block hconnected (Or.inr hstep))
      · rw [hstep]
        decide
      · rw [hstep]
        decide
  | so2Request =>
      obtain ⟨hiff, hafter⟩ := nextStep_so2_iff h hconnected hstep
      refine ⟨hiff.trans (forall₂_congr fun bs _ => ?_), hafter⟩
      exact ⟨fun hnil => ⟨by decide, fun _ => hnil⟩, fun hboth => hboth.2 rfl⟩
  | nextblockRequest =>
      obtain ⟨hiff, hafter⟩ := nextStep_nextblock_iff h hconnected hstep
      refine ⟨hiff.trans (forall_congr' fun bs => ?_), hafter⟩
      exact ⟨fun hno hbs => absurd hbs hno, fun hboth hbs => (hboth hbs).1 rfl⟩
  | releaseRequest =>
      rw [← hstep]
      apply numbered_iff_of_no_block (h.of_asks (asks_nextStep (Or.inl hstep)))
      · rw [hstep]
        decide
      · rw [hstep]
        decide

/-- **One step.** -/
theorem keepsNumbered_iff (h : s.AtFirstBlock) : KeepsNumbered e s ↔ OneBlock e s := by
  by_cases he : e = .expire .nextStep
  · subst he
    unfold KeepsNumbered OneBlock
    rw [step_expire]
    by_cases harmed : s.timers.armed .nextStep = true
    · have hstopped : (s.disarm .nextStep).AtFirstBlock :=
        h.of_asks (Or.inl (AsksNothing.of_eq rfl rfl rfl rfl))
      rw [if_pos harmed]
      simp only [Option.some.injEq, forall_eq']
      show (nextStep (s.disarm .nextStep)).Numbered ↔ _
      by_cases hconnected : Connected s.sxListNodes s.susCurrentNode.toNat
      · rw [(nextStep_numbered_iff hstopped hconnected).1]
        exact ⟨fun hall _ _ => hall, fun hall => hall harmed hconnected⟩
      · refine iff_of_true ?_ fun _ hc => absurd hc hconnected
        exact (hstopped.of_asks (asks_nextStep (Or.inr hconnected))).numbered
    · rw [if_neg harmed]
      refine iff_of_true (fun s' hs' => ?_) fun harmed' => absurd harmed' harmed
      cases hs'
  · have hone : OneBlock e s := by
      unfold OneBlock
      split
      · exact absurd rfl he
      · trivial
    exact iff_of_true (fun s' hs' => (h.of_asks (asks_step he hs')).numbered) hone

theorem State.AtFirstBlock.step (h : s.AtFirstBlock) (hkeeps : KeepsNumbered e s)
    (hs : step e s = some s') : s'.AtFirstBlock := by
  by_cases he : e = .expire .nextStep
  · subst he
    have hnumbered := hkeeps s' hs
    rw [step_expire] at hs
    split_ifs at hs with harmed
    have hstopped : (s.disarm .nextStep).AtFirstBlock :=
      h.of_asks (Or.inl (AsksNothing.of_eq rfl rfl rfl rfl))
    obtain rfl := Option.some.inj hs
    by_cases hconnected : Connected s.sxListNodes s.susCurrentNode.toNat
    · exact (nextStep_numbered_iff hstopped hconnected).2 hnumbered
    · exact hstopped.of_asks (asks_nextStep (Or.inr hconnected))
  · exact h.of_asks (asks_step he hs)

theorem atFirstBlock_started (appId : ℤ) (ids : TimerIds) (behind : ℕ → UInt8) :
    (started appId ids behind).AtFirstBlock := by
  have hblocks : (started appId ids behind).blocks = fun _ => none := rfl
  refine ⟨fun n bs hbs => ?_, fun n _ => ?_, fun hstep => ?_⟩
  · rw [hblocks] at hbs
    cases hbs
  · rw [hblocks]
  · cases hstep

/-- In every run the blocks of an association are asked for in sequence exactly as long as no
association is asked for a second block. -/
theorem dlms_emu_blocks_in_sequence_iff (appId : ℤ) (ids : TimerIds) (behind : ℕ → UInt8)
    (es : List Event) :
    AlongSteps step KeepsNumbered es (started appId ids behind)
      ↔ AlongSteps step OneBlock es (started appId ids behind) :=
  alongSteps_congr (fun _ _ h => keepsNumbered_iff h) (fun _ _ _ h hC hs => h.step hC hs)
    (atFirstBlock_started appId ids behind)

end Blocks

/-- Node 1 gives a valid response to each of the first four requests: it is asked for the
blocks 1 and 3. -/
theorem dlms_emu_block_left_out :
    ¬ ∀ (appId : ℤ) (ids : TimerIds) (behind : ℕ → UInt8) (es : List Event) (s : State),
      runSteps step es (started appId ids behind) = some s → s.Numbered := by
  intro hclaim
  have hrun : ((runSteps step (startNode1 ++ [assocResponseVal, getRequestDateVal,
      getRequestS02val, getRequestS02val].flatMap fun response =>
        [.dataInd 0 0 0 1 (message response) 16 0, .expire .nextStep])
          (started 4 .inOrder fun _ => 0)).map fun s => s.blocks 1) = some (some [1, 3]) := by
    decide +kernel
  obtain ⟨s, hs, hblocks⟩ := Option.map_eq_some_iff.mp hrun
  have hsecond := (hclaim 4 .inOrder (fun _ => 0) _ s hs 1 [1, 3] hblocks 1 (by decide)).1
  exact absurd hsecond (by decide)

end DlmsEmu
