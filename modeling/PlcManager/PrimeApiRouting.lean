/-
# Who gets a message of the base node

A message says which callback it is for, but not which application asked for it.  Half of
the handlers give it to every application that has registered the callback; the others
give it to the application that was selected last.  For a confirm this is the application
whose request it answers only if nobody has made a request in between, and an indication,
which answers nobody, is lost unless the selected application happens to wait for it.
-/
import PlcManager.PrimeApi

namespace PrimeApi

open Read

/-! ## The handler of a message -/

/-- The handler of the command that the callback is for. -/
def Cb.handler : Cb → UInt16 → Cursor → State → Bool × State
  | .clNullEstablishInd => PrimeApi.clNullEstablishInd
  | .clNullEstablishCfm => PrimeApi.clNullEstablishCfm
  | .clNullReleaseInd => PrimeApi.clNullReleaseInd
  | .clNullReleaseCfm => PrimeApi.clNullReleaseCfm
  | .clNullJoinInd => PrimeApi.clNullJoinInd
  | .clNullJoinCfm => PrimeApi.clNullJoinCfm
  | .clNullLeaveCfm => PrimeApi.clNullLeaveCfm
  | .clNullLeaveInd => PrimeApi.clNullLeaveInd
  | .clNullDataCfm => PrimeApi.clNullDataCfm
  | .clNullDataInd => PrimeApi.clNullDataInd
  | .clNullPlmeResetCfm => PrimeApi.clNullPlmeResetCfm
  | .clNullPlmeSleepCfm => PrimeApi.clNullPlmeSleepCfm
  | .clNullPlmeResumeCfm => PrimeApi.clNullPlmeResumeCfm
  | .clNullPlmeTestmodeCfm => PrimeApi.clNullPlmeTestmodeCfm
  | .clNullPlmeGetCfm => PrimeApi.clNullPlmeGetCfm
  | .clNullPlmeSetCfm => PrimeApi.clNullPlmeSetCfm
  | .clNullMlmeRegisterCfm => PrimeApi.clNullMlmeRegisterCfm
  | .clNullMlmeRegisterInd => PrimeApi.clNullMlmeRegisterInd
  | .clNullMlmeUnregisterCfm => PrimeApi.clNullMlmeUnregisterCfm
  | .clNullMlmeUnregisterInd => PrimeApi.clNullMlmeUnregisterInd
  | .clNullMlmePromoteCfm => PrimeApi.clNullMlmePromoteCfm
  | .clNullMlmePromoteInd => PrimeApi.clNullMlmePromoteInd
  | .clNullMlmeDemoteCfm => PrimeApi.clNullMlmeDemoteCfm
  | .clNullMlmeDemoteInd => PrimeApi.clNullMlmeDemoteInd
  | .clNullMlmeResetCfm => PrimeApi.clNullMlmeResetCfm
  | .clNullMlmeGetCfm => PrimeApi.clNullMlmeGetCfm
  | .clNullMlmeListGetCfm => PrimeApi.clNullMlmeListGetCfm
  | .clNullMlmeSetCfm => PrimeApi.clNullMlmeSetCfm
  | .cl432EstablishCfm => PrimeApi.cl432EstablishCfm
  | .cl432ReleaseCfm => PrimeApi.cl432ReleaseCfm
  | .cl432DlDataCfm => PrimeApi.cl432DlDataCfm
  | .cl432DlDataInd => PrimeApi.cl432DlDataInd
  | .cl432DlLeaveInd => PrimeApi.cl432DlLeaveInd
  | .cl432DlJoinInd => PrimeApi.cl432DlJoinInd
  | .bmngFupAckInd => primeFupAckInd
  | .bmngFupStatusInd => primeFupStatusInd
  | .bmngFupErrorInd => primeFupErrorInd
  | .bmngFupVersionInd => primeFupVersionInd
  | .bmngFupKillInd => primeFupKillInd
  | .bmngNetworkEventInd => bmngNetworkInd
  | .bmngPprofGetResponse => bmngPprofGetResponseInd
  | .bmngPprofGetEnhancedResponse => bmngPprofGetEnhancedResponseInd
  | .bmngPprofAckInd => PrimeApi.bmngPprofAckInd

/-- What the handler reads. -/
def Cb.reader (len : UInt16) : Cb → Read (List Arg)
  | .clNullEstablishInd => readClNullEstablishInd len
  | .clNullEstablishCfm => readClNullEstablishCfm len
  | .clNullJoinInd => readClNullJoinInd len
  | .clNullReleaseInd | .clNullReleaseCfm | .clNullJoinCfm | .clNullLeaveCfm
  | .cl432ReleaseCfm => readHandleResult len
  | .clNullLeaveInd => readClNullLeaveInd len
  | .clNullDataCfm => do
      let (usConHandle, drtResult) ← readNullDataCfm len
      return [.u16 usConHandle, .u8 drtResult]
  | .clNullDataInd => readClNullDataInd
  | .clNullPlmeResetCfm | .clNullPlmeSleepCfm | .clNullPlmeResumeCfm | .clNullPlmeTestmodeCfm
  | .clNullPlmeSetCfm | .clNullMlmeUnregisterCfm | .clNullMlmePromoteCfm
  | .clNullMlmeDemoteCfm | .clNullMlmeResetCfm | .clNullMlmeSetCfm => readResult len
  | .clNullPlmeGetCfm | .clNullMlmeGetCfm => readPib len
  | .clNullMlmeRegisterCfm => readClNullMlmeRegisterCfm len
  | .clNullMlmeRegisterInd => readClNullMlmeRegisterInd len
  | .clNullMlmeUnregisterInd | .clNullMlmePromoteInd | .clNullMlmeDemoteInd => readNothing len
  | .clNullMlmeListGetCfm => readClNullMlmeListGetCfm len
  | .cl432EstablishCfm => readCl432EstablishCfm len
  | .cl432DlDataInd => readCl432DlDataInd len
  | .cl432DlDataCfm => readCl432DlDataCfm len
  | .cl432DlLeaveInd => readCl432DlLeaveInd len
  | .cl432DlJoinInd => readCl432DlJoinInd
  | .bmngFupAckInd => readPrimeFupAckInd len
  | .bmngFupStatusInd => readPrimeFupStatusInd len
  | .bmngFupErrorInd => readPrimeFupErrorInd len
  | .bmngFupVersionInd => readPrimeFupVersionInd len
  | .bmngFupKillInd => readPrimeFupKillInd len
  | .bmngNetworkEventInd => readBmngNetworkInd
  | .bmngPprofGetResponse | .bmngPprofGetEnhancedResponse => readPprof
  | .bmngPprofAckInd => readBmngPprofAckInd

variable {cb : Cb} {ptrMsg : Mem UInt8} {len : UInt16} {s t : State}

/-- A message goes to the handler of its command. -/
theorem receivedCmd_eq_handler (h : ptrMsg.cell 0 &&& 0x7f = cb.cmd) :
    ifacePrimeApiReceivedCmd ptrMsg len s = cb.handler (len - 1) (.start ptrMsg 1) s := by
  unfold ifacePrimeApiReceivedCmd
  rw [h]
  cases cb <;> rfl

/-! ## Well-formed messages -/

/-- The length of the text at address `i`, with its length byte. -/
def textLength (m : Mem UInt8) (i : ℕ) : ℕ := 1 + (m.cell i).toNat

/-- Where the second and the third text of a version indication start. -/
def modelAt (m : Mem UInt8) : ℕ := 7 + textLength m 7

@[inherit_doc modelAt]
def versionAt (m : Mem UInt8) : ℕ := modelAt m + textLength m (modelAt m)

/-- The length of the fields that follow the command of a message. -/
def Cb.fieldsLength (m : Mem UInt8) : Cb → ℕ
  | .clNullEstablishInd => 12 + (wordAt m 10).toNat
  | .clNullEstablishCfm => 12 + (wordAt m 11).toNat
  | .clNullJoinInd => 11 + (wordAt m 10).toNat
  | .clNullReleaseInd | .clNullReleaseCfm | .clNullJoinCfm | .clNullLeaveCfm
  | .cl432ReleaseCfm => 3
  | .clNullLeaveInd => 8
  | .clNullDataCfm => 7
  | .clNullDataInd => 4 + (wordAt m 3).toNat
  | .clNullPlmeResetCfm | .clNullPlmeSleepCfm | .clNullPlmeResumeCfm | .clNullPlmeTestmodeCfm
  | .clNullPlmeSetCfm | .clNullMlmeUnregisterCfm | .clNullMlmePromoteCfm
  | .clNullMlmeDemoteCfm | .clNullMlmeResetCfm | .clNullMlmeSetCfm => 1
  | .clNullPlmeGetCfm | .clNullMlmeGetCfm => 4 + (m.cell 4).toNat
  | .clNullMlmeRegisterCfm => 8
  | .clNullMlmeRegisterInd => 7
  | .clNullMlmeUnregisterInd | .clNullMlmePromoteInd | .clNullMlmeDemoteInd => 0
  | .clNullMlmeListGetCfm => 5 + (wordAt m 4).toNat
  | .cl432EstablishCfm => 5 + (m.cell 1).toNat
  | .cl432DlDataInd => 9 + (wordAt m 7).toNat
  | .cl432DlDataCfm => 5
  | .cl432DlLeaveInd => 2
  | .cl432DlJoinInd => 9 + (m.cell 1).toNat
  | .bmngFupAckInd => 4
  | .bmngFupStatusInd => 9
  | .bmngFupErrorInd => 7
  | .bmngFupVersionInd =>
      6 + textLength m 7 + textLength m (modelAt m) + textLength m (versionAt m)
  | .bmngFupKillInd => 6
  | .bmngNetworkEventInd => 14
  | .bmngPprofGetResponse | .bmngPprofGetEnhancedResponse => 8 + (wordAt m 7).toNat
  | .bmngPprofAckInd => 2

/-- A message for the callback that consists of its command and its fields; the texts of
a version indication fit the arrays for them. -/
structure WellFormed (cb : Cb) (ptrMsg : Mem UInt8) (len : UInt16) : Prop where
  cmd : ptrMsg.cell 0 &&& 0x7f = cb.cmd
  length : len.toNat = 1 + cb.fieldsLength ptrMsg
  texts : cb = .bmngFupVersionInd →
    ∀ i ∈ [7, modelAt ptrMsg, versionAt ptrMsg], ptrMsg.cell i ≤ 32

/-- What is left of the length of a message that is not empty. -/
theorem toNat_sub_one (h : 1 ≤ len.toNat) : (len - 1).toNat = len.toNat - 1 := by
  rw [UInt16.toNat_sub_of_le]
  · rfl
  · rw [UInt16.le_iff_toNat_le]
    exact h

/-- What is left of the length after the command. -/
theorem WellFormed.fields (h : WellFormed cb ptrMsg len) :
    (len - 1).toNat = cb.fieldsLength ptrMsg := by
  rw [toNat_sub_one (by rw [h.length]; exact Nat.le_add_right _ _), h.length,
    Nat.add_sub_cancel_left]

/-! ## Who is called -/

/-- The message goes to all applications that have registered the callback. -/
def Cb.toAll : Cb → Bool
  | .clNullEstablishInd | .clNullReleaseInd | .clNullJoinInd | .clNullLeaveInd
  | .clNullMlmeRegisterInd | .clNullMlmeUnregisterInd | .clNullMlmePromoteInd
  | .clNullMlmeDemoteInd | .cl432DlLeaveInd | .cl432DlJoinInd | .bmngNetworkEventInd => true
  | _ => false

/-- What a handler returns when the selected application has no callback. -/
def Cb.unset : Cb → Bool
  | .bmngPprofGetResponse | .bmngPprofGetEnhancedResponse | .bmngPprofAckInd => false
  | _ => true

/-- The handler insists on an empty message, although there are fields. -/
def Cb.wantsEmpty : Cb → Bool
  | .clNullLeaveInd | .clNullMlmeRegisterInd => true
  | _ => false

/-- The applications that have registered the callback. -/
def State.registered (s : State) (cb : Cb) : List ℕ :=
  (List.range primeApiMaxNum).filter fun i => s.sxPrimeApi i cb

/-- The applications that get a message for the callback. -/
def State.recipients (s : State) (cb : Cb) : List ℕ :=
  if cb.toAll then s.registered cb
  else if s.Selected cb then [s.sucPrimeAppIdReq.toNat] else []

/-- The same call for each of the applications. -/
def callEach (ids : List ℕ) (cb : Cb) (args : List Arg) : List Call :=
  ids.map fun i => ⟨i, cb, args⟩

section Handlers

variable {unset : Bool} {read : Read (List Arg)} {p : Cursor} {n : UInt16}

/-- A handler of the one family. -/
theorem handler_toAll (hall : cb.toAll = true) :
    cb.handler n p s = handleAll cb (cb.reader n) p s := by
  cases cb
  all_goals first
    | rfl
    | exact absurd hall (by decide)

/-- A handler of the other one; the handler of a data confirm looks into its table, too. -/
theorem handler_selected (hall : cb.toAll = false) (hcfm : cb ≠ .clNullDataCfm) :
    cb.handler n p s = handleSelected cb.unset cb (cb.reader n) p s := by
  cases cb
  case clNullDataCfm => exact absurd rfl hcfm
  all_goals first
    | rfl
    | exact absurd hall (by decide)

theorem handleSelected_accepts {args : List Arg} (hall : cb.toAll = false)
    (hread : (read p).1 = some args) : (handleSelected unset cb read p s).2.calls
      = s.calls ++ callEach (s.recipients cb) cb args := by
  unfold handleSelected State.recipients
  by_cases h : s.Selected cb
  · simp [h, hall, hread, callEach, State.call]
  · simp [h, hall, callEach]

/-- The loop over the applications calls one after the other. -/
theorem loop_calls {args : List Arg} : (forRange 0 primeApiMaxNum
      (fun i s => if s.sxPrimeApi i cb then s.call ⟨i, cb, args⟩ else s) s).calls
    = s.calls ++ callEach (s.registered cb) cb args := by
  unfold State.registered
  refine (forRange_induction (fun n (t : State) => t.sxPrimeApi = s.sxPrimeApi ∧ t.calls = s.calls
    ++ callEach ((List.range n).filter fun i => s.sxPrimeApi i cb) cb args)
    (Nat.zero_le _) ⟨rfl, by simp [callEach]⟩ ?_).2
  rintro n t - - ⟨htable, hcalls⟩
  rw [htable, List.range_succ, List.filter_append]
  by_cases hn : s.sxPrimeApi n cb
  · simp [hn, htable, hcalls, callEach, State.call]
  · simp [hn, htable, hcalls]

theorem handleAll_accepts {args : List Arg} (hall : cb.toAll = true)
    (hread : (read p).1 = some args) :
    (handleAll cb read p s).2.calls = s.calls ++ callEach (s.recipients cb) cb args := by
  unfold handleAll State.recipients
  rw [hread, if_pos hall]
  exact loop_calls

/-- A handler that does not accept the message calls nobody. -/
theorem handleAll_rejects (hread : (read p).1 = none) :
    handleAll cb read p s = (false, s) := by
  unfold handleAll
  rw [hread]

/-- A message that is accepted is given to the recipients. -/
theorem handler_accepts {args : List Arg} (hcfm : cb ≠ .clNullDataCfm)
    (hread : (cb.reader n p).1 = some args) :
    (cb.handler n p s).2.calls = s.calls ++ callEach (s.recipients cb) cb args := by
  cases hall : cb.toAll with
  | true =>
      rw [handler_toAll hall]
      exact handleAll_accepts hall hread
  | false =>
      rw [handler_selected hall hcfm]
      exact handleSelected_accepts hall hread

/-- The pointer that is kept for a connection, as the callback of a data confirm gets it. -/
def State.keptPointer (s : State) (usConHandle : UInt16) : Arg :=
  match (List.range numElementsPointerTable).find? fun i =>
      (s.sxDataPointerTable i).valid && (s.sxDataPointerTable i).conHandle == usConHandle with
  | none => .null
  | some i => .pointer (s.sxDataPointerTable i).pucData

/-- A data confirm goes to the selected application. -/
theorem clNullDataCfm_accepts (hn : n = 7) : (clNullDataCfm n p s).2.calls
    = s.calls ++ callEach (s.recipients .clNullDataCfm) .clNullDataCfm
      [.u16 (wordAt p.mem p.pos), s.keptPointer (wordAt p.mem p.pos),
        .u8 (p.mem.cell (p.pos + 6))] := by
  unfold clNullDataCfm State.recipients
  by_cases h : s.Selected .clNullDataCfm
  · simp only [if_pos h, readNullDataCfm, require_bind_of hn, word_bind, byte_bind, pure_apply]
    split
    · rename_i hfind
      rw [State.keptPointer, hfind]
      rfl
    · rename_i hfind
      rw [State.keptPointer, hfind]
      rfl
  · simp [h, Cb.toAll, callEach]

theorem clNullDataCfm_fst (hn : n = 7) : (clNullDataCfm n p s).1 = true := by
  unfold clNullDataCfm
  split
  · simp only [readNullDataCfm, require_bind_of hn, word_bind, byte_bind, pure_apply]
    split <;> rfl
  · rfl

theorem clNullDataCfm_refuses (hsel : s.Selected .clNullDataCfm) (hn : n ≠ 7) :
    clNullDataCfm n p s = (false, s) := by
  unfold clNullDataCfm
  rw [if_pos hsel, readNullDataCfm, require_bind, if_neg hn]

end Handlers

/-! ## What is accepted -/

section Readers

variable {n : UInt16} {p : Cursor}

theorem readResult_accepts (h : n.toNat = 1) : ∃ args, (readResult n p).1 = some args := by
  obtain rfl : n = 1 := UInt16.toNat_inj.mp h
  exact ⟨_, rfl⟩

theorem readHandleResult_accepts (h : n.toNat = 3) :
    ∃ args, (readHandleResult n p).1 = some args := by
  obtain rfl : n = 3 := UInt16.toNat_inj.mp h
  exact ⟨_, rfl⟩

theorem readNothing_accepts (h : n.toNat = 0) : ∃ args, (readNothing n p).1 = some args := by
  obtain rfl : n = 0 := UInt16.toNat_inj.mp h
  exact ⟨_, rfl⟩

/-- The loop over an address finds out whether it is all ones, and moves nothing but the mark
of what has been read. -/
theorem allFf_apply (i k : ℕ) (c : Cursor) : ∃ e, c.extent ≤ e ∧ allFf i k c
    = (some (decide (c.mem.slice (c.pos + i) k = List.replicate k 0xff)),
      { c with extent := e }) := by
  induction k generalizing i c with
  | zero => exact ⟨c.extent, le_rfl, rfl⟩
  | succ k ih =>
      have hslice : decide (c.mem.slice (c.pos + i) (k + 1) = List.replicate (k + 1) 0xff)
          = (decide (c.mem.cell (c.pos + i) = 0xff)
            && decide (c.mem.slice (c.pos + (i + 1)) k = List.replicate k 0xff)) := by
        rw [← Bool.decide_and, decide_eq_decide, Mem.slice_succ, List.replicate_succ,
          List.cons.injEq, Nat.add_assoc]
      rw [hslice]
      by_cases h : c.mem.cell (c.pos + i) = 0xff
      · obtain ⟨e, he, hrest⟩ :=
          ih (i + 1) { c with extent := max c.extent (c.pos + i + 1) }
        refine ⟨e, (le_max_left _ _).trans he, ?_⟩
        rw [allFf, peek_bind, if_neg (not_not.mpr h), hrest, decide_eq_true h, Bool.true_and]
      · refine ⟨max c.extent (c.pos + i + 1), le_max_left _ _, ?_⟩
        rw [allFf, peek_bind, if_pos h, decide_eq_false h, Bool.false_and]
        rfl

/-- The length of a text of a version indication, which is cut to 32. -/
def cutLength (n : UInt8) : UInt8 := if 32 < n then 32 else n

theorem cutLength_toNat (n : UInt8) : (cutLength n).toNat = min n.toNat 32 := by
  unfold cutLength
  by_cases h : 32 < n
  · have h32 : 32 < n.toNat := UInt8.lt_iff_toNat_lt.mp h
    rw [if_pos h, Nat.min_eq_right h32.le]
    rfl
  · have h32 : n.toNat ≤ 32 := UInt8.le_iff_toNat_le.mp (UInt8.not_lt.mp h)
    rw [if_neg h, Nat.min_eq_left h32]

theorem cutLength_of_le {n : UInt8} (h : n ≤ 32) : cutLength n = n := if_neg (UInt8.not_lt.mpr h)

/-- What is taken off the message for the text at address `i`. -/
def cutText (m : Mem UInt8) (i : ℕ) : ℕ := 1 + (cutLength (m.cell i)).toNat

theorem cutText_of_le {m : Mem UInt8} {i : ℕ} (h : m.cell i ≤ 32) :
    cutText m i = textLength m i := by
  unfold cutText textLength
  rw [cutLength_of_le h]

/-- Reading a text: the copy always fits its array. -/
theorem readText_bind {α : Type} (f : UInt8 × List UInt8 → Read α) (c : Cursor) :
    (readText >>= f) c
      = f (cutLength (c.mem.cell c.pos),
          c.mem.slice (c.pos + 1) (cutLength (c.mem.cell c.pos)).toNat)
        { c with
          pos := c.pos + cutText c.mem c.pos
          extent := max c.extent (c.pos + cutText c.mem c.pos) } := by
  have hextent : (if (cutLength (c.mem.cell c.pos)).toNat = 0 then max c.extent (c.pos + 1)
      else max (max c.extent (c.pos + 1)) (c.pos + 1 + (cutLength (c.mem.cell c.pos)).toNat))
        = max c.extent (c.pos + cutText c.mem c.pos) := by
    unfold cutText
    split <;> omega
  have hfits : (c.fits && decide ((cutLength (c.mem.cell c.pos)).toNat ≤ 32)) = c.fits := by
    rw [decide_eq_true (by rw [cutLength_toNat]; exact Nat.min_le_right _ _), Bool.and_true]
  have hread : readText c = (some (cutLength (c.mem.cell c.pos),
      c.mem.slice (c.pos + 1) (cutLength (c.mem.cell c.pos)).toNat),
        { c with
          pos := c.pos + 1 + (cutLength (c.mem.cell c.pos)).toNat
          extent := if (cutLength (c.mem.cell c.pos)).toNat = 0 then max c.extent (c.pos + 1)
            else max (max c.extent (c.pos + 1)) (c.pos + 1 + (cutLength (c.mem.cell c.pos)).toNat)
          fits := c.fits && decide ((cutLength (c.mem.cell c.pos)).toNat ≤ 32) }) := rfl
  rw [bind_apply_of hread, hextent, hfits, cutText, Nat.add_assoc]

/-- Where the second and the third text are found. -/
def cutModelAt (m : Mem UInt8) : ℕ := 7 + cutText m 7

@[inherit_doc cutModelAt]
def cutVersionAt (m : Mem UInt8) : ℕ := cutModelAt m + cutText m (cutModelAt m)

/-- The length that the test of a version indication asks for: it counts the texts without
their length bytes. -/
def testedLength (m : Mem UInt8) : ℕ :=
  6 + (cutLength (m.cell 7)).toNat + (cutLength (m.cell (cutModelAt m))).toNat
    + (cutLength (m.cell (cutVersionAt m))).toNat

/-- Reading a version indication. -/
theorem readPrimeFupVersionInd_apply (m : Mem UInt8) :
    readPrimeFupVersionInd n (.start m 1)
      = (if testedLength m ≤ n.toNat then some [.bytes (m.slice 1 6),
            .u8 (cutLength (m.cell 7)), .bytes (m.slice 8 (cutLength (m.cell 7)).toNat),
            .u8 (cutLength (m.cell (cutModelAt m))),
            .bytes (m.slice (cutModelAt m + 1) (cutLength (m.cell (cutModelAt m))).toNat),
            .u8 (cutLength (m.cell (cutVersionAt m))),
            .bytes (m.slice (cutVersionAt m + 1) (cutLength (m.cell (cutVersionAt m))).toNat)]
          else none,
        ⟨m, cutVersionAt m + cutText m (cutVersionAt m),
          cutVersionAt m + cutText m (cutVersionAt m), true⟩) := by
  have hextent : max (max (max 7 (7 + cutText m 7)) (cutModelAt m + cutText m (cutModelAt m)))
      (cutVersionAt m + cutText m (cutVersionAt m))
        = cutVersionAt m + cutText m (cutVersionAt m) := by
    unfold cutVersionAt cutModelAt
    omega
  simp only [readPrimeFupVersionInd, Cursor.start, copy_bind, readText_bind, require_bind]
  by_cases h : testedLength m ≤ n.toNat
  · rw [if_pos h]
    apply (if_pos (Nat.not_lt.mpr h)).trans
    exact congrArg (fun e => (some _, Cursor.mk m _ e true)) hextent
  · rw [if_neg h]
    apply (if_neg (not_not.mpr (Nat.not_le.mp h))).trans
    exact congrArg (fun e => (none, Cursor.mk m _ e true)) hextent

/-- A version indication with texts that fit is accepted. -/
theorem readPrimeFupVersionInd_accepts
    (hn : n.toNat = Cb.bmngFupVersionInd.fieldsLength ptrMsg)
    (htexts : ∀ i ∈ [7, modelAt ptrMsg, versionAt ptrMsg], ptrMsg.cell i ≤ 32) :
    ∃ args, (readPrimeFupVersionInd n (.start ptrMsg 1)).1 = some args := by
  have h1 := htexts 7 (by simp)
  have h2 := htexts (modelAt ptrMsg) (by simp)
  have h3 := htexts (versionAt ptrMsg) (by simp)
  have hmodel : cutModelAt ptrMsg = modelAt ptrMsg := by
    rw [cutModelAt, cutText_of_le h1, modelAt]
  have hversion : cutVersionAt ptrMsg = versionAt ptrMsg := by
    rw [cutVersionAt, hmodel, cutText_of_le h2, versionAt]
  have htested : testedLength ptrMsg ≤ n.toNat := by
    rw [hn, testedLength, hmodel, hversion, cutLength_of_le h1, cutLength_of_le h2,
      cutLength_of_le h3]
    simp only [Cb.fieldsLength, textLength]
    omega
  rw [readPrimeFupVersionInd_apply, if_pos htested]
  exact ⟨_, rfl⟩

/-- A well-formed message is accepted, unless its handler wants it to be empty. -/
theorem reader_accepts (hn : n.toNat = cb.fieldsLength ptrMsg)
    (htexts : cb = .bmngFupVersionInd →
      ∀ i ∈ [7, modelAt ptrMsg, versionAt ptrMsg], ptrMsg.cell i ≤ 32)
    (hempty : cb.wantsEmpty = false) :
    ∃ args, (cb.reader n (.start ptrMsg 1)).1 = some args := by
  cases cb
  case clNullLeaveInd => exact absurd hempty (by decide)
  case clNullMlmeRegisterInd => exact absurd hempty (by decide)
  case bmngFupVersionInd => exact readPrimeFupVersionInd_accepts hn (htexts rfl)
  case clNullReleaseInd | clNullReleaseCfm | clNullJoinCfm | clNullLeaveCfm | cl432ReleaseCfm =>
    exact readHandleResult_accepts hn
  case clNullPlmeResetCfm | clNullPlmeSleepCfm | clNullPlmeResumeCfm | clNullPlmeTestmodeCfm
      | clNullPlmeSetCfm | clNullMlmeUnregisterCfm | clNullMlmePromoteCfm
      | clNullMlmeDemoteCfm | clNullMlmeResetCfm | clNullMlmeSetCfm =>
    exact readResult_accepts hn
  case clNullMlmeUnregisterInd | clNullMlmePromoteInd | clNullMlmeDemoteInd =>
    exact readNothing_accepts hn
  -- a message without a test of its length is always accepted
  case clNullDataInd | bmngPprofGetResponse | bmngPprofGetEnhancedResponse | bmngPprofAckInd
      | cl432DlJoinInd | bmngNetworkEventInd => exact ⟨_, rfl⟩
  -- a fixed length
  case clNullDataCfm =>
    obtain rfl : n = 7 := UInt16.toNat_inj.mp hn
    exact ⟨_, rfl⟩
  case cl432DlLeaveInd | clNullMlmeRegisterCfm | cl432DlDataCfm | bmngFupAckInd
      | bmngFupStatusInd | bmngFupErrorInd | bmngFupKillInd =>
    simp [Cb.reader, readCl432DlLeaveInd, readClNullMlmeRegisterCfm, readCl432DlDataCfm,
      readPrimeFupAckInd, readPrimeFupStatusInd, readPrimeFupErrorInd, readPrimeFupKillInd,
      ← UInt16.toNat_inj, UInt16.lt_iff_toNat_lt, hn, Cb.fieldsLength]
  -- a length that depends on a field
  case clNullEstablishInd | clNullEstablishCfm | clNullJoinInd | clNullPlmeGetCfm
      | clNullMlmeGetCfm | clNullMlmeListGetCfm | cl432EstablishCfm | cl432DlDataInd =>
    simp [Cb.reader, readClNullEstablishInd, readClNullEstablishCfm, readClNullJoinInd, readPib,
      readClNullMlmeListGetCfm, readCl432EstablishCfm, readCl432DlDataInd, Cursor.start, hn,
      Cb.fieldsLength, lenIdEui48]

end Readers

/-- **Recipients.**  A well-formed message is given to its recipients, each once. -/
theorem handler_calls {n : UInt16} (hn : n.toNat = cb.fieldsLength ptrMsg)
    (htexts : cb = .bmngFupVersionInd →
      ∀ i ∈ [7, modelAt ptrMsg, versionAt ptrMsg], ptrMsg.cell i ≤ 32)
    (hempty : cb.wantsEmpty = false) :
    ∃ args, (cb.handler n (.start ptrMsg 1) s).2.calls
      = s.calls ++ callEach (s.recipients cb) cb args := by
  by_cases hcfm : cb = .clNullDataCfm
  · subst hcfm
    exact ⟨_, clNullDataCfm_accepts (UInt16.toNat_inj.mp hn)⟩
  · obtain ⟨args, hread⟩ := reader_accepts hn htexts hempty
    exact ⟨args, handler_accepts hcfm hread⟩

/-- A well-formed message whose handler wants it to be empty is dropped. -/
theorem handler_dropped {n : UInt16} (hn : n.toNat = cb.fieldsLength ptrMsg)
    (hempty : cb.wantsEmpty = true) : cb.handler n (.start ptrMsg 1) s = (false, s) := by
  have hne (hpos : 0 < n.toNat) : ¬ n = 0 := by
    rintro rfl
    exact absurd hpos (lt_irrefl 0)
  cases cb
  case clNullLeaveInd =>
    have h : n.toNat = 8 := hn
    exact handleAll_rejects (by rw [readClNullLeaveInd, require_bind, if_neg (hne (by omega))])
  case clNullMlmeRegisterInd =>
    have h : n.toNat = 7 := hn
    exact handleAll_rejects
      (by rw [readClNullMlmeRegisterInd, require_bind, if_neg (hne (by omega))])
  all_goals exact absurd hempty (by decide)

/-- **Recipients**, for the dispatcher. -/
theorem receivedCmd_calls (h : WellFormed cb ptrMsg len) (hempty : cb.wantsEmpty = false) :
    ∃ args, (ifacePrimeApiReceivedCmd ptrMsg len s).2.calls
      = s.calls ++ callEach (s.recipients cb) cb args := by
  rw [receivedCmd_eq_handler h.cmd]
  exact handler_calls h.fields h.texts hempty

theorem receivedCmd_dropped (h : WellFormed cb ptrMsg len) (hempty : cb.wantsEmpty = true) :
    ifacePrimeApiReceivedCmd ptrMsg len s = (false, s) := by
  rw [receivedCmd_eq_handler h.cmd]
  exact handler_dropped h.fields hempty

/-! ## Indications -/

/-- The indications of the base node. -/
def Cb.isInd : Cb → Bool
  | .clNullEstablishInd | .clNullReleaseInd | .clNullJoinInd | .clNullLeaveInd | .clNullDataInd
  | .clNullMlmeRegisterInd | .clNullMlmeUnregisterInd | .clNullMlmePromoteInd
  | .clNullMlmeDemoteInd | .cl432DlDataInd | .cl432DlLeaveInd | .cl432DlJoinInd
  | .bmngFupStatusInd | .bmngFupErrorInd | .bmngFupVersionInd | .bmngFupKillInd
  | .bmngNetworkEventInd => true
  | _ => false

/-- The indications that are given to the selected application, and those whose handlers
accept nothing but an empty message. -/
def lostIndications : List Cb :=
  [.clNullDataInd, .cl432DlDataInd, .bmngFupStatusInd, .bmngFupErrorInd, .bmngFupVersionInd,
    .bmngFupKillInd, .clNullLeaveInd, .clNullMlmeRegisterInd]

/-- The callbacks that are called for a message, with their applications. -/
def callees (ptrMsg : Mem UInt8) (len : UInt16) (s : State) : List (ℕ × Cb) :=
  (ifacePrimeApiReceivedCmd ptrMsg len { s with calls := [] }).2.calls.map
    fun call => (call.appId, call.cb)

/-- The same state after another request. -/
def State.selecting (s : State) (appId : UInt8) : State := { s with sucPrimeAppIdReq := appId }

/-- The same callbacks are called whoever is selected, and if an application has registered
the callback of the message then somebody is called. -/
def Independent (cb : Cb) (ptrMsg : Mem UInt8) (len : UInt16) (s : State) : Prop :=
  (∀ a b x, x ∈ callees ptrMsg len (s.selecting a) ↔ x ∈ callees ptrMsg len (s.selecting b))
    ∧ ((∃ i < primeApiMaxNum, s.sxPrimeApi i cb = true) →
      ∀ a, callees ptrMsg len (s.selecting a) ≠ [])

theorem callees_eq (h : WellFormed cb ptrMsg len) (hempty : cb.wantsEmpty = false) :
    callees ptrMsg len s = (s.recipients cb).map fun i => (i, cb) := by
  obtain ⟨args, hargs⟩ := receivedCmd_calls (s := { s with calls := [] }) h hempty
  unfold callees
  rw [hargs, List.nil_append]
  exact List.map_map

theorem callees_dropped (h : WellFormed cb ptrMsg len) (hempty : cb.wantsEmpty = true) :
    callees ptrMsg len s = [] := by
  unfold callees
  rw [receivedCmd_dropped h hempty]
  rfl

/-- What all applications get depends on the table alone. -/
theorem recipients_selecting {a : UInt8} (hall : cb.toAll = true) :
    (s.selecting a).recipients cb = s.registered cb := if_pos hall

/-- Nobody is selected before the first request. -/
theorem recipients_invalid (hall : cb.toAll = false) :
    (s.selecting primeApiInvalid).recipients cb = [] := by
  unfold State.recipients
  rw [if_neg (by simp [hall]), if_neg fun h => ?_]
  exact absurd (show primeApiInvalid.toNat < primeApiMaxNum from h.1) (by decide)

theorem registered_eq_nil :
    s.registered cb = [] ↔ ∀ i < primeApiMaxNum, s.sxPrimeApi i cb = false := by
  simp [State.registered, List.filter_eq_nil_iff]

/-- Without a callback nobody gets the message. -/
theorem recipients_of_unregistered {a : UInt8}
    (h : ∀ i < primeApiMaxNum, s.sxPrimeApi i cb = false) :
    (s.selecting a).recipients cb = [] := by
  unfold State.recipients
  have hsel : ¬ (s.selecting a).Selected cb := by
    rintro ⟨hlt, hset⟩
    exact absurd ((h _ hlt).symm.trans hset) (by decide)
  rw [if_neg hsel]
  split
  · exact registered_eq_nil.mpr h
  · rfl

/-- The families of the handlers, read off their definitions. -/
theorem isInd_families (h : cb.isInd = true) :
    cb ∉ lostIndications ↔ cb.toAll = true ∧ cb.wantsEmpty = false := by
  revert h
  cases cb <;> decide

/-- **Indications.**  An indication depends on who made a request last, or is lost, exactly
if it is one of `lostIndications` and some application has registered its callback. -/
theorem prime_indication_independent_iff (hind : cb.isInd = true)
    (h : WellFormed cb ptrMsg len) : Independent cb ptrMsg len s ↔
      (cb ∈ lostIndications → ∀ i < primeApiMaxNum, s.sxPrimeApi i cb = false) := by
  constructor
  · rintro ⟨-, hsome⟩ hlost
    by_contra hreg
    have hexists : ∃ i < primeApiMaxNum, s.sxPrimeApi i cb = true := by
      simpa using hreg
    -- with nobody selected, nobody is called
    apply hsome hexists primeApiInvalid
    cases hempty : cb.wantsEmpty with
    | true => exact callees_dropped h hempty
    | false =>
        have hall : cb.toAll = false := by
          by_contra hall
          exact (isInd_families hind).mpr ⟨by simpa using hall, hempty⟩ hlost
        rw [callees_eq h hempty, recipients_invalid hall]
        rfl
  · intro hcond
    by_cases hlost : cb ∈ lostIndications
    · -- nobody is called at all
      have hnone := hcond hlost
      have hcallees (a : UInt8) : callees ptrMsg len (s.selecting a) = [] := by
        cases hempty : cb.wantsEmpty with
        | true => exact callees_dropped h hempty
        | false =>
            rw [callees_eq h hempty, recipients_of_unregistered hnone]
            rfl
      refine ⟨fun a b x => by rw [hcallees a, hcallees b], ?_⟩
      rintro ⟨i, hi, hset⟩
      exact absurd ((hnone i hi).symm.trans hset) (by decide)
    · obtain ⟨hall, hempty⟩ := (isInd_families hind).mp hlost
      have hcallees (a : UInt8) : callees ptrMsg len (s.selecting a)
          = (s.registered cb).map fun i => (i, cb) := by
        rw [callees_eq h hempty, recipients_selecting hall]
      refine ⟨fun a b x => by rw [hcallees a, hcallees b], ?_⟩
      rintro ⟨i, hi, hset⟩ a
      rw [hcallees a]
      intro hnil
      have hnone := registered_eq_nil.mp (List.map_eq_nil_iff.mp hnil)
      exact absurd ((hnone i hi).symm.trans hset) (by decide)

/-- The DLMSoTCP server alone has registered the callback of the 4-32 data indication. -/
def dlmsotcpRegistered : State :=
  primeCl432SetCallbacks 3 (fun cb => cb = .cl432DlDataInd) ifacePrimeApiInit

/-- A 4-32 data indication with a message of two bytes. -/
def dataInd : Mem UInt8 :=
  messageOf [0x38, 0x01, 0x10, 0x0f, 0xfe, 0x00, 0x05, 0x00, 0x02, 0xaa, 0xbb, 0x00]

theorem dataInd_wellFormed : WellFormed .cl432DlDataInd dataInd 12 :=
  ⟨by decide, by decide, by decide⟩

/-- A data indication goes to the server if it was the last to make a request, and is lost
if this was the command line. -/
theorem data_ind_depends_on_requester :
    ¬ ∀ (cb : Cb) (ptrMsg : Mem UInt8) (len : UInt16) (s : State),
      cb.isInd = true → WellFormed cb ptrMsg len → Independent cb ptrMsg len s := by
  intro h
  have hsome := (h .cl432DlDataInd dataInd 12 dlmsotcpRegistered rfl dataInd_wellFormed).2
    ⟨3, by decide, by decide⟩
  exact hsome 2 (by decide)

/-- The rule applies to the data indication. -/
theorem data_ind_independent_iff : Independent .cl432DlDataInd dataInd 12 dlmsotcpRegistered ↔
    (Cb.cl432DlDataInd ∈ lostIndications →
      ∀ i < primeApiMaxNum, dlmsotcpRegistered.sxPrimeApi i .cl432DlDataInd = false) :=
  prime_indication_independent_iff rfl dataInd_wellFormed

/-! ## Confirms -/

/-- The request primitives that the base node answers with a confirm, with what the API
keeps of them. -/
inductive Request where
  | clNullEstablish | clNullRelease | clNullJoin | clNullLeave
  | clNullData (usConHandle : UInt16) (pucData : ℕ)
  | clNullPlmeReset | clNullPlmeSleep | clNullPlmeResume | clNullPlmeTestmode
  | clNullPlmeGet | clNullPlmeSet
  | clNullMlmeRegister | clNullMlmeUnregister | clNullMlmePromote | clNullMlmeDemote
  | clNullMlmeReset | clNullMlmeGet | clNullMlmeListGet | clNullMlmeSet
  | cl432Establish | cl432Release | cl432DlData
  deriving DecidableEq, Repr

/-- The confirm of a request. -/
def Request.confirm : Request → Cb
  | clNullEstablish => .clNullEstablishCfm
  | clNullRelease => .clNullReleaseCfm
  | clNullJoin => .clNullJoinCfm
  | clNullLeave => .clNullLeaveCfm
  | clNullData _ _ => .clNullDataCfm
  | clNullPlmeReset => .clNullPlmeResetCfm
  | clNullPlmeSleep => .clNullPlmeSleepCfm
  | clNullPlmeResume => .clNullPlmeResumeCfm
  | clNullPlmeTestmode => .clNullPlmeTestmodeCfm
  | clNullPlmeGet => .clNullPlmeGetCfm
  | clNullPlmeSet => .clNullPlmeSetCfm
  | clNullMlmeRegister => .clNullMlmeRegisterCfm
  | clNullMlmeUnregister => .clNullMlmeUnregisterCfm
  | clNullMlmePromote => .clNullMlmePromoteCfm
  | clNullMlmeDemote => .clNullMlmeDemoteCfm
  | clNullMlmeReset => .clNullMlmeResetCfm
  | clNullMlmeGet => .clNullMlmeGetCfm
  | clNullMlmeListGet => .clNullMlmeListGetCfm
  | clNullMlmeSet => .clNullMlmeSetCfm
  | cl432Establish => .cl432EstablishCfm
  | cl432Release => .cl432ReleaseCfm
  | cl432DlData => .cl432DlDataCfm

/-- What a request changes in the API. -/
def Request.run : Request → State → State
  | clNullData usConHandle pucData, s => primeClNullDataRequest usConHandle pucData s
  | _, s => s

/-- An application registers callbacks, makes a request or selects itself for one that has no
confirm (those of `bmng`), or a message arrives; `answers` is the place of the request that it
answers among those that have not been answered. -/
inductive Event where
  | setCallbacks (group : Group) (appId : UInt8) (cbs : Cb → Bool)
  | request (appId : UInt8) (r : Request)
  | select (appId : UInt8)
  | received (ptrMsg : Mem UInt8) (len : UInt16) (answers : Option ℕ)

/-- The reaction to an event; every request comes with its `ifacePrime_select_api`. -/
def step : Event → State → State
  | .setCallbacks group appId cbs, s => setCallbacks group appId cbs s
  | .request appId r, s => r.run (ifacePrimeSelectApi appId s)
  | .select appId, s => ifacePrimeSelectApi appId s
  | .received ptrMsg len _, s => (ifacePrimeApiReceivedCmd ptrMsg len s).2

/-- What is known of the requests of a run. -/
structure Requests where
  /-- The requests that have not been answered: who made them, and what they wait for. -/
  pending : List (UInt8 × Cb)
  /-- Who made a request last, or selected itself for one. -/
  latest : Option UInt8

/-- The requests after an event. -/
def Requests.update (r : Requests) : Event → Requests
  | .setCallbacks .. => r
  | .request appId q => ⟨r.pending ++ [(appId, q.confirm)], some appId⟩
  | .select appId => { r with latest := some appId }
  | .received _ _ none => r
  | .received _ _ (some n) => { r with pending := r.pending.eraseIdx n }

/-- A step of the API with its requests. -/
def stepRequests (e : Event) (x : State × Requests) : Option (State × Requests) :=
  some (step e x.1, x.2.update e)

/-- The API when it has been started. -/
def started : State × Requests := (ifacePrimeApiInit, ⟨[], none⟩)

/-- A message that answers a request is a well-formed confirm of it, and the application
that made the request has registered the callback. -/
def Answered (e : Event) (x : State × Requests) : Prop :=
  match e with
  | .received ptrMsg len (some n) =>
      ∃ p ∈ x.2.pending[n]?, WellFormed p.2 ptrMsg len
        ∧ p.1.toNat < primeApiMaxNum ∧ x.1.sxPrimeApi p.1.toNat p.2 = true
  | _ => True

/-- A confirm goes to the callback of the application whose request it answers, once, and
to no other. -/
def Routed (e : Event) (x : State × Requests) : Prop :=
  match e with
  | .received _ _ (some n) =>
      ∃ p ∈ x.2.pending[n]?, ∃ args,
        (step e x.1).calls = x.1.calls ++ callEach [p.1.toNat] p.2 args
  | _ => True

/-- A confirm arrives before another application makes a request of any kind. -/
def AnswersLatest (e : Event) (x : State × Requests) : Prop :=
  match e with
  | .received _ _ (some n) => ∀ p ∈ x.2.pending[n]?, x.2.latest = some p.1
  | _ => True

section Confirms

variable {e : Event} {x x' : State × Requests} {n : UInt16} {p : Cursor}

/-! ### What a message leaves alone -/

theorem handleSelected_sucPrimeAppIdReq {unset : Bool} {read : Read (List Arg)} :
    (handleSelected unset cb read p s).2.sucPrimeAppIdReq = s.sucPrimeAppIdReq := by
  unfold handleSelected
  split
  · split <;> rfl
  · rfl

theorem handleAll_sucPrimeAppIdReq {read : Read (List Arg)} :
    (handleAll cb read p s).2.sucPrimeAppIdReq = s.sucPrimeAppIdReq := by
  unfold handleAll
  split
  · rfl
  · apply forRange_invariant (fun t : State => t.sucPrimeAppIdReq = s.sucPrimeAppIdReq) rfl
    intro i t _ _ ht
    split
    · exact ht
    · exact ht

theorem clNullDataCfm_sucPrimeAppIdReq :
    (clNullDataCfm n p s).2.sucPrimeAppIdReq = s.sucPrimeAppIdReq := by
  unfold clNullDataCfm
  split
  · split
    · rfl
    · dsimp only
      split <;> rfl
  · rfl

/-- No message selects an application. -/
theorem receivedCmd_sucPrimeAppIdReq :
    (ifacePrimeApiReceivedCmd ptrMsg len s).2.sucPrimeAppIdReq = s.sucPrimeAppIdReq := by
  unfold ifacePrimeApiReceivedCmd
  dsimp only
  split
  all_goals first
    | exact handleSelected_sucPrimeAppIdReq
    | exact handleAll_sucPrimeAppIdReq
    | exact clNullDataCfm_sucPrimeAppIdReq
    | rfl

/-! ### Routing -/

/-- The selected application is the one that made a request last. -/
structure Tracks (x : State × Requests) : Prop where
  latest : ∀ a ∈ x.2.latest, x.1.sucPrimeAppIdReq
    = if a.toNat < primeApiMaxNum then a else primeApiInvalid
  pending : x.2.pending ≠ [] → x.2.latest ≠ none
  confirm : ∀ p ∈ x.2.pending, p.2.toAll = false ∧ p.2.wantsEmpty = false

theorem Request.confirm_families (r : Request) :
    r.confirm.toAll = false ∧ r.confirm.wantsEmpty = false := by
  cases r <;> exact ⟨rfl, rfl⟩

theorem Request.run_sucPrimeAppIdReq (r : Request) :
    (r.run s).sucPrimeAppIdReq = s.sucPrimeAppIdReq := by
  cases r
  case clNullData usConHandle pucData =>
    change (primeClNullDataRequest usConHandle pucData s).sucPrimeAppIdReq = _
    unfold primeClNullDataRequest
    split <;> rfl
  all_goals rfl

/-- Every event keeps track. -/
theorem Tracks.step (h : Tracks x) (hx : stepRequests e x = some x') : Tracks x' := by
  obtain rfl := Option.some.inj hx
  cases e with
  | setCallbacks group appId cbs =>
      have hsuc : (setCallbacks group appId cbs x.1).sucPrimeAppIdReq
          = x.1.sucPrimeAppIdReq := by
        unfold setCallbacks
        split <;> rfl
      exact ⟨fun a ha => hsuc.trans (h.latest a ha), h.pending, h.confirm⟩
  | request appId r =>
      refine ⟨?_, fun _ => Option.some_ne_none appId, ?_⟩
      · rintro a ha
        obtain rfl : appId = a := Option.some.inj ha
        exact r.run_sucPrimeAppIdReq
      · intro p hp
        rcases List.mem_append.mp hp with hp | hp
        · exact h.confirm p hp
        · obtain rfl := List.mem_singleton.mp hp
          exact r.confirm_families
  | select appId =>
      refine ⟨?_, fun _ => Option.some_ne_none appId, h.confirm⟩
      rintro a ha
      obtain rfl : appId = a := Option.some.inj ha
      rfl
  | received ptrMsg len answers =>
      have hlatest : ∀ a ∈ x.2.latest,
          (ifacePrimeApiReceivedCmd ptrMsg len x.1).2.sucPrimeAppIdReq
            = if a.toNat < primeApiMaxNum then a else primeApiInvalid :=
        fun a ha => receivedCmd_sucPrimeAppIdReq.trans (h.latest a ha)
      cases answers with
      | none => exact ⟨hlatest, h.pending, h.confirm⟩
      | some n =>
          refine ⟨hlatest, fun hne => h.pending ?_, fun p hp => ?_⟩
          · intro hnil
            apply hne
            change x.2.pending.eraseIdx n = []
            rw [hnil, List.eraseIdx_nil]
          · exact h.confirm p (List.mem_of_mem_eraseIdx hp)

/-- The recipients of a confirm, when application `b` has made a request last. -/
theorem recipients_eq_singleton_iff {a b : UInt8} (hall : cb.toAll = false)
    (hsuc : s.sucPrimeAppIdReq = if b.toNat < primeApiMaxNum then b else primeApiInvalid)
    (hlt : a.toNat < primeApiMaxNum) (hset : s.sxPrimeApi a.toNat cb = true) :
    s.recipients cb = [a.toNat] ↔ b = a := by
  have hrecipients : s.recipients cb
      = if s.Selected cb then [s.sucPrimeAppIdReq.toNat] else [] := if_neg (by simp [hall])
  constructor
  · intro hone
    rw [hrecipients] at hone
    split_ifs at hone with hsel
    have hid : s.sucPrimeAppIdReq = a := UInt8.toNat_inj.mp (List.cons.inj hone).1
    split_ifs at hsuc with hb
    · exact hsuc.symm.trans hid
    · exact absurd (show primeApiInvalid.toNat < primeApiMaxNum from hsuc ▸ hsel.1) (by decide)
  · rintro rfl
    rw [if_pos hlt] at hsuc
    have hsel : s.Selected cb := ⟨by rwa [hsuc], by rwa [hsuc]⟩
    rw [hrecipients, if_pos hsel, hsuc]

theorem callEach_inj {ids js : List ℕ} {args brgs : List Arg}
    (h : callEach ids cb args = callEach js cb brgs) : ids = js := by
  have hids := congrArg (List.map Call.appId) h
  simpa [callEach, Function.comp_def] using hids

/-- **One step.**  A confirm is routed exactly when it answers the latest request. -/
theorem routed_iff (h : Tracks x) (hans : Answered e x) : Routed e x ↔ AnswersLatest e x := by
  cases e with
  | setCallbacks group appId cbs => exact Iff.rfl
  | request appId r => exact Iff.rfl
  | select appId => exact Iff.rfl
  | received ptrMsg len answers =>
      cases answers with
      | none => exact Iff.rfl
      | some n =>
          obtain ⟨p, hp, hwf, hlt, hset⟩ := hans
          obtain ⟨hall, hempty⟩ := h.confirm p (List.mem_of_getElem? hp)
          obtain ⟨args, hcalls⟩ := receivedCmd_calls (s := x.1) hwf hempty
          -- somebody has made a request
          obtain ⟨b, hb⟩ := Option.ne_none_iff_exists'.mp
            (h.pending (List.ne_nil_of_mem (List.mem_of_getElem? hp)))
          have hone := recipients_eq_singleton_iff hall (h.latest b hb) hlt hset
          constructor
          · rintro ⟨q, hq, args', hrouted⟩ r hr
            obtain rfl : p = q := Option.some.inj (hp.symm.trans hq)
            obtain rfl : p = r := Option.some.inj (hp.symm.trans hr)
            have hids := callEach_inj (List.append_cancel_left (hcalls.symm.trans hrouted))
            rw [hb, hone.mp hids]
          · intro hlatest
            have hbp : b = p.1 := Option.some.inj (hb.symm.trans (hlatest p hp))
            refine ⟨p, hp, args, ?_⟩
            rw [← hone.mpr hbp]
            exact hcalls

/-- **Confirm routing.**  In every run in which the applications make requests and the base
node answers them, in any order, every confirm goes to the callback of the application
whose request it answers exactly when every confirm arrives before another application
makes a request. -/
theorem prime_confirms_routed_iff (es : List Event)
    (hans : AlongSteps stepRequests Answered es started) :
    AlongSteps stepRequests Routed es started
      ↔ AlongSteps stepRequests AnswersLatest es started := by
  apply alongSteps_congr_of (I := Tracks) hans
  · exact fun e x hx h => routed_iff hx h
  · exact fun e x x' hx _ _ hx' => hx.step hx'
  · exact ⟨fun a ha => absurd ha (by simp [started]), fun h => absurd rfl h,
      fun p hp => absurd hp List.not_mem_nil⟩

end Confirms

/-! ### A confirm for the wrong application -/

/-- The command line registers for the null layer, the DLMSoTCP server for the 4-32 layer. -/
def registrations : List Event :=
  [.setCallbacks .clNull 2 (fun _ => true), .setCallbacks .cl432 3 (fun _ => true)]

/-- The list of the registered devices, which is empty. -/
def listGetCfm : Mem UInt8 := messageOf [0x30, 0x00, 0x00, 0x50, 0x00, 0x00]

/-- The server sends data while the command line waits for its list. -/
def overtaken : List Event :=
  registrations ++ [.request 2 .clNullMlmeListGet, .request 3 .cl432DlData,
    .received listGetCfm 6 (some 0)]

/-- The server sends its data when the list has come. -/
def oneAfterTheOther : List Event :=
  registrations ++ [.request 2 .clNullMlmeListGet, .received listGetCfm 6 (some 0),
    .request 3 .cl432DlData]

theorem listGetCfm_wellFormed : WellFormed .clNullMlmeListGetCfm listGetCfm 6 :=
  ⟨by decide, by decide, by decide⟩

theorem overtaken_answered : AlongSteps stepRequests Answered overtaken started := by
  refine (alongSteps_cons rfl).mpr ⟨trivial, (alongSteps_cons rfl).mpr ⟨trivial, ?_⟩⟩
  refine (alongSteps_cons rfl).mpr ⟨trivial, (alongSteps_cons rfl).mpr ⟨trivial, ?_⟩⟩
  refine (alongSteps_cons rfl).mpr ⟨?_, trivial⟩
  exact ⟨(2, .clNullMlmeListGetCfm), rfl, listGetCfm_wellFormed, by decide, rfl⟩

/-- The confirm for the command line arrives when the server has been selected, which has
no callback for it: it is dropped. -/
theorem prime_confirm_dropped :
    ¬ ∀ es : List Event, AlongSteps stepRequests Answered es started →
      AlongSteps stepRequests Routed es started := by
  intro h
  have hrouted := h overtaken overtaken_answered
  rw [show overtaken = overtaken.take 4 ++ overtaken.drop 4 from rfl, alongSteps_append] at hrouted
  obtain ⟨⟨p, -, args, hcalls⟩, -⟩ := hrouted.2 _ rfl
  have hlen : 0 = 1 := congrArg List.length hcalls
  exact absurd hlen (by decide)

/-- The rule applies when the confirm has come before the next request. -/
theorem prime_confirms_routed_in_turn :
    AlongSteps stepRequests Routed oneAfterTheOther started
      ↔ AlongSteps stepRequests AnswersLatest oneAfterTheOther started := by
  apply prime_confirms_routed_iff oneAfterTheOther
  refine (alongSteps_cons rfl).mpr ⟨trivial, (alongSteps_cons rfl).mpr ⟨trivial, ?_⟩⟩
  refine (alongSteps_cons rfl).mpr ⟨trivial, (alongSteps_cons rfl).mpr ⟨?_, ?_⟩⟩
  · exact ⟨(2, .clNullMlmeListGetCfm), rfl, listGetCfm_wellFormed, by decide, rfl⟩
  · exact (alongSteps_cons rfl).mpr ⟨trivial, trivial⟩

end PrimeApi
