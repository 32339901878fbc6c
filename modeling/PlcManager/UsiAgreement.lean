/-
# Which protocols come through

The sender maps a protocol to an index, picks its CRC and puts six bits of it in the
header; the receiver picks the CRC from these six bits and dispatches on them.  The user
defined protocol does not fit six bits, and the internal one has no case in the receiver;
all others that the sender knows come through.
-/
import PlcManager.UsiSend
import PlcManager.UsiLoopback

namespace Usi

/-! ## The frame of a command as a message -/

section Messages

variable {msg : XUsiCmd} {t : UInt8} {payload : List UInt8}

/-- The protocols that the sender knows. -/
theorem known_iff : usiProtId2idx t ≠ usiInvalidProtocolIdx
    ↔ t ∈ receivedProtocols ∨ t = protocolUserDefined ∨ t = protocolInternal := by
  have hmem : t ∈ receivedProtocols ↔ t ∈ mngpProtocols ∨ t = protocolSnifPrime
      ∨ t = protocolAtpl230 ∨ t = protocolPrimeApi := by
    unfold receivedProtocols
    rw [List.mem_append]
    simp only [List.mem_cons, List.not_mem_nil, or_false]
  rw [hmem]
  unfold usiProtId2idx
  split_ifs with hmngp hsnif hatpl huser hprime hinternal
  · exact iff_of_true (by decide) (.inl (.inl hmngp))
  · exact iff_of_true (by decide) (.inl (.inr (.inl hsnif)))
  · exact iff_of_true (by decide) (.inl (.inr (.inr (.inl hatpl))))
  · exact iff_of_true (by decide) (.inr (.inl huser))
  · exact iff_of_true (by decide) (.inl (.inr (.inr (.inr hprime))))
  · exact iff_of_true (by decide) (.inr (.inr hinternal))
  · apply iff_of_false (not_not.mpr rfl)
    rintro ((h | h | h | h) | h | h)
    · exact hmngp h
    · exact hsnif h
    · exact hatpl h
    · exact hprime h
    · exact huser h
    · exact hinternal h

/-- A command of a protocol that the receiver knows is sent as the frame of a message. -/
theorem XUsiCmd.exists_msg (hne : msg.usLen ≠ 0) (hfit : msg.frame.length ≤ txauxSize)
    (htype : msg.ucPType ∈ receivedProtocols) :
    ∃ u : UsiMsg, u.ucType = msg.ucPType ∧ u.frame = msg.frame := by
  have hbuf : msg.pucBuf ≠ [] := fun hnil => hne (congrArg List.length hnil)
  have hlen := XUsiCmd.length_wirePayload hbuf
  have hmin := XUsiCmd.le_length_frame hbuf
  unfold txauxSize at hfit
  have hsmall : msg.usLen < 1024 := by omega
  refine ⟨⟨msg.ucPType, msg.wirePayload, htype, by omega, fun hnil => ?_, fun hprime => ?_⟩,
    rfl, rfl⟩
  · rw [hnil] at hlen
    exact absurd hlen.symm hne
  · have hhead : msg.wirePayload.headD 0 = cmdProtocol (msg.pucBuf.headD 0) := by
      unfold XUsiCmd.wirePayload
      rw [if_pos hprime, lenExProtocol_of_lt hsmall, List.headD_cons, UInt8.zero_add]
    rw [hhead, UInt8.lt_iff_toNat_lt, toNat_cmdProtocol]
    exact Nat.mod_lt _ (by decide)

/-- The type that the receiver sees. -/
theorem typeOf_body (t : UInt8) (payload : List UInt8) :
    typeOf (body t payload) = typeProtocol t :=
  typeProtocol_header t payload.length

end Messages

/-! ## The receiver -/

/-- The call invokes the callback of the index. -/
def Invokes (inp : Input) (s : State) (idx : ℕ) : Prop :=
  ∃ s' ev, halUsiProcess inp s = some (s', ev) ∧ idx ∈ (received ev).map Prod.fst

section Receiver

variable {inp : Input} {s : State} {t : UInt8} {payload : List UInt8} {pf : Serialization}

/-- A valid message with a callback is handed to it. -/
theorem invokes_of_frame (u : UsiMsg) (h : Tracks s [] false) (hread : inp.read = some u.frame)
    (hlen : u.frame.length ≤ txauxSize) (hoff : s.fdSocketLoopback ≤ 0)
    (hreg : s.usiCfgMapProtocols u.callbackIdx = some pf) : Invokes inp s u.callbackIdx := by
  obtain ⟨m', k, n, hbody, hcall⟩ := halUsiProcess_frame (g := []) (r := []) (u := u) h hread hlen
    (by simp) (by simp)
  have hretx : ¬ 0 < ucRetxLen { s with pucRxbuf0 := m', sbCheckLen := false } u.ucType
      u.payload.length := by
    rw [ucRetxLen, if_neg]
    · omega
    · exact fun hon => absurd hon.2 (not_lt.mpr hoff)
  rw [u.processMsg_body (s := { s with pucRxbuf0 := m', sbCheckLen := false }) hbody hreg,
    if_neg hretx] at hcall
  refine ⟨_, _, hcall, ?_⟩
  rw [received_event]
  exact List.mem_singleton.mpr rfl

/-- A frame of a type that the receiver does not check is dropped. -/
theorem not_invokes_of_type (h : Tracks s [] false) (htype : typeProtocol t ∉ checkedProtocols)
    (hread : inp.read = some (frame t payload)) (hlen : (frame t payload).length ≤ txauxSize)
    {idx : ℕ} (hne : payload ≠ []) : ¬ Invokes inp s idx := by
  obtain ⟨m', k, n, hdec, hcall⟩ := halUsiProcess_text (g := []) (r := [])
    (c := usiEscapes.stuff (body t payload)) h hread hlen (by simp [frame]) (by simp)
    (usiEscapes.mark_not_mem_stuff _)
  rw [decoded_stuff] at hdec hcall
  have hshort : 3 ≤ (body t payload).length := by
    have hpos := List.length_pos_iff.mpr hne
    rw [length_body]
    omega
  have hdrop : doEoMsg m' (([] : List UInt8).length + 1) (body t payload).length ≠ true := by
    intro heo
    obtain ⟨-, -, hchecked, -⟩ := doEoMsg_iff.mp heo
    rw [typeOf_eq hdec hshort, typeOf_body] at hchecked
    exact htype hchecked
  rw [h.flag] at hcall
  dsimp only at hcall
  rw [if_neg (by simp), if_neg hdrop] at hcall
  rintro ⟨s', ev, hrun, hmem⟩
  rw [hcall] at hrun
  cases hrun
  cases hmem

/-- The callback of a known protocol is registered. -/
theorem registered_opened {fd : ℤ} {behindRx behindTx : ℕ → UInt8}
    (hknown : usiProtId2idx t ≠ usiInvalidProtocolIdx) :
    (opened fd behindRx behindTx [(t, some pf)]).usiCfgMapProtocols (usiProtId2idx t)
      = some pf := by
  unfold opened registerAll
  rw [List.foldl_cons, List.foldl_nil]
  unfold halUsiSetCallback
  rw [if_neg hknown]
  exact Function.update_self _ _ _

/-! ## Both together -/

/-- A received type fits the six bits of the header; the two others leave nothing there that
the receiver checks. -/
theorem typeProtocol_unchecked (h : t = protocolUserDefined ∨ t = protocolInternal) :
    typeProtocol t ∉ checkedProtocols := by
  rcases h with rfl | rfl <;> decide

theorem not_unchecked_of_received (h : t ∈ receivedProtocols) :
    t ≠ protocolUserDefined ∧ t ≠ protocolInternal := by
  constructor
  · rintro rfl
    exact absurd h (by decide)
  · rintro rfl
    exact absurd h (by decide)

/-- **Agreement.**  What is sent with success, and then read by a receiver that has a callback
for its protocol, invokes this callback exactly when the protocol is neither the user defined
nor the internal one. -/
theorem usi_protocols_agree_iff {msg : XUsiCmd} {sender sent : State} {ev : List Event}
    (hidx : sender.usIdxIn = 0) (hsize : sender.txUsSize ≤ txauxSize)
    (hsend : halUsiSendCmd .acceptAll sender msg = some (sent, .ok, ev))
    (fd : ℤ) (behindRx behindTx : ℕ → UInt8) (pf : Serialization) (inp : Input)
    (hread : inp.read = some (written ev)) :
    Invokes inp (opened fd behindRx behindTx [(msg.ucPType, some pf)]) (usiProtId2idx msg.ucPType)
      ↔ msg.ucPType ≠ protocolUserDefined ∧ msg.ucPType ≠ protocolInternal := by
  obtain ⟨hne, hknown, hfit, hwritten⟩ := of_halUsiSendCmd_ok hidx hsize hsend
  have htracks := tracks_opened fd behindRx behindTx [(msg.ucPType, some pf)]
  rw [hwritten] at hread
  rcases known_iff.mp hknown with htype | hother
  · refine iff_of_true ?_ (not_unchecked_of_received htype)
    obtain ⟨u, hu, hframe⟩ := XUsiCmd.exists_msg hne hfit htype
    rw [← hframe] at hread hfit
    have hreg := @registered_opened msg.ucPType pf fd behindRx behindTx hknown
    rw [← hu] at hreg ⊢
    refine invokes_of_frame u (hu ▸ htracks) hread hfit ?_ hreg
    rw [loopback_opened]
    decide
  · refine iff_of_false ?_ (not_and_or.mpr (hother.imp not_not.mpr not_not.mpr))
    apply not_invokes_of_type htracks (typeProtocol_unchecked hother) hread hfit
    intro hnil
    have hlen := XUsiCmd.length_wirePayload (fun h => hne (congrArg List.length h))
    rw [hnil] at hlen
    exact hne hlen.symm

end Receiver

/-- One byte of the user defined protocol. -/
def userDefinedCmd : XUsiCmd := ⟨-1, protocolUserDefined, [0xaa], by decide⟩

/-- It is sent with success, and dropped by a receiver that has a callback for it. -/
theorem user_defined_dropped :
    ¬ ∀ (msg : XUsiCmd) (sender sent : State) (ev : List Event), sender.usIdxIn = 0 →
      sender.txUsSize ≤ txauxSize → halUsiSendCmd .acceptAll sender msg = some (sent, .ok, ev) →
      ∀ (fd : ℤ) (behindRx behindTx : ℕ → UInt8) (pf : Serialization) (inp : Input),
        inp.read = some (written ev) →
        Invokes inp (opened fd behindRx behindTx [(msg.ucPType, some pf)])
          (usiProtId2idx msg.ucPType) := by
  intro h
  have hfit : userDefinedCmd.frame.length ≤ txauxSize := by decide +kernel
  obtain ⟨sent, hsend⟩ := @halUsiSendCmd_of_fits (opened 3 (fun _ => 0) (fun _ => 0) [])
    userDefinedCmd rfl le_rfl (by decide) (by decide) hfit
  refine not_invokes_of_type (tracks_opened 3 (fun _ => 0) (fun _ => 0) _)
    (typeProtocol_unchecked (.inl rfl)) rfl hfit (List.cons_ne_nil _ _)
    (h userDefinedCmd _ sent _ rfl le_rfl hsend 3 (fun _ => 0) (fun _ => 0) (fun _ => 0)
      ⟨some userDefinedCmd.frame, fun _ => 0, .acceptAll⟩ ?_)
  rw [written_write, written_nil, List.append_nil]

/-- A sniffer command comes through. -/
theorem usi_protocols_agree_sniffer :
    Invokes ⟨some snifferCmd.frame, fun _ => 0, .acceptAll⟩
      (opened 3 (fun _ => 0) (fun _ => 0) [(protocolSnifPrime, some fun _ => 0)]) 1 := by
  obtain ⟨sent, hsend⟩ := @halUsiSendCmd_of_fits (opened 3 (fun _ => 0) (fun _ => 0) [])
    snifferCmd rfl le_rfl (by decide) (by decide) sendable_snifferCmd.fits
  refine (@usi_protocols_agree_iff snifferCmd _ sent _ rfl le_rfl hsend 3 (fun _ => 0)
    (fun _ => 0) (fun _ => 0) ⟨some snifferCmd.frame, fun _ => 0, .acceptAll⟩ ?_).mpr ?_
  · rw [written_write, written_nil, List.append_nil]
  · constructor <;> decide

end Usi
