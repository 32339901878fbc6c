/-
# Where requests are sent

Embeds the other request functions of `ifacePrime_api.c`.  They all fill in the one command
`prime_api_msg` and hand it to `hal_usi_send_cmd`; a negative descriptor in it stands for
the serial port.  Three functions leave the descriptor as it is, and before any other
function has been called it is zero.  So the first request decides: after one that sets the
descriptor, all requests go to the serial port.

What `prime_cl_null_data_request` remembers for the confirm is not part of the command.
-/
import PlcManager.PrimeApiRequests
import PlcManager.Runs
import PlcManager.UsiOutcome

namespace PrimeApi

/-! ## The other serialisers -/

namespace Serial

variable (pucMsg : Pen)

/-- A command with nothing behind it. -/
def command (cmd : UInt8) : Pen := pucMsg.byte cmd

/-- A command and a word. -/
def commandWord (cmd : UInt8) (x : UInt16) : Pen := pucMsg |>.byte cmd |> word x

/-- A command and an address. -/
def commandEui48 (cmd : UInt8) (pucEui48 : List UInt8) : Pen :=
  pucMsg |>.byte cmd |> block pucEui48 lenIdEui48

/-- The four bytes of a number. -/
def dword (x : UInt32) (pucMsg : Pen) : Pen :=
  pucMsg |>.byte (x >>> 24).toUInt8 |>.byte ((x >>> 16) &&& 0xff).toUInt8
    |>.byte ((x >>> 8) &&& 0xff).toUInt8 |>.byte (x &&& 0xff).toUInt8

/-- `prime_cl_null_release_request`. -/
def primeClNullReleaseRequest : UInt16 → Pen := commandWord pucMsg 0x05

/-- `prime_cl_null_release_response`. -/
def primeClNullReleaseResponse (usConHandle : UInt16) (ucAnswer : UInt8) : Pen :=
  pucMsg |>.byte 0x08 |> word usConHandle |>.byte ucAnswer

/-- `prime_cl_null_join_response`; `none` is a null pointer. -/
def primeClNullJoinResponse (usConHandle : UInt16) (pucEui48 : Option (List UInt8))
    (ucAnswer : UInt8) : Pen :=
  pucMsg |>.byte 0x0b
    |> word usConHandle
    |> block (pucEui48.getD (List.replicate 6 0)) 6
    |>.byte ucAnswer

/-- `prime_cl_null_leave_request`. -/
def primeClNullLeaveRequest (usConHandle : UInt16) (pucEui48 : List UInt8) : Pen :=
  pucMsg |>.byte 0x0d |> word usConHandle |> block pucEui48 6

/-- `prime_cl_null_plme_reset_request`. -/
def primeClNullPlmeResetRequest : Pen := command pucMsg 0x13

/-- `prime_cl_null_plme_sleep_request`. -/
def primeClNullPlmeSleepRequest : Pen := command pucMsg 0x15

/-- `prime_cl_null_plme_resume_request`. -/
def primeClNullPlmeResumeRequest : Pen := command pucMsg 0x17

/-- `prime_cl_null_plme_testmode_request`. -/
def primeClNullPlmeTestmodeRequest (ucEnable ucMode ucModulation ucPwrLevel : UInt8) : Pen :=
  pucMsg |>.byte 0x19 |>.byte ucEnable |>.byte ucMode |>.byte ucModulation |>.byte ucPwrLevel

/-- `prime_cl_null_plme_get_request`. -/
def primeClNullPlmeGetRequest : UInt16 → Pen := commandWord pucMsg 0x1b

/-- `prime_cl_null_mlme_register_request`; `none` is a null pointer. -/
def primeClNullMlmeRegisterRequest (pucSna : Option (List UInt8)) (ucSid : UInt8) : Pen :=
  pucMsg |>.byte 0x1f
    |> block (pucSna.getD (List.replicate lenIdEui48 0xff)) lenIdEui48
    |>.byte ucSid

/-- `prime_cl_null_mlme_unregister_request`. -/
def primeClNullMlmeUnregisterRequest : Pen := command pucMsg 0x22

/-- `prime_cl_null_mlme_unregister_request_base`. -/
def primeClNullMlmeUnregisterRequestBase : List UInt8 → Pen := commandEui48 pucMsg 0x22

/-- `prime_cl_null_mlme_promote_request`. -/
def primeClNullMlmePromoteRequest : Pen := command pucMsg 0x25

/-- `prime_cl_null_mlme_demote_request`. -/
def primeClNullMlmeDemoteRequest : Pen := command pucMsg 0x28

/-- `prime_cl_null_mlme_reset_request`. -/
def primeClNullMlmeResetRequest : Pen := command pucMsg 0x2b

/-- `prime_cl_null_mlme_get_request`. -/
def primeClNullMlmeGetRequest : UInt16 → Pen := commandWord pucMsg 0x2d

/-- `prime_cl_null_mlme_list_get_request`. -/
def primeClNullMlmeListGetRequest : UInt16 → Pen := commandWord pucMsg 0x2f

/-- `prime_cl_432_release_request`. -/
def primeCl432ReleaseRequest : UInt16 → Pen := commandWord pucMsg 0x35

/-- `bmng_fup_clear_target_list_request`. -/
def bmngFupClearTargetListRequest : Pen := command pucMsg 0x3d

/-- `bmng_fup_add_target_request`. -/
def bmngFupAddTargetRequest : List UInt8 → Pen := commandEui48 pucMsg 0x3e

/-- `bmng_fup_set_upg_options_request`. -/
def bmngFupSetUpgOptionsRequest (ucArqEn ucPageSize ucMultEn : UInt8) (uiDelay uiTimer : UInt32) :
    Pen :=
  pucMsg |>.byte 0x40 |>.byte ucArqEn |>.byte ucPageSize |>.byte ucMultEn
    |> dword uiDelay
    |> dword uiTimer

/-- `bmng_fup_init_file_tx_request`. -/
def bmngFupInitFileTxRequest (usNumFrames : UInt16) (uiFileSize : UInt32) (usFrameSize : UInt16)
    (uiCrc : UInt32) : Pen :=
  pucMsg |>.byte 0x41
    |> word usNumFrames
    |> dword uiFileSize
    |> word usFrameSize
    |> dword uiCrc

/-- `bmng_fup_check_crc_request`. -/
def bmngFupCheckCrcRequest : Pen := command pucMsg 0x43

/-- `bmng_fup_abort_fu_request`. -/
def bmngFupAbortFuRequest : List UInt8 → Pen := commandEui48 pucMsg 0x44

/-- `bmng_fup_start_fu_request`. -/
def bmngFupStartFuRequest (ucEnable : UInt8) : Pen := pucMsg |>.byte 0x45 |>.byte ucEnable

/-- `bmng_fup_set_match_rule_request`. -/
def bmngFupSetMatchRuleRequest (ucRule : UInt8) : Pen := pucMsg |>.byte 0x46 |>.byte ucRule

/-- `bmng_fup_get_version_request`. -/
def bmngFupGetVersionRequest : List UInt8 → Pen := commandEui48 pucMsg 0x47

/-- `bmng_fup_get_state_request`. -/
def bmngFupGetStateRequest : List UInt8 → Pen := commandEui48 pucMsg 0x48

/-- `bmng_fup_signature_cfg_cmd`. -/
def bmngFupSignatureCfgCmd (ucSigAlgo : UInt8) (usSigLen : UInt16) : Pen :=
  pucMsg |>.byte 0x4e |>.byte ucSigAlgo |> word usSigLen

/-- `bmng_pprof_reset`. -/
def bmngPprofReset : List UInt8 → Pen := commandEui48 pucMsg 0x52

/-- `bmng_pprof_reboot`. -/
def bmngPprofReboot : List UInt8 → Pen := commandEui48 pucMsg 0x53

end Serial

/-! ## The requests -/

/-- A call of a request function; the primitives are those that send data with its length. -/
inductive ApiRequest where
  | primitive (p : Primitive) (a : p.Args)
  | clNullReleaseRequest (usConHandle : UInt16)
  | clNullReleaseResponse (usConHandle : UInt16) (ucAnswer : UInt8)
  | clNullJoinResponse (usConHandle : UInt16) (pucEui48 : Option (List UInt8)) (ucAnswer : UInt8)
  | clNullLeaveRequest (usConHandle : UInt16) (pucEui48 : List UInt8)
  | clNullPlmeResetRequest
  | clNullPlmeSleepRequest
  | clNullPlmeResumeRequest
  | clNullPlmeTestmodeRequest (ucEnable ucMode ucModulation ucPwrLevel : UInt8)
  | clNullPlmeGetRequest (usPibAttrib : UInt16)
  | clNullMlmeRegisterRequest (pucSna : Option (List UInt8)) (ucSid : UInt8)
  | clNullMlmeUnregisterRequest
  | clNullMlmeUnregisterRequestBase (pucEui48 : List UInt8)
  | clNullMlmePromoteRequest
  | clNullMlmeDemoteRequest
  | clNullMlmeResetRequest
  | clNullMlmeGetRequest (usPibAttrib : UInt16)
  | clNullMlmeListGetRequest (usPibAttrib : UInt16)
  | cl432ReleaseRequest (usDstAddress : UInt16)
  | fupClearTargetListRequest
  | fupAddTargetRequest (pucEui48 : List UInt8)
  | fupSetUpgOptionsRequest (ucArqEn ucPageSize ucMultEn : UInt8) (uiDelay uiTimer : UInt32)
  | fupInitFileTxRequest (usNumFrames : UInt16) (uiFileSize : UInt32) (usFrameSize : UInt16)
      (uiCrc : UInt32)
  | fupCheckCrcRequest
  | fupAbortFuRequest (pucEui48 : List UInt8)
  | fupStartFuRequest (ucEnable : UInt8)
  | fupSetMatchRuleRequest (ucRule : UInt8)
  | fupGetVersionRequest (pucEui48 : List UInt8)
  | fupGetStateRequest (pucEui48 : List UInt8)
  | fupSignatureCfgCmd (ucSigAlgo : UInt8) (usSigLen : UInt16)
  | pprofReset (pucEui48 : List UInt8)
  | pprofReboot (pucEui48 : List UInt8)

/-- `uc_serial_buf`, and `prime_api_msg._fd`. -/
structure Port where
  ucSerialBuf : Mem UInt8
  fd : ℤ

/-- The parameters are inserted, and `prime_api_msg` is sent with the descriptor set. -/
def send (write : Pen → Pen) (s : Port) : Port × Usi.XUsiCmd :=
  let pucMsg := write (.start s.ucSerialBuf)
  (⟨pucMsg.mem, -1⟩, primeApiMsg pucMsg)

/-- The parameters are inserted, and `prime_api_msg` is sent with the descriptor it has. -/
def sendAsIs (write : Pen → Pen) (s : Port) : Port × Usi.XUsiCmd :=
  let pucMsg := write (.start s.ucSerialBuf)
  (⟨pucMsg.mem, s.fd⟩, { primeApiMsg pucMsg with fd := s.fd })

open Serial in
/-- What a request function does, and what it hands to `hal_usi_send_cmd`. -/
def ApiRequest.run : ApiRequest → Port → Port × Usi.XUsiCmd
  | primitive p a => send fun pucMsg => p.write pucMsg a
  | clNullReleaseRequest usConHandle => send (primeClNullReleaseRequest · usConHandle)
  | clNullReleaseResponse usConHandle ucAnswer =>
      send (primeClNullReleaseResponse · usConHandle ucAnswer)
  | clNullJoinResponse usConHandle pucEui48 ucAnswer =>
      send (primeClNullJoinResponse · usConHandle pucEui48 ucAnswer)
  | clNullLeaveRequest usConHandle pucEui48 =>
      send (primeClNullLeaveRequest · usConHandle pucEui48)
  -- the descriptor is not set
  | clNullPlmeResetRequest => sendAsIs primeClNullPlmeResetRequest
  | clNullPlmeSleepRequest => send primeClNullPlmeSleepRequest
  -- the descriptor is not set
  | clNullPlmeResumeRequest => sendAsIs primeClNullPlmeResumeRequest
  | clNullPlmeTestmodeRequest ucEnable ucMode ucModulation ucPwrLevel =>
      send (primeClNullPlmeTestmodeRequest · ucEnable ucMode ucModulation ucPwrLevel)
  | clNullPlmeGetRequest usPibAttrib => send (primeClNullPlmeGetRequest · usPibAttrib)
  | clNullMlmeRegisterRequest pucSna ucSid =>
      send (primeClNullMlmeRegisterRequest · pucSna ucSid)
  | clNullMlmeUnregisterRequest => send primeClNullMlmeUnregisterRequest
  | clNullMlmeUnregisterRequestBase pucEui48 =>
      send (primeClNullMlmeUnregisterRequestBase · pucEui48)
  | clNullMlmePromoteRequest => send primeClNullMlmePromoteRequest
  | clNullMlmeDemoteRequest => send primeClNullMlmeDemoteRequest
  | clNullMlmeResetRequest => send primeClNullMlmeResetRequest
  | clNullMlmeGetRequest usPibAttrib => send (primeClNullMlmeGetRequest · usPibAttrib)
  | clNullMlmeListGetRequest usPibAttrib => send (primeClNullMlmeListGetRequest · usPibAttrib)
  | cl432ReleaseRequest usDstAddress => send (primeCl432ReleaseRequest · usDstAddress)
  | fupClearTargetListRequest => send bmngFupClearTargetListRequest
  -- the descriptor is not set
  | fupAddTargetRequest pucEui48 => sendAsIs (bmngFupAddTargetRequest · pucEui48)
  | fupSetUpgOptionsRequest ucArqEn ucPageSize ucMultEn uiDelay uiTimer =>
      send (bmngFupSetUpgOptionsRequest · ucArqEn ucPageSize ucMultEn uiDelay uiTimer)
  | fupInitFileTxRequest usNumFrames uiFileSize usFrameSize uiCrc =>
      send (bmngFupInitFileTxRequest · usNumFrames uiFileSize usFrameSize uiCrc)
  | fupCheckCrcRequest => send bmngFupCheckCrcRequest
  | fupAbortFuRequest pucEui48 => send (bmngFupAbortFuRequest · pucEui48)
  | fupStartFuRequest ucEnable => send (bmngFupStartFuRequest · ucEnable)
  | fupSetMatchRuleRequest ucRule => send (bmngFupSetMatchRuleRequest · ucRule)
  | fupGetVersionRequest pucEui48 => send (bmngFupGetVersionRequest · pucEui48)
  | fupGetStateRequest pucEui48 => send (bmngFupGetStateRequest · pucEui48)
  | fupSignatureCfgCmd ucSigAlgo usSigLen => send (bmngFupSignatureCfgCmd · ucSigAlgo usSigLen)
  | pprofReset pucEui48 => send (bmngPprofReset · pucEui48)
  | pprofReboot pucEui48 => send (bmngPprofReboot · pucEui48)

/-- The three functions that leave the descriptor as it is. -/
def ApiRequest.LeavesFd : ApiRequest → Prop
  | clNullPlmeResetRequest | clNullPlmeResumeRequest | fupAddTargetRequest _ => True
  | _ => False

/-- Program start and `ifacePrime_api_init`, which sets neither of the two, with anything
in the memory behind the buffer. -/
def Port.started (behind : ℕ → UInt8) : Port where
  ucSerialBuf := Mem.init fun i => if i < maxLength432Data then 0 else behind i
  fd := 0

/-- One request after the other. -/
def stepPort (r : ApiRequest) (s : Port) : Option Port := some (r.run s).1

/-- A command is for the serial port: its descriptor is negative, and however its sending
ends, nothing is written but to the descriptor of the port. -/
def ForSerialPort (msg : Usi.XUsiCmd) : Prop :=
  msg.fd < 0 ∧ ∀ (w : Usi.Writes) (u u' : Usi.State) (st : Usi.Status) (ev : List Usi.Event),
    Usi.halUsiSendCmd w u msg = some (u', st, ev) → ∀ e ∈ ev, ∃ bytes, e = .write u.portFd bytes

/-- What a request hands over is for the serial port. -/
def SentToPort (r : ApiRequest) (s : Port) : Prop := ForSerialPort (r.run s).2

section Port

variable {r : ApiRequest} {rs : List ApiRequest} {s : Port} {msg : Usi.XUsiCmd}

/-- The writes of a command with a negative descriptor go to the serial port. -/
theorem forSerialPort_iff : ForSerialPort msg ↔ msg.fd < 0 := by
  constructor
  · exact fun h => h.1
  · intro hfd
    refine ⟨hfd, fun w u u' st ev hsend e he => ?_⟩
    obtain ⟨-, -, hwrites⟩ := Usi.halUsiSendCmd_outcome hsend
    obtain ⟨bytes, rfl⟩ := hwrites e he
    refine ⟨bytes, ?_⟩
    unfold Usi.fdWr
    rw [if_pos hfd]

/-- **One request.**  It sends the descriptor that it leaves, and sets it, but for three. -/
theorem ApiRequest.run_fd (r : ApiRequest) (s : Port) :
    (r.run s).2.fd = (r.run s).1.fd
      ∧ (r.LeavesFd ∧ (r.run s).1.fd = s.fd ∨ ¬ r.LeavesFd ∧ (r.run s).1.fd = -1) := by
  cases r with
  | clNullPlmeResetRequest => exact ⟨rfl, Or.inl ⟨trivial, rfl⟩⟩
  | clNullPlmeResumeRequest => exact ⟨rfl, Or.inl ⟨trivial, rfl⟩⟩
  | fupAddTargetRequest => exact ⟨rfl, Or.inl ⟨trivial, rfl⟩⟩
  | _ => exact ⟨rfl, Or.inr ⟨id, rfl⟩⟩

/-- Once the descriptor is negative, it stays so. -/
theorem ApiRequest.run_fd_neg (r : ApiRequest) (hfd : s.fd < 0) : (r.run s).1.fd < 0 := by
  rcases (r.run_fd s).2 with ⟨-, hkept⟩ | ⟨-, hset⟩
  · rwa [hkept]
  · rw [hset]
    decide

/-- A command is for the serial port if the descriptor that the request leaves is negative. -/
theorem sentToPort_of_run_fd (hfd : (r.run s).1.fd < 0) : SentToPort r s := by
  apply forSerialPort_iff.mpr
  rwa [(r.run_fd s).1]

theorem sentToPort_of_neg (hfd : s.fd < 0) (rs : List ApiRequest) :
    AlongSteps stepPort SentToPort rs s := by
  have htrue : AlongSteps stepPort (fun _ _ => True) rs s :=
    alongSteps_of_forall fun _ _ => trivial
  apply alongSteps_of_invariant (I := fun t => t.fd < 0) htrue ?_ hfd
  intro r t hneg _
  have hnext := r.run_fd_neg hneg
  refine ⟨sentToPort_of_run_fd hnext, fun s' hs' => ?_⟩
  rwa [← Option.some.inj hs']

/-- **Where requests are sent.**  In every sequence of requests after the start, all go to
the serial port, exactly if the first one sets the descriptor. -/
theorem prime_requests_to_port_iff (behind : ℕ → UInt8) (rs : List ApiRequest) :
    AlongSteps stepPort SentToPort rs (.started behind) ↔ ∀ r ∈ rs.head?, ¬ r.LeavesFd := by
  cases rs with
  | nil => exact iff_of_true trivial fun r hr => by cases hr
  | cons r rs =>
      obtain ⟨hsent, hset⟩ := r.run_fd (.started behind)
      constructor
      · rintro ⟨hfirst, -⟩ q hq hleaves
        obtain rfl : r = q := Option.some.inj hq
        have hneg := forSerialPort_iff.mp hfirst
        rcases hset with ⟨-, hkept⟩ | ⟨hnot, -⟩
        · rw [hsent, hkept] at hneg
          exact absurd hneg (lt_irrefl (0 : ℤ))
        · exact hnot hleaves
      · intro hfirst
        rcases hset with ⟨hleaves, -⟩ | ⟨-, hfd⟩
        · exact absurd hleaves (hfirst r rfl)
        · have hneg : (r.run (.started behind)).1.fd < 0 := by
            rw [hfd]
            decide
          exact (alongSteps_cons rfl).mpr ⟨sentToPort_of_run_fd hneg, sentToPort_of_neg hneg rs⟩

end Port

/-- A reset of the physical layer as the first request is written to descriptor 0. -/
theorem prime_reset_to_stdin :
    ¬ ∀ (behind : ℕ → UInt8) (rs : List ApiRequest),
      AlongSteps stepPort SentToPort rs (.started behind) := by
  intro hclaim
  have hport := (hclaim (fun _ => 0) [.clNullPlmeResetRequest]).1
  exact absurd hport.1 (by decide)

end PrimeApi
