/-
# The command of a request

Every request function of `ifacePrime_api.c` writes the command first, and never goes back
over it.  So the first byte of what is sent tells the functions apart, all but the two
functions that unregister, whatever their arguments are, the ones that are too long for
`uc_serial_buf` included.
-/
import PlcManager.PrimeApiPort

namespace PrimeApi

namespace Serial

variable {p : Pen} {bs xs : List UInt8} {n : ℕ}

theorem begins_word (h : p.Begins bs) (x : UInt16) : (word x p).Begins bs := h.byte.byte

theorem begins_block (h : p.Begins bs) : (block xs n p).Begins bs := h.memcpy.advance

theorem begins_dword (h : p.Begins bs) (x : UInt32) : (dword x p).Begins bs :=
  h.byte.byte.byte.byte

/-- Where every request begins. -/
theorem begins_cmd (buf : Mem UInt8) (cmd : UInt8) : ((Pen.start buf).byte cmd).Begins [cmd] := by
  have h := ((Pen.start buf).byte cmd).begins_text
  rwa [Pen.text_byte, Pen.text_start, List.nil_append] at h

end Serial

open Serial

theorem Primitive.begins_write (p : Primitive) (a : p.Args) (buf : Mem UInt8) :
    (p.write (.start buf) a).Begins [p.cmd] := by
  have h := begins_cmd buf
  cases p with
  | clNullEstablishRequest =>
      exact (begins_block (begins_word (begins_block (h _)).byte _)).byte.byte
  | clNullEstablishResponse => exact begins_block (begins_word (begins_word (h _) _).byte _)
  | clNullRedirectResponse =>
      exact begins_block (begins_word (begins_block (begins_word (h _) _)) _)
  | clNullJoinRequest =>
      exact begins_block (begins_word (begins_block (begins_word (h _).byte _)).byte _)
  | clNullDataRequest => exact (begins_block (begins_word (begins_word (h _) _) _)).byte
  | clNullPlmeSetRequest => exact begins_block (begins_word (h _) _).byte
  | clNullMlmeSetRequest => exact begins_block (begins_word (h _) _).byte
  | cl432EstablishRequest => exact begins_block (h _).byte
  | cl432DlDataRequest => exact (begins_block (begins_word (begins_word (h _).byte.byte _) _)).byte
  | fupSetFwDataRequest =>
      exact begins_block (begins_block (begins_block (h _).byte).byte).byte
  | fupDataFrameRequest => exact begins_block (begins_word (begins_word (h _) _) _)
  | pprofGetRequest => exact (begins_word (begins_block (h _)).byte.byte _).byte
  | pprofSetRequest => exact (begins_word (begins_block (h _)).byte.byte _).byte.byte.byte.byte
  | pprofGetEnhanced => exact (begins_word (begins_block (h _)).byte.byte.byte _).byte.memcpy

/-- The command in `prime_api_cmd_t`. -/
def ApiRequest.cmd : ApiRequest → UInt8
  | primitive p _ => p.cmd
  | clNullReleaseRequest _ => 0x05
  | clNullReleaseResponse .. => 0x08
  | clNullJoinResponse .. => 0x0b
  | clNullLeaveRequest .. => 0x0d
  | clNullPlmeResetRequest => 0x13
  | clNullPlmeSleepRequest => 0x15
  | clNullPlmeResumeRequest => 0x17
  | clNullPlmeTestmodeRequest .. => 0x19
  | clNullPlmeGetRequest _ => 0x1b
  | clNullMlmeRegisterRequest .. => 0x1f
  | clNullMlmeUnregisterRequest => 0x22
  | clNullMlmeUnregisterRequestBase _ => 0x22
  | clNullMlmePromoteRequest => 0x25
  | clNullMlmeDemoteRequest => 0x28
  | clNullMlmeResetRequest => 0x2b
  | clNullMlmeGetRequest _ => 0x2d
  | clNullMlmeListGetRequest _ => 0x2f
  | cl432ReleaseRequest _ => 0x35
  | fupClearTargetListRequest => 0x3d
  | fupAddTargetRequest _ => 0x3e
  | fupSetUpgOptionsRequest .. => 0x40
  | fupInitFileTxRequest .. => 0x41
  | fupCheckCrcRequest => 0x43
  | fupAbortFuRequest _ => 0x44
  | fupStartFuRequest _ => 0x45
  | fupSetMatchRuleRequest _ => 0x46
  | fupGetVersionRequest _ => 0x47
  | fupGetStateRequest _ => 0x48
  | fupSignatureCfgCmd .. => 0x4e
  | pprofReset _ => 0x52
  | pprofReboot _ => 0x53

/-- **The command comes first.**  What a request hands over begins with its command, unless the
length of it has become zero. -/
theorem ApiRequest.take_run (r : ApiRequest) (s : Port) :
    (r.run s).2.pucBuf.take 1 = [r.cmd].take (r.run s).2.pucBuf.length := by
  have h := begins_cmd s.ucSerialBuf
  have hpen : ∃ p : Pen, p.Begins [r.cmd]
      ∧ (r.run s).2.pucBuf = p.mem.slice 0 (UInt16.ofNat p.pos).toNat := by
    cases r with
    | primitive p a => exact ⟨_, p.begins_write a _, rfl⟩
    | clNullReleaseRequest => exact ⟨_, begins_word (h _) _, rfl⟩
    | clNullReleaseResponse => exact ⟨_, (begins_word (h _) _).byte, rfl⟩
    | clNullJoinResponse => exact ⟨_, (begins_block (begins_word (h _) _)).byte, rfl⟩
    | clNullLeaveRequest => exact ⟨_, begins_block (begins_word (h _) _), rfl⟩
    | clNullPlmeTestmodeRequest => exact ⟨_, (h _).byte.byte.byte.byte, rfl⟩
    | clNullPlmeGetRequest => exact ⟨_, begins_word (h _) _, rfl⟩
    | clNullMlmeRegisterRequest => exact ⟨_, (begins_block (h _)).byte, rfl⟩
    | clNullMlmeUnregisterRequestBase => exact ⟨_, begins_block (h _), rfl⟩
    | clNullMlmeGetRequest => exact ⟨_, begins_word (h _) _, rfl⟩
    | clNullMlmeListGetRequest => exact ⟨_, begins_word (h _) _, rfl⟩
    | cl432ReleaseRequest => exact ⟨_, begins_word (h _) _, rfl⟩
    | fupAddTargetRequest => exact ⟨_, begins_block (h _), rfl⟩
    | fupSetUpgOptionsRequest =>
        exact ⟨_, begins_dword (begins_dword (h _).byte.byte.byte _) _, rfl⟩
    | fupInitFileTxRequest =>
        exact ⟨_, begins_dword (begins_word (begins_dword (begins_word (h _) _) _) _) _, rfl⟩
    | fupAbortFuRequest => exact ⟨_, begins_block (h _), rfl⟩
    | fupStartFuRequest => exact ⟨_, (h _).byte, rfl⟩
    | fupSetMatchRuleRequest => exact ⟨_, (h _).byte, rfl⟩
    | fupGetVersionRequest => exact ⟨_, begins_block (h _), rfl⟩
    | fupGetStateRequest => exact ⟨_, begins_block (h _), rfl⟩
    | fupSignatureCfgCmd => exact ⟨_, begins_word (h _).byte _, rfl⟩
    | pprofReset => exact ⟨_, begins_block (h _), rfl⟩
    | pprofReboot => exact ⟨_, begins_block (h _), rfl⟩
    -- the command is all there is
    | _ => exact ⟨_, h _, rfl⟩
  obtain ⟨p, hbegins, hbuf⟩ := hpen
  rw [hbuf, Mem.length_slice]
  exact hbegins.take_slice

end PrimeApi
