/-
# The file with the PRIME info

The file is written when a confirm for the product id has come, whoever has asked for it,
with what the last confirm of each attribute has left in the record.  The MAC address and
the firmware version are left there as they were confirmed; an id is put together from its
first byte alone.  So the file is right when the four attributes have been confirmed, and
the ids happen to be such that this does not matter.
-/
import PlcManager.Cli
import PlcManager.Runs

namespace Cli

/-! ## Confirmed values -/

/-- The confirms that have brought a value, the last one at the end. -/
abbrev Confirms := List (UInt16 × List UInt8)

/-- The values of one attribute. -/
def values (log : Confirms) (usPibAttrib : UInt16) : List (List UInt8) :=
  (log.filter fun p => p.1 = usPibAttrib).map Prod.snd

/-- The number that a value of two bytes is. -/
def bigEndian : List UInt8 → Option UInt16
  | [hi, lo] => some (word hi lo)
  | _ => none

/-- The file holds values that have been confirmed. -/
def KnownFile (log : Confirms) : Output → Prop
  | .xmlRepPrimeInfo usVendorId usProductId fwVersion macAddr =>
      macAddr ∈ values log pibMacEui48
        ∧ (∃ v ∈ values log pibMacAppFwVersion, v ++ [0] <+: fwVersion)
        ∧ (∃ v ∈ values log pibMacAppVendorId, bigEndian v = some usVendorId)
        ∧ ∃ v ∈ values log pibMacAppProductId, bigEndian v = some usProductId
  | _ => True

/-- The value that a value with first byte `b` is taken for. -/
def takenFor (b : UInt8) : List UInt8 := if b = 255 then [0, 0] else [b, b + 1]

/-- The last value is taken for one that has been confirmed. -/
def IdReady (vs : List (List UInt8)) : Prop :=
  ∃ v, vs.getLast? = some v ∧ takenFor (v.headD 0) ∈ vs

section Values

variable {log : Confirms} {a b : UInt16} {u v : List UInt8} {hi lo c : UInt8}

theorem values_append : values (log ++ [(a, v)]) b
    = if a = b then values log b ++ [v] else values log b := by
  unfold values
  rw [List.filter_append, List.map_append]
  by_cases h : a = b
  · rw [if_pos h, List.filter_cons, if_pos (by simpa using h)]
    rfl
  · rw [if_neg h, List.filter_cons, if_neg (by simpa using h)]
    exact List.append_nil _

theorem toNat_word : (word hi lo).toNat = hi.toNat * 256 + lo.toNat := by
  have h1 := hi.toNat_lt
  have h2 := lo.toNat_lt
  unfold word
  rw [UInt16.toNat_add, UInt16.toNat_shiftLeft]
  simp [Nat.shiftLeft_eq]
  omega

theorem toNat_idOf : (idOf v).toNat = ((v.headD 0).toNat * 257 + 1) % 65536 := by
  have h1 := (v.headD 0).toNat_lt
  unfold idOf
  rw [UInt16.toNat_add, UInt16.toNat_add, UInt16.toNat_shiftLeft]
  simp [Nat.shiftLeft_eq]
  omega

/-- Two bytes are the id that the callback makes of a value with first byte `c`. -/
theorem word_eq_iff : hi.toNat * 256 + lo.toNat = (c.toNat * 257 + 1) % 65536
    ↔ [hi, lo] = takenFor c := by
  have hhi := hi.toNat_lt
  have hlo := lo.toNat_lt
  have hc := c.toNat_lt
  unfold takenFor
  by_cases hmax : c = 255
  · have h255 : c.toNat = 255 := congrArg UInt8.toNat hmax
    rw [if_pos hmax, List.cons.injEq, List.cons.injEq, ← UInt8.toNat_inj, ← UInt8.toNat_inj]
    simp only [UInt8.toNat_zero, and_true]
    omega
  · have hne : c.toNat ≠ 255 := fun h => hmax (UInt8.toNat_inj.mp h)
    have hsucc : (c + 1).toNat = c.toNat + 1 := by
      rw [UInt8.toNat_add, UInt8.toNat_one]
      omega
    have hsmall : (c.toNat * 257 + 1) % 65536 = c.toNat * 257 + 1 :=
      Nat.mod_eq_of_lt (by omega)
    rw [if_neg hmax, List.cons.injEq, List.cons.injEq, ← UInt8.toNat_inj, ← UInt8.toNat_inj,
      hsucc, hsmall]
    simp only [and_true]
    omega

/-- What the callback makes of a value is what the value `takenFor` is. -/
theorem bigEndian_eq_iff : bigEndian u = some (idOf v) ↔ u = takenFor (v.headD 0) := by
  have hlen : (takenFor (v.headD 0)).length = 2 := by
    unfold takenFor
    split_ifs <;> rfl
  rcases u with _ | ⟨hi, _ | ⟨lo, _ | ⟨x, u⟩⟩⟩
  · apply iff_of_false (fun h => by cases h)
    intro h
    rw [← h] at hlen
    cases hlen
  · apply iff_of_false (fun h => by cases h)
    intro h
    rw [← h] at hlen
    cases hlen
  · rw [← word_eq_iff, ← toNat_word, ← toNat_idOf, UInt16.toNat_inj]
    exact Option.some_inj
  · apply iff_of_false (fun h => by cases h)
    intro h
    rw [← h] at hlen
    simp at hlen

end Values

/-! ## Events -/

/-- What happens to the CLI: `cli_process` is called, with the command that the file
`message.txt` begins with; a confirm comes; a client sends bytes. -/
inductive CliEvent where
  | process (message : Option UInt8)
  | mlmeGetCfm (xStatus : UInt8) (usPibAttrib : UInt16) (pvPibValue : List UInt8)
  | data (fd : ℤ) (bytes : List UInt8)
  deriving DecidableEq, Repr

namespace CliEvent

def run : CliEvent → State → State × List Output
  | .process message, s => cliProcess message s
  | .mlmeGetCfm xStatus usPibAttrib pvPibValue, s =>
      primeClNullMlmeGetCfmCb xStatus usPibAttrib pvPibValue s
  | .data fd bytes, s => cliCallback fd bytes s

/-- The value that an event confirms. -/
def confirmed : CliEvent → Confirms
  | .process _ => []
  | .mlmeGetCfm _ usPibAttrib pvPibValue =>
      if pvPibValue.length = 0 then [] else [(usPibAttrib, pvPibValue)]
  | .data _ _ => []

/-- A value has the size of its attribute, or there is none: six bytes, a text that leaves
room for its end, two bytes.  What is read fits the buffer. -/
def RightSize : CliEvent → Prop
  | .process _ => True
  | .mlmeGetCfm _ usPibAttrib pvPibValue => pvPibValue.length < 256 ∧ (pvPibValue.length ≠ 0 →
      (usPibAttrib = pibMacEui48 → pvPibValue.length = 6)
        ∧ (usPibAttrib = pibMacAppFwVersion → pvPibValue.length < 32)
        ∧ (usPibAttrib = pibMacAppVendorId → pvPibValue.length = 2)
        ∧ (usPibAttrib = pibMacAppProductId → pvPibValue.length = 2))
  | .data _ bytes => bytes ≠ [] ∧ bytes.length ≤ 1000

end CliEvent

/-- One event, and the confirms so far. -/
def cliStep (e : CliEvent) (x : State × Confirms) : Option (State × Confirms) :=
  some ((e.run x.1).1, x.2 ++ e.confirmed)

/-- If the file is written, it holds values that have been confirmed. -/
def FileKnown (e : CliEvent) (x : State × Confirms) : Prop :=
  ∀ out ∈ (e.run x.1).2, KnownFile x.2 out

/-- If the file is to be written, the four attributes have been confirmed, and the ids are
taken for values that have been confirmed. -/
def FileReady (e : CliEvent) (x : State × Confirms) : Prop :=
  match e with
  | .process _ => x.1.sucInfoStatus = .createFile →
      values x.2 pibMacEui48 ≠ [] ∧ values x.2 pibMacAppFwVersion ≠ []
        ∧ IdReady (values x.2 pibMacAppVendorId) ∧ IdReady (values x.2 pibMacAppProductId)
  | _ => True

/-- The record holds what was confirmed last. -/
structure Records (x : State × Confirms) : Prop where
  mac : ∀ v, (values x.2 pibMacEui48).getLast? = some v → x.1.sxPrimeInfo.macAddr = v
  fwv : ∀ v, (values x.2 pibMacAppFwVersion).getLast? = some v →
    v ++ [0] <+: x.1.sxPrimeInfo.fwVersion
  vid : ∀ v, (values x.2 pibMacAppVendorId).getLast? = some v →
    x.1.sxPrimeInfo.usVendorId = idOf v
  pid : ∀ v, (values x.2 pibMacAppProductId).getLast? = some v →
    x.1.sxPrimeInfo.usProductId = idOf v

section Events

variable {s : State} {x : State × Confirms} {e : CliEvent} {message : Option UInt8}
  {xStatus : UInt8} {a : UInt16} {v : List UInt8} {fd : ℤ} {out : Output}

/-! ### The record -/

theorem macAddr_storePib (heui : a = pibMacEui48 → v.length = 6)
    (hfwv : a = pibMacAppFwVersion → v.length < 32) :
    (storePib a v s).sxPrimeInfo.macAddr
      = if a = pibMacEui48 then v else s.sxPrimeInfo.macAddr := by
  unfold storePib XCliPrimeInfo.macAddr
  dsimp only
  split_ifs with h1 h2 h3 h4
  · dsimp only
    rw [← heui h1]
    exact Mem.slice_storeList
  · have hlen := hfwv h2
    dsimp only
    rw [Mem.slice_store_of_disjoint (by omega), Mem.slice_storeList_of_disjoint (by omega)]
  · rfl
  · rfl
  · rfl

theorem fwVersion_storePib_of_ne (ha : a ≠ pibMacAppFwVersion) :
    (storePib a v s).sxPrimeInfo.fwVersion = s.sxPrimeInfo.fwVersion := by
  unfold storePib XCliPrimeInfo.fwVersion
  dsimp only
  split_ifs with h1 h2 h3
  · exact Mem.slice_storeList_of_disjoint (by omega)
  · rfl
  · rfl
  · rfl

/-- The version and its end stand at the start of the field. -/
theorem fwVersion_storePib (hlen : v.length < 32) :
    v ++ [0] <+: (storePib pibMacAppFwVersion v s).sxPrimeInfo.fwVersion := by
  have hne : pibMacAppFwVersion ≠ pibMacEui48 := by decide
  have hstart : ((s.sxPrimeInfo.bytes.storeList 0 v).store v.length 0).slice 0 (v.length + 1)
      = v ++ [0] := by
    have hslice : (s.sxPrimeInfo.bytes.storeList 0 v).slice 0 v.length = v := Mem.slice_storeList
    have hend : ((s.sxPrimeInfo.bytes.storeList 0 v).storeList (0 + v.length) [0]).slice 0
        (v.length + 1) = v ++ [0] := Mem.slice_storeList_append hslice
    rwa [Nat.zero_add] at hend
  unfold storePib XCliPrimeInfo.fwVersion
  rw [if_neg hne, if_pos rfl]
  dsimp only
  rw [show 32 = v.length + 1 + (31 - v.length) by omega, Mem.slice_add, hstart]
  exact List.prefix_append _ _

theorem usVendorId_storePib : (storePib a v s).sxPrimeInfo.usVendorId
    = if a = pibMacAppVendorId then idOf v else s.sxPrimeInfo.usVendorId := by
  by_cases ha : a = pibMacAppVendorId
  · subst ha
    have h1 : pibMacAppVendorId ≠ pibMacEui48 := by decide
    have h2 : pibMacAppVendorId ≠ pibMacAppFwVersion := by decide
    unfold storePib
    rw [if_neg h1, if_neg h2, if_pos rfl, if_pos rfl]
  · rw [if_neg ha]
    unfold storePib
    dsimp only
    split_ifs <;> rfl

theorem usProductId_storePib : (storePib a v s).sxPrimeInfo.usProductId
    = if a = pibMacAppProductId then idOf v else s.sxPrimeInfo.usProductId := by
  by_cases ha : a = pibMacAppProductId
  · subst ha
    have h1 : pibMacAppProductId ≠ pibMacEui48 := by decide
    have h2 : pibMacAppProductId ≠ pibMacAppFwVersion := by decide
    have h3 : pibMacAppProductId ≠ pibMacAppVendorId := by decide
    unfold storePib
    rw [if_neg h1, if_neg h2, if_neg h3, if_pos rfl, if_pos rfl]
  · rw [if_neg ha]
    unfold storePib
    dsimp only
    split_ifs <;> rfl

/-- A confirm without a value does nothing; any other is stored. -/
theorem sxPrimeInfo_getCfm : (primeClNullMlmeGetCfmCb xStatus a v s).1.sxPrimeInfo
    = if v.length = 0 then s.sxPrimeInfo else (storePib a v s).sxPrimeInfo := by
  unfold primeClNullMlmeGetCfmCb
  dsimp only
  split_ifs <;> rfl

theorem sxPrimeInfo_process : (cliProcess message s).1.sxPrimeInfo = s.sxPrimeInfo := by
  have hmessage (t : State) : (cliProcessMessage message t).1.sxPrimeInfo = t.sxPrimeInfo := by
    unfold cliProcessMessage
    split_ifs <;> rfl
  unfold cliProcess
  dsimp only
  rw [hmessage]
  unfold cliProcessInfo
  cases s.sucInfoStatus <;> rfl

theorem sxPrimeInfo_callback : (cliCallback fd v s).1.sxPrimeInfo = s.sxPrimeInfo := by
  unfold cliCallback cliRcvCmd
  dsimp only
  split_ifs <;> rfl

/-! ### The invariant -/

/-- A last value that is new, or the one from before. -/
theorem getLast?_values {b : UInt16} {u : List UInt8}
    (h : (values (x.2 ++ [(a, v)]) b).getLast? = some u) :
    a = b ∧ u = v ∨ a ≠ b ∧ (values x.2 b).getLast? = some u := by
  rw [values_append] at h
  split_ifs at h with hab
  · rw [List.getLast?_concat] at h
    exact .inl ⟨hab, (Option.some.inj h).symm⟩
  · exact .inr ⟨hab, h⟩

/-- A confirm is recorded. -/
theorem Records.getCfm (h : Records x) (hlen : v.length ≠ 0)
    (hsize : (CliEvent.mlmeGetCfm xStatus a v).RightSize) :
    Records ((primeClNullMlmeGetCfmCb xStatus a v x.1).1, x.2 ++ [(a, v)]) := by
  obtain ⟨heui, hfwv, -, -⟩ := hsize.2 hlen
  have hinfo := @sxPrimeInfo_getCfm x.1 xStatus a v
  rw [if_neg hlen] at hinfo
  constructor
  · intro u hu
    dsimp only
    rw [hinfo, macAddr_storePib heui hfwv]
    rcases getLast?_values hu with ⟨rfl, rfl⟩ | ⟨hne, hold⟩
    · rw [if_pos rfl]
    · rw [if_neg hne]
      exact h.mac u hold
  · intro u hu
    dsimp only
    rw [hinfo]
    rcases getLast?_values hu with ⟨rfl, rfl⟩ | ⟨hne, hold⟩
    · exact fwVersion_storePib (hfwv rfl)
    · rw [fwVersion_storePib_of_ne hne]
      exact h.fwv u hold
  · intro u hu
    dsimp only
    rw [hinfo, usVendorId_storePib]
    rcases getLast?_values hu with ⟨rfl, rfl⟩ | ⟨hne, hold⟩
    · rw [if_pos rfl]
    · rw [if_neg hne]
      exact h.vid u hold
  · intro u hu
    dsimp only
    rw [hinfo, usProductId_storePib]
    rcases getLast?_values hu with ⟨rfl, rfl⟩ | ⟨hne, hold⟩
    · rw [if_pos rfl]
    · rw [if_neg hne]
      exact h.pid u hold

/-- Nothing is confirmed and nothing is recorded. -/
theorem Records.congr (h : Records x) (hinfo : s.sxPrimeInfo = x.1.sxPrimeInfo) :
    Records (s, x.2) := by
  constructor
  · intro u hu
    dsimp only
    rw [hinfo]
    exact h.mac u hu
  · intro u hu
    dsimp only
    rw [hinfo]
    exact h.fwv u hu
  · intro u hu
    dsimp only
    rw [hinfo]
    exact h.vid u hu
  · intro u hu
    dsimp only
    rw [hinfo]
    exact h.pid u hu

/-- **One event.** -/
theorem Records.step (h : Records x) (hsize : e.RightSize) :
    Records ((e.run x.1).1, x.2 ++ e.confirmed) := by
  cases e with
  | process message =>
      rw [CliEvent.confirmed, List.append_nil]
      exact h.congr sxPrimeInfo_process
  | data fd bytes =>
      rw [CliEvent.confirmed, List.append_nil]
      exact h.congr sxPrimeInfo_callback
  | mlmeGetCfm xStatus a v =>
      by_cases hlen : v.length = 0
      · rw [CliEvent.confirmed, if_pos hlen, List.append_nil]
        apply h.congr
        rw [CliEvent.run, sxPrimeInfo_getCfm, if_pos hlen]
      · rw [CliEvent.confirmed, if_neg hlen]
        exact h.getCfm hlen hsize

/-! ### The file -/

/-- A value of an attribute that has one. -/
theorem exists_getLast? {vs : List (List UInt8)} (h : vs ≠ []) :
    ∃ v ∈ vs, vs.getLast? = some v :=
  ⟨vs.getLast h, List.getLast_mem h, List.getLast?_eq_some_getLast h⟩

/-- The id in the record is one that has been confirmed. -/
theorem id_known_iff {vs : List (List UInt8)} {id : UInt16}
    (h : ∀ v, vs.getLast? = some v → id = idOf v) :
    (∃ u ∈ vs, bigEndian u = some id) ↔ IdReady vs := by
  constructor
  · rintro ⟨u, hu, hid⟩
    obtain ⟨v, -, hlast⟩ := exists_getLast? (List.ne_nil_of_mem hu)
    rw [h v hlast, bigEndian_eq_iff] at hid
    exact ⟨v, hlast, hid ▸ hu⟩
  · rintro ⟨v, hlast, hmem⟩
    refine ⟨_, hmem, ?_⟩
    rw [h v hlast, bigEndian_eq_iff]

/-- The file that would be written now. -/
theorem Records.knownFile_iff (h : Records x) :
    KnownFile x.2 (.xmlRepPrimeInfo x.1.sxPrimeInfo.usVendorId x.1.sxPrimeInfo.usProductId
        x.1.sxPrimeInfo.fwVersion x.1.sxPrimeInfo.macAddr)
      ↔ values x.2 pibMacEui48 ≠ [] ∧ values x.2 pibMacAppFwVersion ≠ []
        ∧ IdReady (values x.2 pibMacAppVendorId) ∧ IdReady (values x.2 pibMacAppProductId) := by
  rw [KnownFile, id_known_iff h.vid, id_known_iff h.pid]
  refine and_congr ?_ (and_congr_left fun _ => ?_)
  · constructor
    · exact List.ne_nil_of_mem
    · intro hne
      obtain ⟨v, hv, hlast⟩ := exists_getLast? hne
      rwa [h.mac v hlast]
  · constructor
    · rintro ⟨v, hv, -⟩
      exact List.ne_nil_of_mem hv
    · intro hne
      obtain ⟨v, hv, hlast⟩ := exists_getLast? hne
      exact ⟨v, hv, h.fwv v hlast⟩

/-- Asking for an attribute does not write the file. -/
theorem knownFile_of_getPib {log : Confirms} {usPib : UInt16} (hout : out ∈ getPib usPib s) :
    KnownFile log out := by
  unfold getPib at hout
  simp only [List.mem_cons, List.not_mem_nil, or_false] at hout
  rcases hout with rfl | rfl <;> trivial

theorem knownFile_of_getRegisteredNodes {log : Confirms}
    (hout : out ∈ (getRegisteredNodes s).2) : KnownFile log out := by
  unfold getRegisteredNodes at hout
  simp only [List.mem_cons, List.not_mem_nil, or_false] at hout
  rcases hout with rfl | rfl <;> trivial

/-- The second part of `cli_process` does not write it. -/
theorem knownFile_of_message {log : Confirms} (hout : out ∈ (cliProcessMessage message s).2) :
    KnownFile log out := by
  unfold cliProcessMessage at hout
  split_ifs at hout
  · exact knownFile_of_getRegisteredNodes hout
  · unfold getVersionNodes at hout
    simp only [List.mem_cons, List.not_mem_nil, or_false] at hout
    rcases hout with rfl | rfl <;> trivial
  · cases hout

theorem knownFile_of_getCfm {log : Confirms}
    (hout : out ∈ (primeClNullMlmeGetCfmCb xStatus a v s).2) : KnownFile log out := by
  unfold primeClNullMlmeGetCfmCb at hout
  dsimp only at hout
  split_ifs at hout
  · cases hout
  · obtain rfl := List.mem_singleton.mp hout
    trivial
  · cases hout

theorem knownFile_of_callback {log : Confirms} (hout : out ∈ (cliCallback fd v s).2) :
    KnownFile log out := by
  unfold cliCallback cliRcvCmd at hout
  dsimp only at hout
  split_ifs at hout
  · exact knownFile_of_getPib hout
  · simp only [List.mem_cons, List.not_mem_nil, or_false] at hout
    rcases hout with rfl | rfl <;> trivial
  · exact knownFile_of_getRegisteredNodes hout
  · cases hout

/-- The first part writes it in one state only. -/
theorem knownFile_of_info {log : Confirms} (hstatus : s.sucInfoStatus ≠ .createFile)
    (hout : out ∈ (cliProcessInfo s).2) : KnownFile log out := by
  unfold cliProcessInfo at hout
  cases hs : s.sucInfoStatus with
  | getMac => rw [hs] at hout; exact knownFile_of_getPib hout
  | getFwv => rw [hs] at hout; exact knownFile_of_getPib hout
  | getVid => rw [hs] at hout; exact knownFile_of_getPib hout
  | getPid => rw [hs] at hout; exact knownFile_of_getPib hout
  | waitRsp => rw [hs] at hout; cases hout
  | createFile => exact absurd hs hstatus
  | ok => rw [hs] at hout; cases hout

/-- **One event and the file.** -/
theorem Records.fileKnown_iff (h : Records x) : FileKnown e x ↔ FileReady e x := by
  cases e with
  | mlmeGetCfm xStatus a v => exact iff_of_true (fun out hout => knownFile_of_getCfm hout) trivial
  | data fd bytes => exact iff_of_true (fun out hout => knownFile_of_callback hout) trivial
  | process message =>
      have houts : (cliProcess message x.1).2 = (cliProcessInfo x.1).2
          ++ (cliProcessMessage message (cliProcessInfo x.1).1).2 := rfl
      unfold FileKnown FileReady
      rw [CliEvent.run, houts]
      by_cases hstatus : x.1.sucInfoStatus = .createFile
      · have hinfo : (cliProcessInfo x.1).2
            = [.xmlRepPrimeInfo x.1.sxPrimeInfo.usVendorId x.1.sxPrimeInfo.usProductId
              x.1.sxPrimeInfo.fwVersion x.1.sxPrimeInfo.macAddr] := by
          unfold cliProcessInfo
          rw [hstatus]
        dsimp only
        rw [forall_prop_of_true hstatus, ← h.knownFile_iff, hinfo]
        constructor
        · intro hknown
          exact hknown _ List.mem_cons_self
        · intro hknown out hout
          rcases List.mem_cons.mp hout with rfl | hout
          · exact hknown
          · exact knownFile_of_message hout
      · refine iff_of_true (fun out hout => ?_) fun heq => absurd heq hstatus
        rcases List.mem_append.mp hout with hout | hout
        · exact knownFile_of_info hstatus hout
        · exact knownFile_of_message hout

/-- **The PRIME info.**  In every run in which values have the size of their attribute, the
file holds confirmed values whenever it is written, exactly when at every such moment the
four attributes have been confirmed and the ids are taken for values that were. -/
theorem prime_info_known_iff (appId : ℤ) (es : List CliEvent)
    (hsize : AlongSteps cliStep (fun e _ => e.RightSize) es ((cliInit appId).1, [])) :
    AlongSteps cliStep FileKnown es ((cliInit appId).1, [])
      ↔ AlongSteps cliStep FileReady es ((cliInit appId).1, []) := by
  have hstart : Records ((cliInit appId).1, []) := by
    constructor <;> exact fun v hv => by cases hv
  refine alongSteps_congr_of (I := Records) hsize (fun e x h _ => h.fileKnown_iff) ?_ hstart
  intro e x x' h hsize _ hx'
  obtain rfl := Option.some.inj hx'
  exact h.step hsize

end Events

/-! ## A vendor id that is not read -/

/-- The four attributes are asked for and confirmed one after the other, and the file is
written. -/
def acquisition (vendorId productId : List UInt8) : List CliEvent :=
  [.process none, .mlmeGetCfm 0 pibMacEui48 [0, 1, 2, 3, 4, 5], .process none,
    .mlmeGetCfm 0 pibMacAppFwVersion [0x31], .process none,
    .mlmeGetCfm 0 pibMacAppVendorId vendorId, .process none,
    .mlmeGetCfm 0 pibMacAppProductId productId, .process none]

instance (e : CliEvent) : Decidable e.RightSize :=
  match e with
  | .process _ => isTrue trivial
  | .mlmeGetCfm _ _ _ => inferInstanceAs (Decidable (_ ∧ _))
  | .data _ _ => inferInstanceAs (Decidable (_ ∧ _))

instance (log : Confirms) (out : Output) : Decidable (KnownFile log out) :=
  match out with
  | .xmlRepPrimeInfo .. => inferInstanceAs (Decidable (_ ∧ _))
  | .ifacePrimeSelectApi _ => isTrue trivial
  | .mlmeGetRequest _ => isTrue trivial
  | .mlmeSetRequest _ _ => isTrue trivial
  | .mlmeListGetRequest _ => isTrue trivial
  | .fupGetVersionRequest _ => isTrue trivial
  | .write _ _ => isTrue trivial

instance (e : CliEvent) (x : State × Confirms) : Decidable (FileKnown e x) :=
  inferInstanceAs (Decidable (∀ out ∈ _, _))

/-- The vendor id 0x002a is written as 0x0001. -/
theorem vendor_id_misread :
    ¬ ∀ (appId : ℤ) (es : List CliEvent),
      AlongSteps cliStep (fun e _ => e.RightSize) es ((cliInit appId).1, []) →
      AlongSteps cliStep FileKnown es ((cliInit appId).1, []) := by
  intro h
  have hknown := h 2 (acquisition [0x00, 0x2a] [0x00, 0x01]) (by decide +kernel)
  revert hknown
  decide +kernel

/-- A client asks for the product id before anything is known, and the file is written. -/
example : ¬ AlongSteps cliStep FileKnown [.data 9 [0x36, 0x00, 0x77],
    .mlmeGetCfm 0 pibMacAppProductId [0x01, 0x02], .process none] ((cliInit 2).1, []) := by
  decide +kernel

/-- With the ids 0x0001 and 0x0102 nothing is misread. -/
theorem lucky_ids_known :
    AlongSteps cliStep FileKnown (acquisition [0x00, 0x01] [0x01, 0x02]) ((cliInit 2).1, [])
      ↔ AlongSteps cliStep FileReady (acquisition [0x00, 0x01] [0x01, 0x02]) ((cliInit 2).1, []) :=
  prime_info_known_iff 2 (acquisition [0x00, 0x01] [0x01, 0x02]) (by decide +kernel)

end Cli
