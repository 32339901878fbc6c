/-
# What a command of a client depends on

`_cli_rcv_cmd` takes the attribute, the size and the value of a command from the receive
buffer.  It is told how many bytes have been received, and does not look at this number.
The part of a command that is missing is then made up of what earlier reads have left in
the buffer, and ends up in the request to the base node.
-/
import PlcManager.CliPrimeInfo
import PlcManager.PrimeApiPort

namespace Cli

open PrimeApi (Serial.primeClNullMlmeGetRequest Serial.primeClNullMlmeSetRequest
  Serial.primeClNullMlmeListGetRequest Serial.bmngFupGetVersionRequest)

/-! ## Requests -/

/-- The request function that is called writes its message. -/
def Output.request? (pucMsg : Pen) : Output → Option Pen
  | .mlmeGetRequest usPibAttrib =>
      some (Serial.primeClNullMlmeGetRequest pucMsg usPibAttrib)
  | .mlmeSetRequest usPibAttrib pvPibValue =>
      some (Serial.primeClNullMlmeSetRequest pucMsg usPibAttrib pvPibValue
        (UInt8.ofNat pvPibValue.length))
  | .mlmeListGetRequest usPibAttrib =>
      some (Serial.primeClNullMlmeListGetRequest pucMsg usPibAttrib)
  | .fupGetVersionRequest pucEui48 => some (Serial.bmngFupGetVersionRequest pucMsg pucEui48)
  | .ifacePrimeSelectApi _ | .write .. | .xmlRepPrimeInfo .. => none

/-- The messages for the base node, when `uc_serial_buf` holds `buf`. -/
def messages (buf : Mem UInt8) (outs : List Output) : List (List UInt8) :=
  outs.filterMap fun out => (out.request? (.start buf)).map Pen.text

/-- What the CLI does with a command, when earlier reads have left `old` in its buffer. -/
def commandOutputs (fd : ℤ) (bytes : List UInt8) (s : State) (old : Mem UInt8) : List Output :=
  (cliCallback fd bytes { s with sucCliRcvBuf := old }).2

/-- The requests, and what reaches the base node, do not depend on earlier reads. -/
structure CommandLaw (fd : ℤ) (bytes : List UInt8) (s : State) : Prop where
  requests : ∀ old old' : Mem UInt8, commandOutputs fd bytes s old = commandOutputs fd bytes s old'
  received : ∀ old old' buf : Mem UInt8,
    messages buf (commandOutputs fd bytes s old) = messages buf (commandOutputs fd bytes s old')

/-- A command has its attribute, and the value that it announces. -/
def Complete (bytes : List UInt8) : Prop :=
  (bytes.getD 0 0 = primeCmdMlmeGetPib → 3 ≤ bytes.length)
    ∧ (bytes.getD 0 0 = primeCmdMlmeSetPib →
      4 ≤ bytes.length ∧ 4 + (bytes.getD 3 0).toNat ≤ bytes.length)

instance (bytes : List UInt8) : Decidable (Complete bytes) := inferInstanceAs (Decidable (_ ∧ _))

section Commands

variable {fd : ℤ} {bytes : List UInt8} {s : State} {old old' : Mem UInt8} {i n : ℕ}

/-- The buffer holds what has been received, and behind it what was there before. -/
theorem cell_received : (old.storeList 0 bytes).cell i
    = if i < bytes.length then bytes.getD i 0 else old.cell i := by
  by_cases h : i < bytes.length
  · rw [if_pos h, List.getD_eq_getElem _ _ h]
    have hcell : (old.storeList 0 bytes).cell (0 + i) = bytes[i] := Mem.cell_storeList_of_lt h
    rwa [Nat.zero_add] at hcell
  · rw [if_neg h]
    exact Mem.cell_storeList_of_not_mem (by omega)

theorem cell_received_congr (h : i < bytes.length) :
    (old.storeList 0 bytes).cell i = (old'.storeList 0 bytes).cell i := by
  rw [cell_received, cell_received, if_pos h, if_pos h]

theorem slice_received_congr (h : i + n ≤ bytes.length) :
    (old.storeList 0 bytes).slice i n = (old'.storeList 0 bytes).slice i n :=
  Mem.slice_congr fun _ _ hk => cell_received_congr (by omega)

/-- The command itself has been received. -/
theorem cell_command (hne : bytes ≠ []) : (old.storeList 0 bytes).cell 0 = bytes.getD 0 0 := by
  rw [cell_received, if_pos (List.length_pos_of_ne_nil hne)]

/-! ### The commands -/

theorem commandOutputs_get (hne : bytes ≠ []) (hcmd : bytes.getD 0 0 = primeCmdMlmeGetPib) :
    commandOutputs fd bytes s old = [.ifacePrimeSelectApi s.siCliAppId,
      .mlmeGetRequest
        (word ((old.storeList 0 bytes).cell 1) ((old.storeList 0 bytes).cell 2))] := by
  unfold commandOutputs cliCallback cliRcvCmd
  dsimp only
  rw [cell_command hne, hcmd, if_pos rfl]
  rfl

theorem commandOutputs_set (hne : bytes ≠ []) (hcmd : bytes.getD 0 0 = primeCmdMlmeSetPib) :
    commandOutputs fd bytes s old = [.ifacePrimeSelectApi s.siCliAppId,
      .mlmeSetRequest (word ((old.storeList 0 bytes).cell 1) ((old.storeList 0 bytes).cell 2))
        ((old.storeList 0 bytes).slice 4 ((old.storeList 0 bytes).cell 3).toNat)] := by
  have hget : primeCmdMlmeSetPib ≠ primeCmdMlmeGetPib := by decide
  unfold commandOutputs cliCallback cliRcvCmd
  dsimp only
  rw [cell_command hne, hcmd, if_neg hget, if_pos rfl]

/-- The other commands have no parameters. -/
theorem commandOutputs_other (hne : bytes ≠ []) (hget : bytes.getD 0 0 ≠ primeCmdMlmeGetPib)
    (hset : bytes.getD 0 0 ≠ primeCmdMlmeSetPib) :
    commandOutputs fd bytes s old = commandOutputs fd bytes s old' := by
  unfold commandOutputs cliCallback cliRcvCmd
  dsimp only
  rw [cell_command hne, cell_command hne, if_neg hget, if_neg hget, if_neg hset, if_neg hset]
  split_ifs <;> rfl

/-! ### Complete commands -/

theorem commandOutputs_congr (hne : bytes ≠ []) (h : Complete bytes) :
    commandOutputs fd bytes s old = commandOutputs fd bytes s old' := by
  by_cases hget : bytes.getD 0 0 = primeCmdMlmeGetPib
  · have hlen := h.1 hget
    rw [commandOutputs_get hne hget, commandOutputs_get hne hget,
      cell_received_congr (i := 1) (by omega), cell_received_congr (i := 2) (by omega)]
  by_cases hset : bytes.getD 0 0 = primeCmdMlmeSetPib
  · obtain ⟨hlen, hvalue⟩ := h.2 hset
    have hsize (m : Mem UInt8) : (m.storeList 0 bytes).cell 3 = bytes.getD 3 0 := by
      rw [cell_received, if_pos (by omega)]
    rw [commandOutputs_set hne hset, commandOutputs_set hne hset, hsize, hsize,
      cell_received_congr (i := 1) (by omega), cell_received_congr (i := 2) (by omega),
      slice_received_congr hvalue]
  · exact commandOutputs_other hne hget hset

/-- Zeros, but for byte `i`. -/
def oneByte (i : ℕ) : Mem UInt8 := Mem.init fun j => if j = i then 1 else 0

/-- A byte that has not been received is the one that was there. -/
theorem cell_received_oneByte (h : bytes.length ≤ i) :
    ((oneByte i).storeList 0 bytes).cell i = 1 := by
  rw [cell_received, if_neg (by omega)]
  exact if_pos rfl

theorem cell_received_zeros (h : bytes.length ≤ i) :
    ((Mem.init fun _ => (0 : UInt8)).storeList 0 bytes).cell i = 0 := by
  rw [cell_received, if_neg (by omega)]
  rfl

/-- Two buffers that differ in one byte. -/
theorem cell_received_of_ne (hn : n ≠ i) :
    ((oneByte i).storeList 0 bytes).cell n = ((Mem.init fun _ => 0).storeList 0 bytes).cell n := by
  rw [cell_received, cell_received]
  split_ifs
  · rfl
  · exact if_neg hn

/-- A command that is not complete depends on what was in the buffer. -/
theorem complete_of_congr (hne : bytes ≠ [])
    (h : ∀ old old' : Mem UInt8, commandOutputs fd bytes s old = commandOutputs fd bytes s old') :
    Complete bytes := by
  constructor
  · intro hget
    by_contra hshort
    -- the last byte of the attribute is missing
    have heq := h (oneByte 2) (Mem.init fun _ => 0)
    rw [commandOutputs_get hne hget, commandOutputs_get hne hget,
      cell_received_of_ne (show 1 ≠ 2 by decide), cell_received_oneByte (by omega),
      cell_received_zeros (i := 2) (by omega)] at heq
    have hword := congrArg UInt16.toNat
      (Output.mlmeGetRequest.inj (List.cons.inj (List.cons.inj heq).2).1)
    rw [toNat_word, toNat_word] at hword
    exact absurd (Nat.add_left_cancel hword) (by decide)
  · intro hset
    by_contra hshort
    have hvalue (old old' : Mem UInt8) :
        (old.storeList 0 bytes).slice 4 ((old.storeList 0 bytes).cell 3).toNat
          = (old'.storeList 0 bytes).slice 4 ((old'.storeList 0 bytes).cell 3).toNat := by
      have heq := h old old'
      rw [commandOutputs_set hne hset, commandOutputs_set hne hset] at heq
      exact (Output.mlmeSetRequest.inj (List.cons.inj (List.cons.inj heq).2).1).2
    by_cases hlen : 4 ≤ bytes.length
    · -- the last byte of the value is missing
      have hsize (m : Mem UInt8) : (m.storeList 0 bytes).cell 3 = bytes.getD 3 0 := by
        rw [cell_received, if_pos (by omega)]
      obtain ⟨k, hk⟩ : ∃ k, (bytes.getD 3 0).toNat = k + 1 := ⟨(bytes.getD 3 0).toNat - 1, by omega⟩
      have heq := hvalue (oneByte (4 + k)) (Mem.init fun _ => 0)
      rw [hsize, hsize, hk] at heq
      have hlast := Mem.cell_of_slice heq (k := k) (by simp)
      rw [Mem.getElem_slice, cell_received_oneByte (by omega), cell_received_zeros (by omega)]
        at hlast
      exact absurd hlast (by decide)
    · -- the size is missing
      have heq := congrArg List.length (hvalue (oneByte 3) (Mem.init fun _ => 0))
      rw [Mem.length_slice, Mem.length_slice, cell_received_oneByte (by omega),
        cell_received_zeros (by omega)] at heq
      exact absurd heq (by decide)

/-- **Commands.**  For every command received: the requests, and what reaches the base node,
do not depend on what earlier reads have left in the buffer, exactly if the command has its
attribute and the value that it announces. -/
theorem cli_command_law_iff (fd : ℤ) (cmd : UInt8) (bytes : List UInt8) (s : State) :
    CommandLaw fd (cmd :: bytes) s ↔ Complete (cmd :: bytes) := by
  have hne : cmd :: bytes ≠ [] := List.cons_ne_nil _ _
  constructor
  · intro h
    exact complete_of_congr hne h.requests
  · intro h
    refine ⟨fun old old' => commandOutputs_congr hne h, fun old old' buf => ?_⟩
    exact congrArg (messages buf) (commandOutputs_congr hne h)

end Commands

/-- A request for an attribute, of which one byte has been received: the second one is that
of an earlier command. -/
theorem cli_command_mixed :
    ¬ ∀ (fd : ℤ) (cmd : UInt8) (bytes : List UInt8) (s : State),
      CommandLaw fd (cmd :: bytes) s := by
  intro hclaim
  have heq := (hclaim 5 primeCmdMlmeGetPib [0x00] (cliInit 1).1).requests (oneByte 2)
    (Mem.init fun _ => 0)
  exact absurd heq (by decide)

end Cli
