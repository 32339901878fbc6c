/-
# The table of the node versions

A version indication brings three texts of a node, which is known by its EUI48.  They are
stored in the entry of the node if there is one, else in the first free entry; an entry is
free as long as its EUI48 is zero.  The three texts and the EUI48 lie one behind the other,
and the zero that ends a text of 32 bytes is the first byte of the next field.

The table is one memory of 40 entries of 102 bytes.
-/
import PlcManager.FlatMemory
import PlcManager.Runs

namespace Cli

/-! ## The table -/

/-- `CLI_NUM_MAX_NODE_VS`. -/
def cliNumMaxNodeVs : ℕ := 40

/-- The size of an `x_cli_node_vs_t`. -/
def sizeofNodeVs : ℕ := 102

/-- `puc_eui48` of entry `i`; `puc_vendor` is at 0 of the entry, `puc_model` at 32 and
`puc_fw_version` at 64. -/
def nodeEui48 (t : Mem UInt8) (i : ℕ) : List UInt8 := t.slice (sizeofNodeVs * i + 96) 6

/-- `puc_null_eui48`. -/
def pucNullEui48 : List UInt8 := List.replicate 6 0

/-- `sx_cli_nodes_version` at the start, with anything behind it. -/
def zeroNodesVersion (behind : ℕ → UInt8) : Mem UInt8 :=
  (Mem.init fun _ => 0).withBehind (sizeofNodeVs * cliNumMaxNodeVs) behind

/-- What `_prime_fup_version_ind` hands over: it takes no more than 32 bytes of a text. -/
structure VersionInd where
  pucEui48 : List UInt8
  pucVendor : List UInt8
  pucModel : List UInt8
  pucVersion : List UInt8
  length_eui48 : pucEui48.length = 6
  eui48_ne : pucEui48 ≠ pucNullEui48
  length_vendor : pucVendor.length ≤ 32
  length_model : pucModel.length ≤ 32
  length_version : pucVersion.length ≤ 32

/-! ## The callback -/

/-- The three texts are stored in the entry at `a`, and then their ends. -/
def storeTexts (a : ℕ) (ind : VersionInd) (t : Mem UInt8) : Mem UInt8 :=
  let t := t.storeList (a + 64) ind.pucVersion
  let t := t.storeList (a + 32) ind.pucModel
  let t := t.storeList a ind.pucVendor
  let t := t.store (a + 64 + ind.pucVersion.length) 0
  let t := t.store (a + 32 + ind.pucModel.length) 0
  t.store (a + ind.pucVendor.length) 0

/-- The loop of `_fup_version_ind_cb`, with `n` rounds to go: it ends at the entry of the
node, or with the bookmark `ucFreeIdx`. -/
def searchNode (t : Mem UInt8) (pucEui48 : List UInt8) :
    ℕ → ℕ → Option ℕ → ℕ ⊕ Option ℕ
  | 0, _, ucFreeIdx => .inr ucFreeIdx
  | n + 1, ucIdx, ucFreeIdx =>
      if nodeEui48 t ucIdx = pucEui48 then .inl ucIdx
      else if ucFreeIdx = none ∧ nodeEui48 t ucIdx = pucNullEui48 then
        searchNode t pucEui48 n (ucIdx + 1) (some ucIdx)
      else searchNode t pucEui48 n (ucIdx + 1) ucFreeIdx

/-- `_fup_version_ind_cb`: the table, and the entries `xml_rep_update_node_version` is
called with.  After the loop the pointer is behind the last entry. -/
def fupVersionIndCb (ind : VersionInd) (t : Mem UInt8) : Mem UInt8 × List ℕ :=
  match searchNode t ind.pucEui48 cliNumMaxNodeVs 0 none with
  | .inl ucIdx => (storeTexts (sizeofNodeVs * ucIdx) ind t, [])
  | .inr (some ucFreeIdx) =>
      (storeTexts (sizeofNodeVs * ucFreeIdx) ind
        (t.storeList (sizeofNodeVs * ucFreeIdx + 96) ind.pucEui48), [ucFreeIdx])
  | .inr none => (t, [cliNumMaxNodeVs])

/-- One indication after the other. -/
def stepVersion (ind : VersionInd) (t : Mem UInt8) : Option (Mem UInt8) :=
  some (fupVersionIndCb ind t).1

/-! ## The table as it should be -/

/-- Some entry has this EUI48. -/
def HasEntry (t : Mem UInt8) (eui48 : List UInt8) : Prop :=
  ∃ i < cliNumMaxNodeVs, nodeEui48 t i = eui48

instance (t : Mem UInt8) (eui48 : List UInt8) : Decidable (HasEntry t eui48) :=
  inferInstanceAs (Decidable (∃ i < cliNumMaxNodeVs, nodeEui48 t i = eui48))

/-- There is an entry for the node of an indication. -/
def HasRoom (ind : VersionInd) (t : Mem UInt8) : Prop :=
  HasEntry t ind.pucEui48 ∨ HasEntry t pucNullEui48

instance (ind : VersionInd) (t : Mem UInt8) : Decidable (HasRoom ind t) :=
  inferInstanceAs (Decidable (_ ∨ _))

/-- `t'` differs from `t` in entry `i` only, which is the one of the node of an indication
and holds its texts. -/
structure StoredAt (ind : VersionInd) (i : ℕ) (t t' : Mem UInt8) : Prop where
  eui48 : nodeEui48 t' i = ind.pucEui48
  unique : ∀ j < cliNumMaxNodeVs, nodeEui48 t' j = ind.pucEui48 → j = i
  vendor : t'.slice (sizeofNodeVs * i) (ind.pucVendor.length + 1) = ind.pucVendor ++ [0]
  model : t'.slice (sizeofNodeVs * i + 32) (ind.pucModel.length + 1) = ind.pucModel ++ [0]
  version : t'.slice (sizeofNodeVs * i + 64) (ind.pucVersion.length + 1) = ind.pucVersion ++ [0]
  others : ∀ k, k < sizeofNodeVs * i ∨ sizeofNodeVs * (i + 1) ≤ k → t'.cell k = t.cell k

/-- The indication is in the table if there is room for it; else the table is as it was. -/
def TableLaw (ind : VersionInd) (t : Mem UInt8) : Prop :=
  (HasRoom ind t → ∃ i < cliNumMaxNodeVs, StoredAt ind i t (fupVersionIndCb ind t).1)
    ∧ (¬ HasRoom ind t → (fupVersionIndCb ind t).1 = t)

/-- The file is updated from the entry of the node if there is room for it, and from no
entry that is not in the table. -/
def ReportLaw (ind : VersionInd) (t : Mem UInt8) : Prop :=
  (HasRoom ind t → ∃ i < cliNumMaxNodeVs,
      nodeEui48 (fupVersionIndCb ind t).1 i = ind.pucEui48 ∧ (fupVersionIndCb ind t).2 = [i])
    ∧ (¬ HasRoom ind t → ∀ i ∈ (fupVersionIndCb ind t).2, i < cliNumMaxNodeVs)

/-- A field of 32 bytes that is full is followed by a zero. -/
def Followed (text next : List UInt8) : Prop := text.length = 32 → next.headD 0 = 0

instance (text next : List UInt8) : Decidable (Followed text next) :=
  inferInstanceAs (Decidable (_ → _))

/-- The ends of the texts change nothing of the fields behind them. -/
def TextsFit (ind : VersionInd) : Prop :=
  Followed ind.pucVendor ind.pucModel ∧ Followed ind.pucModel ind.pucVersion
    ∧ Followed ind.pucVersion ind.pucEui48

instance (ind : VersionInd) : Decidable (TextsFit ind) :=
  inferInstanceAs (Decidable (_ ∧ _ ∧ _))

/-- The node is new, there is a free entry for it, and the texts fit. -/
def NewNode (ind : VersionInd) (t : Mem UInt8) : Prop :=
  ¬ HasEntry t ind.pucEui48 ∧ HasEntry t pucNullEui48 ∧ TextsFit ind

instance (ind : VersionInd) (t : Mem UInt8) : Decidable (NewNode ind t) :=
  inferInstanceAs (Decidable (_ ∧ _ ∧ _))

/-- An indication is handled as it should be. -/
structure VersionLaw (ind : VersionInd) (t : Mem UInt8) : Prop where
  table : TableLaw ind t
  report : ReportLaw ind t

/-- No two entries are of one node. -/
def UniqueNodes (t : Mem UInt8) : Prop :=
  ∀ i < cliNumMaxNodeVs, ∀ j < cliNumMaxNodeVs,
    nodeEui48 t i = nodeEui48 t j → nodeEui48 t i ≠ pucNullEui48 → i = j

section NodeVersions

variable {t t' : Mem UInt8} {ind : VersionInd} {inds : List VersionInd} {pucEui48 : List UInt8}
  {n ucIdx a i j k : ℕ} {ucFreeIdx r : Option ℕ} {b : UInt8} {text next : List UInt8}

/-! ### The search -/

theorem searchNode_inl (h : searchNode t pucEui48 n ucIdx ucFreeIdx = .inl i) :
    ucIdx ≤ i ∧ i < ucIdx + n ∧ nodeEui48 t i = pucEui48 := by
  induction n generalizing ucIdx ucFreeIdx with
  | zero => cases h
  | succ n ih =>
      unfold searchNode at h
      split_ifs at h with hfound hfree
      · rw [Sum.inl.injEq] at h
        subst h
        exact ⟨le_rfl, by omega, hfound⟩
      · obtain ⟨hle, hlt, heq⟩ := ih h
        exact ⟨by omega, by omega, heq⟩
      · obtain ⟨hle, hlt, heq⟩ := ih h
        exact ⟨by omega, by omega, heq⟩

/-- The search passes every entry of another node. -/
theorem searchNode_inr (h : searchNode t pucEui48 n ucIdx ucFreeIdx = .inr r)
    (hle : ucIdx ≤ j) (hlt : j < ucIdx + n) : nodeEui48 t j ≠ pucEui48 := by
  induction n generalizing ucIdx ucFreeIdx with
  | zero => omega
  | succ n ih =>
      unfold searchNode at h
      split_ifs at h with hfound hfree
      · rcases Nat.eq_or_lt_of_le hle with rfl | hnext
        · exact hfound
        · exact ih h hnext (by omega)
      · rcases Nat.eq_or_lt_of_le hle with rfl | hnext
        · exact hfound
        · exact ih h hnext (by omega)

/-- A bookmark is kept, or it is set at a free entry. -/
theorem searchNode_some (h : searchNode t pucEui48 n ucIdx ucFreeIdx = .inr (some i)) :
    ucFreeIdx = some i ∨ i < ucIdx + n ∧ nodeEui48 t i = pucNullEui48 := by
  induction n generalizing ucIdx ucFreeIdx with
  | zero =>
      left
      exact Sum.inr.inj h
  | succ n ih =>
      unfold searchNode at h
      split_ifs at h with hfound hfree
      · right
        rcases ih h with hhere | ⟨hlt, hnull⟩
        · rw [Option.some_inj] at hhere
          subst hhere
          exact ⟨by omega, hfree.2⟩
        · exact ⟨by omega, hnull⟩
      · rcases ih h with hkept | ⟨hlt, hnull⟩
        · exact Or.inl hkept
        · exact Or.inr ⟨by omega, hnull⟩

theorem searchNode_none (h : searchNode t pucEui48 n ucIdx ucFreeIdx = .inr none) :
    ucFreeIdx = none
      ∧ ∀ j, ucIdx ≤ j → j < ucIdx + n → nodeEui48 t j ≠ pucNullEui48 := by
  induction n generalizing ucIdx ucFreeIdx with
  | zero => exact ⟨Sum.inr.inj h, fun j hle hlt => by omega⟩
  | succ n ih =>
      unfold searchNode at h
      split_ifs at h with hfound hfree
      · exact absurd (ih h).1 (by simp)
      · obtain ⟨hnone, hrest⟩ := ih h
        refine ⟨hnone, fun j hle hlt hnull => ?_⟩
        rcases Nat.eq_or_lt_of_le hle with rfl | hnext
        · exact hfree ⟨hnone, hnull⟩
        · exact hrest j hnext (by omega) hnull

/-- What the callback does: it updates the entry of the node, it takes a free entry for the
node, or it finds neither. -/
theorem fupVersionIndCb_cases (ind : VersionInd) (t : Mem UInt8) :
    (∃ i < cliNumMaxNodeVs, nodeEui48 t i = ind.pucEui48
        ∧ fupVersionIndCb ind t = (storeTexts (sizeofNodeVs * i) ind t, []))
      ∨ (¬ HasEntry t ind.pucEui48 ∧ ∃ i < cliNumMaxNodeVs, nodeEui48 t i = pucNullEui48
        ∧ fupVersionIndCb ind t = (storeTexts (sizeofNodeVs * i) ind
          (t.storeList (sizeofNodeVs * i + 96) ind.pucEui48), [i]))
      ∨ (¬ HasRoom ind t ∧ fupVersionIndCb ind t = (t, [cliNumMaxNodeVs])) := by
  unfold fupVersionIndCb
  cases hsearch : searchNode t ind.pucEui48 cliNumMaxNodeVs 0 none with
  | inl i =>
      obtain ⟨-, hlt, heq⟩ := searchNode_inl hsearch
      exact Or.inl ⟨i, by omega, heq, rfl⟩
  | inr r =>
      have habsent : ¬ HasEntry t ind.pucEui48 := by
        rintro ⟨j, hj, heq⟩
        exact searchNode_inr hsearch (Nat.zero_le j) (by omega) heq
      right
      cases r with
      | some i =>
          rcases searchNode_some hsearch with hkept | ⟨hlt, hnull⟩
          · cases hkept
          · exact Or.inl ⟨habsent, i, by omega, hnull, rfl⟩
      | none =>
          right
          refine ⟨?_, rfl⟩
          rintro (hentry | ⟨j, hj, hnull⟩)
          · exact habsent hentry
          · exact (searchNode_none hsearch).2 j (Nat.zero_le j) (by omega) hnull

/-! ### The stores -/

/-- A list behind whose first cell nothing has been stored. -/
theorem slice_head_iff {m : Mem UInt8} {p : Prop} [Decidable p]
    (h : ∀ k (hk : k < next.length), m.cell (a + k) = if p ∧ k = 0 then 0 else next[k]) :
    m.slice a next.length = next ↔ (p → next.headD 0 = 0) := by
  constructor
  · intro hslice hp
    cases next with
    | nil => rfl
    | cons b next =>
        have hfirst := h 0 (Nat.zero_lt_succ _)
        rw [Mem.cell_of_slice hslice (Nat.zero_lt_succ _), if_pos ⟨hp, rfl⟩] at hfirst
        exact hfirst
  · intro hzero
    apply Mem.slice_eq rfl
    intro k hk
    rw [h k hk]
    split_ifs with hhead
    · obtain ⟨hp, rfl⟩ := hhead
      cases next with
      | nil => exact absurd hk (Nat.lt_irrefl 0)
      | cons b next => exact (hzero hp).symm
    · rfl

/-- A list is stored with the zero that ends it. -/
theorem slice_ended_iff {m : Mem UInt8} (hend : m.cell (a + text.length) = 0) :
    m.slice a (text.length + 1) = text ++ [0] ↔ m.slice a text.length = text := by
  rw [Mem.slice_add, Mem.slice_succ, hend]
  exact List.append_left_inj [0]

theorem slice_vendor :
    (storeTexts a ind t).slice a (ind.pucVendor.length + 1) = ind.pucVendor ++ [0] := by
  have hlen := ind.length_vendor
  have hend : (storeTexts a ind t).cell (a + ind.pucVendor.length) = 0 := Mem.cell_store_self
  apply (slice_ended_iff hend).mpr
  apply Mem.slice_eq rfl
  intro k hk
  unfold storeTexts
  dsimp only
  rw [Mem.cell_store_of_ne (by omega), Mem.cell_store_of_ne (by omega),
    Mem.cell_store_of_ne (by omega), Mem.cell_storeList_of_lt hk]

/-- The end of the vendor may be the first byte of the model. -/
theorem slice_model_iff :
    (storeTexts a ind t).slice (a + 32) (ind.pucModel.length + 1) = ind.pucModel ++ [0]
      ↔ Followed ind.pucVendor ind.pucModel := by
  have hvendor := ind.length_vendor
  have hmodel := ind.length_model
  have hend : (storeTexts a ind t).cell (a + 32 + ind.pucModel.length) = 0 := by
    unfold storeTexts
    dsimp only
    rw [Mem.cell_store]
    split_ifs
    · rfl
    · exact Mem.cell_store_self
  apply (slice_ended_iff hend).trans
  apply slice_head_iff
  intro k hk
  unfold storeTexts
  dsimp only
  rw [Mem.cell_store, Mem.cell_store_of_ne (by omega), Mem.cell_store_of_ne (by omega),
    Mem.cell_storeList_of_not_mem (by omega), Mem.cell_storeList_of_lt hk]
  exact if_congr (by omega) rfl rfl

/-- The end of the model may be the first byte of the version. -/
theorem slice_version_iff :
    (storeTexts a ind t).slice (a + 64) (ind.pucVersion.length + 1) = ind.pucVersion ++ [0]
      ↔ Followed ind.pucModel ind.pucVersion := by
  have hvendor := ind.length_vendor
  have hmodel := ind.length_model
  have hversion := ind.length_version
  have hend : (storeTexts a ind t).cell (a + 64 + ind.pucVersion.length) = 0 := by
    unfold storeTexts
    dsimp only
    rw [Mem.cell_store_of_ne (by omega), Mem.cell_store]
    split_ifs
    · rfl
    · exact Mem.cell_store_self
  apply (slice_ended_iff hend).trans
  apply slice_head_iff
  intro k hk
  unfold storeTexts
  dsimp only
  rw [Mem.cell_store_of_ne (by omega), Mem.cell_store, Mem.cell_store_of_ne (by omega),
    Mem.cell_storeList_of_not_mem (by omega), Mem.cell_storeList_of_not_mem (by omega),
    Mem.cell_storeList_of_lt hk]
  exact if_congr (by omega) rfl rfl

/-- The end of the version may be the first byte of the EUI48. -/
theorem nodeEui48_storeTexts_iff (heui : nodeEui48 t i = ind.pucEui48) :
    nodeEui48 (storeTexts (sizeofNodeVs * i) ind t) i = ind.pucEui48
      ↔ Followed ind.pucVersion ind.pucEui48 := by
  have hvendor := ind.length_vendor
  have hmodel := ind.length_model
  have hversion := ind.length_version
  have hlen := ind.length_eui48
  unfold nodeEui48 at heui ⊢
  rw [← hlen]
  apply slice_head_iff
  intro k hk
  have hold := Mem.cell_of_slice heui hk
  unfold storeTexts
  dsimp only
  rw [Mem.cell_store_of_ne (by omega), Mem.cell_store_of_ne (by omega), Mem.cell_store,
    Mem.cell_storeList_of_not_mem (by omega), Mem.cell_storeList_of_not_mem (by omega),
    Mem.cell_storeList_of_not_mem (by omega), hold]
  exact if_congr (by omega) rfl rfl

/-- Nothing is stored outside the entry. -/
theorem cell_storeTexts_of_not_mem (h : k < a ∨ a + sizeofNodeVs ≤ k) :
    (storeTexts a ind t).cell k = t.cell k := by
  have hvendor := ind.length_vendor
  have hmodel := ind.length_model
  have hversion := ind.length_version
  unfold sizeofNodeVs at h
  unfold storeTexts
  dsimp only
  rw [Mem.cell_store_of_ne (by omega), Mem.cell_store_of_ne (by omega),
    Mem.cell_store_of_ne (by omega), Mem.cell_storeList_of_not_mem (by omega),
    Mem.cell_storeList_of_not_mem (by omega), Mem.cell_storeList_of_not_mem (by omega)]

/-- A store in one entry keeps the EUI48 of the others. -/
theorem nodeEui48_of_others
    (h : ∀ k, k < sizeofNodeVs * i ∨ sizeofNodeVs * (i + 1) ≤ k → t'.cell k = t.cell k)
    (hne : j ≠ i) : nodeEui48 t' j = nodeEui48 t j := by
  apply Mem.slice_congr
  intro k hle hlt
  apply h
  unfold sizeofNodeVs at hle hlt ⊢
  omega

/-! ### One indication -/

/-- The texts are stored in an entry that has the EUI48 of their node already; no other one
has. -/
theorem storedAt_iff (hsame : ∀ k, k < sizeofNodeVs * i ∨ sizeofNodeVs * (i + 1) ≤ k →
      t'.cell k = t.cell k) (heui : nodeEui48 t' i = ind.pucEui48)
    (hothers : ∀ j < cliNumMaxNodeVs, j ≠ i → nodeEui48 t j ≠ ind.pucEui48) :
    StoredAt ind i t (storeTexts (sizeofNodeVs * i) ind t') ↔ TextsFit ind := by
  have hkept : ∀ k, k < sizeofNodeVs * i ∨ sizeofNodeVs * (i + 1) ≤ k →
      (storeTexts (sizeofNodeVs * i) ind t').cell k = t.cell k := by
    intro k hk
    rw [← hsame k hk]
    exact cell_storeTexts_of_not_mem (by omega)
  constructor
  · intro h
    exact ⟨slice_model_iff.mp h.model, slice_version_iff.mp h.version,
      (nodeEui48_storeTexts_iff heui).mp h.eui48⟩
  · rintro ⟨hmodel, hversion, hlast⟩
    refine ⟨(nodeEui48_storeTexts_iff heui).mpr hlast, ?_, slice_vendor,
      slice_model_iff.mpr hmodel, slice_version_iff.mpr hversion, hkept⟩
    intro j hj heq
    by_contra hne
    rw [nodeEui48_of_others hkept hne] at heq
    exact hothers j hj hne heq

/-- An entry that holds an indication for a new node is the one where the table has been
changed. -/
theorem StoredAt.eq_of_absent (h : StoredAt ind j t t') (hj : j < cliNumMaxNodeVs)
    (habsent : ¬ HasEntry t ind.pucEui48)
    (hsame : ∀ k, k < sizeofNodeVs * i ∨ sizeofNodeVs * (i + 1) ≤ k → t'.cell k = t.cell k) :
    j = i := by
  by_contra hne
  apply habsent
  refine ⟨j, hj, ?_⟩
  rw [← nodeEui48_of_others hsame hne]
  exact h.eui48

/-- The free entry before the texts are stored. -/
theorem nodeEui48_storeList :
    nodeEui48 (t.storeList (sizeofNodeVs * i + 96) ind.pucEui48) i = ind.pucEui48 := by
  unfold nodeEui48
  conv_lhs => rw [← ind.length_eui48]
  exact Mem.slice_storeList

theorem cell_storeEui48 (h : k < sizeofNodeVs * i ∨ sizeofNodeVs * (i + 1) ≤ k) :
    (t.storeList (sizeofNodeVs * i + 96) ind.pucEui48).cell k = t.cell k := by
  have hlen := ind.length_eui48
  unfold sizeofNodeVs at h ⊢
  exact Mem.cell_storeList_of_not_mem (by omega)

/-- Nobody else has the EUI48 of a new node. -/
theorem ne_of_absent (habsent : ¬ HasEntry t pucEui48) :
    ∀ j < cliNumMaxNodeVs, j ≠ i → nodeEui48 t j ≠ pucEui48 :=
  fun j hj _ heq => habsent ⟨j, hj, heq⟩

/-- The table and the file are right for a new node whose texts fit, and for no other one:
the file is not updated from an entry that is there already, and of a full table it is
updated from what is behind. -/
theorem versionLaw_iff : VersionLaw ind t ↔ NewNode ind t := by
  rcases fupVersionIndCb_cases ind t with
    ⟨i, hi, heui, heq⟩ | ⟨habsent, i, hi, hnull, heq⟩ | ⟨hfull, heq⟩
  · -- the entry is updated, and the callback returns
    refine iff_of_false (fun h => ?_) fun h => h.1 ⟨i, hi, heui⟩
    obtain ⟨j, -, -, hout⟩ := h.report.1 (Or.inl ⟨i, hi, heui⟩)
    rw [heq] at hout
    cases hout
  · have hroom : HasRoom ind t := Or.inr ⟨i, hi, hnull⟩
    have hsame : ∀ k, k < sizeofNodeVs * i ∨ sizeofNodeVs * (i + 1) ≤ k →
        (fupVersionIndCb ind t).1.cell k = t.cell k := by
      intro k hk
      have hmark : (t.storeList (sizeofNodeVs * i + 96) ind.pucEui48).cell k = t.cell k :=
        cell_storeEui48 hk
      rw [heq, ← hmark]
      exact cell_storeTexts_of_not_mem (by rw [Nat.mul_succ] at hk; exact hk)
    have hiff : StoredAt ind i t (fupVersionIndCb ind t).1 ↔ TextsFit ind := by
      rw [heq]
      exact storedAt_iff (fun k hk => cell_storeEui48 hk) nodeEui48_storeList
        (ne_of_absent habsent)
    constructor
    · intro h
      obtain ⟨j, hj, hstored⟩ := h.table.1 hroom
      obtain rfl := hstored.eq_of_absent hj habsent hsame
      exact ⟨habsent, ⟨j, hj, hnull⟩, hiff.mp hstored⟩
    · rintro ⟨-, -, hfit⟩
      have hstored := hiff.mpr hfit
      exact ⟨⟨fun _ => ⟨i, hi, hstored⟩, fun hno => absurd hroom hno⟩,
        ⟨fun _ => ⟨i, hi, hstored.eui48, by rw [heq]⟩, fun hno => absurd hroom hno⟩⟩
  · -- the pointer is behind the table
    refine iff_of_false (fun h => ?_) fun h => hfull (Or.inr h.2.1)
    have hlt := h.report.2 hfull cliNumMaxNodeVs (by rw [heq]; exact List.mem_singleton_self _)
    exact absurd hlt (lt_irrefl _)

/-! ### Runs -/

/-- As long as the texts fit, the table is right after every indication, and no two entries
are of one node. -/
theorem tableLaw_of_unique (hunique : UniqueNodes t) (hfit : TextsFit ind) :
    TableLaw ind t ∧ UniqueNodes (fupVersionIndCb ind t).1 := by
  -- the entry that has been changed is the only one of its node
  have hkey : ∀ i < cliNumMaxNodeVs, StoredAt ind i t (fupVersionIndCb ind t).1 →
      UniqueNodes (fupVersionIndCb ind t).1 := by
    intro i hi hstored j hj k hk heq hne
    by_cases hji : j = i
    · subst hji
      rw [hstored.eui48] at heq
      exact (hstored.unique k hk heq.symm).symm
    · by_cases hki : k = i
      · subst hki
        rw [hstored.eui48] at heq
        exact hstored.unique j hj heq
      · rw [nodeEui48_of_others hstored.others hji] at heq hne
        rw [nodeEui48_of_others hstored.others hki] at heq
        exact hunique j hj k hk heq hne
  rcases fupVersionIndCb_cases ind t with
    ⟨i, hi, heui, heq⟩ | ⟨habsent, i, hi, hnull, heq⟩ | ⟨hfull, heq⟩
  · have hstored : StoredAt ind i t (fupVersionIndCb ind t).1 := by
      rw [heq]
      refine (storedAt_iff (fun _ _ => rfl) heui fun j hj hne hj' => hne ?_).mpr hfit
      exact hunique j hj i hi (hj'.trans heui.symm) (by rw [hj']; exact ind.eui48_ne)
    exact ⟨⟨fun _ => ⟨i, hi, hstored⟩, fun hno => absurd (Or.inl ⟨i, hi, heui⟩) hno⟩,
      hkey i hi hstored⟩
  · have hstored : StoredAt ind i t (fupVersionIndCb ind t).1 := by
      rw [heq]
      exact (storedAt_iff (fun k hk => cell_storeEui48 hk) nodeEui48_storeList
        (ne_of_absent habsent)).mpr hfit
    exact ⟨⟨fun _ => ⟨i, hi, hstored⟩, fun hno => absurd (Or.inr ⟨i, hi, hnull⟩) hno⟩,
      hkey i hi hstored⟩
  · rw [heq]
    exact ⟨⟨fun hroom => absurd hroom hfull, fun _ => by rw [heq]⟩, hunique⟩

theorem uniqueNodes_zero (behind : ℕ → UInt8) : UniqueNodes (zeroNodesVersion behind) := by
  intro i hi j hj _ hne
  refine absurd ?_ hne
  refine Mem.slice_eq rfl fun k hk => ?_
  have hk6 : k < 6 := hk
  have hin : sizeofNodeVs * i + 96 + k < sizeofNodeVs * cliNumMaxNodeVs := by
    unfold sizeofNodeVs
    unfold cliNumMaxNodeVs at hi ⊢
    omega
  rw [show pucNullEui48[k] = 0 from List.getElem_replicate hk]
  exact if_pos hin

/-- **The table along a run.**  If the texts of all indications fit, every indication is in
the table afterwards for which there is room. -/
theorem alongSteps_tableLaw (behind : ℕ → UInt8) (hfit : ∀ ind ∈ inds, TextsFit ind) :
    AlongSteps stepVersion TableLaw inds (zeroNodesVersion behind) := by
  have hfits : AlongSteps stepVersion (fun ind _ => TextsFit ind) inds (zeroNodesVersion behind) :=
    alongSteps_of_forall hfit
  apply alongSteps_of_invariant hfits ?_ (uniqueNodes_zero behind)
  intro ind t ht hfit
  obtain ⟨hlaw, hnext⟩ := tableLaw_of_unique ht hfit
  refine ⟨hlaw, fun t' ht' => ?_⟩
  rwa [← Option.some.inj ht']

/-- Every indication of a run is handled as it should be exactly if each is for a node that
is not in the table, there is a free entry for it, and its texts fit. -/
theorem node_versions_law_iff (inds : List VersionInd) (behind : ℕ → UInt8) :
    AlongSteps stepVersion VersionLaw inds (zeroNodesVersion behind)
      ↔ AlongSteps stepVersion NewNode inds (zeroNodesVersion behind) :=
  alongSteps_congr (fun _ _ _ => versionLaw_iff) (fun _ _ _ _ _ _ => trivial) trivial

end NodeVersions

/-- An indication of three texts of one byte. -/
def smallInd (version : UInt8) : VersionInd where
  pucEui48 := [1, 2, 3, 4, 5, 6]
  pucVendor := [0x41]
  pucModel := [0x42]
  pucVersion := [version]
  length_eui48 := rfl
  eui48_ne := by decide
  length_vendor := by decide
  length_model := by decide
  length_version := by simp

/-- A node reports a new version: the table is updated and the file is not. -/
theorem node_version_not_reported : ¬ ∀ (inds : List VersionInd) (behind : ℕ → UInt8),
    AlongSteps stepVersion VersionLaw inds (zeroNodesVersion behind) := by
  intro hclaim
  obtain ⟨-, hrest⟩ := hclaim [smallInd 0x31, smallInd 0x32] fun _ => 0
  have hlaw := (hrest _ rfl).1
  have hentry : nodeEui48 (fupVersionIndCb (smallInd 0x31) (zeroNodesVersion fun _ => 0)).1 0
      = (smallInd 0x32).pucEui48 := by decide
  have hroom : HasRoom (smallInd 0x32)
      (fupVersionIndCb (smallInd 0x31) (zeroNodesVersion fun _ => 0)).1 :=
    Or.inl ⟨0, by decide, hentry⟩
  obtain ⟨i, -, -, hout⟩ := hlaw.report.1 hroom
  have hnone : (fupVersionIndCb (smallInd 0x32)
      (fupVersionIndCb (smallInd 0x31) (zeroNodesVersion fun _ => 0)).1).2 = [] := by decide
  rw [hnone] at hout
  cases hout

end Cli
