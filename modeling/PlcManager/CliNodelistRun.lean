/-
# The list of the nodes along a run

`View` is what the application is for, as far as the list goes: the nodes that are in the
file, what is known of the versions of the nodes, and whether an update of the list has been
asked for.  The application follows it through every run of confirms, indications, events and
commands, as long as the values that are confirmed have their size, the strings fit into their
fields and hold no newline, and no more nodes report their versions than the table has entries.

The file is updated at the first report of a node only, so the strings that are replaced in it
are empty, and what is read of it stays in its block.
-/
import PlcManager.CliCommands
import PlcManager.CliNodelist

namespace Cli

open XmlRep

/-! ## The view -/

/-- The strings of an indication. -/
def VersionInd.texts (ind : VersionInd) : NodeTexts where
  pucVendor := cString ind.pucVendor
  pucModel := cString ind.pucModel
  pucFwVersion := cString ind.pucVersion

/-- What an indication says of its node. -/
def VersionInd.vs (ind : VersionInd) : XCliNodeVs := ⟨ind.pucEui48, ind.texts, ind.length_eui48⟩

/-- What the application knows of the nodes. -/
structure View where
  /-- An update of the list has been asked for. -/
  asked : Bool
  /-- The nodes in the file, if there is one. -/
  listed : Option (List Entry)
  /-- The last versions of the nodes that have reported some. -/
  known : List UInt8 → Option NodeTexts

/-- The records of the list, `n` of them from `a` on. -/
def readNodes (pucBuff : Mem UInt8) : ℕ → ℕ → List XCliNodeReg
  | 0, _ => []
  | n + 1, a => readNode pucBuff a :: readNodes pucBuff n (a + sizeofNodeReg)

/-- What is known when an indication has been received. -/
def View.learn (ind : VersionInd) (v : View) : View where
  asked := v.asked
  -- the file learns of the first indication of a node only
  listed := if v.known ind.pucEui48 = none then v.listed.map (List.map (Entry.update ind.vs))
    else v.listed
  known := Function.update v.known ind.pucEui48 (some ind.texts)

/-- What is known when the list of the nodes has been received. -/
def View.list (opens : Bool) (regs : List XCliNodeReg) (v : View) : View :=
  if v.asked then
    { v with
      asked := false
      listed := if opens then some (regs.map fun r => ⟨r, v.known r.macAddr⟩) else v.listed }
  else v

/-- What is known after one call. -/
def View.step (v : View) : SystemEvent → View
  | .getCfm _ _ _ => v
  | .setCfm _ => v
  | .listGetCfm opens pucPibBuff usPibLen =>
      if usPibLen = 0 then v else v.list opens (readNodes pucPibBuff (rounds usPibLen) 0)
  | .networkEvent netEvent => { v with asked := v.asked || netEvent ≠ .alive }
  | .versionInd ind => v.learn ind
  | .callback _ bytes => { v with asked := v.asked || bytes.head? = some primeCmdUpdateNodeList }
  | .process message => { v with asked := v.asked || message = some primeCmdUpdateNodeList }

/-- At the start the list has been asked for, and nothing is known. -/
def View.init : View := ⟨true, none, fun _ => none⟩

/-- What is known after some calls. -/
def View.run (es : List SystemEvent) : View := es.foldl View.step View.init

/-- No strings. -/
def noTexts : NodeTexts := ⟨cString [], cString [], cString []⟩

/-- No string of the indication holds a newline. -/
def VersionInd.OneLine (ind : VersionInd) : Prop := ind.texts.OneLine

instance (ind : VersionInd) : Decidable ind.OneLine :=
  inferInstanceAs (Decidable ind.texts.OneLine)

/-! ## Strings in the table -/

/-- The string at `a`, which is in the field of 32 bytes but for its end. -/
def HoldsString (t : Mem UInt8) (a : ℕ) (x : CString) : Prop :=
  x.chars.length ≤ 32 ∧ t.slice a (x.chars.length + 1) = x.chars ++ [0]

/-- The strings of entry `i`. -/
structure HoldsTexts (t : Mem UInt8) (i : ℕ) (x : NodeTexts) : Prop where
  vendor : HoldsString t (sizeofNodeVs * i) x.pucVendor
  model : HoldsString t (sizeofNodeVs * i + 32) x.pucModel
  version : HoldsString t (sizeofNodeVs * i + 64) x.pucFwVersion

section Strings

variable {t t' : Mem UInt8} {a i : ℕ} {x : CString} {texts : NodeTexts} {xs : List UInt8}

theorem exists_cString_append_zero (xs : List UInt8) :
    ∃ r, xs ++ [0] = (cString xs).chars ++ 0 :: r := by
  induction xs with
  | nil => exact ⟨[], rfl⟩
  | cons b xs ih =>
      by_cases hb : b = 0
      · subst hb
        exact ⟨xs ++ [0], rfl⟩
      · obtain ⟨r, hr⟩ := ih
        refine ⟨r, ?_⟩
        have hcons : (cString (b :: xs)).chars = b :: (cString xs).chars := by
          simp [cString, hb]
        rw [hcons, List.cons_append, hr, List.cons_append]

theorem cString_append_zero (x : CString) (r : List UInt8) : cString (x.chars ++ 0 :: r) = x := by
  ext1
  show (x.chars ++ 0 :: r).takeWhile (· ≠ 0) = x.chars
  rw [List.takeWhile_append_of_pos]
  · rw [List.takeWhile_cons_of_neg (by simp), List.append_nil]
  · intro b hb
    exact decide_eq_true fun h0 => x.zero_not_mem (h0 ▸ hb)

/-- A text with a zero behind it is stored as a string, up to a zero that it holds itself. -/
theorem holdsString_of_slice (hlen : xs.length ≤ 32) (h : t.slice a (xs.length + 1) = xs ++ [0]) :
    HoldsString t a (cString xs) := by
  obtain ⟨r, hr⟩ := exists_cString_append_zero xs
  have hcount := congrArg List.length hr
  simp only [List.length_append, List.length_cons, List.length_nil] at hcount
  refine ⟨by omega, ?_⟩
  have htake := congrArg (List.take ((cString xs).chars.length + 1)) (h.trans hr)
  rw [Mem.take_slice (by omega)] at htake
  rw [htake, List.take_append, List.take_of_length_le (by omega)]
  simp

theorem HoldsString.congr (h : HoldsString t a x)
    (hsame : ∀ k, a ≤ k → k < a + 33 → t'.cell k = t.cell k) : HoldsString t' a x := by
  refine ⟨h.1, ?_⟩
  have hlen := h.1
  rw [← h.2]
  exact Mem.slice_congr fun k hk hlt => hsame k hk (by omega)

/-- The string that is printed from an entry is the one the entry holds. -/
theorem HoldsString.tableString_eq (h : HoldsString t a x)
    (ha : a + 33 ≤ sizeofNodeVs * (cliNumMaxNodeVs + 1)) : tableString t a = x := by
  have hlen := h.1
  have hsplit : sizeofNodeVs * (cliNumMaxNodeVs + 1) - a = x.chars.length + 1
      + (sizeofNodeVs * (cliNumMaxNodeVs + 1) - a - (x.chars.length + 1)) := by omega
  unfold tableString
  rw [hsplit, Mem.slice_add, h.2, List.append_assoc]
  exact cString_append_zero x _

theorem HoldsTexts.nodeTexts_eq (h : HoldsTexts t i texts) (hi : i < cliNumMaxNodeVs) :
    nodeTexts t i = texts := by
  have hroom : sizeofNodeVs * i + 64 + 33 ≤ sizeofNodeVs * (cliNumMaxNodeVs + 1) := by
    unfold sizeofNodeVs
    unfold cliNumMaxNodeVs at hi ⊢
    omega
  unfold nodeTexts
  rw [h.vendor.tableString_eq (by omega), h.model.tableString_eq (by omega),
    h.version.tableString_eq hroom]

theorem HoldsTexts.congr (h : HoldsTexts t i texts) (hsame : ∀ k, sizeofNodeVs * i ≤ k →
    k < sizeofNodeVs * (i + 1) → t'.cell k = t.cell k) : HoldsTexts t' i texts := by
  have hsize : sizeofNodeVs * (i + 1) = sizeofNodeVs * i + 102 := Nat.mul_succ _ _
  constructor
  · exact h.vendor.congr fun k hk hlt => hsame k (by omega) (by omega)
  · exact h.model.congr fun k hk hlt => hsame k (by omega) (by omega)
  · exact h.version.congr fun k hk hlt => hsame k (by omega) (by omega)

/-- An indication that is stored in an entry is what the entry holds. -/
theorem StoredAt.holdsTexts {ind : VersionInd} (h : StoredAt ind i t t') :
    HoldsTexts t' i ind.texts :=
  ⟨holdsString_of_slice ind.length_vendor h.vendor, holdsString_of_slice ind.length_model h.model,
    holdsString_of_slice ind.length_version h.version⟩

end Strings

/-! ## The table and what is known -/

/-- The table holds what is known, an entry for every node. -/
structure TableKnown (t : Mem UInt8) (known : List UInt8 → Option NodeTexts) : Prop where
  unique : UniqueNodes t
  stored : ∀ i < cliNumMaxNodeVs, HoldsTexts t i ((known (nodeEui48 t i)).getD noTexts)
  hasEntry : ∀ eui48, known eui48 ≠ none → HasEntry t eui48
  isKnown : ∀ i < cliNumMaxNodeVs, nodeEui48 t i ≠ pucNullEui48 → known (nodeEui48 t i) ≠ none
  null : known pucNullEui48 = none

section Table

variable {t : Mem UInt8} {known : List UInt8 → Option NodeTexts} {ind : VersionInd}
  {macAddr : List UInt8} {i : ℕ}

theorem TableKnown.hasEntry_iff (h : TableKnown t known) :
    HasEntry t ind.pucEui48 ↔ known ind.pucEui48 ≠ none := by
  constructor
  · rintro ⟨i, hi, heq⟩
    rw [← heq]
    exact h.isKnown i hi (by rw [heq]; exact ind.eui48_ne)
  · exact h.hasEntry _

/-- The entry an indication is stored in: the one of the node, or else a free one, and then
the file is updated from it. -/
theorem exists_storedAt (hunique : UniqueNodes t) (hfit : TextsFit ind) (hroom : HasRoom ind t) :
    ∃ i < cliNumMaxNodeVs, StoredAt ind i t (fupVersionIndCb ind t).1
      ∧ ((HasEntry t ind.pucEui48 ∧ nodeEui48 t i = ind.pucEui48 ∧ (fupVersionIndCb ind t).2 = [])
        ∨ (¬ HasEntry t ind.pucEui48 ∧ nodeEui48 t i = pucNullEui48
          ∧ (fupVersionIndCb ind t).2 = [i])) := by
  obtain ⟨j, hj, hstored⟩ := (tableLaw_of_unique hunique hfit).1.1 hroom
  rcases fupVersionIndCb_cases ind t with
    ⟨i, hi, heui, heq⟩ | ⟨habsent, i, hi, hnull, heq⟩ | ⟨hfull, -⟩
  · have hij : i = j := by
      by_contra hne
      exact hne (hstored.unique i hi ((nodeEui48_of_others hstored.others hne).trans heui))
    subst hij
    exact ⟨i, hi, hstored, Or.inl ⟨⟨i, hi, heui⟩, heui, congrArg Prod.snd heq⟩⟩
  · have hij : j = i := by
      refine hstored.eq_of_absent hj habsent fun k hk => ?_
      have hmark : (t.storeList (sizeofNodeVs * i + 96) ind.pucEui48).cell k = t.cell k :=
        cell_storeEui48 hk
      rw [heq, ← hmark]
      exact cell_storeTexts_of_not_mem (by rw [Nat.mul_succ] at hk; exact hk)
    subst hij
    exact ⟨j, hj, hstored, Or.inr ⟨habsent, hnull, congrArg Prod.snd heq⟩⟩
  · exact absurd hroom hfull

/-- **The indication is known.**  What is known after it is what the table holds then. -/
theorem TableKnown.learn (h : TableKnown t known) (hfit : TextsFit ind) (hroom : HasRoom ind t) :
    TableKnown (fupVersionIndCb ind t).1
      (Function.update known ind.pucEui48 (some ind.texts)) := by
  have hunique := (tableLaw_of_unique h.unique hfit).2
  obtain ⟨i, hi, hstored, hentry⟩ := exists_storedAt h.unique hfit hroom
  generalize (fupVersionIndCb ind t).1 = t' at hunique hstored ⊢
  have hother : ∀ j, j ≠ i → nodeEui48 t' j = nodeEui48 t j :=
    fun j hj => nodeEui48_of_others hstored.others hj
  have hne : ∀ j < cliNumMaxNodeVs, j ≠ i → nodeEui48 t j ≠ ind.pucEui48 := by
    intro j hj hji heq
    exact hji (hstored.unique j hj ((hother j hji).trans heq))
  constructor
  · exact hunique
  · intro j hj
    by_cases hji : j = i
    · subst hji
      rw [hstored.eui48, Function.update_self]
      exact hstored.holdsTexts
    · rw [hother j hji, Function.update_of_ne (hne j hj hji)]
      refine (h.stored j hj).congr fun k hk hlt => hstored.others k ?_
      have hmul : ∀ m, sizeofNodeVs * (m + 1) = sizeofNodeVs * m + sizeofNodeVs :=
        fun m => Nat.mul_succ _ _
      rcases Nat.lt_or_gt_of_ne hji with hlti | hgti
      · exact Or.inl (lt_of_lt_of_le hlt (Nat.mul_le_mul_left _ hlti))
      · exact Or.inr (le_trans (Nat.mul_le_mul_left _ hgti) hk)
  · intro eui48 hknown
    by_cases heq : eui48 = ind.pucEui48
    · exact ⟨i, hi, hstored.eui48.trans heq.symm⟩
    · rw [Function.update_of_ne heq] at hknown
      obtain ⟨j, hj, hj48⟩ := h.hasEntry eui48 hknown
      by_cases hji : j = i
      · -- the entry was the one of the node, or it was free
        subst hji
        rcases hentry with ⟨-, heui, -⟩ | ⟨-, hnull, -⟩
        · exact absurd (hj48.symm.trans heui) heq
        · rw [← hj48, hnull] at hknown
          exact absurd h.null hknown
      · exact ⟨j, hj, (hother j hji).trans hj48⟩
  · intro j hj hnull
    by_cases hji : j = i
    · subst hji
      rw [hstored.eui48, Function.update_self]
      exact Option.some_ne_none _
    · rw [hother j hji] at hnull ⊢
      rw [Function.update_of_ne (hne j hj hji)]
      exact h.isKnown j hj hnull
  · rw [Function.update_of_ne (Ne.symm ind.eui48_ne)]
    exact h.null

/-- The first entry of a node, as it is printed. -/
theorem TableKnown.shown_find (h : TableKnown t known) {reg : XCliNodeReg} :
    (⟨reg, (findNodeVs t reg.macAddr).map (nodeTexts t)⟩ : Entry).shown
      = (⟨reg, known reg.macAddr⟩ : Entry).shown := by
  cases hfind : findNodeVs t reg.macAddr with
  | none =>
      have habsent : known reg.macAddr = none := by
        by_contra hknown
        obtain ⟨i, hi, heq⟩ := h.hasEntry _ hknown
        exact List.find?_eq_none.mp hfind i (List.mem_range.mpr hi) (decide_eq_true heq)
      rw [habsent]
      rfl
  | some i =>
      have heq : nodeEui48 t i = reg.macAddr := by
        have hsome := List.find?_some hfind
        exact of_decide_eq_true hsome
      have hi : i < cliNumMaxNodeVs := List.mem_range.mp (List.mem_of_find?_eq_some hfind)
      have htexts := (h.stored i hi).nodeTexts_eq hi
      rw [heq] at htexts
      rw [Option.map_some, htexts]
      -- an entry without strings and no entry are printed in the same way
      cases known reg.macAddr <;> rfl

/-- The strings that are printed from the table are known, or empty. -/
theorem TableKnown.short_find (h : TableKnown t known)
    (hshort : ∀ eui48, ∀ x ∈ known eui48, x.Short) {x : NodeTexts}
    (hx : x ∈ (findNodeVs t macAddr).map (nodeTexts t)) : x.Short := by
  obtain ⟨i, hfind, rfl⟩ := Option.mem_map.mp hx
  have hi : i < cliNumMaxNodeVs := List.mem_range.mp (List.mem_of_find?_eq_some hfind)
  rw [(h.stored i hi).nodeTexts_eq hi]
  cases hknown : known (nodeEui48 t i) with
  | none => exact ⟨Nat.zero_le _, Nat.zero_le _, Nat.zero_le _⟩
  | some x => exact hshort _ x hknown

theorem tableKnown_zero (behind : ℕ → UInt8) :
    TableKnown (zeroNodesVersion behind) fun _ => none := by
  have hcell : ∀ k, k < sizeofNodeVs * cliNumMaxNodeVs → (zeroNodesVersion behind).cell k = 0 :=
    fun k hk => if_pos hk
  have hin : ∀ i < cliNumMaxNodeVs,
      sizeofNodeVs * i + sizeofNodeVs ≤ sizeofNodeVs * cliNumMaxNodeVs := by
    intro i hi
    rw [← Nat.mul_succ]
    exact Nat.mul_le_mul_left _ hi
  have hsize : sizeofNodeVs = 102 := rfl
  have hempty : ∀ a, a < sizeofNodeVs * cliNumMaxNodeVs →
      HoldsString (zeroNodesVersion behind) a (cString []) := by
    intro a ha
    refine ⟨Nat.zero_le _, ?_⟩
    show [(zeroNodesVersion behind).cell a] = [0]
    rw [hcell a ha]
  constructor
  · exact uniqueNodes_zero behind
  · intro i hi
    have hlt := hin i hi
    exact ⟨hempty _ (by omega), hempty _ (by omega), hempty _ (by omega)⟩
  · intro eui48 hknown
    exact absurd rfl hknown
  · intro i hi hne
    refine absurd ?_ hne
    refine Mem.slice_eq rfl fun k hk => ?_
    have hk6 : k < 6 := hk
    have hlt := hin i hi
    rw [show pucNullEui48[k] = 0 from List.getElem_replicate hk]
    exact hcell _ (by omega)
  · rfl

/-- As long as no more nodes than there are entries are known of, there is room. -/
theorem TableKnown.hasRoom (h : TableKnown t known) {seen : Finset (List UInt8)}
    (hseen : ∀ eui48, known eui48 ≠ none → eui48 ∈ seen) (hind : ind.pucEui48 ∈ seen)
    (hcard : seen.card ≤ cliNumMaxNodeVs) : HasRoom ind t := by
  by_contra hno
  have habsent : ¬ HasEntry t ind.pucEui48 := fun hentry => hno (Or.inl hentry)
  have hnull : ∀ i < cliNumMaxNodeVs, nodeEui48 t i ≠ pucNullEui48 :=
    fun i hi heq => hno (Or.inr ⟨i, hi, heq⟩)
  -- the nodes of the entries, and the new one
  have hmaps : ∀ i ∈ Finset.range cliNumMaxNodeVs, nodeEui48 t i ∈ seen.erase ind.pucEui48 := by
    intro i hi
    rw [Finset.mem_range] at hi
    exact Finset.mem_erase.mpr ⟨fun heq => habsent ⟨i, hi, heq⟩,
      hseen _ (h.isKnown i hi (hnull i hi))⟩
  have hinj : Set.InjOn (nodeEui48 t) (Finset.range cliNumMaxNodeVs) := by
    intro i hi j hj heq
    rw [Finset.coe_range, Set.mem_Iio] at hi hj
    exact h.unique i hi j hj heq (hnull i hi)
  have hle := Finset.card_le_card_of_injOn _ hmaps hinj
  rw [Finset.card_range, Finset.card_erase_of_mem hind] at hle
  have hpos : 0 < seen.card := Finset.card_pos.mpr ⟨_, hind⟩
  omega

end Table

/-! ## One call -/

/-- A print that leaves its array: the head of the list, or the version of the base node if it
is longer than 20 characters. -/
def Overflowing (p : Sprintf) : Prop :=
  p = openPrint ∨ ∃ fwVersion : List UInt8, 20 < fwVersion.length
    ∧ p = ⟨50, element "fw_version" fwVersion⟩

/-- The application follows the view. -/
structure Follows (s : System) (v : View) : Prop where
  asked : s.cli.sbUpdateToXml = v.asked
  file : s.files.nodelistEnd = v.listed.map nodelist
  table : TableKnown s.sxCliNodesVersion v.known
  known : ∀ eui48, ∀ x ∈ v.known eui48, Printable x
  listed : ∀ es ∈ v.listed, ∀ e ∈ es, ∀ x ∈ e.texts, Printable x
  unknown : ∀ es ∈ v.listed, ∀ e ∈ es, v.known e.reg.macAddr = none → e.texts = none
  prints : ∀ p ∈ s.files.sprintfs, p.Fits ∨ Overflowing p
  reads : ∀ r ∈ s.files.getlines, r.Fits

section Step

variable {g : Growth} {s : System} {v : View} {ind : VersionInd} {f : Files} {cli : State}
  {out : Output}

theorem overflowing_iff {p : Sprintf} (h : p.Fits ∨ Overflowing p) :
    ¬ p.Fits ↔ Overflowing p := by
  refine ⟨fun hno => h.resolve_left hno, ?_⟩
  rintro (rfl | ⟨fwVersion, hlong, rfl⟩)
  · exact not_fits_openPrint
  · rw [fits_element, show (text "fw_version").length = 10 from rfl]
    omega

/-- The prints of the file about the base node. -/
theorem fits_or_overflowing_infoPrints {usVendorId usProductId : UInt16}
    {fwVersion macAddr : List UInt8} (hmac : macAddr.length = 6) :
    ∀ p ∈ infoPrints usVendorId usProductId fwVersion macAddr, p.Fits ∨ Overflowing p := by
  simp only [infoPrints, List.forall_mem_cons, List.not_mem_nil, false_imp_iff, implies_true,
    and_true]
  refine ⟨Or.inl (by decide), Or.inl ?_, Or.inl ?_, Or.inl ?_, ?_, Or.inl (by decide)⟩
  · rw [macLine, fits_element, length_flatMap_fmt02x, hmac]
    exact (by decide : 2 * 6 + 2 * 3 + 9 < 50)
  · rw [fits_element]
    exact (by decide : 6 + 2 * 9 + 9 < 50)
  · rw [fits_element]
    exact (by decide : 6 + 2 * 10 + 9 < 50)
  · rcases Nat.lt_or_ge 20 (cString (fwVersion ++ macAddr)).chars.length with hlong | hshort
    · exact Or.inr (Or.inr ⟨_, hlong, rfl⟩)
    · left
      rw [fits_element, show (text "fw_version").length = 10 from rfl]
      omega

theorem VersionInd.short_texts : ind.texts.Short := by
  have hle : ∀ xs : List UInt8, (cString xs).chars.length ≤ xs.length :=
    fun xs => (List.takeWhile_prefix _).length_le
  exact ⟨le_trans (hle _) (le_trans ind.length_vendor (by decide)),
    le_trans (hle _) (le_trans ind.length_model (by decide)),
    le_trans (hle _) (le_trans ind.length_version (by decide))⟩

/-- The records are added one after the other. -/
theorem addNodes_eq {t pucBuff : Mem UInt8} {n a : ℕ} : addNodes t pucBuff n a f
    = f.writeTmp (((readNodes pucBuff n a).map fun r =>
        (⟨r, (findNodeVs t r.macAddr).map (nodeTexts t)⟩ : Entry)).flatMap Entry.prints) := by
  induction n generalizing a f with
  | zero =>
      show f = _
      cases f with
      | mk tmp fend info prints reads =>
          cases tmp <;> simp [Files.writeTmp, readNodes, written]
  | succ n ih =>
      rw [addNodes, ih, xmlRepAddNode, Files.writeTmp_writeTmp]
      rfl

/-- A call that does not touch the list. -/
theorem Follows.congr (h : Follows s v) (hasked : cli.sbUpdateToXml = s.cli.sbUpdateToXml) :
    Follows { s with cli := cli } v :=
  ⟨hasked.trans h.asked, h.file, h.table, h.known, h.listed, h.unknown, h.prints, h.reads⟩

/-- A call that asks for the list, or does not. -/
theorem Follows.ask (h : Follows s v) {b : Bool}
    (hasked : cli.sbUpdateToXml = (s.cli.sbUpdateToXml || b)) :
    Follows { s with cli := cli } { v with asked := v.asked || b } :=
  ⟨by rw [hasked, h.asked], h.file, h.table, h.known, h.listed, h.unknown, h.prints, h.reads⟩

/-- **The list is received.** -/
theorem Follows.list (h : Follows s v) (opens : Bool) (pucPibBuff : Mem UInt8) (usPibLen : ℕ) :
    Follows (primeClNullMlmeListGetCfmCb opens pucPibBuff usPibLen s).1
      (v.step (.listGetCfm opens pucPibBuff usPibLen)) := by
  have hviewAsked := h.asked
  unfold primeClNullMlmeListGetCfmCb
  rw [View.step, View.list]
  by_cases hlen : usPibLen = 0
  · rw [if_pos hlen, if_pos hlen]
    exact h
  rw [if_neg hlen, if_neg hlen]
  by_cases hasked : s.cli.sbUpdateToXml = true
  · rw [hasked] at hviewAsked
    rw [if_pos hasked, if_pos hviewAsked.symm]
    cases opens with
    | false =>
        refine ⟨rfl, h.file, h.table, h.known, h.listed, h.unknown, ?_, h.reads⟩
        show ∀ p ∈ s.files.sprintfs ++ [openPrint], p.Fits ∨ Overflowing p
        rw [List.forall_mem_append, List.forall_mem_singleton]
        exact ⟨h.prints, Or.inr (Or.inl rfl)⟩
    | true =>
        simp only [if_true, addNodes_eq, close_writeTmp_open]
        generalize readNodes pucPibBuff (rounds usPibLen) 0 = regs
        refine ⟨rfl, ?_, h.table, h.known, ?_, ?_, ?_, h.reads⟩
        · refine congrArg some (nodelist_congr ?_)
          rw [List.map_map, List.map_map]
          exact List.map_congr_left fun reg _ => h.table.shown_find
        · intro es hes e he x hx
          obtain rfl := Option.some.inj hes
          obtain ⟨reg, -, rfl⟩ := List.mem_map.mp he
          exact h.known _ x hx
        · intro es hes e he hnone
          obtain rfl := Option.some.inj hes
          obtain ⟨reg, -, rfl⟩ := List.mem_map.mp he
          exact hnone
        · simp only [List.cons_append, List.forall_mem_append, List.forall_mem_cons,
            List.not_mem_nil, false_imp_iff, implies_true, and_true]
          refine ⟨h.prints, Or.inr (Or.inl rfl), fun p hp => ?_, Or.inl (by decide)⟩
          -- the strings of an entry are known, or empty
          obtain ⟨e, he, hpe⟩ := List.mem_flatMap.mp hp
          obtain ⟨reg, -, rfl⟩ := List.mem_map.mp he
          refine Or.inl (fits_nodePrints_iff.mpr (fun x hx => ?_) p hpe)
          exact h.table.short_find (fun eui48 x hx => (h.known eui48 x hx).2) hx
  · rw [if_neg hasked, if_neg (hviewAsked ▸ hasked)]
    exact h

/-- What is not known after a report was not known before, and is not the node that reported. -/
theorem known_of_update {known : List UInt8 → Option NodeTexts} {eui48 macAddr : List UInt8}
    {x : NodeTexts} (h : Function.update known eui48 (some x) macAddr = none) :
    macAddr ≠ eui48 ∧ known macAddr = none := by
  have hne : macAddr ≠ eui48 := by
    rintro rfl
    rw [Function.update_self] at h
    cases h
  rw [Function.update_of_ne hne] at h
  exact ⟨hne, h⟩

/-- An entry without known versions has no strings, after a report as before. -/
theorem unknown_update {known : List UInt8 → Option NodeTexts} {e : Entry}
    (h : known e.reg.macAddr = none → e.texts = none) :
    Function.update known ind.pucEui48 (some ind.texts) (e.update ind.vs).reg.macAddr = none →
      (e.update ind.vs).texts = none := by
  intro hnone
  have hreg : (e.update ind.vs).reg = e.reg := by
    unfold Entry.update
    split_ifs <;> rfl
  rw [hreg] at hnone
  obtain ⟨hne, hold⟩ := known_of_update hnone
  have hkept : e.update ind.vs = e := Entry.update_of_ne hne
  rw [hkept]
  exact h hold

/-- The strings that are known after a report can be printed. -/
theorem Follows.printable_known (h : Follows s v) (hline : ind.OneLine) :
    ∀ eui48, ∀ x ∈ Function.update v.known ind.pucEui48 (some ind.texts) eui48, Printable x := by
  intro eui48 x hx
  by_cases heq : eui48 = ind.pucEui48
  · subst heq
    rw [Function.update_self] at hx
    obtain rfl := Option.some.inj hx
    exact ⟨hline, ind.short_texts⟩
  · rw [Function.update_of_ne heq] at hx
    exact h.known eui48 x hx

/-- The entry that has been filled is the report. -/
theorem StoredAt.nodeVs_eq {t t' : Mem UInt8} {i : ℕ} (h : StoredAt ind i t t')
    (hi : i < cliNumMaxNodeVs) : nodeVs t' i = ind.vs := by
  have hnode := h.holdsTexts.nodeTexts_eq hi
  have heui := h.eui48
  unfold nodeVs VersionInd.vs
  simp only [hnode, heui]

/-- The list in the file gets the strings of a node that had none, and all that is printed and
read on the way stays inside its array or block. -/
theorem Follows.file_learn (h : Follows s v) (hline : ind.OneLine)
    (hnew : v.known ind.pucEui48 = none) :
    (xmlRepUpdateNodeVersion g ind.vs s.files).nodelistEnd
        = (v.listed.map (List.map (Entry.update ind.vs))).map nodelist
      ∧ (∀ p ∈ (xmlRepUpdateNodeVersion g ind.vs s.files).sprintfs, p.Fits ∨ Overflowing p)
      ∧ ∀ r ∈ (xmlRepUpdateNodeVersion g ind.vs s.files).getlines, r.Fits := by
  have hfile := h.file
  cases hlisted : v.listed with
  | none =>
      rw [hlisted] at hfile
      have hsame : xmlRepUpdateNodeVersion g ind.vs s.files = s.files := by
        unfold xmlRepUpdateNodeVersion
        rw [hfile]
        rfl
      rw [hsame]
      exact ⟨hfile, h.prints, h.reads⟩
  | some es =>
      rw [hlisted] at hfile
      have hes := h.listed es hlisted
      obtain ⟨reads, hupdate, hreads⟩ :=
        update_nodelist g ind.vs (fun e he x hx => (hes e he x hx).1) hfile
      rw [hupdate]
      refine ⟨rfl, ?_, ?_⟩
      · have htexts : Printable ind.vs.texts := ⟨hline, ind.short_texts⟩
        rw [List.forall_mem_append]
        refine ⟨h.prints, fun p hp => Or.inl (fits_updatePrints _ ?_ p hp)⟩
        exact List.forall_mem_map.mpr fun e he x hx => (printable_update (hes e he) htexts x hx).2
      · rw [List.forall_mem_append]
        -- the node is new, so its strings in the file are empty
        refine ⟨h.reads, hreads fun e he heui => Entry.room_of_none ?_⟩
        apply h.unknown es hlisted e he
        rw [heui]
        exact hnew

/-- **The versions of a node are received.** -/
theorem Follows.learn (h : Follows s v) (hfit : TextsFit ind) (hline : ind.OneLine)
    (hroom : HasRoom ind s.sxCliNodesVersion) : Follows (fupVersionInd g ind s) (v.learn ind) := by
  have htable := h.table.learn hfit hroom
  have hknown := h.printable_known hline
  obtain ⟨i, hi, hstored, hentry⟩ := exists_storedAt h.table.unique hfit hroom
  unfold fupVersionInd View.learn
  generalize fupVersionIndCb ind s.sxCliNodesVersion = r at htable hstored hentry ⊢
  dsimp only
  rcases hentry with ⟨hhas, -, hout⟩ | ⟨habsent, -, hout⟩
  · -- the file is left as it is
    rw [if_neg (h.table.hasEntry_iff.mp hhas), hout]
    refine ⟨h.asked, h.file, htable, hknown, h.listed, fun es hes e he hnone => ?_, h.prints,
      h.reads⟩
    exact h.unknown es hes e he (known_of_update hnone).2
  · have hnew : v.known ind.pucEui48 = none := by
      by_contra hne
      exact habsent (h.table.hasEntry_iff.mpr hne)
    rw [if_pos hnew, hout, List.foldl_cons, List.foldl_nil, hstored.nodeVs_eq hi]
    obtain ⟨hfile, hprints, hreads⟩ := h.file_learn (g := g) hline hnew
    refine ⟨h.asked, hfile, htable, hknown, ?_, ?_, hprints, hreads⟩
    · intro es' hes'
      obtain ⟨es, hes, rfl⟩ := Option.map_eq_some_iff.mp hes'
      exact List.forall_mem_map.mpr fun e he =>
        printable_update (h.listed es hes e he) ⟨hline, ind.short_texts⟩
    · intro es' hes'
      obtain ⟨es, hes, rfl⟩ := Option.map_eq_some_iff.mp hes'
      exact List.forall_mem_map.mpr fun e he => unknown_update (h.unknown es hes e he)

theorem sbUpdateToXml_getCfm {xStatus : UInt8} {usPibAttrib : UInt16} {pvPibValue : List UInt8} :
    (primeClNullMlmeGetCfmCb xStatus usPibAttrib pvPibValue cli).1.sbUpdateToXml
      = cli.sbUpdateToXml := by
  have hstore : (storePib usPibAttrib pvPibValue cli).sbUpdateToXml = cli.sbUpdateToXml := by
    unfold storePib
    dsimp only
    split_ifs <;> rfl
  unfold primeClNullMlmeGetCfmCb
  dsimp only
  split_ifs
  · rfl
  · exact hstore
  · exact hstore

theorem sbUpdateToXml_networkEvent {netEvent : BmngEvent} :
    (networkEventIndCb netEvent cli).1.sbUpdateToXml
      = (cli.sbUpdateToXml || decide (netEvent ≠ .alive)) := by
  cases netEvent with
  | alive => exact (Bool.or_false _).symm
  | _ => exact (Bool.or_true _).symm

theorem sbUpdateToXml_callback {fd : ℤ} {bytes : List UInt8} (hne : bytes ≠ []) :
    (cliCallback fd bytes cli).1.sbUpdateToXml
      = (cli.sbUpdateToXml || decide (bytes.head? = some primeCmdUpdateNodeList)) := by
  have hcmd : (cli.sucCliRcvBuf.storeList 0 bytes).cell 0 = bytes.getD 0 0 := cell_command hne
  obtain ⟨cmd, rest, rfl⟩ := List.exists_cons_of_ne_nil hne
  unfold cliCallback cliRcvCmd
  dsimp only
  rw [hcmd]
  show State.sbUpdateToXml (if cmd = primeCmdMlmeGetPib then _ else
    if cmd = primeCmdMlmeSetPib then _ else if cmd = primeCmdUpdateNodeList then _ else _ : State
      × List Output).1 = _
  split_ifs with hget hset hlist
  · subst hget
    exact (Bool.or_false _).symm
  · subst hset
    exact (Bool.or_false _).symm
  · subst hlist
    exact (Bool.or_true _).symm
  · have hhead : decide ((cmd :: rest).head? = some primeCmdUpdateNodeList) = false :=
      decide_eq_false fun heq => hlist (Option.some.inj heq)
    rw [hhead, Bool.or_false]

theorem sbUpdateToXml_process {message : Option UInt8} :
    (cliProcess message cli).1.sbUpdateToXml
      = (cli.sbUpdateToXml || decide (message = some primeCmdUpdateNodeList)) := by
  have hinfo : (cliProcessInfo cli).1.sbUpdateToXml = cli.sbUpdateToXml := by
    unfold cliProcessInfo
    cases cli.sucInfoStatus <;> rfl
  rw [← hinfo]
  show (cliProcessMessage message (cliProcessInfo cli).1).1.sbUpdateToXml = _
  unfold cliProcessMessage
  split_ifs with hlist hversions
  · subst hlist
    exact (Bool.or_true _).symm
  · subst hversions
    exact (Bool.or_false _).symm
  · rw [decide_eq_false hlist, Bool.or_false]

/-- The outputs of a request are nothing to the files. -/
theorem foldl_writeFile_message {message : Option UInt8} :
    (cliProcessMessage message cli).2.foldl writeFile f = f := by
  unfold cliProcessMessage
  split_ifs <;> rfl

/-- Of the outputs of `cli_process` only the file about the base node is written. -/
theorem foldl_writeFile_process (message : Option UInt8) (cli : Cli.State) (f : Files) :
    (cliProcess message cli).2.foldl writeFile f = f
      ∨ ∃ usVendorId usProductId fwVersion macAddr, macAddr.length = 6
        ∧ (cliProcess message cli).2.foldl writeFile f
          = xmlRepPrimeInfo usVendorId usProductId fwVersion macAddr f := by
  have hfold : (cliProcess message cli).2.foldl writeFile f
      = (cliProcessInfo cli).2.foldl writeFile f := by
    show ((cliProcessInfo cli).2 ++ (cliProcessMessage message (cliProcessInfo cli).1).2).foldl
      writeFile f = _
    rw [List.foldl_append, foldl_writeFile_message]
  rw [hfold]
  unfold cliProcessInfo
  cases cli.sucInfoStatus with
  | createFile =>
      exact Or.inr ⟨cli.sxPrimeInfo.usVendorId, cli.sxPrimeInfo.usProductId,
        cli.sxPrimeInfo.fwVersion, cli.sxPrimeInfo.macAddr, Mem.length_slice, rfl⟩
  | _ => exact Or.inl rfl

/-- What an indication may bring: the strings fit and hold no newline, and there is room for
them. -/
def SystemEvent.Sound (t : Mem UInt8) : SystemEvent → Prop
  | .versionInd ind => TextsFit ind ∧ ind.OneLine ∧ HasRoom ind t
  | _ => True

/-- **One call.** -/
theorem Follows.step (h : Follows s v) {e : SystemEvent} (he : e.Sound s.sxCliNodesVersion) :
    Follows (systemStep g s e).1 (v.step e) := by
  cases e with
  | getCfm xStatus usPibAttrib pvPibValue => exact h.congr sbUpdateToXml_getCfm
  | setCfm xResult => exact h
  | listGetCfm opens pucPibBuff usPibLen => exact h.list opens pucPibBuff usPibLen
  | networkEvent netEvent => exact h.ask sbUpdateToXml_networkEvent
  | versionInd ind => exact h.learn he.1 he.2.1 he.2.2
  | callback fd bytes =>
      by_cases hne : bytes = []
      · subst hne
        have hsame : v.step (.callback fd []) = v := by
          show ({ v with asked := v.asked || false } : View) = v
          rw [Bool.or_false]
        rw [hsame]
        exact h.congr rfl
      · show Follows (if bytes = [] then _ else _ : System × List Output).1 _
        rw [if_neg hne]
        exact h.ask (sbUpdateToXml_callback hne)
  | process message =>
      have hasked : Follows { s with cli := (cliProcess message s.cli).1 } _ :=
        h.ask sbUpdateToXml_process
      rcases foldl_writeFile_process message s.cli s.files with
        hsame | ⟨usVendorId, usProductId, fwVersion, macAddr, hmac, hfile⟩
      · show Follows { s with cli := _, files := (cliProcess message s.cli).2.foldl _ _ } _
        rw [hsame]
        exact hasked
      · show Follows { s with cli := _, files := (cliProcess message s.cli).2.foldl _ _ } _
        rw [hfile]
        refine ⟨hasked.asked, h.file, h.table, h.known, h.listed, h.unknown, ?_, h.reads⟩
        show ∀ p ∈ s.files.sprintfs ++ infoPrints usVendorId usProductId fwVersion macAddr, _
        rw [List.forall_mem_append]
        exact ⟨h.prints, fits_or_overflowing_infoPrints hmac⟩

end Step

/-! ## Runs -/

/-- The indication that a call brings. -/
def SystemEvent.versionInd? : SystemEvent → Option VersionInd
  | .versionInd ind => some ind
  | _ => none

/-- The indications of the versions. -/
def versionInds (es : List SystemEvent) : List VersionInd := es.filterMap SystemEvent.versionInd?

/-- The nodes that report their versions. -/
def reporting (es : List SystemEvent) : Finset (List UInt8) :=
  ((versionInds es).map VersionInd.pucEui48).toFinset

/-- The value of a confirm has the size of its attribute, and what a client sends fits the
buffer. -/
def SystemEvent.RightSize : SystemEvent → Prop
  | .getCfm xStatus usPibAttrib pvPibValue =>
      (CliEvent.mlmeGetCfm xStatus usPibAttrib pvPibValue).RightSize
  | .callback _ bytes => bytes.length ≤ 1000
  | _ => True

instance (e : SystemEvent) : Decidable e.RightSize := by
  cases e <;> unfold SystemEvent.RightSize <;> infer_instance

/-- The values that are confirmed have the right size.  The strings of every indication fit into
their fields and hold no newline, and the nodes that report them are no more than the table has
entries. -/
structure SoundRun (es : List SystemEvent) : Prop where
  sizes : ∀ e ∈ es, e.RightSize
  fit : ∀ ind ∈ versionInds es, TextsFit ind
  oneLine : ∀ ind ∈ versionInds es, ind.OneLine
  room : (reporting es).card ≤ cliNumMaxNodeVs

section Run

variable {g : Growth} {es : List SystemEvent} {e : SystemEvent}

theorem versionInds_concat : versionInds (es ++ [e]) = versionInds es ++ e.versionInd?.toList := by
  unfold versionInds
  rw [List.filterMap_append]
  cases h : e.versionInd? with
  | none => simp [h]
  | some ind => simp [h]

theorem reporting_subset : reporting es ⊆ reporting (es ++ [e]) := by
  intro eui48 h
  unfold reporting at h ⊢
  rw [versionInds_concat, List.map_append, List.toFinset_append]
  exact Finset.mem_union_left _ h

theorem SoundRun.init (h : SoundRun (es ++ [e])) : SoundRun es := by
  have hmem : ∀ ind ∈ versionInds es, ind ∈ versionInds (es ++ [e]) := by
    intro ind hind
    rw [versionInds_concat]
    exact List.mem_append_left _ hind
  exact ⟨fun e he => h.sizes e (List.mem_append_left _ he),
    fun ind hind => h.fit ind (hmem ind hind), fun ind hind => h.oneLine ind (hmem ind hind),
    le_trans (Finset.card_le_card reporting_subset) h.room⟩

theorem View.known_list {v : View} {opens : Bool} {regs : List XCliNodeReg} :
    (v.list opens regs).known = v.known := by
  unfold View.list
  split_ifs <;> rfl

/-- Only a node that has reported them has versions that are known. -/
theorem View.known_step {v : View} {eui48 : List UInt8} (h : (v.step e).known eui48 ≠ none) :
    v.known eui48 ≠ none ∨ ∃ ind, e.versionInd? = some ind ∧ ind.pucEui48 = eui48 := by
  cases e with
  | versionInd ind =>
      by_cases heq : ind.pucEui48 = eui48
      · exact Or.inr ⟨ind, rfl, heq⟩
      · left
        have hother : (v.learn ind).known eui48 = v.known eui48 :=
          Function.update_of_ne (Ne.symm heq) _ _
        rwa [← hother]
  | listGetCfm opens pucPibBuff usPibLen =>
      left
      have hsame : (v.step (.listGetCfm opens pucPibBuff usPibLen)).known = v.known := by
        show (if usPibLen = 0 then v else v.list _ _).known = v.known
        split_ifs
        · rfl
        · exact View.known_list
      rwa [← hsame]
  | _ => exact Or.inl h

/-- **The application follows the view along every run.** -/
theorem follows_run (g : Growth) (appId : ℤ) (behind : ℕ → UInt8) (f : Files)
    (h : SoundRun es) :
    Follows (systemRun g (systemInit appId behind f) es) (View.run es)
      ∧ ∀ eui48, (View.run es).known eui48 ≠ none → eui48 ∈ reporting es := by
  induction es using List.reverseRecOn with
  | nil =>
      refine ⟨⟨rfl, rfl, tableKnown_zero behind, ?_, ?_, ?_, List.forall_mem_nil _,
        List.forall_mem_nil _⟩, fun eui48 hno => absurd rfl hno⟩
      · intro eui48 x hx
        cases hx
      · intro es hes
        cases hes
      · intro es hes
        cases hes
  | append_singleton es e ih =>
      obtain ⟨hfollows, hknown⟩ := ih h.init
      have hsys : systemRun g (systemInit appId behind f) (es ++ [e])
          = (systemStep g (systemRun g (systemInit appId behind f) es) e).1 := by
        unfold systemRun
        rw [List.foldl_append]
        rfl
      have hview : View.run (es ++ [e]) = (View.run es).step e := by
        unfold View.run
        rw [List.foldl_append]
        rfl
      rw [hsys, hview]
      constructor
      · apply hfollows.step
        cases e with
        | versionInd ind =>
            have hind : ind ∈ versionInds (es ++ [.versionInd ind]) := by
              rw [versionInds_concat]
              exact List.mem_append_right _ (List.mem_singleton_self _)
            refine ⟨h.fit ind hind, h.oneLine ind hind, hfollows.table.hasRoom
              (fun eui48 hne => reporting_subset (hknown eui48 hne)) ?_ h.room⟩
            exact List.mem_toFinset.mpr (List.mem_map_of_mem hind)
        | _ => trivial
      · intro eui48 hne
        rcases View.known_step hne with hold | ⟨ind, hind, rfl⟩
        · exact reporting_subset (hknown eui48 hold)
        · unfold reporting
          rw [versionInds_concat, hind]
          refine List.mem_toFinset.mpr (List.mem_map_of_mem ?_)
          exact List.mem_append_right _ (List.mem_singleton_self _)

/-- **The file is the list.**  Along every run the file is the text of the nodes that are
listed, and an update of it is awaited exactly if one has been asked for. -/
theorem nodelist_file_run (g : Growth) (appId : ℤ) (behind : ℕ → UInt8) (f : Files)
    (h : SoundRun es) :
    (systemRun g (systemInit appId behind f) es).files.nodelistEnd
        = (View.run es).listed.map nodelist
      ∧ (systemRun g (systemInit appId behind f) es).cli.sbUpdateToXml = (View.run es).asked := by
  obtain ⟨hfollows, -⟩ := follows_run g appId behind f h
  exact ⟨hfollows.file, hfollows.asked⟩

/-- **The arrays.**  Along every run the prints that leave their array are those of the head of
the list, and of a version of the base node of more than 20 characters; no line that is read
leaves its block. -/
theorem nodelist_prints_run (g : Growth) (appId : ℤ) (behind : ℕ → UInt8) (f : Files)
    (h : SoundRun es) :
    (∀ p ∈ (systemRun g (systemInit appId behind f) es).files.sprintfs, ¬ p.Fits ↔ Overflowing p)
      ∧ ∀ r ∈ (systemRun g (systemInit appId behind f) es).files.getlines, r.Fits := by
  obtain ⟨hfollows, -⟩ := follows_run g appId behind f h
  exact ⟨fun p hp => overflowing_iff (hfollows.prints p hp), hfollows.reads⟩

end Run

/-- The MAC address of the base node is confirmed, the list is received, the node in it reports
its versions twice, and the list is received again. -/
def smallRun : List SystemEvent :=
  [.getCfm 0 pibMacEui48 [9, 8, 7, 6, 5, 4],
    .listGetCfm true (Mem.init fun k => UInt8.ofNat (k + 1)) 16,
    .versionInd (smallInd 0x31), .versionInd (smallInd 0x32), .networkEvent .register,
    .listGetCfm true (Mem.init fun _ => 2) 32]

theorem soundRun_smallRun : SoundRun smallRun := ⟨by decide, by decide, by decide, by decide⟩

/-- No files, and nothing printed or read. -/
def noFiles : Files := ⟨none, none, none, [], []⟩

theorem nodelist_file_smallRun :
    (systemRun doubling (systemInit 1 (fun _ => 0) noFiles) smallRun).files.nodelistEnd
        = (View.run smallRun).listed.map nodelist
      ∧ (systemRun doubling (systemInit 1 (fun _ => 0) noFiles) smallRun).cli.sbUpdateToXml
        = (View.run smallRun).asked :=
  nodelist_file_run doubling 1 (fun _ => 0) noFiles soundRun_smallRun

theorem nodelist_prints_smallRun :
    (∀ p ∈ (systemRun doubling (systemInit 1 (fun _ => 0) noFiles) smallRun).files.sprintfs,
        ¬ p.Fits ↔ Overflowing p)
      ∧ ∀ r ∈ (systemRun doubling (systemInit 1 (fun _ => 0) noFiles) smallRun).files.getlines,
        r.Fits :=
  nodelist_prints_run doubling 1 (fun _ => 0) noFiles soundRun_smallRun

end Cli
