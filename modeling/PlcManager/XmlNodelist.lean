/-
# The list of the nodes as a text

`nodelist` is the text of the file for a list of nodes: it is what a run of
`xml_rep_open_nodelist`, `xml_rep_add_node` and `xml_rep_close_nodelist` leaves.  From the text
everything can be read back that is printed of a node, and the update of the text is the update
of the list, as long as no string of a node holds a newline.
-/
import PlcManager.XmlRep

namespace XmlRep

/-! ## Formats -/

section Formats

variable {b c : UInt8} {v w : UInt16} {m n : ℕ} {xs ys : List UInt8}

theorem toNat_hexDigit (h : n < 16) :
    (hexDigit n).toNat = if n < 10 then 48 + n else 87 + n := by
  unfold hexDigit
  split_ifs
  · exact UInt8.toNat_ofNat_of_lt' (by rw [UInt8.size]; omega)
  · exact UInt8.toNat_ofNat_of_lt' (by rw [UInt8.size]; omega)

theorem hexDigit_inj (hm : m < 16) (hn : n < 16) (h : hexDigit m = hexDigit n) : m = n := by
  have heq := congrArg UInt8.toNat h
  rw [toNat_hexDigit hm, toNat_hexDigit hn] at heq
  split_ifs at heq <;> omega

/-- The digits are not among the characters below them. -/
theorem hexDigit_ne (h : n < 16) (hc : c.toNat < 48) : hexDigit n ≠ c := by
  rintro rfl
  rw [toNat_hexDigit h] at hc
  split_ifs at hc <;> omega

theorem fmt02x_inj : fmt02x b = fmt02x c ↔ b = c := by
  constructor
  · intro h
    have hb := b.toNat_lt
    have hc := c.toNat_lt
    obtain ⟨hhi, hlo⟩ := List.cons.inj h
    have hdiv := hexDigit_inj (by omega) (by omega) hhi
    have hmod := hexDigit_inj (by omega) (by omega) (List.cons.inj hlo).1
    apply UInt8.toNat_inj.mp
    omega
  · rintro rfl
    rfl

theorem not_mem_fmt02x (hc : c.toNat < 48) : c ∉ fmt02x b := by
  have hb := b.toNat_lt
  unfold fmt02x
  rw [List.mem_pair, not_or]
  exact ⟨(hexDigit_ne (by omega) hc).symm, (hexDigit_ne (by omega) hc).symm⟩

/-- The digits of bytes, one behind the other. -/
theorem flatMap_fmt02x_inj : xs.flatMap fmt02x = ys.flatMap fmt02x ↔ xs = ys := by
  rw [flatMap_inj_of_length Nat.two_pos fun _ => rfl]
  refine (List.map_injective_iff.mpr fun b c h => ?_).eq_iff
  exact fmt02x_inj.mp h

theorem length_flatMap_fmt02x : (xs.flatMap fmt02x).length = 2 * xs.length := by
  rw [List.length_flatMap]
  simp [fmt02x, Nat.mul_comm]

theorem not_mem_flatMap_fmt02x (hc : c.toNat < 48) : c ∉ xs.flatMap fmt02x := by
  intro h
  obtain ⟨b, -, hb⟩ := List.mem_flatMap.mp h
  exact not_mem_fmt02x hc hb

/-- A decimal digit is one of ten characters. -/
theorem toNat_of_mem_toDigits {ch : Char} (h : ch ∈ Nat.toDigits 10 n) :
    48 ≤ ch.toNat ∧ ch.toNat ≤ 57 := by
  have hdigit := Nat.isDigit_of_mem_toDigits (by decide) (by decide) h
  rw [Char.isDigit, Bool.and_eq_true, decide_eq_true_iff, decide_eq_true_iff] at hdigit
  exact hdigit

/-- The characters that `%u` prints are the digits. -/
theorem map_fmtU : (fmtU n).map (fun b => Char.ofNat b.toNat) = Nat.toDigits 10 n := by
  unfold fmtU
  rw [List.map_map]
  conv_rhs => rw [← List.map_id (Nat.toDigits 10 n)]
  apply List.map_congr_left
  intro ch hch
  have hbound := toNat_of_mem_toDigits hch
  rw [Function.comp_apply, UInt8.toNat_ofNat_of_lt' (by rw [UInt8.size]; omega)]
  exact Char.ofNat_toNat ch

theorem fmtU_inj : fmtU m = fmtU n ↔ m = n := by
  constructor
  · intro h
    have hdigits := congrArg (List.map fun b => Char.ofNat b.toNat) h
    rw [map_fmtU, map_fmtU] at hdigits
    rw [← Nat.ofDigitChars_ten_toDigits (n := m), hdigits, Nat.ofDigitChars_ten_toDigits]
  · rintro rfl
    rfl

theorem not_mem_fmtU (hc : c.toNat < 48) : c ∉ fmtU n := by
  intro h
  obtain ⟨ch, hch, rfl⟩ := List.mem_map.mp h
  have hbound := toNat_of_mem_toDigits hch
  rw [UInt8.toNat_ofNat_of_lt' (by rw [UInt8.size]; omega)] at hc
  omega

theorem length_fmtU_le {k : ℕ} (hk : 0 < k) (h : n < 10 ^ k) : (fmtU n).length ≤ k := by
  unfold fmtU
  rw [List.length_map]
  exact (Nat.length_toDigits_le_iff (by decide) hk).mpr h

end Formats

/-! ## Lines -/

section Elements

variable {name : String} {xs ys : List UInt8}

theorem length_element :
    (element name xs).length = xs.length + 2 * (text name).length + 9 := by
  simp only [element, List.length_append]
  rw [show (text "\t\t<").length = 3 from rfl, show (text ">").length = 1 from rfl,
    show (text "</").length = 2 from rfl, show (text ">\r\n").length = 3 from rfl]
  omega

theorem element_inj : element name xs = element name ys ↔ xs = ys := by
  simp only [element, List.append_assoc, List.append_cancel_left_eq, List.append_cancel_right_eq]

theorem isLine_element (hname : newline ∉ text name) (h : newline ∉ xs) :
    IsLine newline (element name xs) := by
  have hend : text ">\r\n" = text ">\r" ++ [newline] := rfl
  rw [element, hend, ← List.append_assoc]
  apply isLine_append _
  simp only [List.mem_append, not_or]
  exact ⟨⟨⟨⟨⟨⟨by decide, hname⟩, by decide⟩, h⟩, by decide⟩, hname⟩, by decide⟩

theorem isLine_xmlLine : IsLine newline xmlLine :=
  isLine_append (text "<?xml version=\"1.0\" encoding=\"utf-8\"?>\r") (by decide)

end Elements

/-! ## The list -/

/-- A node as it is put into the file. -/
structure Entry where
  reg : XCliNodeReg
  texts : Option NodeTexts
  deriving DecidableEq

/-- No string holds a newline. -/
def NodeTexts.OneLine (x : NodeTexts) : Prop :=
  newline ∉ x.pucVendor.chars ∧ newline ∉ x.pucModel.chars ∧ newline ∉ x.pucFwVersion.chars

instance (x : NodeTexts) : Decidable x.OneLine := inferInstanceAs (Decidable (_ ∧ _ ∧ _))

/-- No string of the node holds a newline. -/
def Entry.OneLine (e : Entry) : Prop := ∀ x ∈ e.texts, x.OneLine

instance (e : Entry) : Decidable e.OneLine :=
  inferInstanceAs (Decidable (∀ x ∈ e.texts, x.OneLine))

/-- The lines of a node. -/
def Entry.lines (e : Entry) : List (List UInt8) := (nodePrints e.reg e.texts).map Sprintf.text

/-- The lines of the list, but for the last one. -/
def nodelistLines (es : List Entry) : List (List UInt8) :=
  [xmlLine, text "<nodelist>\r\n"] ++ es.flatMap Entry.lines

/-- The text of the list. -/
def nodelist (es : List Entry) : List UInt8 :=
  (nodelistLines es).flatten ++ text "</nodelist>"

/-- What the file says of a node. -/
structure Shown where
  macAddr : List UInt8
  usLnid : UInt16
  ucState : UInt8
  usLsid : UInt16
  usSid : UInt16
  ucLevel : UInt8
  vendor : List UInt8
  model : List UInt8
  fwvs : List UInt8
  deriving DecidableEq

/-- What the file says of an entry; no strings are the same as three empty ones. -/
def Entry.shown (e : Entry) : Shown where
  macAddr := e.reg.macAddr
  usLnid := e.reg.usLnid
  ucState := e.reg.ucState
  usLsid := e.reg.usLsid
  usSid := e.reg.usSid
  ucLevel := e.reg.ucLevel
  vendor := e.texts.elim [] fun x => x.pucVendor.chars
  model := e.texts.elim [] fun x => x.pucModel.chars
  fwvs := e.texts.elim [] fun x => x.pucFwVersion.chars

/-- The lines for what is said of a node. -/
def Shown.lines (x : Shown) : List (List UInt8) :=
  [text "\t<node>\r\n", macLine x.macAddr, lnidLine x.usLnid, stateLine x.ucState,
    lsidLine x.usLsid, sidLine x.usSid, levelLine x.ucLevel, vendorLine x.vendor,
    modelLine x.model, fwvsLine x.fwvs, text "\t</node>\r\n"]

section Nodelist

variable {e : Entry} {es fs : List Entry} {x y : Shown} {f : Files}

theorem Entry.lines_eq : e.lines = e.shown.lines := by
  unfold Entry.lines nodePrints Entry.shown
  cases e.texts <;> rfl

theorem Shown.lines_inj : x.lines = y.lines ↔ x = y := by
  constructor
  · intro h
    simp only [Shown.lines, List.cons.injEq, true_and, and_true, macLine, lnidLine, stateLine,
      lsidLine, sidLine, levelLine, vendorLine, modelLine, fwvsLine, element_inj, fmtU_inj,
      flatMap_fmt02x_inj, UInt16.toNat_inj, UInt8.toNat_inj] at h
    obtain ⟨hmac, hlnid, hstate, hlsid, hsid, hlevel, hvendor, hmodel, hfwvs⟩ := h
    cases x
    cases y
    simp_all
  · rintro rfl
    rfl

/-- A node without a newline in its strings is eleven lines. -/
theorem Entry.isLine_lines (h : e.OneLine) : ∀ l ∈ e.lines, IsLine newline l := by
  have hstring : ∀ g : NodeTexts → List UInt8, (∀ x : NodeTexts, x.OneLine → newline ∉ g x) →
      newline ∉ e.texts.elim [] g := by
    intro g hg
    cases htexts : e.texts with
    | none => exact List.not_mem_nil
    | some x => exact hg x (h x htexts)
  rw [Entry.lines_eq]
  simp only [Shown.lines, List.forall_mem_cons, List.not_mem_nil, false_imp_iff, implies_true,
    and_true]
  refine ⟨isLine_append (text "\t<node>\r") (by decide),
    isLine_element (by decide) (not_mem_flatMap_fmt02x (by decide)),
    isLine_element (by decide) (not_mem_fmtU (by decide)),
    isLine_element (by decide) (not_mem_fmtU (by decide)),
    isLine_element (by decide) (not_mem_fmtU (by decide)),
    isLine_element (by decide) (not_mem_fmtU (by decide)),
    isLine_element (by decide) (not_mem_fmtU (by decide)),
    isLine_element (by decide) (hstring _ fun x hx => hx.1),
    isLine_element (by decide) (hstring _ fun x hx => hx.2.1),
    isLine_element (by decide) (hstring _ fun x hx => hx.2.2),
    isLine_append (text "\t</node>\r") (by decide)⟩

theorem isLine_nodelistLines (h : ∀ e ∈ es, e.OneLine) :
    ∀ l ∈ nodelistLines es, IsLine newline l := by
  intro l hl
  rcases List.mem_append.mp hl with hhead | hnode
  · rw [List.mem_pair] at hhead
    rcases hhead with rfl | rfl
    · exact isLine_xmlLine
    · exact isLine_append (text "<nodelist>\r") (by decide)
  · obtain ⟨e, he, hle⟩ := List.mem_flatMap.mp hnode
    exact Entry.isLine_lines (h e he) l hle

/-- The list is read line by line as it has been printed. -/
theorem lines_nodelist (h : ∀ e ∈ es, e.OneLine) :
    lines newline (nodelist es) = nodelistLines es ++ [text "</nodelist>"] := by
  rw [nodelist, lines_flatten_append (isLine_nodelistLines h),
    lines_of_not_mem (by decide) (by decide)]

/-- The text of a list is what it says of the nodes. -/
theorem nodelist_congr (h : es.map Entry.shown = fs.map Entry.shown) :
    nodelist es = nodelist fs := by
  have hlines : ∀ es : List Entry,
      es.flatMap Entry.lines = (es.map Entry.shown).flatMap Shown.lines := by
    intro es
    rw [List.flatMap_map]
    exact List.flatMap_congr fun e _ => Entry.lines_eq
  rw [nodelist, nodelist, nodelistLines, nodelistLines, hlines, hlines, h]

/-- **What the file says.**  Two lists are the same text exactly if they say the same of the
same nodes in the same order. -/
theorem nodelist_eq_iff (hes : ∀ e ∈ es, e.OneLine) (hfs : ∀ e ∈ fs, e.OneLine) :
    nodelist es = nodelist fs ↔ es.map Entry.shown = fs.map Entry.shown := by
  refine ⟨fun h => ?_, nodelist_congr⟩
  have hsame := congrArg (lines newline) h
  rw [lines_nodelist hes, lines_nodelist hfs] at hsame
  have hnodes : es.flatMap Entry.lines = fs.flatMap Entry.lines :=
    List.append_cancel_left (List.append_cancel_right hsame)
  have hlen : ∀ e : Entry, e.lines.length = 11 := by
    intro e
    rw [Entry.lines_eq]
    rfl
  have hmap := (flatMap_inj_of_length (by decide) hlen).mp hnodes
  -- the lines of a node say what is said of it
  have hshown : ∀ es : List Entry, es.map Entry.lines = (es.map Entry.shown).map Shown.lines := by
    intro es
    rw [List.map_map]
    exact List.map_congr_left fun e _ => Entry.lines_eq
  rw [hshown, hshown] at hmap
  exact List.map_injective_iff.mpr (fun x y hxy => Shown.lines_inj.mp hxy) hmap

end Nodelist

/-- An address. -/
def oneEui48 : List UInt8 := [1, 2, 3, 4, 5, 6]

theorem length_oneEui48 : oneEui48.length = 6 := rfl

/-- A list of one node. -/
def oneNode (texts : Option NodeTexts) : Entry where
  reg := ⟨oneEui48, 7, 1, 0, 0, 1, 0, 0, length_oneEui48⟩
  texts := texts

theorem nodelist_oneNode_ne :
    nodelist [oneNode none] ≠ nodelist [oneNode (some ⟨cString [0x41], cString [], cString []⟩)] :=
  fun h => absurd ((nodelist_eq_iff (by decide) (by decide)).mp h) (by decide)

/-! ## Writing the list -/

section Written

variable {e : Entry} {es : List Entry} {ps qs : List Sprintf} {f : Files}

theorem written_append : written (ps ++ qs) = written ps ++ written qs := List.flatMap_append

/-- Prints one after the other are written like one list of prints. -/
theorem Files.writeTmp_writeTmp : (f.writeTmp ps).writeTmp qs = f.writeTmp (ps ++ qs) := by
  unfold Files.writeTmp
  rw [Option.map_map, List.append_assoc]
  congr 2
  funext file
  rw [Function.comp_apply, List.append_assoc, written_append]

/-- The prints of a node. -/
def Entry.prints (e : Entry) : List Sprintf := nodePrints e.reg e.texts

theorem written_prints : written e.prints = e.lines.flatten := List.flatMap_def

theorem written_flatMap_prints :
    written (es.flatMap Entry.prints) = (es.flatMap Entry.lines).flatten := by
  induction es with
  | nil => rfl
  | cons e es ih =>
      rw [List.flatMap_cons, List.flatMap_cons, written_append, ih, written_prints,
        List.flatten_append]

/-- The first and the last print of the list. -/
def openPrint : Sprintf := ⟨50, xmlLine ++ text "<nodelist>\r\n"⟩
def closePrint : Sprintf := ⟨50, text "</nodelist>"⟩

/-- **The file is the list.**  What is opened, filled with the nodes and closed. -/
theorem close_writeTmp_open :
    xmlRepCloseNodelist ((xmlRepOpenNodelist true f).writeTmp (es.flatMap Entry.prints))
      = { f with
          nodelistTmp := some (nodelist es)
          nodelistEnd := some (nodelist es)
          sprintfs := f.sprintfs ++ (openPrint :: es.flatMap Entry.prints ++ [closePrint]) } := by
  have hwritten : written ([openPrint] ++ es.flatMap Entry.prints ++ [closePrint])
      = nodelist es := by
    rw [written_append, written_append, written_flatMap_prints, nodelist, nodelistLines,
      List.flatten_append]
    rfl
  unfold xmlRepCloseNodelist xmlRepOpenNodelist
  rw [Files.writeTmp_writeTmp, Files.writeTmp_writeTmp]
  show ({ f with
    nodelistTmp := some ([] ++ written ([openPrint] ++ es.flatMap Entry.prints ++ [closePrint]))
    nodelistEnd := some ([] ++ written ([openPrint] ++ es.flatMap Entry.prints ++ [closePrint]))
    sprintfs := _ } : Files) = _
  rw [hwritten]
  rfl

end Written

/-! ## The arrays -/

section Fits

variable {reg : XCliNodeReg} {x : NodeTexts} {texts : Option NodeTexts}

/-- The strings of the node are short enough for the array of 60 bytes. -/
def NodeTexts.Short (x : NodeTexts) : Prop :=
  x.pucVendor.chars.length ≤ 38 ∧ x.pucModel.chars.length ≤ 40 ∧ x.pucFwVersion.chars.length ≤ 42

instance (x : NodeTexts) : Decidable x.Short := inferInstanceAs (Decidable (_ ∧ _ ∧ _))

/-- The strings are printed as one line, which stays inside its array. -/
def Printable (x : NodeTexts) : Prop := x.OneLine ∧ x.Short

instance (x : NodeTexts) : Decidable (Printable x) := inferInstanceAs (Decidable (_ ∧ _))

/-- The first line of the list and the next one go into one array, which is too short. -/
theorem not_fits_openPrint : ¬ openPrint.Fits := by decide

theorem fits_element {size : ℕ} {name : String} {xs : List UInt8} :
    (⟨size, element name xs⟩ : Sprintf).Fits ↔ xs.length + 2 * (text name).length + 9 < size := by
  unfold Sprintf.Fits
  rw [length_element]

/-- What is printed of a number of 16 bits. -/
theorem length_fmtU_word {w : UInt16} : (fmtU w.toNat).length ≤ 5 := by
  have hw := w.toNat_lt
  exact length_fmtU_le (by decide) (by omega)

theorem length_fmtU_byte {b : UInt8} : (fmtU b.toNat).length ≤ 3 := by
  have hb := b.toNat_lt
  exact length_fmtU_le (by decide) (by omega)

/-- The prints of the node stay inside the array exactly if its strings are short enough. -/
theorem fits_nodePrints_iff :
    (∀ p ∈ nodePrints reg texts, p.Fits) ↔ ∀ x ∈ texts, x.Short := by
  have hlnid := length_fmtU_word (w := reg.usLnid)
  have hstate := length_fmtU_byte (b := reg.ucState)
  have hlsid := length_fmtU_word (w := reg.usLsid)
  have hsid := length_fmtU_word (w := reg.usSid)
  have hlevel := length_fmtU_byte (b := reg.ucLevel)
  have hnames : (text "mac").length = 3 ∧ (text "lnid").length = 4 ∧ (text "state").length = 5
      ∧ (text "lsid").length = 4 ∧ (text "sid").length = 3 ∧ (text "level").length = 5
      ∧ (text "vendor").length = 6 ∧ (text "model").length = 5 ∧ (text "fwvs").length = 4 := by
    decide
  obtain ⟨hn1, hn2, hn3, hn4, hn5, hn6, hn7, hn8, hn9⟩ := hnames
  have hopen : (⟨60, text "\t<node>\r\n"⟩ : Sprintf).Fits := by decide
  have hclose : (⟨60, text "\t</node>\r\n"⟩ : Sprintf).Fits := by decide
  cases texts with
  | none =>
      refine iff_of_true ?_ (by simp)
      simp only [nodePrints, List.forall_mem_append, List.forall_mem_cons, List.not_mem_nil,
        false_imp_iff, implies_true, and_true, macLine, lnidLine, stateLine, lsidLine, sidLine,
        levelLine, vendorLine, modelLine, fwvsLine, fits_element, length_flatMap_fmt02x,
        reg.length_macAddr, hn1, hn2, hn3, hn4, hn5, hn6, hn7, hn8, hn9, List.length_nil]
      refine ⟨⟨⟨hopen, ?_⟩, ?_⟩, hclose⟩ <;> omega
  | some x =>
      simp only [nodePrints, List.forall_mem_append, List.forall_mem_cons, List.not_mem_nil,
        false_imp_iff, implies_true, and_true, macLine, lnidLine, stateLine, lsidLine, sidLine,
        levelLine, vendorLine, modelLine, fwvsLine, fits_element, length_flatMap_fmt02x,
        reg.length_macAddr, hn1, hn2, hn3, hn4, hn5, hn6, hn7, hn8, hn9, Option.mem_def,
        Option.some.injEq, forall_eq', hopen, hclose, true_and, NodeTexts.Short]
      omega

end Fits

end XmlRep
