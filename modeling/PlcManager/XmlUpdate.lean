/-
# The update of the list

`xml_rep_update_node_version` does not know the list: it reads the file line by line and
looks for the line with the MAC of the node.  On the text of a list this is the update of the
list, of every entry with that MAC and of nothing else.

The variable that tells `getline` the size of its block takes the result of every `sprintf`.
After a copy this is at most what the block holds.  After a string that has been replaced it
can be more, and then the next line may leave the block; `Entry.Room` excludes this.
-/
import PlcManager.XmlNodelist

namespace XmlRep

/-! ## Lines that are read -/

/-- The line that was read last is in its block, as all the lines before. -/
structure Stream.Stored (st : Stream) : Prop where
  line : st.line.length < st.block
  getlines : ∀ r ∈ st.getlines, r.Fits

/-- The next line will be in its block, as all the lines before. -/
structure Stream.Ready (st : Stream) : Prop where
  next : ∀ l ∈ st.rest.head?, l.length < st.len → l.length < st.block
  getlines : ∀ r ∈ st.getlines, r.Fits

section Reading

variable {g : Growth} {st : Stream} {line l : List UInt8} {rest : List (List UInt8)} {p : Sprintf}

theorem Stream.rest_getline (h : st.rest = line :: rest) : (st.getline g).rest = rest := by
  unfold Stream.getline
  rw [h]
  dsimp only
  split_ifs <;> rfl

theorem Stream.line_getline (h : st.rest = line :: rest) : (st.getline g).line = line := by
  unfold Stream.getline
  rw [h]
  dsimp only
  split_ifs <;> rfl

theorem Stream.Ready.getline (hst : st.Ready) (h : st.rest = line :: rest) :
    (st.getline g).Stored := by
  have hnext := hst.next line (by rw [h]; rfl)
  unfold Stream.getline
  rw [h]
  dsimp only
  split_ifs with hlen
  · refine ⟨hnext hlen, ?_⟩
    rw [List.forall_mem_append, List.forall_mem_singleton]
    exact ⟨hst.getlines, hnext hlen⟩
  · refine ⟨g.lt_size line rest st.len, ?_⟩
    rw [List.forall_mem_append, List.forall_mem_singleton]
    exact ⟨hst.getlines, g.lt_size line rest st.len⟩

/-- After a print the next line finds room if it is not longer than the last one, or too long
for what `len` says then. -/
theorem Stream.Stored.print (hst : st.Stored) (h : ∀ l ∈ st.rest.head?,
      l.length ≤ st.line.length ∨ p.text.length ≤ l.length) : (st.print p).Ready := by
  refine ⟨fun l hl hlt => ?_, hst.getlines⟩
  have hline := hst.line
  rcases h l hl with hshort | hlong
  · exact lt_of_le_of_lt hshort hline
  · exact absurd hlt (not_lt.mpr hlong)

theorem length_cString_le (xs : List UInt8) : (cString xs).chars.length ≤ xs.length :=
  (List.takeWhile_prefix _).length_le

/-- A copy is not longer than what was read. -/
theorem Stream.Stored.copy (hst : st.Stored) : (st.print st.copy).Ready := by
  refine hst.print fun l _ => ?_
  have hle : st.copy.text.length ≤ st.line.length := length_cString_le st.line
  omega

/-- A string that has no zero is printed whole. -/
theorem cString_of_not_mem {xs : List UInt8} (h : 0 ∉ xs) : (cString xs).chars = xs := by
  show xs.takeWhile (· ≠ 0) = xs
  rw [List.takeWhile_eq_self_iff]
  intro b hb
  exact decide_eq_true fun h0 => h (h0 ▸ hb)

/-- The line that was read last is printed, and the next one is read. -/
theorem Stream.exists_copy (h : st.rest = line :: rest) (hzero : 0 ∉ st.line) :
    ∃ st', (st.print st.copy).getline g = st' ∧ st.copy = ⟨60, st.line⟩ ∧ st'.rest = rest
      ∧ st'.line = line ∧ (st.Stored → st'.Stored) := by
  refine ⟨_, rfl, ?_, Stream.rest_getline h, Stream.line_getline h, fun hst => hst.copy.getline h⟩
  rw [Stream.copy, cString_of_not_mem hzero]

/-- Something else is printed, and the next line is read. -/
theorem Stream.exists_print (h : st.rest = line :: rest) (p : Sprintf) :
    ∃ st', (st.print p).getline g = st' ∧ st'.rest = rest ∧ st'.line = line
      ∧ (st.Stored → line.length ≤ st.line.length ∨ p.text.length ≤ line.length →
        st'.Stored) := by
  refine ⟨_, rfl, Stream.rest_getline h, Stream.line_getline h, fun hst hroom => ?_⟩
  refine Ready.getline (hst.print fun l hl => ?_) h
  rw [h] at hl
  obtain rfl := Option.some.inj hl
  exact hroom

end Reading

/-! ## Lines that are copied -/

section Copied

variable {g : Growth} {name : String} {xs line : List UInt8} {x : Shown} {vs : XCliNodeVs} {n : ℕ}
  {rest : List (List UInt8)} {st : Stream}

theorem zero_not_mem_element (hname : 0 ∉ text name) (h : 0 ∉ xs) : 0 ∉ element name xs := by
  simp only [element, List.mem_append, not_or]
  exact ⟨⟨⟨⟨⟨⟨by decide, hname⟩, by decide⟩, h⟩, by decide⟩, hname⟩, by decide⟩

theorem length_macLine (h : xs.length = 6) : (macLine xs).length = 27 := by
  rw [macLine, length_element, length_flatMap_fmt02x, h]
  rfl

theorem macLine_inj {ys : List UInt8} : macLine xs = macLine ys ↔ xs = ys := by
  rw [macLine, macLine, element_inj, flatMap_fmt02x_inj]

/-- A line that does not begin like the line of a MAC is not one. -/
theorem take_ne_macLine (h : line.take 5 ≠ text "\t\t<ma") :
    line.take (macLine vs.pucEui48).length ≠ macLine vs.pucEui48 := by
  intro heq
  apply h
  have hfive := congrArg (List.take 5) heq
  rw [List.take_take, length_macLine vs.length_eui48] at hfive
  exact hfive

/-- A line that is not the one with the MAC is copied. -/
theorem updateLoop_copy (g : Growth) (vs : XCliNodeVs) (n : ℕ)
    (hrest : st.rest = line :: rest) (hzero : 0 ∉ line)
    (hne : line.take (macLine vs.pucEui48).length ≠ macLine vs.pucEui48) :
    ∃ st' : Stream, st'.rest = rest ∧ (st.Ready → st'.Ready)
      ∧ updateLoop g vs (n + 1) st = ((updateLoop g vs n st').1, (updateLoop g vs n st').2.1,
        ⟨60, line⟩ :: (updateLoop g vs n st').2.2) := by
  have hline : (st.getline g).line = line := Stream.line_getline hrest
  have hcopy : (st.getline g).copy = ⟨60, line⟩ := by
    rw [Stream.copy, hline, cString_of_not_mem hzero]
  refine ⟨(st.getline g).print (st.getline g).copy, Stream.rest_getline hrest,
    fun hready => (hready.getline hrest).copy, ?_⟩
  simp only [updateLoop]
  rw [if_neg (by rw [hrest]; exact List.cons_ne_nil _ _), hline, if_neg hne, hcopy]

/-- Lines none of which is the one with the MAC are copied. -/
theorem updateLoop_copies {ls : List (List UInt8)} (g : Growth) (vs : XCliNodeVs) (n : ℕ)
    (hrest : st.rest = ls ++ rest)
    (h : ∀ l ∈ ls, 0 ∉ l ∧ l.take (macLine vs.pucEui48).length ≠ macLine vs.pucEui48) :
    ∃ st' : Stream, st'.rest = rest ∧ (st.Ready → st'.Ready)
      ∧ updateLoop g vs (n + ls.length) st = ((updateLoop g vs n st').1,
        (updateLoop g vs n st').2.1, ls.map (Sprintf.mk 60) ++ (updateLoop g vs n st').2.2) := by
  induction ls generalizing st with
  | nil => exact ⟨st, hrest, id, rfl⟩
  | cons l ls ih =>
      rw [List.forall_mem_cons] at h
      obtain ⟨st1, hrest1, hready1, hloop1⟩ :=
        updateLoop_copy g vs (n + ls.length) hrest h.1.1 h.1.2
      obtain ⟨st2, hrest2, hready2, hloop2⟩ := ih hrest1 h.2
      refine ⟨st2, hrest2, fun hready => hready2 (hready1 hready), ?_⟩
      rw [List.length_cons, ← Nat.add_assoc, hloop1, hloop2]
      rfl

end Copied

/-! ## The lines of a node -/

section Node

variable {g : Growth} {e : Entry} {es : List Entry} {x : Shown} {vs : XCliNodeVs} {n : ℕ}
  {rest : List (List UInt8)} {st : Stream} {f : Files}

/-- The entry when the versions of a node are known. -/
def Entry.update (vs : XCliNodeVs) (e : Entry) : Entry :=
  if e.reg.macAddr = vs.pucEui48 then { e with texts := some vs.texts } else e

theorem Entry.prints_eq : e.prints = e.lines.map (Sprintf.mk 60) := by
  unfold Entry.lines Entry.prints nodePrints
  cases e.texts <;> rfl

theorem Entry.zero_not_mem_lines : ∀ l ∈ e.lines, 0 ∉ l := by
  have hstring : ∀ g : NodeTexts → CString, 0 ∉ e.texts.elim [] fun x => (g x).chars := by
    intro g
    cases e.texts with
    | none => exact List.not_mem_nil
    | some x => exact (g x).zero_not_mem
  rw [Entry.lines_eq]
  simp only [Shown.lines, List.forall_mem_cons, List.not_mem_nil, false_imp_iff, implies_true,
    and_true]
  refine ⟨by decide, zero_not_mem_element (by decide) (not_mem_flatMap_fmt02x (by decide)),
    zero_not_mem_element (by decide) (not_mem_fmtU (by decide)),
    zero_not_mem_element (by decide) (not_mem_fmtU (by decide)),
    zero_not_mem_element (by decide) (not_mem_fmtU (by decide)),
    zero_not_mem_element (by decide) (not_mem_fmtU (by decide)),
    zero_not_mem_element (by decide) (not_mem_fmtU (by decide)),
    zero_not_mem_element (by decide) (hstring _), zero_not_mem_element (by decide) (hstring _),
    zero_not_mem_element (by decide) (hstring _), by decide⟩

/-- The lines of another node are not taken for the one with the MAC. -/
theorem Entry.take_lines_ne (h : e.reg.macAddr ≠ vs.pucEui48) :
    ∀ l ∈ e.lines, l.take (macLine vs.pucEui48).length ≠ macLine vs.pucEui48 := by
  have hmac : (macLine e.reg.macAddr).take (macLine vs.pucEui48).length ≠ macLine vs.pucEui48 := by
    rw [length_macLine vs.length_eui48, ← length_macLine e.reg.length_macAddr, List.take_length]
    exact fun heq => h (macLine_inj.mp heq)
  rw [Entry.lines_eq]
  simp only [Shown.lines, List.forall_mem_cons, List.not_mem_nil, false_imp_iff, implies_true,
    and_true]
  refine ⟨?_, hmac, ?_, ?_, ?_, ?_, ?_, ?_, ?_, ?_, ?_⟩ <;>
    exact take_ne_macLine (of_decide_eq_false rfl)

/-- The prints for a node with the MAC, from its line with the MAC on. -/
def versionPrints (xs : NodeTexts) (copied : List (List UInt8)) : List Sprintf :=
  copied.map (Sprintf.mk 60) ++ [⟨60, vendorLine xs.pucVendor.chars⟩,
    ⟨60, modelLine xs.pucModel.chars⟩, ⟨60, fwvsLine xs.pucFwVersion.chars⟩]

/-- The lines that are replaced find room when they are read. -/
def LinesRoom (xs : NodeTexts) (vendor model fwvs : List UInt8) : Prop :=
  (model.length ≤ vendor.length ∨ (vendorLine xs.pucVendor.chars).length ≤ model.length)
    ∧ (fwvs.length ≤ model.length ∨ (modelLine xs.pucModel.chars).length ≤ fwvs.length)

/-- From the line with the MAC on, six lines are copied and three are replaced. -/
theorem replaceVersion_lines {lnid state lsid sid level vendor model fwvs : List UInt8}
    (g : Growth) (xs : NodeTexts)
    (hrest : st.rest = lnid :: state :: lsid :: sid :: level :: vendor :: model :: fwvs :: rest)
    (h : ∀ l ∈ [st.line, lnid, state, lsid, sid, level], 0 ∉ l) :
    ∃ last : Stream, last.rest = rest ∧ last.line = fwvs
      ∧ (st.Stored → LinesRoom xs vendor model fwvs → last.Stored)
      ∧ replaceVersion g xs st = (last.print ⟨60, fwvsLine xs.pucFwVersion.chars⟩,
        versionPrints xs [st.line, lnid, state, lsid, sid, level]) := by
  simp only [List.forall_mem_cons, List.not_mem_nil, false_imp_iff, implies_true, and_true] at h
  obtain ⟨h0, h1, h2, h3, h4, h5⟩ := h
  obtain ⟨s1, e1, c0, r1, rfl, k1⟩ := Stream.exists_copy (g := g) hrest h0
  obtain ⟨s2, e2, c1, r2, rfl, k2⟩ := Stream.exists_copy (g := g) r1 h1
  obtain ⟨s3, e3, c2, r3, rfl, k3⟩ := Stream.exists_copy (g := g) r2 h2
  obtain ⟨s4, e4, c3, r4, rfl, k4⟩ := Stream.exists_copy (g := g) r3 h3
  obtain ⟨s5, e5, c4, r5, rfl, k5⟩ := Stream.exists_copy (g := g) r4 h4
  obtain ⟨s6, e6, c5, r6, rfl, k6⟩ := Stream.exists_copy (g := g) r5 h5
  obtain ⟨s7, e7, r7, rfl, k7⟩ :=
    Stream.exists_print (g := g) r6 ⟨60, vendorLine xs.pucVendor.chars⟩
  obtain ⟨s8, e8, r8, rfl, k8⟩ :=
    Stream.exists_print (g := g) r7 ⟨60, modelLine xs.pucModel.chars⟩
  refine ⟨s8, r8, rfl, fun hst hroom => ?_, ?_⟩
  · exact k8 (k7 (k6 (k5 (k4 (k3 (k2 (k1 hst)))))) hroom.1) hroom.2
  · simp only [replaceVersion, e1, e2, e3, e4, e5, e6, e7, e8]
    rw [c0, c1, c2, c3, c4, c5]
    rfl

/-- The line with the MAC, and the eight lines behind it. -/
theorem updateLoop_mac {mac lnid state lsid sid level vendor model fwvs : List UInt8}
    (hrest : st.rest = mac :: lnid :: state :: lsid :: sid :: level :: vendor :: model :: fwvs
      :: rest)
    (hmac : mac = macLine vs.pucEui48) (h : ∀ l ∈ [mac, lnid, state, lsid, sid, level], 0 ∉ l)
    (hshort : ∀ l ∈ rest.head?, l.length ≤ fwvs.length) :
    ∃ st' : Stream, st'.rest = rest
      ∧ (st.Ready → LinesRoom vs.texts vendor model fwvs → st'.Ready)
      ∧ updateLoop g vs (n + 1) st = (true, (updateLoop g vs n st').2.1,
        versionPrints vs.texts [mac, lnid, state, lsid, sid, level]
          ++ (updateLoop g vs n st').2.2) := by
  have hline : (st.getline g).line = mac := Stream.line_getline hrest
  have htake : mac.take (macLine vs.pucEui48).length = macLine vs.pucEui48 := by
    rw [hmac, List.take_length]
  obtain ⟨last, hlast, hfwvs, hstored, hreplace⟩ := replaceVersion_lines g vs.texts
    (Stream.rest_getline (g := g) hrest) (by rwa [hline])
  refine ⟨last.print ⟨60, fwvsLine vs.texts.pucFwVersion.chars⟩, hlast, fun hready hroom => ?_, ?_⟩
  · refine (hstored (hready.getline hrest) hroom).print fun l hl => Or.inl ?_
    rw [hlast] at hl
    rw [hfwvs]
    exact hshort l hl
  · simp only [updateLoop]
    rw [if_neg (by rw [hrest]; exact List.cons_ne_nil _ _), hline, if_pos htake, hreplace, hline]

/-- The strings of an entry that are replaced find room when they are read. -/
structure Entry.Room (xs : NodeTexts) (e : Entry) : Prop where
  model : e.shown.model.length ≤ e.shown.vendor.length + 2
    ∨ xs.pucVendor.chars.length + 2 ≤ e.shown.model.length
  fwvs : e.shown.fwvs.length ≤ e.shown.model.length + 2
    ∨ xs.pucModel.chars.length + 2 ≤ e.shown.fwvs.length

instance (xs : NodeTexts) (e : Entry) : Decidable (e.Room xs) :=
  decidable_of_iff (_ ∧ _) ⟨fun h => ⟨h.1, h.2⟩, fun h => ⟨h.model, h.fwvs⟩⟩

theorem Entry.Room.lines {xs : NodeTexts} (h : e.Room xs) :
    LinesRoom xs (vendorLine e.shown.vendor) (modelLine e.shown.model)
      (fwvsLine e.shown.fwvs) := by
  have hmodel := h.model
  have hfwvs := h.fwvs
  unfold LinesRoom vendorLine modelLine fwvsLine
  simp only [length_element]
  rw [show (text "vendor").length = 6 from rfl, show (text "model").length = 5 from rfl,
    show (text "fwvs").length = 4 from rfl]
  omega

/-- Empty strings can be replaced by any others. -/
theorem Entry.room_of_none {xs : NodeTexts} (h : e.texts = none) : e.Room xs := by
  constructor
  · left
    unfold Entry.shown
    rw [h]
    exact Nat.zero_le _
  · left
    unfold Entry.shown
    rw [h]
    exact Nat.zero_le _

/-- The lines of a node with the MAC: its strings are replaced. -/
theorem updateLoop_node (hrest : st.rest = e.lines ++ rest) (h : e.reg.macAddr = vs.pucEui48) :
    ∃ st' : Stream, st'.rest = rest ∧ (st.Ready → e.Room vs.texts → st'.Ready)
      ∧ updateLoop g vs (n + 3) st = (true, (updateLoop g vs n st').2.1,
        (e.update vs).prints ++ (updateLoop g vs n st').2.2) := by
  have hzero := e.zero_not_mem_lines
  rw [Entry.lines_eq] at hzero hrest
  have hcopied : ∀ l ∈ [macLine e.reg.macAddr, lnidLine e.reg.usLnid, stateLine e.reg.ucState,
      lsidLine e.reg.usLsid, sidLine e.reg.usSid, levelLine e.reg.ucLevel], 0 ∉ l := by
    intro l hl
    apply hzero
    exact List.mem_cons_of_mem _ (List.mem_append_left [_, _, _, _] hl)
  have hend : (text "\t</node>\r\n").length ≤ (fwvsLine e.shown.fwvs).length := by
    rw [fwvsLine, length_element, show (text "\t</node>\r\n").length = 10 from rfl,
      show (text "fwvs").length = 4 from rfl]
    omega
  obtain ⟨st1, hrest1, hready1, hloop1⟩ := updateLoop_copy g vs (n + 2) hrest
    (by decide) (take_ne_macLine (by decide))
  obtain ⟨st2, hrest2, hready2, hloop2⟩ := updateLoop_mac (g := g) (n := n + 1) hrest1
    (congrArg macLine h) hcopied (by
      intro l hl
      obtain rfl := Option.some.inj hl
      exact hend)
  obtain ⟨st3, hrest3, hready3, hloop3⟩ := updateLoop_copy g vs n hrest2
    (by decide) (take_ne_macLine (by decide))
  refine ⟨st3, hrest3, fun hready hroom => hready3 (hready2 (hready1 hready) hroom.lines), ?_⟩
  rw [hloop1, hloop2, hloop3, Entry.update, if_pos h]
  rfl

theorem Entry.update_of_ne (h : e.reg.macAddr ≠ vs.pucEui48) : e.update vs = e := if_neg h

/-- **The lines of a list.**  The loop finds the MAC if it is in the list, and prints the list
with the strings replaced; what it reads stays in its block. -/
theorem updateLoop_nodes (hn : 11 * es.length < n)
    (hrest : st.rest = es.flatMap Entry.lines ++ [text "</nodelist>"]) :
    ∃ last : Stream, updateLoop g vs n st = (decide (∃ e ∈ es, e.reg.macAddr = vs.pucEui48), last,
        (es.map (Entry.update vs)).flatMap Entry.prints ++ [⟨60, text "</nodelist>"⟩])
      ∧ (st.Ready → (∀ e ∈ es, e.reg.macAddr = vs.pucEui48 → e.Room vs.texts) → last.Ready) := by
  induction es generalizing n st with
  | nil =>
      obtain ⟨n, rfl⟩ : ∃ k, n = k + 1 := ⟨n - 1, by omega⟩
      obtain ⟨last, hlast, hready, hloop⟩ := updateLoop_copy g vs n hrest
        (by decide) (take_ne_macLine (by decide))
      have hnil : updateLoop g vs n last = (false, last, []) := by
        cases n with
        | zero => rfl
        | succ n => exact if_pos hlast
      refine ⟨last, ?_, fun h _ => hready h⟩
      rw [hloop, hnil]
      rfl
  | cons e es ih =>
      rw [List.length_cons] at hn
      rw [List.flatMap_cons, List.append_assoc] at hrest
      by_cases h : e.reg.macAddr = vs.pucEui48
      · obtain ⟨n, rfl⟩ : ∃ k, n = k + 3 := ⟨n - 3, by omega⟩
        obtain ⟨st1, hrest1, hready1, hloop1⟩ := updateLoop_node (g := g) (n := n) hrest h
        obtain ⟨last, hloop, hready⟩ := ih (n := n) (by omega) hrest1
        refine ⟨last, ?_, fun hst hroom => ?_⟩
        · rw [hloop1, hloop]
          simp [h]
        · rw [List.forall_mem_cons] at hroom
          exact hready (hready1 hst (hroom.1 h)) hroom.2
      · have hlen : e.lines.length = 11 := by rw [Entry.lines_eq]; rfl
        obtain ⟨n, rfl⟩ : ∃ k, n = k + e.lines.length := ⟨n - 11, by omega⟩
        obtain ⟨st1, hrest1, hready1, hloop1⟩ :=
          updateLoop_copies g vs n hrest fun l hl =>
            ⟨Entry.zero_not_mem_lines l hl, Entry.take_lines_ne h l hl⟩
        obtain ⟨last, hloop, hready⟩ := ih (n := n) (by omega) hrest1
        refine ⟨last, ?_, fun hst hroom => ?_⟩
        · rw [hloop1, hloop]
          simp [h, Entry.update_of_ne h, Entry.prints_eq]
        · rw [List.forall_mem_cons] at hroom
          exact hready (hready1 hst) hroom.2

/-- The prints of an update: the MAC it looks for, and the file line by line. -/
def updatePrints (vs : XCliNodeVs) (es : List Entry) : List Sprintf :=
  [⟨60, macLine vs.pucEui48⟩, ⟨60, xmlLine⟩, ⟨60, text "<nodelist>\r\n"⟩]
    ++ (es.map (Entry.update vs)).flatMap Entry.prints ++ [⟨60, text "</nodelist>"⟩]

theorem written_updatePrints (vs : XCliNodeVs) (es : List Entry) :
    written ((updatePrints vs es).drop 1) = nodelist (es.map (Entry.update vs)) := by
  show written ([⟨60, xmlLine⟩, ⟨60, text "<nodelist>\r\n"⟩]
    ++ (es.map (Entry.update vs)).flatMap Entry.prints ++ [⟨60, text "</nodelist>"⟩]) = _
  rw [written_append, written_append, written_flatMap_prints, nodelist, nodelistLines,
    List.flatten_append]
  rfl

theorem ready_ofFile (file : List UInt8) : (Stream.ofFile file).Ready :=
  ⟨fun _ _ hlt => absurd hlt (Nat.not_lt_zero _), List.forall_mem_nil _⟩

/-- The loop over the lines of the file. -/
theorem updateLoop_nodelist (g : Growth) (vs : XCliNodeVs) (hes : ∀ e ∈ es, e.OneLine) :
    ∃ last : Stream, updateLoop g vs (Stream.ofFile (nodelist es)).rest.length
          (Stream.ofFile (nodelist es))
        = (decide (∃ e ∈ es, e.reg.macAddr = vs.pucEui48), last, (updatePrints vs es).drop 1)
      ∧ ((∀ e ∈ es, e.reg.macAddr = vs.pucEui48 → e.Room vs.texts) → last.Ready) := by
  have hlen : (es.flatMap Entry.lines).length = 11 * es.length := by
    rw [List.length_flatMap, List.map_congr_left (g := fun _ => 11) fun e _ => by
      rw [Entry.lines_eq]; rfl]
    simp [Nat.mul_comm]
  have hhead : ∀ l ∈ [xmlLine, text "<nodelist>\r\n"], 0 ∉ l
      ∧ l.take (macLine vs.pucEui48).length ≠ macLine vs.pucEui48 := by
    simp only [List.forall_mem_cons, List.not_mem_nil, false_imp_iff, implies_true, and_true]
    exact ⟨⟨by decide, take_ne_macLine (by decide)⟩, by decide, take_ne_macLine (by decide)⟩
  have hrest : (Stream.ofFile (nodelist es)).rest = [xmlLine, text "<nodelist>\r\n"]
      ++ (es.flatMap Entry.lines ++ [text "</nodelist>"]) := by
    show lines newline (nodelist es) = _
    rw [lines_nodelist hes, nodelistLines, List.append_assoc]
  have hready := ready_ofFile (nodelist es)
  generalize Stream.ofFile (nodelist es) = stream at hrest hready ⊢
  have hn : stream.rest.length = 11 * es.length + 1 + 2 := by
    rw [hrest, List.length_append, List.length_append, hlen, Nat.add_comm]
    rfl
  obtain ⟨st, hst, hready1, hloop⟩ :=
    updateLoop_copies g vs (11 * es.length + 1) hrest hhead
  obtain ⟨last, hlast, hready2⟩ := updateLoop_nodes (g := g) (Nat.lt_succ_self _) hst
  refine ⟨last, ?_, fun hroom => hready2 (hready1 hready) hroom⟩
  rw [hn]
  show updateLoop g vs (11 * es.length + 1 + [xmlLine, text "<nodelist>\r\n"].length) _ = _
  rw [hloop, hlast]
  rfl

/-- **The update of the text is the update of the list.** -/
theorem update_nodelist (g : Growth) (vs : XCliNodeVs) (hes : ∀ e ∈ es, e.OneLine)
    (hfile : f.nodelistEnd = some (nodelist es)) :
    ∃ reads, xmlRepUpdateNodeVersion g vs f
        = { f with
            nodelistTmp := some (nodelist (es.map (Entry.update vs)))
            nodelistEnd := some (nodelist (es.map (Entry.update vs)))
            sprintfs := f.sprintfs ++ updatePrints vs es
            getlines := f.getlines ++ reads }
      ∧ ((∀ e ∈ es, e.reg.macAddr = vs.pucEui48 → e.Room vs.texts) → ∀ r ∈ reads, r.Fits) := by
  obtain ⟨last, hloop, hready⟩ := updateLoop_nodelist g vs hes
  have hwritten := written_updatePrints vs es
  have hsplit : updatePrints vs es = [⟨60, macLine vs.pucEui48⟩] ++ (updatePrints vs es).drop 1 :=
    rfl
  refine ⟨last.getlines, ?_, fun hroom => (hready hroom).getlines⟩
  rw [hsplit]
  unfold xmlRepUpdateNodeVersion
  rw [hfile]
  dsimp only
  rw [hloop]
  generalize (updatePrints vs es).drop 1 = prints at hwritten ⊢
  show (if decide (∃ e ∈ es, e.reg.macAddr = vs.pucEui48) = true then _ else _) = _
  split_ifs with hfound
  · unfold Files.writeTmp
    simp only [Option.map_some, List.nil_append, hwritten, Option.getD_some, List.append_assoc]
  · -- the list without the node is the list as it is
    have hsame : es.map (Entry.update vs) = es := by
      conv_rhs => rw [← List.map_id es]
      apply List.map_congr_left
      intro e he
      exact Entry.update_of_ne fun h => hfound (decide_eq_true ⟨e, he, h⟩)
    unfold Files.writeTmp
    simp only [Option.map_some, List.nil_append, hwritten, hsame, List.append_assoc]

/-- The prints of an update stay inside the array if the strings that are printed are short
enough. -/
theorem fits_updatePrints (vs : XCliNodeVs)
    (h : ∀ e ∈ es.map (Entry.update vs), ∀ x ∈ e.texts, x.Short) :
    ∀ p ∈ updatePrints vs es, p.Fits := by
  have hmac : (⟨60, macLine vs.pucEui48⟩ : Sprintf).Fits := by
    unfold Sprintf.Fits
    rw [length_macLine vs.length_eui48]
    exact (by decide : 27 < 60)
  simp only [updatePrints, List.forall_mem_append, List.forall_mem_cons, List.not_mem_nil,
    false_imp_iff, implies_true, and_true]
  refine ⟨⟨⟨hmac, by decide, by decide⟩, ?_⟩, by decide⟩
  intro p hp
  obtain ⟨e, he, hpe⟩ := List.mem_flatMap.mp hp
  exact fits_nodePrints_iff.mpr (h e he) p hpe

/-- What is printed of an entry stays printable. -/
theorem printable_update (he : ∀ x ∈ e.texts, Printable x) (hvs : Printable vs.texts) :
    ∀ x ∈ (e.update vs).texts, Printable x := by
  unfold Entry.update
  split_ifs
  · intro x hx
    obtain rfl := Option.some.inj hx
    exact hvs
  · exact he

/-- The reports come one after the other, and the strings that one of them replaces find room
when they are read. -/
def RoomAlong : List XCliNodeVs → List Entry → Prop
  | [], _ => True
  | vs :: vss, es => (∀ e ∈ es, e.reg.macAddr = vs.pucEui48 → e.Room vs.texts)
      ∧ RoomAlong vss (es.map (Entry.update vs))

instance decidableRoomAlong :
    ∀ (vss : List XCliNodeVs) (es : List Entry), Decidable (RoomAlong vss es)
  | [], _ => isTrue trivial
  | vs :: vss, es =>
      have := decidableRoomAlong vss (es.map (Entry.update vs))
      inferInstanceAs (Decidable (_ ∧ _))

/-- The files after some reports. -/
def updated (g : Growth) (vss : List XCliNodeVs) (f : Files) : Files :=
  vss.foldl (fun f vs => xmlRepUpdateNodeVersion g vs f) f

end Node

/-- What the node of `oneNode` reports. -/
def oneReport (vendor model version : List UInt8) : XCliNodeVs where
  pucEui48 := oneEui48
  texts := ⟨cString vendor, cString model, cString version⟩
  length_eui48 := length_oneEui48

/-- A block that is too small becomes twice as large, or as large as the line needs. -/
def doubling : Growth where
  size := fun rest len => max (2 * len) ((rest.headD []).length + 1)
  lt_size := fun line _ len => le_max_right (2 * len) (line.length + 1)

/-- Without the room a line leaves its block: the vendor of the node was empty and its model is
not, and then it reports a vendor of 32 characters. -/
theorem not_fits_getline : ∃ r ∈ (updated doubling
    [oneReport [] (List.replicate 32 0x42) [], oneReport (List.replicate 32 0x41) [] []]
    ⟨none, some (nodelist [oneNode none]), none, [], []⟩).getlines, ¬ r.Fits := by
  decide +kernel

end XmlRep
