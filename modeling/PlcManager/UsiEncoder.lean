/-
# The encoder meets the frame format

`_usi_encode_and_send` lays a message out in `puc_txbuf0`, escapes it in place and
writes it.  For a message whose frame fits the buffer the cells from 0 on hold
exactly that frame when the `write` loop starts; for any other message the encoder
gives up before it writes.

The escape loop is followed with one invariant: in front of the index the cells are
final, behind it they still hold the plain text, and `ul_size_coded` counts both
together with the closing mark.
-/
import PlcManager.UsiFrame

namespace Usi

variable {m : Mem UInt8}

/-! ## Shifting right -/

/-- **The right shift.**  Each round of `_usi_shift_buffer_right` moves one byte up; the backup
that the toggling index points away from holds the byte to be written next.  The index behind
`us_idx` is one of 16 bits. -/
theorem usiShiftBufferRight_eq (m : Mem UInt8) (usIdx usLen : ℕ) :
    usiShiftBufferRight m usIdx usLen = m.storeList ((usIdx + 1) % 65536)
      (m.cell usIdx :: m.slice ((usIdx + 1) % 65536) usLen).dropLast := by
  unfold usiShiftBufferRight
  generalize (usIdx + 1) % 65536 = usOrig
  dsimp only
  -- after `i` rounds, with the last of the bytes in the backup
  refine (forRange_induction (fun i (t : Mem UInt8 × (Bool → UInt8) × Bool) =>
    t.1 = m.storeList usOrig (m.cell usIdx :: m.slice usOrig i).dropLast
      ∧ (m.cell usIdx :: m.slice usOrig i).dropLast ++ [t.2.1 (!t.2.2)]
        = m.cell usIdx :: m.slice usOrig i) (Nat.zero_le usLen) ⟨rfl, rfl⟩ ?_).1
  rintro i ⟨t, chars, idx⟩ - - ⟨rfl, hback⟩
  have hlen : (m.cell usIdx :: m.slice usOrig i).dropLast.length = i := by simp
  have hnext : m.cell usIdx :: m.slice usOrig (i + 1)
      = (m.cell usIdx :: m.slice usOrig i) ++ [m.cell (usOrig + i)] := by
    rw [Mem.slice_concat, List.cons_append]
  have hread : (m.storeList usOrig (m.cell usIdx :: m.slice usOrig i).dropLast).cell (usOrig + i)
      = m.cell (usOrig + i) := by
    apply Mem.cell_storeList_of_not_mem
    omega
  have hchars : Function.update chars idx (m.cell (usOrig + i)) (!idx) = chars (!idx) :=
    Function.update_of_ne (Bool.not_ne_self idx) _ _
  dsimp only at hback ⊢
  rw [hread, hchars, hnext, List.dropLast_concat, Bool.not_not, Function.update_self]
  refine ⟨?_, rfl⟩
  conv_rhs => rw [← hback]
  rw [Mem.storeList_append, hlen]
  rfl

/-- As long as the index behind `us_idx` has 16 bits, the bytes are moved as one. -/
theorem usiShiftBufferRight_of_lt {usIdx usLen : ℕ} (h : usIdx + 1 < 65536) :
    usiShiftBufferRight m usIdx usLen = m.storeList (usIdx + 1) (m.slice usIdx usLen) := by
  rw [usiShiftBufferRight_eq, Nat.mod_eq_of_lt h, ← Mem.slice_succ, Mem.slice_concat,
    List.dropLast_concat]

theorem cell_usiShiftBufferRight {usIdx usLen : ℕ} (h : usIdx + 1 < 65536) (j : ℕ) :
    (usiShiftBufferRight m usIdx usLen).cell j
      = if usIdx + 1 ≤ j ∧ j < usIdx + 1 + usLen then m.cell (j - 1) else m.cell j := by
  rw [usiShiftBufferRight_of_lt h]
  split_ifs with hj
  · obtain ⟨k, rfl⟩ := Nat.exists_eq_add_of_le hj.1
    rw [Mem.cell_storeList_of_lt (by rw [Mem.length_slice]; omega), Mem.getElem_slice]
    congr 1
    omega
  · apply Mem.cell_storeList_of_not_mem
    rw [Mem.length_slice]
    omega

/-- Storing an escape pair over a byte at `idx`: the text behind moves up by one. -/
theorem slice_escape {idx usLen : ℕ} {b : UInt8} (h : idx + 2 < 65536) :
    ((usiShiftBufferRight (m.store idx escMark) (idx + 1) usLen).store (idx + 1) b).slice
        (idx + 2) usLen = m.slice (idx + 1) usLen := by
  apply Mem.slice_eq (by simp)
  intro k hk
  rw [Mem.length_slice] at hk
  rw [Mem.getElem_slice, Mem.cell_store_of_ne (by omega), cell_usiShiftBufferRight (by omega),
    if_pos (by omega), Mem.cell_store_of_ne (by omega)]
  congr 1
  omega

/-- What stands in front of `idx` and the pair itself. -/
theorem cell_escape {idx usLen j : ℕ} {b : UInt8} (h : idx + 2 < 65536) (hj : j < idx + 2) :
    ((usiShiftBufferRight (m.store idx escMark) (idx + 1) usLen).store (idx + 1) b).cell j
      = if j = idx + 1 then b else if j = idx then escMark else m.cell j := by
  rw [Mem.cell_store]
  split_ifs with h1 h2
  · rfl
  · rw [cell_usiShiftBufferRight (by omega), if_neg (by omega), h2, Mem.cell_store_self]
  · rw [cell_usiShiftBufferRight (by omega), if_neg (by omega), Mem.cell_store_of_ne h2]

/-! ## The next byte to escape -/

/-- The two searches find the first byte that needs an escape, or that there is
none. -/
theorem nextToken_spec {p usLen : ℕ} {xs : List UInt8} (h : m.slice p usLen = xs) :
    (nextToken m p usLen = none ∧ ∀ b ∈ xs, ¬ usiEscapes.Special b) ∨
      ∃ ys x zs, xs = ys ++ x :: zs ∧ (∀ b ∈ ys, ¬ usiEscapes.Special b) ∧ usiEscapes.Special x
        ∧ nextToken m p usLen = some (p + ys.length, usiEscapes.sub x) := by
  subst h
  have plain : ∀ {ys : List UInt8}, msgMark ∉ ys → escMark ∉ ys →
      ∀ b ∈ ys, ¬ usiEscapes.Special b := by
    rintro ys h1 h2 b hb (rfl | rfl)
    · exact h1 hb
    · exact h2 hb
  unfold nextToken
  cases hmark : m.find msgMark p usLen with
  | none =>
      have hno := Mem.find_eq_none.mp hmark
      cases hesc : m.find escMark p usLen with
      | none => exact Or.inl ⟨rfl, plain hno (Mem.find_eq_none.mp hesc)⟩
      | some token =>
          obtain ⟨hp, hlt, -, hfirst⟩ := Mem.find_eq_some.mp hesc
          have hsplit := Mem.slice_of_find hesc
          rw [hsplit, List.mem_append, not_or] at hno
          refine Or.inr ⟨_, escMark, _, hsplit, plain hno.1 hfirst, Or.inr rfl, ?_⟩
          rw [Mem.length_slice, show p + (token - p) = token by omega]
          rfl
  | some token =>
      obtain ⟨hp, hlt, -, hfirst⟩ := Mem.find_eq_some.mp hmark
      have hsplit := Mem.slice_of_find hmark
      cases hesc : m.find escMark p (token - p) with
      | none =>
          refine Or.inr ⟨_, msgMark, _, hsplit, plain hfirst (Mem.find_eq_none.mp hesc),
            Or.inl rfl, ?_⟩
          rw [Mem.length_slice, show p + (token - p) = token by omega]
          simp only [hesc]
          rfl
      | some aux =>
          obtain ⟨hp', hlt', -, hfirst'⟩ := Mem.find_eq_some.mp hesc
          have hsplit' := Mem.slice_of_find hesc
          rw [hsplit', List.mem_append, not_or] at hfirst
          rw [hsplit', List.append_assoc, List.cons_append] at hsplit
          refine Or.inr ⟨_, escMark, _, hsplit, plain hfirst.1 hfirst', Or.inr rfl, ?_⟩
          rw [Mem.length_slice, show p + (aux - p) = aux by omega]
          simp only [hesc]
          rfl

/-! ## The escape loop -/

/-- A round that finds a byte to escape behind `ys`: it gives up for lack of room, or
continues behind the two bytes that stand for the one. -/
theorem escapeLoop_token {usSize fuel a usLen n : ℕ} {ys zs : List UInt8} {r : UInt8}
    (hlen : usLen = ys.length + (zs.length + 1))
    (htoken : nextToken m a usLen = some (a + ys.length, r)) :
    escapeLoop 0 usSize (fuel + 1) m a usLen n
      = if n + 1 > usSize then (m, none)
        else escapeLoop 0 usSize fuel
          ((usiShiftBufferRight (m.store (a + ys.length) escMark) (a + ys.length + 1)
            zs.length).store (a + ys.length + 1) r)
          (a + ys.length + 2) zs.length (n + 1) := by
  rw [escapeLoop, if_neg (by omega), Nat.zero_add, htoken]
  simp only [Nat.zero_add, Nat.add_sub_cancel_left]
  rw [show usLen - (ys.length + 1) = zs.length by omega]

/-- In front of the text that the next rounds leave stand the plain bytes `ys` and the
two bytes of the escape. -/
theorem slice_escaped {m' : Mem UInt8} {a n : ℕ} {ys ws : List UInt8} {r : UInt8}
    (hbound : a + ys.length + 2 < 65536) (hys : m.slice a ys.length = ys)
    (hfront : ∀ j < a + ys.length + 2, m'.cell j
      = ((usiShiftBufferRight (m.store (a + ys.length) escMark) (a + ys.length + 1) n).store
          (a + ys.length + 1) r).cell j)
    (htail : m'.slice (a + ys.length + 2) ws.length = ws) :
    m'.slice a (ys.length + 2 + ws.length) = ys ++ escMark :: r :: ws := by
  have h1 : m'.slice a ys.length = ys := by
    refine Eq.trans (Mem.slice_congr fun k hk hk' => ?_) hys
    rw [hfront k (by omega), cell_escape (by omega) (by omega), if_neg (by omega),
      if_neg (by omega)]
  have h2 : m'.cell (a + ys.length) = escMark := by
    rw [hfront _ (by omega), cell_escape (by omega) (by omega), if_neg (by omega), if_pos rfl]
  have h3 : m'.cell (a + ys.length + 1) = r := by
    rw [hfront _ (by omega), cell_escape (by omega) (by omega), if_pos rfl]
  rw [show ys.length + 2 + ws.length = ys.length + (1 + (1 + ws.length)) by omega,
    Mem.slice_add, Mem.slice_add, Mem.slice_add, h1]
  simp only [Mem.slice_succ, Mem.slice_zero, h2, h3, List.cons_append, List.nil_append]
  rw [show a + ys.length + 1 + 1 = a + ys.length + 2 by omega, htail]

/-- **The escape loop.**  With `usLen` plain bytes `xs` at `a` and a count that
covers what is in front, `xs` and the closing mark, the loop leaves the stuffed
text at `a` if it fits and gives up otherwise. -/
theorem escapeLoop_spec {usSize : ℕ} (hsize : usSize < 65536) (fuel : ℕ) :
    ∀ (m : Mem UInt8) (a usLen : ℕ) (xs : List UInt8), usLen ≤ fuel → m.slice a usLen = xs →
      a + usLen + 1 ≤ usSize →
      if a + (usiEscapes.stuff xs).length + 1 ≤ usSize then
        ∃ m', escapeLoop 0 usSize fuel m a usLen (a + usLen + 1)
            = (m', some (a + (usiEscapes.stuff xs).length))
          ∧ m'.slice a (usiEscapes.stuff xs).length = usiEscapes.stuff xs
          ∧ ∀ j < a, m'.cell j = m.cell j
      else ∃ m', escapeLoop 0 usSize fuel m a usLen (a + usLen + 1) = (m', none) := by
  -- on the fuel, for every place in the buffer; a round uses up at least one byte
  induction fuel with
  | zero =>
      intro m a usLen xs hfuel hxs hroom
      obtain rfl : usLen = 0 := by omega
      subst hxs
      rw [if_pos (by simpa using hroom)]
      exact ⟨m, by simp [escapeLoop], rfl, fun _ _ => rfl⟩
  | succ fuel ih =>
      intro m a usLen xs hfuel hxs hroom
      have hlen : xs.length = usLen := by rw [← hxs, Mem.length_slice]
      by_cases hzero : usLen = 0
      · subst hzero
        subst hxs
        rw [if_pos (by simpa using hroom)]
        exact ⟨m, by simp [escapeLoop], rfl, fun _ _ => rfl⟩
      rcases nextToken_spec hxs with ⟨hnone, hplain⟩ | ⟨ys, x, zs, hsplit, hys, hx, hsome⟩
      · -- nothing left to escape: the rest is taken over as it is
        rw [usiEscapes.stuff_eq_self hplain, hlen, if_pos hroom]
        refine ⟨m, ?_, hxs, fun _ _ => rfl⟩
        rw [escapeLoop, if_neg hzero, Nat.zero_add, hnone]
        cases fuel <;> simp [escapeLoop]
      have hcount : usLen = ys.length + (zs.length + 1) := by
        rw [← hlen, hsplit]
        simp
      have hstuff : usiEscapes.stuff xs
          = ys ++ escMark :: usiEscapes.sub x :: usiEscapes.stuff zs := by
        rw [hsplit, usiEscapes.stuff_append, usiEscapes.stuff_eq_self hys,
          usiEscapes.stuff_cons_of_special hx]
        rfl
      have hstufflen : (usiEscapes.stuff xs).length
          = ys.length + 2 + (usiEscapes.stuff zs).length := by
        rw [hstuff]
        simp
        omega
      have hzs := usiEscapes.length_le_length_stuff zs
      rw [escapeLoop_token hcount hsome]
      by_cases hfull : a + usLen + 1 + 1 > usSize
      · rw [if_pos hfull, if_neg (by omega)]
        exact ⟨m, rfl⟩
      rw [if_neg hfull]
      obtain ⟨hyslice, hrest⟩ := Mem.slice_append (hxs.trans hsplit)
      have hzslice : m.slice (a + ys.length + 1) zs.length = zs := (List.cons_eq_cons.mp hrest).2
      have hrec := ih ((usiShiftBufferRight (m.store (a + ys.length) escMark)
          (a + ys.length + 1) zs.length).store (a + ys.length + 1) (usiEscapes.sub x))
        (a + ys.length + 2) zs.length zs (by omega)
        ((slice_escape (by omega)).trans hzslice) (by omega)
      rw [show a + ys.length + 2 + zs.length + 1 = a + usLen + 1 + 1 by omega] at hrec
      rw [hstufflen, show a + (ys.length + 2 + (usiEscapes.stuff zs).length)
        = a + ys.length + 2 + (usiEscapes.stuff zs).length by omega]
      split_ifs at hrec ⊢ with hfit
      · obtain ⟨m', hm', htail, hfront⟩ := hrec
        refine ⟨m', hm', ?_, fun j hj => ?_⟩
        · rw [hstuff]
          exact slice_escaped (by omega) hyslice hfront htail
        · rw [hfront j (by omega), cell_escape (by omega) (by omega), if_neg (by omega),
            if_neg (by omega)]
      · exact hrec

/-! ## The laid out message -/

namespace XUsiCmd

/-- The payload as it goes on the wire: the first byte of a PRIME API message
carries the eleventh length bit in its top bit. -/
def wirePayload (msg : XUsiCmd) : List UInt8 :=
  if msg.ucPType = protocolPrimeApi then
    (lenExProtocol msg.usLen + cmdProtocol (msg.pucBuf.headD 0)) :: msg.pucBuf.tail
  else msg.pucBuf

/-- The encoded frame of a command. -/
def frame (msg : XUsiCmd) : List UInt8 := Usi.frame msg.ucPType msg.wirePayload

variable (msg : XUsiCmd)

theorem length_wirePayload {msg : XUsiCmd} (hne : msg.pucBuf ≠ []) :
    msg.wirePayload.length = msg.usLen := by
  unfold wirePayload usLen
  split_ifs
  · rw [List.length_cons, List.length_tail]
    have := List.length_pos_iff.mpr hne
    omega
  · rfl

theorem length_frame :
    msg.frame.length
      = (usiEscapes.stuff (body msg.ucPType msg.wirePayload)).length + 2 :=
  usiEscapes.length_delimit _

/-- A frame is never shorter than its message. -/
theorem le_length_frame {msg : XUsiCmd} (hne : msg.pucBuf ≠ []) :
    msg.usLen + 4 + crcLen msg.ucPType ≤ msg.frame.length := by
  have h := usiEscapes.length_le_length_stuff (body msg.ucPType msg.wirePayload)
  rw [length_body, length_wirePayload hne] at h
  rw [length_frame]
  omega

theorem laidOutLen_eq (h : msg.usLen + 7 < 65536) :
    laidOutLen msg = msg.usLen + 3 + crcLen msg.ucPType := by
  unfold laidOutLen crcLen
  apply Nat.mod_eq_of_lt
  split_ifs <;> omega

/-- The payload as it stands in the buffer once the extended bit is set. -/
theorem slice_layOut_payload {msg : XUsiCmd} (hne : msg.pucBuf ≠ []) (m : Mem UInt8) :
    (if msg.ucPType = protocolPrimeApi then
        (m.storeList 3 msg.pucBuf).store 3
          (lenExProtocol msg.usLen + cmdProtocol (msg.pucBuf.headD 0))
      else m.storeList 3 msg.pucBuf).slice 3 msg.usLen = msg.wirePayload := by
  unfold wirePayload
  split_ifs
  · obtain ⟨b, bs, hb⟩ := List.exists_cons_of_ne_nil hne
    have hlen : msg.usLen = bs.length + 1 := by rw [usLen, hb, List.length_cons]
    rw [hlen, Mem.slice_succ, Mem.cell_store_self, Mem.slice_store_of_disjoint (by omega), hb,
      Mem.storeList_cons, Mem.slice_storeList]
    rfl
  · exact Mem.slice_storeList

/-- **Layout.**  Opening mark and body, ready to be escaped. -/
theorem slice_layOut {msg : XUsiCmd} (hne : msg.pucBuf ≠ []) (m : Mem UInt8) :
    (layOut m 0 msg).slice 0 (msg.usLen + 3 + crcLen msg.ucPType)
      = msgMark :: body msg.ucPType msg.wirePayload := by
  have hlen := length_wirePayload hne
  set m1 := m.storeList 0
    [msgMark, lenHiProtocol msg.usLen, lenLoProtocol msg.usLen + typeProtocol msg.ucPType]
    with hm1
  set m2 := if msg.ucPType = protocolPrimeApi then
      (m1.storeList 3 msg.pucBuf).store 3
        (lenExProtocol msg.usLen + cmdProtocol (msg.pucBuf.headD 0))
    else m1.storeList 3 msg.pucBuf with hm2
  have hpay : m2.slice 3 msg.usLen = msg.wirePayload := slice_layOut_payload hne m1
  have hfront : m2.slice 0 3 = msgMark :: header msg.ucPType msg.usLen := by
    have h1 : m1.slice 0 3 = msgMark :: header msg.ucPType msg.usLen := Mem.slice_storeList
    rw [← h1, hm2]
    split_ifs
    · rw [Mem.slice_store_of_disjoint (by omega), Mem.slice_storeList_of_disjoint (by omega)]
    · exact Mem.slice_storeList_of_disjoint (by omega)
  have hplain : m2.slice 0 (3 + msg.usLen)
      = msgMark :: (header msg.ucPType msg.usLen ++ msg.wirePayload) := by
    rw [Mem.slice_add, hfront, Nat.zero_add, hpay, List.cons_append]
  have hcrc : m2.slice 1 (msg.usLen + 2) = header msg.ucPType msg.usLen ++ msg.wirePayload := by
    rw [show 3 + msg.usLen = (msg.usLen + 2) + 1 by omega, Mem.slice_succ] at hplain
    exact (List.cons_eq_cons.mp hplain).2
  have hlay : layOut m 0 msg = m2.storeList (0 + (3 + msg.usLen))
      (crcBytes msg.ucPType (usiCrc msg.ucPType
        (header msg.ucPType msg.usLen ++ msg.wirePayload))) := by
    rw [← hcrc, ← halPcrcCalc_usi, Nat.zero_add]
    rfl
  rw [show msg.usLen + 3 = 3 + msg.usLen by omega,
    ← length_crcBytes msg.ucPType
      (usiCrc msg.ucPType (header msg.ucPType msg.usLen ++ msg.wirePayload)),
    hlay, Mem.slice_storeList_append hplain, body, hlen]
  simp

end XUsiCmd

/-! ## Encode and send -/

/-- What the `write` calls accepted. -/
def written (events : List Event) : List UInt8 :=
  events.flatMap fun
    | .callback _ _ _ => []
    | .write _ bytes => bytes

@[simp] theorem written_nil : written [] = [] := rfl

@[simp] theorem written_write (fd : ℤ) (bytes : List UInt8) (events : List Event) :
    written (.write fd bytes :: events) = bytes ++ written events := rfl

/-- **A frame that fits.**  The `write` loop starts with the frame in the buffer and
its length in `us_len` and `us_idx_in`. -/
theorem usiEncodeAndSend_of_fits {s : State} {msg : XUsiCmd}
    (hidx : s.usIdxIn = 0) (hsize : s.txUsSize ≤ txauxSize) (hne : msg.pucBuf ≠ [])
    (hfit : msg.frame.length ≤ s.txUsSize) :
    ∃ m', m'.slice 0 msg.frame.length = msg.frame ∧
      ∀ w, usiEncodeAndSend w s msg
        = (sendLoop w.result (if msg.fd < 0 then s.portFd else msg.fd) m' msg.frame.length
            w.patience 0 msg.frame.length).map
          fun r => ({ s with pucTxbuf0 := m', usIdxIn := r.1 }, r.2.1, r.2.2) := by
  have hmin := XUsiCmd.le_length_frame hne
  have hcrc := crcLen_le msg.ucPType
  have hpos := crcLen_pos msg.ucPType
  unfold txauxSize at hsize
  have hlaid := msg.laidOutLen_eq (by omega)
  have hlay := XUsiCmd.slice_layOut hne s.pucTxbuf0
  rw [show msg.usLen + 3 + crcLen msg.ucPType = (msg.usLen + 2 + crcLen msg.ucPType) + 1 by omega,
    Mem.slice_succ] at hlay
  obtain ⟨hmark, hbody⟩ := List.cons_eq_cons.mp hlay
  have hloop := escapeLoop_spec (show s.txUsSize < 65536 by omega)
    (msg.usLen + 2 + crcLen msg.ucPType) _ 1 _ _ le_rfl hbody (by omega)
  have hframe := msg.length_frame
  rw [if_pos (by omega)] at hloop
  obtain ⟨m1, hm1, hstuff, hfront⟩ := hloop
  set k := (usiEscapes.stuff (body msg.ucPType msg.wirePayload)).length with hk
  refine ⟨m1.store (1 + k) msgMark, ?_, ?_⟩
  · rw [hframe, show k + 2 = 1 + k + 1 by omega, Mem.slice_add, Nat.zero_add, Mem.slice_succ,
      Mem.slice_zero, Mem.cell_store_self, Mem.slice_store_of_disjoint (by omega), Mem.slice_add,
      Nat.zero_add, hstuff, Mem.slice_succ, Mem.slice_zero, hfront 0 (by omega), hmark]
    rfl
  · intro w
    have hone : uint16 ((laidOutLen msg : ℤ) - 1) = msg.usLen + 2 + crcLen msg.ucPType := by
      rw [hlaid, uint16_of_nonneg (by omega) (by omega)]
      omega
    have hmod : (1 + k + 1) % 65536 = msg.frame.length := by omega
    unfold usiEncodeAndSend
    simp only [hidx, hone]
    rw [if_neg (by omega), hlaid, Nat.zero_add,
      show msg.usLen + 3 + crcLen msg.ucPType + 1
        = 1 + (msg.usLen + 2 + crcLen msg.ucPType) + 1 by omega, hm1]
    simp only [hmod]

/-- **A frame that does not fit.**  The encoder gives up and writes nothing. -/
theorem usiEncodeAndSend_of_overflow {w : Writes} {s : State} {msg : XUsiCmd}
    (hidx : s.usIdxIn = 0) (hsize : s.txUsSize ≤ txauxSize) (hne : msg.pucBuf ≠ [])
    (hlen : msg.usLen + 7 < 65536) (hover : s.txUsSize < msg.frame.length) :
    ∃ m', usiEncodeAndSend w s msg = some ({ s with pucTxbuf0 := m' }, .txBufferOverflow, []) := by
  have hpos := crcLen_pos msg.ucPType
  unfold txauxSize at hsize
  have hlaid := msg.laidOutLen_eq hlen
  unfold usiEncodeAndSend
  simp only [hidx, hlaid, Nat.zero_add]
  by_cases hroom : msg.usLen + 3 + crcLen msg.ucPType + 1 > s.txUsSize
  · rw [if_pos hroom]
    exact ⟨_, rfl⟩
  · rw [if_neg hroom]
    have hlay := XUsiCmd.slice_layOut hne s.pucTxbuf0
    rw [show msg.usLen + 3 + crcLen msg.ucPType = (msg.usLen + 2 + crcLen msg.ucPType) + 1 by omega,
      Mem.slice_succ] at hlay
    obtain ⟨-, hbody⟩ := List.cons_eq_cons.mp hlay
    have hloop := escapeLoop_spec (show s.txUsSize < 65536 by omega)
      (msg.usLen + 2 + crcLen msg.ucPType) _ 1 _ _ le_rfl hbody (by omega)
    have hframe := msg.length_frame
    rw [if_neg (by omega)] at hloop
    obtain ⟨m1, hm1⟩ := hloop
    have hone : uint16 (((msg.usLen + 3 + crcLen msg.ucPType : ℕ) : ℤ) - 1)
        = msg.usLen + 2 + crcLen msg.ucPType := by
      rw [uint16_of_nonneg (by omega) (by omega)]
      omega
    rw [hone, show msg.usLen + 3 + crcLen msg.ucPType + 1
      = 1 + (msg.usLen + 2 + crcLen msg.ucPType) + 1 by omega, hm1]
    exact ⟨m1, rfl⟩

/-- A `write` that takes everything ends the loop in its first round. -/
theorem sendLoop_acceptAll {fdWr : ℤ} {m : Mem UInt8} {usLen : ℕ} (h0 : 0 < usLen)
    (h : usLen < 65536) :
    sendLoop Writes.acceptAll.result fdWr m usLen Writes.acceptAll.patience 0 usLen
      = some (0, .ok, [.write fdWr (m.slice 0 usLen)]) := by
  have hz : uint16 0 = 0 := rfl
  simp only [Writes.acceptAll, sendLoop]
  rw [if_neg (by omega), if_pos (by omega)]
  simp [hz]

/-- A command whose frame fits is written in one piece, and `us_idx_in` is back at 0. -/
theorem usiEncodeAndSend_acceptAll {s : State} {msg : XUsiCmd}
    (hidx : s.usIdxIn = 0) (hsize : s.txUsSize ≤ txauxSize) (hne : msg.pucBuf ≠ [])
    (hfit : msg.frame.length ≤ s.txUsSize) :
    ∃ m', usiEncodeAndSend .acceptAll s msg = some ({ s with pucTxbuf0 := m', usIdxIn := 0 }, .ok,
      [.write (if msg.fd < 0 then s.portFd else msg.fd) msg.frame]) := by
  obtain ⟨m', hm', hsend⟩ := usiEncodeAndSend_of_fits hidx hsize hne hfit
  have heq := hsend .acceptAll
  have hlen := msg.length_frame
  unfold txauxSize at hsize
  rw [sendLoop_acceptAll (by omega) (by omega), hm'] at heq
  exact ⟨m', heq⟩

end Usi
