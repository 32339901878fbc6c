/-
# What the receive functions compute

One specification for each function of the receive half: the left shift, the
in-place unescaping, the length check, the CRC check and the dispatcher.  A
message between two marks is seen as the list of its bytes; `unescape` is what
`_decode_copy` makes of it, which is more than `Escapes.unstuff` allows: an escape
mark in last place is never looked at and stays.
-/
import PlcManager.UsiFrame
import PlcManager.UsiReceive

namespace Usi

variable {m : Mem UInt8}

/-! ## Shifting left -/

/-- **The left shift.**  The bytes move down by `n` as one, the gap is filled with zeros. -/
theorem usiShiftBufferLeft_eq {puc n len : ℕ} (hn : n ≤ len) (hlen : len < 32768) :
    usiShiftBufferLeft m puc n len
      = m.storeList puc (m.slice (puc + n) (len - n) ++ List.replicate n 0) := by
  have hlo : uint16 (n : ℤ) = n := uint16_natCast (by omega)
  have hmid : uint16 ((len : ℤ) - n) = len - n := by
    rw [uint16_of_nonneg (by omega) (by omega)]
    omega
  have hcopy : forRange n len
      (fun i t => t.store (puc + ((i : ℤ) - n).toNat) (t.cell (puc + i))) m
        = m.storeList puc (m.slice (puc + n) (len - n)) := by
    have hbody : (fun (k : ℕ) (t : Mem UInt8) =>
        t.store (puc + (((n + k : ℕ) : ℤ) - n).toNat) (t.cell (puc + (n + k))))
          = fun k t => t.store (puc + k) (t.cell (puc + n + k)) := by
      funext k t
      rw [show (((n + k : ℕ) : ℤ) - n).toNat = k by omega, ← Nat.add_assoc]
    rw [forRange_eq_from_zero, hbody]
    exact Mem.forRange_copy (Nat.le_add_right puc n)
  have hfill (t : Mem UInt8) : forRange (len - n) len (fun i t => t.store (puc + i) 0) t
      = t.storeList (puc + (len - n)) (List.replicate n 0) := by
    have hbody : (fun (k : ℕ) (t : Mem UInt8) => t.store (puc + (len - n + k)) 0)
        = fun k t => t.store (puc + (len - n) + k) 0 := by
      funext k t
      rw [← Nat.add_assoc]
    rw [forRange_eq_from_zero, hbody, Nat.sub_sub_self hn]
    exact Mem.forRange_fill
  unfold usiShiftBufferLeft
  rw [hlo, hmid, Int.toNat_natCast, Mem.storeList_append, Mem.length_slice, ← hcopy]
  exact hfill _

theorem cell_usiShiftBufferLeft {puc n len : ℕ} (hn : n ≤ len) (hlen : len < 32768) (j : ℕ) :
    (usiShiftBufferLeft m puc n len).cell j
      = if puc ≤ j ∧ j < puc + (len - n) then m.cell (j + n)
        else if puc + (len - n) ≤ j ∧ j < puc + len then 0 else m.cell j := by
  have hmoved : (m.slice (puc + n) (len - n)).length = len - n := Mem.length_slice
  rw [usiShiftBufferLeft_eq hn hlen, Mem.storeList_append, hmoved]
  split_ifs with hcopied hzero
  · obtain ⟨k, rfl⟩ := Nat.exists_eq_add_of_le hcopied.1
    rw [Mem.cell_storeList_of_not_mem (by omega), Mem.cell_storeList_of_lt (by omega),
      Mem.getElem_slice]
    congr 1
    omega
  · obtain ⟨k, rfl⟩ := Nat.exists_eq_add_of_le hzero.1
    rw [Mem.cell_storeList_of_lt (by rw [List.length_replicate]; omega), List.getElem_replicate]
  · rw [Mem.cell_storeList_of_not_mem (by rw [List.length_replicate]; omega),
      Mem.cell_storeList_of_not_mem (by omega)]

/-- No store of the shift leaves the shifted stretch. -/
theorem top_usiShiftBufferLeft {puc n len k : ℕ} (hm : m.top ≤ k) (hk : puc + len ≤ k) :
    (usiShiftBufferLeft m puc n len).top ≤ k := by
  unfold usiShiftBufferLeft
  apply forRange_invariant (fun t : Mem UInt8 => t.top ≤ k)
  · apply forRange_invariant (fun t : Mem UInt8 => t.top ≤ k) hm
    intro i t _ hi ih
    rw [Mem.top_store]
    omega
  · intro i t _ hi ih
    rw [Mem.top_store]
    omega

/-! ## Unescaping -/

/-- What `_decode_copy` makes of the bytes between two marks. -/
def unescape : List UInt8 → Option (List UInt8)
  | [] => some []
  | [b] => some [b]
  | b :: b' :: bs =>
      if b = escMark then
        if b' = escMsgMark then (unescape bs).map (msgMark :: ·)
        else if b' = escEscMark then (unescape bs).map (escMark :: ·)
        else none
      else (unescape (b' :: bs)).map (b :: ·)

/-- Fewer than two bytes are never touched. -/
theorem unescape_of_length_le {xs : List UInt8} (h : xs.length ≤ 1) : unescape xs = some xs := by
  rcases xs with _ | ⟨b, _ | ⟨b', bs⟩⟩
  · rfl
  · rfl
  · simp at h

/-- The equation of `unstuff` for the four framing bytes. -/
theorem unstuff_usi (b b' : UInt8) (bs : List UInt8) :
    usiEscapes.unstuff (b :: b' :: bs) =
      if b = escMark then
        if b' = escMsgMark then (usiEscapes.unstuff bs).map (msgMark :: ·)
        else if b' = escEscMark then (usiEscapes.unstuff bs).map (escMark :: ·)
        else none
      else (usiEscapes.unstuff (b' :: bs)).map (b :: ·) := rfl

/-- `unescape` agrees with the inverse of stuffing wherever that is defined. -/
theorem unescape_of_unstuff {xs ys : List UInt8} (h : usiEscapes.unstuff xs = some ys) :
    unescape xs = some ys := by
  induction xs using unescape.induct generalizing ys with
  | case1 => simpa [Escapes.unstuff, unescape] using h
  | case2 b =>
      by_cases hb : b = usiEscapes.esc
      · simp [Escapes.unstuff, hb] at h
      · simpa [Escapes.unstuff, hb, unescape] using h
  | case3 bs ih =>
      rw [unstuff_usi, if_pos rfl, if_pos rfl] at h
      obtain ⟨zs, hzs, rfl⟩ := Option.map_eq_some_iff.mp h
      rw [unescape, if_pos rfl, if_pos rfl, ih hzs]
      rfl
  | case4 bs hne ih =>
      rw [unstuff_usi, if_pos rfl, if_neg hne, if_pos rfl] at h
      obtain ⟨zs, hzs, rfl⟩ := Option.map_eq_some_iff.mp h
      rw [unescape, if_pos rfl, if_neg hne, if_pos rfl, ih hzs]
      rfl
  | case5 b' bs h1 h2 =>
      rw [unstuff_usi, if_pos rfl, if_neg h1, if_neg h2] at h
      cases h
  | case6 b b' bs hb ih =>
      rw [unstuff_usi, if_neg hb] at h
      obtain ⟨zs, hzs, rfl⟩ := Option.map_eq_some_iff.mp h
      rw [unescape, if_neg hb, ih hzs]
      rfl

/-- The decoded bytes of a text between two marks; none if an escape is unknown. -/
def decoded (c : List UInt8) : List UInt8 := (unescape c).getD []

@[simp] theorem decoded_nil : decoded [] = [] := rfl

/-- Unescaping adds no byte. -/
theorem length_unescape_le {xs ys : List UInt8} (h : unescape xs = some ys) :
    ys.length ≤ xs.length := by
  induction xs using unescape.induct generalizing ys with
  | case1 =>
      cases h
      exact le_rfl
  | case2 b =>
      cases h
      exact le_rfl
  | case3 bs ih =>
      rw [unescape, if_pos rfl, if_pos rfl] at h
      obtain ⟨zs, hzs, rfl⟩ := Option.map_eq_some_iff.mp h
      have := ih hzs
      simp only [List.length_cons]
      omega
  | case4 bs hne ih =>
      rw [unescape, if_pos rfl, if_neg hne, if_pos rfl] at h
      obtain ⟨zs, hzs, rfl⟩ := Option.map_eq_some_iff.mp h
      have := ih hzs
      simp only [List.length_cons]
      omega
  | case5 b' bs h1 h2 =>
      rw [unescape, if_pos rfl, if_neg h1, if_neg h2] at h
      cases h
  | case6 b b' bs hb ih =>
      rw [unescape, if_neg hb] at h
      obtain ⟨zs, hzs, rfl⟩ := Option.map_eq_some_iff.mp h
      have := ih hzs
      simp only [List.length_cons] at this ⊢
      omega

theorem length_decoded_le (c : List UInt8) : (decoded c).length ≤ c.length := by
  unfold decoded
  cases h : unescape c with
  | none => exact Nat.zero_le _
  | some ys => exact length_unescape_le h

@[simp] theorem decoded_stuff (xs : List UInt8) : decoded (usiEscapes.stuff xs) = xs := by
  rw [decoded, unescape_of_unstuff (usiEscapes.unstuff_stuff xs)]
  rfl

/-- One escape resolved in place: the byte is stored, the rest moves down by one. -/
theorem cell_resolve {p i cur : ℕ} {b : UInt8} (hi : i < cur) (hcur : cur < 32768) (j : ℕ) :
    (usiShiftBufferLeft (m.store (p + i) b) (p + (i + 1)) 1 (int16 ((cur : ℤ) - i))).cell j
      = if j = p + i then b
        else if p + i < j ∧ j < p + cur then m.cell (j + 1)
        else if j = p + cur then 0 else m.cell j := by
  have h16 : int16 ((cur : ℤ) - i) = ((cur - i : ℕ) : ℤ) := by
    rw [int16_of_nonneg (by omega) (by omega)]
    omega
  rw [h16, show (1 : ℤ) = ((1 : ℕ) : ℤ) from rfl,
    cell_usiShiftBufferLeft (by omega) (by omega), Mem.cell_store, Mem.cell_store]
  split_ifs <;> first | rfl | omega

theorem top_resolve {p i cur k : ℕ} {b : UInt8} (hi : i < cur) (hcur : cur < 32768)
    (hm : m.top ≤ k) (hk : p + cur + 1 ≤ k) :
    (usiShiftBufferLeft (m.store (p + i) b) (p + (i + 1)) 1 (int16 ((cur : ℤ) - i))).top ≤ k := by
  have h16 : int16 ((cur : ℤ) - i) = ((cur - i : ℕ) : ℤ) := by
    rw [int16_of_nonneg (by omega) (by omega)]
    omega
  rw [h16]
  refine top_usiShiftBufferLeft (n := 1) ?_ (by omega)
  rw [Mem.top_store]
  omega

/-- `m'` and `d` are a good outcome of the decoding loop from index `i` on, in the buffer
`m` with the current end `cur`: `res` are the decoded bytes, if there are any, they stand
at `p + i` and `d` counts them in, and nothing else has changed. -/
structure Decodes (p i cur k : ℕ) (m : Mem UInt8) (res : Option (List UInt8)) (m' : Mem UInt8)
    (d : ℕ) : Prop where
  outside : ∀ j, j < p + i ∨ p + cur < j → m'.cell j = m.cell j
  top_le : m'.top ≤ k
  of_some : ∀ ys, res = some ys → d = i - 1 + ys.length ∧ m'.slice (p + i) ys.length = ys
  of_none : res = none → d = 0

section Decodes

variable {p i cur k d : ℕ} {m' : Mem UInt8} {b : UInt8} {xs bs : List UInt8}
  {res : Option (List UInt8)}

/-- The loop stops: at most one byte is left, and it is taken over as it is. -/
theorem Decodes.stop (hi : 1 ≤ i) (hcur : cur + 1 = i + xs.length) (hshort : xs.length ≤ 1)
    (hxs : m.slice (p + i) xs.length = xs) (hm : m.top ≤ k) :
    Decodes p i cur k m (unescape xs) m cur := by
  have hself := unescape_of_length_le hshort
  refine ⟨fun _ _ => rfl, hm, fun ys hys => ?_, fun hnone => ?_⟩
  · obtain rfl : xs = ys := by simpa [hself] using hys
    exact ⟨by omega, hxs⟩
  · simp [hself] at hnone

/-- A byte that is not an escape stays in front of what the loop decodes next. -/
theorem Decodes.keep (hi : 1 ≤ i) (hb : m.cell (p + i) = b)
    (h : Decodes p (i + 1) cur k m res m' d) :
    Decodes p i cur k m (res.map (b :: ·)) m' d := by
  refine ⟨fun j hj => h.outside j (by omega), h.top_le, fun ys hys => ?_,
    fun hnone => h.of_none (Option.map_eq_none_iff.mp hnone)⟩
  obtain ⟨zs, hzs, rfl⟩ := Option.map_eq_some_iff.mp hys
  obtain ⟨hd, hslice⟩ := h.of_some zs hzs
  refine ⟨by simp only [List.length_cons]; omega, ?_⟩
  rw [List.length_cons, Mem.slice_succ, h.outside _ (by omega), hb,
    show p + i + 1 = p + (i + 1) by omega, hslice]

/-- A resolved escape stands in front of what the loop decodes next, in a buffer whose end
has come one down. -/
theorem Decodes.resolve (hi : 1 ≤ i) (hlt : i < cur) (hcur : cur < 32768)
    (h : Decodes p (i + 1) (cur - 1) k
      (usiShiftBufferLeft (m.store (p + i) b) (p + (i + 1)) 1 (int16 ((cur : ℤ) - i))) res m' d) :
    Decodes p i cur k m (res.map (b :: ·)) m' d := by
  have hres := fun j => cell_resolve (m := m) (p := p) (b := b) hlt hcur j
  refine ⟨fun j hj => ?_, h.top_le, fun ys hys => ?_,
    fun hnone => h.of_none (Option.map_eq_none_iff.mp hnone)⟩
  · rw [h.outside j (by omega), hres, if_neg (by omega), if_neg (by omega), if_neg (by omega)]
  · obtain ⟨zs, hzs, rfl⟩ := Option.map_eq_some_iff.mp hys
    obtain ⟨hd, hslice⟩ := h.of_some zs hzs
    refine ⟨by simp only [List.length_cons]; omega, ?_⟩
    rw [List.length_cons, Mem.slice_succ, h.outside _ (by omega), hres, if_pos rfl,
      show p + i + 1 = p + (i + 1) by omega, hslice]

/-- The bytes behind a resolved escape, one place further down. -/
theorem slice_resolve (hlt : i < cur) (hcur : cur < 32768) (hlen : cur = i + bs.length + 1)
    (hbs : m.slice (p + (i + 2)) bs.length = bs) :
    (usiShiftBufferLeft (m.store (p + i) b) (p + (i + 1)) 1 (int16 ((cur : ℤ) - i))).slice
      (p + (i + 1)) bs.length = bs := by
  apply Mem.slice_eq rfl
  intro q hq
  rw [cell_resolve hlt hcur, if_neg (by omega), if_pos (by omega), ← Mem.cell_of_slice hbs hq]
  congr 1
  omega

end Decodes

/-- **The decoding loop.**  At index `i`, with the bytes `xs` still to be looked at
up to the current end, the loop decodes `xs` in place and touches nothing else. -/
theorem decodeLoop_spec (p fuel : ℕ) : ∀ (m : Mem UInt8) (i cur k : ℕ) (xs : List UInt8),
    1 ≤ i → cur + 1 = i + xs.length → cur < 32768 → xs.length ≤ fuel + 1 →
    m.slice (p + i) xs.length = xs → m.top ≤ k → p + cur + 1 ≤ k →
    ∃ m' d, decodeLoop p fuel m i cur = (m', d) ∧ Decodes p i cur k m (unescape xs) m' d := by
  -- on the fuel, for every index; the bytes to look at get fewer in every round
  induction fuel with
  | zero =>
      intro m i cur k xs hi hcur _ hfuel hxs hm _
      exact ⟨m, cur, rfl, .stop hi hcur hfuel hxs hm⟩
  | succ fuel ih =>
      intro m i cur k xs hi hcur hlt hfuel hxs hm hk
      rw [decodeLoop]
      by_cases hend : i < cur
      swap
      · rw [if_neg hend]
        exact ⟨m, cur, rfl, .stop hi hcur (by omega) hxs hm⟩
      obtain ⟨b, b', bs, rfl⟩ : ∃ b b' bs, xs = b :: b' :: bs := by
        rcases xs with _ | ⟨b, _ | ⟨b', bs⟩⟩
        · simp at hcur; omega
        · simp at hcur; omega
        · exact ⟨b, b', bs, rfl⟩
      simp only [List.length_cons] at hcur hfuel hxs
      simp only [Mem.slice_succ, List.cons.injEq] at hxs
      obtain ⟨hb, hb', hbs⟩ := hxs
      rw [show p + i + 1 = p + (i + 1) by omega] at hb'
      rw [show p + i + 1 + 1 = p + (i + 2) by omega] at hbs
      -- both substitutions continue in the same way
      have hsub : ∀ r, ∃ m' d,
          decodeLoop p fuel (usiShiftBufferLeft (m.store (p + i) r) (p + (i + 1)) 1
            (int16 ((cur : ℤ) - i))) (i + 1) (cur - 1) = (m', d)
          ∧ Decodes p i cur k m ((unescape bs).map (r :: ·)) m' d := by
        intro r
        obtain ⟨m', d, heq, hdec⟩ := ih _ (i + 1) (cur - 1) k bs (by omega) (by omega) (by omega)
          (by omega) (slice_resolve hend hlt (by omega) hbs) (top_resolve hend hlt hm hk)
          (by omega)
        exact ⟨m', d, heq, hdec.resolve hi hend hlt⟩
      rw [if_pos hend, hb, hb', unescape]
      by_cases hesc : b = escMark
      · rw [if_pos hesc, if_pos hesc]
        by_cases h1 : b' = escMsgMark
        · rw [if_pos h1, if_pos h1]
          exact hsub msgMark
        · rw [if_neg h1, if_neg h1]
          by_cases h2 : b' = escEscMark
          · rw [if_pos h2, if_pos h2]
            exact hsub escMark
          · rw [if_neg h2, if_neg h2]
            exact ⟨m, 0, rfl, fun _ _ => rfl, hm, fun ys h => (by cases h), fun _ => rfl⟩
      · rw [if_neg hesc, if_neg hesc]
        have hrest : m.slice (p + (i + 1)) (b' :: bs).length = b' :: bs := by
          rw [List.length_cons, Mem.slice_succ, hb',
            show p + (i + 1) + 1 = p + (i + 2) by omega, hbs]
        obtain ⟨m', d, heq, hdec⟩ := ih m (i + 1) cur k (b' :: bs) (by omega)
          (by simp only [List.length_cons]; omega) hlt (by simp only [List.length_cons]; omega)
          hrest hm hk
        exact ⟨m', d, heq, hdec.keep hi hb⟩

/-- **`_decode_copy`.**  Between an opening mark at `first` and a closing mark, the
text is replaced by its decoded bytes; the result is their number. -/
theorem decodeCopy_spec {first k : ℕ} {c : List UInt8} (hmark : m.cell first = msgMark)
    (hc : m.slice (first + 1) c.length = c) (hlen : c.length < 32768) (hm : m.top ≤ k)
    (hk : first + 1 + c.length ≤ k) :
    ∃ m', decodeCopy m first (first + 1 + c.length) = (m', (decoded c).length)
      ∧ m'.slice (first + 1) (decoded c).length = decoded c
      ∧ (∀ j, j ≤ first ∨ first + c.length < j → m'.cell j = m.cell j) ∧ m'.top ≤ k := by
  have hsize : uint16 (((first + 1 + c.length : ℕ) : ℤ) - first - 1) = c.length := by
    rw [uint16_of_nonneg (by omega) (by omega)]
    omega
  unfold decodeCopy
  rw [hsize]
  by_cases hz : c.length = 0
  · obtain rfl := List.length_eq_zero_iff.mp hz
    exact ⟨m, rfl, rfl, fun _ _ => rfl, hm⟩
  · obtain ⟨n, hn⟩ := Nat.exists_eq_succ_of_ne_zero hz
    have hne : msgMark ≠ escMark := by decide
    simp only [if_neg hz]
    rw [show decodeLoop first c.length m 0 c.length = decodeLoop first n m 1 c.length by
      rw [hn, decodeLoop, if_pos (by omega), Nat.add_zero, hmark, if_neg hne]]
    obtain ⟨m', d, heq, hdec⟩ := decodeLoop_spec first n m 1 c.length k c
      le_rfl (by omega) hlen (by omega) hc hm (by omega)
    refine ⟨m', ?_, ?_, fun j hj => hdec.outside j (by omega), hdec.top_le⟩
    · rw [heq, decoded]
      cases hu : unescape c with
      | none => rw [hdec.of_none hu]; rfl
      | some ys =>
          rw [(hdec.of_some ys hu).1]
          simp
    · rw [decoded]
      cases hu : unescape c with
      | none => rfl
      | some ys => exact (hdec.of_some ys hu).2

/-! ## What a message announces -/

/-- The protocols that the length check and the CRC check know. -/
def checkedProtocols : List UInt8 := mngpProtocols ++ crc16Protocols ++ [protocolPrimeApi]

theorem mem_checkedProtocols {t : UInt8} :
    t ∈ checkedProtocols ↔ t ∈ mngpProtocols ∨ t ∈ crc16Protocols ∨ t = protocolPrimeApi := by
  simp [checkedProtocols]

/-- The type in the header of a decoded message. -/
def typeOf (xs : List UInt8) : UInt8 := typeProtocol (xs.getD 1 0)

/-- The payload length in the header of a decoded message. -/
def lenOf (xs : List UInt8) : ℕ :=
  if typeOf xs = protocolPrimeApi then xlenProtocol (xs.getD 0 0) (xs.getD 1 0) (xs.getD 2 0)
  else lenProtocol (xs.getD 0 0) (xs.getD 1 0)

/-- A decoded message is as long as its header says. -/
def LenOk (xs : List UInt8) : Prop :=
  4 ≤ xs.length ∧ typeOf xs ∈ checkedProtocols ∧ lenOf xs + 2 + crcLen (typeOf xs) = xs.length

instance (xs : List UInt8) : Decidable (LenOk xs) := inferInstanceAs (Decidable (_ ∧ _))

theorem not_lenOk_nil : ¬ LenOk [] := by
  rintro ⟨h, -⟩
  simp at h

/-- A cell of a slice, read through the list the slice holds. -/
theorem cell_eq_getD {p n k : ℕ} {xs : List UInt8} (h : m.slice p n = xs) (hk : k < xs.length) :
    m.cell (p + k) = xs.getD k 0 := by
  rw [Mem.cell_of_slice h hk, List.getD_eq_getElem _ _ hk]

theorem typeOf_eq {p n : ℕ} {xs : List UInt8} (h : m.slice p n = xs) (hn : 3 ≤ xs.length) :
    typeProtocol (m.cell (p + 1)) = typeOf xs := by
  rw [typeOf, cell_eq_getD h (by omega)]

theorem announcedLen_eq {p n : ℕ} {xs : List UInt8} (h : m.slice p n = xs) (hn : 3 ≤ xs.length) :
    announcedLen m p = lenOf xs := by
  have h0 : m.cell p = xs.getD 0 0 := cell_eq_getD (k := 0) h (by omega)
  rw [announcedLen, lenOf, typeOf_eq h hn, h0, cell_eq_getD h (by omega),
    cell_eq_getD h (by omega)]

/-- `_check_integrity_len` compares the number of bytes with what the header
announces. -/
theorem checkIntegrityLen_iff {p d : ℕ} :
    checkIntegrityLen m p d = true ↔
      4 ≤ d ∧ typeProtocol (m.cell (p + 1 + 1)) ∈ checkedProtocols ∧
        announcedLen m (p + 1) + 2 + crcLen (typeProtocol (m.cell (p + 1 + 1))) = d := by
  have hne1 : protocolPrimeApi ∉ mngpProtocols := by decide
  have hne2 : protocolPrimeApi ∉ crc16Protocols := by decide
  unfold checkIntegrityLen announcedLen crcLen
  rw [mem_checkedProtocols]
  by_cases h4 : d < 4
  · simp only [if_pos h4]
    constructor
    · intro h
      cases h
    · rintro ⟨h, -⟩
      omega
  · simp only [if_neg h4]
    split_ifs with h1 h2 h3 h5 <;> simp_all

theorem checkIntegrityLen_slice {p d : ℕ} {xs : List UInt8} (h : m.slice (p + 1) d = xs) :
    checkIntegrityLen m p d = true ↔ LenOk xs := by
  have hd : d = xs.length := by rw [← h, Mem.length_slice]
  rw [checkIntegrityLen_iff, LenOk, hd]
  apply and_congr_right
  intro h4
  rw [typeOf_eq h (by omega), announcedLen_eq h (by omega)]

/-! ## The CRC check -/

/-- The assembled CRC equals a CRC exactly when the bytes it is assembled from are
the bytes of that CRC. -/
theorem rxCrc_eq_iff {t : UInt8} {pucEnd : ℕ} {buf : List UInt8} :
    rxCrc m t pucEnd = usiCrc t buf
      ↔ m.slice (pucEnd - crcLen t) (crcLen t) = crcBytes t (usiCrc t buf) := by
  unfold crcLen rxCrc usiCrc crcBytes
  split_ifs with h32 h16
  · constructor
    · exact bytes32_split _ _ _ _ _
    · intro hs
      simp only [Mem.slice_succ, Mem.slice_zero, List.cons.injEq, and_true] at hs
      obtain ⟨h1, h2, h3, h4⟩ := hs
      rw [show pucEnd - 4 + 1 + 1 = pucEnd - 4 + 2 by omega] at h3
      rw [show pucEnd - 4 + 1 + 1 + 1 = pucEnd - 4 + 3 by omega] at h4
      dsimp only
      rw [h1, h2, h3, h4]
      exact bytes32_assemble _
  · constructor
    · exact bytes16_split _ _ _
    · intro hs
      simp only [Mem.slice_succ, Mem.slice_zero, List.cons.injEq, and_true] at hs
      dsimp only
      rw [hs.1, hs.2]
      exact bytes16_assemble _
  · simp only [Mem.slice_succ, Mem.slice_zero, List.cons.injEq, and_true]
    constructor
    · intro hs
      rw [← hs]
      simp
    · intro hs
      rw [hs]
      simp

/-- What `_doEoMsg` asks of a message of `d` bytes. -/
theorem doEoMsg_iff {p d : ℕ} :
    doEoMsg m p d = true ↔
      4 ≤ d ∧ ¬ (lenProtocol (m.cell p) (m.cell (p + 1)) = 0 ∧
          ¬ (typeProtocol (m.cell (p + 1)) = protocolMngpPrimeReset
            ∨ typeProtocol (m.cell (p + 1)) = protocolMngpPrimeReboot))
        ∧ typeProtocol (m.cell (p + 1)) ∈ checkedProtocols
        ∧ rxCrc m (typeProtocol (m.cell (p + 1))) (p + d)
            = usiCrc (typeProtocol (m.cell (p + 1))) (m.slice p (announcedLen m p + 2)) := by
  unfold doEoMsg
  rw [mem_checkedProtocols]
  by_cases h4 : d < 4
  · simp only [if_pos h4]
    constructor
    · intro h
      cases h
    · rintro ⟨h, -⟩
      omega
  · simp only [if_neg h4, halPcrcCalc_usi]
    split_ifs with h1 h2
    · simp [h1]
    · simp only [beq_iff_eq]
      exact ⟨fun h => ⟨by omega, h1, h2, h⟩, fun h => h.2.2.2⟩
    · simp only [false_iff]
      exact fun h => h2 h.2.2.1

/-- All management labels share one callback. -/
theorem usiProtId2idx_mngp {t : UInt8} (h : t ∈ mngpProtocols) :
    usiProtId2idx t = usiProtId2idx protocolMngpPrime := by
  rw [usiProtId2idx, if_pos h]
  rfl

/-- What a callback is handed of a message with `n` payload bytes at `p`: management messages
come with their header. -/
def deliveredSlice (m : Mem UInt8) (t : UInt8) (p n : ℕ) : List UInt8 :=
  if t ∈ mngpProtocols then m.slice p (n + 2) else m.slice (p + 2) n

/-- The dispatcher reaches the callback that is registered for a known type. -/
theorem dispatch_eq {s : State} {t : UInt8} {p n : ℕ} {pf : Serialization}
    (ht : t ∈ checkedProtocols) (hreg : s.usiCfgMapProtocols (usiProtId2idx t) = some pf) :
    dispatch s t p n = some ([.callback (usiProtId2idx t) (if t ∈ mngpProtocols then p else p + 2)
      (deliveredSlice s.pucRxbuf0 t p n)], pf (deliveredSlice s.pucRxbuf0 t p n)) := by
  unfold dispatch deliveredSlice
  by_cases hm : t ∈ mngpProtocols
  · have hidx := usiProtId2idx_mngp hm
    rw [hidx] at hreg
    simp only [if_pos hm, callSerialization, hidx, hreg, Option.map_some]
  · rw [mem_checkedProtocols] at ht
    simp only [hm, false_or, crc16Protocols, List.mem_cons, List.not_mem_nil, or_false] at ht
    simp only [if_neg hm]
    rcases ht with (rfl | rfl | rfl) | rfl
    · have h1 : protocolSnifPrime ≠ protocolAtpl230 := by decide
      simp only [if_neg h1, if_true, callSerialization, hreg, Option.map_some]
    · simp only [if_true, callSerialization, hreg, Option.map_some]
    · have h1 : protocolUserDefined ≠ protocolAtpl230 := by decide
      have h2 : protocolUserDefined ≠ protocolSnifPrime := by decide
      have h3 : protocolUserDefined ≠ protocolPrimeApi := by decide
      simp only [if_neg h1, if_neg h2, if_neg h3, if_true, callSerialization, hreg,
        Option.map_some]
    · have h1 : protocolPrimeApi ≠ protocolAtpl230 := by decide
      have h2 : protocolPrimeApi ≠ protocolSnifPrime := by decide
      simp only [if_neg h1, if_neg h2, if_true, callSerialization, hreg, Option.map_some]

/-- A message that is not refused goes to the dispatcher, and then its payload may go to the
loopback. -/
theorem processMsg_of_dispatch {w : Writes} {s : State} {t : UInt8} {p n : ℕ}
    {events : List Event} {r : UInt8} (ht : typeProtocol (s.pucRxbuf0.cell (p + 1)) = t)
    (hn : announcedLen s.pucRxbuf0 p = n)
    (hguard : ¬ (n = 0 ∧ ¬ (t = protocolMngpPrimeReset ∨ t = protocolMngpPrimeReboot)))
    (hd : dispatch s t p n = some (events, r)) :
    processMsg w s p =
      if 0 < ucRetxLen s t n then
        (halUsiSendCmd w s (loopbackCmd s t (p + 2) (ucRetxLen s t n)
          (ucRetxLen_lt_usLen s t n))).map fun x => (x.1, events ++ x.2.2, r)
      else some (s, events, r) := by
  subst ht hn
  unfold processMsg
  simp only [if_neg hguard, hd]

/-! ## Valid messages -/

namespace UsiMsg

variable (u : UsiMsg)

theorem mem_checkedProtocols_type : u.ucType ∈ checkedProtocols := by
  have h : ∀ t ∈ receivedProtocols, t ∈ checkedProtocols := by decide +kernel
  exact h u.ucType u.type_mem

theorem two_lt_length_body : 2 < u.body.length := by
  have := u.four_le_length_body
  omega

/-- The two header bytes of a message, as `getD` reads them. -/
theorem body_getD_zero : u.body.getD 0 0 = lenHiProtocol u.payload.length := rfl

theorem body_getD_one :
    u.body.getD 1 0 = lenLoProtocol u.payload.length + typeProtocol u.ucType := rfl

theorem body_getD_two (h : u.payload ≠ []) : u.body.getD 2 0 = u.payload.headD 0 := by
  obtain ⟨b, bs, hb⟩ := List.exists_cons_of_ne_nil h
  simp [body, Usi.body, header, hb]

@[simp] theorem typeOf_body : typeOf u.body = u.ucType := by
  rw [typeOf, body_getD_one, typeProtocol_header, u.typeProtocol_type]

theorem ucType_ne_primeApi_of_nil (h : u.payload = []) : u.ucType ≠ protocolPrimeApi := by
  rcases u.eq_of_nil h with ht | ht <;> rw [ht] <;> decide

@[simp] theorem lenOf_body : lenOf u.body = u.payload.length := by
  rw [lenOf, u.typeOf_body, u.body_getD_zero, u.body_getD_one]
  split_ifs with hp
  · have hne : u.payload ≠ [] := fun h => u.ucType_ne_primeApi_of_nil h hp
    rw [u.body_getD_two hne, xlenProtocol_of_lt (u.head_lt hp), lenProtocol_header _ u.length_lt]
  · exact lenProtocol_header _ u.length_lt

/-- A valid message passes the length check. -/
theorem lenOk_body : LenOk u.body := by
  refine ⟨u.four_le_length_body, ?_, ?_⟩
  · rw [u.typeOf_body]
    exact u.mem_checkedProtocols_type
  · rw [u.lenOf_body, u.typeOf_body, u.length_body]

variable {p : ℕ}

theorem cell_header (h : m.slice p u.body.length = u.body) :
    m.cell p = lenHiProtocol u.payload.length
      ∧ m.cell (p + 1) = lenLoProtocol u.payload.length + typeProtocol u.ucType := by
  have h2 := u.two_lt_length_body
  exact ⟨cell_eq_getD (k := 0) h (by omega), cell_eq_getD h (by omega)⟩

theorem typeProtocol_cell (h : m.slice p u.body.length = u.body) :
    typeProtocol (m.cell (p + 1)) = u.ucType := by
  rw [typeOf_eq h u.two_lt_length_body, u.typeOf_body]

theorem announcedLen_body (h : m.slice p u.body.length = u.body) :
    announcedLen m p = u.payload.length := by
  rw [announcedLen_eq h u.two_lt_length_body, u.lenOf_body]

/-- The slices of a received message: header with payload, and CRC. -/
theorem slice_body (h : m.slice p u.body.length = u.body) :
    m.slice p (u.payload.length + 2) = header u.ucType u.payload.length ++ u.payload
      ∧ m.slice (p + (u.payload.length + 2)) (crcLen u.ucType)
          = crcBytes u.ucType
              (usiCrc u.ucType (header u.ucType u.payload.length ++ u.payload)) := by
  have hbody : u.body = (header u.ucType u.payload.length ++ u.payload)
      ++ crcBytes u.ucType
        (usiCrc u.ucType (header u.ucType u.payload.length ++ u.payload)) := rfl
  have hs := Mem.slice_append (h.trans hbody)
  rw [List.length_append, length_header, length_crcBytes,
    show 2 + u.payload.length = u.payload.length + 2 by omega] at hs
  exact hs

theorem slice_payload (h : m.slice p u.body.length = u.body) :
    m.slice (p + 2) u.payload.length = u.payload := by
  have hs := (Mem.slice_append (u.slice_body h).1).2
  rwa [length_header] at hs

/-- An empty payload is announced by RESET and REBOOT only. -/
theorem not_invalid_length :
    ¬ (u.payload.length = 0 ∧ ¬ (u.ucType = protocolMngpPrimeReset
      ∨ u.ucType = protocolMngpPrimeReboot)) := by
  rintro ⟨h0, hne⟩
  exact hne (u.eq_of_nil (List.length_eq_zero_iff.mp h0))

/-- **A valid message passes the CRC check.** -/
theorem doEoMsg_body (h : m.slice p u.body.length = u.body) :
    doEoMsg m p u.body.length = true := by
  obtain ⟨hhi, hlo⟩ := u.cell_header h
  obtain ⟨hplain, hcrc⟩ := u.slice_body h
  rw [doEoMsg_iff, u.typeProtocol_cell h, u.announcedLen_body h, hhi, hlo,
    lenProtocol_header _ u.length_lt, hplain, rxCrc_eq_iff, u.length_body]
  refine ⟨u.length_body ▸ u.four_le_length_body, u.not_invalid_length,
    u.mem_checkedProtocols_type, ?_⟩
  rw [show p + (u.payload.length + 2 + crcLen u.ucType) - crcLen u.ucType
    = p + (u.payload.length + 2) by omega]
  exact hcrc

/-- Where the delivered bytes of a message start. -/
def deliveredAt (p : ℕ) : ℕ := if u.ucType ∈ mngpProtocols then p else p + 2

/-- The callback event of a message whose body starts at `p`. -/
def event (p : ℕ) : Event := .callback u.callbackIdx (u.deliveredAt p) u.delivered

/-- The dispatcher reaches the callback of the message with the right bytes. -/
theorem dispatch_body {s : State} {pf : Serialization}
    (h : s.pucRxbuf0.slice p u.body.length = u.body)
    (hreg : s.usiCfgMapProtocols u.callbackIdx = some pf) :
    dispatch s u.ucType p u.payload.length = some ([u.event p], pf u.delivered) := by
  have hdelivered : deliveredSlice s.pucRxbuf0 u.ucType p u.payload.length = u.delivered := by
    unfold deliveredSlice delivered
    rw [(u.slice_body h).1, u.slice_payload h]
  rw [dispatch_eq u.mem_checkedProtocols_type hreg, hdelivered]
  rfl

/-- **Processing a valid message.**  Its callback is called, and what is left is
the redirection of the payload. -/
theorem processMsg_body {w : Writes} {s : State} {pf : Serialization}
    (h : s.pucRxbuf0.slice p u.body.length = u.body)
    (hreg : s.usiCfgMapProtocols u.callbackIdx = some pf) :
    processMsg w s p =
      if 0 < ucRetxLen s u.ucType u.payload.length then
        (halUsiSendCmd w s (loopbackCmd s u.ucType (p + 2) (ucRetxLen s u.ucType u.payload.length)
          (ucRetxLen_lt_usLen s u.ucType u.payload.length))).map
            fun r => (r.1, [u.event p] ++ r.2.2, pf u.delivered)
      else some (s, [u.event p], pf u.delivered) :=
  processMsg_of_dispatch (u.typeProtocol_cell h) (u.announcedLen_body h) u.not_invalid_length
    (u.dispatch_body h hreg)

end UsiMsg

/-! ## Any message, without a loopback -/

/-- The dispatcher calls at most one callback. -/
theorem dispatch_events {s : State} {t : UInt8} {p n : ℕ} {events : List Event} {r : UInt8}
    (h : dispatch s t p n = some (events, r)) : ∃ idx q msg, events = [.callback idx q msg] := by
  have hcall : ∀ {t' : UInt8} {q k : ℕ}, callSerialization s t' q k = some (events, r) →
      ∃ idx q msg, events = [.callback idx q msg] := by
    intro t' q k hc
    obtain ⟨pf, -, hpf⟩ := Option.map_eq_some_iff.mp hc
    simp only [Prod.mk.injEq] at hpf
    exact ⟨_, _, _, hpf.1.symm⟩
  unfold dispatch at h
  split_ifs at h <;> exact hcall h

/-- What processing a message can do: nothing at all, or one callback, which a command to
the loopback may follow. -/
theorem processMsg_cases {w : Writes} {s s' : State} {p : ℕ} {ev : List Event} {r : UInt8}
    (h : processMsg w s p = some (s', ev, r)) :
    (s' = s ∧ ev = []) ∨ ∃ idx q msg r',
      dispatch s (typeProtocol (s.pucRxbuf0.cell (p + 1))) p (announcedLen s.pucRxbuf0 p)
          = some ([.callback idx q msg], r')
        ∧ (s' = s ∧ ev = [.callback idx q msg] ∨ ∃ cmd st sent,
          halUsiSendCmd w s cmd = some (s', st, sent) ∧ ev = [.callback idx q msg] ++ sent) := by
  unfold processMsg at h
  dsimp only at h
  split at h
  · cases h
    exact .inl ⟨rfl, rfl⟩
  · cases hd : dispatch s (typeProtocol (s.pucRxbuf0.cell (p + 1))) p
        (announcedLen s.pucRxbuf0 p) with
    | none =>
        rw [hd] at h
        cases h
        exact .inl ⟨rfl, rfl⟩
    | some er =>
        obtain ⟨events, ucResult⟩ := er
        obtain ⟨idx, q, msg, rfl⟩ := dispatch_events hd
        rw [hd] at h
        dsimp only at h
        refine .inr ⟨idx, q, msg, ucResult, rfl, ?_⟩
        split_ifs at h
        · obtain ⟨⟨s1, st, sent⟩, hsend, heq⟩ := Option.map_eq_some_iff.mp h
          cases heq
          exact .inr ⟨_, st, sent, hsend, rfl⟩
        · cases h
          exact .inl ⟨rfl, rfl⟩

/-- With the loopback off, a message is handed to at most one callback and changes
nothing. -/
theorem processMsg_of_loopback_off {w : Writes} {s : State} {p : ℕ}
    (hoff : s.fdSocketLoopback ≤ 0) :
    ∃ events r, processMsg w s p = some (s, events, r)
      ∧ (events = [] ∨ ∃ idx q msg, events = [.callback idx q msg]) := by
  have hretx : ∀ t n, ¬ 0 < ucRetxLen s t n := by
    intro t n
    rw [ucRetxLen, if_neg (by omega)]
    omega
  unfold processMsg
  simp only [if_neg (hretx _ _)]
  split_ifs
  · exact ⟨[], 0, rfl, Or.inl rfl⟩
  · cases hd : dispatch s (typeProtocol (s.pucRxbuf0.cell (p + 1))) p
        (announcedLen s.pucRxbuf0 p) with
    | none => exact ⟨[], 0, rfl, Or.inl rfl⟩
    | some er => exact ⟨er.1, er.2, rfl, Or.inr (dispatch_events hd)⟩

end Usi
