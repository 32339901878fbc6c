/-
# The pointers of the null data requests

A null data request leaves its data pointer in the pointer table, and the confirm hands it
back to the application.  A confirm names a connection and no request, so the pointer that
it belongs to is that of the oldest unconfirmed request of the connection.  The table is
searched from its first element on, by the request for a free one and by the confirm for
the connection; the pointers come back in the order of the requests only as long as no
request has got an element in front of an older one of its connection.
-/
import PlcManager.PrimeApi
import PlcManager.SlotQueue

namespace PrimeApi

open SlotQueue

/-! ## Requests and confirms -/

/-- What happens: a null data request is made with a data pointer, or a null data confirm
arrives. -/
inductive DataEvent where
  | request (usConHandle : UInt16) (pucData : ℕ)
  | confirm (ptrMsg : Mem UInt8)

/-- `prime_cl_null_data_cfm_cmd`, in front of the seven bytes of a data confirm. -/
def nullDataCfmCmd : UInt8 := 0x11

/-- The connection in a data confirm. -/
def cfmConHandle (ptrMsg : Mem UInt8) : UInt16 := Read.wordAt ptrMsg 1

/-- The result in a data confirm. -/
def cfmResult (ptrMsg : Mem UInt8) : UInt8 := ptrMsg.cell 7

/-- The reaction to an event; a data confirm is a message of eight bytes. -/
def dataStep : DataEvent → State → State
  | .request usConHandle pucData, s => primeClNullDataRequest usConHandle pucData s
  | .confirm ptrMsg, s => (ifacePrimeApiReceivedCmd ptrMsg 8 s).2

/-- The elements of the pointer table that are valid. -/
def pointers (table : ℕ → DataPointer) (i : ℕ) : Option (UInt16 × ℕ) :=
  if (table i).valid then some ((table i).conHandle, (table i).pucData) else none

/-- The requests after an event that meets the state `s`. -/
def requestsAfter (e : DataEvent) (s : State) (h : History UInt16 ℕ) : History UInt16 ℕ :=
  match e with
  | .request usConHandle pucData =>
      match firstSlot numElementsPointerTable fun i => (pointers s.sxDataPointerTable i).isNone with
      | some i => h.arrive ⟨i, usConHandle, pucData⟩
      | none => h
  | .confirm ptrMsg => h.answer (cfmConHandle ptrMsg)

/-- A step of the API with the requests that have been made. -/
def stepPointers (e : DataEvent) (x : State × History UInt16 ℕ) :
    Option (State × History UInt16 ℕ) :=
  some (dataStep e x.1, requestsAfter e x.1 x.2)

/-- There is room for a request; a confirm is one of a request that has been made. -/
def Answerable (e : DataEvent) (x : State × History UInt16 ℕ) : Prop :=
  match e with
  | .request _ _ => x.2.waiting.length < numElementsPointerTable
  | .confirm ptrMsg =>
      ptrMsg.cell 0 &&& 0x7f = nullDataCfmCmd
        ∧ ∃ r ∈ x.2.waiting, r.key = cfmConHandle ptrMsg

instance (e : DataEvent) (x : State × History UInt16 ℕ) : Decidable (Answerable e x) :=
  match e with
  | .request _ _ => inferInstanceAs (Decidable (_ < _))
  | .confirm _ => inferInstanceAs (Decidable (_ ∧ _))

/-- The `k`-th confirm of a connection hands over the pointer of its `k`-th request. -/
def HandsOver (e : DataEvent) (x : State × History UInt16 ℕ) : Prop :=
  match e with
  | .request _ _ => True
  | .confirm ptrMsg =>
      ∃ r ∈ x.2.next? (cfmConHandle ptrMsg),
        (dataStep (.confirm ptrMsg) x.1).calls = x.1.calls
          ++ [⟨x.1.sucPrimeAppIdReq.toNat, .clNullDataCfm,
            [.u16 (cfmConHandle ptrMsg), .pointer r.value, .u8 (cfmResult ptrMsg)]⟩]

instance (e : DataEvent) (x : State × History UInt16 ℕ) : Decidable (HandsOver e x) :=
  match e with
  | .request _ _ => isTrue trivial
  | .confirm ptrMsg =>
      inferInstanceAs (Decidable (∃ r ∈ x.2.next? (cfmConHandle ptrMsg),
        (dataStep (.confirm ptrMsg) x.1).calls = x.1.calls
          ++ [⟨x.1.sucPrimeAppIdReq.toNat, .clNullDataCfm,
            [.u16 (cfmConHandle ptrMsg), .pointer r.value, .u8 (cfmResult ptrMsg)]⟩]))

/-- The `k`-th confirm of a connection frees the element of its `k`-th request, and changes
no other. -/
def Frees (e : DataEvent) (x : State × History UInt16 ℕ) : Prop :=
  match e with
  | .request _ _ => True
  | .confirm ptrMsg =>
      ∃ r ∈ x.2.next? (cfmConHandle ptrMsg),
        (dataStep (.confirm ptrMsg) x.1).sxDataPointerTable
          = Function.update x.1.sxDataPointerTable r.slot
            { x.1.sxDataPointerTable r.slot with valid := false }

/-- Pointers come back in the order of the requests. -/
def InOrder (e : DataEvent) (x : State × History UInt16 ℕ) : Prop := HandsOver e x ∧ Frees e x

/-- No request of the confirmed connection is in an element in front of the oldest one. -/
def OldestFirst (e : DataEvent) (x : State × History UInt16 ℕ) : Prop :=
  match e with
  | .request _ _ => True
  | .confirm ptrMsg =>
      ∀ r ∈ x.2.next? (cfmConHandle ptrMsg), ∀ q ∈ x.2.waiting, q.key = r.key → r.slot ≤ q.slot

instance (e : DataEvent) (x : State × History UInt16 ℕ) : Decidable (OldestFirst e x) :=
  match e with
  | .request _ _ => isTrue trivial
  | .confirm ptrMsg =>
      inferInstanceAs (Decidable (∀ r ∈ x.2.next? (cfmConHandle ptrMsg), ∀ q ∈ x.2.waiting,
        q.key = r.key → r.slot ≤ q.slot))

section Pointers

variable {s : State} {e : DataEvent} {x x' : State × History UInt16 ℕ} {table : ℕ → DataPointer}
  {usConHandle : UInt16} {pucData i : ℕ} {ptrMsg : Mem UInt8}

/-! ### The two functions -/

theorem pointers_update_valid : pointers (Function.update table i ⟨true, pucData, usConHandle⟩)
    = Function.update (pointers table) i (some (usConHandle, pucData)) := by
  funext j
  unfold pointers
  by_cases h : j = i
  · subst h
    rw [Function.update_self, Function.update_self, if_pos rfl]
  · rw [Function.update_of_ne h, Function.update_of_ne h]

theorem pointers_update_free :
    pointers (Function.update table i { table i with valid := false })
      = Function.update (pointers table) i none := by
  funext j
  unfold pointers
  by_cases h : j = i
  · subst h
    rw [Function.update_self, Function.update_self, if_neg (by simp)]
  · rw [Function.update_of_ne h, Function.update_of_ne h]

/-- A request takes the first free element. -/
theorem primeClNullDataRequest_of_free
    (h : firstSlot numElementsPointerTable (fun i => (pointers s.sxDataPointerTable i).isNone)
      = some i) : primeClNullDataRequest usConHandle pucData s = { s with
        sxDataPointerTable :=
          Function.update s.sxDataPointerTable i ⟨true, pucData, usConHandle⟩ } := by
  have hfree : (fun i => !(s.sxDataPointerTable i).valid)
      = fun i => (pointers s.sxDataPointerTable i).isNone := by
    funext j
    unfold pointers
    cases (s.sxDataPointerTable j).valid <;> rfl
  unfold primeClNullDataRequest
  rw [hfree, show (List.range numElementsPointerTable).find? _ = some i from h]

/-- What a data confirm does when its connection is found. -/
theorem dataStep_confirm (hsel : s.Selected .clNullDataCfm)
    (hcmd : ptrMsg.cell 0 &&& 0x7f = nullDataCfmCmd)
    (h : firstSlot numElementsPointerTable (fun i =>
      ((pointers s.sxDataPointerTable i).map Prod.fst) == some (cfmConHandle ptrMsg)) = some i) :
    dataStep (.confirm ptrMsg) s = { s with
      calls := s.calls ++ [⟨s.sucPrimeAppIdReq.toNat, .clNullDataCfm,
        [.u16 (cfmConHandle ptrMsg), .pointer (s.sxDataPointerTable i).pucData,
          .u8 (cfmResult ptrMsg)]⟩]
      sxDataPointerTable :=
        Function.update s.sxDataPointerTable i
          { s.sxDataPointerTable i with valid := false } } := by
  have hdispatch : ifacePrimeApiReceivedCmd ptrMsg 8 s = clNullDataCfm 7 (.start ptrMsg 1) s := by
    unfold ifacePrimeApiReceivedCmd
    dsimp only
    rw [hcmd]
    rfl
  have hfind : (fun i => (s.sxDataPointerTable i).valid
        && (s.sxDataPointerTable i).conHandle == cfmConHandle ptrMsg)
      = fun i => ((pointers s.sxDataPointerTable i).map Prod.fst)
        == some (cfmConHandle ptrMsg) := by
    funext j
    unfold pointers
    cases (s.sxDataPointerTable j).valid <;> rfl
  have hread : (readNullDataCfm 7 (.start ptrMsg 1)).1
      = some (cfmConHandle ptrMsg, cfmResult ptrMsg) := rfl
  show (ifacePrimeApiReceivedCmd ptrMsg 8 s).2 = _
  rw [hdispatch, clNullDataCfm, if_pos hsel, hread]
  dsimp only
  rw [hfind, show (List.range numElementsPointerTable).find? _ = some i from h]
  rfl

/-! ### Along a run -/

/-- The waiting requests are in the table, in the order of their arrival, and the selected
application has its callback. -/
structure Kept (x : State × History UInt16 ℕ) : Prop where
  holds : SlotQueue.Holds numElementsPointerTable (pointers x.1.sxDataPointerTable) x.2.waiting
  ordered : x.2.Ordered
  selected : x.1.Selected .clNullDataCfm

/-- **One step.**  A confirm is in order exactly if the oldest request comes first in the
table. -/
theorem Kept.inOrder_iff (h : Kept x) (hans : Answerable e x) :
    InOrder e x ↔ OldestFirst e x := by
  cases e with
  | request usConHandle pucData => exact iff_of_true ⟨trivial, trivial⟩ trivial
  | confirm ptrMsg =>
      obtain ⟨hcmd, hwaiting⟩ := hans
      obtain ⟨r, before, behind, hnext, hkey, hsplit, -⟩ := h.ordered.exists_next hwaiting
      have hr : r ∈ x.2.waiting := hsplit ▸ List.mem_append_right _ List.mem_cons_self
      have hiff := h.holds.firstSlot_iff hr
      obtain ⟨i, hi⟩ := h.holds.exists_firstSlot hr
      rw [hkey] at hiff hi
      constructor
      · rintro ⟨-, q, hq, htable⟩ q' hq' w hw hwkey
        obtain rfl : r = q := Option.some.inj (hnext.symm.trans hq)
        obtain rfl : r = q' := Option.some.inj (hnext.symm.trans hq')
        have hsame : i = r.slot := by
          by_contra hne
          -- the element that is found is freed, and it is not free before
          rw [dataStep_confirm h.selected hcmd hi] at htable
          have hboth := congrArg pointers htable
          rw [pointers_update_free, pointers_update_free] at hboth
          have hat := congrFun hboth i
          rw [Function.update_self, Function.update_of_ne hne] at hat
          have hfound := (firstSlot_eq_some.mp hi).1
          rw [← hat] at hfound
          exact absurd hfound (by simp)
        rw [hsame] at hi
        exact hiff.mp hi w hw (hwkey.trans hkey)
      · intro hfirst
        have hfound := hiff.mpr fun q hq hqkey => hfirst r hnext q hq (hqkey.trans hkey.symm)
        have hvalue : (x.1.sxDataPointerTable r.slot).pucData = r.value := by
          have hslot := (h.holds.mem_iff r.slot (h.holds.inTable r hr) r.key r.value).mpr hr
          unfold pointers at hslot
          split_ifs at hslot
          exact congrArg Prod.snd (Option.some.inj hslot)
        refine ⟨⟨r, hnext, ?_⟩, ⟨r, hnext, ?_⟩⟩
        · rw [dataStep_confirm h.selected hcmd hfound, hvalue]
        · rw [dataStep_confirm h.selected hcmd hfound]

/-- **One step.**  Requests and confirms that are in order keep the table. -/
theorem Kept.step (h : Kept x) (hans : Answerable e x) (horder : InOrder e x)
    (hx : stepPointers e x = some x') : Kept x' := by
  obtain rfl := Option.some.inj hx
  cases e with
  | request usConHandle pucData =>
      obtain ⟨i, hi⟩ := h.holds.exists_free hans
      have hfree := (firstSlot_eq_some.mp hi).1
      have hlt := (firstSlot_eq_some.mp hi).2.1
      have hrequests : requestsAfter (.request usConHandle pucData) x.1 x.2
          = x.2.arrive ⟨i, usConHandle, pucData⟩ := by
        unfold requestsAfter
        dsimp only
        rw [hi]
      have hstep : dataStep (.request usConHandle pucData) x.1 = _ :=
        primeClNullDataRequest_of_free hi
      rw [hrequests, hstep]
      refine ⟨?_, h.ordered.arrive _, h.selected⟩
      show SlotQueue.Holds _ (pointers (Function.update _ _ _)) _
      rw [pointers_update_valid]
      exact h.holds.put hlt (Option.isNone_iff_eq_none.mp hfree) _ _
  | confirm ptrMsg =>
      have hfirst := (h.inOrder_iff hans).mp horder
      obtain ⟨hcmd, hwaiting⟩ := hans
      obtain ⟨r, before, behind, hnext, hkey, hsplit, hleft, -⟩ := h.ordered.exists_next hwaiting
      have hr : r ∈ x.2.waiting := hsplit ▸ List.mem_append_right _ List.mem_cons_self
      have hfound := (h.holds.firstSlot_iff hr).mpr (hfirst r hnext)
      rw [hkey] at hfound
      rw [dataStep_confirm h.selected hcmd hfound]
      refine ⟨?_, h.ordered.answer hwaiting, h.selected⟩
      show SlotQueue.Holds _ (pointers (Function.update _ _ _)) (x.2.answer _).waiting
      have hholds := h.holds
      rw [hsplit] at hholds
      rw [pointers_update_free, hleft]
      exact hholds.take

/-- **Data pointers.**  Let no request be waiting, and let the selected application have
registered the callback.  In every run with room for its requests, and with confirms of
requests made, the `k`-th confirm of a connection hands over the pointer of its `k`-th
request and frees its element, exactly if at each confirm no waiting request of the
connection is in an element in front of the oldest one. -/
theorem data_pointers_in_order_iff (s : State) (es : List DataEvent)
    (hempty : ∀ i < numElementsPointerTable, (s.sxDataPointerTable i).valid = false)
    (hsel : s.Selected .clNullDataCfm)
    (hans : AlongSteps stepPointers Answerable es (s, .nil)) :
    AlongSteps stepPointers InOrder es (s, .nil)
      ↔ AlongSteps stepPointers OldestFirst es (s, .nil) := by
  apply alongSteps_congr_of (I := Kept) hans
  · exact fun e x hx h => hx.inOrder_iff h
  · exact fun e x x' hx h horder hx' => hx.step h horder hx'
  · refine ⟨.empty fun i hi => ?_, History.ordered_nil, hsel⟩
    unfold pointers
    rw [hempty i hi]
    rfl

end Pointers

/-- The API with the null data confirm callback of application 3, which is selected. -/
def callbackSelected : State :=
  ifacePrimeSelectApi 3 (primeClNullSetCallbacks 3 (fun _ => true) ifacePrimeApiInit)

/-- A confirm of connection `lo` with success. -/
def confirmOf (lo : UInt8) : DataEvent :=
  .confirm (messageOf [nullDataCfmCmd, 0, lo, 0, 0, 0, 0, 0])

/-- Two connections, whose requests are confirmed. -/
theorem data_pointers_in_order_two :
    AlongSteps stepPointers InOrder
      [.request 1 100, .request 2 200, .request 1 101, confirmOf 1, confirmOf 1, confirmOf 2]
      (callbackSelected, .nil) := by
  refine (data_pointers_in_order_iff callbackSelected _ (by decide) (by decide) ?_).mpr ?_
  · decide +kernel
  · decide +kernel

/-- Connection 1 makes room in front of the request of connection 2, whose second request
takes it: the pointer of the second request is handed over first. -/
theorem data_pointers_out_of_order :
    ¬ ∀ (s : State) (es : List DataEvent),
      (∀ i < numElementsPointerTable, (s.sxDataPointerTable i).valid = false) →
        s.Selected .clNullDataCfm →
          AlongSteps stepPointers Answerable es (s, .nil) →
            AlongSteps stepPointers InOrder es (s, .nil) := by
  intro hclaim
  have horder := hclaim callbackSelected
    [.request 1 100, .request 2 200, confirmOf 1, .request 2 201, confirmOf 2]
    (by decide) (by decide) (by decide +kernel)
  have hover := horder.mono fun _ _ h => h.1
  revert hover
  decide +kernel

end PrimeApi
