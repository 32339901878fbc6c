/-
# What the reports keep

The two files of a cycle together are one log: what the one in the folder of the FTP server
holds, and behind it what the one under `/tmp` holds.  A call that finds its files adds its lines
to the end of that log, and the copy at the end of a cycle moves the log without changing it.
A call that does not find them loses lines, of its own or of those before, and no later call
brings them back.
-/
import PlcManager.DlmsEmuReport
import PlcManager.Runs
import PlcManager.XmlNodelist

namespace DlmsEmuReport

open DlmsEmu (DlmsReportInfo)
open XmlRep (text fmtU fmtU_inj length_fmtU_le Sprintf written)

/-! ## Names -/

section Names

variable {m n : ℕ} {name name' conf : List UInt8} {tm tm' : Tm}

theorem tmpPath_ne_nil : tmpPath name ≠ [] := List.cons_ne_nil _ _

theorem tmpPath_inj : tmpPath name = tmpPath name' ↔ name = name' := List.append_right_inj _

theorem ftpPath_inj : ftpPath name = ftpPath name' ↔ name = name' := List.append_right_inj _

theorem tmpPath_ne_ftpPath : tmpPath name ≠ ftpPath name' := by
  intro h
  have hsecond := congrArg (fun path => path[1]?) h
  revert hsecond
  simp [tmpPath, ftpPath, text]

theorem fmt02u_eq (h : n < 100) :
    fmt02u n = [UInt8.ofNat (48 + n / 10), UInt8.ofNat (48 + n % 10)] := by
  revert n
  decide +kernel

theorem length_fmt02u (h : n < 100) : (fmt02u n).length = 2 := by
  rw [fmt02u_eq h]
  rfl

theorem fmt02u_inj (hm : m < 100) (hn : n < 100) (h : fmt02u m = fmt02u n) : m = n := by
  rw [fmt02u_eq hm, fmt02u_eq hn, List.cons.injEq, List.cons.injEq] at h
  have htens := congrArg UInt8.toNat h.1
  have hones := congrArg UInt8.toNat h.2.1
  rw [UInt8.toNat_ofNat_of_lt' (by rw [UInt8.size]; omega),
    UInt8.toNat_ofNat_of_lt' (by rw [UInt8.size]; omega)] at htens hones
  omega

/-- The second of a time. -/
def Tm.second (tm : Tm) : List ℕ :=
  [tm.tmYear, tm.tmMon, tm.tmMday, tm.tmHour, tm.tmMin, tm.tmSec]

/-- Every number of a stamp but the year has two digits. -/
theorem length_stamp (tm : Tm) :
    (stamp tm).length = (fmtU (tm.tmYear + 1900)).length + 11 := by
  have := tm.sec_le
  have := tm.min_le
  have := tm.hour_le
  have := tm.mday_le
  have := tm.mon_le
  simp only [stamp, List.length_append]
  rw [length_fmt02u (by omega), length_fmt02u (by omega), length_fmt02u (by omega),
    length_fmt02u (by omega), length_fmt02u (by omega)]
  rfl

theorem stamp_inj (h : stamp tm = stamp tm') : tm.second = tm'.second := by
  have hlen := congrArg List.length h
  rw [length_stamp, length_stamp] at hlen
  have := tm.sec_le
  have := tm.min_le
  have := tm.hour_le
  have := tm.mday_le
  have := tm.mon_le
  have := tm'.sec_le
  have := tm'.min_le
  have := tm'.hour_le
  have := tm'.mday_le
  have := tm'.mon_le
  simp only [stamp, List.append_assoc] at h
  obtain ⟨hyear, h⟩ := List.append_inj h (by omega)
  obtain ⟨hmon, h⟩ := List.append_inj h (by
    rw [length_fmt02u (by omega), length_fmt02u (by omega)])
  obtain ⟨hmday, h⟩ := List.append_inj h (by
    rw [length_fmt02u (by omega), length_fmt02u (by omega)])
  obtain ⟨hhour, h⟩ := List.append_inj (List.append_cancel_left h) (by
    rw [length_fmt02u (by omega), length_fmt02u (by omega)])
  obtain ⟨hmin, hsec⟩ := List.append_inj h (by
    rw [length_fmt02u (by omega), length_fmt02u (by omega)])
  rw [Tm.second, Tm.second, Nat.add_right_cancel (fmtU_inj.mp hyear),
    fmt02u_inj (by omega) (by omega) hmon, fmt02u_inj (by omega) (by omega) hmday,
    fmt02u_inj (by omega) (by omega) hhour, fmt02u_inj (by omega) (by omega) hmin,
    fmt02u_inj (by omega) (by omega) hsec]

/-- Cycles share their files if they have started in the same second, and only then. -/
theorem cycleName_inj : cycleName conf tm = cycleName conf tm' ↔ tm.second = tm'.second := by
  constructor
  · intro h
    exact stamp_inj (List.append_cancel_left (List.append_cancel_right h))
  · intro h
    simp only [Tm.second, List.cons.injEq, and_true] at h
    obtain ⟨hyear, hmon, hmday, hhour, hmin, hsec⟩ := h
    simp only [cycleName, stamp, hyear, hmon, hmday, hhour, hmin, hsec]

end Names

/-! ## The log of a name -/

/-- What the files of a name hold, that of the FTP server first; before the first cycle there
is no name. -/
def State.held (k : Option (List UInt8)) (s : State) : List UInt8 :=
  k.elim [] fun name =>
    (s.files (ftpPath name)).getD [] ++ (s.files (tmpPath name)).getD []

/-- The names are those of the cycle. -/
structure State.At (conf : List UInt8) (k : Option (List UInt8)) (s : State) : Prop where
  conf : s.spucConfName = conf
  tmp : s.spucTmpName = k.elim [] tmpPath
  ftp : s.spucFileName = k.elim [] ftpPath

/-- The name that a call is about. -/
def nameAt (conf : List UInt8) (k : Option (List UInt8)) (c : Call × Answers) :
    Option (List UInt8) :=
  match c.1 with
  | .startCycle => some (cycleName conf c.2.tm)
  | _ => k

/-- What a call prints. -/
def prints (conf : List UInt8) (c : Call × Answers) : List Sprintf :=
  match c.1 with
  | .startCycle => startPrints conf c.2.tm
  | .nodeCycle xNodeInfo => [nodePrint c.2.tm xNodeInfo]
  | .endCycle => [endPrint conf c.2.tm]

/-- What is printed under one name. -/
def said (conf : List UInt8) (l : Option (List UInt8)) :
    Option (List UInt8) → List (Call × Answers) → List UInt8
  | _, [] => []
  | k, c :: cs =>
      (if nameAt conf k c = l then written (prints conf c) else [])
        ++ said conf l (nameAt conf k c) cs

/-- The files that the call needs are found. -/
def Answered (c : Call × Answers) : Prop :=
  c.2.opensTmp = true ∧ (c.1 matches .endCycle → c.2.opensFtp = true)

instance (c : Call × Answers) : Decidable (Answered c) := inferInstanceAs (Decidable (_ ∧ _))

/-- The call finds its files. -/
def Keeps (conf : List UInt8) (k : Option (List UInt8)) (c : Call × Answers) : Prop :=
  Answered c ∧ nameAt conf k c ≠ none

section Steps

variable {conf bs path : List UInt8} {k l : Option (List UInt8)} {s s' : State} {a : Answers}
  {c : Call × Answers} {cs : List (Call × Answers)} {ps : List Sprintf}

theorem written_prints_ne_nil (conf : List UInt8) (c : Call × Answers) :
    written (prints conf c) ≠ [] := by
  obtain ⟨c, a⟩ := c
  cases c with
  | nodeCycle xNodeInfo =>
      intro h
      have hlen := congrArg List.length h
      simp [written, prints, nodePrint, text] at hlen
  | _ => exact List.cons_ne_nil _ _

theorem append_append {xs ys : List UInt8} :
    (s.append path xs).append path ys = s.append path (xs ++ ys) := by
  simp [State.append]

/-- The copy adds all that is read. -/
theorem copyRounds_true {xs ys : List UInt8} :
    copyRounds true ys (s.append s.spucFileName xs) = s.append s.spucFileName (xs ++ ys) := by
  induction ys generalizing xs with
  | nil => rw [List.append_nil, copyRounds]
  | cons c ys ih =>
      rw [copyRounds, if_pos rfl]
      show copyRounds true ys ((s.append s.spucFileName xs).append s.spucFileName [c]) = _
      rw [append_append, ih, List.append_assoc, List.singleton_append]

theorem copyRounds_false {ys : List UInt8} : copyRounds false ys s = s := by
  induction ys with
  | nil => rfl
  | cons c ys ih =>
      rw [copyRounds, if_neg Bool.false_ne_true]
      exact ih

theorem State.At.opens_iff (h : s.At conf k) : s.Opens a ↔ a.opensTmp = true ∧ k ≠ none := by
  refine and_congr_right fun _ => ?_
  rw [h.tmp]
  cases k with
  | none => simp
  | some name => simp [tmpPath_ne_nil]

/-- Prints go to the end of the log. -/
theorem held_print {name : List UInt8} (htmp : s.spucTmpName = tmpPath name) :
    (s.print ps).held l = s.held l ++ if some name = l then written ps else [] := by
  cases l with
  | none => simp [State.held]
  | some other =>
      have hftp : (s.print ps).files (ftpPath other) = s.files (ftpPath other) := by
        simp [State.print, State.append, htmp, tmpPath_ne_ftpPath.symm]
      by_cases hname : name = other
      · subst hname
        have htmp' : (s.print ps).files (tmpPath name)
            = some ((s.files (tmpPath name)).getD [] ++ written ps) := by
          simp [State.print, State.append, htmp]
        simp [State.held, hftp, htmp']
      · have hne : tmpPath other ≠ tmpPath name := fun h => hname (tmpPath_inj.mp h).symm
        have htmp' : (s.print ps).files (tmpPath other) = s.files (tmpPath other) := by
          simp [State.print, State.append, htmp, hne]
        simp [State.held, hftp, htmp', hname]

/-- The file of the cycle is removed. -/
def State.remove (s : State) : State :=
  { s with files := Function.update s.files s.spucTmpName none }

/-- Without the copy, the log is cut off where the other file ends. -/
theorem held_remove {name : List UInt8} (htmp : s.spucTmpName = tmpPath name) :
    s.remove.held l
      = if some name = l then (s.files (ftpPath name)).getD [] else s.held l := by
  cases l with
  | none => simp [State.held]
  | some other =>
      have hftp : s.remove.files (ftpPath other) = s.files (ftpPath other) := by
        simp [State.remove, htmp, tmpPath_ne_ftpPath.symm]
      by_cases hname : name = other
      · subst hname
        have htmp' : s.remove.files (tmpPath name) = none := by
          simp [State.remove, htmp]
        simp [State.held, hftp, htmp']
      · have hne : tmpPath other ≠ tmpPath name := fun h => hname (tmpPath_inj.mp h).symm
        have htmp' : s.remove.files (tmpPath other) = s.files (tmpPath other) := by
          simp [State.remove, htmp, hne]
        simp [State.held, hftp, htmp', hname]

/-- With the copy, the log is as it was. -/
theorem held_move {name : List UInt8} (htmp : s.spucTmpName = tmpPath name)
    (hftp : s.spucFileName = ftpPath name) :
    (s.append s.spucFileName ((s.files s.spucTmpName).getD [])).remove.held l = s.held l := by
  rw [held_remove (s := s.append _ _) htmp, htmp, hftp]
  split_ifs with hname
  · subst hname
    simp [State.held, State.append]
  · cases l with
    | none => rfl
    | some other =>
        have hne : ftpPath other ≠ ftpPath name := fun h =>
          hname (congrArg some (ftpPath_inj.mp h).symm)
        simp [State.held, State.append, hne, tmpPath_ne_ftpPath]

theorem endCycle_eq (hopens : s.Opens a) (hs : dlmsEmuReportEndCycle a s = some s') :
    s' = if a.opensFtp then
        ((s.print [endPrint s.spucConfName a.tm]).append s.spucFileName
          (((s.print [endPrint s.spucConfName a.tm]).files s.spucTmpName).getD [])).remove
      else (s.print [endPrint s.spucConfName a.tm]).remove := by
  unfold dlmsEmuReportEndCycle at hs
  rw [if_pos hopens] at hs
  dsimp only at hs
  split_ifs at hs with hagain hftp
  · obtain rfl := Option.some.inj hs
    rw [if_pos hftp, hftp, copyRounds_true (s := s.print _), List.nil_append]
    rfl
  · obtain rfl := Option.some.inj hs
    have hfalse : a.opensFtp = false := Bool.eq_false_iff.mpr hftp
    rw [if_neg hftp, hfalse, copyRounds_false]
    rfl

/-- The names after a call are those that it is about. -/
theorem State.At.step (h : s.At conf k) (hs : reportStep c s = some s') :
    s'.At conf (nameAt conf k c) := by
  obtain ⟨c, a⟩ := c
  cases c with
  | startCycle =>
      obtain rfl := Option.some.inj hs
      have hconf := h.conf
      unfold dlmsEmuReportStartCycle
      dsimp only
      split_ifs
      · exact ⟨hconf, congrArg (fun c => tmpPath (cycleName c a.tm)) hconf,
          congrArg (fun c => ftpPath (cycleName c a.tm)) hconf⟩
      · exact ⟨hconf, congrArg (fun c => tmpPath (cycleName c a.tm)) hconf,
          congrArg (fun c => ftpPath (cycleName c a.tm)) hconf⟩
  | nodeCycle xNodeInfo =>
      obtain rfl := Option.some.inj hs
      unfold dlmsEmuReportNodeCycle
      split_ifs
      · exact ⟨h.conf, h.tmp, h.ftp⟩
      · exact h
  | endCycle =>
      by_cases hopens : s.Opens a
      · rw [endCycle_eq hopens hs]
        split_ifs
        · exact ⟨h.conf, h.tmp, h.ftp⟩
        · exact ⟨h.conf, h.tmp, h.ftp⟩
      · unfold reportStep dlmsEmuReportEndCycle at hs
        rw [if_neg hopens] at hs
        obtain rfl := Option.some.inj hs
        exact h

/-- What a call does to the logs: it adds bytes to that of `k` if it keeps them, and otherwise
the log is shorter than that; to the other logs nothing happens. -/
structure Logs (keeps : Prop) (k : Option (List UInt8)) (bytes : List UInt8) (s s' : State) :
    Prop where
  others : ∀ l, k ≠ l → s'.held l = s.held l
  kept : keeps → s'.held k = s.held k ++ bytes
  lost : ¬ keeps → (s'.held k).length < (s.held k).length + bytes.length

theorem Logs.of_files {keeps : Prop} (hkeeps : ¬ keeps) (hbs : bs ≠ [])
    (hfiles : s'.files = s.files) : Logs keeps k bs s s' := by
  have hheld : ∀ l, s'.held l = s.held l := fun l => by rw [State.held, State.held, hfiles]
  refine ⟨fun l _ => hheld l, fun h => absurd h hkeeps, fun _ => ?_⟩
  rw [hheld]
  exact Nat.lt_add_of_pos_right (List.length_pos_iff.mpr hbs)

theorem Logs.of_print {keeps : Prop} {name : List UInt8} (ps : List Sprintf) (hkeeps : keeps)
    (htmp : s.spucTmpName = tmpPath name) :
    Logs keeps (some name) (written ps) s (s.print ps) := by
  refine ⟨fun l hl => ?_, fun _ => ?_, fun h => absurd hkeeps h⟩
  · rw [held_print htmp, if_neg hl, List.append_nil]
  · rw [held_print htmp, if_pos rfl]

/-- **One call.** -/
theorem State.At.logs (h : s.At conf k) (hs : reportStep c s = some s') :
    Logs (Keeps conf k c) (nameAt conf k c) (written (prints conf c)) s s' := by
  have hne := written_prints_ne_nil conf c
  obtain ⟨c, a⟩ := c
  cases c with
  | startCycle =>
      obtain rfl := Option.some.inj hs
      unfold dlmsEmuReportStartCycle
      rw [h.conf]
      dsimp only
      split_ifs with hopens
      · have hkeeps : Keeps conf k (.startCycle, a) := ⟨⟨hopens.1, by simp⟩, by simp [nameAt]⟩
        have hprint := Logs.of_print (s := s.setNames (cycleName conf a.tm)) (startPrints conf a.tm)
          hkeeps rfl
        rw [show (s.setNames (cycleName conf a.tm)).spucConfName = conf from h.conf]
        exact ⟨hprint.others, hprint.kept, hprint.lost⟩
      · exact Logs.of_files (fun hkeeps => hopens ⟨hkeeps.1.1, tmpPath_ne_nil⟩) hne rfl
  | nodeCycle xNodeInfo =>
      obtain rfl := Option.some.inj hs
      unfold dlmsEmuReportNodeCycle
      split_ifs with hopens
      · obtain ⟨hanswer, hsome⟩ := h.opens_iff.mp hopens
        obtain ⟨name, rfl⟩ := Option.ne_none_iff_exists'.mp hsome
        exact Logs.of_print _ ⟨⟨hanswer, by simp⟩, hsome⟩ h.tmp
      · exact Logs.of_files (fun hkeeps => hopens (h.opens_iff.mpr ⟨hkeeps.1.1, hkeeps.2⟩)) hne rfl
  | endCycle =>
      by_cases hopens : s.Opens a
      · obtain ⟨hanswer, hsome⟩ := h.opens_iff.mp hopens
        obtain ⟨name, rfl⟩ := Option.ne_none_iff_exists'.mp hsome
        have hprint := Logs.of_print [endPrint conf a.tm] trivial h.tmp
        have heq := endCycle_eq hopens hs
        rw [h.conf] at heq
        rw [heq]
        split_ifs with hftp
        · have hmove (l : Option (List UInt8)) :=
            held_move (s := s.print [endPrint conf a.tm]) (l := l) h.tmp h.ftp
          refine ⟨fun l hl => ?_, fun _ => ?_, fun hkeeps => ?_⟩
          · exact (hmove l).trans (hprint.others l hl)
          · exact (hmove _).trans (hprint.kept trivial)
          · exact absurd ⟨⟨hanswer, fun _ => hftp⟩, hsome⟩ hkeeps
        · have hremove (l : Option (List UInt8)) :=
            held_remove (s := s.print [endPrint conf a.tm]) (l := l) h.tmp
          refine ⟨fun l hl => ?_, fun hkeeps => ?_, fun _ => ?_⟩
          · have hother : some name ≠ l := hl
            rw [hremove, if_neg hother]
            exact hprint.others l hl
          · exact absurd (hkeeps.1.2 rfl) hftp
          · -- only what the FTP server has is left
            have hfile : (s.print [endPrint conf a.tm]).files (ftpPath name)
                = s.files (ftpPath name) := by
              simp [State.print, State.append, h.tmp, tmpPath_ne_ftpPath.symm]
            show (State.held (some name) _).length < _
            rw [hremove, if_pos rfl, hfile]
            have hpos := List.length_pos_iff.mpr hne
            simp only [nameAt, State.held, Option.elim_some, List.length_append]
            omega
      · unfold reportStep dlmsEmuReportEndCycle at hs
        rw [if_neg hopens] at hs
        obtain rfl := Option.some.inj hs
        exact Logs.of_files (fun hkeeps => hopens (h.opens_iff.mpr ⟨hkeeps.1.1, hkeeps.2⟩)) hne rfl

theorem Logs.length_le {keeps : Prop} (h : Logs keeps k bs s s') (l : Option (List UInt8)) :
    (s'.held l).length ≤ (s.held l).length + (if k = l then bs else []).length := by
  by_cases hl : k = l
  · subst hl
    rw [if_pos rfl]
    by_cases hkeeps : keeps
    · rw [h.kept hkeeps, List.length_append]
    · exact (h.lost hkeeps).le
  · rw [if_neg hl, h.others l hl]
    exact Nat.le_add_right _ _

theorem Logs.eq_of_keeps {keeps : Prop} (h : Logs keeps k bs s s') (hkeeps : keeps)
    (l : Option (List UInt8)) : s'.held l = s.held l ++ if k = l then bs else [] := by
  split_ifs with hl
  · subst hl
    exact h.kept hkeeps
  · rw [List.append_nil]
    exact h.others l hl

end Steps

/-! ## Runs -/

/-- Every call finds its files. -/
def AllKeep (conf : List UInt8) : Option (List UInt8) → List (Call × Answers) → Prop
  | _, [] => True
  | k, c :: cs => Keeps conf k c ∧ AllKeep conf (nameAt conf k c) cs

section Runs

variable {conf : List UInt8} {k l : Option (List UInt8)} {s s' : State}
  {cs : List (Call × Answers)}

theorem run_length_le (h : s.At conf k) (hrun : runSteps reportStep cs s = some s') :
    (s'.held l).length ≤ (s.held l).length + (said conf l k cs).length := by
  induction cs generalizing s k with
  | nil =>
      rw [Option.some.inj hrun]
      exact Nat.le_add_right _ _
  | cons c cs ih =>
      obtain ⟨u, hu, hrest⟩ := Option.bind_eq_some_iff.mp hrun
      have hstep := (h.logs hu).length_le l
      have hle := ih (h.step hu) hrest
      rw [said, List.length_append]
      omega

/-- The logs hold all that has been said if every call finds its files, and only then. -/
theorem run_held_iff (h : s.At conf k) (hrun : runSteps reportStep cs s = some s') :
    (∀ l, s'.held l = s.held l ++ said conf l k cs) ↔ AllKeep conf k cs := by
  induction cs generalizing s k with
  | nil =>
      rw [Option.some.inj hrun]
      exact iff_of_true (fun l => (List.append_nil _).symm) trivial
  | cons c cs ih =>
      obtain ⟨u, hu, hrest⟩ := Option.bind_eq_some_iff.mp hrun
      have hlogs := h.logs hu
      have hat := h.step hu
      by_cases hkeeps : Keeps conf k c
      · rw [AllKeep, and_iff_right hkeeps, ← ih hat hrest]
        refine forall_congr' fun l => ?_
        rw [hlogs.eq_of_keeps hkeeps, said, List.append_assoc]
      · refine iff_of_false (fun hall => ?_) fun hall => hkeeps hall.1
        -- what the call has lost does not come back
        have hlost := hlogs.lost hkeeps
        have hle := run_length_le (l := nameAt conf k c) hat hrest
        have hlen := congrArg List.length (hall (nameAt conf k c))
        rw [said, if_pos rfl, List.length_append, List.length_append] at hlen
        omega

theorem allKeep_iff : AllKeep conf k cs
    ↔ (∀ c ∈ cs, Answered c) ∧ (k = none → ∀ c ∈ cs.head?, c.1 = .startCycle) := by
  induction cs generalizing k with
  | nil => simp [AllKeep]
  | cons c cs ih =>
      have hname : nameAt conf k c ≠ none ↔ (k = none → c.1 = .startCycle) := by
        obtain ⟨c, a⟩ := c
        cases c <;> simp [nameAt]
      rw [AllKeep, ih, Keeps, hname, List.forall_mem_cons, List.head?_cons]
      simp only [Option.mem_some_iff, forall_eq']
      constructor
      · rintro ⟨⟨hc, hstart⟩, hcs, -⟩
        exact ⟨⟨hc, hcs⟩, hstart⟩
      · rintro ⟨⟨hc, hcs⟩, hstart⟩
        exact ⟨⟨hc, hstart⟩, hcs, fun hnone => absurd hnone (hname.mpr hstart)⟩

/-- The names after a run. -/
theorem State.At.run (h : s.At conf k) (hrun : runSteps reportStep cs s = some s') :
    s'.At conf (cs.foldl (nameAt conf) k) := by
  induction cs generalizing s k with
  | nil => rwa [← Option.some.inj hrun]
  | cons c cs ih =>
      obtain ⟨u, hu, hrest⟩ := Option.bind_eq_some_iff.mp hrun
      exact ih (h.step hu) hrest

/-- When the end of a cycle has found its files, the log is in the folder of the FTP server. -/
theorem endCycle_files {a : Answers} {name : List UInt8} (h : s.At conf (some name))
    (hanswer : Answered (.endCycle, a)) (hs : reportStep (.endCycle, a) s = some s') :
    s'.files (tmpPath name) = none ∧ s'.files (ftpPath name) = some (s'.held (some name)) := by
  have hopens : s.Opens a := h.opens_iff.mpr ⟨hanswer.1, Option.some_ne_none name⟩
  rw [endCycle_eq hopens hs, if_pos (hanswer.2 rfl), h.tmp, h.ftp]
  simp [State.held, State.remove, State.append, State.print, h.tmp, tmpPath_ne_ftpPath.symm]

theorem allKeep_append {ds : List (Call × Answers)} : AllKeep conf k (cs ++ ds)
    ↔ AllKeep conf k cs ∧ AllKeep conf (cs.foldl (nameAt conf) k) ds := by
  induction cs generalizing k with
  | nil => exact (and_iff_right trivial).symm
  | cons c cs ih => rw [List.cons_append, AllKeep, AllKeep, ih, List.foldl_cons, and_assoc]

theorem at_started (files : List UInt8 → Option (List UInt8)) :
    (started files).At (text "top_name") none := ⟨rfl, rfl, rfl⟩

end Runs

/-! ## The reports -/

/-- **Nothing is lost.**  Over every run, the two files of a name hold the lines that have been
printed under it, in order and each once, behind what they held before: if every call can open
its files and none comes before the first cycle, and only then. -/
theorem dlms_emu_report_files_iff (files : List UInt8 → Option (List UInt8))
    {cs : List (Call × Answers)} {s : State}
    (hrun : runSteps reportStep cs (started files) = some s) :
    (∀ l, s.held l = (started files).held l ++ said (text "top_name") l none cs)
      ↔ (∀ c ∈ cs, Answered c) ∧ ∀ c ∈ cs.head?, c.1 = .startCycle := by
  rw [run_held_iff (at_started files) hrun, allKeep_iff]
  exact and_congr_right fun _ => ⟨fun h => h rfl, fun h _ => h⟩

/-- When the end of a cycle has been reported and every call so far has found its files, the
file in the folder of the FTP server holds all that has been printed under the name, behind what
the two files held before, and the other one is gone. -/
theorem run_delivered (files : List UInt8 → Option (List UInt8)) {cs : List (Call × Answers)}
    {b : Answers} {s : State} {name : List UInt8}
    (hrun : runSteps reportStep (cs ++ [(.endCycle, b)]) (started files) = some s)
    (hkeep : AllKeep (text "top_name") none (cs ++ [(.endCycle, b)]))
    (hname : cs.foldl (nameAt (text "top_name")) none = some name) :
    s.files (tmpPath name) = none
      ∧ s.files (ftpPath name) = some ((started files).held (some name)
        ++ said (text "top_name") (some name) none (cs ++ [(.endCycle, b)])) := by
  have hheld := (run_held_iff (at_started files) hrun).mpr hkeep (some name)
  have hend := (allKeep_append.mp hkeep).2.1
  rw [runSteps_append] at hrun
  obtain ⟨u, hu, hlast⟩ := Option.bind_eq_some_iff.mp hrun
  obtain ⟨v, hv, hnil⟩ := Option.bind_eq_some_iff.mp hlast
  obtain rfl := Option.some.inj hnil
  have hat := (at_started files).run hu
  rw [hname] at hat
  rw [← hheld]
  exact endCycle_files hat hend.1 hv

/-! ## A cycle -/

section Cycle

variable {conf name : List UInt8} {k l : Option (List UInt8)} {cs ds : List (Call × Answers)}

theorem said_append : said conf l k (cs ++ ds)
    = said conf l k cs ++ said conf l (cs.foldl (nameAt conf) k) ds := by
  induction cs generalizing k with
  | nil => rfl
  | cons c cs ih =>
      rw [List.cons_append, said, said, ih, List.append_assoc, List.foldl_cons]

/-- Under a name that no cycle has, nothing is said. -/
theorem said_of_fresh (hk : k ≠ some name)
    (h : ∀ c ∈ cs, c.1 = .startCycle → cycleName conf c.2.tm ≠ name) :
    said conf (some name) k cs = [] := by
  induction cs generalizing k with
  | nil => rfl
  | cons c cs ih =>
      rw [List.forall_mem_cons] at h
      have hne : nameAt conf k c ≠ some name := by
        obtain ⟨c, a⟩ := c
        cases c with
        | startCycle => exact fun heq => h.1 rfl (Option.some.inj heq)
        | _ => exact hk
      rw [said, if_neg hne, ih hne h.2]
      rfl

/-- Without a new cycle, all that is said is said under one name. -/
theorem said_of_rows (h : ∀ c ∈ cs, c.1 ≠ .startCycle) :
    said conf k k cs = written (cs.flatMap (prints conf)) ∧ cs.foldl (nameAt conf) k = k := by
  induction cs with
  | nil => exact ⟨rfl, rfl⟩
  | cons c cs ih =>
      rw [List.forall_mem_cons] at h
      obtain ⟨hsaid, hname⟩ := ih h.2
      have hk : nameAt conf k c = k := by
        obtain ⟨c, a⟩ := c
        cases c with
        | startCycle => exact absurd rfl h.1
        | _ => rfl
      refine ⟨?_, by rw [List.foldl_cons, hk, hname]⟩
      rw [said, if_pos hk, hk, hsaid, List.flatMap_cons, XmlRep.written_append]

end Cycle

/-- **What is delivered.**  When a cycle has ended and every call so far has found its files, the
file in the folder of the FTP server holds the lines of that cycle, from its start to its end, in
order and nothing else, and the other one is gone: if no earlier cycle has started in the same
second, and there were no such files before. -/
theorem dlms_emu_report_delivered (files : List UInt8 → Option (List UInt8))
    (before rows : List (Call × Answers)) {a b : Answers} {s : State}
    (hrun : runSteps reportStep (before ++ (.startCycle, a) :: rows ++ [(.endCycle, b)])
      (started files) = some s)
    (hanswered : ∀ c ∈ before ++ (Call.startCycle, a) :: rows ++ [(Call.endCycle, b)], Answered c)
    (hstart : ∀ c ∈ before.head?, c.1 = .startCycle)
    (hrows : ∀ c ∈ rows, c.1 ≠ .startCycle)
    (hsecond : ∀ c ∈ before, c.1 = .startCycle → c.2.tm.second ≠ a.tm.second)
    (hfiles : (started files).held (some (cycleName (text "top_name") a.tm)) = []) :
    s.files (tmpPath (cycleName (text "top_name") a.tm)) = none
      ∧ s.files (ftpPath (cycleName (text "top_name") a.tm))
        = some (written (((Call.startCycle, a) :: rows ++ [(Call.endCycle, b)]).flatMap
          (prints (text "top_name")))) := by
  set name := cycleName (text "top_name") a.tm
  have hkeep : AllKeep (text "top_name") none
      (before ++ (.startCycle, a) :: rows ++ [(.endCycle, b)]) := by
    refine allKeep_iff.mpr ⟨hanswered, fun _ => ?_⟩
    cases before with
    | nil => exact fun c hc => by rw [← Option.some.inj hc]
    | cons c before => exact hstart
  have hcycle : ∀ c ∈ rows ++ [(Call.endCycle, b)], c.1 ≠ .startCycle := by
    rw [List.forall_mem_append, List.forall_mem_singleton]
    exact ⟨hrows, Call.noConfusion⟩
  have hname : (before ++ (.startCycle, a) :: rows).foldl (nameAt (text "top_name")) none
      = some name := by
    rw [List.foldl_append, List.foldl_cons]
    exact (said_of_rows hrows).2
  obtain ⟨htmp, hftp⟩ := run_delivered files hrun hkeep hname
  refine ⟨htmp, ?_⟩
  have hfresh : said (text "top_name") (some name) none before = [] :=
    said_of_fresh (by simp) fun c hc hc1 heq => hsecond c hc hc1 (cycleName_inj.mp heq)
  rw [hftp, hfiles, List.nil_append, List.append_assoc, said_append, hfresh, List.nil_append,
    List.cons_append, said, if_pos (show nameAt _ _ (.startCycle, a) = some name from rfl)]
  rw [show nameAt (text "top_name") (before.foldl (nameAt (text "top_name")) none)
    (.startCycle, a) = some name from rfl, (said_of_rows hcycle).1, List.flatMap_cons,
    XmlRep.written_append]

/-- Only a file that cannot be read again stops the program. -/
theorem exists_run {cs : List (Call × Answers)} (s : State)
    (h : ∀ c ∈ cs, c.2.opensAgain = true) : ∃ s', runSteps reportStep cs s = some s' := by
  induction cs generalizing s with
  | nil => exact ⟨s, rfl⟩
  | cons c cs ih =>
      rw [List.forall_mem_cons] at h
      have hstep : ∃ u, reportStep c s = some u := by
        obtain ⟨c, a⟩ := c
        cases c with
        | endCycle =>
            by_cases hopens : s.Opens a
            · exact ⟨_, by rw [reportStep, dlmsEmuReportEndCycle, if_pos hopens, if_pos h.1]⟩
            · exact ⟨s, if_neg hopens⟩
        | _ => exact ⟨_, rfl⟩
      obtain ⟨u, hu⟩ := hstep
      obtain ⟨s', hs'⟩ := ih u h.2
      exact ⟨s', by rw [runSteps_cons, hu, Option.bind_some, hs']⟩

/-- A time at which every file can be opened. -/
def opened (tmSec : Fin 60) : Answers :=
  ⟨⟨tmSec, 0, 12, 1, 0, 116, 5, by omega, by decide, by decide, by decide, by decide, by decide⟩,
    true, true, true⟩

/-- A cycle with one node that does not answer. -/
def oneCycle : List (Call × Answers) :=
  [(.startCycle, opened 0),
    (.nodeCycle ⟨0, text "ZIV1", "DLMS ERROR TIMEOUT", "GET"⟩, opened 20)]

/-- It is written, and it ends. -/
theorem dlms_emu_report_files_oneCycle : ∃ s,
    runSteps reportStep (oneCycle ++ [(.endCycle, opened 21)]) (started fun _ => none) = some s
      ∧ ∀ l, s.held l = (started fun _ => none).held l
        ++ said (text "top_name") l none (oneCycle ++ [(.endCycle, opened 21)]) := by
  have hagain : ∀ c ∈ oneCycle ++ [(Call.endCycle, opened 21)], c.2.opensAgain = true := by
    simp [oneCycle, opened]
  obtain ⟨s, hs⟩ := exists_run (started fun _ => none) hagain
  exact ⟨s, hs, (dlms_emu_report_files_iff _ hs).mpr
    ⟨by simp [oneCycle, opened, Answered], by simp [oneCycle]⟩⟩

/-- Two cycles in a row, twenty seconds apart: the second one is delivered by itself. -/
theorem dlms_emu_report_delivered_secondCycle : ∃ s : State,
    runSteps reportStep ((oneCycle ++ [(.endCycle, opened 21)]) ++ (.startCycle, opened 40)
      :: [(.nodeCycle ⟨4, text "ZIV2", "DLMS SUCCESS", "GET"⟩, opened 50)]
      ++ [(.endCycle, opened 55)]) (started fun _ => none) = some s
      ∧ s.files (tmpPath (cycleName (text "top_name") (opened 40).tm)) = none
      ∧ s.files (ftpPath (cycleName (text "top_name") (opened 40).tm))
        = some (written (((Call.startCycle, opened 40)
          :: [(.nodeCycle ⟨4, text "ZIV2", "DLMS SUCCESS", "GET"⟩, opened 50)]
          ++ [(Call.endCycle, opened 55)]).flatMap (prints (text "top_name")))) := by
  have hagain : ∀ c ∈ (oneCycle ++ [(Call.endCycle, opened 21)]) ++ (.startCycle, opened 40)
      :: [(.nodeCycle ⟨4, text "ZIV2", "DLMS SUCCESS", "GET"⟩, opened 50)]
      ++ [(.endCycle, opened 55)], c.2.opensAgain = true := by
    simp [oneCycle, opened]
  obtain ⟨s, hs⟩ := exists_run (started fun _ => none) hagain
  exact ⟨s, hs, dlms_emu_report_delivered (fun _ => none) (oneCycle ++ [(.endCycle, opened 21)]) _
    hs (by simp [oneCycle, opened, Answered]) (by simp [oneCycle]) (by simp)
    (by simp [oneCycle, opened, Tm.second]) rfl⟩

end DlmsEmuReport
