/-
# The report of a cycle

Embeds `dlms_emu_report.c`.  A cycle is reported line by line into a file under `/tmp`, and when
the cycle ends that file is copied, byte by byte, to the end of a file in the folder of the FTP
server and removed.  Both are named after the second in which the cycle has started.

The file system is a map from paths to contents; which files can be opened, and what the time
is, are answers that every call gets.  An empty path cannot be opened.  The copy reads until
`read` returns zero, which it never does of a file that could not be opened.
-/
import PlcManager.DlmsEmu
import PlcManager.XmlRep

namespace DlmsEmuReport

open DlmsEmu (DlmsReportInfo)
open XmlRep (text fmtU Sprintf)

/-! ## Times -/

/-- `struct tm`, of a time from 1900 to 9999. -/
structure Tm where
  tmSec : ℕ
  tmMin : ℕ
  tmHour : ℕ
  tmMday : ℕ
  tmMon : ℕ
  tmYear : ℕ
  tmWday : ℕ
  sec_le : tmSec ≤ 60
  min_le : tmMin ≤ 59
  hour_le : tmHour ≤ 23
  mday_le : tmMday ≤ 31
  mon_le : tmMon ≤ 11
  year_le : tmYear + 1900 ≤ 9999

/-- `%02u` and `%.2d`. -/
def fmt02u (n : ℕ) : List UInt8 := if n < 10 then text "0" ++ fmtU n else fmtU n

/-- `%3d`. -/
def fmt3d (n : ℕ) : List UInt8 := List.replicate (3 - (fmtU n).length) 32 ++ fmtU n

/-- The abbreviated names of the days and the months. -/
def wdayName (n : ℕ) : List UInt8 :=
  text (["Sun", "Mon", "Tue", "Wed", "Thu", "Fri", "Sat"].getD n "???")
def monName (n : ℕ) : List UInt8 :=
  text (["Jan", "Feb", "Mar", "Apr", "May", "Jun", "Jul", "Aug", "Sep", "Oct", "Nov",
    "Dec"].getD n "???")

/-- `asctime`. -/
def asctime (tm : Tm) : List UInt8 :=
  wdayName tm.tmWday ++ text " " ++ monName tm.tmMon ++ fmt3d tm.tmMday ++ text " "
    ++ fmt02u tm.tmHour ++ text ":" ++ fmt02u tm.tmMin ++ text ":" ++ fmt02u tm.tmSec
    ++ text " " ++ fmtU (tm.tmYear + 1900) ++ text "\n"

/-- `%u%02u%02u_%02u%02u%02u` of a time; the months count from zero. -/
def stamp (tm : Tm) : List UInt8 :=
  fmtU (tm.tmYear + 1900) ++ fmt02u tm.tmMon ++ fmt02u tm.tmMday ++ text "_"
    ++ fmt02u tm.tmHour ++ fmt02u tm.tmMin ++ fmt02u tm.tmSec

/-- `%u/%02u/%02u_%02u:%02u:%02u` of a time. -/
def rowTime (tm : Tm) : List UInt8 :=
  fmtU (tm.tmYear + 1900) ++ text "/" ++ fmt02u tm.tmMon ++ text "/" ++ fmt02u tm.tmMday
    ++ text "_" ++ fmt02u tm.tmHour ++ text ":" ++ fmt02u tm.tmMin ++ text ":" ++ fmt02u tm.tmSec

/-! ## Files -/

/-- The name of the report of a cycle. -/
def cycleName (conf : List UInt8) (tm : Tm) : List UInt8 :=
  conf ++ text "_" ++ stamp tm ++ text ".csv"

/-- Where it is written. -/
def tmpPath (name : List UInt8) : List UInt8 := text "/tmp/" ++ name
/-- Where it is copied to. -/
def ftpPath (name : List UInt8) : List UInt8 := text "/home/ftp/Cycles/" ++ name

/-- The static variables of `dlms_emu_report.c`, the file system, and the prints so far. -/
structure State where
  spucConfName : List UInt8
  spucTmpName : List UInt8
  spucFileName : List UInt8
  files : List UInt8 → Option (List UInt8)
  sprintfs : List Sprintf

/-- What a call is answered: the local time, and whether its files can be opened, the one of
the cycle for writing and for reading and the one in the folder of the FTP server. -/
structure Answers where
  tm : Tm
  opensTmp : Bool
  opensAgain : Bool
  opensFtp : Bool

/-- Bytes are written to the end of a file, which is created if it does not exist. -/
def State.append (path bytes : List UInt8) (s : State) : State :=
  { s with files := Function.update s.files path (some ((s.files path).getD [] ++ bytes)) }

/-- `open(spuc_tmp_name, O_RDWR|O_CREAT|O_APPEND, ..) != -1`. -/
def State.Opens (a : Answers) (s : State) : Prop := a.opensTmp = true ∧ s.spucTmpName ≠ []

instance (a : Answers) (s : State) : Decidable (s.Opens a) := inferInstanceAs (Decidable (_ ∧ _))

/-- Prints, each written to the file of the cycle. -/
def State.print (ps : List Sprintf) (s : State) : State :=
  { s.append s.spucTmpName (XmlRep.written ps) with sprintfs := s.sprintfs ++ ps }

/-! ## Calls -/

/-- The statics at program start. -/
def State.static (files : List UInt8 → Option (List UInt8)) : State := ⟨[], [], [], files, []⟩

/-- `dlms_emu_report_init`. -/
def dlmsEmuReportInit (s : State) : State :=
  { s with
    spucConfName := text "top_name"
    sprintfs := s.sprintfs ++ [⟨20, text "top_name"⟩] }

/-- The first two lines of a report. -/
def startPrints (conf : List UInt8) (tm : Tm) : List Sprintf :=
  [⟨100, text "starting cycle " ++ conf ++ text " at " ++ asctime tm ++ text "\r\n"⟩,
    ⟨100, text "time;dev_sn;operation;element_id;result\r\n"⟩]

/-- The files of a cycle get their names. -/
def State.setNames (name : List UInt8) (s : State) : State :=
  { s with
    spucTmpName := tmpPath name
    spucFileName := ftpPath name
    sprintfs := s.sprintfs ++ [⟨50, tmpPath name⟩, ⟨50, ftpPath name⟩] }

/-- `dlms_emu_report_start_cycle`. -/
def dlmsEmuReportStartCycle (a : Answers) (s : State) : State :=
  let s := s.setNames (cycleName s.spucConfName a.tm)
  if s.Opens a then s.print (startPrints s.spucConfName a.tm) else s

/-- A line about a node. -/
def nodePrint (tm : Tm) (xNodeInfo : DlmsReportInfo) : Sprintf :=
  ⟨100, rowTime tm ++ text ";" ++ xNodeInfo.pcDevSn ++ text ";" ++ text xNodeInfo.pcOperation
    ++ text ";" ++ fmtU xNodeInfo.iElementId ++ text ";" ++ text xNodeInfo.pcResult
    ++ text "\r\n"⟩

/-- `dlms_emu_report_node_cycle`. -/
def dlmsEmuReportNodeCycle (a : Answers) (xNodeInfo : DlmsReportInfo) (s : State) : State :=
  if s.Opens a then s.print [nodePrint a.tm xNodeInfo] else s

/-- The last line of a report. -/
def endPrint (conf : List UInt8) (tm : Tm) : Sprintf :=
  ⟨100, text "ending cycle " ++ conf ++ text " at " ++ asctime tm ++ text "\r\n"⟩

/-- The loop of the copy, over what is left of the file that is read.  A write to a file that
could not be opened does nothing. -/
def copyRounds (opensFtp : Bool) : List UInt8 → State → State
  | [], s => s
  | c :: rest, s => copyRounds opensFtp rest (if opensFtp then s.append s.spucFileName [c] else s)

/-- `dlms_emu_report_end_cycle`. -/
def dlmsEmuReportEndCycle (a : Answers) (s : State) : Option State :=
  if s.Opens a then
    let s := s.print [endPrint s.spucConfName a.tm]
    if a.opensAgain then
      let file := (s.files s.spucTmpName).getD []
      let s := copyRounds a.opensFtp file (if a.opensFtp then s.append s.spucFileName [] else s)
      some { s with files := Function.update s.files s.spucTmpName none }
    else none
  else some s

/-! ## The emulator's calls -/

/-- A call of the emulator. -/
inductive Call where
  | startCycle
  | nodeCycle (xNodeInfo : DlmsReportInfo)
  | endCycle
  deriving DecidableEq

/-- It is made, and answered. -/
def reportStep (c : Call × Answers) (s : State) : Option State :=
  match c.1 with
  | .startCycle => some (dlmsEmuReportStartCycle c.2 s)
  | .nodeCycle xNodeInfo => some (dlmsEmuReportNodeCycle c.2 xNodeInfo s)
  | .endCycle => dlmsEmuReportEndCycle c.2 s

/-- The call that an output of the emulator is. -/
def call? : DlmsEmu.Output → Option Call
  | .reportStartCycle => some .startCycle
  | .reportNodeCycle info => some (.nodeCycle info)
  | .reportEndCycle => some .endCycle
  | _ => none

/-- The report after the initialization. -/
def started (files : List UInt8 → Option (List UInt8)) : State :=
  dlmsEmuReportInit (.static files)

end DlmsEmuReport
