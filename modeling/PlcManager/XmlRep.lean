/-
# The XML files

Embeds `xml_rep.c`: the list of the nodes, which is printed line by line into a file under
`/tmp` and then copied to the folder of the web server, the update of that list when a node
has reported its versions, and the file about the base node.

Every line is printed into an array of the stack first.  `Sprintf` is one such print; whether
it stays inside the array is a question of its own, `Sprintf.Fits`.  The same goes for
`Getline`, a line that is read into a block of the heap.
-/
import PlcManager.TextLines

namespace XmlRep

/-! ## Characters -/

/-- The newline. -/
def newline : UInt8 := 10

/-- The characters of a format that stand for themselves. -/
def text (s : String) : List UInt8 := s.toList.map fun c => UInt8.ofNat c.toNat

/-- One digit of `%x`. -/
def hexDigit (n : ℕ) : UInt8 := if n < 10 then UInt8.ofNat (48 + n) else UInt8.ofNat (87 + n)

/-- `%02x` of a byte. -/
def fmt02x (b : UInt8) : List UInt8 := [hexDigit (b.toNat / 16), hexDigit (b.toNat % 16)]

/-- `%04x` of a 16-bit word. -/
def fmt04x (w : UInt16) : List UInt8 := fmt02x (w >>> 8).toUInt8 ++ fmt02x w.toUInt8

/-- `%u`. -/
def fmtU (n : ℕ) : List UInt8 := (Nat.toDigits 10 n).map fun c => UInt8.ofNat c.toNat

/-- A string: the characters in front of the zero that ends it. -/
@[ext] structure CString where
  chars : List UInt8
  zero_not_mem : 0 ∉ chars
  deriving DecidableEq

/-- The string at the start of some bytes, where they hold its end. -/
def cString (bytes : List UInt8) : CString where
  chars := bytes.takeWhile (· ≠ 0)
  zero_not_mem h := by simpa using List.mem_takeWhile_imp h

/-! ## Records -/

/-- `x_cli_node_reg_t`. -/
structure XCliNodeReg where
  macAddr : List UInt8
  usLnid : UInt16
  ucState : UInt8
  usLsid : UInt16
  usSid : UInt16
  ucLevel : UInt8
  ucMacCap1 : UInt8
  ucMacCap2 : UInt8
  length_macAddr : macAddr.length = 6
  deriving DecidableEq

/-- The strings of an `x_cli_node_vs_t`. -/
structure NodeTexts where
  pucVendor : CString
  pucModel : CString
  pucFwVersion : CString
  deriving DecidableEq

/-- `x_cli_node_vs_t`. -/
structure XCliNodeVs where
  pucEui48 : List UInt8
  texts : NodeTexts
  length_eui48 : pucEui48.length = 6

/-! ## Prints -/

/-- A `sprintf`: the size of the array it prints to, and the characters it prints in front
of a zero. -/
structure Sprintf where
  size : ℕ
  text : List UInt8
  deriving DecidableEq

/-- The characters and the zero stay inside the array. -/
def Sprintf.Fits (p : Sprintf) : Prop := p.text.length < p.size

instance (p : Sprintf) : Decidable p.Fits := inferInstanceAs (Decidable (_ < _))

/-- A `getline`: the size of the block it stores to, and the line it stores in front of a zero. -/
structure Getline where
  block : ℕ
  line : List UInt8
  deriving DecidableEq

/-- The line and the zero stay inside the block. -/
def Getline.Fits (r : Getline) : Prop := r.line.length < r.block

instance (r : Getline) : Decidable r.Fits := inferInstanceAs (Decidable (_ < _))

/-- What is written to a file that every print is written to. -/
def written (ps : List Sprintf) : List UInt8 := ps.flatMap Sprintf.text

/-- The files, of which `none` does not exist, and the prints and the lines read so far. -/
structure Files where
  /-- `NODELIST_TMP_FILE`. -/
  nodelistTmp : Option (List UInt8)
  /-- `NODELIST_END_FILE`. -/
  nodelistEnd : Option (List UInt8)
  /-- `PRIME_INFO_FILE`. -/
  primeInfo : Option (List UInt8)
  sprintfs : List Sprintf
  getlines : List Getline

/-- Prints that are written to the open `NODELIST_TMP_FILE`. -/
def Files.writeTmp (ps : List Sprintf) (f : Files) : Files :=
  { f with
    nodelistTmp := f.nodelistTmp.map (· ++ written ps)
    sprintfs := f.sprintfs ++ ps }

/-! ## Lines -/

/-- A line with one element. -/
def element (name : String) (content : List UInt8) : List UInt8 :=
  text "\t\t<" ++ text name ++ text ">" ++ content ++ text "</" ++ text name ++ text ">\r\n"

/-- The first line of each file. -/
def xmlLine : List UInt8 := text "<?xml version=\"1.0\" encoding=\"utf-8\"?>\r\n"

def macLine (mac : List UInt8) : List UInt8 := element "mac" (mac.flatMap fmt02x)
def lnidLine (usLnid : UInt16) : List UInt8 := element "lnid" (fmtU usLnid.toNat)
def stateLine (ucState : UInt8) : List UInt8 := element "state" (fmtU ucState.toNat)
def lsidLine (usLsid : UInt16) : List UInt8 := element "lsid" (fmtU usLsid.toNat)
def sidLine (usSid : UInt16) : List UInt8 := element "sid" (fmtU usSid.toNat)
def levelLine (ucLevel : UInt8) : List UInt8 := element "level" (fmtU ucLevel.toNat)
def vendorLine (vendor : List UInt8) : List UInt8 := element "vendor" vendor
def modelLine (model : List UInt8) : List UInt8 := element "model" model
def fwvsLine (fwvs : List UInt8) : List UInt8 := element "fwvs" fwvs

/-! ## The list of the nodes -/

/-- `xml_rep_open_nodelist`, where the file can be opened or not. -/
def xmlRepOpenNodelist (opens : Bool) (f : Files) : Files :=
  let f := { f with nodelistTmp := if opens then some [] else none }
  f.writeTmp [⟨50, xmlLine ++ text "<nodelist>\r\n"⟩]

/-- `xml_rep_close_nodelist`. -/
def xmlRepCloseNodelist (f : Files) : Files :=
  let f := f.writeTmp [⟨50, text "</nodelist>"⟩]
  { f with nodelistEnd := some (f.nodelistTmp.getD []) }

/-- The prints of `xml_rep_add_node`. -/
def nodePrints (pxNode : XCliNodeReg) (pxNodeVs : Option NodeTexts) : List Sprintf :=
  [⟨60, text "\t<node>\r\n"⟩,
    ⟨60, macLine pxNode.macAddr⟩,
    ⟨60, lnidLine pxNode.usLnid⟩,
    ⟨60, stateLine pxNode.ucState⟩,
    ⟨60, lsidLine pxNode.usLsid⟩,
    ⟨60, sidLine pxNode.usSid⟩,
    ⟨60, levelLine pxNode.ucLevel⟩]
  ++ (match pxNodeVs with
    | none => [⟨60, vendorLine []⟩, ⟨60, modelLine []⟩, ⟨60, fwvsLine []⟩]
    | some vs =>
        [⟨60, vendorLine vs.pucVendor.chars⟩,
          ⟨60, modelLine vs.pucModel.chars⟩,
          ⟨60, fwvsLine vs.pucFwVersion.chars⟩])
  ++ [⟨60, text "\t</node>\r\n"⟩]

/-- `xml_rep_add_node`. -/
def xmlRepAddNode (pxNode : XCliNodeReg) (pxNodeVs : Option NodeTexts) (f : Files) : Files :=
  f.writeTmp (nodePrints pxNode pxNodeVs)

/-! ## The update of the list -/

/-- How `getline` makes a block larger that is too small for the next line: the new size, given
what is left of the file and the size that the block is taken to have. -/
structure Growth where
  size : List (List UInt8) → ℕ → ℕ
  lt_size : ∀ line rest len, line.length < size (line :: rest) len

/-- A stream with the arguments of `getline`: the lines that have not been read yet, the one that
was read last, the size of the block it is in, and `len`.  There is no block yet if the size is
zero. -/
structure Stream where
  rest : List (List UInt8)
  line : List UInt8
  block : ℕ
  len : ℕ
  getlines : List Getline

/-- The stream of a file that has been opened. -/
def Stream.ofFile (file : List UInt8) : Stream := ⟨lines newline file, [], 0, 0, []⟩

/-- `getline`; at the end of the file `line` keeps what it holds. -/
def Stream.getline (g : Growth) (st : Stream) : Stream :=
  match st.rest with
  | [] => st
  | line :: rest =>
      -- it goes by `len`, whatever the size of the block is
      if line.length < st.len then
        { st with rest := rest, line := line, getlines := st.getlines ++ [⟨st.block, line⟩] }
      else
        let size := g.size (line :: rest) st.len
        ⟨rest, line, size, size, st.getlines ++ [⟨size, line⟩]⟩

/-- The line that was read last, up to a zero. -/
def Stream.copy (st : Stream) : Sprintf := ⟨60, (cString st.line).chars⟩

/-- `len = sprintf(...)`: the variable of `getline` takes the number of characters. -/
def Stream.print (p : Sprintf) (st : Stream) : Stream := { st with len := p.text.length }

/-- The lines of the node, from `mac` on: six of them are copied, the next three are replaced. -/
def replaceVersion (g : Growth) (vs : NodeTexts) (mac : Stream) : Stream × List Sprintf :=
  let vendorPrint : Sprintf := ⟨60, vendorLine vs.pucVendor.chars⟩
  let modelPrint : Sprintf := ⟨60, modelLine vs.pucModel.chars⟩
  let fwvsPrint : Sprintf := ⟨60, fwvsLine vs.pucFwVersion.chars⟩
  let lnid := (mac.print mac.copy).getline g
  let state := (lnid.print lnid.copy).getline g
  let lsid := (state.print state.copy).getline g
  let sid := (lsid.print lsid.copy).getline g
  let level := (sid.print sid.copy).getline g
  let vendor := (level.print level.copy).getline g
  let model := (vendor.print vendorPrint).getline g
  let fwvs := (model.print modelPrint).getline g
  (fwvs.print fwvsPrint, [mac.copy, lnid.copy, state.copy, lsid.copy, sid.copy, level.copy,
    vendorPrint, modelPrint, fwvsPrint])

/-- The loop over the lines, of which there are at most `n`: whether the MAC has been found, the
stream behind it, and the prints. -/
def updateLoop (g : Growth) (vs : XCliNodeVs) : ℕ → Stream → Bool × Stream × List Sprintf
  | 0, st => (false, st, [])
  | n + 1, st =>
      if st.rest = [] then (false, st, [])
      else
        let st := st.getline g
        let pucAuxMac := macLine vs.pucEui48
        if st.line.take pucAuxMac.length = pucAuxMac then
          let (st, prints) := replaceVersion g vs.texts st
          let (_, st, rest) := updateLoop g vs n st
          (true, st, prints ++ rest)
        else
          let (findMac, last, rest) := updateLoop g vs n (st.print st.copy)
          (findMac, last, st.copy :: rest)

/-- `xml_rep_update_node_version`. -/
def xmlRepUpdateNodeVersion (g : Growth) (pxNodeVs : XCliNodeVs) (f : Files) : Files :=
  match f.nodelistEnd with
  | none => f
  | some file =>
      let stream := Stream.ofFile file
      let pucAuxMac : Sprintf := ⟨60, macLine pxNodeVs.pucEui48⟩
      let (findMac, stream, prints) := updateLoop g pxNodeVs stream.rest.length stream
      let f := { f with
        nodelistTmp := some []
        sprintfs := f.sprintfs ++ [pucAuxMac]
        getlines := f.getlines ++ stream.getlines }
      let f := f.writeTmp prints
      if findMac then { f with nodelistEnd := some (f.nodelistTmp.getD []) } else f

/-! ## The base node -/

/-- The prints of `xml_rep_prime_info`; the string of the version may go on in the MAC
address, which is the next field. -/
def infoPrints (usVendorId usProductId : UInt16) (fwVersion macAddr : List UInt8) :
    List Sprintf :=
  [⟨50, xmlLine ++ text "<pinfo>\r\n"⟩,
    ⟨50, macLine macAddr⟩,
    ⟨50, element "vendor_id" (text "0x" ++ fmt04x usVendorId)⟩,
    ⟨50, element "product_id" (text "0x" ++ fmt04x usProductId)⟩,
    ⟨50, element "fw_version" (cString (fwVersion ++ macAddr)).chars⟩,
    ⟨50, text "</pinfo>"⟩]

/-- `xml_rep_prime_info`. -/
def xmlRepPrimeInfo (usVendorId usProductId : UInt16) (fwVersion macAddr : List UInt8)
    (f : Files) : Files :=
  let prints := infoPrints usVendorId usProductId fwVersion macAddr
  { f with primeInfo := some (written prints), sprintfs := f.sprintfs ++ prints }

end XmlRep
