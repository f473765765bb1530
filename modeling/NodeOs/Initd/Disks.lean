import NodeOs.Initd.DiskTools
import NodeOs.Library.Loop

/-!
# `apply_disks`

PID 1 mounts the configured disks in their order. An encrypted disk is unlocked
with the key in its NV index when it carries a LUKS header, and provisioned when
`cryptsetup isLuks` says that it does not.
-/

namespace NodeOs.Initd.Disks

open NodeOs.Library.FaultPlan NodeOs.Library.FaultPlan.Proc NodeOs.Initd.DiskTools

structure Luks where
  name : String
  tpmNvIndex : String
  pcrs : Option String := none
  deriving DecidableEq, Repr

structure Disk where
  device : String
  target : String
  fstype : String
  flags : List String := []
  formatIfEmpty : Bool := false
  mkfs : List String := []
  encrypt : Option Luks := none
  deriving DecidableEq, Repr

/-- A boot of the machine: the values of its PCRs, what each disk's call draws,
and how the calls go. -/
structure Boot where
  pcrs : String → Option PcrValues
  draws : Nat → Draw
  plan : Plan (Nat × DiskStep)

def cryptsetup : String := "/usr/sbin/cryptsetup"

def luksKeyfile : String := "/run/nodeos-luks.key"

def pcrFile : String := "/run/nodeos.pcr"

def sessionFile : String := "/run/nodeos.session"

def policyFile : String := "/run/nodeos.policy"

section Text

def isAsciiSpace (char : Char) : Bool := char = ' ' || (9 ≤ char.toNat && char.toNat ≤ 13)

def splitLines (text : String) : List (List Char) :=
  (text.toList.splitOn (Char.ofNat 10)).map fun line =>
    if line.getLast? = some (Char.ofNat 13) then line.dropLast else line

/-- `str::parse` of a `u32`. -/
def parseU32 (digits : List Char) : Option Nat :=
  let digits := if digits.head? = some '+' then digits.tail else digits
  if digits ≠ [] ∧ digits.all Char.isDigit then
    let value := digits.foldl (fun value digit => value * 10 + (digit.toNat - 48)) 0
    if value < 2 ^ 32 then some value else none
  else none

/-- The minor number of the device mapper in `/proc/misc`. -/
def dmMinor (misc : String) : Option Nat := do
  let line ← (splitLines misc).find? fun line =>
    "device-mapper".toList.isSuffixOf (line.reverse.dropWhile isAsciiSpace).reverse
  let word := (line.dropWhile isAsciiSpace).takeWhile fun char => !isAsciiSpace char
  if word = [] then none else parseU32 word

end Text

section Control

variable (platform : Platform)

/-- `Path::exists` takes an error for absence. -/
def controlExists : Disks Bool := do
  match ← attempt (check .statControl [osError]) with
  | .ok () => observe Machine.dmControl
  | .error _ => pure false

def findMinor : Disks Nat :=
  match dmMinor platform.misc with
  | some minor => pure minor
  | none => raise ["device-mapper not found in /proc/misc"]

/-- `mknod` refuses a path that exists. -/
def makeControl : Disks Unit := do
  check .readMisc ["read /proc/misc", osError]
  let _ ← findMinor platform
  check .createMapperDir ["create /dev/mapper", osError]
  act .mknodControl ["mknod", osError] fun machine =>
    if machine.dmControl then none else some { machine with dmControl := true }

def ensureDmControl : Disks Unit := do
  let there ← controlExists
  if there then pure () else makeControl platform

end Control

section Cryptsetup

/-- Every non-zero exit status counts as "not LUKS". -/
def isLuks (device : String) : Disks Bool := do
  spawn .isLuks [s!"run {cryptsetup} isLuks", osError] ["isLuks", device]
  let answer ← attempt (wait .isLuks [exitStatus] fun machine =>
    if (machine.contents device).isLuks then some machine else none)
  pure answer.isOk

def luksFormatArgs (device : String) : List String :=
  ["luksFormat", "--type", "luks2", "--batch-mode", "--key-file", luksKeyfile, device]

def luksFormat (device : String) : Disks Unit :=
  runTool .luksFormat cryptsetup (luksFormatArgs device) (Machine.luksFormatted device)

def luksOpenArgs (device name : String) : List String :=
  ["open", "--type", "luks2", "--key-file", luksKeyfile, device, name]

def luksOpen (device name : String) : Disks Unit :=
  runTool .luksOpen cryptsetup (luksOpenArgs device name) (Machine.luksOpened device name)

end Cryptsetup

section Mkfs

variable (platform : Platform) (draw : Draw) (disk : Disk)

/-- What the disk's `mkfs` makes, if it makes a filesystem at all. -/
def madeBy : Option Filesystem :=
  (platform.makes disk.mkfs).map fun format => ⟨format, draw.serial⟩

def runMkfs (source : Source) (command : String) (args : List String) : Disks Unit := do
  spawn .mkfs [s!"run {command} on {source.path}", osError] (args ++ [source.path])
  wait .mkfs [s!"mkfs failed for {source.path}: {exitStatus}"]
    (Machine.formatted source (madeBy platform draw disk))

def formatTarget (source : Source) : Disks Unit :=
  match disk.mkfs with
  | command :: args => runMkfs platform draw disk source command args
  | [] => raise [s!"encrypted disk {disk.device} requires an mkfs command"]

def formatDisk : Disks Unit :=
  match disk.mkfs with
  | command :: args => runMkfs platform draw disk (.device disk.device) command args
  | [] => raise [s!"disk {disk.device} is formatIfEmpty but has no mkfs command"]

end Mkfs

section Tpm

variable (boot : Boot)

def setPrivatePerms : Disks Unit := check .chmodKey [s!"chmod 600 {luksKeyfile}", osError]

def tpmGetrandom (draw : Draw) : Disks Unit := do
  runTool .getRandom "/usr/bin/tpm2_getrandom" ["32", "-o", luksKeyfile] fun machine =>
    some { machine with keyFile := some draw.key }
  setPrivatePerms

def pcrRead (selection : String) : Disks Unit :=
  runTool .pcrRead "/usr/bin/tpm2_pcrread" [selection, "-o", pcrFile] fun machine =>
    (boot.pcrs selection).map fun values => { machine with pcrFile := some values }

def startTrial : Disks Unit :=
  runTool .startTrial "/usr/bin/tpm2_startauthsession" ["-S", sessionFile] fun machine =>
    some { machine with session := some ⟨true, none⟩ }

/-- The digest of the policy is left in a file. -/
def policyDigest (selection : String) : Disks Unit :=
  runTool .policyDigest "/usr/bin/tpm2_policypcr"
    ["-S", sessionFile, "-l", selection, "-f", pcrFile, "-L", policyFile] fun machine =>
      (machine.extended selection machine.pcrFile).map fun machine =>
        { machine with policyFile := machine.session.bind Session.digest }

def flushTrial : Disks Unit :=
  runTool .flushTrial "/usr/bin/tpm2_flushcontext" [sessionFile] Machine.flushed

def startPolicy : Disks Unit :=
  runTool .startPolicy "/usr/bin/tpm2_startauthsession" ["--policy-session", "-S", sessionFile]
    fun machine => some { machine with session := some ⟨false, none⟩ }

def policyPcr (selection : String) : Disks Unit :=
  runTool .policyPcr "/usr/bin/tpm2_policypcr" ["-S", sessionFile, "-l", selection] fun machine =>
    machine.extended selection (boot.pcrs selection)

/-- The session is flushed whether the operation succeeds or not. -/
def withPolicySession (selection : String) (operation : Disks Unit) : Disks Unit := do
  startPolicy
  let result ← attempt (do
    policyPcr boot selection
    operation)
  ignore (runTool .flushPolicy "/usr/bin/tpm2_flushcontext" [sessionFile] Machine.flushed)
  ofExcept result

def sessionAuth : String := s!"session:{sessionFile}"

def nvDefineArgs (index : String) : Option String → List String
  | none => ["-C", "o", "-s", "32", "-a", "ownerread|ownerwrite", index]
  | some _ => ["-C", "o", "-s", "32", "-a", "policyread|policywrite", "-L", policyFile, index]

def nvDefine (index : String) (pcrs : Option String) : Disks Unit :=
  runTool .nvDefine "/usr/bin/tpm2_nvdefine" (nvDefineArgs index pcrs) fun machine =>
    match pcrs with
    | none => machine.nvDefined index .owner
    | some _ => machine.policyFile.bind fun digest => machine.nvDefined index (.policy digest)

def nvAuth : Option String → List String
  | none => ["-C", "o"]
  | some _ => ["-P", sessionAuth]

def nvWrite (index : String) (pcrs : Option String) : Disks Unit :=
  runTool .nvWrite "/usr/bin/tpm2_nvwrite" (nvAuth pcrs ++ ["-i", luksKeyfile, index])
    (Machine.nvWritten pcrs.isNone index)

def nvReadArgs (index : String) (pcrs : Option String) : List String :=
  nvAuth pcrs ++ ["-s", "32", "-o", luksKeyfile, index]

def nvRead (index : String) (pcrs : Option String) : Disks Unit :=
  runTool .nvRead "/usr/bin/tpm2_nvread" (nvReadArgs index pcrs)
    (Machine.nvReleased pcrs.isNone index)

/-- A prior index is cleared; an error in this is ignored. -/
def nvUndefine (index : String) : Disks Unit :=
  ignore (runTool .nvUndefine "/usr/bin/tpm2_nvundefine" ["-C", "o", index]
    (Machine.nvUndefined index))

/-- The digest of the policy that the present PCR values satisfy. -/
def computePolicy (selection : String) : Disks Unit := do
  pcrRead boot selection
  startTrial
  policyDigest selection
  flushTrial

def storeKey (index : String) : Option String → Disks Unit
  | none => do
      nvDefine index none
      nvWrite index none
  | some selection => do
      computePolicy boot selection
      nvDefine index (some selection)
      withPolicySession boot selection (nvWrite index (some selection))

def tpmNvStore (index : String) (pcrs : Option String) : Disks Unit := do
  nvUndefine index
  storeKey boot index pcrs

def readKey (index : String) : Option String → Disks Unit
  | none => nvRead index none
  | some selection => withPolicySession boot selection (nvRead index (some selection))

def tpmNvRead (index : String) (pcrs : Option String) : Disks Unit := do
  readKey boot index pcrs
  setPrivatePerms

def logPcrs (pcrs : Option String) : Disks Unit :=
  ignore (runTool .logPcrs "/usr/bin/tpm2_pcrread" [pcrs.getD "sha256:4,7"] some)

end Tpm

section Encrypted

variable (platform : Platform) (boot : Boot) (draw : Draw) (disk : Disk) (luks : Luks)

/-- `fs::remove_file`, whose error is ignored. -/
def removeKey : Disks Unit :=
  ignore (act .removeKey [osError] fun machine =>
    machine.keyFile.map fun _ => { machine with keyFile := none })

/-- An operation after which the key file is removed. -/
def thenRemoveKey (operation : Disks Unit) : Disks Unit := do
  let result ← attempt operation
  removeKey
  ofExcept result

def unlock : Disks Unit := do
  tpmNvRead boot luks.tpmNvIndex luks.pcrs
  thenRemoveKey (luksOpen disk.device luks.name)

/-- What follows the LUKS header. -/
def fillVolume : Disks Unit := do
  luksOpen disk.device luks.name
  tpmNvStore boot luks.tpmNvIndex luks.pcrs
  formatTarget platform draw disk (.mapper luks.name)

def provision : Disks Unit := do
  tpmGetrandom draw
  luksFormat disk.device
  fillVolume platform boot draw disk luks

/-- What is done once `isLuks` has answered. -/
def openVolume (carriesLuks : Bool) : Disks Unit :=
  if carriesLuks then unlock boot disk luks
  else if disk.formatIfEmpty then thenRemoveKey (provision platform boot draw disk luks)
  else raise [s!"{disk.device} is not a LUKS volume and formatIfEmpty is false"]

/-- Before anything is decided. -/
def examine : Disks Bool := do
  ensureDmControl platform
  logPcrs luks.pcrs
  isLuks disk.device

def openEncrypted : Disks Source := do
  let carriesLuks ← examine platform disk luks
  openVolume platform boot draw disk luks carriesLuks
  pure (.mapper luks.name)

end Encrypted

section Plain

/-- `read_exact`: a short read is not an error of the caller's. -/
def readMagic (device : String) : Disks Bool := do
  check .readSuperblock [s!"read superblock of {device}", osError]
  match ← attempt (check .endOfDevice [osError]) with
  | .error _ => pure false
  | .ok () => observe fun machine =>
      match machine.contents device with
      | .filesystem made => made.format.extMagic
      | _ => false

def isFormatted (device : String) : Disks Bool := do
  match ← attempt (check .findDevice [osError]) with
  | .error _ => pure false
  | .ok () =>
      check .openDevice [s!"open {device}", osError]
      match ← attempt (check .seekDevice [osError]) with
      | .error _ => pure false
      | .ok () => readMagic device

variable (platform : Platform) (draw : Draw) (disk : Disk)

def formatIfBlank : Disks Unit :=
  if disk.formatIfEmpty then do
    let formatted ← isFormatted disk.device
    if formatted then pure () else formatDisk platform draw disk
  else pure ()

def openPlain : Disks Source := do
  formatIfBlank platform draw disk
  pure (.device disk.device)

end Plain

section Mounting

def mountFlag : String → Except Error Nat
  | "noexec" => .ok 8
  | "nodev" => .ok 4
  | "nosuid" => .ok 2
  | "readonly" => .ok 1
  | "ro" => .ok 1
  | "relatime" => .ok 0x200000
  | unknown => .error [s!"unknown mount flag {unknown}"]

def mountFlags : List String → Except Error Nat
  | [] => .ok 0
  | flag :: more => do
      let bits ← mountFlag flag
      let rest ← mountFlags more
      .ok (bits ||| rest)

/-- `CString::new`. -/
def cString (text : String) : Except Error Unit :=
  let before := text.toList.takeWhile fun char => char.toNat != 0
  if before.length = text.length then .ok ()
  else .error [s!"nul byte found in provided data at position: {(before.map Char.utf8Size).sum}"]

def mountFs (platform : Platform) (source : Source) (target fstype : String) (flags : Nat) :
    Disks Unit := do
  ofExcept (cString source.path)
  ofExcept (cString target)
  ofExcept (cString fstype)
  act .mount ["mount syscall failed", osError] fun machine =>
    (machine.volume source).bind fun made =>
      if platform.mountable fstype made.format.kind then
        some { machine with mounts := machine.mounts ++ [⟨source, target, fstype, flags, made⟩] }
      else none

def mountDisk (platform : Platform) (disk : Disk) (source : Source) : Disks Unit := do
  check .createTarget [s!"create mount target {disk.target}", osError]
  let flags ← ofExcept (mountFlags disk.flags)
  mapError (fun error => s!"mount {source.path} at {disk.target}" :: error)
    (mountFs platform source disk.target disk.fstype flags)

end Mounting

section Apply

variable (platform : Platform) (boot : Boot)

def openDisk (draw : Draw) (disk : Disk) : Disks Source :=
  match disk.encrypt with
  | some luks => openEncrypted platform boot draw disk luks
  | none => openPlain platform draw disk

def applyDisk (draw : Draw) (disk : Disk) : Disks Unit := do
  let source ← openDisk platform boot draw disk
  mountDisk platform disk source

def visit (index : Nat) (disk : Disk) : Proc (Nat × DiskStep) Error Machine Unit :=
  relabel (fun label => (index, label)) (applyDisk platform boot (boot.draws index) disk)

def applyDisks (disks : List Disk) : Proc (Nat × DiskStep) Error Machine Unit := do
  let _ ← each (visit platform boot) 0 disks
  pure ()

end Apply

/-- At power-on the files in `/run`, the sessions, the mappings and the mounts
are gone. -/
def powerOn (platform : Platform) (machine : Machine) : Machine where
  contents := machine.contents
  nv := machine.nv
  dmControl := platform.devtmpfsControl
  keyFile := none
  pcrFile := none
  session := none
  policyFile := none
  mapped := []
  mounts := []
  log := []

/-- A boot up to the end of `apply_disks`. -/
def bootDisks (platform : Platform) (disks : List Disk) (boot : Boot) (machine : Machine) :
    Outcome Error Unit × Machine :=
  (applyDisks platform boot disks).run boot.plan (powerOn platform machine)

/-- A guard on every visit to a disk, over a sequence of boots. -/
def EveryVisit (platform : Platform) (disks : List Disk)
    (guard : Boot → Nat → Disk → Machine → Prop) : List Boot → Machine → Prop
  | [], _ => True
  | boot :: later, machine =>
      EachMeets (guard boot) (visit platform boot) boot.plan 0 disks (powerOn platform machine) ∧
        EveryVisit platform disks guard later (bootDisks platform disks boot machine).2

theorem every_visit_congr (platform : Platform) (disks : List Disk)
    {first second : Boot → Nat → Disk → Machine → Prop} (invariant : Machine → Prop)
    (booted : ∀ machine, invariant (powerOn platform machine)) (boots : List Boot)
    (same : ∀ boot ∈ boots, ∀ index disk machine, invariant machine →
      (first boot index disk machine ↔ second boot index disk machine))
    (kept : ∀ boot ∈ boots, ∀ index disk machine after, invariant machine →
      (visit platform boot index disk).run boot.plan machine = (.ok (), after) → invariant after)
    (machine : Machine) :
    EveryVisit platform disks first boots machine ↔
      EveryVisit platform disks second boots machine := by
  induction boots generalizing machine with
  | nil => exact Iff.rfl
  | cons boot later ih =>
      unfold EveryVisit
      apply and_congr
      · apply each_meets_congr (same boot List.mem_cons_self)
        · intro index disk before _ after holds returned
          exact kept boot List.mem_cons_self index disk before after holds returned
        · exact booted machine
      · apply ih
        · exact fun other listed => same other (List.mem_cons_of_mem _ listed)
        · exact fun other listed => kept other (List.mem_cons_of_mem _ listed)

end NodeOs.Initd.Disks
