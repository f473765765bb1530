import Mathlib.Algebra.Order.Ring.Nat
import Mathlib.Logic.Function.Basic
import NodeOs.Library.FaultPlan

/-!
# The tools behind encrypted disks

The machine as initd finds it: block devices and the NV indices of the TPM,
which outlive a boot, and the files, sessions and mappings, which do not. Each
external tool is a step that may not be started, may fail with or without having
taken effect, and may be cut short by the end of the machine; otherwise it does
what its documentation says. The machine keeps a list of the tools that were
tried, with what the key file held then, and of those that succeeded.
-/

namespace NodeOs.Initd.DiskTools

open NodeOs.Library.FaultPlan NodeOs.Library.FaultPlan.Proc

/-- The contexts of an error, the outermost first. -/
abbrev Error := List String

/-- Stands for the operating system's own text. -/
def osError : String := "os error"

/-- Stands for the text of a non-zero exit status. -/
def exitStatus : String := "exit status"

structure Key where
  bytes : List UInt8
  size : bytes.length = 32
  deriving DecidableEq, Repr

/-- What a `mkfs` command makes. `extMagic` says whether the bytes 1080 and 1081
of the volume are `53 EF`, as they are in ext2, ext3 and ext4. -/
structure Format where
  kind : String
  extMagic : Bool
  deriving DecidableEq, Repr

/-- The serial tells one filesystem from any other one. -/
structure Filesystem where
  format : Format
  serial : Nat
  deriving DecidableEq, Repr

inductive Content where
  | blank
  | filesystem (made : Filesystem)
  | luks (key : Key) (inner : Option Filesystem)
  deriving DecidableEq, Repr

def Content.isLuks : Content → Bool
  | .luks _ _ => true
  | _ => false

abbrev PcrValues := List UInt8

structure PolicyDigest where
  selection : String
  values : PcrValues
  deriving DecidableEq, Repr

/-- Who may read and write an NV index. -/
inductive Guard where
  | owner
  | policy (digest : PolicyDigest)
  deriving DecidableEq, Repr

structure NvIndex where
  guard : Guard
  content : Option Key
  deriving DecidableEq, Repr

/-- An authorization session; a trial session only computes a digest. -/
structure Session where
  trial : Bool
  digest : Option PolicyDigest
  deriving DecidableEq, Repr

inductive Source where
  | device (path : String)
  | mapper (name : String)
  deriving DecidableEq, Repr

def Source.path : Source → String
  | .device path => path
  | .mapper name => s!"/dev/mapper/{name}"

structure Mounted where
  source : Source
  target : String
  fstype : String
  flags : Nat
  made : Filesystem
  deriving DecidableEq, Repr

inductive Tool where
  | logPcrs
  | isLuks
  | luksFormat
  | luksOpen
  | getRandom
  | nvUndefine
  | nvDefine
  | nvWrite
  | nvRead
  | pcrRead
  | startTrial
  | startPolicy
  | policyDigest
  | policyPcr
  | flushTrial
  | flushPolicy
  | mkfs
  deriving DecidableEq, Repr

/-- A tool that is tried may not even be started. -/
inductive Event where
  | tried (tool : Tool) (args : List String) (keyFile : Option Key) (started : Bool)
  | succeeded (tool : Tool)
  deriving DecidableEq, Repr

def Event.tool : Event → Tool
  | .tried tool _ _ _ => tool
  | .succeeded tool => tool

/-- The tool that the event is the start of. -/
def Event.starts : Event → Option Tool
  | .tried tool _ _ true => some tool
  | _ => none

/-- `contents` and `nv` outlive a boot. -/
structure Machine where
  contents : String → Content
  nv : String → Option NvIndex
  dmControl : Bool
  keyFile : Option Key
  pcrFile : Option PcrValues
  session : Option Session
  policyFile : Option PolicyDigest
  mapped : List (String × String)
  mounts : List Mounted
  log : List Event

inductive DiskStep where
  | spawn (tool : Tool)
  | exit (tool : Tool)
  | statControl
  | readMisc
  | createMapperDir
  | mknodControl
  | chmodKey
  | removeKey
  | createTarget
  | mount
  | findDevice
  | openDevice
  | seekDevice
  | readSuperblock
  | endOfDevice
  deriving DecidableEq, Repr

abbrev Disks := Proc DiskStep Error Machine

/-- What is the same on every boot: the kernel, and what each `mkfs` command
makes of a volume. -/
structure Platform where
  devtmpfsControl : Bool
  misc : String
  makes : List String → Option Format
  mountable : String → String → Bool

/-- What a call draws at random. -/
structure Draw where
  key : Key
  serial : Nat

namespace Machine

def note (event : Event) (machine : Machine) : Machine :=
  { machine with log := machine.log ++ [event] }

def attempt (tool : Tool) (args : List String) (started : Bool) (machine : Machine) : Machine :=
  machine.note (.tried tool args machine.keyFile started)

def inUse (device : String) (machine : Machine) : Bool :=
  machine.mapped.any (fun entry => entry.2 == device) ||
    machine.mounts.any fun mounted => mounted.source == .device device

def fill (device : String) (content : Content) (machine : Machine) : Machine :=
  { machine with contents := Function.update machine.contents device content }

def setNv (index : String) (held : Option NvIndex) (machine : Machine) : Machine :=
  { machine with nv := Function.update machine.nv index held }

/-- The caller may use an NV index: as the owner, or in a session that satisfies
the policy. -/
def grants (asOwner : Bool) (machine : Machine) : Guard → Bool
  | .owner => asOwner
  | .policy digest => !asOwner && machine.session == some ⟨false, some digest⟩

def luksFormatted (device : String) (machine : Machine) : Option Machine :=
  machine.keyFile.bind fun key =>
    if machine.inUse device then none else some (machine.fill device (.luks key none))

def luksOpened (device name : String) (machine : Machine) : Option Machine :=
  match machine.contents device, machine.keyFile with
  | .luks key _, some given =>
      if given = key ∧ machine.dmControl = true ∧ machine.inUse device = false ∧
          machine.mapped.lookup name = none then
        some { machine with mapped := machine.mapped ++ [(name, device)] }
      else none
  | _, _ => none

def nvUndefined (index : String) (machine : Machine) : Option Machine :=
  if machine.nv index = none then none else some (machine.setNv index none)

def nvDefined (index : String) (guard : Guard) (machine : Machine) : Option Machine :=
  if machine.nv index = none then some (machine.setNv index (some ⟨guard, none⟩)) else none

def nvWritten (asOwner : Bool) (index : String) (machine : Machine) : Option Machine :=
  (machine.nv index).bind fun held => machine.keyFile.bind fun key =>
    if machine.grants asOwner held.guard then
      some (machine.setNv index (some { held with content := some key }))
    else none

def nvReleased (asOwner : Bool) (index : String) (machine : Machine) : Option Machine :=
  (machine.nv index).bind fun held => held.content.bind fun key =>
    if machine.grants asOwner held.guard then some { machine with keyFile := some key } else none

/-- A `tpm2_policypcr`, with the PCR values it goes by. -/
def extended (selection : String) (values : Option PcrValues) (machine : Machine) :
    Option Machine :=
  machine.session.bind fun session => values.map fun values =>
    { machine with session := some { session with digest := some ⟨selection, values⟩ } }

def flushed (machine : Machine) : Option Machine :=
  machine.session.map fun _ => { machine with session := none }

/-- The filesystem that can be seen at a source. -/
def volume (machine : Machine) : Source → Option Filesystem
  | .device path =>
      match machine.contents path with
      | .filesystem made => some made
      | _ => none
  | .mapper name =>
      (machine.mapped.lookup name).bind fun device =>
        match machine.contents device with
        | .luks _ inner => inner
        | _ => none

/-- What a `mkfs` leaves at a source. -/
def formatted (source : Source) (made : Option Filesystem) (machine : Machine) : Option Machine :=
  match source, made with
  | .device path, some made =>
      if machine.inUse path then none else some (machine.fill path (.filesystem made))
  | .mapper name, some made =>
      (machine.mapped.lookup name).bind fun device =>
        match machine.contents device with
        | .luks key _ => some (machine.fill device (.luks key (some made)))
        | _ => none
  | _, none => some machine

section Effects

variable {machine next : Machine}

theorem luks_formatted_eq_some_iff (device : String) :
    machine.luksFormatted device = some next ↔ ∃ key, machine.keyFile = some key ∧
      machine.inUse device = false ∧ machine.fill device (.luks key none) = next := by
  unfold luksFormatted
  rw [Option.bind_eq_some_iff]
  apply exists_congr
  intro key
  cases machine.inUse device <;> simp

theorem luks_opened_eq_some_iff (device name : String) :
    machine.luksOpened device name = some next ↔ ∃ key inner,
      machine.contents device = .luks key inner ∧ machine.keyFile = some key ∧
        machine.dmControl = true ∧ machine.inUse device = false ∧
        machine.mapped.lookup name = none ∧
        { machine with mapped := machine.mapped ++ [(name, device)] } = next := by
  unfold luksOpened
  cases held : machine.contents device with
  | blank => simp
  | filesystem made => simp
  | luks key inner =>
      cases given : machine.keyFile with
      | none => simp
      | some other =>
          simp only [Option.ite_none_right_eq_some, Option.some.injEq, Content.luks.injEq]
          constructor
          · rintro ⟨⟨rfl, control, free, unnamed⟩, same⟩
            exact ⟨other, inner, ⟨rfl, rfl⟩, rfl, control, free, unnamed, same⟩
          · rintro ⟨_, _, ⟨rfl, rfl⟩, rfl, control, free, unnamed, same⟩
            exact ⟨⟨rfl, control, free, unnamed⟩, same⟩

theorem nv_undefined_eq_some_iff (index : String) :
    machine.nvUndefined index = some next ↔
      machine.nv index ≠ none ∧ machine.setNv index none = next := by
  simp [nvUndefined]

theorem nv_defined_eq_some_iff (index : String) (guard : Guard) :
    machine.nvDefined index guard = some next ↔
      machine.nv index = none ∧ machine.setNv index (some ⟨guard, none⟩) = next := by
  simp [nvDefined]

theorem nv_written_eq_some_iff (asOwner : Bool) (index : String) :
    machine.nvWritten asOwner index = some next ↔ ∃ held key, machine.nv index = some held ∧
      machine.keyFile = some key ∧ machine.grants asOwner held.guard = true ∧
        machine.setNv index (some { held with content := some key }) = next := by
  simp [nvWritten, Option.bind_eq_some_iff]

theorem nv_released_eq_some_iff (asOwner : Bool) (index : String) :
    machine.nvReleased asOwner index = some next ↔ ∃ held key, machine.nv index = some held ∧
      held.content = some key ∧ machine.grants asOwner held.guard = true ∧
        { machine with keyFile := some key } = next := by
  simp [nvReleased, Option.bind_eq_some_iff]

theorem extended_eq_some_iff (selection : String) (values : Option PcrValues) :
    machine.extended selection values = some next ↔ ∃ session read,
      machine.session = some session ∧ values = some read ∧
        { machine with session := some { session with digest := some ⟨selection, read⟩ } } =
          next := by
  simp [extended, Option.bind_eq_some_iff]

theorem flushed_eq_some_iff :
    machine.flushed = some next ↔
      machine.session ≠ none ∧ { machine with session := none } = next := by
  unfold flushed
  cases machine.session <;> simp

/-- A `mkfs` that makes a filesystem in a mapped volume. -/
theorem formatted_mapper_eq_some_iff (name : String) (made : Filesystem) :
    machine.formatted (.mapper name) (some made) = some next ↔ ∃ device key inner,
      machine.mapped.lookup name = some device ∧ machine.contents device = .luks key inner ∧
        machine.fill device (.luks key (some made)) = next := by
  unfold formatted
  rw [Option.bind_eq_some_iff]
  apply exists_congr
  intro device
  cases held : machine.contents device <;> simp

theorem formatted_device_eq_some_iff (path : String) (made : Filesystem) :
    machine.formatted (.device path) (some made) = some next ↔
      machine.inUse path = false ∧ machine.fill path (.filesystem made) = next := by
  unfold formatted
  cases used : machine.inUse path <;> simp [used]

theorem formatted_nothing (source : Source) :
    machine.formatted source none = some machine := by
  cases source <;> rfl

/-- A `mkfs` fills one device, or changes nothing. -/
theorem formatted_fills {source : Source} {made : Option Filesystem}
    (taken : machine.formatted source made = some next) :
    next = machine ∨ ∃ device content, next = machine.fill device content := by
  cases made with
  | none =>
      rw [formatted_nothing] at taken
      exact Or.inl (Option.some.inj taken).symm
  | some made =>
      cases source with
      | device path =>
          obtain ⟨-, rfl⟩ := (formatted_device_eq_some_iff _ _).mp taken
          exact Or.inr ⟨_, _, rfl⟩
      | mapper name =>
          obtain ⟨device, key, inner, -, -, rfl⟩ := (formatted_mapper_eq_some_iff _ _).mp taken
          exact Or.inr ⟨_, _, rfl⟩

end Effects

end Machine

def spawn (tool : Tool) (error : Error) (args : List String) : Disks Unit :=
  step (.spawn tool) error (fun _ => Machine.attempt tool args false) fun machine =>
    (.ok (), machine.attempt tool args true)

/-- The exit status of a tool that has been started. -/
def wait (tool : Tool) (error : Error) (effect : Machine → Option Machine) : Disks Unit := do
  act (.exit tool) error effect
  modify (Machine.note (.succeeded tool))

def runTool (tool : Tool) (program : String) (args : List String)
    (effect : Machine → Option Machine) : Disks Unit := do
  spawn tool [s!"run {program}", osError] args
  wait tool [s!"{program} failed: {exitStatus}"] effect

end NodeOs.Initd.DiskTools
