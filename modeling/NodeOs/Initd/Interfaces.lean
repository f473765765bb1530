import NodeOs.Initd.Disks

/-!
# `bring_up_interfaces`

An interface is brought up by two `ioctl` calls on a socket: its flags are read,
and written back with two more bits. The kernel finds the device by the name in
the request, 16 bytes that end in a zero. How it does so is not fixed here.
-/

namespace NodeOs.Initd.Interfaces

open NodeOs.Library.FaultPlan NodeOs.Library.FaultPlan.Proc NodeOs.Initd.DiskTools

/-- The flag words of the network devices, and the sockets that PID 1 has open. -/
structure Network where
  flags : Nat → BitVec 16
  sockets : Nat

inductive InterfaceStep where
  | socket
  | getFlags
  | setFlags
  deriving DecidableEq, Repr

abbrev Ioctl := Proc InterfaceStep Error Network

/-- `IFNAMSIZ`. -/
def nameSize : Nat := 16

def nameBytes (name : String) : List UInt8 := name.toList.flatMap String.utf8EncodeChar

/-- The name in the request: the bytes over an array of zeros. -/
def requestName (name : String) : List UInt8 :=
  (List.range nameSize).map fun slot => (nameBytes name).getD slot 0

/-- `IFF_UP | IFF_RUNNING`. -/
def upAndRunning : BitVec 16 := 0x1#16 ||| 0x40#16

/-- The device that the kernel finds under a name. -/
abbrev Resolve := List UInt8 → Option Nat

section Source

variable (resolve : Resolve)

def openSocket : Ioctl Unit :=
  step .socket ["socket(AF_INET6)", osError] (fun _ network => network) fun network =>
    (.ok (), { network with sockets := network.sockets + 1 })

def closeSocket : Ioctl Unit :=
  modify fun network => { network with sockets := network.sockets - 1 }

/-- `SIOCGIFFLAGS`. -/
def getFlags (name : String) : Ioctl (BitVec 16) :=
  step .getFlags [s!"SIOCGIFFLAGS {name}", osError] (fun _ network => network) fun network =>
    match resolve (requestName name) with
    | some device => (.ok (network.flags device), network)
    | none => (.err [s!"SIOCGIFFLAGS {name}", osError], network)

def Network.setFlags (device : Nat) (flags : BitVec 16) (network : Network) : Network :=
  { network with flags := Function.update network.flags device flags }

/-- `SIOCSIFFLAGS`. -/
def setFlags (name : String) (flags : BitVec 16) : Ioctl Unit :=
  act .setFlags [s!"SIOCSIFFLAGS {name}", osError] fun network =>
    (resolve (requestName name)).map fun device => network.setFlags device flags

/-- What is done while the socket is open. -/
def raiseFlags (name : String) : Ioctl Unit := do
  let flags ← getFlags resolve name
  setFlags resolve name (flags ||| upAndRunning)

def interfaceUp (name : String) : Ioctl Unit :=
  if nameSize ≤ (nameBytes name).length then raise [s!"interface name too long: {name}"]
  else do
    openSocket
    let result ← attempt (raiseFlags resolve name)
    closeSocket
    ofExcept result

/-- A failure is logged, and the next interface is tried. -/
def visitInterface (index : Nat) (name : String) : Proc (Nat × InterfaceStep) Error Network Unit :=
  ignore (relabel (fun label => (index, label)) (interfaceUp resolve name))

def bringUpInterfaces (interfaces : List String) :
    Proc (Nat × InterfaceStep) Error Network Unit := do
  let _ ← each (visitInterface resolve) 0 interfaces
  pure ()

end Source

/-- An interface of the list that the kernel finds is this device. -/
def Configured (resolve : Resolve) (interfaces : List String) (device : Nat) : Prop :=
  ∃ name ∈ interfaces, (nameBytes name).length < nameSize ∧
    resolve (requestName name) = some device

section Flags

variable {resolve : Resolve} {name : String}

/-- The word is the old one, or has the two bits more. -/
def Raised (before after : BitVec 16) : Prop := after = before ∨ after = before ||| upAndRunning

/-- What a call for one name can do to the devices. -/
structure Touches (resolve : Resolve) (name : String) (before after : Network) : Prop where
  raised : ∀ device, Raised (before.flags device) (after.flags device)
  only : ∀ device, resolve (requestName name) ≠ some device →
    after.flags device = before.flags device

theorem touches_same {before after : Network} (same : after.flags = before.flags) :
    Touches resolve name before after where
  raised device := Or.inl (congrFun same device)
  only device _ := congrFun same device

theorem get_flags_run (resolve : Resolve) (name : String) (plan : Plan InterfaceStep)
    (network : Network) :
    ((getFlags resolve name).run plan network).2 = network ∧
      ∀ flags, ((getFlags resolve name).run plan network).1 = .ok flags →
        ∃ device, resolve (requestName name) = some device ∧ flags = network.flags device := by
  rw [getFlags, run_step]
  cases plan .getFlags with
  | fails extent => simp
  | killed extent => simp
  | done =>
      cases found : resolve (requestName name) with
      | none => simp
      | some device => simp [eq_comm]

theorem set_flags_run (plan : Plan InterfaceStep) (network : Network) {device : Nat}
    (resolved : resolve (requestName name) = some device) :
    let result := (setFlags resolve name (network.flags device ||| upAndRunning)).run plan network
    result.2.sockets = network.sockets ∧ Touches resolve name network result.2 ∧
      (plan .setFlags = .done → result.1 = .ok () ∧
        result.2.flags device = network.flags device ||| upAndRunning) := by
  have touched : Touches resolve name network
      (network.setFlags device (network.flags device ||| upAndRunning)) := by
    constructor
    · intro other
      by_cases same : other = device
      · rw [same]
        exact Or.inr (Function.update_self ..)
      · exact Or.inl (Function.update_of_ne same ..)
    · intro other unresolved
      apply Function.update_of_ne
      intro same
      rw [same] at unresolved
      exact unresolved resolved
  simp only [setFlags, run_act, resolved, Option.map_some, Option.getD_some, Option.isSome_some,
    if_true]
  by_cases begins : (plan .setFlags).begins = true
  · rw [if_pos begins]
    refine ⟨rfl, touched, fun done => ?_⟩
    rw [done]
    exact ⟨rfl, Function.update_self ..⟩
  · rw [if_neg begins]
    refine ⟨rfl, touches_same rfl, fun done => ?_⟩
    rw [done] at begins
    exact absurd rfl begins

/-- What a call for one name does: it gives its socket back, and raises the
flags of its device if nothing fails. -/
structure BringsUp (resolve : Resolve) (name : String) (plan : Plan InterfaceStep)
    (network : Network) (result : Outcome Error Unit × Network) : Prop where
  sockets : result.1 ≠ .killed → result.2.sockets = network.sockets
  touches : Touches resolve name network result.2
  long : nameSize ≤ (nameBytes name).length → result.2 = network
  done : plan .socket = .done → plan .getFlags = .done → plan .setFlags = .done →
    (nameBytes name).length < nameSize → ∀ device, resolve (requestName name) = some device →
      result.1 = .ok () ∧ result.2.flags device = network.flags device ||| upAndRunning

theorem raise_flags_run (resolve : Resolve) (name : String) (plan : Plan InterfaceStep)
    (network : Network) :
    let result := (raiseFlags resolve name).run plan network
    result.2.sockets = network.sockets ∧ Touches resolve name network result.2 ∧
      (plan .getFlags = .done → plan .setFlags = .done → ∀ device,
        resolve (requestName name) = some device → result.1 = .ok () ∧
          result.2.flags device = network.flags device ||| upAndRunning) := by
  intro result
  obtain ⟨kept, found⟩ := get_flags_run resolve name plan network
  simp only [result, raiseFlags, run_bind]
  cases ran : (getFlags resolve name).run plan network with
  | mk outcome after =>
      rw [ran] at kept found
      obtain rfl : after = network := kept
      cases outcome with
      | ok flags =>
          obtain ⟨device, resolved, rfl⟩ := found flags rfl
          obtain ⟨sockets, touches, done⟩ := set_flags_run plan after resolved
          refine ⟨sockets, touches, fun _ set other same => ?_⟩
          rw [resolved, Option.some.injEq] at same
          rw [← same]
          exact done set
      | err error =>
          refine ⟨rfl, touches_same rfl, fun got _ device resolved => ?_⟩
          simp [getFlags, run_step, got, resolved] at ran
      | killed =>
          refine ⟨rfl, touches_same rfl, fun got _ device resolved => ?_⟩
          simp [getFlags, run_step, got, resolved] at ran

theorem interface_up_run (resolve : Resolve) (name : String) (plan : Plan InterfaceStep)
    (network : Network) :
    BringsUp resolve name plan network ((interfaceUp resolve name).run plan network) := by
  unfold interfaceUp
  by_cases long : nameSize ≤ (nameBytes name).length
  · rw [if_pos long]
    exact ⟨fun _ => rfl, touches_same rfl, fun _ => rfl, fun _ _ _ short => absurd long (by omega)⟩
  · rw [if_neg long, run_bind, openSocket, run_step]
    cases opened : plan .socket with
    | fails extent => exact ⟨fun _ => rfl, touches_same rfl, fun _ => rfl, by simp [opened]⟩
    | killed extent => exact ⟨fun _ => rfl, touches_same rfl, fun _ => rfl, by simp [opened]⟩
    | done =>
        obtain ⟨sockets, touches, done⟩ := raise_flags_run resolve name plan
          { network with sockets := network.sockets + 1 }
        have touched : Touches resolve name network
            ((raiseFlags resolve name).run plan
              { network with sockets := network.sockets + 1 }).2 :=
          ⟨touches.raised, touches.only⟩
        simp only [run_bind, run_attempt]
        cases ran : (raiseFlags resolve name).run plan
            { network with sockets := network.sockets + 1 } with
        | mk outcome after =>
            rw [ran] at sockets touched done
            have closed : after.sockets - 1 = network.sockets := by
              rw [sockets]
              exact Nat.add_sub_cancel ..
            cases outcome with
            | ok value =>
                refine ⟨fun _ => closed, ⟨touched.raised, touched.only⟩,
                  fun other => absurd other long, fun _ got set _ => ?_⟩
                exact done got set
            | err error =>
                refine ⟨fun _ => closed, ⟨touched.raised, touched.only⟩,
                  fun other => absurd other long, fun _ got set _ => ?_⟩
                intro device resolved
                exact absurd (done got set device resolved).1 (by simp)
            | killed =>
                refine ⟨by simp, touched, fun other => absurd other long, fun _ got set _ => ?_⟩
                intro device resolved
                exact absurd (done got set device resolved).1 (by simp)

end Flags

section Loop

variable {resolve : Resolve}

/-- The calls for the interface at this position go through. -/
def Undisturbed (plan : Plan (Nat × InterfaceStep)) (index : Nat) : Prop :=
  plan (index, .socket) = .done ∧ plan (index, .getFlags) = .done ∧
    plan (index, .setFlags) = .done

theorem visit_interface_run (resolve : Resolve) (plan : Plan (Nat × InterfaceStep)) (index : Nat)
    (name : String) (network : Network) :
    let result := (visitInterface resolve index name).run plan network
    (∀ error, result.1 ≠ .err error) ∧ (result.1 ≠ .killed → result.2.sockets = network.sockets) ∧
      (∀ device, result.2.flags device = network.flags device ∨
        Configured resolve [name] device ∧
          result.2.flags device = network.flags device ||| upAndRunning) ∧
      (Undisturbed plan index → (nameBytes name).length < nameSize → ∀ device,
        resolve (requestName name) = some device →
          result.2.flags device = network.flags device ||| upAndRunning) := by
  have inner := interface_up_run resolve name
    (plan.at fun label => (index, label)) network
  simp only [visitInterface, run_ignore, run_relabel]
  cases ran : (interfaceUp resolve name).run (plan.at fun label => (index, label)) network with
  | mk outcome after =>
      rw [ran] at inner
      have flags (device : Nat) : after.flags device = network.flags device ∨
          Configured resolve [name] device ∧
            after.flags device = network.flags device ||| upAndRunning := by
        by_cases long : nameSize ≤ (nameBytes name).length
        · rw [show after = network from inner.long long]
          exact Or.inl rfl
        · by_cases resolved : resolve (requestName name) = some device
          · apply (inner.touches.raised device).imp_right
            intro raised
            exact ⟨⟨name, by simp, by omega, resolved⟩, raised⟩
          · exact Or.inl (inner.touches.only device resolved)
      have raised : Undisturbed plan index → (nameBytes name).length < nameSize → ∀ device,
          resolve (requestName name) = some device →
            after.flags device = network.flags device ||| upAndRunning := by
        rintro ⟨socket, got, set⟩ short device resolved
        exact (inner.done socket got set short device resolved).2
      cases outcome with
      | ok value => exact ⟨by simp, fun _ => inner.sockets (by simp), flags, raised⟩
      | err error => exact ⟨by simp, fun _ => inner.sockets (by simp), flags, raised⟩
      | killed => exact ⟨by simp, by simp, flags, raised⟩

/-- What the loop does to the devices from some position on. -/
structure LoopDoes (resolve : Resolve) (plan : Plan (Nat × InterfaceStep)) (start : Nat)
    (interfaces : List String) (network : Network) {Value : Type}
    (result : Outcome Error Value × Network) : Prop where
  noError : ∀ error, result.1 ≠ .err error
  sockets : result.1 ≠ .killed → result.2.sockets = network.sockets
  flags : ∀ device, result.2.flags device = network.flags device ∨
    Configured resolve interfaces device ∧
      result.2.flags device = network.flags device ||| upAndRunning
  raised : result.1 ≠ .killed → ∀ offset name device, interfaces[offset]? = some name →
    (nameBytes name).length < nameSize → resolve (requestName name) = some device →
    Undisturbed plan (start + offset) →
      result.2.flags device = network.flags device ||| upAndRunning

theorem configured_cons {first : String} {rest : List String} {device : Nat} :
    Configured resolve (first :: rest) device ↔
      Configured resolve [first] device ∨ Configured resolve rest device := by
  simp [Configured]

theorem up_and_running_twice (flags : BitVec 16) :
    flags ||| upAndRunning ||| upAndRunning = flags ||| upAndRunning := by
  rw [BitVec.or_assoc, BitVec.or_self]

/-- The first pass and those after it. -/
theorem LoopDoes.after {plan : Plan (Nat × InterfaceStep)} {start : Nat} {first : String}
    {rest : List String} {network middle : Network} {Value : Type}
    {result : Outcome Error Value × Network}
    (later : LoopDoes resolve plan (start + 1) rest middle result)
    (flags : ∀ device, middle.flags device = network.flags device ∨
      Configured resolve [first] device ∧
        middle.flags device = network.flags device ||| upAndRunning)
    (sockets : middle.sockets = network.sockets)
    (raised : Undisturbed plan (start + 0) → (nameBytes first).length < nameSize → ∀ device,
      resolve (requestName first) = some device →
        middle.flags device = network.flags device ||| upAndRunning) :
    LoopDoes resolve plan start (first :: rest) network result where
  noError := later.noError
  sockets survived := (later.sockets survived).trans sockets
  flags device := by
    rcases later.flags device with same | ⟨configured, again⟩
    · rw [same]
      apply (flags device).imp_right
      rintro ⟨configured, up⟩
      exact ⟨configured_cons.mpr (Or.inl configured), up⟩
    · refine Or.inr ⟨configured_cons.mpr (Or.inr configured), ?_⟩
      rcases flags device with before | ⟨-, up⟩
      · rw [again, before]
      · rw [again, up, up_and_running_twice]
  raised survived offset name device listed short resolved undisturbed := by
    cases offset with
    | zero =>
        cases listed
        have up := raised undisturbed short device resolved
        rcases later.flags device with same | ⟨-, again⟩
        · rw [same, up]
        · rw [again, up, up_and_running_twice]
    | succ offset =>
        rw [show start + (offset + 1) = start + 1 + offset by omega] at undisturbed
        have again := later.raised survived offset name device listed short resolved undisturbed
        rcases flags device with before | ⟨-, up⟩
        · rw [again, before]
        · rw [again, up, up_and_running_twice]

theorem each_interface_does (resolve : Resolve) (plan : Plan (Nat × InterfaceStep)) (start : Nat)
    (interfaces : List String) (network : Network) :
    LoopDoes resolve plan start interfaces network
      ((each (visitInterface resolve) start interfaces).run plan network) := by
  induction interfaces generalizing start network with
  | nil => exact ⟨by simp [each], fun _ => rfl, fun _ => Or.inl rfl, by simp⟩
  | cons name rest ih =>
      obtain ⟨noError, sockets, flags, raised⟩ :=
        visit_interface_run resolve plan start name network
      rw [each, run_bind]
      cases ran : (visitInterface resolve start name).run plan network with
      | mk outcome middle =>
          rw [ran] at noError sockets flags raised
          cases outcome with
          | err error => exact absurd rfl (noError error)
          | killed =>
              refine ⟨by simp, by simp, fun device => ?_, by simp⟩
              apply (flags device).imp_right
              rintro ⟨configured, same⟩
              exact ⟨configured_cons.mpr (Or.inl configured), same⟩
          | ok value =>
              have later := ih (start + 1) middle
              simp only [run_bind]
              cases looped : (each (visitInterface resolve) (start + 1) rest).run plan middle with
              | mk answer final =>
                  rw [looped] at later
                  have whole := later.after flags (sockets (by simp))
                    fun undisturbed => raised (by simpa using undisturbed)
                  cases answer with
                  | ok others =>
                      exact ⟨by simp, fun _ => whole.sockets (by simp), whole.flags,
                        fun _ => whole.raised (by simp)⟩
                  | err error => exact absurd rfl (later.noError error)
                  | killed => exact ⟨by simp, by simp, whole.flags, by simp⟩

theorem bring_up_interfaces_run (resolve : Resolve) (plan : Plan (Nat × InterfaceStep))
    (interfaces : List String) (network : Network) :
    LoopDoes resolve plan 0 interfaces network
      ((bringUpInterfaces resolve interfaces).run plan network) := by
  have looped := each_interface_does resolve plan 0 interfaces network
  rw [bringUpInterfaces, run_bind]
  cases ran : (each (visitInterface resolve) 0 interfaces).run plan network with
  | mk outcome after =>
      rw [ran] at looped
      cases outcome with
      | ok value =>
          exact ⟨by simp, fun _ => looped.sockets (by simp), looped.flags,
            fun _ => looped.raised (by simp)⟩
      | err error => exact absurd rfl (looped.noError error)
      | killed => exact ⟨by simp, by simp, looped.flags, by simp⟩

/-- Whatever fails, bringing up the interfaces ends without an error and without
an open socket. No bit of a device's flags but the two is changed, no other
device is touched, and an interface whose own calls go through is brought up. -/
theorem interfaces_best_effort (resolve : Resolve) (plan : Plan (Nat × InterfaceStep))
    (interfaces : List String) (network : Network) :
    let result := (bringUpInterfaces resolve interfaces).run plan network
    (result.1 = .ok () ∨ result.1 = .killed) ∧
      (result.1 ≠ .killed → result.2.sockets = network.sockets) ∧
      (∀ device, result.2.flags device = network.flags device ∨
        Configured resolve interfaces device ∧
          result.2.flags device = network.flags device ||| upAndRunning) ∧
      (result.1 ≠ .killed → ∀ index name device, interfaces[index]? = some name →
        (nameBytes name).length < nameSize → resolve (requestName name) = some device →
        Undisturbed plan index →
          result.2.flags device = network.flags device ||| upAndRunning) := by
  intro result
  have does := bring_up_interfaces_run resolve plan interfaces network
  refine ⟨?_, does.sockets, does.flags, ?_⟩
  · cases ended : result.1 with
    | ok value => exact Or.inl rfl
    | err error => exact absurd ended (does.noError error)
    | killed => exact Or.inr rfl
  · intro survived index name device listed short found calm
    apply does.raised survived index name device listed short found
    rwa [Nat.zero_add]

end Loop

end NodeOs.Initd.Interfaces
