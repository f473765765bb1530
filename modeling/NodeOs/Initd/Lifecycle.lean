import NodeOs.Initd.Supervise

/-!
# The life of one service

`History` says which records PID 1 can leave of one service: it waits for its
start marker, runs, and each exit that is seen is followed by its next start or
is the end. What a history says about starts, exits and live processes is shown
here for all histories.
-/

namespace NodeOs.Initd.Supervise

open NodeOs.Library.FaultPlan

inductive Life where
  | waiting
  | running (child : Child)
  | over
  deriving DecidableEq, Repr

inductive History (timeline : Timeline) (service : Service) : List Event → Life → Prop where
  | fresh : History timeline service [] .waiting
  | absent {past : List Event} {marker : String} (moment : Nat)
      (waits : History timeline service past .waiting) (gated : service.startWhen = some marker) :
      History timeline service (past ++ [.checked moment false]) .waiting
  | unopened {past : List Event} {marker : String} {moment : Nat}
      (waits : History timeline service past .waiting) (gated : service.startWhen = some marker)
      (seen : timeline.present moment marker = true) :
      History timeline service
        (past ++ [.checked moment true, .refused (timeline.after moment)]) .waiting
  | opened {past : List Event} {marker : String} {moment : Nat}
      (waits : History timeline service past .waiting) (gated : service.startWhen = some marker)
      (seen : timeline.present moment marker = true) :
      History timeline service
        (past ++ [.checked moment true, .spawned (service.childAt (timeline.after moment))])
        (.running (service.childAt (timeline.after moment)))
  | started (moment : Nat) (ungated : service.startWhen = none) :
      History timeline service [.spawned (service.childAt moment)]
        (.running (service.childAt moment))
  | unstarted (moment : Nat) (ungated : service.startWhen = none) :
      History timeline service [.refused moment] .over
  | polled {past : List Event} {child : Child} (moment : Nat) (present : Bool)
      (runs : History timeline service past (.running child)) :
      History timeline service (past ++ [.polled moment present]) (.running child)
  | restarted {past : List Event} {child : Child} {moment : Nat} {status : ExitStatus}
      (runs : History timeline service past (.running child))
      (gone : timeline.exitedBy child moment = some status) (policy : service.restart = .always) :
      History timeline service
        (past ++ [.exited moment status, .spawned (service.childAt (timeline.after moment))])
        (.running (service.childAt (timeline.after moment)))
  | unrestarted {past : List Event} {child : Child} {moment : Nat} {status : ExitStatus}
      (runs : History timeline service past (.running child))
      (gone : timeline.exitedBy child moment = some status) (policy : service.restart = .always) :
      History timeline service
        (past ++ [.exited moment status, .refused (timeline.after moment)]) .over
  | ended {past : List Event} {child : Child} {moment : Nat} {status : ExitStatus}
      (runs : History timeline service past (.running child))
      (gone : timeline.exitedBy child moment = some status) (policy : service.restart = .never) :
      History timeline service (past ++ [.exited moment status]) .over

def children (history : List Event) : List Child := history.filterMap Event.child?

def exits (history : List Event) : Nat := history.countP Event.isExit

def liveChildren (timeline : Timeline) (moment : Nat) (history : List Event) : List Child :=
  (children history).filter (timeline.alive moment)

/-- The first start comes right after a check that found the marker. -/
def FirstStartChecked (timeline : Timeline) (marker : String) (history : List Event) : Prop :=
  ∃ before moment child rest,
    history = before ++ .checked moment true :: .spawned child :: rest ∧ children before = [] ∧
      child.started = timeline.after moment ∧ timeline.present moment marker = true

/-- The record after every exit is a start. -/
def Restarted (history : List Event) : Prop :=
  ∀ before moment status rest, history = before ++ .exited moment status :: rest →
    ∃ child later, rest = .spawned child :: later

section Timelines

variable {timeline : Timeline}

theorem exited_by_started {child : Child} {moment : Nat} {status : ExitStatus}
    (gone : timeline.exitedBy child moment = some status) : child.started ≤ moment := by
  unfold Timeline.exitedBy at gone
  cases lifetime : timeline.lifetime child.started with
  | none => simp [lifetime] at gone
  | some life =>
      simp only [lifetime, Option.bind_some] at gone
      split at gone
      · omega
      · cases gone

theorem exited_by_mono {child : Child} {moment later : Nat} {status : ExitStatus}
    (gone : timeline.exitedBy child moment = some status) (order : moment ≤ later) :
    timeline.exitedBy child later = some status := by
  unfold Timeline.exitedBy at gone ⊢
  cases lifetime : timeline.lifetime child.started with
  | none => simp [lifetime] at gone
  | some life =>
      simp only [lifetime, Option.bind_some] at gone ⊢
      split at gone
      · rw [if_pos (by omega)]
        exact gone
      · cases gone

theorem moment_le_after (moment : Nat) : moment ≤ timeline.after moment := by
  unfold Timeline.after
  omega

/-- `first` had exited when `second` was started. -/
def Succeeds (timeline : Timeline) (first second : Child) : Prop :=
  ∃ status, timeline.exitedBy first second.started = some status

theorem not_both_alive {first second : Child} (order : Succeeds timeline first second)
    {moment : Nat} (firstAlive : timeline.alive moment first = true)
    (secondAlive : timeline.alive moment second = true) : False := by
  obtain ⟨status, gone⟩ := order
  simp only [Timeline.alive, Bool.and_eq_true, decide_eq_true_eq] at firstAlive secondAlive
  rw [exited_by_mono gone secondAlive.1] at firstAlive
  simp at firstAlive

end Timelines

@[simp] theorem children_nil : children [] = [] := rfl

@[simp] theorem children_append (past next : List Event) :
    children (past ++ next) = children past ++ children next :=
  List.filterMap_append

@[simp] theorem children_cons (event : Event) (rest : List Event) :
    children (event :: rest) = event.child?.toList ++ children rest := by
  unfold children
  rw [List.filterMap_cons]
  cases event.child? <;> rfl

@[simp] theorem exits_nil : exits [] = 0 := rfl

@[simp] theorem exits_cons (event : Event) (rest : List Event) :
    exits (event :: rest) = exits rest + if event.isExit then 1 else 0 :=
  List.countP_cons

@[simp] theorem exits_append (past next : List Event) :
    exits (past ++ next) = exits past + exits next :=
  List.countP_append

section Histories

variable {timeline : Timeline} {service : Service}

/-- The processes of a service, in order, each gone when the next one starts. -/
theorem history_children {history : List Event} {life : Life}
    (held : History timeline service history life) :
    (children history).Pairwise (Succeeds timeline) ∧
      (life = .waiting → children history = []) ∧
      ∀ child, life = .running child → ∃ earlier, children history = earlier ++ [child] := by
  induction held with
  | fresh => simp
  | absent moment waits gated ih => simp [ih.2.1 rfl, Event.child?]
  | unopened waits gated seen ih => simp [ih.2.1 rfl, Event.child?]
  | opened waits gated seen ih =>
      have none_before := ih.2.1 rfl
      simp [none_before, Event.child?]
  | started moment ungated => simp [Event.child?]
  | unstarted moment ungated => simp [Event.child?]
  | polled moment present runs ih => simpa [Event.child?] using ih
  | ended runs gone policy ih => simpa [Event.child?] using ih.1
  | unrestarted runs gone policy ih => simpa [Event.child?] using ih.1
  | @restarted past child moment status runs gone policy ih =>
      obtain ⟨earlier, before⟩ := ih.2.2 child rfl
      have ordered := ih.1
      rw [before, List.pairwise_append] at ordered
      have added : children (past ++ [.exited moment status,
          .spawned (service.childAt (timeline.after moment))]) =
            children past ++ [service.childAt (timeline.after moment)] := by
        simp [Event.child?]
      rw [added]
      refine ⟨?_, by simp, ?_⟩
      · rw [List.pairwise_append]
        refine ⟨ih.1, List.pairwise_singleton _ _, ?_⟩
        intro old listed new same
        rw [List.mem_singleton.mp same]
        rw [before, List.mem_append, List.mem_singleton] at listed
        cases listed with
        | inl older =>
            obtain ⟨status, left⟩ := ordered.2.2 old older child (List.mem_singleton_self child)
            have order := exited_by_started gone
            exact ⟨status, exited_by_mono left (Nat.le_trans order (moment_le_after moment))⟩
        | inr last =>
            rw [last]
            exact ⟨status, exited_by_mono gone (moment_le_after moment)⟩
      · intro child same
        cases same
        exact ⟨children past, rfl⟩

theorem filter_length_le_one {Item : Type} {relation : Item → Item → Prop} {keep : Item → Bool}
    {items : List Item} (ordered : items.Pairwise relation)
    (exclusive : ∀ first second, relation first second → keep first = true →
      keep second = true → False) :
    (items.filter keep).length ≤ 1 := by
  have kept := ordered.filter keep
  have passes : ∀ item ∈ items.filter keep, keep item = true :=
    fun item listed => (List.mem_filter.mp listed).2
  cases shape : items.filter keep with
  | nil => simp
  | cons first rest =>
      cases rest with
      | nil => simp
      | cons second rest =>
          rw [shape] at kept passes
          have related := (List.pairwise_cons.mp kept).1 second (by simp)
          exact (exclusive first second related (passes first (by simp))
            (passes second (by simp))).elim

theorem history_one_live {history : List Event} {life : Life}
    (held : History timeline service history life) (moment : Nat) :
    (liveChildren timeline moment history).length ≤ 1 :=
  filter_length_le_one (history_children held).1
    fun _ _ order firstAlive secondAlive => not_both_alive order firstAlive secondAlive

theorem first_start_append {marker : String} {history next : List Event}
    (checked : FirstStartChecked timeline marker history) :
    FirstStartChecked timeline marker (history ++ next) := by
  obtain ⟨before, moment, child, rest, shape, facts⟩ := checked
  exact ⟨before, moment, child, rest ++ next, by simp [shape], facts⟩

theorem history_first_start {history : List Event} {life : Life} {marker : String}
    (held : History timeline service history life) (gated : service.startWhen = some marker)
    (started : children history ≠ []) : FirstStartChecked timeline marker history := by
  induction held with
  | fresh => simp at started
  | absent moment waits same ih => simp [(history_children waits).2.1 rfl,
      Event.child?] at started
  | unopened waits same seen ih => simp [(history_children waits).2.1 rfl,
      Event.child?] at started
  | @opened past other moment waits same seen ih =>
      rw [gated] at same
      cases same
      exact ⟨past, moment, _, [], rfl, (history_children waits).2.1 rfl, rfl, seen⟩
  | started moment ungated => simp [gated] at ungated
  | unstarted moment ungated => simp [gated] at ungated
  | polled moment present runs ih =>
      obtain ⟨earlier, before⟩ := (history_children runs).2.2 _ rfl
      exact first_start_append (ih (by simp [before]))
  | restarted runs gone policy ih =>
      obtain ⟨earlier, before⟩ := (history_children runs).2.2 _ rfl
      exact first_start_append (ih (by simp [before]))
  | unrestarted runs gone policy ih =>
      obtain ⟨earlier, before⟩ := (history_children runs).2.2 _ rfl
      exact first_start_append (ih (by simp [before]))
  | ended runs gone policy ih =>
      obtain ⟨earlier, before⟩ := (history_children runs).2.2 _ rfl
      exact first_start_append (ih (by simp [before]))

/-- Starts against exits: one more while the service runs. -/
theorem history_counts {history : List Event} {life : Life}
    (held : History timeline service history life) :
    (life = .waiting → exits history = 0) ∧
      ∀ child, life = .running child → (children history).length = exits history + 1 := by
  induction held with
  | fresh => simp
  | absent moment waits gated ih => simp [ih.1 rfl, Event.isExit]
  | unopened waits gated seen ih => simp [ih.1 rfl, Event.isExit]
  | opened waits gated seen ih =>
      have none_before := ih.1 rfl
      have unstarted := (history_children waits).2.1 rfl
      simp [none_before, unstarted, Event.isExit, Event.child?]
  | started moment ungated => simp [Event.isExit, Event.child?]
  | unstarted moment ungated => simp
  | polled moment present runs ih =>
      have counted := ih.2 _ rfl
      simp [counted, Event.isExit, Event.child?]
  | restarted runs gone policy ih =>
      have counted := ih.2 _ rfl
      simp [counted, Event.isExit, Event.child?]
  | unrestarted runs gone policy ih => simp
  | ended runs gone policy ih => simp

theorem restarted_nil : Restarted [] := by
  intro before moment status rest shape
  simp at shape

theorem restarted_append {past next : List Event} (first : Restarted past)
    (second : Restarted next) : Restarted (past ++ next) := by
  intro before moment status rest shape
  cases List.append_eq_append_iff.mp shape with
  | inl split =>
      obtain ⟨middle, _, right⟩ := split
      exact second middle moment status rest right
  | inr split =>
      obtain ⟨middle, left, right⟩ := split
      cases middle with
      | nil => exact second [] moment status rest right.symm
      | cons event middle =>
          cases right
          obtain ⟨child, later, restart⟩ := first before moment status middle left
          exact ⟨child, later ++ next, by rw [restart]; rfl⟩

theorem restarted_of_no_exit {history : List Event}
    (none_seen : ∀ event ∈ history, event.isExit = false) : Restarted history := by
  intro before moment status rest shape
  have seen := none_seen (.exited moment status) (by simp [shape])
  simp [Event.isExit] at seen

theorem restarted_pair (moment : Nat) (status : ExitStatus) (child : Child) :
    Restarted [.exited moment status, .spawned child] := by
  intro before other same rest shape
  cases before with
  | nil =>
      cases shape
      exact ⟨child, [], rfl⟩
  | cons event before =>
      cases before with
      | nil => simp at shape
      | cons event before => simp at shape

/-- No exit is left without its start while the service waits or runs. -/
theorem history_restarted {history : List Event} {life : Life}
    (held : History timeline service history life) (alive : life ≠ .over) :
    Restarted history := by
  induction held with
  | fresh => exact restarted_nil
  | absent moment waits gated ih =>
      exact restarted_append (ih (by simp)) (restarted_of_no_exit (by simp [Event.isExit]))
  | unopened waits gated seen ih =>
      exact restarted_append (ih (by simp)) (restarted_of_no_exit (by simp [Event.isExit]))
  | opened waits gated seen ih =>
      exact restarted_append (ih (by simp)) (restarted_of_no_exit (by simp [Event.isExit]))
  | started moment ungated => exact restarted_of_no_exit (by simp [Event.isExit])
  | unstarted moment ungated => exact absurd rfl alive
  | polled moment present runs ih =>
      exact restarted_append (ih (by simp)) (restarted_of_no_exit (by simp [Event.isExit]))
  | restarted runs gone policy ih => exact restarted_append (ih (by simp)) (restarted_pair _ _ _)
  | unrestarted runs gone policy ih => exact absurd rfl alive
  | ended runs gone policy ih => exact absurd rfl alive

end Histories

end NodeOs.Initd.Supervise
