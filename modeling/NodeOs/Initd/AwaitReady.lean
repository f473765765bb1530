import NodeOs.Initd.Supervisor
import NodeOs.Library.Clock

/-!
# `await_ready`

The deadline is an instant, and adding the timeout to the present one panics
where the sum does not fit. Otherwise the loop ends: every round that goes on has
slept for a poll interval.
-/

namespace NodeOs.Initd.AwaitReady

open NodeOs.Library.Clock

/-- What the environment answers: the instant of the call, and in each round
whether the marker exists and, in nanoseconds, what the clock reads next. -/
structure Rounds where
  start : Instant
  seen : Nat → Bool
  clock : Nat → Int

/-- The line that is logged. -/
inductive Report where
  | ready
  | timedOut
  deriving DecidableEq, Repr

inductive Result where
  | panicked
  | polling
  | returned (report : Report) (checks : Nat)
  deriving DecidableEq, Repr

def readyPollInterval : Nat := 200000000

/-- The loop, for a number of rounds. -/
def poll (deadline : Int) (rounds : Rounds) : Nat → Nat → Result
  | 0, _ => .polling
  | fuel + 1, round =>
      if rounds.seen round then .returned .ready (round + 1)
      else if deadline ≤ rounds.clock round then .returned .timedOut (round + 1)
      else poll deadline rounds fuel (round + 1)

/-- `await_ready`, followed for a number of rounds. -/
def awaitReady (rounds : Rounds) (timeoutSecs : Nat) (fits : timeoutSecs < 2 ^ 64) (fuel : Nat) :
    Result :=
  match rounds.start.checkedAdd (.ofSecs timeoutSecs fits) with
  | none => .panicked
  | some deadline => poll deadline.total rounds fuel 0

/-- The clock never goes back, and a poll interval passes between two readings. -/
structure Sleeps (rounds : Rounds) : Prop where
  first : rounds.start.total ≤ rounds.clock 0
  next : ∀ round, rounds.clock round + readyPollInterval ≤ rounds.clock (round + 1)

/-- The timeout in poll intervals, rounded up, and one check more. -/
def maxChecks (timeoutSecs : Nat) : Nat :=
  (timeoutSecs * nanosPerSec + (readyPollInterval - 1)) / readyPollInterval + 1

section Polling

variable {rounds : Rounds} {deadline : Int}

theorem clock_advances (sleeps : Sleeps rounds) (round : Nat) :
    rounds.start.total + round * readyPollInterval ≤ rounds.clock round := by
  induction round with
  | zero => simpa using sleeps.first
  | succ round ih =>
      have step := sleeps.next round
      push_cast
      linarith

/-- How a loop that has been followed for long enough has ended. -/
def Ended (deadline : Int) (rounds : Rounds) (start : Nat) (result : Result) : Prop :=
  ∃ report checks, result = .returned report checks ∧ start < checks ∧
    (∀ round, start ≤ round → round + 1 < checks → rounds.seen round = false ∧
      rounds.clock round < deadline) ∧
    match report with
    | .ready => rounds.seen (checks - 1) = true
    | .timedOut => rounds.seen (checks - 1) = false ∧ deadline ≤ rounds.clock (checks - 1)

/-- The measure is the number of rounds up to one whose reading is past the deadline. -/
theorem poll_ends {last : Nat} (past : deadline ≤ rounds.clock last) (fuel start : Nat)
    (covers : last < start + fuel) (begun : start ≤ last) :
    Ended deadline rounds start (poll deadline rounds fuel start) ∧
      ∀ report checks, poll deadline rounds fuel start = .returned report checks →
        checks ≤ last + 1 := by
  induction fuel generalizing start with
  | zero => omega
  | succ fuel ih =>
      unfold poll
      cases seen : rounds.seen start with
      | true =>
          rw [if_pos rfl]
          refine ⟨⟨.ready, start + 1, rfl, by omega, fun round _ _ => by omega, seen⟩, ?_⟩
          intro report checks same
          cases same
          omega
      | false =>
          rw [if_neg Bool.false_ne_true]
          by_cases late : deadline ≤ rounds.clock start
          · rw [if_pos late]
            refine ⟨⟨.timedOut, start + 1, rfl, by omega, fun round _ _ => by omega, seen, late⟩,
              ?_⟩
            intro report checks same
            cases same
            omega
          · rw [if_neg late]
            have later : start + 1 ≤ last := by
              by_contra only
              obtain rfl : start = last := by omega
              exact late past
            obtain ⟨⟨report, checks, same, more, before, final⟩, bound⟩ :=
              ih (start + 1) (by omega) later
            refine ⟨⟨report, checks, same, by omega, ?_, final⟩, bound⟩
            intro round from' within
            by_cases here : round = start
            · rw [here]
              exact ⟨seen, not_le.mp late⟩
            · exact before round (by omega) within

end Polling

/-- The loop comes back in time, has looked at least once, says `ready` exactly if
a check saw the marker, and gives up only where the clock has reached the deadline. -/
def ComesBack (rounds : Rounds) (timeoutSecs : Nat) (fits : timeoutSecs < 2 ^ 64) : Prop :=
  ∃ report checks, (∀ fuel, maxChecks timeoutSecs ≤ fuel →
      awaitReady rounds timeoutSecs fits fuel = .returned report checks) ∧
    1 ≤ checks ∧ checks ≤ maxChecks timeoutSecs ∧
    (report = .ready ↔ ∃ round < checks, rounds.seen round = true) ∧
    (report = .timedOut →
      rounds.start.total + timeoutSecs * nanosPerSec ≤ rounds.clock (checks - 1))

section Contract

variable {rounds : Rounds} {timeoutSecs : Nat} {fits : timeoutSecs < 2 ^ 64}

theorem poll_more {deadline : Int} {report : Report} {checks : Nat} (fuel start extra : Nat)
    (returned : poll deadline rounds fuel start = .returned report checks) :
    poll deadline rounds (fuel + extra) start = .returned report checks := by
  induction fuel generalizing start with
  | zero => cases returned
  | succ fuel ih =>
      rw [show fuel + 1 + extra = fuel + extra + 1 by omega]
      unfold poll at returned ⊢
      cases seen : rounds.seen start with
      | true => rwa [seen] at returned
      | false =>
          rw [seen, if_neg Bool.false_ne_true] at returned
          rw [if_neg Bool.false_ne_true]
          by_cases late : deadline ≤ rounds.clock start
          · rwa [if_pos late] at returned ⊢
          · rw [if_neg late] at returned ⊢
            exact ih (start + 1) returned

/-- The deadline is reached within the timeout's poll intervals. -/
theorem deadline_reached (sleeps : Sleeps rounds) (timeoutSecs : Nat) :
    rounds.start.total + timeoutSecs * nanosPerSec ≤
      rounds.clock (maxChecks timeoutSecs - 1) := by
  have advanced := clock_advances sleeps (maxChecks timeoutSecs - 1)
  have covers : timeoutSecs * nanosPerSec ≤ (maxChecks timeoutSecs - 1) * readyPollInterval := by
    unfold maxChecks readyPollInterval
    omega
  have covers' : (timeoutSecs : Int) * nanosPerSec ≤
      ((maxChecks timeoutSecs - 1 : Nat) : Int) * readyPollInterval := by
    exact_mod_cast covers
  linarith

theorem await_ready_comes_back (sleeps : Sleeps rounds)
    (within : rounds.start.secs + timeoutSecs < secsLimit) :
    ComesBack rounds timeoutSecs fits := by
  obtain ⟨deadline, added⟩ := Option.ne_none_iff_exists'.mp
    ((Instant.checked_add_secs_iff rounds.start timeoutSecs fits).mpr within)
  have total : deadline.total = rounds.start.total + timeoutSecs * nanosPerSec := by
    rw [Instant.checked_add_total added, Duration.of_secs_total]
    push_cast
    rfl
  have past : deadline.total ≤ rounds.clock (maxChecks timeoutSecs - 1) := by
    rw [total]
    exact deadline_reached sleeps timeoutSecs
  have positive : 0 < maxChecks timeoutSecs := Nat.succ_pos _
  have enough : maxChecks timeoutSecs - 1 < 0 + maxChecks timeoutSecs := by omega
  obtain ⟨⟨report, checks, returned, begun, before, final⟩, bound⟩ :=
    poll_ends past (maxChecks timeoutSecs) 0 enough (Nat.zero_le _)
  have few := bound report checks returned
  refine ⟨report, checks, ?_, begun, by omega, ?_, ?_⟩
  · intro fuel more
    rw [awaitReady, added]
    obtain ⟨extra, rfl⟩ := Nat.exists_eq_add_of_le more
    exact poll_more _ 0 extra returned
  · cases report with
    | ready => exact iff_of_true rfl ⟨checks - 1, by omega, final⟩
    | timedOut =>
        apply iff_of_false nofun
        rintro ⟨round, earlier, seen⟩
        by_cases last : round + 1 < checks
        · rw [(before round (Nat.zero_le _) last).1] at seen
          cases seen
        · have same : round = checks - 1 := by omega
          rw [same, final.1] at seen
          cases seen
  · rintro rfl
    rw [← total]
    exact final.2

theorem await_ready_panics (overflows : ¬rounds.start.secs + timeoutSecs < secsLimit) (fuel : Nat) :
    awaitReady rounds timeoutSecs fits fuel = .panicked := by
  have none : rounds.start.checkedAdd (.ofSecs timeoutSecs fits) = none := by
    by_contra some
    exact overflows ((Instant.checked_add_secs_iff _ _ fits).mp some)
  rw [awaitReady, none]

end Contract

/-- `await_ready` comes back as it should exactly if the seconds of its deadline
can be represented. -/
theorem await_ready_comes_back_iff (rounds : Rounds) (timeoutSecs : Nat)
    (fits : timeoutSecs < 2 ^ 64) (sleeps : Sleeps rounds) :
    ComesBack rounds timeoutSecs fits ↔ rounds.start.secs + timeoutSecs < secsLimit := by
  constructor
  · rintro ⟨report, checks, returned, -⟩
    by_contra overflows
    have same := returned _ (Nat.le_refl _)
    rw [await_ready_panics overflows] at same
    cases same
  · exact await_ready_comes_back sleeps

/-- A second after power-on, with a clock that reads every poll interval. -/
def sampleRounds : Rounds where
  start := ⟨1, 0, by decide, by decide, nanos_per_sec_pos⟩
  seen := fun round => round == 3
  clock := fun round => 1000000000 + 200000000 * round

theorem sample_rounds_sleep : Sleeps sampleRounds := by
  constructor
  · decide
  · intro round
    simp only [sampleRounds, readyPollInterval]
    push_cast
    linarith

theorem await_ready_comes_back_iff_sample :
    Sleeps sampleRounds ∧
      (ComesBack sampleRounds 30 (by decide) ↔ sampleRounds.start.secs + 30 < secsLimit) :=
  ⟨sample_rounds_sleep, await_ready_comes_back_iff sampleRounds 30 (by decide) sample_rounds_sleep⟩

/-- The largest integer of TOML as the timeout, a second after power-on. -/
theorem await_ready_overflows :
    ¬∀ rounds timeoutSecs fits, timeoutSecs < 2 ^ 63 → Sleeps rounds →
      ComesBack rounds timeoutSecs fits := by
  intro returns
  obtain ⟨report, checks, returned, -⟩ :=
    returns sampleRounds (2 ^ 63 - 1) (by decide) (by decide) sample_rounds_sleep
  have same := returned _ (Nat.le_refl _)
  rw [await_ready_panics (by decide)] at same
  cases same

section Timeline

open NodeOs.Library.FaultPlan NodeOs.Initd.Supervise

variable (timeline : Timeline) (plan : Plan Nat) (marker : String)

/-- The moment at which a round of the supervisor's loop begins. -/
def moment (start : Nat) : Nat → Nat
  | 0 => start
  | round + 1 =>
      timeline.after (timeline.after (moment start round)) + Supervise.readyPollInterval

/-- The rounds that a timeline and a fault plan amount to. -/
def roundsOf (start : Nat) (instant : Instant) : Rounds where
  start := instant
  seen := fun round => plan (moment timeline start round) == .done &&
    timeline.present (moment timeline start round) marker
  clock := fun round => timeline.after (moment timeline start round)

theorem rounds_of_sleep {start : Nat} {instant : Instant} (same : instant.total = start) :
    Sleeps (roundsOf timeline plan marker start instant) := by
  constructor
  · have later : start ≤ timeline.after start := moment_le_after start
    simp only [roundsOf, moment, same]
    exact_mod_cast later
  · intro round
    have later : timeline.after (moment timeline start round) ≤
        timeline.after (timeline.after (moment timeline start round)) := moment_le_after _
    have last : moment timeline start (round + 1) ≤
        timeline.after (moment timeline start (round + 1)) := moment_le_after _
    simp only [roundsOf]
    rw [moment] at last ⊢
    unfold Supervise.readyPollInterval at *
    unfold readyPollInterval
    omega

variable {timeline plan marker}

theorem path_exists_run (alive : ∀ moment extent, plan moment ≠ .killed extent) (index : Nat)
    (world : World) :
    let seen := plan world.now == .done && timeline.present world.now marker
    (pathExists timeline index .polled marker).run plan world =
      (.ok seen, world.note timeline index (.polled world.now seen)) := by
  unfold pathExists metadata
  simp only [Proc.run_bind, Proc.run_attempt, Proc.run_observe, Proc.run_step]
  cases fate : plan world.now with
  | done => cases present : timeline.present world.now marker <;> simp <;> rfl
  | fails extent => rfl
  | killed extent => exact absurd fate (alive _ _)

theorem sleep_run (alive : ∀ moment extent, plan moment ≠ .killed extent) (duration : Nat)
    (world : World) :
    (sleep timeline duration).run plan world =
      (.ok (), { world.pass timeline with now := timeline.after world.now + duration }) := by
  unfold sleep
  simp only [Proc.run_bind, Proc.run_observe, Proc.run_ignore, Proc.run_step]
  cases fate : plan world.now with
  | done => rfl
  | fails extent => rfl
  | killed extent => exact absurd fate (alive _ _)

/-- The supervisor's loop makes the same rounds, and records each of its checks. -/
theorem poll_ready_follows (alive : ∀ moment extent, plan moment ≠ .killed extent) (index : Nat)
    {start : Nat} (instant : Instant) (deadline fuel round : Nat) (world : World)
    (here : world.now = moment timeline start round) :
    ((pollReady timeline index marker deadline fuel).run plan world).1 = .ok () ∧
      ∀ report checks,
        poll deadline (roundsOf timeline plan marker start instant) fuel round =
          .returned report checks →
        (((pollReady timeline index marker deadline fuel).run plan world).2.history index).length +
          round = (world.history index).length + checks := by
  induction fuel generalizing round world with
  | zero => exact ⟨rfl, fun report checks polling => by cases polling⟩
  | succ fuel ih =>
      have looked : (pathExists timeline index .polled marker).run plan world = _ :=
        path_exists_run alive index world
      have seen : (roundsOf timeline plan marker start instant).seen round =
          (plan world.now == .done && timeline.present world.now marker) := by
        rw [here]
        rfl
      have clock : (roundsOf timeline plan marker start instant).clock round =
          timeline.after world.now := by
        rw [here]
        rfl
      unfold pollReady poll
      rw [Proc.run_bind, looked, seen, clock]
      cases plan world.now == .done && timeline.present world.now marker with
      | true =>
          refine ⟨rfl, ?_⟩
          intro report checks returned
          cases returned
          simp
          omega
      | false =>
          simp only [Bool.false_eq_true, if_false, Proc.run_bind, Proc.run_observe, note_now]
          by_cases late : deadline ≤ timeline.after world.now
          · rw [if_pos late, if_pos (by exact_mod_cast late)]
            refine ⟨rfl, ?_⟩
            intro report checks returned
            cases returned
            simp
            omega
          · rw [if_neg late, if_neg (by exact_mod_cast late), Proc.run_bind, sleep_run alive]
            let awake : World :=
              { (world.note timeline index (.polled world.now false)).pass timeline with
                now := timeline.after (timeline.after world.now) + Supervise.readyPollInterval }
            have next : awake.now = moment timeline start (round + 1) := by
              rw [moment, ← here]
            have noted : awake.history index =
                world.history index ++ [.polled world.now false] :=
              @note_history timeline index _ world
            have grown : (awake.history index).length = (world.history index).length + 1 := by
              rw [noted, List.length_append, List.length_singleton]
            obtain ⟨outcome, counted⟩ := ih (round + 1) awake next
            refine ⟨outcome, ?_⟩
            intro report checks returned
            change (((pollReady timeline index marker deadline fuel).run plan awake).2.history
              index).length + round = _
            have more := counted report checks returned
            rw [grown] at more
            omega

/-- On a timeline on which the machine does not stop, the supervisor's
`await_ready` returns, or panics, as the one here does, after as many checks. -/
theorem await_ready_follows (alive : ∀ moment extent, plan moment ≠ .killed extent) (index : Nat)
    {instant : Instant} {timeoutSecs : Nat} (fits : timeoutSecs < 2 ^ 64) (world : World)
    (secs : instant.secs = world.now / second) (same : instant.total = world.now) :
    let result := awaitReady (roundsOf timeline plan marker world.now instant) timeoutSecs fits
      (maxChecks timeoutSecs)
    let run := (Supervise.awaitReady timeline index marker timeoutSecs).run plan world
    (result = .panicked ∧ run.1 = .err .instantOverflow ∧ run.2 = world) ∨
      ∃ report checks, result = .returned report checks ∧ run.1 = .ok () ∧
        (run.2.history index).length = (world.history index).length + checks := by
  have sleeps := rounds_of_sleep timeline plan marker same
  have start : (roundsOf timeline plan marker world.now instant).start = instant := rfl
  by_cases within : instant.secs + timeoutSecs < secsLimit
  · right
    have comesBack : ComesBack (roundsOf timeline plan marker world.now instant) timeoutSecs fits :=
      await_ready_comes_back sleeps within
    obtain ⟨report, checks, returned, -⟩ := comesBack
    refine ⟨report, checks, returned _ (Nat.le_refl _), ?_⟩
    have polled := returned (maxChecks timeoutSecs) (Nat.le_refl _)
    obtain ⟨deadline, added⟩ := Option.ne_none_iff_exists'.mp
      ((Instant.checked_add_secs_iff instant timeoutSecs fits).mpr within)
    have total : deadline.total = (world.now + timeoutSecs * second : Nat) := by
      rw [Instant.checked_add_total added, Duration.of_secs_total, same]
      push_cast
      rfl
    rw [awaitReady, start, added] at polled
    simp only [total] at polled
    have fuel : maxChecks timeoutSecs = timeoutSecs * 5 + 1 := by
      unfold maxChecks nanosPerSec readyPollInterval
      omega
    rw [fuel] at polled
    have bounded : ¬2 ^ 63 ≤ world.now / second + timeoutSecs := by
      rw [secs] at within
      unfold secsLimit at within
      omega
    have begins : world.now = moment timeline world.now 0 := rfl
    obtain ⟨outcome, counted⟩ := poll_ready_follows alive index instant
      (world.now + timeoutSecs * second) (timeoutSecs * 5 + 1) 0 world begins
    have more := counted report checks polled
    unfold Supervise.awaitReady
    rw [Proc.run_bind, Proc.run_observe]
    simp only [if_neg bounded]
    exact ⟨outcome, by omega⟩
  · left
    have bounded : 2 ^ 63 ≤ world.now / second + timeoutSecs := by
      rw [secs] at within
      unfold secsLimit at within
      omega
    refine ⟨await_ready_panics within _, ?_⟩
    unfold Supervise.awaitReady
    rw [Proc.run_bind, Proc.run_observe]
    simp only [if_pos bounded]
    exact ⟨rfl, rfl⟩

end Timeline

end NodeOs.Initd.AwaitReady
