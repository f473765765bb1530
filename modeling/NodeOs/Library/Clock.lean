import Mathlib.Algebra.Order.Ring.Nat
import Mathlib.Tactic.Linarith
import Mathlib.Tactic.Ring

/-!
# Spans and instants of time

A duration holds seconds in 64 bits and nanoseconds below a second; an instant
holds the seconds in 64 bits with a sign. Operations that do not fit answer
`none`. Each is compared with what it does on the count of nanoseconds.
-/

namespace NodeOs.Library.Clock

def nanosPerSec : Nat := 1000000000

theorem nanos_per_sec_pos : 0 < nanosPerSec := by decide

structure Duration where
  secs : Nat
  nanos : Nat
  secs_lt : secs < 2 ^ 64
  nanos_lt : nanos < nanosPerSec
  deriving DecidableEq, Repr

namespace Duration

def zero : Duration := ⟨0, 0, by decide, nanos_per_sec_pos⟩

def total (span : Duration) : Nat := span.secs * nanosPerSec + span.nanos

def lt (first second : Duration) : Bool :=
  first.secs < second.secs || (first.secs == second.secs && first.nanos < second.nanos)

def le (first second : Duration) : Bool :=
  first.secs < second.secs || (first.secs == second.secs && first.nanos ≤ second.nanos)

/-- A second is borrowed where the nanoseconds do not suffice. -/
def checkedSub (first second : Duration) : Option Duration :=
  if first.secs < second.secs then none
  else if covered : second.nanos ≤ first.nanos then
    some ⟨first.secs - second.secs, first.nanos - second.nanos,
      lt_of_le_of_lt (Nat.sub_le _ _) first.secs_lt,
      lt_of_le_of_lt (Nat.sub_le _ _) first.nanos_lt⟩
  else if first.secs = second.secs then none
  else
    some ⟨first.secs - second.secs - 1, first.nanos + nanosPerSec - second.nanos,
      lt_of_le_of_lt ((Nat.sub_le _ _).trans (Nat.sub_le _ _)) first.secs_lt,
      by have bounded := second.nanos_lt; omega⟩

def saturatingSub (first second : Duration) : Duration := (checkedSub first second).getD zero

/-- What is left of the seconds goes into the nanoseconds. -/
def divNanos (span : Duration) (divisor : Nat) : Nat :=
  span.nanos / divisor + (span.secs % divisor * nanosPerSec + span.nanos % divisor) / divisor

theorem div_total (span : Duration) {divisor : Nat} (nonzero : 0 < divisor) :
    span.secs / divisor * nanosPerSec + span.divNanos divisor = span.total / divisor := by
  have secs := Nat.div_add_mod span.secs divisor
  have nanos := Nat.div_add_mod span.nanos divisor
  have split : span.total =
      divisor * (span.secs / divisor * nanosPerSec + span.nanos / divisor) +
        (span.secs % divisor * nanosPerSec + span.nanos % divisor) := by
    unfold total
    conv_lhs => rw [← secs, ← nanos]
    ring
  rw [split, Nat.mul_add_div nonzero, divNanos]
  ring

theorem div_nanos_lt (span : Duration) {divisor : Nat} (nonzero : 0 < divisor) :
    span.divNanos divisor < nanosPerSec := by
  have nanos := Nat.div_add_mod span.nanos divisor
  have rest := Nat.mul_div_le (span.secs % divisor * nanosPerSec + span.nanos % divisor) divisor
  have whole : (span.secs % divisor + 1) * nanosPerSec ≤ divisor * nanosPerSec :=
    Nat.mul_le_mul_right _ (Nat.mod_lt _ nonzero)
  have bounded := span.nanos_lt
  apply Nat.lt_of_mul_lt_mul_left (a := divisor)
  rw [divNanos, Nat.mul_add]
  linarith

/-- `Duration / u32`, which panics only on zero. -/
def div (span : Duration) (divisor : Nat) : Option Duration :=
  if nonzero : 0 < divisor then
    some ⟨span.secs / divisor, span.divNanos divisor,
      lt_of_le_of_lt (Nat.div_le_self _ _) span.secs_lt, span.div_nanos_lt nonzero⟩
  else none

theorem lt_iff (first second : Duration) : first.lt second = true ↔ first.total < second.total := by
  have below := first.nanos_lt
  have above := second.nanos_lt
  unfold lt total nanosPerSec at *
  simp only [Bool.or_eq_true, decide_eq_true_eq, Bool.and_eq_true, beq_iff_eq]
  omega

theorem le_iff (first second : Duration) : first.le second = true ↔ first.total ≤ second.total := by
  have below := first.nanos_lt
  have above := second.nanos_lt
  unfold le total nanosPerSec at *
  simp only [Bool.or_eq_true, decide_eq_true_eq, Bool.and_eq_true, beq_iff_eq]
  omega

theorem saturating_sub_total (first second : Duration) :
    (first.saturatingSub second).total = first.total - second.total := by
  have below := first.nanos_lt
  have above := second.nanos_lt
  unfold saturatingSub checkedSub
  by_cases fewer : first.secs < second.secs
  · have less : first.total ≤ second.total := by
      unfold total nanosPerSec at *
      omega
    rw [if_pos fewer, Nat.sub_eq_zero_of_le less]
    rfl
  · rw [if_neg fewer]
    by_cases covered : second.nanos ≤ first.nanos
    · rw [dif_pos covered]
      simp only [Option.getD_some, total]
      unfold nanosPerSec at *
      omega
    · rw [dif_neg covered]
      by_cases same : first.secs = second.secs
      · have less : first.total ≤ second.total := by
          rw [total, total, same]
          omega
        rw [if_pos same, Nat.sub_eq_zero_of_le less]
        rfl
      · rw [if_neg same]
        simp only [Option.getD_some, total]
        unfold nanosPerSec at *
        omega

theorem div_eq_some (span : Duration) {divisor : Nat} (nonzero : 0 < divisor) :
    ∃ part, span.div divisor = some part ∧ part.total = span.total / divisor := by
  unfold div
  rw [dif_pos nonzero]
  refine ⟨_, rfl, ?_⟩
  rw [← span.div_total nonzero]
  unfold total
  rfl

end Duration

/-- `Duration::from_secs`. -/
def Duration.ofSecs (secs : Nat) (fits : secs < 2 ^ 64) : Duration :=
  ⟨secs, 0, fits, nanos_per_sec_pos⟩

theorem Duration.of_secs_total (secs : Nat) (fits : secs < 2 ^ 64) :
    (Duration.ofSecs secs fits).total = secs * nanosPerSec := by
  rw [total, ofSecs, Nat.add_zero]

/-- The seconds of an instant are below this. -/
def secsLimit : Int := 2 ^ 63

structure Instant where
  secs : Int
  nanos : Nat
  secs_ge : -secsLimit ≤ secs
  secs_lt : secs < secsLimit
  nanos_lt : nanos < nanosPerSec

namespace Instant

def total (instant : Instant) : Int := instant.secs * nanosPerSec + instant.nanos

/-- A full second of nanoseconds is carried over. -/
def checkedAdd (instant : Instant) (span : Duration) : Option Instant :=
  let nanos := instant.nanos + span.nanos
  if fits : instant.secs + span.secs < secsLimit then
    if short : nanos < nanosPerSec then
      some ⟨instant.secs + span.secs, nanos, by have := instant.secs_ge; omega, fits, short⟩
    else if carries : instant.secs + span.secs + 1 < secsLimit then
      some ⟨instant.secs + span.secs + 1, nanos - nanosPerSec, by have := instant.secs_ge; omega,
        carries, by have := instant.nanos_lt; have := span.nanos_lt; omega⟩
    else none
  else none

theorem checked_add_total {instant sum : Instant} {span : Duration}
    (added : instant.checkedAdd span = some sum) : sum.total = instant.total + span.total := by
  unfold checkedAdd at added
  by_cases fits : instant.secs + span.secs < secsLimit
  · rw [dif_pos fits] at added
    by_cases short : instant.nanos + span.nanos < nanosPerSec
    · rw [dif_pos short] at added
      rw [← Option.some.inj added]
      simp only [total, Duration.total]
      push_cast
      ring
    · rw [dif_neg short] at added
      by_cases carries : instant.secs + span.secs + 1 < secsLimit
      · rw [dif_pos carries] at added
        rw [← Option.some.inj added]
        simp only [total, Duration.total]
        rw [Nat.cast_sub (not_lt.mp short)]
        push_cast
        ring
      · rw [dif_neg carries] at added
        cases added
  · rw [dif_neg fits] at added
    cases added

/-- Whole seconds overflow with the seconds of the instant only. -/
theorem checked_add_secs_iff (instant : Instant) (secs : Nat) (fits : secs < 2 ^ 64) :
    instant.checkedAdd (.ofSecs secs fits) ≠ none ↔ instant.secs + secs < secsLimit := by
  have short : instant.nanos + (Duration.ofSecs secs fits).nanos < nanosPerSec := instant.nanos_lt
  have same : (Duration.ofSecs secs fits).secs = secs := rfl
  unfold checkedAdd
  by_cases below : instant.secs + (Duration.ofSecs secs fits).secs < secsLimit
  · rw [dif_pos below, dif_pos short]
    exact iff_of_true nofun (by rwa [same] at below)
  · rw [dif_neg below]
    exact iff_of_false (fun some => some rfl) (by rwa [same] at below)

end Instant

end NodeOs.Library.Clock
