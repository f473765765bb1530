import NodeOs.Library.Clock
import NodeOs.Noded.RenewalLoop

/-!
# The renewal window

`needs_renewal` works on durations; it is shown to answer always, and to answer
what the same comparison answers on exact nanoseconds. The last third of the
lifetime, rounded down, is long enough that checks which follow each other more
closely cannot step over it.
-/

namespace NodeOs.Noded.RenewalWindow

open NodeOs.Library.Clock NodeOs.Noded

/-- `none` would be a panic. -/
def needsRenewal (notBefore notAfter now : Duration) : Option Bool :=
  if notAfter.le now then some true
  else do
    let lifetime := notAfter.saturatingSub notBefore
    let remaining := notAfter.saturatingSub now
    let window ← lifetime.div 3
    some (remaining.lt window)

/-- No operation overflows or panics, whichever way the validity runs. -/
theorem needs_renewal_total (notBefore notAfter now : Duration) :
    needsRenewal notBefore notAfter now =
      some (RenewalLoop.needsRenewal notBefore.total notAfter.total now.total) := by
  unfold needsRenewal RenewalLoop.needsRenewal
  by_cases late : notAfter.total ≤ now.total
  · rw [if_pos ((Duration.le_iff _ _).mpr late), if_pos late]
  · rw [if_neg fun past => late ((Duration.le_iff _ _).mp past), if_neg late]
    obtain ⟨window, divided, third⟩ :=
      (notAfter.saturatingSub notBefore).div_eq_some (show 0 < 3 by decide)
    simp only [divided, Option.bind_eq_bind, Option.bind_some, Option.some.injEq]
    rw [Bool.eq_iff_iff, Duration.lt_iff, decide_eq_true_eq, third, Duration.saturating_sub_total,
      Duration.saturating_sub_total]

section Nanoseconds

variable {notBefore notAfter : Nat}

theorem needs_renewal_iff (now : Nat) :
    RenewalLoop.needsRenewal notBefore notAfter now = true ↔
      notAfter ≤ now ∨ notAfter - now < (notAfter - notBefore) / 3 := by
  unfold RenewalLoop.needsRenewal
  by_cases late : notAfter ≤ now
  · simp [late]
  · simp [late]

theorem needs_renewal_mono {now later : Nat} (order : now ≤ later)
    (due : RenewalLoop.needsRenewal notBefore notAfter now = true) :
    RenewalLoop.needsRenewal notBefore notAfter later = true := by
  rw [needs_renewal_iff] at due ⊢
  omega

/-- A certificate that is due before its end is past two thirds of its lifetime. -/
theorem needs_renewal_late {now : Nat} (ordered : notBefore ≤ notAfter) (before : now < notAfter)
    (due : RenewalLoop.needsRenewal notBefore notAfter now = true) :
    2 * ((notAfter : Int) - notBefore) < 3 * ((now : Int) - notBefore) := by
  rw [needs_renewal_iff] at due
  omega

/-- Checks at ever later times get past any bound. -/
theorem checks_pass {times : Nat → Nat} (rising : ∀ check, times check < times (check + 1))
    (bound : Nat) : bound ≤ times bound := by
  induction bound with
  | zero => exact Nat.zero_le _
  | succ bound ih => exact Nat.succ_le_of_lt (lt_of_le_of_lt ih (rising bound))

/-- The first check that is due comes before the end: the one before it was at
least a window away from the end, and the gap is shorter than a window. -/
theorem check_in_window {times : Nat → Nat}
    (early : RenewalLoop.needsRenewal notBefore notAfter (times 0) = false)
    (rising : ∀ check, times check < times (check + 1))
    (close : ∀ check, times (check + 1) - times check < (notAfter - notBefore) / 3) :
    ∃ check, times check < notAfter ∧
      RenewalLoop.needsRenewal notBefore notAfter (times check) = true := by
  have reached : ∃ check, RenewalLoop.needsRenewal notBefore notAfter (times check) = true :=
    ⟨notAfter, (needs_renewal_iff _).mpr (Or.inl (checks_pass rising notAfter))⟩
  have due := Nat.find_spec reached
  refine ⟨Nat.find reached, ?_, due⟩
  cases first : Nat.find reached with
  | zero =>
      rw [first, early] at due
      cases due
  | succ check =>
      have notDue := Nat.find_min reached (m := check) (by omega)
      rw [needs_renewal_iff] at notDue
      have gap := close check
      have order := rising check
      omega

end Nanoseconds

/-- The renewal window is never missed, and the arithmetic behind it never fails. -/
theorem renewal_window_met (notBefore notAfter : Duration) :
    (∀ now, needsRenewal notBefore notAfter now =
      some (RenewalLoop.needsRenewal notBefore.total notAfter.total now.total)) ∧
    (notBefore.total ≤ notAfter.total →
      (∀ now later : Duration, now.total ≤ later.total →
        needsRenewal notBefore notAfter now = some true →
          needsRenewal notBefore notAfter later = some true) ∧
      (∀ now : Duration, now.total < notAfter.total →
        needsRenewal notBefore notAfter now = some true →
          2 * ((notAfter.total : Int) - notBefore.total) <
            3 * ((now.total : Int) - notBefore.total)) ∧
      (∀ now : Duration, notAfter.total ≤ now.total →
        needsRenewal notBefore notAfter now = some true) ∧
      ∀ times : Nat → Nat,
        RenewalLoop.needsRenewal notBefore.total notAfter.total (times 0) = false →
        (∀ check, times check < times (check + 1) ∧
          times (check + 1) - times check < (notAfter.total - notBefore.total) / 3) →
        ∃ check, times check < notAfter.total ∧
          RenewalLoop.needsRenewal notBefore.total notAfter.total (times check) = true) := by
  refine ⟨needs_renewal_total notBefore notAfter, fun ordered => ⟨?_, ?_, ?_, ?_⟩⟩
  · intro now later order due
    rw [needs_renewal_total, Option.some.injEq] at due ⊢
    exact needs_renewal_mono order due
  · intro now before due
    rw [needs_renewal_total, Option.some.injEq] at due
    exact needs_renewal_late ordered before due
  · intro now late
    rw [needs_renewal_total, Option.some.injEq, needs_renewal_iff]
    exact Or.inl late
  · intro times early schedule
    exact check_in_window early (fun check => (schedule check).1) fun check => (schedule check).2

def sampleStart : Duration := .ofSecs 1000 (by decide)

def sampleEnd : Duration := .ofSecs 1900 (by decide)

/-- A lifetime of 900 seconds, with a check every 299 seconds. -/
theorem renewal_window_met_sample :
    ∃ check, (1600 + 299 * check) * 1000000000 < sampleEnd.total ∧
      RenewalLoop.needsRenewal sampleStart.total sampleEnd.total
        ((1600 + 299 * check) * 1000000000) = true := by
  apply ((renewal_window_met sampleStart sampleEnd).2 (by decide)).2.2.2
    (fun check => (1600 + 299 * check) * 1000000000) (by decide)
  intro check
  have third : (sampleEnd.total - sampleStart.total) / 3 = 300000000000 := by decide
  rw [third]
  omega

end NodeOs.Noded.RenewalWindow
