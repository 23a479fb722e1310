import Cadence.Proofs.Zone.SoundRules

/-! Times of the year that keep their distance. Where both times of a rule are days away from each
other and from New Year, and neither is in a leap second, they come in the order of their months
and are reached as many seconds apart, whatever the nanoseconds of a clock are.
-/

namespace Cadence

namespace DaylightRule

/-- The times of a rule in a year. Whatever the nanoseconds of a clock are, it reaches them five
days from each other and from New Year, in the order of their months.
-/
structure TimesIn (rule : DaylightRule) (year : Int) (start stop : Stamp) : Prop where
  starts : rule.start.stampIn? year = some start
  stops : rule.stop.stampIn? year = some stop
  startCounted : start.nano.isLeap = false
  stopCounted : stop.nano.isLeap = false
  startInside
    : ∀ nano,
        Clock.newYear year + 432000 ≤ start.arrival nano
        ∧ start.arrival nano + 432000 ≤ Clock.newYear (year + 1)
  stopInside
    : ∀ nano,
        Clock.newYear year + 432000 ≤ stop.arrival nano
        ∧ stop.arrival nano + 432000 ≤ Clock.newYear (year + 1)
  northern
    : rule.start.month < rule.stop.month
      → ∀ nano, start.arrival nano + 432000 ≤ stop.arrival nano
  southern
    : rule.stop.month < rule.start.month
      → ∀ nano, stop.arrival nano + 432000 ≤ start.arrival nano

variable {standard year : Int} {rule : DaylightRule}

end DaylightRule

end Cadence
