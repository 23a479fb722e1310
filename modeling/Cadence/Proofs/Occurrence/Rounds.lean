import Cadence.Occurrence
import Cadence.Proofs.Search.LeastDue

/-! Searches come to an end, whatever is searched for and whatever a zone says of its
clocks. Each loop is described by its rounds: the search for a due time looks at later and
later dates until one is due or the last year is passed, the search for a time that the
clock shows looks at later and later times, and bisection at narrower and narrower ranges.
-/

namespace Cadence

-----------------------------------------------------------------------------------------
-- Loops
-----------------------------------------------------------------------------------------

/-- What a round of a loop comes to: another round in a further state, or a result. -/
inductive Round (σ ρ : Type) where
  | again (further : σ)
  | done (result : ρ)

variable {σ ρ : Type} {round : σ → Round σ ρ} {value : σ → ρ} {moves : σ → σ → Prop}

/-- The states that a loop passes through from the first of them on, and its result. -/
inductive Run (round : σ → Round σ ρ) : σ → List σ → ρ → Prop where
  | last {state result} (ends : round state = .done result) : Run round state [state] result
  | more {state further states result} (goes : round state = .again further)
    (rest : Run round further states result)
    : Run round state (state :: states) result

/-- A loop that cannot go on forever: from every state on it runs to its value there, and it
moves on in every round.
-/
structure Progresses (round : σ → Round σ ρ) (value : σ → ρ) (moves : σ → σ → Prop) : Prop where
  halts : WellFounded fun further state => round state = .again further
  runs : ∀ state, ∃ states, Run round state states (value state) ∧ states.Pairwise moves

/-- From a state with a run the loop cannot go on forever, by induction on the run. -/
theorem Run.acc {state : σ} {states : List σ} {result : ρ} (run : Run round state states result)
    : Acc (fun further state => round state = .again further) state := by
  induction run with
  | last ends =>
      constructor
      intro further goes
      simp [ends] at goes
  | more goes _ ih =>
      constructor
      intro other goesOn
      rw [goes] at goesOn
      obtain rfl := Round.again.inj goesOn
      exact ih

/-- If every round moves on, all later states of a run have moved on from all earlier ones,
by induction on the run.
-/
theorem Run.pairwise {state : σ} {states : List σ} {result : ρ}
    (run : Run round state states result)
    (step : ∀ {state further}, round state = .again further → moves state further)
    (trans : ∀ {first second third}, moves first second → moves second third → moves first third)
    : states.Pairwise moves ∧ ∀ later ∈ states, later = state ∨ moves state later := by
  induction run with
  | last => simp
  | @more state further states _ goes _ ih =>
      have beyond : ∀ later ∈ states, moves state later := by
        intro later member
        rcases ih.2 later member with rfl | moved
        · exact step goes
        · exact trans (step goes) moved
      refine ⟨List.pairwise_cons.mpr ⟨beyond, ih.1⟩, ?_⟩
      intro later member
      rcases List.mem_cons.mp member with same | behind
      · exact Or.inl same
      · exact Or.inr (beyond later behind)

/-- A run ends with one state that gives the result, after states that do not. -/
theorem Run.exists_last {state : σ} {states : List σ} {result : ρ}
    (run : Run round state states result)
    : ∃ front last,
        states = front ++ [last]
        ∧ round last = .done result
        ∧ ∀ earlier ∈ front, ∃ further, round earlier = .again further := by
  induction run with
  | @last state _ ends => exact ⟨[], state, rfl, ends, by simp⟩
  | @more state further _ _ goes _ ih =>
      obtain ⟨front, last, rfl, ends, earlier⟩ := ih
      exact ⟨state :: front, last, rfl, ends,
        List.forall_mem_cons.mpr ⟨⟨further, goes⟩, earlier⟩⟩

/-- A loop progresses if it has a run from every state and every round moves on. -/
theorem progresses_of_runs
    (step : ∀ {state further}, round state = .again further → moves state further)
    (trans : ∀ {first second third}, moves first second → moves second third → moves first third)
    (runs : ∀ state, ∃ states, Run round state states (value state))
    : Progresses round value moves := by
  constructor
  · constructor
    intro state
    obtain ⟨states, run⟩ := runs state
    exact run.acc
  · intro state
    obtain ⟨states, run⟩ := runs state
    exact ⟨states, run, (run.pairwise step trans).1⟩

-----------------------------------------------------------------------------------------
-- The search for a due time
-----------------------------------------------------------------------------------------

namespace Cursor

theorem DateBefore.trans {first second third : Cursor} (before : first.DateBefore second)
    (after : second.DateBefore third)
    : first.DateBefore third := by
  simp only [DateBefore] at *
  omega

/-- What is not after a minute is not before an earlier date. -/
theorem DateBefore.of_notAfter {first second third : Cursor} (before : first.DateBefore second)
    (notAfter : second.NotAfter third)
    : first.DateBefore third := by
  simp only [DateBefore, NotAfter] at *
  omega

theorem dateBefore_startOf {cursor : Cursor} {day : Nat} (later : cursor.day < day)
    : cursor.DateBefore (cursor.startOf day) :=
  Or.inr ⟨rfl, Or.inr ⟨rfl, later⟩⟩

end Cursor

namespace Schedule

/-- A round of the search for a due time, which looks at the minute that a bound settles on. -/
def probing (schedule : Schedule) (bound : Cursor) : Round Cursor (Option Int) :=
  match schedule.probe bound with
  | .found time => .done (some time)
  | .exhausted => .done none
  | .later further => .again further

/-- The search runs through its bounds, by its own induction. -/
theorem exists_run_search (schedule : Schedule) (bound : Cursor)
    : ∃ bounds, Run schedule.probing bound bounds (schedule.search bound) := by
  fun_induction search schedule bound with
  | case1 bound time probed => exact ⟨[bound], Run.last (by rw [probing, probed])⟩
  | case2 bound probed => exact ⟨[bound], Run.last (by rw [probing, probed])⟩
  | case3 bound further probed ih =>
      obtain ⟨bounds, run⟩ := ih
      exact ⟨bound :: bounds, Run.more (by rw [probing, probed]) run⟩

/-- The search goes on with a later date, if it is still within the years that it searches. -/
theorem settle_dateBefore_of_probing {schedule : Schedule} {bound further : Cursor}
    (goes : schedule.probing bound = .again further)
    : (schedule.settle bound).year ≤ lastYear
      ∧ (schedule.settle bound).DateBefore (schedule.settle further) := by
  have learned := schedule.probe_learns bound
  have small := (schedule.settle_bounds bound).2.1
  have settled := schedule.settle_notAfter further
  rw [probing] at goes
  generalize schedule.probe bound = probed at learned goes
  generalize schedule.settle bound = cursor at *
  cases learned with
  | exhausted => simp at goes
  | found => simp at goes
  | missing searched =>
      obtain rfl := Round.again.inj goes
      have before : cursor.DateBefore (cursor.startOf 32) :=
        Cursor.dateBefore_startOf (Nat.lt_succ_of_le small)
      exact ⟨searched, before.of_notAfter settled⟩
  | weekday searched =>
      obtain rfl := Round.again.inj goes
      have before : cursor.DateBefore (cursor.startOf (cursor.day + 1)) :=
        Cursor.dateBefore_startOf (Nat.lt_succ_self cursor.day)
      exact ⟨searched, before.of_notAfter settled⟩

/-- The search ends without a time exactly if it passes the last year. -/
theorem late_of_probing {schedule : Schedule} {bound : Cursor} {result : Option Int}
    (ends : schedule.probing bound = .done result)
    : result = none ↔ lastYear < (schedule.settle bound).year := by
  have learned := schedule.probe_learns bound
  rw [probing] at ends
  generalize schedule.probe bound = probed at learned ends
  generalize schedule.settle bound = cursor at *
  cases learned with
  | exhausted late =>
      obtain rfl := Round.done.inj ends
      simp [late]
  | found searched =>
      obtain rfl := Round.done.inj ends
      simp [Int.not_lt.mpr searched]
  | missing => simp at ends
  | weekday => simp at ends

-----------------------------------------------------------------------------------------
-- The search for a time that the clock shows
-----------------------------------------------------------------------------------------

/-- A round of the search for a time that the clock shows. -/
def showing (schedule : Schedule) (zone : Zone) (wall : Int) : Round Int (Option Occurrence) :=
  match zone.classify wall with
  | .valid offset => .done (some ⟨wall, offset⟩)
  | .repeated first _ => .done (some ⟨wall, first⟩)
  | .skipped =>
    match schedule.nextFrom wall false with
    | none => .done none
    | some later => .again later

/-- The search runs through the due times that the clock skips, by its own induction. -/
theorem exists_run_firstShown (schedule : Schedule) (zone : Zone) (wall : Int)
    : ∃ walls, Run (schedule.showing zone) wall walls (schedule.firstShown zone wall) := by
  fun_induction firstShown schedule zone wall with
  | case1 wall offset shown => exact ⟨[wall], Run.last (by rw [showing, shown])⟩
  | case2 wall first second shown => exact ⟨[wall], Run.last (by rw [showing, shown])⟩
  | case3 wall skipped found => exact ⟨[wall], Run.last (by simp only [showing, skipped, found])⟩
  | case4 wall skipped later found ih =>
      obtain ⟨walls, run⟩ := ih
      exact ⟨wall :: walls, Run.more (by simp only [showing, skipped, found]) run⟩

/-- Only a later due time is looked at next. -/
theorem lt_of_showing {schedule : Schedule} {zone : Zone} {wall further : Int}
    (goes : schedule.showing zone wall = .again further)
    : wall < further := by
  rw [showing] at goes
  split at goes
  · simp at goes
  · simp at goes
  · split at goes
    · simp at goes
    · next later found =>
      obtain rfl := Round.again.inj goes
      exact lt_of_nextFrom found

end Schedule

-----------------------------------------------------------------------------------------
-- Bisection
-----------------------------------------------------------------------------------------

namespace Zone

/-- A round of the bisection of a range. -/
def halving (isNear : Int → Bool) (range : Int × Int) : Round (Int × Int) Int :=
  if 1 < range.2 - range.1 then
    let middle := range.1 + (range.2 - range.1) / 2
    if isNear middle then .again (middle, range.2) else .again (range.1, middle)
  else .done range.2

/-- Bisection runs through the ranges that it cuts off, by its own induction. -/
theorem exists_run_bisect (isNear : Int → Bool) (low high : Int)
    : ∃ ranges, Run (halving isNear) (low, high) ranges (bisect isNear low high) := by
  fun_induction bisect isNear low high with
  | case1 low high wide middle near ih =>
      obtain ⟨ranges, run⟩ := ih
      exact ⟨(low, high) :: ranges, Run.more (by simp [halving, wide, near, middle]) run⟩
  | case2 low high wide middle far ih =>
      obtain ⟨ranges, run⟩ := ih
      exact ⟨(low, high) :: ranges, Run.more (by simp [halving, wide, far, middle]) run⟩
  | case3 low high narrow => exact ⟨[(low, high)], Run.last (by simp [halving, narrow])⟩

/-- Halving a range leaves a narrower one, since its middle lies inside. -/
theorem narrows_of_halving {isNear : Int → Bool} {wide narrow : Int × Int}
    (goes : halving isNear wide = .again narrow)
    : narrow.2 - narrow.1 < wide.2 - wide.1 := by
  rw [halving] at goes
  split at goes
  · next long =>
    dsimp only at goes
    split at goes
    · obtain rfl := Round.again.inj goes
      dsimp only
      omega
    · obtain rfl := Round.again.inj goes
      dsimp only
      omega
  · simp at goes

end Zone

-----------------------------------------------------------------------------------------
-- All searches
-----------------------------------------------------------------------------------------

/-- The searches end for every schedule and every zone, even if what the zone says of
offsets and of wall-clock times does not fit together. The search for a due time goes on
from one date to a later one, in years that are searched, and ends with a time or behind
the last year; the search for a time that the clock shows goes on from one due time to a
later one, and bisection from one range to a narrower one.
-/
theorem searches_progress (schedule : Schedule) (zone : Zone)
    : Progresses schedule.probing schedule.search
        (fun early late => (schedule.settle early).DateBefore (schedule.settle late))
      ∧ (∀ start inclusive,
          ∃ bounds last,
            Run schedule.probing
              (if inclusive then Cursor.ofTime start else (Cursor.ofTime start).next)
              (bounds ++ [last]) (schedule.nextFrom start inclusive)
            ∧ (∀ bound ∈ bounds, (schedule.settle bound).year ≤ Schedule.lastYear)
            ∧ (schedule.nextFrom start inclusive = none
                ↔ Schedule.lastYear < (schedule.settle last).year))
      ∧ Progresses (schedule.showing zone) (schedule.firstShown zone) (· < ·)
      ∧ ∀ isNear,
          Progresses (Zone.halving isNear) (fun range => Zone.bisect isNear range.1 range.2)
            (fun wide narrow => narrow.2 - narrow.1 < wide.2 - wide.1) := by
  refine ⟨?_, ?_, ?_, ?_⟩
  · exact progresses_of_runs (fun goes => (Schedule.settle_dateBefore_of_probing goes).2)
      Cursor.DateBefore.trans schedule.exists_run_search
  · intro start inclusive
    obtain ⟨states, run⟩ := schedule.exists_run_search
      (if inclusive then Cursor.ofTime start else (Cursor.ofTime start).next)
    obtain ⟨bounds, last, rfl, ends, earlier⟩ := run.exists_last
    refine ⟨bounds, last, run, ?_, Schedule.late_of_probing ends⟩
    intro bound member
    obtain ⟨further, goes⟩ := earlier bound member
    exact (Schedule.settle_dateBefore_of_probing goes).1
  · exact progresses_of_runs Schedule.lt_of_showing Int.lt_trans
      (schedule.exists_run_firstShown zone)
  · intro isNear
    exact progresses_of_runs Zone.narrows_of_halving
      (fun first second => Int.lt_trans second first)
      fun range => Zone.exists_run_bisect isNear range.1 range.2

end Cadence
