import Cadence.Occurrence
import Cadence.Proofs.Zone.RuleReadings
import Mathlib.Data.List.Pairwise

/-! The order in which rules are added to a zone makes no difference. A new rule has to fit
the zone and to share no year with the rules before it, and sharing goes both ways; so a
zone takes a list of rules when each of them fits and no two share a year. Then at most one
rule covers a year, and it is found wherever it stands.
-/

namespace Cadence

namespace DaylightRule

variable {left right : DaylightRule}

/-- No year is covered by both of two rules. -/
def Apart (left right : DaylightRule) : Prop :=
  ∀ year, left.covers year → right.covers year = false

theorem Apart.symm (apart : left.Apart right) : right.Apart left := by
  intro year inRight
  rw [Bool.eq_false_iff]
  intro inLeft
  simp [apart year inLeft] at inRight

instance : Std.Symm Apart :=
  ⟨fun _ _ => Apart.symm⟩

/-- Rules that have years overlap exactly if they are not apart: the later of the first years
is covered by both if any year is.
-/
theorem overlaps_iff (leftYears : left.firstYear ≤ left.lastYear)
    (rightYears : right.firstYear ≤ right.lastYear)
    : left.overlaps right ↔ ¬ left.Apart right := by
  simp only [overlaps, Apart, covers, Bool.and_eq_true, decide_eq_true_eq, not_forall,
    Bool.not_eq_false]
  constructor
  · intro overlap
    exact ⟨max left.firstYear right.firstYear, by omega, by omega⟩
  · rintro ⟨year, inLeft, inRight⟩
    omega

/-- A rule has years, its offset is in range, and its times have dates in every year. -/
structure Fits (standard : Int) (rule : DaylightRule) : Prop where
  years : rule.firstYear ≤ rule.lastYear
  offset : (RuleZone.offset? (standard + rule.delta)).isSome
  dated : rule.start.isYearly ∧ rule.stop.isYearly

/-- Every rule fits, and no two of them share a year. -/
structure Compatible (standard : Int) (rules : List DaylightRule) : Prop where
  fits : ∀ rule ∈ rules, rule.Fits standard
  apart : rules.Pairwise Apart

namespace Compatible

variable {standard : Int} {rules others : List DaylightRule}

theorem nil (standard : Int) : Compatible standard [] :=
  ⟨List.forall_mem_nil _, List.Pairwise.nil⟩

theorem of_append (compatible : Compatible standard (rules ++ others))
    : Compatible standard rules :=
  ⟨fun rule member => compatible.fits rule (List.mem_append_left others member),
    (List.pairwise_append.mp compatible.apart).1⟩

/-- One more rule is compatible exactly if it fits and shares no year with any other. -/
theorem concat_iff {rule : DaylightRule} (compatible : Compatible standard rules)
    : Compatible standard (rules ++ [rule])
      ↔ rule.Fits standard ∧ ∀ other ∈ rules, other.Apart rule := by
  constructor
  · intro extended
    refine ⟨extended.fits rule (by simp), ?_⟩
    intro other member
    exact (List.pairwise_append.mp extended.apart).2.2 other member rule (by simp)
  · rintro ⟨fits, free⟩
    constructor
    · rw [List.forall_mem_append]
      exact ⟨compatible.fits, by simpa using fits⟩
    · refine List.pairwise_append.mpr ⟨compatible.apart, by simp, ?_⟩
      simpa using free

/-- Compatible rules stay so in every order, since sharing a year goes both ways. -/
theorem perm (compatible : Compatible standard rules) (perm : rules.Perm others)
    : Compatible standard others := by
  refine ⟨fun rule member => compatible.fits rule (perm.mem_iff.mpr member), ?_⟩
  exact compatible.apart.perm perm Apart.symm

/-- Of compatible rules at most one covers a year, and it is the one that is found. -/
theorem find?_eq_some_iff (compatible : Compatible standard rules) {year : Int}
    {rule : DaylightRule}
    : rules.find? (·.covers year) = some rule ↔ rule ∈ rules ∧ rule.covers year := by
  constructor
  · intro found
    have covers := List.find?_some found
    exact ⟨List.mem_of_find?_eq_some found, covers⟩
  · rintro ⟨member, covers⟩
    cases found : rules.find? (·.covers year) with
    | none => exact absurd covers (List.find?_eq_none.mp found rule member)
    | some other =>
        have present := List.mem_of_find?_eq_some found
        have alsoCovers := List.find?_some found
        by_contra differ
        have distinct : other ≠ rule := fun same => differ (congrArg some same)
        have apart := compatible.apart.forall present member distinct
        simp [apart year alsoCovers] at covers

/-- The rule of a year does not depend on the order of compatible rules. -/
theorem find?_perm (compatible : Compatible standard rules) (perm : rules.Perm others)
    (year : Int)
    : rules.find? (·.covers year) = others.find? (·.covers year) := by
  apply Option.ext
  intro rule
  rw [compatible.find?_eq_some_iff, (compatible.perm perm).find?_eq_some_iff, perm.mem_iff]

end Compatible

end DaylightRule

open DaylightRule

namespace RuleZone

variable {zone left right : RuleZone}

-----------------------------------------------------------------------------------------
-- Adding rules
-----------------------------------------------------------------------------------------

/-- A rule is added exactly if it fits the zone and overlaps no rule before it. -/
theorem add_eq_ok_iff {rule : DaylightRule} {extended : RuleZone}
    : zone.add rule = .ok extended
      ↔ rule.Fits zone.standard
        ∧ (∀ other ∈ zone.rules, ¬ other.overlaps rule)
        ∧ extended = { zone with rules := zone.rules ++ [rule] } := by
  have inRange : (zone.daylight? rule).isNone = false
      ↔ (offset? (zone.standard + rule.delta)).isSome := by
    rw [daylight?, Option.isNone_eq_false_iff]
  constructor
  · intro added
    rw [add] at added
    split at added
    · cases added
    · next years =>
      split at added
      · cases added
      · next free =>
        split at added
        · cases added
        · next offset =>
          split at added
          · cases added
          · next dated =>
            refine ⟨⟨Int.not_lt.mp years, ?_, ?_⟩, List.find?_eq_none.mp free,
              (Except.ok.inj added).symm⟩
            · simpa only [Bool.not_eq_true, inRange] using offset
            · simpa using dated
  · rintro ⟨⟨years, offset, dated⟩, free, rfl⟩
    rw [add, if_neg (Int.not_lt.mpr years), List.find?_eq_none.mpr free]
    simp [inRange.mpr offset, dated]

/-- A rule is added to compatible ones exactly if it is compatible with them. -/
theorem add_eq_ok_iff_compatible {rule : DaylightRule} {extended : RuleZone}
    (compatible : Compatible zone.standard zone.rules)
    : zone.add rule = .ok extended
      ↔ Compatible zone.standard (zone.rules ++ [rule])
        ∧ extended = { zone with rules := zone.rules ++ [rule] } := by
  rw [add_eq_ok_iff, compatible.concat_iff, and_assoc]
  apply and_congr_right
  intro fits
  apply and_congr_left'
  refine forall₂_congr fun other member => ?_
  rw [overlaps_iff (compatible.fits other member).years fits.years, not_not]

/-- Rules are added one after the other exactly if all of them are compatible with each
other and with those that were there before, by induction on them.
-/
theorem addAll_eq_ok_iff {rules : List DaylightRule} {extended : RuleZone}
    (compatible : Compatible zone.standard zone.rules)
    : zone.addAll rules = .ok extended
      ↔ Compatible zone.standard (zone.rules ++ rules)
        ∧ extended = { zone with rules := zone.rules ++ rules } := by
  induction rules generalizing zone with
  | nil =>
      simp only [addAll, List.foldlM_nil, List.append_nil, compatible, true_and]
      exact ⟨fun same => (Except.ok.inj same).symm, fun same => congrArg Except.ok same.symm⟩
  | cons rule rules ih =>
      have split : zone.addAll (rule :: rules) = zone.add rule >>= (·.addAll rules) :=
        List.foldlM_cons
      rw [split, List.append_cons]
      constructor
      · intro added
        cases step : zone.add rule with
        | error error =>
            rw [step] at added
            cases added
        | ok between =>
            obtain ⟨soFar, rfl⟩ := (add_eq_ok_iff_compatible compatible).mp step
            rw [step] at added
            exact (ih soFar).mp added
      · rintro ⟨all, rfl⟩
        have soFar := all.of_append
        rw [(add_eq_ok_iff_compatible compatible).mpr ⟨soFar, rfl⟩]
        exact (ih soFar).mpr ⟨all, rfl⟩

theorem addAll_bare_iff {name : String} {standard : Int} {rules : List DaylightRule}
    {zone : RuleZone}
    : (bare name standard).addAll rules = .ok zone
      ↔ Compatible standard rules ∧ zone = ⟨name, standard, rules⟩ := by
  have start : Compatible (bare name standard).standard (bare name standard).rules :=
    Compatible.nil standard
  exact addAll_eq_ok_iff start

-----------------------------------------------------------------------------------------
-- What a zone knows of its rules
-----------------------------------------------------------------------------------------

/-- Two zones tell the same of every time, to the nanosecond. -/
structure Same (left right : RuleZone) : Prop where
  offsets : left.offsetAtStamp = right.offsetAtStamp
  readings : left.classifyStamp = right.classifyStamp

namespace Same

theorem zone_eq (same : Same left right) : left.zone = right.zone := by
  have offsets : left.offsetAt = right.offsetAt := by
    funext moment
    rw [RuleZone.offsetAt, RuleZone.offsetAt, same.offsets]
  have readings : left.classify = right.classify := by
    funext wall
    rw [RuleZone.classify, RuleZone.classify, same.readings]
  rw [zone, zone, offsets, readings]

theorem windows (same : Same left right) : left.windowOfStamp? = right.windowOfStamp? := by
  funext wall
  rw [windowOfStamp?, windowOfStamp?, same.readings, same.zone_eq]

end Same

/-- Zones with one standard time and the same rule for every year are the same. -/
theorem same_of_ruleFor? (standard : left.standard = right.standard)
    (rules : ∀ year, left.ruleFor? year = right.ruleFor? year)
    : Same left right := by
  have daylight (rule : DaylightRule) : left.daylight rule = right.daylight rule := by
    rw [RuleZone.daylight, RuleZone.daylight, daylight?, daylight?, standard]
  have changes (rule : DaylightRule) (year : Int)
      : left.changes? rule year = right.changes? rule year := by
    simp only [changes?, standard, daylight]
  have offsets : left.offsetAtStamp = right.offsetAtStamp := by
    funext time
    simp only [offsetAtStamp, standard, rules, changes, daylight]
  refine ⟨offsets, ?_⟩
  funext wall
  simp only [classifyStamp, shows, standard, rules, daylight, offsets]

/-- Zones that are made from the same rules in different orders are the same. -/
theorem same_of_perm {name : String} {standard : Int} {rules others : List DaylightRule}
    (perm : rules.Perm others) (first : (bare name standard).addAll rules = .ok left)
    (second : (bare name standard).addAll others = .ok right)
    : Same left right := by
  obtain ⟨compatible, rfl⟩ := addAll_bare_iff.mp first
  obtain ⟨_, rfl⟩ := addAll_bare_iff.mp second
  exact same_of_ruleFor? rfl (compatible.find?_perm perm)

/-- Rules that are added in another order are taken or refused as before, and once taken
they give the same offsets, classifications and windows, at whole seconds and in between,
and so the same occurrences.
-/
theorem addAll_anyOrder (name : String) (standard : Int) {rules others : List DaylightRule}
    (perm : rules.Perm others)
    : ((∃ zone, (bare name standard).addAll rules = .ok zone)
        ↔ ∃ zone, (bare name standard).addAll others = .ok zone)
      ∧ ∀ left right,
          (bare name standard).addAll rules = .ok left
          → (bare name standard).addAll others = .ok right
          → (∀ instant, left.offsetAt instant = right.offsetAt instant)
            ∧ (∀ wall,
                left.classify wall = right.classify wall
                ∧ left.zone.window? wall = right.zone.window? wall)
            ∧ (∀ (schedule : Schedule) (after : Moment),
                schedule.nextIn left.zone after = schedule.nextIn right.zone after)
            ∧ ∀ time : Stamp,
                left.offsetAtStamp time = right.offsetAtStamp time
                ∧ left.classifyStamp time = right.classifyStamp time
                ∧ left.windowOfStamp? time = right.windowOfStamp? time := by
  have taken (rules : List DaylightRule)
      : (∃ zone, (bare name standard).addAll rules = .ok zone) ↔ Compatible standard rules := by
    simp only [addAll_bare_iff, exists_and_left, exists_eq, and_true]
  constructor
  · rw [taken, taken]
    exact ⟨fun compatible => compatible.perm perm, fun compatible => compatible.perm perm.symm⟩
  · intro left right first second
    have same := same_of_perm perm first second
    refine ⟨?_, ?_, ?_, ?_⟩
    · exact congrFun (congrArg Zone.offsetAt same.zone_eq)
    · exact fun wall =>
        ⟨congrFun (congrArg Zone.classify same.zone_eq) wall, by rw [same.zone_eq]⟩
    · intro schedule after
      rw [same.zone_eq]
    · exact fun time =>
        ⟨congrFun same.offsets time, congrFun same.readings time, congrFun same.windows time⟩

/-- The rules of the zone whose daylight time deepens, added the other way round. -/
theorem addAll_anyOrder_deepening
    : [overNewYear 2020 3600, overNewYear 2021 7200].Perm
        [overNewYear 2021 7200, overNewYear 2020 3600]
      ∧ ∃ turned,
          (bare "Seam" 0).addAll [overNewYear 2021 7200, overNewYear 2020 3600] = .ok turned
          ∧ turned.rules ≠ deepening.rules
          ∧ deepening.offsetAt 1609457400 = 3600
          ∧ turned.offsetAt 1609457400 = 3600 := by
  have perm : [overNewYear 2020 3600, overNewYear 2021 7200].Perm
      [overNewYear 2021 7200, overNewYear 2020 3600] :=
    List.Perm.swap _ _ _
  obtain ⟨taken, same⟩ := addAll_anyOrder "Seam" 0 perm
  obtain ⟨turned, added⟩ := taken.mp ⟨deepening, by rfl⟩
  obtain ⟨offsets, _, _⟩ := same deepening turned (by rfl) added
  have before : deepening.offsetAt 1609457400 = 3600 := by decide +kernel
  refine ⟨perm, turned, added, ?_, before, (offsets _).symm.trans before⟩
  obtain ⟨_, rfl⟩ := addAll_bare_iff.mp added
  decide

end RuleZone

end Cadence
