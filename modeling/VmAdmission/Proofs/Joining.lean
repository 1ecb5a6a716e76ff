import Mathlib.Data.Nat.Find
import VmAdmission.Proofs.Deployments

namespace VmAdmission

section

variable {failures : List (Duration × Halt)} {first : Duration × Halt}

theorem earliest?_eq_none (found : earliest? failures = none) : failures = [] := by
  cases failures with
  | nil => rfl
  | cons failure failures =>
    unfold earliest? at found
    split at found <;> cases found

theorem earliest?_le (found : earliest? failures = some first) :
    ∀ other ∈ failures, first.1 ≤ other.1 := by
  induction failures generalizing first with
  | nil => cases found
  | cons failure failures ih =>
    intro other listed
    unfold earliest? at found
    cases later : earliest? failures with
    | none =>
      simp only [later, Option.some.injEq] at found
      rw [earliest?_eq_none later, List.mem_singleton] at listed
      rw [← found, listed]
      exact Nat.le_refl _
    | some next =>
      have after : ∀ other ∈ failures, next.1.millis ≤ other.1.millis := ih later
      simp only [later, Option.some.injEq] at found
      split at found
      · rename_i sooner
        subst found
        rcases List.mem_cons.mp listed with rfl | listed
        · exact Nat.le_refl _
        · exact Nat.le_trans sooner (after other listed)
      · rename_i notSooner
        subst found
        rcases List.mem_cons.mp listed with rfl | listed
        · exact Nat.le_of_lt (Nat.lt_of_not_le notSooner)
        · exact after other listed

/-- Failures that come at the same time are the same. -/
def NoTies (failures : List (Duration × Halt)) : Prop :=
  ∀ first ∈ failures, ∀ second ∈ failures, first.1 = second.1 → first = second

/-- Without ties, the order of the failures is of no matter. -/
theorem earliest?_perm {others : List (Duration × Halt)} (perm : failures.Perm others)
    (alone : NoTies failures) : earliest? failures = earliest? others := by
  cases found : earliest? failures with
  | none =>
    rw [earliest?_eq_none found] at perm
    rw [perm.symm.eq_nil]
    rfl
  | some one =>
    cases alsoFound : earliest? others with
    | none =>
      rw [earliest?_eq_none alsoFound] at perm
      rw [perm.eq_nil] at found
      cases found
    | some other =>
      have oneListed := earliest?_mem found
      have otherListed := perm.mem_iff.mpr (earliest?_mem alsoFound)
      have le : one.1 ≤ other.1 := earliest?_le found other otherListed
      have ge : other.1 ≤ one.1 := earliest?_le alsoFound one (perm.mem_iff.mp oneListed)
      have same : one.1 = other.1 := Duration.le_antisymm le ge
      rw [alone one oneListed other otherListed same]

end

/-- A check that is awaited: the lookup that it begins with, when it is over, and how it failed, if
it did. -/
structure Awaited where
  lookup : Lookup
  ends : Duration
  failure : Option Halt

namespace Awaited

def failure? (awaited : Awaited) : Option (Duration × Halt) :=
  awaited.failure.map (awaited.ends, ·)

def FailsAtOnce (awaited : Awaited) : Prop :=
  awaited.ends = ⟨0⟩ ∧ awaited.failure ≠ none

instance (awaited : Awaited) : Decidable awaited.FailsAtOnce :=
  decidable_of_iff (awaited.ends = ⟨0⟩ ∧ awaited.failure.isSome)
    (and_congr_right fun _ => Option.isSome_iff_ne_none)

theorem failure?_eq_none {awaited : Awaited} :
    awaited.failure? = none ↔ awaited.failure = none :=
  Option.map_eq_none_iff

theorem failure?_eq_some {awaited : Awaited} {failure : Duration × Halt} :
    awaited.failure? = some failure ↔
      awaited.ends = failure.1 ∧ awaited.failure = some failure.2 := by
  rw [failure?, Option.map_eq_some_iff]
  constructor
  · rintro ⟨halt, failed, rfl⟩
    exact ⟨rfl, failed⟩
  · rintro ⟨ends, failed⟩
    exact ⟨failure.2, failed, Prod.ext ends rfl⟩

theorem mem_failures {all : List Awaited} {failure : Duration × Halt} :
    failure ∈ all.filterMap Awaited.failure? ↔
      ∃ awaited ∈ all, awaited.ends = failure.1 ∧ awaited.failure = some failure.2 := by
  simp only [List.mem_filterMap, failure?_eq_some]

end Awaited

/-- A look at what is awaited: what is over and did not fail is put aside, and the first that is
over and failed is the end. -/
def look (now : Duration) : List Awaited → Except Halt (List Awaited)
  | [] => .ok []
  | awaited :: others =>
    if awaited.ends ≤ now then
      match awaited.failure with
      | some halt => .error halt
      | none => look now others
    else (look now others).map (awaited :: ·)

/-- The lookups that the first look begins, those of the checks that it comes to: it ends with one
that fails at once. -/
def begun : List Awaited → List Lookup
  | [] => []
  | awaited :: others =>
    awaited.lookup :: if awaited.FailsAtOnce then [] else begun others

/-- A later look, no later than the next end, at all that is still awaited. -/
structure LooksAgain (waiting : List Awaited) (now next : Duration) (order : List Awaited) :
    Prop where
  waited : waiting ≠ []
  later : now.millis < next.millis
  timely : ∀ awaited ∈ waiting, next ≤ awaited.ends
  same : order.Perm waiting

/-- What may come of what is still awaited after a look, and when. -/
inductive Awaits : List Awaited → Duration → Duration → Option Halt → Prop
  | done {now : Duration} : Awaits [] now now none
  | failed {waiting order : List Awaited} {now next : Duration} {halt : Halt}
      (again : LooksAgain waiting now next order) (looked : look next order = .error halt) :
      Awaits waiting now next (some halt)
  | waits {waiting order left : List Awaited} {now next ended : Duration} {outcome : Option Halt}
      (again : LooksAgain waiting now next order) (looked : look next order = .ok left)
      (rest : Awaits left next ended outcome) : Awaits waiting now ended outcome

/-- What may come of checks that are awaited together, and when. -/
inductive Joined (all : List Awaited) : Duration → Option Halt → Prop
  | failed {halt : Halt} (looked : look ⟨0⟩ all = .error halt) : Joined all ⟨0⟩ (some halt)
  | waits {left : List Awaited} {ended : Duration} {outcome : Option Halt}
      (looked : look ⟨0⟩ all = .ok left) (rest : Awaits left ⟨0⟩ ended outcome) :
      Joined all ended outcome

section

variable {all left others : List Awaited} {awaited : Awaited} {now : Duration}

/-- What is not the end of a look is put aside, or is still awaited after it. -/
theorem look_cons_ok (looked : look now (awaited :: others) = .ok left) :
    (awaited.ends ≤ now ∧ awaited.failure = none ∧ look now others = .ok left) ∨
      (¬ awaited.ends ≤ now ∧ ∃ after, look now others = .ok after ∧ left = awaited :: after) := by
  unfold look at looked
  split at looked
  · rename_i due
    split at looked
    · cases looked
    · exact .inl ⟨due, ‹_›, looked⟩
  · rename_i going
    cases rest : look now others with
    | error halt =>
      rw [rest] at looked
      cases looked
    | ok after =>
      rw [rest] at looked
      cases looked
      exact .inr ⟨going, after, rfl, rfl⟩

/-- A look ends with what has failed, or goes on with what is after it. -/
theorem look_cons_error {halt : Halt} (looked : look now (awaited :: others) = .error halt) :
    (awaited.ends ≤ now ∧ awaited.failure = some halt) ∨
      ((awaited.failure = none ∨ ¬ awaited.ends ≤ now) ∧ look now others = .error halt) := by
  unfold look at looked
  split at looked
  · rename_i due
    split at looked
    · cases looked
      exact .inl ⟨due, ‹_›⟩
    · exact .inr ⟨.inl ‹_›, looked⟩
  · rename_i going
    cases rest : look now others with
    | error other =>
      rw [rest] at looked
      cases looked
      exact .inr ⟨.inr going, rfl⟩
    | ok after =>
      rw [rest] at looked
      cases looked

/-- After a look, what is not over is still awaited. -/
theorem mem_look (looked : look now all = .ok left) (awaited : Awaited) :
    awaited ∈ left ↔ awaited ∈ all ∧ ¬ awaited.ends ≤ now := by
  induction all generalizing left with
  | nil =>
    cases looked
    simp
  | cons first others ih =>
    rcases look_cons_ok looked with ⟨due, -, rest⟩ | ⟨going, after, rest, rfl⟩
    · rw [ih rest, List.mem_cons]
      constructor
      · exact fun ⟨listed, goes⟩ => ⟨.inr listed, goes⟩
      · rintro ⟨rfl | listed, goes⟩
        · exact absurd due goes
        · exact ⟨listed, goes⟩
    · rw [List.mem_cons, List.mem_cons, ih rest]
      constructor
      · rintro (rfl | ⟨listed, goes⟩)
        · exact ⟨.inl rfl, going⟩
        · exact ⟨.inr listed, goes⟩
      · rintro ⟨rfl | listed, goes⟩
        · exact .inl rfl
        · exact .inr ⟨listed, goes⟩

/-- What a look puts aside has not failed. -/
theorem look_failures (looked : look now all = .ok left) :
    left.filterMap Awaited.failure? = all.filterMap Awaited.failure? := by
  induction all generalizing left with
  | nil =>
    cases looked
    rfl
  | cons first others ih =>
    rcases look_cons_ok looked with ⟨-, fine, rest⟩ | ⟨-, after, rest, rfl⟩
    · rw [ih rest, List.filterMap_cons_none (Awaited.failure?_eq_none.mpr fine)]
    · rw [List.filterMap_cons, List.filterMap_cons, ih rest]

theorem look_sublist (looked : look now all = .ok left) : left.Sublist all := by
  induction all generalizing left with
  | nil =>
    cases looked
    exact List.Sublist.refl _
  | cons first others ih =>
    rcases look_cons_ok looked with ⟨-, -, rest⟩ | ⟨-, after, rest, rfl⟩
    · exact (ih rest).cons _
    · exact (ih rest).cons_cons _

/-- What is found failed by a look that is not late has failed first, and of the failures that come
at the same time it is the first in order. -/
theorem look_error {halt : Halt} (timely : ∀ awaited ∈ all, now ≤ awaited.ends)
    (looked : look now all = .error halt) :
    earliest? (all.filterMap Awaited.failure?) = some (now, halt) := by
  induction all with
  | nil => cases looked
  | cons awaited others ih =>
    have timelyAfter : ∀ other ∈ others, now ≤ other.ends := fun other listed =>
      timely other (List.mem_cons_of_mem _ listed)
    rcases look_cons_error looked with ⟨due, failure⟩ | ⟨goes, rest⟩
    · have ends : awaited.ends = now :=
        Duration.le_antisymm due (timely awaited List.mem_cons_self)
      have first : awaited.failure? = some (now, halt) :=
        Awaited.failure?_eq_some.mpr ⟨ends, failure⟩
      rw [List.filterMap_cons_some first, earliest?]
      cases later : earliest? (others.filterMap Awaited.failure?) with
      | none => rfl
      | some other =>
        obtain ⟨source, listed, ends, -⟩ := Awaited.mem_failures.mp (earliest?_mem later)
        exact congrArg some (if_pos (ends ▸ timelyAfter source listed))
    · have later := ih timelyAfter rest
      cases failed : awaited.failure? with
      | none => rw [List.filterMap_cons_none failed, later]
      | some failure =>
        obtain ⟨ends, fails⟩ := Awaited.failure?_eq_some.mp failed
        have going : ¬ awaited.ends ≤ now :=
          goes.resolve_left fun fine => Option.some_ne_none _ (fails.symm.trans fine)
        rw [List.filterMap_cons_some failed, earliest?, later]
        exact congrArg some (if_neg (ends ▸ going))

/-- A lookup is begun unless one of the checks before it fails at once. -/
theorem mem_begun {before after : List Awaited} {awaited : Awaited}
    (distinct : ((before ++ awaited :: after).map Awaited.lookup).Nodup) :
    awaited.lookup ∈ begun (before ++ awaited :: after) ↔
      ∀ earlier ∈ before, ¬ earlier.FailsAtOnce := by
  induction before with
  | nil => simp [begun]
  | cons first before ih =>
    rw [List.cons_append, List.map_cons, List.nodup_cons] at distinct
    have other : awaited.lookup ≠ first.lookup := by
      intro same
      exact distinct.1 (same ▸ List.mem_map_of_mem (List.mem_append_right _ List.mem_cons_self))
    rw [List.cons_append, begun, List.mem_cons, List.forall_mem_cons, or_iff_right other]
    by_cases atOnce : first.FailsAtOnce
    · simp [atOnce]
    · rw [if_neg atOnce, ih distinct.2]
      exact (and_iff_right atOnce).symm

theorem begun_prefix (all : List Awaited) : begun all <+: all.map Awaited.lookup := by
  induction all with
  | nil => exact List.prefix_refl _
  | cons awaited others ih =>
    rw [begun, List.map_cons, List.prefix_cons_inj]
    split
    · exact List.nil_prefix
    · exact ih

end

/-- The end of what is awaited from some time on, if none of it fails. -/
structure LastEnd (waiting : List Awaited) (now ended : Duration) : Prop where
  notBefore : now ≤ ended
  all : ∀ awaited ∈ waiting, awaited.ends ≤ ended
  reached : ended = now ∨ ∃ last ∈ waiting, last.ends = ended

theorem LastEnd.unique {waiting : List Awaited} {now ended other : Duration}
    (first : LastEnd waiting now ended) (second : LastEnd waiting now other) : ended = other := by
  have le : ∀ {a b : Duration}, LastEnd waiting now a → LastEnd waiting now b → a ≤ b := by
    intro a b one two
    rcases one.reached with rfl | ⟨last, listed, rfl⟩
    · exact two.notBefore
    · exact two.all last listed
  exact Duration.le_antisymm (le first second) (le second first)

/-- What checks that are awaited together come to: the failure that comes first, or the last end. -/
structure ComesTo (all : List Awaited) (ended : Duration) (outcome : Option Halt) : Prop where
  failure : earliest? (all.filterMap Awaited.failure?) = outcome.map (ended, ·)
  last : outcome = none → LastEnd all ⟨0⟩ ended

theorem ComesTo.unique {all : List Awaited} {ended other : Duration}
    {outcome otherOutcome : Option Halt} (first : ComesTo all ended outcome)
    (second : ComesTo all other otherOutcome) : ended = other ∧ outcome = otherOutcome := by
  have same := first.failure.symm.trans second.failure
  cases outcome with
  | some halt =>
    cases otherOutcome with
    | none => cases same
    | some otherHalt =>
      cases same
      exact ⟨rfl, rfl⟩
  | none =>
    cases otherOutcome with
    | none => exact ⟨(first.last rfl).unique (second.last rfl), rfl⟩
    | some otherHalt => cases same

theorem ComesTo.first {all : List Awaited} {ended : Duration} {halt : Halt}
    (comes : ComesTo all ended (some halt)) :
    ∃ awaited ∈ all, awaited.failure = some halt ∧ awaited.ends = ended ∧
      ∀ other ∈ all, other.failure ≠ none → awaited.ends ≤ other.ends := by
  obtain ⟨awaited, listed, rfl, failed⟩ := Awaited.mem_failures.mp (earliest?_mem comes.failure)
  refine ⟨awaited, listed, failed, rfl, fun other otherListed fails => ?_⟩
  obtain ⟨otherHalt, otherFailed⟩ := Option.ne_none_iff_exists'.mp fails
  have alsoListed : (other.ends, otherHalt) ∈ all.filterMap Awaited.failure? :=
    Awaited.mem_failures.mpr ⟨other, otherListed, rfl, otherFailed⟩
  exact earliest?_le comes.failure _ alsoListed

namespace Awaits

variable {waiting : List Awaited} {now ended : Duration} {outcome : Option Halt}

/-- However and whenever is looked, what fails first is what waiting comes to. -/
theorem failure (run : Awaits waiting now ended outcome)
    (alone : NoTies (waiting.filterMap Awaited.failure?)) :
    earliest? (waiting.filterMap Awaited.failure?) = outcome.map (ended, ·) := by
  induction run with
  | done => rfl
  | failed again looked =>
    rw [earliest?_perm (again.same.symm.filterMap _) alone]
    exact look_error (fun awaited listed => again.timely awaited (again.same.mem_iff.mp listed))
      looked
  | @waits waiting order left now next ended outcome again looked rest ih =>
    -- A look takes no failure away, so what fails first is the same after it.
    have failures := look_failures looked
    have perm := again.same.symm.filterMap Awaited.failure?
    have aloneInOrder : NoTies (order.filterMap Awaited.failure?) :=
      fun first firstListed second secondListed =>
        alone first (perm.mem_iff.mpr firstListed) second (perm.mem_iff.mpr secondListed)
    rw [earliest?_perm perm alone, ← failures]
    exact ih (failures ▸ aloneInOrder)

theorem last (run : Awaits waiting now ended outcome) (passed : outcome = none) :
    LastEnd waiting now ended := by
  induction run with
  | done => exact ⟨Nat.le_refl _, fun _ listed => absurd listed List.not_mem_nil, .inl rfl⟩
  | failed => cases passed
  | @waits waiting order left now next ended outcome again looked rest ih =>
    have after := ih passed
    have members := mem_look looked
    have allEnd : ∀ awaited ∈ waiting, awaited.ends ≤ ended := by
      intro awaited listed
      by_cases aside : awaited.ends ≤ next
      · exact Nat.le_trans aside after.notBefore
      · exact after.all awaited ((members awaited).mpr ⟨again.same.mem_iff.mpr listed, aside⟩)
    refine ⟨Nat.le_trans (Nat.le_of_lt again.later) after.notBefore, allEnd, .inr ?_⟩
    rcases after.reached with rfl | ⟨last, still, ends⟩
    · -- Nothing is left after this look, which came no later than the next end.
      obtain ⟨one, listed⟩ := List.exists_mem_of_ne_nil _ again.waited
      exact ⟨one, listed, Duration.le_antisymm (allEnd one listed) (again.timely one listed)⟩
    · exact ⟨last, again.same.mem_iff.mp ((members last).mp still).1, ends⟩

end Awaits

/-- Something is over no later than all else. -/
theorem exists_soonest {waiting : List Awaited} (waited : waiting ≠ []) :
    ∃ soonest ∈ waiting, ∀ awaited ∈ waiting, soonest.ends ≤ awaited.ends := by
  classical
  obtain ⟨one, listed⟩ := List.exists_mem_of_ne_nil _ waited
  have some : ∃ millis, ∃ awaited ∈ waiting, awaited.ends.millis = millis := ⟨_, one, listed, rfl⟩
  obtain ⟨soonest, soonestListed, ends⟩ := Nat.find_spec some
  exact ⟨soonest, soonestListed, fun awaited listed =>
    ends.trans_le (Nat.find_min' some ⟨awaited, listed, rfl⟩)⟩

/-- Looking whenever something is over, in order, waiting comes to an end, and to the first in order
of the failures that come first. -/
theorem exists_awaits (waiting : List Awaited) (now : Duration)
    (going : ∀ awaited ∈ waiting, ¬ awaited.ends ≤ now) :
    ∃ ended outcome, Awaits waiting now ended outcome ∧
      earliest? (waiting.filterMap Awaited.failure?) = outcome.map (ended, ·) := by
  by_cases waited : waiting = []
  · subst waited
    exact ⟨now, none, .done, rfl⟩
  obtain ⟨soonest, listed, timely⟩ := exists_soonest waited
  have again : LooksAgain waiting now soonest.ends waiting :=
    ⟨waited, Nat.lt_of_not_le (going soonest listed), timely, List.Perm.refl _⟩
  cases looked : look soonest.ends waiting with
  | error halt => exact ⟨_, some halt, .failed again looked, look_error timely looked⟩
  | ok left =>
    have members := mem_look looked
    have shorter : left.length < waiting.length := by
      have sub := look_sublist looked
      refine Nat.lt_of_le_of_ne sub.length_le fun same => ?_
      have unchanged := sub.eq_of_length same
      exact ((members soonest).mp (unchanged ▸ listed)).2 (Nat.le_refl _)
    obtain ⟨ended, outcome, run, first⟩ :=
      exists_awaits left soonest.ends fun awaited still => ((members awaited).mp still).2
    exact ⟨ended, outcome, .waits again looked run, look_failures looked ▸ first⟩
termination_by waiting.length

/-- No different failures come at the same time, other than at once. -/
def NoLaterTies (all : List Awaited) : Prop :=
  ∀ first ∈ all, ∀ second ∈ all, first.failure ≠ none → second.failure ≠ none →
    first.ends = second.ends → first.ends ≠ ⟨0⟩ → first.failure = second.failure

section

variable {all left : List Awaited} {ended : Duration} {outcome : Option Halt}

/-- What is still awaited after the first look fails later. -/
theorem NoLaterTies.noTies (alone : NoLaterTies all) (looked : look ⟨0⟩ all = .ok left) :
    NoTies (left.filterMap Awaited.failure?) := by
  have members := mem_look looked
  intro first firstFails second secondFails same
  obtain ⟨one, oneListed, oneEnds, oneFailure⟩ := Awaited.mem_failures.mp firstFails
  obtain ⟨two, twoListed, twoEnds, twoFailure⟩ := Awaited.mem_failures.mp secondFails
  obtain ⟨oneListed, oneLater⟩ := (members one).mp oneListed
  obtain ⟨twoListed, -⟩ := (members two).mp twoListed
  have later : one.ends ≠ ⟨0⟩ := by
    intro atOnce
    exact oneLater (atOnce ▸ Nat.le_refl _)
  have together : one.ends = two.ends := oneEnds.trans (same.trans twoEnds.symm)
  have failures := alone one oneListed two twoListed (by simp [oneFailure]) (by simp [twoFailure])
    together later
  rw [oneFailure, twoFailure, Option.some.injEq] at failures
  exact Prod.ext same failures

theorem comesTo_of_look (looked : look ⟨0⟩ all = .ok left) (run : Awaits left ⟨0⟩ ended outcome)
    (failure : earliest? (left.filterMap Awaited.failure?) = outcome.map (ended, ·)) :
    ComesTo all ended outcome := by
  have members := mem_look looked
  refine ⟨look_failures looked ▸ failure, fun passed => ?_⟩
  have last := run.last passed
  refine ⟨last.notBefore, fun awaited listed => ?_, last.reached.imp_right ?_⟩
  · by_cases atOnce : awaited.ends ≤ ⟨0⟩
    · exact Nat.le_trans atOnce last.notBefore
    · exact last.all awaited ((members awaited).mpr ⟨listed, atOnce⟩)
  · rintro ⟨one, still, ends⟩
    exact ⟨one, ((members one).mp still).1, ends⟩

theorem comesTo_of_look_error {halt : Halt} (looked : look ⟨0⟩ all = .error halt) :
    ComesTo all ⟨0⟩ (some halt) :=
  ⟨look_error (fun _ _ => Nat.zero_le _) looked, nofun⟩

/-- What checks that are awaited together come to does not depend on when and in what order is
looked. -/
theorem Joined.comesTo (run : Joined all ended outcome) (alone : NoLaterTies all) :
    ComesTo all ended outcome := by
  cases run with
  -- Ties at once are decided by the order of the first look, so only later ones are excluded.
  | failed looked => exact comesTo_of_look_error looked
  | waits looked rest => exact comesTo_of_look looked rest (rest.failure (alone.noTies looked))

/-- What checks that are awaited together come to may always come of them. -/
theorem ComesTo.joined (comes : ComesTo all ended outcome) : Joined all ended outcome := by
  obtain ⟨when, what, run, also⟩ : ∃ when what, Joined all when what ∧ ComesTo all when what := by
    cases looked : look ⟨0⟩ all with
    | error halt => exact ⟨_, _, .failed looked, comesTo_of_look_error looked⟩
    | ok left =>
      have members := mem_look looked
      obtain ⟨when, what, rest, failure⟩ :=
        exists_awaits left ⟨0⟩ fun awaited still => ((members awaited).mp still).2
      exact ⟨when, what, .waits looked rest, comesTo_of_look looked rest failure⟩
  obtain ⟨rfl, rfl⟩ := comes.unique also
  exact run

end

end VmAdmission
