import Mathlib.Logic.Function.Basic
import StageManifest.Proofs.Stage.Growth
import StageManifest.Proofs.Stage.Names
import StageManifest.Proofs.Text.Cuts

/-!
# Names drawn from several sources

Sources of names are called in some order, each call at one of them.  A source
hands out its names in their order whatever is drawn from the others
(`afterCalls_eq`), so a name is known by its source and by how often that one was
called before (`exists_of_mem_drawn`).  A numbered name tells both: it is cut at its
last dash, since a number has none (`stem_eq_of_next_numbered`).  Hence sources with
different stems never hand out the same name (`nodup_drawn_numbered`).

A job at the workbench calls its source once if it starts a stage and not at all if a
stage grows in it.  So the stages that jobs start, in the order of the jobs, have the
names that are drawn in as many calls (`names_started`).
-/

set_option autoImplicit false

namespace StageManifest

namespace NameSource

variable {ι : Type} [DecidableEq ι]

/-- The sources after a call at one of them. -/
def afterCall (sources : ι → NameSource) (caller : ι) : ι → NameSource :=
  Function.update sources caller (sources caller).next.2

/-- The sources after calls in the given order. -/
def afterCalls (sources : ι → NameSource) (calls : List ι) : ι → NameSource :=
  calls.foldl afterCall sources

/-- The names that are handed out in calls at some sources, in the order of the calls. -/
def drawn (sources : ι → NameSource) : List ι → List String
  | [] => []
  | caller :: calls => (sources caller).next.1 :: drawn (afterCall sources caller) calls

/-! ## Each source on its own -/

theorem afterCalls_concat (sources : ι → NameSource) (calls : List ι) (caller : ι) :
    afterCalls sources (calls ++ [caller]) = afterCall (afterCalls sources calls) caller := by
  rw [afterCalls, List.foldl_append]
  rfl

/-- A source hands out its names in their order, whatever is drawn from the others. -/
theorem afterCalls_eq (sources : ι → NameSource) (calls : List ι) (caller : ι) :
    afterCalls sources calls caller = (sources caller).after (calls.count caller) := by
  induction calls using List.reverseRecOn with
  | nil => rfl
  | append_singleton calls last ih =>
      rw [afterCalls_concat, afterCall, List.count_append]
      by_cases isLast : caller = last
      · subst isLast
        rw [Function.update_self, ih, List.count_singleton_self, after]
      · rw [Function.update_of_ne isLast, ih, List.count_singleton, if_neg]
        · rfl
        · simpa using Ne.symm isLast

theorem drawn_concat (sources : ι → NameSource) (calls : List ι) (caller : ι) :
    drawn sources (calls ++ [caller]) =
      drawn sources calls ++ [((sources caller).after (calls.count caller)).next.1] := by
  rw [← afterCalls_eq]
  induction calls generalizing sources with
  | nil => rfl
  | cons first rest ih =>
      rw [List.cons_append, drawn, drawn, ih, List.cons_append]
      rfl

/-- A name comes from some source, which had been called fewer times before than in all. -/
theorem exists_of_mem_drawn {sources : ι → NameSource} {calls : List ι} {name : String}
    (member : name ∈ drawn sources calls) :
    ∃ caller before, before < calls.count caller ∧
      name = ((sources caller).after before).next.1 := by
  induction calls using List.reverseRecOn with
  | nil => cases member
  | append_singleton calls last ih =>
      rw [drawn_concat, List.mem_append, List.mem_singleton] at member
      rcases member with earlier | rfl
      · obtain ⟨caller, before, less, same⟩ := ih earlier
        refine ⟨caller, before, Nat.lt_of_lt_of_le less ?_, same⟩
        exact (List.sublist_append_left calls [last]).count_le caller
      · refine ⟨last, calls.count last, ?_, rfl⟩
        rw [List.count_append, List.count_singleton_self]
        exact Nat.lt_succ_self _

/-! ## Numbered names -/

/-- A numbered name is cut at its last dash into its stem and the digits of its number. -/
theorem cutLast_next_numbered (stem : String) (number : UInt64) :
    Text.cutLast '-' (numbered stem number).next.1.toList =
      some (stem.toList, Nat.toDigits 10 number.toNat) := by
  rw [Text.cutLast_eq_some_iff]
  constructor
  · simp only [next, String.toList_append, List.append_assoc, Nat.repr_eq_ofList_toDigits,
      String.toList_ofList]
    rfl
  · intro isDigit
    exact absurd (Nat.isDigit_of_mem_toDigits (by decide) (by decide) isDigit) (by decide)

/-- Sources that number their names under different stems hand out different names. -/
theorem stem_eq_of_next_numbered {stem other : String} {first second : UInt64}
    (same : (numbered stem first).next.1 = (numbered other second).next.1) : stem = other := by
  have cuts := cutLast_next_numbered stem first
  rw [same, cutLast_next_numbered other second, Option.some.injEq, Prod.mk.injEq] at cuts
  exact String.toList_inj.mp cuts.1.symm

variable {stems : ι → String}

/-- **Names of sources with different stems do not repeat** until some counter starts again. -/
theorem nodup_drawn_numbered (different : Function.Injective stems) (counters : ι → UInt64)
    {calls : List ι} (few : ∀ caller, calls.count caller ≤ UInt64.size) :
    (drawn (fun caller => numbered (stems caller) (counters caller)) calls).Nodup := by
  induction calls using List.reverseRecOn with
  | nil => exact List.nodup_nil
  | append_singleton calls last ih =>
      have fewer : ∀ caller, calls.count caller ≤ (calls ++ [last]).count caller :=
        (List.sublist_append_left calls [last]).count_le
      rw [drawn_concat, List.nodup_append]
      refine ⟨ih fun caller => (fewer caller).trans (few caller), List.nodup_singleton _, ?_⟩
      intro name earlier other isLast same
      rw [List.mem_singleton] at isLast
      obtain ⟨caller, before, less, isName⟩ := exists_of_mem_drawn earlier
      have names := isName.symm.trans (same.trans isLast)
      obtain rfl : caller = last := by
        rw [after_numbered, after_numbered] at names
        exact different (stem_eq_of_next_numbered names)
      have limit : calls.count caller < UInt64.size := by
        have all := few caller
        rw [List.count_append, List.count_singleton_self] at all
        exact all
      exact Nat.ne_of_lt less (eq_of_next_after_numbered (less.trans limit) limit names)

end NameSource

/-! ## Jobs -/

namespace StageJob

variable {ι : Type} [DecidableEq ι]

instance (job : StageJob) : Decidable job.Starts :=
  match job with
  | .onImage _ => .isTrue trivial
  | .onStage _ => .isTrue trivial
  | .grow _ _ => .isFalse id

/-- **A job that starts a stage draws one name, which is the stage's, and no other job draws any.** -/
theorem draws (job : StageJob) (bench : Workbench) :
    (job.perform.run bench).2.names =
        (if job.Starts then bench.names.next.2 else bench.names) ∧
      (job.Starts → (job.perform.run bench).1.name = bench.names.next.1) := by
  cases job with
  | onImage reference => exact ⟨rfl, fun _ => rfl⟩
  | onStage parent => exact ⟨rfl, fun _ => rfl⟩
  | grow stage growth => exact ⟨(growth.grown stage bench).names, False.elim⟩

/-- The stages that jobs make one after the other, each with names from the source of its caller. -/
def performAll (sources : ι → NameSource) (mark : Nat) : List (ι × StageJob) → List Stage
  | [] => []
  | (caller, job) :: jobs =>
      let made := job.perform.run ⟨sources caller, mark⟩
      made.1 :: performAll (Function.update sources caller made.2.names) made.2.nextMark jobs

/-- The callers of the jobs that start a stage. -/
def starters : List (ι × StageJob) → List ι
  | [] => []
  | (caller, job) :: jobs => if job.Starts then caller :: starters jobs else starters jobs

/-- The names of the stages that jobs started, given the stages that the jobs made. -/
def startedNames : List (ι × StageJob) → List Stage → List String
  | (_, job) :: jobs, stage :: stages =>
      if job.Starts then stage.name :: startedNames jobs stages else startedNames jobs stages
  | _, _ => []

/-- **Stages that jobs start have the names that are drawn in as many calls.** -/
theorem names_started (sources : ι → NameSource) (mark : Nat) (jobs : List (ι × StageJob)) :
    startedNames jobs (performAll sources mark jobs) =
      NameSource.drawn sources (starters jobs) := by
  induction jobs generalizing sources mark with
  | nil => rfl
  | cons first jobs ih =>
      obtain ⟨caller, job⟩ := first
      obtain ⟨names, isName⟩ := job.draws ⟨sources caller, mark⟩
      simp only [performAll, startedNames, starters, ih, names]
      split
      next starts => rw [isName starts, NameSource.drawn, NameSource.afterCall]
      next => rw [Function.update_eq_self]

end StageJob

/-! ## Names of several sources -/

variable {ι : Type} [DecidableEq ι] {stems : ι → String}

/-- **Sources that number names under different stems never hand out a name twice**, in whatever order
they are called, until some counter starts again.  Starting a stage is one such call and growing a
stage is none, so no two stages that are started with names from these sources have the same name. -/
theorem numbered_names_never_meet (different : Function.Injective stems) (counters : ι → UInt64) :
    (∀ calls : List ι, (∀ caller, calls.count caller ≤ UInt64.size) →
      (NameSource.drawn (fun caller => .numbered (stems caller) (counters caller)) calls).Nodup) ∧
    (∀ (job : StageJob) (bench : Workbench),
      (job.perform.run bench).2.names =
          (if job.Starts then bench.names.next.2 else bench.names) ∧
        (job.Starts → (job.perform.run bench).1.name = bench.names.next.1)) ∧
    ∀ (mark : Nat) (jobs : List (ι × StageJob)),
      (∀ caller, (StageJob.starters jobs).count caller ≤ UInt64.size) →
      (StageJob.startedNames jobs (StageJob.performAll
        (fun caller => .numbered (stems caller) (counters caller)) mark jobs)).Nodup := by
  refine ⟨fun calls few => NameSource.nodup_drawn_numbered different counters few,
    StageJob.draws, ?_⟩
  intro mark jobs few
  rw [StageJob.names_started]
  exact NameSource.nodup_drawn_numbered different counters few

/-- The stems `a` and `a-1` for two sources. -/
def nestedStems (isLonger : Bool) : String := if isLonger then "a-1" else "a"

/-- The source with the longer stem hands out its first name before the other one hands out a name
that starts like it. -/
theorem numbered_names_never_meet_under_nested_stems :
    NameSource.drawn (fun caller => .numbered (nestedStems caller) 0) [false, true, false, true] =
        ["a-0", "a-1-0", "a-1", "a-1-1"] ∧
      ["a-0", "a-1-0", "a-1", "a-1-1"].Nodup := by
  have different : ∀ first second, nestedStems first = nestedStems second → first = second := by
    decide
  have names : NameSource.drawn (fun caller => .numbered (nestedStems caller) 0)
      [false, true, false, true] = ["a-0", "a-1-0", "a-1", "a-1-1"] := by
    decide
  refine ⟨names, ?_⟩
  rw [← names]
  exact (numbered_names_never_meet different fun _ => 0).1 _ (by decide)

end StageManifest
