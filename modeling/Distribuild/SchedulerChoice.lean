/-
**How the dispatcher chooses among free servants.**

`UnsafePickUpServant` is meant to find the least loaded servant of a list that passes a filter, and
to return a null pointer if none passes; `UnsafePickUpFreeServant` calls it twice, first for
dedicated machines and then for all.  Two slips make the choice simpler than that.

* The result is initialised with the first servant of the list.  If no servant passes the filter,
  that one is returned, so the pointer is null for the empty list only and the second call is never
  made for a list that is not empty.
* `running_tasks / concurrency` is a quotient of integers, converted to `double` afterwards.  A free
  servant runs fewer tasks than its concurrency, so its utilization is `0`, and of several free
  servants the first one wins.

The module says what the loop computes in general, and from that what it computes for free servants:
the first one that passes, or else the first one.

Main definitions:

* `Scheduler.RespectsFilter`, `Scheduler.StagesRespected` — what a filtered pick, and the two picks
  in a row, should do;
* `Scheduler.exactUtilization`, `Scheduler.LeastLoaded` — the load of a servant as a fraction;
* `Scheduler.firstChoice` — the first that passes, or else the first.

Main results:

* `Scheduler.foldl_pickUpStep_spec` — **the loop finds the first least utilization**, as computed;
* `Scheduler.pick_respects_iff` — when a pick respects its filter;
* `Scheduler.unsafePickUpServant_of_free` — among free servants the pick is the first choice;
* `Scheduler.pick_least_loaded_iff` — when it is the least loaded one.
-/

import Mathlib.Algebra.Order.Field.Rat
import Mathlib.Tactic.NormNum
import Distribuild.SchedulerAccounting

set_option relaxedAutoImplicit false
set_option autoImplicit false

namespace Scheduler

variable {s : TaskDispatcher} {servants : List ServantPtr} {filter : Servant → Bool}

/-! ### The loop -/

/-- A converted quotient is far below the initial value of `min_utilization`. -/
theorem toDouble_lt_doubleMax (n : UInt64) : toDouble n < doubleMax := by
  have hn : n.toNat < 2 ^ 64 := n.toNat_lt
  set e := Nat.log2 n.toNat - 52 with he
  have hlog : Nat.log2 n.toNat < 64 := by
    by_cases h0 : n.toNat = 0
    · rw [h0]
      decide
    · exact (Nat.log2_lt h0).2 hn
  have hpow : 2 ^ e ≤ 2 ^ 64 := Nat.pow_le_pow_right (by decide) (by omega)
  have hdiv : n.toNat / 2 ^ e * 2 ^ e ≤ n.toNat := Nat.div_mul_le_self _ _
  have hsucc : (n.toNat / 2 ^ e + 1) * 2 ^ e ≤ 2 ^ 64 + 2 ^ 64 := by
    rw [Nat.add_mul, Nat.one_mul]
    omega
  have hmax : 2 ^ 64 + 2 ^ 64 < doubleMax := by decide +kernel
  refine Nat.lt_of_le_of_lt ?_ hmax
  simp only [toDouble, ← he]
  split
  · omega
  · exact hsucc

theorem utilization_lt_doubleMax (servant : Servant) : utilization servant < doubleMax :=
  toDouble_lt_doubleMax _

/-- **What the loop ends with**: it stays with what it began with, if no servant that passes is used
less; otherwise it ends with a servant of the list that passes, and none that passes is used
less. -/
theorem foldl_pickUpStep_spec (s : TaskDispatcher) (filter : Servant → Bool)
    (servants : List ServantPtr) (best : ServantPtr × ℕ) :
    let r := servants.foldl (pickUpStep s filter) best
    (r = best ∧ ∀ q ∈ servants, filter (s.heap q) = true → best.2 ≤ utilization (s.heap q)) ∨
    (r.1 ∈ servants ∧ filter (s.heap r.1) = true ∧ r.2 = utilization (s.heap r.1) ∧
      r.2 < best.2 ∧
      ∀ q ∈ servants, filter (s.heap q) = true → r.2 ≤ utilization (s.heap q)) := by
  induction servants generalizing best with
  | nil => exact Or.inl ⟨rfl, fun q hq => absurd hq List.not_mem_nil⟩
  | cons p ps ih =>
      simp only [List.foldl_cons]
      by_cases hpass : filter (s.heap p) = true
      · by_cases hless : utilization (s.heap p) < best.2
        · -- the servant is the best so far
          have hstep : pickUpStep s filter best p = (p, utilization (s.heap p)) := by
            simp [pickUpStep, hpass, hless]
          rw [hstep]
          rcases ih (p, utilization (s.heap p)) with ⟨hr, hall⟩ | ⟨hmem, hf, hu, hlt, hall⟩
          · rw [hr]
            exact Or.inr ⟨List.mem_cons_self, hpass, rfl, hless,
              List.forall_mem_cons.2 ⟨fun _ => Nat.le_refl _, hall⟩⟩
          · exact Or.inr ⟨List.mem_cons_of_mem _ hmem, hf, hu, Nat.lt_trans hlt hless,
              List.forall_mem_cons.2 ⟨fun _ => Nat.le_of_lt hlt, hall⟩⟩
        · have hstep : pickUpStep s filter best p = best := by
            simp [pickUpStep, hless]
          rw [hstep]
          rcases ih best with ⟨hr, hall⟩ | ⟨hmem, hf, hu, hlt, hall⟩
          · exact Or.inl ⟨hr, List.forall_mem_cons.2 ⟨fun _ => Nat.le_of_not_lt hless, hall⟩⟩
          · have hp := Nat.le_trans (Nat.le_of_lt hlt) (Nat.le_of_not_lt hless)
            exact Or.inr ⟨List.mem_cons_of_mem _ hmem, hf, hu, hlt,
              List.forall_mem_cons.2 ⟨fun _ => hp, hall⟩⟩
      · have hstep : pickUpStep s filter best p = best := by
          simp [pickUpStep, hpass]
        rw [hstep]
        rcases ih best with ⟨hr, hall⟩ | ⟨hmem, hf, hu, hlt, hall⟩
        · exact Or.inl ⟨hr, List.forall_mem_cons.2 ⟨fun h => absurd h hpass, hall⟩⟩
        · exact Or.inr ⟨List.mem_cons_of_mem _ hmem, hf, hu, hlt,
            List.forall_mem_cons.2 ⟨fun h => absurd h hpass, hall⟩⟩

/-- If some servant passes the filter, one that passes is returned. -/
theorem unsafePickUpServant_of_passes (h : ∃ p ∈ servants, filter (s.heap p) = true) :
    ∃ p ∈ servants, filter (s.heap p) = true ∧ unsafePickUpServant s servants filter = some p := by
  cases servants with
  | nil =>
      obtain ⟨p, hp, -⟩ := h
      cases hp
  | cons q qs =>
      have hlt := utilization_lt_doubleMax
      rw [unsafePickUpServant]
      -- all that matters of the initial value is that every utilization is below it
      generalize doubleMax = initial at hlt ⊢
      rcases foldl_pickUpStep_spec s filter (q :: qs) (q, initial) with
        ⟨-, hall⟩ | ⟨hmem, hf, -⟩
      · obtain ⟨p, hp, hpass⟩ := h
        exact absurd (hall p hp hpass) (Nat.not_le_of_lt (hlt _))
      · exact ⟨_, hmem, hf, rfl⟩

/-! ### Filters -/

/-- **The pick respects its filter**: it is null exactly if no servant of the list passes, and
otherwise it is a servant of the list that passes. -/
structure RespectsFilter (s : TaskDispatcher) (servants : List ServantPtr)
    (filter : Servant → Bool) : Prop where
  null : unsafePickUpServant s servants filter = none ↔
    ∀ p ∈ servants, filter (s.heap p) = false
  passes : ∀ p, unsafePickUpServant s servants filter = some p →
    p ∈ servants ∧ filter (s.heap p) = true

/-- The free servants that are left when the one on the requester's machine has been set aside. -/
def remaining (s : TaskDispatcher) (freeServants : List ServantPtr) (requestorIp : String) :
    List ServantPtr :=
  freeServants.eraseP fun p => sameIp requestorIp (s.locationOf p)

/-- **The two picks in a row**: a dedicated servant is returned if one is left that is half free,
and otherwise the first pick comes back empty-handed, so that the second one is made. -/
structure StagesRespected (s : TaskDispatcher) (freeServants : List ServantPtr)
    (requestorIp : String) : Prop where
  dedicated : (∃ p ∈ remaining s freeServants requestorIp, isDedicated (s.heap p) = true) →
    ∃ p ∈ remaining s freeServants requestorIp, isDedicated (s.heap p) = true ∧
      unsafePickUpFreeServant s freeServants requestorIp = (some p, true)
  others : (∀ p ∈ remaining s freeServants requestorIp, isDedicated (s.heap p) = false) →
    unsafePickUpServant s (remaining s freeServants requestorIp) isDedicated = none

/-- A list that is empty, or that has a servant that passes. -/
def FilterFits (s : TaskDispatcher) (servants : List ServantPtr) (filter : Servant → Bool) : Prop :=
  servants = [] ∨ ∃ p ∈ servants, filter (s.heap p) = true

/-- If the pointer is null where no servant passes, then the list is empty or some servant
passes. -/
theorem filterFits_of_null (h : (∀ p ∈ servants, filter (s.heap p) = false) →
    unsafePickUpServant s servants filter = none) : FilterFits s servants filter := by
  by_contra hnot
  obtain ⟨hne, hnone⟩ := not_or.1 hnot
  refine hne (unsafePickUpServant_eq_none.1 (h fun p hp => ?_))
  rw [← Bool.not_eq_true]
  exact fun hpass => hnone ⟨p, hp, hpass⟩

theorem respectsFilter_iff : RespectsFilter s servants filter ↔ FilterFits s servants filter := by
  constructor
  · intro h
    exact filterFits_of_null h.null.2
  · rintro (rfl | hpass)
    · exact ⟨by simp [unsafePickUpServant], fun p hp => by cases hp⟩
    · obtain ⟨p, hp, hf, hpick⟩ := unsafePickUpServant_of_passes hpass
      refine ⟨iff_of_false ?_ fun hall => ?_, fun q hq => ?_⟩
      · rw [hpick]
        exact Option.some_ne_none p
      · exact absurd (hall p hp) (by rw [hf]; decide)
      · cases hpick.symm.trans hq
        exact ⟨hp, hf⟩

theorem stagesRespected_iff {freeServants : List ServantPtr} {requestorIp : String} :
    StagesRespected s freeServants requestorIp ↔
      FilterFits s (remaining s freeServants requestorIp) isDedicated := by
  constructor
  · intro h
    exact filterFits_of_null h.others
  · intro hfits
    have hrespects := respectsFilter_iff.2 hfits
    refine ⟨fun hsome => ?_, hrespects.null.2⟩
    obtain ⟨p, hp, hf, hpick⟩ := unsafePickUpServant_of_passes hsome
    refine ⟨p, hp, hf, ?_⟩
    rw [remaining] at hpick
    simp only [unsafePickUpFreeServant, hpick]

/-- **When the picks respect their filters.**  For every list of servants and every filter, the pick
is null exactly if no servant passes and otherwise one that passes, if and only if the list is empty
or some servant passes.  Accordingly `UnsafePickUpFreeServant` prefers a dedicated servant and
otherwise goes on to the unfiltered pick, if and only if no servant is left or a dedicated one
is. -/
theorem pick_respects_iff (s : TaskDispatcher) :
    (∀ (servants : List ServantPtr) (filter : Servant → Bool),
      RespectsFilter s servants filter ↔
        servants = [] ∨ ∃ p ∈ servants, filter (s.heap p) = true) ∧
    ∀ (freeServants : List ServantPtr) (requestorIp : String),
      StagesRespected s freeServants requestorIp ↔
        remaining s freeServants requestorIp = [] ∨
          ∃ p ∈ remaining s freeServants requestorIp, isDedicated (s.heap p) = true :=
  ⟨fun _ _ => respectsFilter_iff, fun _ _ => stagesRespected_iff⟩

/-- **A servant that does not pass is returned**: the only servant is a user's machine, and the pick
of a dedicated machine finds it. -/
theorem pick_ignores_filter :
    let s := dispatcher.run (.init 0) [sampleRegister]
    (∀ p ∈ s.servants, 0 < (s.infoOf p).concurrency) ∧
      isDedicated (s.heap 0) = false ∧
      unsafePickUpServant s s.servants isDedicated = some 0 ∧
      ¬RespectsFilter s s.servants isDedicated ∧
      ¬StagesRespected s s.servants sampleTask.requesterIp := by
  intro s
  have hpick : unsafePickUpServant s s.servants isDedicated = some 0 := by decide
  have hremaining : remaining s s.servants sampleTask.requesterIp = s.servants := by decide
  refine ⟨by decide, by decide, hpick, fun h => ?_, fun h => ?_⟩
  · exact absurd (h.passes 0 hpick).2 (by decide)
  · have hnone := h.others (by rw [hremaining]; decide)
    rw [hremaining, hpick] at hnone
    cases hnone

/-! ### Loads -/

/-- The first servant that passes, or else the first one of the list. -/
def firstChoice (s : TaskDispatcher) (servants : List ServantPtr) (filter : Servant → Bool) :
    Option ServantPtr :=
  (servants.find? fun p => filter (s.heap p)).or servants.head?

/-- A servant that runs fewer tasks than its concurrency has utilization `0`. -/
theorem utilization_of_lt {servant : Servant}
    (h : servant.runningTasks < servant.servantInfo.concurrency) : utilization servant = 0 := by
  have hdiv : servant.runningTasks / servant.servantInfo.concurrency = 0 := by
    apply UInt64.toNat_inj.1
    rw [UInt64.toNat_div, Nat.div_eq_of_lt (UInt64.lt_iff_toNat_lt.1 h)]
    rfl
  rw [utilization, hdiv]
  decide

/-- Once a utilization is `0`, the loop stays with its servant. -/
theorem foldl_pickUpStep_zero (s : TaskDispatcher) (filter : Servant → Bool)
    (servants : List ServantPtr) (p : ServantPtr) :
    servants.foldl (pickUpStep s filter) (p, 0) = (p, 0) := by
  induction servants with
  | nil => rfl
  | cons q qs ih =>
      have hstep : pickUpStep s filter (p, 0) q = (p, 0) := by simp [pickUpStep]
      rw [List.foldl_cons, hstep, ih]

theorem foldl_pickUpStep_of_free (h : ∀ p ∈ servants, utilization (s.heap p) = 0)
    (filter : Servant → Bool) (best : ServantPtr × ℕ) (hbest : 0 < best.2) :
    (servants.foldl (pickUpStep s filter) best).1 =
      (servants.find? fun p => filter (s.heap p)).getD best.1 := by
  induction servants with
  | nil => rfl
  | cons p ps ih =>
      obtain ⟨hp, hps⟩ := List.forall_mem_cons.1 h
      rw [List.foldl_cons]
      by_cases hpass : filter (s.heap p) = true
      · have hstep : pickUpStep s filter best p = (p, 0) := by
          simp [pickUpStep, hpass, hp, hbest]
        rw [hstep, foldl_pickUpStep_zero]
        simp [hpass]
      · have hstep : pickUpStep s filter best p = best := by simp [pickUpStep, hpass]
        rw [hstep, ih hps]
        simp [hpass]

/-- **Among free servants the pick is the first choice.** -/
theorem unsafePickUpServant_of_free
    (h : ∀ p ∈ servants, (s.heap p).runningTasks < (s.infoOf p).concurrency) :
    unsafePickUpServant s servants filter = firstChoice s servants filter := by
  have hzero : ∀ p ∈ servants, utilization (s.heap p) = 0 := fun p hp => utilization_of_lt (h p hp)
  rw [firstChoice]
  cases servants with
  | nil => rfl
  | cons q qs =>
      have hmax : 0 < doubleMax := by decide +kernel
      rw [unsafePickUpServant]
      generalize doubleMax = initial at hmax ⊢
      rw [foldl_pickUpStep_of_free hzero filter (q, initial) hmax]
      cases (q :: qs).find? fun p => filter (s.heap p) with
      | none => rfl
      | some p => rfl

/-- `running_tasks / concurrency`, as a fraction. -/
def exactUtilization (servant : Servant) : ℚ :=
  servant.runningTasks.toNat / servant.servantInfo.concurrency.toNat

/-- No servant of the list that passes has a smaller load than `p`. -/
def LeastLoaded (s : TaskDispatcher) (servants : List ServantPtr) (filter : Servant → Bool)
    (p : ServantPtr) : Prop :=
  ∀ q ∈ servants, filter (s.heap q) = true →
    exactUtilization (s.heap p) ≤ exactUtilization (s.heap q)

/-- **When the least loaded servant is chosen.**  Of every list of free servants and for every
filter that one of them passes, the pick is a servant that passes and has the smallest load among
those that pass, if and only if the first servant of the list that passes has. -/
theorem pick_least_loaded_iff (s : TaskDispatcher) (servants : List ServantPtr)
    (filter : Servant → Bool)
    (hfree : ∀ p ∈ servants, (s.heap p).runningTasks < (s.infoOf p).concurrency)
    (hpass : ∃ p ∈ servants, filter (s.heap p) = true) :
    (∃ p, unsafePickUpServant s servants filter = some p ∧ p ∈ servants ∧
      filter (s.heap p) = true ∧ LeastLoaded s servants filter p) ↔
    ∃ p, (servants.find? fun q => filter (s.heap q)) = some p ∧
      LeastLoaded s servants filter p := by
  have hsome : (servants.find? fun q => filter (s.heap q)).isSome = true := by
    rw [List.find?_isSome]
    exact hpass
  obtain ⟨first, hfirst⟩ := Option.isSome_iff_exists.1 hsome
  have hpasses : filter (s.heap first) = true := by
    simpa using List.find?_some hfirst
  have hpick : unsafePickUpServant s servants filter = some first := by
    rw [unsafePickUpServant_of_free hfree, firstChoice, hfirst]
    rfl
  constructor
  · rintro ⟨p, hp, -, -, hleast⟩
    cases hpick.symm.trans hp
    exact ⟨first, hfirst, hleast⟩
  · rintro ⟨p, hp, hleast⟩
    cases hfirst.symm.trans hp
    exact ⟨first, hpick, List.mem_of_find?_eq_some hfirst, hpasses, hleast⟩

/-- A servant with eight slots at this location. -/
def sampleServantAt (location : String) : Op :=
  .keepServantAlive
    { sampleInfo with
      observedLocation := location, reportedLocation := location, concurrency := 8 } (sec 10) 0

/-- Two idle servants: the first of them is chosen, and none is less loaded. -/
theorem pick_least_loaded_idle :
    let s := dispatcher.run (.init 0)
      [sampleServantAt "10.0.0.1:8080", sampleServantAt "10.0.0.2:8080"]
    ∃ p, unsafePickUpServant s s.servants (fun _ => true) = some p ∧ p ∈ s.servants ∧
      LeastLoaded s s.servants (fun _ => true) p := by
  intro s
  have hfree : ∀ p ∈ s.servants, (s.heap p).runningTasks < (s.infoOf p).concurrency := by decide
  obtain ⟨p, hpick, hmem, -, hleast⟩ := (pick_least_loaded_iff s s.servants (fun _ => true) hfree
    ⟨0, by decide, rfl⟩).2 ⟨0, rfl, fun q hq _ => by
      have hzero : ∀ q ∈ s.servants, (s.heap q).runningTasks = 0 := by decide
      rw [exactUtilization, exactUtilization, hzero q hq, hzero 0 (by decide)]
      simp⟩
  exact ⟨p, hpick, hmem, hleast⟩

/-- **A busy servant is chosen while another is idle**: both have eight slots, one of which is taken
at the first servant, and the next task goes there, too. -/
theorem pick_busier_servant :
    let s := dispatcher.run (.init 0)
      [sampleServantAt "10.0.0.1:8080", sampleServantAt "10.0.0.2:8080", sampleGrant]
    (∀ p ∈ s.servants, (s.heap p).runningTasks < (s.infoOf p).concurrency) ∧
      unsafePickUpServant s s.servants (fun _ => true) = some 0 ∧
      ¬LeastLoaded s s.servants (fun _ => true) 0 := by
  intro s
  refine ⟨by decide +kernel, by decide +kernel, fun hleast => ?_⟩
  have hle := hleast 1 (by decide +kernel) rfl
  have hbusy : exactUtilization (s.heap 0) = 1 / 8 := by
    have hrun : (s.heap 0).runningTasks = 1 := by decide +kernel
    have hconc : (s.heap 0).servantInfo.concurrency = 8 := by decide +kernel
    rw [exactUtilization, hrun, hconc]
    rfl
  have hidle : exactUtilization (s.heap 1) = 0 := by
    have hrun : (s.heap 1).runningTasks = 0 := by decide +kernel
    rw [exactUtilization, hrun]
    simp
  rw [hbusy, hidle] at hle
  norm_num at hle

end Scheduler
