/-
**A fetcher that sleeps while calls wait.**

The fetcher of a keeper sleeps on `need_more_cv` as long as there is a grant in the queue.  It is
notified by a call of `Get` that is about to wait, and by nobody else: not by the call that takes
the last grant.  As long as calls come one at a time this is enough.  But the scheduler may grant
fewer than were asked for.  Then the fetcher goes to sleep, since there are grants; the waiting
calls take them; and the calls for which there was none wait on, with an empty queue and a fetcher
that nobody wakes, until another call happens to come in or their time is over.  A call that comes
in late and takes the last grant before a waiting one has the mutex does the same.

The fetcher's predicate looks at the queue only, not at `waiters`, and the two checks
`DISTBU_CHECK(--keeper->waiters == 0)` show that more than one waiting call was not thought of: they
fail for a call that leaves its wait before another one.

Main definitions:

* `Local.Stranded` — a call waits, there is no grant, and the fetcher sleeps and will not be woken;
* `Local.TakesLast` — a call of `Get` takes the last grant while another waits and the fetcher
  sleeps;
* `Local.CheckHolds` — the check on `waiters` at the end of a wait;
* `Local.LeavesAlone` — a call leaves its wait, and no other waits.

Main results:

* `Local.never_stranded_iff` — **no wake-up is lost in a run exactly if no call takes the last grant
  from under a sleeping fetcher and a waiting call**;
* `Local.short_answer_strands` — an answer that is too short loses one;
* `Local.waiters_check_iff` — **the checks hold in a run exactly if every call leaves its wait
  alone**;
* `Local.waiters_check_fails` — two waiting calls are enough for them to fail.
-/

import Distribuild.LocalGrantKeeper

set_option relaxedAutoImplicit false
set_option autoImplicit false

namespace Local

open Scheduler (TimePoint)

/-- **A lost wake-up** in the keeper of a compiler: some call of `Get` is blocked on `available_cv`,
`remaining` is empty, and the fetcher is asleep on `need_more_cv` without a pending notification,
although `leaving_` is not set. -/
def Stranded (s : TaskGrantKeeper) (digest : String) : Prop :=
  ∃ k, s.keepers.lookup digest = some k ∧ (∃ call, call ∈ k.blocked) ∧ k.remaining = [] ∧
    k.fetcher = .asleep false ∧ s.leaving = false

/-- A step of a keeper takes its last grant, and another call is still blocked. -/
def TakesLastFrom (k : EnvGrantKeeper) : KeeperEvent → Prop
  | .get call _ clock =>
      call ∉ k.blocked ∧ (∃ grant, (discardExpired clock k.remaining).2 = [grant]) ∧
        ∃ other, other ∈ k.blocked
  | .wakeGet call _ _ =>
      call ∈ k.blocked ∧ (∃ grant, k.remaining = [grant]) ∧ ∃ other, other ≠ call ∧ other ∈ k.blocked
  | _ => False

/-- **A call of `Get` takes the last grant of a keeper while another call is blocked and the fetcher
sleeps unnotified.** -/
def TakesLast (s : TaskGrantKeeper) : GrantEvent → Prop
  | .withKeeper digest event =>
      s.leaving = false ∧ ∃ k, s.keepers.lookup digest = some k ∧ k.fetcher = .asleep false ∧
        TakesLastFrom k event
  | _ => False

/-! ### One keeper -/

/-- The same, for a keeper. -/
def StrandedIn (leaving : Bool) (k : EnvGrantKeeper) : Prop :=
  (∃ call, call ∈ k.blocked) ∧ k.remaining = [] ∧ k.fetcher = .asleep false ∧ leaving = false

theorem notify_ne_asleep_false (fetcher : Fetcher) : fetcher.notify ≠ .asleep false := by
  cases fetcher <;> simp [Fetcher.notify]

/-- **One step of a keeper strands a call exactly if it takes the last grant.** -/
theorem strandedIn_step_iff (token : String) {leaving : Bool} {k : EnvGrantKeeper}
    (h : ¬StrandedIn leaving k) (e : KeeperEvent) :
    StrandedIn leaving (k.step token leaving e).1 ↔
      leaving = false ∧ k.fetcher = .asleep false ∧ TakesLastFrom k e := by
  have hcase := keeper_cases token leaving k e
  generalize (k.step token leaving e).1 = k' at hcase ⊢
  generalize (k.step token leaving e).2 = reply at hcase
  cases hcase with
  | idle hreply hget hwake =>
      refine ⟨fun hstranded => absurd hstranded h, ?_⟩
      rintro ⟨hleaving, hasleep, hlast⟩
      cases e with
      | get call deadline clock => exact absurd (hget call deadline clock rfl) hlast.1
      | wakeGet call timedOut now =>
          obtain ⟨hcall, ⟨grant, hone⟩, -⟩ := hlast
          rw [hwake call timedOut now rfl hcall] at hone
          cases hone
      | _ => exact hlast.elim
  | took hcall hdiscard =>
      simp only [TakesLastFrom, hdiscard]
      constructor
      · rintro ⟨hblocked, rfl, hasleep, hleaving⟩
        exact ⟨hleaving, hasleep, hcall, ⟨_, rfl⟩, hblocked⟩
      · rintro ⟨hleaving, hasleep, -, ⟨grant, hone⟩, hblocked⟩
        exact ⟨hblocked, (List.cons.inj hone).2, hasleep, hleaving⟩
  | slept hcall hdiscard =>
      -- a call that goes to sleep has notified the fetcher
      constructor
      · rintro ⟨-, -, hasleep, -⟩
        exact absurd hasleep (notify_ne_asleep_false k.fetcher)
      · rintro ⟨-, -, -, ⟨grant, hone⟩, -⟩
        rw [hdiscard] at hone
        cases hone
  | woke hcall hqueue =>
      simp only [TakesLastFrom, hqueue]
      constructor
      · rintro ⟨⟨other, hother⟩, rfl, hasleep, hleaving⟩
        obtain ⟨hne, hmem⟩ := AList.mem_erase.1 hother
        exact ⟨hleaving, hasleep, hcall, ⟨_, rfl⟩, other, hne, hmem⟩
      · rintro ⟨hleaving, hasleep, -, ⟨grant, hone⟩, other, hne, hmem⟩
        exact ⟨⟨other, AList.mem_erase.2 ⟨hne, hmem⟩⟩, (List.cons.inj hone).2, hasleep, hleaving⟩
  | gaveUp hcall hqueue =>
      -- a call that gives up was stranded before, if another is stranded now
      constructor
      · rintro ⟨-, -, hasleep, hleaving⟩
        exact absurd ⟨⟨_, hcall⟩, hqueue, hasleep, hleaving⟩ h
      · rintro ⟨-, -, -, ⟨grant, hone⟩, -⟩
        rw [hqueue] at hone
        cases hone
  | left hleaving =>
      refine ⟨fun hstranded => ?_, fun hlast => hlast.2.2.elim⟩
      cases hstranded.2.2.1
  | called hleaving hqueue =>
      refine ⟨fun hstranded => ?_, fun hlast => hlast.2.2.elim⟩
      cases hstranded.2.2.1
  | dozed hleaving hqueue =>
      exact ⟨fun hstranded => absurd hstranded.2.1 hqueue, fun hlast => hlast.2.2.elim⟩
  | stored grants hfetcher =>
      refine ⟨fun hstranded => ?_, fun hlast => hlast.2.2.elim⟩
      cases hstranded.2.2.1
  | failed hfetcher =>
      refine ⟨fun hstranded => ?_, fun hlast => hlast.2.2.elim⟩
      cases hstranded.2.2.1

/-! ### Runs -/

/-- No call is stranded in any keeper. -/
def NoneStranded (s : TaskGrantKeeper) : Prop := ∀ digest, ¬Stranded s digest

theorem noneStranded_iff {s : TaskGrantKeeper} :
    NoneStranded s ↔
      ∀ digest k, s.keepers.lookup digest = some k → ¬StrandedIn s.leaving k := by
  constructor
  · intro h digest k hlook hstranded
    exact h digest ⟨k, hlook, hstranded⟩
  · rintro h digest ⟨k, hlook, hstranded⟩
    exact h digest k hlook hstranded

/-- **One step of the machine.** -/
theorem noneStranded_next_iff {token : String} {s : TaskGrantKeeper} (h : NoneStranded s)
    (e : GrantEvent) :
    NoneStranded ((grantMachine token).next s e) ↔ ¬TakesLast s e := by
  rw [noneStranded_iff] at h
  have hcase := grant_cases token s e
  generalize (grantMachine token).next s e = s' at hcase ⊢
  generalize (grantMachine token).out s e = reply at hcase
  cases hcase with
  | found | freed => exact ⟨fun _ => id, fun _ => noneStranded_iff.2 h⟩
  | made =>
      refine ⟨fun _ => id, fun _ => noneStranded_iff.2 ?_⟩
      intro digest k hk hstranded
      -- nobody waits at a keeper that was just made
      rcases Table.lookup_insert_cases hk with ⟨-, rfl⟩ | ⟨-, hold⟩
      · cases hstranded.2.2.1
      · exact h digest k hold hstranded
  | absent hlook =>
      refine ⟨?_, fun _ => noneStranded_iff.2 h⟩
      rintro - ⟨-, k, hk, -⟩
      rw [hlook] at hk
      cases hk
  | @acted digest event k hlook =>
      have hone := strandedIn_step_iff token (h digest k hlook) event
      have hlast : TakesLast s (.withKeeper digest event) ↔
          s.leaving = false ∧ k.fetcher = .asleep false ∧ TakesLastFrom k event := by
        simp [TakesLast, hlook]
      rw [hlast, ← hone, noneStranded_iff]
      constructor
      · intro hall
        exact hall digest _ (AList.lookup_insert _)
      · intro hnot digest' k' hk'
        rcases Table.lookup_insert_cases hk' with ⟨-, rfl⟩ | ⟨-, hold⟩
        · exact hnot
        · exact h digest' k' hold
  | stopped =>
      refine ⟨fun _ => id, fun _ digest => ?_⟩
      rintro ⟨k, -, -, -, -, hleaving⟩
      cases hleaving

/-- **No wake-up is lost in a run exactly if no call takes the last grant from under a sleeping
fetcher and a waiting call**: the fetcher of no keeper ever sleeps unnotified while a call of `Get`
is blocked, there is no grant and `leaving_` is not set, if and only if no step of the run is of
that kind. -/
theorem never_stranded_iff (token : String) (events : List GrantEvent) :
    (∀ pre post, events = pre ++ post →
        ∀ digest, ¬Stranded ((grantMachine token).run {} pre) digest) ↔
      (grantMachine token).Along (fun s e => ¬TakesLast s e) {} events := by
  refine Machine.forall_prefix_iff_along (P := NoneStranded)
    (fun s e h => noneStranded_next_iff h e) ?_
  rintro digest ⟨k, hlook, -⟩
  cases hlook

/-- Two calls wait, and the scheduler grants only one task. -/
def shortAnswer : List GrantEvent :=
  [.findKeeper ⟨"gcc"⟩, .withKeeper "gcc" (.get 0 100 fun _ => 0),
    .withKeeper "gcc" (.get 1 100 fun _ => 0), .withKeeper "gcc" .fetch,
    .withKeeper "gcc" (.answer (some [(⟨7, "10.0.0.1:8335"⟩, 10)])), .withKeeper "gcc" .fetch,
    .withKeeper "gcc" (.wakeGet 0 false 11)]

/-- **An answer that is too short loses a wake-up**: the second call waits for nothing. -/
theorem short_answer_strands : Stranded ((grantMachine "").run {} shortAnswer) "gcc" :=
  ⟨_, rfl, ⟨1, by decide⟩, rfl, rfl, rfl⟩

/-! ### The check on the waiters -/

/-- A sleep of the call ends, and its wait with it: there is a grant, or its time is over. -/
def EnvGrantKeeper.Leaves (k : EnvGrantKeeper) (call : ℕ) (timedOut : Bool) (now : TimePoint) :
    Prop :=
  ∃ deadline, k.blocked.lookup call = some deadline ∧
    Monitor.waitFor (!k.remaining.isEmpty) deadline now timedOut ≠ .asleep

/-- The calls of `Get` that wait in the keeper besides this one. -/
def EnvGrantKeeper.numOthers (k : EnvGrantKeeper) (call : ℕ) : ℕ :=
  Table.tally (fun _ => true) (k.blocked.erase call)

/-- **The check `--keeper->waiters == 0` holds**, if the step is that of a call which leaves its
wait. -/
def CheckHolds (token : String) (s : TaskGrantKeeper) (e : GrantEvent) : Prop :=
  ∀ digest call timedOut now discarded result k,
    e = .withKeeper digest (.wakeGet call timedOut now) →
    (grantMachine token).out s e = .done (.returned discarded result) →
    ((grantMachine token).next s e).keepers.lookup digest = some k → k.waiters = 0

/-- **No other call waits**, up to the width of the counter, if the step is that of a call which
leaves its wait. -/
def LeavesAlone (s : TaskGrantKeeper) (e : GrantEvent) : Prop :=
  ∀ digest call timedOut now k,
    e = .withKeeper digest (.wakeGet call timedOut now) →
    s.keepers.lookup digest = some k → k.Leaves call timedOut now → 2 ^ 32 ∣ k.numOthers call

/-- What the end of a sleep comes to. -/
theorem wakeGet_cases (token : String) (leaving : Bool) (k : EnvGrantKeeper) (call : ℕ)
    (timedOut : Bool) (now : TimePoint) :
    let r := k.step token leaving (.wakeGet call timedOut now)
    (¬k.Leaves call timedOut now ∧ ∀ discarded result, r.2 ≠ .returned discarded result) ∨
    (k.Leaves call timedOut now ∧ call ∈ k.blocked ∧ (∃ result, r.2 = .returned [] result) ∧
      r.1.waiters = k.waiters - 1) := by
  cases hcall : k.blocked.lookup call with
  | none =>
      refine Or.inl ⟨?_, fun discarded result => ?_⟩
      · rintro ⟨deadline, hlook, -⟩
        cases hcall.symm.trans hlook
      · simp [EnvGrantKeeper.step, hcall]
  | some deadline =>
      have hmem : call ∈ k.blocked := Table.mem_iff_lookup.2 ⟨deadline, hcall⟩
      simp only [EnvGrantKeeper.step, hcall, EnvGrantKeeper.wakeGet]
      cases hwait : Monitor.waitFor (!k.remaining.isEmpty) deadline now timedOut with
      | satisfied =>
          exact Or.inr
            ⟨⟨deadline, hcall, fun h => by cases hwait.symm.trans h⟩, hmem, ⟨_, rfl⟩, rfl⟩
      | timedOut =>
          exact Or.inr
            ⟨⟨deadline, hcall, fun h => by cases hwait.symm.trans h⟩, hmem, ⟨_, rfl⟩, rfl⟩
      | asleep =>
          refine Or.inl ⟨?_, fun discarded result h => by cases h⟩
          rintro ⟨deadline', hlook, hne⟩
          cases hcall.symm.trans hlook
          exact hne hwait

theorem ofNat_eq_zero_iff (n : ℕ) : UInt32.ofNat n = 0 ↔ 2 ^ 32 ∣ n := by
  rw [UInt32.ofNat_eq_iff_mod_eq_toNat, UInt32.toNat_zero, Nat.dvd_iff_mod_eq_zero]

/-- **One step**, where the waiters are counted: the check holds exactly if no other call waits. -/
theorem checkHolds_iff {token : String} {s : TaskGrantKeeper}
    (hcounted : ∀ digest k, s.keepers.lookup digest = some k →
      k.waiters = UInt32.ofNat k.numBlocked) (e : GrantEvent) :
    CheckHolds token s e ↔ LeavesAlone s e := by
  constructor
  · rintro hcheck digest call timedOut now k rfl hlook hleaves
    rcases wakeGet_cases token s.leaving k call timedOut now with
      ⟨hnot, -⟩ | ⟨-, hcall, ⟨result, hreply⟩, hwaiters⟩
    · exact absurd hleaves hnot
    · have hzero := hcheck digest call timedOut now [] result _ rfl
        (by simp only [Machine.out, grantMachine, TaskGrantKeeper.step, hlook, hreply])
        (by
          simp only [Machine.next, grantMachine, TaskGrantKeeper.step, hlook]
          exact AList.lookup_insert _)
      rw [hwaiters, counted_erase hcall (hcounted digest k hlook)] at hzero
      exact (ofNat_eq_zero_iff _).1 hzero
  · rintro halone digest call timedOut now discarded result k' rfl hout hlook'
    cases hlook : s.keepers.lookup digest with
    | none => simp [Machine.out, grantMachine, TaskGrantKeeper.step, hlook] at hout
    | some k =>
        simp only [Machine.out, Machine.next, grantMachine, TaskGrantKeeper.step, hlook,
          AList.lookup_insert, GrantReply.done.injEq, Option.some.injEq] at hout hlook'
        rcases wakeGet_cases token s.leaving k call timedOut now with
          ⟨-, hnot⟩ | ⟨hleaves, hcall, -, hwaiters⟩
        · exact absurd hout (hnot discarded result)
        · rw [← hlook', hwaiters, counted_erase hcall (hcounted digest k hlook)]
          exact (ofNat_eq_zero_iff _).2 (halone digest call timedOut now k rfl hlook hleaves)

/-- **The checks hold in a run exactly if every call leaves its wait alone**: `waiters` is `0` after
every call of `Get` that leaves its wait, with a grant or without, if and only if at each of these
moments no other call waits in the same keeper, or a multiple of `2 ^ 32`. -/
theorem waiters_check_iff (token : String) (events : List GrantEvent) :
    (grantMachine token).Along (CheckHolds token) {} events ↔
      (grantMachine token).Along LeavesAlone {} events := by
  have hstep (before : List GrantEvent) (e : GrantEvent) :
      CheckHolds token ((grantMachine token).run {} before) e ↔
        LeavesAlone ((grantMachine token).run {} before) e :=
    checkHolds_iff (fun digest k hlook => ((kept_run token before digest).2 k hlook).counted) e
  rw [Machine.along_iff, Machine.along_iff]
  constructor
  · exact fun hall before e after heq => (hstep before e).1 (hall before e after heq)
  · exact fun hall before e after heq => (hstep before e).2 (hall before e after heq)

/-- Two calls wait, and the time of one is over. -/
def oneGivesUp : List GrantEvent :=
  [.findKeeper ⟨"gcc"⟩, .withKeeper "gcc" (.get 0 100 fun _ => 0),
    .withKeeper "gcc" (.get 1 200 fun _ => 0), .withKeeper "gcc" (.wakeGet 0 true 100)]

/-- **Two waiting calls are enough for the checks to fail**, that of a call which gives up and that
of a call which has got a grant. -/
theorem waiters_check_fails :
    ¬(grantMachine "").Along (CheckHolds "") {} oneGivesUp ∧
      ¬(grantMachine "").Along (CheckHolds "") {} shortAnswer := by
  constructor
  · intro hall
    have hzero := Machine.along_iff.1 hall (oneGivesUp.take 3) _ [] rfl "gcc" 0 true 100 [] none _
      rfl (by decide) rfl
    exact absurd hzero (by decide)
  · intro hall
    have hzero := Machine.along_iff.1 hall (shortAnswer.take 6) _ [] rfl "gcc" 0 false 11 [] _ _
      rfl rfl rfl
    exact absurd hzero (by decide)

end Local
