/-
**Grants that expire in stock.**

The fetcher asks for a lease of `kExpiresIn`, fifteen seconds, and means to keep a grant in stock
for as long as the lease lasts, less `kNetworkDelayTolerance` for the way.  But the time that it
stores with a grant is its arrival plus `kMaxWait` less `kNetworkDelayTolerance`, and these two are
equal.  So a grant has expired as soon as the clock moves on, and the next call of `Get` throws it
away instead of returning it.

Nor does it give it back: the loop at the beginning of `Get` only takes expired grants off the
queue, and `Free`, which would tell the scheduler, is not called.  Until the lease runs out at the
scheduler, the grant goes on occupying a slot of its servant.

Both are looked at here over whole runs of the machine of `Distribuild/LocalGrantKeeper.lean`: the
first as an equivalence between what the lease demands of every call of `Get` and the clock readings
at which this is the case, the second as a conservation law for the runs in which no call of `Get`
finds an expired grant.

Main definitions:

* `Local.Conserved` — every grant that came is in stock, was returned, or was passed to `Free`;
* `Local.FindsExpired` — a call of `Get` finds an expired grant;
* `Local.RespectsLease` — what a call of `Get` does agrees with the lease;
* `Local.Timely` — the clock readings at which it does.

Main results:

* `Local.conserved_of_no_expiry` — **no grant is dropped in a run without an expired grant**;
* `Local.grant_dropped` — otherwise it is;
* `Local.respectsLease_iff` — **when the local expiry agrees with the lease**;
* `Local.fresh_grant_discarded` — a grant is discarded a nanosecond after its arrival.
-/

import Distribuild.LocalGrantKeeper

set_option relaxedAutoImplicit false
set_option autoImplicit false

namespace Local

open Scheduler (TimePoint Duration sec EnviromentDesc)

/-! ### Grants that are dropped -/

/-- The ids that were passed to `Free`. -/
def freedIds (tr : List (GrantEvent × GrantReply)) : List UInt64 :=
  tr.filterMap fun e =>
    match e.2 with
    | .freed grantId => some grantId
    | _ => none

/-- **No grant is dropped**: every grant that came is still in the queue of its keeper, or was
returned by a call of `Get`, or was passed to `Free`. -/
def Conserved (tr : List (GrantEvent × GrantReply)) (s : TaskGrantKeeper) : Prop :=
  ∀ digest grant, (digest, grant) ∈ collect KeeperReply.received tr →
    (∃ k, s.keepers.lookup digest = some k ∧ grant ∈ k.remaining) ∨
      (digest, grant) ∈ collect KeeperReply.taken tr ∨ grant.grantId ∈ freedIds tr

/-- A call of `Get` comes in and finds an expired grant at the front of the queue. -/
def FindsExpired (s : TaskGrantKeeper) : GrantEvent → Prop
  | .withKeeper digest (.get call _ clock) =>
      ∃ k grant queue, s.keepers.lookup digest = some k ∧ call ∉ k.blocked ∧
        k.remaining = grant :: queue ∧ grant.expireTp < clock 0
  | _ => False

/-- Nothing is discarded if the first grant has not expired. -/
theorem discardExpired_of_not_expired {clock : ℕ → TimePoint} {queue : List QueuedGrant}
    (h : ∀ grant rest, queue = grant :: rest → ¬grant.expireTp < clock 0) :
    discardExpired clock queue = ([], queue) := by
  cases queue with
  | nil => rfl
  | cons grant rest => rw [discardExpired, if_neg (h grant rest rfl)]

/-- A step of a keeper that finds nothing expired discards nothing. -/
theorem discarded_eq_nil {token : String} {s : TaskGrantKeeper} {digest : String}
    {event : KeeperEvent} {k : EnvGrantKeeper} (hlook : s.keepers.lookup digest = some k)
    (h : ¬FindsExpired s (.withKeeper digest event)) (leaving : Bool) :
    (k.step token leaving event).2.discarded = [] := by
  have hcase := keeper_cases token leaving k event
  generalize (k.step token leaving event).1 = k' at hcase
  generalize (k.step token leaving event).2 = reply at hcase ⊢
  have hkeep : ∀ {call deadline clock}, event = .get call deadline clock → call ∉ k.blocked →
      discardExpired clock k.remaining = ([], k.remaining) := by
    rintro call deadline clock rfl hcall
    refine discardExpired_of_not_expired fun grant rest hqueue hexpired => ?_
    exact h ⟨k, grant, rest, hlook, hcall, hqueue, hexpired⟩
  cases hcase with
  | idle hreply => rcases hreply with rfl | rfl <;> rfl
  | took hcall hdiscard =>
      rw [hkeep rfl hcall] at hdiscard
      obtain ⟨rfl, -⟩ := Prod.mk.inj hdiscard
      rfl
  | slept hcall hdiscard =>
      rw [hkeep rfl hcall] at hdiscard
      obtain ⟨rfl, -⟩ := Prod.mk.inj hdiscard
      rfl
  | _ => rfl

/-- In a run without an expired grant, whatever has left a queue was returned. -/
theorem popped_eq_taken {token : String} {events : List GrantEvent}
    (h : (grantMachine token).Along (fun s e => ¬FindsExpired s e) {} events) (digest : String) :
    collectAt KeeperReply.popped (historyAt digest ((grantMachine token).trace {} events)) =
      collectAt KeeperReply.taken (historyAt digest ((grantMachine token).trace {} events)) := by
  refine List.flatMap_congr fun entry hentry => ?_
  obtain ⟨⟨event, reply⟩, hmem, hsome⟩ := List.mem_filterMap.1 hentry
  obtain ⟨pre, post, rfl, rfl⟩ := Machine.mem_trace.1 hmem
  have hstep := Machine.along_iff.1 h pre event post rfl
  have hcase := grant_cases token ((grantMachine token).run {} pre) event
  generalize (grantMachine token).out ((grantMachine token).run {} pre) event = reply at hcase hsome
  generalize (grantMachine token).next ((grantMachine token).run {} pre) event = s' at hcase
  -- the entry comes from a step of the keeper
  cases hcase with
  | found | made | absent | freed | stopped => cases hsome
  | acted hlook =>
      dsimp only at hsome
      split at hsome
      next =>
        cases hsome
        rw [KeeperReply.popped, discarded_eq_nil hlook hstep, List.nil_append]
      next => cases hsome

/-- Of all grants, those of one keeper. -/
theorem mem_collect {grants : KeeperReply → List QueuedGrant} {digest : String}
    {grant : QueuedGrant} {tr : List (GrantEvent × GrantReply)} :
    (digest, grant) ∈ collect grants tr ↔ grant ∈ collectAt grants (historyAt digest tr) := by
  have hmem : (digest, grant) ∈ (collect grants tr).filter (fun x => decide (x.1 = digest)) ↔
      (digest, grant) ∈ collect grants tr := by
    simp [List.mem_filter]
  rw [← hmem, filter_collect]
  simp

theorem conserved_run {token : String} {events : List GrantEvent}
    (h : (grantMachine token).Along (fun s e => ¬FindsExpired s e) {} events) :
    Conserved ((grantMachine token).trace {} events) ((grantMachine token).run {} events) := by
  intro digest grant hmem
  have hall := kept_run token events digest
  rw [mem_collect] at hmem
  cases hlook : ((grantMachine token).run {} events).keepers.lookup digest with
  | none =>
      rw [hall.1 hlook] at hmem
      cases hmem
  | some k =>
      rw [(hall.2 k hlook).queue, popped_eq_taken h digest] at hmem
      rcases List.mem_append.1 hmem with htaken | hqueued
      · exact Or.inr (Or.inl (mem_collect.2 htaken))
      · exact Or.inl ⟨k, rfl, hqueued⟩

/-- **No grant is dropped in a run without an expired grant**: at any time of it every grant
received is still in the queue of its keeper, or was returned by a call of `Get`, or was passed to
`Free`. -/
theorem conserved_of_no_expiry (token : String) (events : List GrantEvent)
    (h : (grantMachine token).Along (fun s e => ¬FindsExpired s e) {} events) :
    ∀ pre post, events = pre ++ post →
      Conserved ((grantMachine token).trace {} pre) ((grantMachine token).run {} pre) := by
  rintro pre post rfl
  exact conserved_run (Machine.along_append.1 h).1

/-- One grant is fetched ahead, and a call of `Get` comes in later. -/
def prefetched (later : TimePoint) : List GrantEvent :=
  [.findKeeper ⟨"gcc"⟩, .withKeeper "gcc" .fetch,
    .withKeeper "gcc" (.answer (some [(⟨7, "10.0.0.1:8335"⟩, 0)])),
    .withKeeper "gcc" (.get 0 (later + sec 5) fun _ => later)]

/-- If no time has passed, nothing has expired, and the grant is returned. -/
theorem conserved_at_once :
    (grantMachine "").Along (fun s e => ¬FindsExpired s e) {} (prefetched 0) ∧
      Conserved ((grantMachine "").trace {} (prefetched 0))
        ((grantMachine "").run {} (prefetched 0)) := by
  have halong : (grantMachine "").Along (fun s e => ¬FindsExpired s e) {} (prefetched 0) := by
    refine ⟨id, id, id, ?_, trivial⟩
    rintro ⟨k, grant, queue, hlook, -, hqueue, hexpired⟩
    exact Nat.not_lt_zero _ hexpired
  exact ⟨halong, conserved_of_no_expiry "" (prefetched 0) halong (prefetched 0) [] rfl⟩

/-- **A grant is dropped**: a second after its arrival it is discarded, and nobody is told. -/
theorem grant_dropped :
    ¬Conserved ((grantMachine "").trace {} (prefetched (sec 1)))
      ((grantMachine "").run {} (prefetched (sec 1))) := by
  intro h
  rcases h "gcc" (EnvGrantKeeper.store (⟨7, "10.0.0.1:8335"⟩, 0)) (by decide) with
    ⟨k, hlook, hmem⟩ | hreturned | hfreed
  · have hnone : (((grantMachine "").run {} (prefetched (sec 1))).keepers.lookup "gcc").map
        EnvGrantKeeper.remaining = some [] := by decide
    rw [hlook] at hnone
    have hempty : k.remaining = [] := Option.some.inj hnone
    rw [hempty] at hmem
    cases hmem
  · revert hreturned
    decide
  · revert hfreed
    decide

/-! ### Grants that are discarded too early -/

/-- At most `kNetworkDelayTolerance` remains of the lease, counted from the arrival of the grant. -/
def LeaseOver (grant : QueuedGrant) (now : TimePoint) : Prop :=
  grant.arrivedTp + kExpiresIn ≤ now + kNetworkDelayTolerance

instance (grant : QueuedGrant) (now : TimePoint) : Decidable (LeaseOver grant now) :=
  inferInstanceAs (Decidable (_ ≤ _))

/-- The first grant of the queue with more lease left than that, looked at as `Get` looks at it. -/
def firstFresh (clock : ℕ → TimePoint) : List QueuedGrant → Option QueuedGrant
  | [] => none
  | grant :: queue =>
      if LeaseOver grant (clock 0) then firstFresh (fun i => clock (i + 1)) queue else some grant

/-- **What the lease demands of a call of `Get`** in a keeper: it discards a grant only when its
lease is over, and it returns the first one whose lease is not. -/
structure LeaseKept (clock : ℕ → TimePoint) (queue : List QueuedGrant) (reply : KeeperReply) :
    Prop where
  discards : ∀ x ∈ (discardExpired clock queue).1, LeaseOver x.1 x.2
  returns : ∀ grant, firstFresh clock queue = some grant → reply.taken = [grant]

/-- A step of the machine agrees with the lease. -/
def RespectsLease (token : String) (s : TaskGrantKeeper) : GrantEvent → Prop
  | .withKeeper digest (.get call deadline clock) =>
      ∀ k, s.keepers.lookup digest = some k → call ∉ k.blocked →
        LeaseKept clock k.remaining
          (k.step token s.leaving (.get call deadline clock)).2
  | _ => True

/-- The clock readings at which `Get` agrees with the lease.  Every grant it looks at has not been
in stock for any time, or has been for so long that its lease is over; in the second case it looks
at the next. -/
def Timely (clock : ℕ → TimePoint) : List QueuedGrant → Prop
  | [] => True
  | grant :: queue =>
      clock 0 ≤ grant.arrivedTp ∨
        (LeaseOver grant (clock 0) ∧ Timely (fun i => clock (i + 1)) queue)

/-- Every call of `Get` comes at such a time. -/
def TimelyGet (s : TaskGrantKeeper) : GrantEvent → Prop
  | .withKeeper digest (.get call _ clock) =>
      ∀ k, s.keepers.lookup digest = some k → call ∉ k.blocked → Timely clock k.remaining
  | _ => True

/-- The reply of a call of `Get` that comes in: the first grant that is left. -/
theorem taken_get (token : String) (leaving : Bool) {k : EnvGrantKeeper} {call : ℕ}
    (hcall : call ∉ k.blocked) (deadline : TimePoint) (clock : ℕ → TimePoint) :
    (k.step token leaving (.get call deadline clock)).2.taken =
      (discardExpired clock k.remaining).2.head?.toList := by
  simp only [EnvGrantKeeper.step, AList.lookup_eq_none.2 hcall, EnvGrantKeeper.get]
  rcases discardExpired clock k.remaining with ⟨discarded, left⟩
  cases left with
  | nil => rfl
  | cons grant left => rfl

/-- **The stored time is the arrival**, since the two constants cancel. -/
theorem stamped_iff {grant : QueuedGrant} :
    grant.expireTp = grant.arrivedTp + kMaxWait - kNetworkDelayTolerance ↔
      grant.expireTp = grant.arrivedTp := by
  rw [show kMaxWait = kNetworkDelayTolerance from rfl, Nat.add_sub_cancel]

/-- When the loop over the expired grants agrees with the lease. -/
theorem discard_agrees_iff {clock : ℕ → TimePoint} {queue : List QueuedGrant}
    (hstamped : ∀ grant ∈ queue, grant.expireTp = grant.arrivedTp) :
    ((∀ x ∈ (discardExpired clock queue).1, LeaseOver x.1 x.2) ∧
        ∀ grant, firstFresh clock queue = some grant →
          (discardExpired clock queue).2.head?.toList = [grant]) ↔
      Timely clock queue := by
  induction queue generalizing clock with
  | nil => simp [discardExpired, firstFresh, Timely]
  | cons grant queue ih =>
      have hgrant : grant.expireTp = grant.arrivedTp := hstamped grant List.mem_cons_self
      have hqueue := fun g hg => hstamped g (List.mem_cons_of_mem grant hg)
      have hlease : LeaseOver grant (clock 0) → grant.arrivedTp < clock 0 := by
        intro hover
        have htolerance : kNetworkDelayTolerance < kExpiresIn := by decide
        have hlater : grant.arrivedTp + kNetworkDelayTolerance < clock 0 + kNetworkDelayTolerance :=
          Nat.lt_of_lt_of_le (Nat.add_lt_add_left htolerance _) hover
        exact Nat.lt_of_add_lt_add_right hlater
      by_cases hexpired : grant.arrivedTp < clock 0
      · -- the grant is discarded
        have hdiscard : discardExpired clock (grant :: queue) =
            ((grant, clock 0) :: (discardExpired (fun i => clock (i + 1)) queue).1,
              (discardExpired (fun i => clock (i + 1)) queue).2) := by
          rw [discardExpired, hgrant, if_pos hexpired]
        by_cases hover : LeaseOver grant (clock 0)
        · have hiff := @ih (fun i => clock (i + 1)) hqueue
          simp only [hdiscard, firstFresh, Timely, hover, if_true, true_and, Nat.not_le.2 hexpired,
            false_or, ← hiff, List.forall_mem_cons]
        · simp only [hdiscard, Timely, hover, false_and, or_false, Nat.not_le.2 hexpired,
            List.forall_mem_cons]
      · -- the grant is returned
        have hdiscard : discardExpired clock (grant :: queue) = ([], grant :: queue) := by
          rw [discardExpired, hgrant, if_neg hexpired]
        have hfresh : firstFresh clock (grant :: queue) = some grant := by
          rw [firstFresh, if_neg fun hover => hexpired (hlease hover)]
        simp [hdiscard, hfresh, Timely, Nat.not_lt.1 hexpired]

/-- One call of `Get`. -/
theorem respectsLease_get_iff {token : String} {s : TaskGrantKeeper}
    (hstamped : ∀ digest k, s.keepers.lookup digest = some k →
      ∀ grant ∈ k.remaining, grant.expireTp = grant.arrivedTp) (e : GrantEvent) :
    RespectsLease token s e ↔ TimelyGet s e := by
  cases e with
  | withKeeper digest event =>
      cases event with
      | get call deadline clock =>
          refine forall_congr' fun k => forall_congr' fun hlook => forall_congr' fun hcall => ?_
          rw [← discard_agrees_iff (hstamped digest k hlook)]
          constructor
          · rintro ⟨hdiscards, hreturns⟩
            refine ⟨hdiscards, fun grant hgrant => ?_⟩
            rw [← taken_get token s.leaving hcall deadline clock]
            exact hreturns grant hgrant
          · rintro ⟨hdiscards, hreturns⟩
            refine ⟨hdiscards, fun grant hgrant => ?_⟩
            rw [taken_get token s.leaving hcall]
            exact hreturns grant hgrant
      | _ => exact Iff.rfl
  | _ => exact Iff.rfl

/-- **When the local expiry agrees with the lease.**  In a run every call of `Get` discards a grant
only when its lease is over, and returns the first one whose lease is not, if and only if every call
of `Get` comes at a time when each grant it looks at has only just arrived or has a lease that is
over. -/
theorem respectsLease_iff (token : String) (events : List GrantEvent) :
    (grantMachine token).Along (RespectsLease token) {} events ↔
      (grantMachine token).Along TimelyGet {} events := by
  have hstep : ∀ pre e, RespectsLease token ((grantMachine token).run {} pre) e ↔
      TimelyGet ((grantMachine token).run {} pre) e := by
    intro pre e
    refine respectsLease_get_iff (fun digest k hlook grant hmem => ?_) e
    exact stamped_iff.1 (((kept_run token pre digest).2 k hlook).stamped grant hmem)
  simp only [Machine.along_iff, hstep]

/-- **A grant is discarded a nanosecond after its arrival**, with the whole lease before it. -/
theorem fresh_grant_discarded :
    ¬(grantMachine "").Along (RespectsLease "") {} (prefetched 1) := by
  rintro ⟨-, -, -, hget, -⟩
  have hkept := hget _ rfl (by decide)
  exact absurd (hkept.discards (EnvGrantKeeper.store (⟨7, "10.0.0.1:8335"⟩, 0), 1) (by decide))
    (by decide)

end Local
