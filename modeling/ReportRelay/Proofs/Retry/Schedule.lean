import Mathlib.Data.List.Chain
import ReportRelay.Proofs.Retry
import ReportRelay.Proofs.Retry.Delay

/-!
# Schedules of a retry

What a retry comes to, told by the attempts that it makes: they are numbered from one without gaps, each begins when the
delay has passed that the policy names for the one before it, which has failed, and the outcome of the last one is the
outcome of the retry.
-/

namespace ReportRelay.RetryPolicy

variable {S : Interface} {α : Type} {policy : RetryPolicy} {operation : Nat → Dialogue S (Except Error α)}
  {gap : Nat → Nat} {first allowed more start finish : Nat} {t u : List (Dated S)} {r : Except Crash (Except Error α)}

/-- An attempt that was made: its number, what it asked from when to when, and what came of it. -/
structure Made (S : Interface) (α : Type) where
  number : Nat
  begun : Nat
  course : List (Dated S)
  ended : Nat
  outcome : Except Crash (Except Error α)

def Made.Failed (m : Made S α) : Prop :=
  ∃ e, m.outcome = .ok (.error e)

/-- The attempts lead from the start to the finish: no more than are allowed are made, all but the last one fail, and
between two of them nothing happens for as long as the gap behind the earlier one. The last one does not fail unless it
is the last that is allowed, and nothing happens behind it. -/
structure Schedule (operation : Nat → Dialogue S (Except Error α)) (gap : Nat → Nat) (first allowed start : Nat)
    (t : List (Dated S)) (finish : Nat) (r : Except Crash (Except Error α)) (made : List (Made S α)) : Prop where
  numbered : made.map Made.number = List.range' first made.length
  within : made.length ≤ allowed
  lasted : ∀ m ∈ made, (operation m.number).Lasts m.begun m.course m.ended m.outcome
  begins : ∃ m, made.head? = some m ∧ m.begun = start
  spaced : made.IsChain fun m n => m.Failed ∧ n.begun = m.ended + gap m.number
  ends : ∃ m, made.getLast? = some m ∧ m.ended = finish ∧ m.outcome = r ∧ (m.Failed → made.length = allowed)
  courses : made.flatMap Made.course = t

namespace Schedule

variable {m n : Made S α} {made : List (Made S α)}

theorem ne_nil (h : Schedule operation gap first allowed start t finish r made) : made ≠ [] := by
  rintro rfl
  obtain ⟨_, hhead, _⟩ := h.begins
  cases hhead

/-- A single attempt. -/
theorem single (hlasts : (operation first).Lasts start t finish r)
    (hfinal : more = 0 ∨ ∀ e, r ≠ .ok (.error e)) :
    Schedule operation gap first (more + 1) start t finish r [⟨first, start, t, finish, r⟩] where
  numbered := rfl
  within := Nat.le_add_left 1 more
  lasted := List.forall_mem_singleton.2 hlasts
  begins := ⟨_, rfl, rfl⟩
  spaced := List.isChain_singleton _
  ends := by
    refine ⟨_, rfl, rfl, rfl, ?_⟩
    rintro ⟨e, he⟩
    obtain rfl := hfinal.resolve_right fun hnone => hnone e he
    rfl
  courses := List.append_nil t

theorem of_singleton (h : Schedule operation gap first (more + 1) start t finish r [m]) :
    (operation first).Lasts start t finish r ∧ (more = 0 ∨ ∀ e, r ≠ .ok (.error e)) := by
  obtain ⟨k, hlast, hended, houtcome, hfinal⟩ := h.ends
  obtain rfl : m = k := Option.some.inj hlast
  obtain ⟨_, hhead, hbegun⟩ := h.begins
  cases hhead
  obtain rfl : m.number = first := (List.cons.inj h.numbered).1
  have hcourse : m.course = t := (List.append_nil _).symm.trans h.courses
  have hlasted := h.lasted m List.mem_cons_self
  rw [hbegun, hcourse, hended, houtcome] at hlasted
  refine ⟨hlasted, ?_⟩
  rcases Nat.eq_zero_or_pos more with hmore | hmore
  · exact .inl hmore
  · refine .inr fun e he => ?_
    have hlength := hfinal ⟨e, houtcome.trans he⟩
    simp only [List.length_singleton] at hlength
    omega

/-- An attempt that fails comes before the others. -/
theorem cons (hfailed : m.Failed) (hlasts : (operation m.number).Lasts m.begun m.course m.ended m.outcome)
    (h : Schedule operation gap (m.number + 1) allowed (m.ended + gap m.number) u finish r made) :
    Schedule operation gap m.number (allowed + 1) m.begun (m.course ++ u) finish r (m :: made) where
  numbered := by rw [List.map_cons, h.numbered, List.length_cons, List.range'_succ]
  within := Nat.succ_le_succ h.within
  lasted := List.forall_mem_cons.2 ⟨hlasts, h.lasted⟩
  begins := ⟨m, rfl, rfl⟩
  spaced := by
    obtain ⟨n, hhead, hbegun⟩ := h.begins
    refine List.isChain_cons.2 ⟨fun n' hn' => ?_, h.spaced⟩
    cases hhead.symm.trans hn'
    exact ⟨hfailed, hbegun⟩
  ends := by
    obtain ⟨n, hlast, hended, houtcome, hfinal⟩ := h.ends
    refine ⟨n, ?_, hended, houtcome, fun hn => congrArg (· + 1) (hfinal hn)⟩
    rw [List.getLast?_cons, hlast]
    rfl
  courses := by rw [List.flatMap_cons, h.courses]

theorem of_cons_cons (h : Schedule operation gap first (allowed + 1) start t finish r (m :: n :: made)) :
    ∃ e u, t = m.course ++ u ∧ (operation first).Lasts start m.course m.ended (.ok (.error e)) ∧
      Schedule operation gap (first + 1) allowed (m.ended + gap first) u finish r (n :: made) := by
  obtain ⟨⟨⟨e, he⟩, hbegun⟩, hspaced⟩ := List.isChain_cons_cons.1 h.spaced
  obtain ⟨_, hhead, hstart⟩ := h.begins
  cases hhead
  obtain ⟨hlasts, hlasted⟩ := List.forall_mem_cons.1 h.lasted
  obtain ⟨rfl, hnumbered⟩ := List.cons_eq_cons.1 h.numbered
  rw [hstart, he] at hlasts
  refine ⟨e, (n :: made).flatMap Made.course, h.courses.symm, hlasts, ?_⟩
  exact {
    numbered := hnumbered
    within := Nat.le_of_succ_le_succ h.within
    lasted := hlasted
    begins := ⟨n, rfl, hbegun⟩
    spaced := hspaced
    ends := by
      obtain ⟨k, hlast, hended, houtcome, hfinal⟩ := h.ends
      exact ⟨k, hlast, hended, houtcome, fun hk => Nat.succ.inj (hfinal hk)⟩
    courses := rfl }

theorem of_tries (h : Tries policy operation more first start t finish r) :
    ∃ made, Schedule operation policy.delayFor first (more + 1) start t finish r made := by
  induction h with
  | last attempted final => exact ⟨_, single attempted final⟩
  | @again more attempt start middle e t u finish r attempted _ ih =>
    obtain ⟨made, hmade⟩ := ih
    exact ⟨_, cons (m := ⟨attempt, start, t, middle, .ok (.error e)⟩) ⟨e, rfl⟩ attempted hmade⟩

theorem tries (h : Schedule operation policy.delayFor first (more + 1) start t finish r made) :
    Tries policy operation more first start t finish r := by
  induction more generalizing first start t made with
  | zero =>
    match made, h with
    | [], h => exact absurd rfl h.ne_nil
    | [m], h => exact .last h.of_singleton.1 (.inl rfl)
    | m :: n :: made, h => exact absurd h.within (by simp)
  | succ more ih =>
    match made, h with
    | [], h => exact absurd rfl h.ne_nil
    | [m], h => exact .last h.of_singleton.1 h.of_singleton.2
    | m :: n :: made, h =>
      obtain ⟨e, u, rfl, hlasts, hrest⟩ := h.of_cons_cons
      exact .again hlasts (ih hrest)

end Schedule

/-- The courses of a retry are those that a schedule of its attempts tells. -/
theorem lasts_retry_iff : (policy.retry operation).Lasts start t finish r ↔
    ∃ made, Schedule operation policy.delayFor 1 policy.attempts start t finish r made := by
  have hallowed : policy.attempts - 1 + 1 = policy.attempts := Nat.sub_add_cancel (Nat.le_max_right _ _)
  rw [lasts_retry, ← hallowed]
  exact ⟨Schedule.of_tries, fun ⟨_, h⟩ => h.tries⟩

/-! ## Sequences of outcomes -/

/-- The attempt decides what a sequence of outcomes comes to: none before it succeeds, and it does or is the last one
that is allowed. -/
structure Decides (outcome : Nat → Except Error α) (first final attempt : Nat) : Prop where
  from_first : first ≤ attempt
  to_final : attempt ≤ final
  failed : ∀ i, first ≤ i → i < attempt → ∃ e, outcome i = .error e
  decisive : attempt = final ∨ ∃ a, outcome attempt = .ok a

theorem exists_tries (policy : RetryPolicy) (start : Nat) {outcome : Nat → Except Error α}
    (h : ∀ i, first ≤ i → i ≤ first + more → ∀ begun, ∃ t ended, (operation i).Lasts begun t ended (.ok (outcome i))) :
    ∃ attempt t finish, Decides outcome first (first + more) attempt ∧
      Tries policy operation more first start t finish (.ok (outcome attempt)) := by
  induction more generalizing first start with
  | zero =>
    obtain ⟨t, ended, hlasts⟩ := h first (Nat.le_refl _) (Nat.le_refl _) start
    refine ⟨first, t, ended, ⟨Nat.le_refl _, Nat.le_refl _, ?_, .inl rfl⟩, .last hlasts (.inl rfl)⟩
    intro i hi hlt
    exact absurd hlt (Nat.not_lt.2 hi)
  | succ more ih =>
    obtain ⟨t, ended, hlasts⟩ := h first (Nat.le_refl _) (Nat.le_add_right _ _) start
    cases houtcome : outcome first with
    | ok a =>
      refine ⟨first, t, ended, ⟨Nat.le_refl _, Nat.le_add_right _ _, ?_, .inr ⟨a, houtcome⟩⟩, .last hlasts (.inr ?_)⟩
      · intro i hi hlt
        exact absurd hlt (Nat.not_lt.2 hi)
      · rw [houtcome]
        exact nofun
    | error e =>
      have hfinal : first + 1 + more = first + (more + 1) := by omega
      obtain ⟨attempt, u, finish, hdecides, htries⟩ :=
        @ih (first + 1) (ended + policy.delayFor first) fun i hi hle => h i (by omega) (by omega)
      rw [hfinal] at hdecides
      rw [houtcome] at hlasts
      refine ⟨attempt, t ++ u, finish, ⟨?_, hdecides.to_final, ?_, hdecides.decisive⟩, .again hlasts htries⟩
      · exact Nat.le_of_succ_le hdecides.from_first
      · intro i hi hlt
        rcases Nat.eq_or_lt_of_le hi with rfl | hi
        · exact ⟨e, houtcome⟩
        · exact hdecides.failed i hi hlt

/-- A retry keeps to its policy. Its courses are those that a schedule of its attempts tells, from the first attempt to
the first that succeeds or the last that is allowed, with the delays of the policy between them and none behind them.
Whatever the outcomes are, there is such a course, and the deciding outcome is its result. Delays never get shorter, and
an exponential one is never longer than its cap. -/
theorem retry_keeps_to_policy (policy : RetryPolicy) (operation : Nat → Dialogue S (Except Error α)) :
    (∀ start t finish r, (policy.retry operation).Lasts start t finish r ↔
      ∃ made, Schedule operation policy.delayFor 1 (max policy.maxAttempts 1) start t finish r made) ∧
      (∀ outcome : Nat → Except Error α,
        (∀ i, 1 ≤ i → i ≤ max policy.maxAttempts 1 → ∀ begun, ∃ t ended,
          (operation i).Lasts begun t ended (.ok (outcome i))) →
        ∀ start, ∃ attempt t finish, Decides outcome 1 (max policy.maxAttempts 1) attempt ∧
          (policy.retry operation).Lasts start t finish (.ok (outcome attempt))) ∧
      (∀ m n, m ≤ n → policy.delayFor m ≤ policy.delayFor n) ∧
      ∀ longest, policy.backoff = .exponential longest → ∀ attempt, policy.delayFor attempt ≤ longest := by
  refine ⟨fun start t finish r => lasts_retry_iff, fun outcome houtcome start => ?_, fun m n => policy.delayFor_mono,
    fun longest => delayFor_le⟩
  have hallowed : 1 + (policy.attempts - 1) = max policy.maxAttempts 1 := Nat.add_sub_cancel' (Nat.le_max_right _ _)
  rw [← hallowed] at houtcome ⊢
  obtain ⟨attempt, t, finish, hdecides, htries⟩ := exists_tries policy start houtcome
  exact ⟨attempt, t, finish, hdecides, lasts_retry.2 htries⟩

/-! ## Operations that ask nobody -/

/-- Nobody is asked anything. -/
def silent : Interface := ⟨Empty, Empty.elim⟩

/-- An operation that fails until the given attempt, and takes no time. -/
def succeedsAt (attempt : Nat) (i : Nat) : Dialogue silent (Except Error String) :=
  .done (if i < attempt then .error .missingTxHash else .ok "found")

/-- Up to three attempts, ten milliseconds apart. -/
def thrice : RetryPolicy := ⟨3, Duration.ofMillis 10, .fixed⟩

theorem retry_keeps_to_policy_of_thirdTime :
    (∃ made, Schedule (succeedsAt 3) thrice.delayFor 1 3 0 [] (Duration.ofMillis 20) (.ok (.ok "found")) made) ∧
      ∃ attempt t finish, Decides (fun i => if i < 3 then .error .missingTxHash else .ok "found") 1 3 attempt ∧
        (thrice.retry (succeedsAt 3)).Lasts 0 t finish
          (.ok (if attempt < 3 then .error .missingTxHash else .ok "found")) := by
  obtain ⟨hschedule, htotal, _⟩ := retry_keeps_to_policy thrice (succeedsAt 3)
  refine ⟨(hschedule 0 [] (Duration.ofMillis 20) (.ok (.ok "found"))).1 ?_, ?_⟩
  · exact ⟨rfl, rfl, rfl⟩
  · exact htotal _ (fun i _ _ begun => ⟨[], begun, rfl, rfl, rfl⟩) 0

end ReportRelay.RetryPolicy
