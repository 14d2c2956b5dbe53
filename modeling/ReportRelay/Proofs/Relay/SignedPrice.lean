import ReportRelay.Proofs.Relay.Estimate
import ReportRelay.Proofs.Relay.Session

/-!
# The price that is signed

Whatever estimators a relay is built with, and whatever has failed before, a cycle signs everything at one price: the
price that its estimator gives for the gas token, or the maximum where that is lower.
-/

namespace ReportRelay.Relay

open Dialogue
open Dispatch (nonempty_answer FairlyPriced PricedCourse)

variable {memory later : Memory} {t u : List (Event interface)}

/-- Whatever a source has quoted stands under its own denomination. -/
def QuotesKeyed (t : List (Event interface)) : Prop :=
  ∀ source (reply : Reply Prices) prices, (⟨.quote source, reply⟩ : Event interface) ∈ t →
    reply.outcome = .ok (.ok prices) → prices.Keyed

theorem QuotesKeyed.of_subset (h : QuotesKeyed t) (hsubset : u ⊆ t) : QuotesKeyed u := by
  intro source reply prices hmem
  exact h source reply prices (hsubset hmem)

theorem QuotesKeyed.of_sourced {quotes : List (Event priceSources)} (h : QuotesKeyed (quotes.map sourced)) :
    KeyedQuotes quotes := by
  intro source reply prices hmem
  apply h source reply prices
  exact List.mem_map.2 ⟨_, hmem, rfl⟩

/-! ## Keyed estimators stay keyed -/

theorem keyed_of_answer {e : Event Dispatch.interface} (h : (answer e.question memory).Takes u (.ok (e.answer, later)))
    (hquotes : QuotesKeyed u) (hkeyed : memory.estimator.Keyed) : later.estimator.Keyed := by
  obtain ⟨question, a⟩ := e
  by_cases hprices : question = .prices
  · subst hprices
    rcases takes_estimate h with ⟨quotes, prices, estimator, rfl, htakes, _, rfl⟩ | ⟨_, rfl⟩
    · exact (hkeyed.answersKeyed quotes prices estimator htakes hquotes.of_sourced).2
    · exact hkeyed
  · rw [estimator_of_answer hprices h]
    exact hkeyed

theorem keyed_of_perform {α : Type} {p : Dispatch.Run α} {o : Except Crash α}
    (h : (perform p memory).Takes t (.ok (o, later))) (hquotes : QuotesKeyed t) (hkeyed : memory.estimator.Keyed) :
    later.estimator.Keyed := by
  obtain ⟨es, last, henacts, _, hend⟩ := takes_answering nonempty_answer h
  obtain rfl : later = last := hend _ rfl
  apply henacts.invariant (fun m => m.estimator.Keyed) _ hkeyed
  intro e _ v hv before after htakes hbefore
  exact keyed_of_answer htakes (hquotes.of_subset hv) hbefore

/-! ## One command -/

/-- The estimator gives its prices in this course, and this is the one of the token. -/
def Estimates (estimator : Estimator) (token : String) (t : List (Event interface)) (estimated : DecCoin) : Prop :=
  ∃ quotes prices becomes, estimator.prices.Takes quotes (.ok (.ok (prices, becomes))) ∧
    quotes.map sourced <:+: t ∧ prices.find? token = some estimated

theorem exists_signed {es : List (Event Dispatch.interface)} (h : Enacts answer memory es t later) {tx : UnsignedTx}
    (htx : tx ∈ signings t) : ∃ e ∈ es, Dispatch.signed? e = some tx := by
  obtain ⟨x, hx, hsigned⟩ := mem_signings.1 htx
  obtain ⟨e, he, before, v, r, htakes, hxv⟩ := h.exists_of_mem hx
  exact ⟨e, he, signed_of_answer htakes e.answer (mem_signings.2 ⟨x, hxv, hsigned⟩)⟩

theorem signings_eq_nil {es : List (Event Dispatch.interface)} (h : Enacts answer memory es t later)
    (hnone : ∀ e ∈ es, Dispatch.signed? e = none) : signings t = [] := by
  apply List.eq_nil_iff_forall_not_mem.2
  intro tx htx
  obtain ⟨e, he, hsigned⟩ := exists_signed h htx
  rw [hnone e he] at hsigned
  cases hsigned

/-- Nothing that comes before the question about prices touches the estimator. -/
theorem estimator_of_priceless {es : List (Event Dispatch.interface)} (h : Enacts answer memory es t later)
    (hpriceless : ∀ e ∈ es, Dispatch.Priceless e) : later.estimator = memory.estimator := by
  apply h.invariant (fun m => m.estimator = memory.estimator) _ rfl
  rintro ⟨question, a⟩ he v _ before after htakes hbefore
  refine (estimator_of_answer ?_ htakes).trans hbefore
  rintro rfl
  exact (hpriceless _ he).2 a rfl

theorem fairlyPriced_of_course {settings : Dispatch.Settings} {es : List (Event Dispatch.interface)}
    (hcourse : PricedCourse settings es) (henacts : Enacts answer memory es t later) (hquotes : QuotesKeyed t)
    (hkeyed : memory.estimator.Keyed) (hsigns : signings t ≠ []) :
    ∃ estimated, Estimates memory.estimator settings.gasToken t estimated ∧
      ∀ tx ∈ signings t, FairlyPriced settings estimated tx.gasPrice := by
  cases hcourse with
  | unsigned unsigned => exact absurd (signings_eq_nil henacts unsigned) hsigns
  | @priced before after toPrices prices estimated priceless prices_eq found signed =>
    obtain ⟨u, v, middle, rfl, hbefore, hrest⟩ := henacts.exists_of_append
    have hestimator : middle.estimator = memory.estimator := estimator_of_priceless hbefore priceless
    cases hrest with
    | crashed =>
      refine absurd (signings_eq_nil henacts ?_) hsigns
      exact List.forall_mem_append.2 ⟨fun e he => (priceless e he).1, List.forall_mem_singleton.2 rfl⟩
    | @next _ _ _ _ _ w x first _ =>
      rcases takes_estimate first with ⟨quotes, answered, becomes, rfl, htakes, hreply, _⟩ | ⟨hnone, _⟩
      · have hsame : toPrices = .ok answered := hreply
        rw [hsame] at prices_eq
        cases prices_eq
        rw [hestimator] at htakes
        have hinfix : quotes.map sourced <:+: u ++ (quotes.map sourced ++ x) := ⟨u, x, List.append_assoc _ _ _⟩
        have hprices := hkeyed.answersKeyed quotes _ becomes htakes (hquotes.of_subset hinfix.subset).of_sourced
        refine ⟨estimated, ⟨quotes, _, becomes, htakes, hinfix, found⟩, fun tx htx => ?_⟩
        have hprice : tx.gasPrice = (Dispatch.cappedPrice settings estimated).1 := by
          obtain ⟨e, he, hsigned⟩ := exists_signed henacts htx
          rcases List.mem_append.1 he with he | he
          · rw [(priceless e he).1] at hsigned
            cases hsigned
          rcases List.mem_cons.1 he with rfl | he
          · cases hsigned
          · exact signed e he tx hsigned
        rw [hprice]
        exact Dispatch.fairlyPriced_cappedPrice (hprices.1.denom_eq found)
      · exact absurd prices_eq (hnone prices)

theorem fairlyPriced_of_command {command : Dispatch.Command} {r : Except Crash (Except Crash Unit × Memory)}
    (h : (perform command.dialogue memory).Takes t r) (hquotes : QuotesKeyed t) (hkeyed : memory.estimator.Keyed)
    (hsigns : signings t ≠ []) :
    ∃ settings estimated, command.SendsUnder settings ∧ Estimates memory.estimator settings.gasToken t estimated ∧
      ∀ tx ∈ signings t, FairlyPriced settings estimated tx.gasPrice := by
  obtain ⟨es, last, henacts, ⟨fs, o, hbegins⟩, _⟩ := takes_answering nonempty_answer h
  rcases Dispatch.cases_of_pricing hbegins with hnone | ⟨settings, hsends, hcourse⟩
  · refine absurd (signings_eq_nil henacts fun e he => ?_) hsigns
    exact hnone e (List.mem_append_left fs he)
  · obtain ⟨estimated, hestimates, hfair⟩ := fairlyPriced_of_course hcourse.of_append henacts hquotes hkeyed hsigns
    exact ⟨settings, estimated, hsends, hestimates, hfair⟩

/-! ## Sessions -/

section
variable {W : Type} {pass : Nat → W → W} {answers : (q : interface.Question) → W → interface.Answer q × W}

/-- Every source of the world keys its prices by their own denominations. -/
def KeyedSources (answers : (q : interface.Question) → W → interface.Answer q × W) : Prop :=
  ∀ source world (reply : Reply Prices) prices, (answers (.quote source) world).1 = reply →
    reply.outcome = .ok (.ok prices) → prices.Keyed

theorem KeyedSources.transcript {α : Type} (h : KeyedSources answers) (p : Run α) (world : W) :
    QuotesKeyed (p.transcript pass answers world) := by
  intro source reply prices hmem houtcome
  obtain ⟨⟨met, e⟩, hstep, rfl⟩ := List.mem_map.1 hmem
  exact h source met reply prices (answer_eq_of_mem_trace hstep).symm houtcome

/-- All that is signed in one part of a session is signed at one fair price, the one that the estimator gives there. -/
theorem fairlyPriced_of_session (hsources : KeyedSources answers) (commands : List Dispatch.Command) (world : W)
    (hkeyed : memory.estimator.Keyed) : ∀ part ∈ conduct pass answers commands memory world,
      signings part.course ≠ [] → ∃ settings estimated, part.command.SendsUnder settings ∧
        Estimates part.memory.estimator settings.gasToken part.course estimated ∧
        ∀ tx ∈ signings part.course, FairlyPriced settings estimated tx.gasPrice := by
  induction commands generalizing memory world with
  | nil => exact List.forall_mem_nil _
  | cons command rest ih =>
    have hquotes : QuotesKeyed ((perform command.dialogue memory).transcript pass answers world) :=
      hsources.transcript (perform command.dialogue memory) world
    have htakes : (perform command.dialogue memory).Takes _ ((perform command.dialogue memory).run pass answers world).1 :=
      takes_transcript (perform command.dialogue memory) world
    refine List.forall_mem_cons.2 ⟨fun hsigns => fairlyPriced_of_command htakes hquotes hkeyed hsigns, ?_⟩
    apply ih
    generalize ((perform command.dialogue memory).run pass answers world).1 = outcome at htakes
    cases outcome with
    | error c => exact hkeyed
    | ok result => exact keyed_of_perform htakes hquotes hkeyed

end

/-- A world with a store and a client that obliges. The source quotes one token for the gas. -/
def obliging : (q : interface.Question) → Store → interface.Answer q × Store
  | .client _ (.createAndSign _ _), store => (.done (.ok []), store)
  | .client _ (.account _), store => (.ok ⟨0, 0⟩, store)
  | .client _ (.simulateEach messages _), store => (.ok ⟨messages, []⟩, store)
  | .client _ (.simulate _ _), store => (.ok (0 : Nat), store)
  | .client _ .latestBlock, store => (.ok (0 : Nat), store)
  | .client _ (.broadcast _), store => (.ok ⟨"hash", 0, ""⟩, store)
  | .client _ (.lookUp txHash), store => (.ok ⟨txHash, 0, 0, "", []⟩, store)
  | .keystore .accounts, store => (.ok [], store)
  | .keystore (.sign _ _), store => (.ok [], store)
  | .quote _, store => (.ok (.single ⟨"token", .one⟩), store)
  | .now, store => ((0 : Int), store)
  | .turn, store => ((0 : Nat), store)
  | .store statement, store => store.execute "chain" statement
  | .storeAll ids state txHash, store => store.updateAll "chain" ids state txHash
  | .log _, store => ((), store)

theorem keyedSources_obliging : KeyedSources obliging := by
  intro source store reply prices hreply houtcome
  cases hreply
  cases houtcome
  exact Prices.keyed_single _

/-- A cycle that sends one payment, with no more than nothing to be paid for the gas. -/
def cappedCycle : List Part :=
  conduct (fun _ store => store) obliging
    [.enqueue "contract" Dispatch.payment, .pollCycle { Dispatch.limitedSettings 1 with maxGasPrice := some .zero }]
    ⟨⟨"a", [("a12uel5l", [])]⟩, .withFallback (some (.source 0)) ⟨"token", .zero⟩⟩ Dispatch.emptyStore

theorem fairlyPriced_of_cappedCycle :
    KeyedSources obliging ∧
      (cappedCycle.map fun part => (signings part.course).map UnsignedTx.gasPrice) = [[], [⟨"token", .zero⟩]] ∧
      ∀ part ∈ cappedCycle, signings part.course ≠ [] → ∃ settings estimated, part.command.SendsUnder settings ∧
        Estimates part.memory.estimator settings.gasToken part.course estimated ∧
        ∀ tx ∈ signings part.course, FairlyPriced settings estimated tx.gasPrice := by
  have hkeyed : (Estimator.withFallback (some (.source 0)) ⟨"token", .zero⟩).Keyed := by
    apply Estimator.Keyed.withFallback
    intro estimator hsome
    cases hsome
    exact .source 0
  refine ⟨keyedSources_obliging, ?_, fairlyPriced_of_session keyedSources_obliging _ _ hkeyed⟩
  decide +kernel

end ReportRelay.Relay
