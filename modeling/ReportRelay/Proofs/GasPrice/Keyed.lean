import ReportRelay.GasPrice.Estimator
import ReportRelay.Proofs.Dialogue.Course

/-!
# Prices under their own denominations

A price is looked up by its key and used for its denomination. Where the two agree at the sources, they agree in
every answer of an estimator that is built on them, and in all that it remembers.
-/

namespace ReportRelay

/-- Every price stands under its own denomination. -/
def Prices.Keyed (prices : Prices) : Prop :=
  ∀ entry ∈ prices.entries, entry.2.denom = entry.1

theorem Prices.Keyed.denom_eq {prices : Prices} {key : String} {price : DecCoin} (h : prices.Keyed)
    (hfind : prices.find? key = some price) : price.denom = key := by
  obtain ⟨entries⟩ := prices
  change entries.lookup key = some price at hfind
  induction entries with
  | nil => cases hfind
  | cons entry rest ih =>
    rw [List.lookup_cons] at hfind
    split at hfind
    · next heq =>
      cases hfind
      rw [eq_of_beq heq]
      exact h entry List.mem_cons_self
    · exact ih (fun entry hentry => h entry (List.mem_cons_of_mem _ hentry)) hfind

theorem Prices.keyed_single (price : DecCoin) : (Prices.single price).Keyed :=
  List.forall_mem_singleton.2 rfl

/-- Whatever the sources quote stands under its own denomination. -/
def KeyedQuotes (t : List (Event priceSources)) : Prop :=
  ∀ number reply prices, (⟨.quote number, reply⟩ : Event priceSources) ∈ t →
    reply.outcome = .ok (.ok prices) → prices.Keyed

theorem keyedQuotes_append {t u : List (Event priceSources)} :
    KeyedQuotes (t ++ u) ↔ KeyedQuotes t ∧ KeyedQuotes u := by
  constructor
  · intro h
    constructor
    · intro number reply prices hmem
      exact h number reply prices (List.mem_append_left u hmem)
    · intro number reply prices hmem
      exact h number reply prices (List.mem_append_right t hmem)
  · rintro ⟨ht, hu⟩ number reply prices hmem
    rcases List.mem_append.1 hmem with hmem | hmem
    · exact ht number reply prices hmem
    · exact hu number reply prices hmem

namespace Estimator

/-- All prices that an estimator has of its own, fixed or remembered, stand under their own denominations. -/
inductive Keyed : Estimator → Prop
  | fixed {prices : Prices} (keyed : prices.Keyed) : Keyed (fixed prices)
  | source (number : Nat) : Keyed (source number)
  | caching {inner : Estimator} {last : Option Prices} (keyed : Keyed inner)
    (remembered : ∀ prices, last = some prices → prices.Keyed) : Keyed (caching inner last)
  | must {estimators : List Estimator} (all : ∀ estimator ∈ estimators, Keyed estimator) : Keyed (must estimators)

theorem Keyed.withFallback {primary : Option Estimator} (h : ∀ estimator, primary = some estimator → Keyed estimator)
    (fallback : DecCoin) : Keyed (Estimator.withFallback primary fallback) := by
  refine .must fun estimator hmem => ?_
  rcases List.mem_append.1 hmem with hmem | hmem
  · rw [Option.mem_toList, Option.map_eq_some_iff] at hmem
    obtain ⟨inner, rfl, rfl⟩ := hmem
    exact .caching (h inner rfl) nofun
  · rw [List.mem_singleton.1 hmem]
    exact .fixed (Prices.keyed_single fallback)

/-- What the estimator answers to keyed quotes is keyed, and so is what becomes of it. -/
def AnswersKeyed (estimator : Estimator) : Prop :=
  ∀ t prices later, estimator.prices.Takes t (.ok (.ok (prices, later))) → KeyedQuotes t →
    prices.Keyed ∧ later.Keyed

theorem keyed_of_firstPrices {estimators later : List Estimator} {index : Nat} {failures : List String}
    {t : List (Event priceSources)} {prices : Prices} (hkeyed : ∀ estimator ∈ estimators, estimator.Keyed)
    (hanswers : ∀ estimator ∈ estimators, estimator.AnswersKeyed)
    (h : (firstPrices index failures estimators).Takes t (.ok (prices, later))) (hquotes : KeyedQuotes t) :
    prices.Keyed ∧ ∀ estimator ∈ later, estimator.Keyed := by
  induction estimators generalizing index failures t later with
  | nil => cases h.2
  | cons estimator rest ih =>
    rw [List.forall_mem_cons] at hkeyed hanswers
    rw [firstPrices] at h
    obtain ⟨outcome, u, v, rfl, hu, hv⟩ := Dialogue.takes_monad_bind_ok.1 h
    rw [keyedQuotes_append] at hquotes
    match outcome, hv with
    | .ok (answered, becomes), hv =>
      obtain ⟨rfl, hr⟩ := hv
      cases hr
      obtain ⟨hprices, hbecomes⟩ := hanswers.1 u _ _ hu hquotes.1
      exact ⟨hprices, List.forall_mem_cons.2 ⟨hbecomes, hkeyed.2⟩⟩
    | .error e, hv =>
      obtain ⟨_, w, x, rfl, _, hx⟩ := Dialogue.takes_monad_bind_ok.1 hv
      obtain ⟨⟨answered, others⟩, y, z, rfl, hy, hz⟩ := Dialogue.takes_monad_bind_ok.1 hx
      obtain ⟨rfl, hr⟩ := hz
      cases hr
      rw [keyedQuotes_append, List.append_nil] at hquotes
      obtain ⟨hprices, hothers⟩ := ih hkeyed.2 hanswers.2 hy hquotes.2.2
      exact ⟨hprices, List.forall_mem_cons.2 ⟨hkeyed.1, hothers⟩⟩

/-- An estimator stays keyed, whatever fails around it, and never answers anything else. -/
theorem Keyed.answersKeyed {estimator : Estimator} (h : estimator.Keyed) : estimator.AnswersKeyed := by
  induction h with
  | @fixed prices keyed =>
    intro t answered later htakes hquotes
    obtain ⟨rfl, hr⟩ := htakes
    cases hr
    exact ⟨keyed, .fixed keyed⟩
  | source number =>
    intro t answered later htakes hquotes
    rw [Estimator.prices] at htakes
    obtain ⟨outcome, u, v, rfl, hu, hv⟩ := Dialogue.takes_monad_bind_ok.1 htakes
    match outcome, hv with
    | .error e, hv => cases hv.2
    | .ok quoted, hv =>
      obtain ⟨rfl, hr⟩ := hv
      cases hr
      rw [List.append_nil] at hquotes
      obtain ⟨reply, x, y, rfl, hx, hy⟩ := Dialogue.takes_monad_bind_ok.1 hu
      obtain ⟨rfl, houtcome⟩ := Attempt.takes_receive.1 hy
      obtain ⟨a, rfl, ha⟩ := Dialogue.takes_question.1 hx
      cases ha
      refine ⟨hquotes number reply _ ?_ houtcome.symm, .source number⟩
      exact List.mem_append_left _ (List.mem_singleton_self _)
  | @caching inner last hinner hlast ih =>
    intro t answered later htakes hquotes
    rw [Estimator.prices] at htakes
    obtain ⟨outcome, u, v, rfl, hu, hv⟩ := Dialogue.takes_monad_bind_ok.1 htakes
    rw [keyedQuotes_append] at hquotes
    match outcome, hv with
    | .ok (fresh, becomes), hv =>
      obtain ⟨rfl, hr⟩ := hv
      cases hr
      obtain ⟨hprices, hbecomes⟩ := ih u _ _ hu hquotes.1
      refine ⟨hprices, .caching hbecomes fun prices hsome => ?_⟩
      cases hsome
      exact hprices
    | .error e, hv =>
      cases last with
      | none => cases hv.2
      | some cached =>
        obtain ⟨_, w, x, rfl, _, hx⟩ := Dialogue.takes_monad_bind_ok.1 hv
        cases hx.2
        exact ⟨hlast _ rfl, .caching hinner hlast⟩
  | @must estimators hall ih =>
    intro t answered later htakes hquotes
    rw [Estimator.prices] at htakes
    obtain ⟨⟨first, becomes⟩, u, v, rfl, hu, hv⟩ := Dialogue.takes_monad_bind_ok.1 htakes
    obtain ⟨rfl, hr⟩ := hv
    cases hr
    rw [List.append_nil] at hquotes
    obtain ⟨hprices, hbecomes⟩ := keyed_of_firstPrices hall ih hu hquotes
    exact ⟨hprices, .must hbecomes⟩

end Estimator

end ReportRelay
