import Mathlib.Data.List.Forall2
import ReportRelay.GasPrice.Estimator
import ReportRelay.Proofs.Dialogue.Transcript

/-!
# Prices across failures

An estimator is called again and again, and only an answer changes what it remembers. One that remembers serves the
latest answer of the estimator that it wraps, and the first of several that answers is the only one to be heard. Behind
a fallback, both together never fail: the fixed price is served until the primary estimator has answered once, and from
then on its latest answer.
-/

namespace ReportRelay.Estimator

open Dialogue

/-- What comes of a call for prices. -/
abbrev Outcome := Except Crash (Except Error Prices)

structure Call where
  events : List (Event priceSources)
  outcome : Outcome

variable {estimator later inner : Estimator} {estimators : List Estimator} {last : Option Prices}
  {prices fixedPrices : Prices} {t u v : List (Event priceSources)} {calls own : List Call} {outcome : Outcome}

/-! ## Calls -/

/-- What is asked in a call, what comes of it, and what the estimator has become. -/
inductive Consults : Estimator → List (Event priceSources) → Outcome → Estimator → Prop
  | answered {estimator later : Estimator} {t : List (Event priceSources)} {prices : Prices}
    (takes : estimator.prices.Takes t (.ok (.ok (prices, later)))) : Consults estimator t (.ok (.ok prices)) later
  | failed {estimator : Estimator} {t : List (Event priceSources)} {e : Error}
    (takes : estimator.prices.Takes t (.ok (.error e))) : Consults estimator t (.ok (.error e)) estimator
  | crashed {estimator : Estimator} {t : List (Event priceSources)} {c : Crash}
    (takes : estimator.prices.Takes t (.error c)) : Consults estimator t (.error c) estimator

/-- A run of calls, one after the other. -/
inductive Run : Estimator → List Call → Estimator → Prop
  | done {estimator : Estimator} : Run estimator [] estimator
  | next {estimator middle later : Estimator} {t : List (Event priceSources)} {outcome : Outcome} {calls : List Call}
    (first : Consults estimator t outcome middle) (rest : Run middle calls later) :
    Run estimator (⟨t, outcome⟩ :: calls) later

section
variable {σ : Type} (pass : Nat → σ → σ) (answer : (q : PriceQuestion) → σ → q.Answer × σ)

/-- So many calls of an estimator in a world that answers it. -/
def callsIn : Nat → Estimator → σ → List Call
  | 0, _, _ => []
  | n + 1, estimator, s =>
    let events := estimator.prices.transcript (S := priceSources) pass answer s
    match estimator.prices.run (S := priceSources) pass answer s with
    | (.ok (.ok (prices, later)), s) => ⟨events, .ok (.ok prices)⟩ :: callsIn n later s
    | (.ok (.error e), s) => ⟨events, .ok (.error e)⟩ :: callsIn n estimator s
    | (.error c, s) => ⟨events, .error c⟩ :: callsIn n estimator s

/-- Whatever the world answers, every estimator can be called so often. -/
theorem exists_run (n : Nat) (estimator : Estimator) (s : σ) :
    ∃ later, Run estimator (callsIn pass answer n estimator s) later := by
  induction n generalizing estimator s with
  | zero => exact ⟨estimator, .done⟩
  | succ n ih =>
    have htakes : estimator.prices.Takes (estimator.prices.transcript (S := priceSources) pass answer s)
        (estimator.prices.run (S := priceSources) pass answer s).1 := takes_transcript _ s
    rw [callsIn]
    generalize estimator.prices.run (S := priceSources) pass answer s = ended at htakes
    match ended, htakes with
    | (.ok (.ok (prices, becomes)), s), htakes =>
      obtain ⟨later, hrest⟩ := ih becomes s
      exact ⟨later, .next (.answered htakes) hrest⟩
    | (.ok (.error e), s), htakes =>
      obtain ⟨later, hrest⟩ := ih estimator s
      exact ⟨later, .next (.failed htakes) hrest⟩
    | (.error c, s), htakes =>
      obtain ⟨later, hrest⟩ := ih estimator s
      exact ⟨later, .next (.crashed htakes) hrest⟩

end

/-- The questions to outside sources, without what was logged. -/
def asked (t : List (Event priceSources)) : List (Event priceSources) :=
  t.filter fun
    | ⟨.quote _, _⟩ => true
    | ⟨.log _, _⟩ => false

@[simp] theorem asked_append : asked (t ++ u) = asked t ++ asked u :=
  List.filter_append t u

theorem takes_warn_bind {α : Type} {text : String} {p : Dialogue priceSources α} {r : Except Crash α}
    (h : ((warn text).bind fun _ => p).Takes t r) : ∃ u, asked t = asked u ∧ p.Takes u r := by
  obtain ⟨_, u, rfl, hu⟩ := h
  exact ⟨u, rfl, hu⟩

theorem consults_fixed (h : Consults (fixed prices) t outcome later) :
    t = [] ∧ outcome = .ok (.ok prices) ∧ later = fixed prices := by
  cases h with
  | answered takes =>
    rw [Estimator.prices] at takes
    obtain ⟨rfl, hr⟩ := takes
    cases hr
    exact ⟨rfl, rfl, rfl⟩
  | failed takes | crashed takes =>
    rw [Estimator.prices] at takes
    cases takes.2

/-! ## The latest answer -/

def answer? : Outcome → Option Prices
  | .ok (.ok prices) => some prices
  | _ => none

/-- The latest answer among the outcomes. -/
def latest? (outcomes : List Outcome) : Option Prices :=
  (outcomes.filterMap answer?).getLast?

theorem latest?_cons (outcome : Outcome) (outcomes : List Outcome) (last : Option Prices) :
    (latest? (outcome :: outcomes)).or last = (latest? outcomes).or ((answer? outcome).or last) := by
  unfold latest?
  cases h : answer? outcome with
  | none => rw [List.filterMap_cons_none h, Option.none_or]
  | some prices =>
    rw [List.filterMap_cons_some h, List.getLast?_cons]
    cases (outcomes.filterMap answer?).getLast? <;> rfl

/-- At every place of a run, the call asks what the wrapped estimator asks in its own call there, and what it serves
goes by what has come of that call and by the latest answer up to it. -/
structure Relays (serves : Option Prices → Outcome → Outcome → Prop) (last : Option Prices) (own calls : List Call) :
    Prop where
  length_eq : own.length = calls.length
  asked_eq : ∀ (k : Nat) (source call : Call), own[k]? = some source → calls[k]? = some call →
    asked call.events = asked source.events
  served : ∀ (k : Nat) (source call : Call), own[k]? = some source → calls[k]? = some call →
    serves ((latest? ((own.take (k + 1)).map Call.outcome)).or last) source.outcome call.outcome

variable {serves : Option Prices → Outcome → Outcome → Prop}

theorem Relays.nil {last : Option Prices} : Relays serves last [] [] :=
  ⟨rfl, by simp, by simp⟩

theorem Relays.cons {source call : Call} (hasked : asked call.events = asked source.events)
    (hserved : serves ((answer? source.outcome).or last) source.outcome call.outcome)
    (h : Relays serves ((answer? source.outcome).or last) own calls) :
    Relays serves last (source :: own) (call :: calls) where
  length_eq := congrArg (· + 1) h.length_eq
  asked_eq := by
    rintro (_ | k) a b ha hb
    · cases ha
      cases hb
      exact hasked
    · exact h.asked_eq k a b ha hb
  served := by
    rintro (_ | k) a b ha hb
    · cases ha
      cases hb
      rw [List.take_succ_cons, List.map_cons, latest?_cons]
      exact hserved
    · rw [List.take_succ_cons, List.map_cons, latest?_cons]
      exact h.served k a b ha hb

/-- What holds of every call, whatever is remembered, holds throughout a run. -/
theorem exists_relays (wrap : Estimator → Option Prices → Estimator)
    (hstep : ∀ inner last t outcome later, Consults (wrap inner last) t outcome later →
      ∃ u source inner', Consults inner u source inner' ∧ asked t = asked u ∧
        serves ((answer? source).or last) source outcome ∧ later = wrap inner' ((answer? source).or last))
    (h : Run (wrap inner last) calls later) : ∃ own inner', Run inner own inner' ∧ Relays serves last own calls := by
  generalize hwrapped : wrap inner last = wrapped at h
  induction h generalizing inner last with
  | done => exact ⟨[], inner, .done, .nil⟩
  | next first _ ih =>
    subst hwrapped
    obtain ⟨u, source, inner', hsource, hasked, hserved, rfl⟩ := hstep _ _ _ _ _ first
    obtain ⟨own, inner'', hown, hrelays⟩ := ih rfl
    exact ⟨⟨u, source⟩ :: own, inner'', .next hsource hown, hrelays.cons hasked hserved⟩

/-! ## Remembering -/

/-- An estimator that remembers serves the latest answer, or an error before the first one. -/
inductive Remembers : Option Prices → Outcome → Outcome → Prop
  | latest {prices : Prices} {own : Except Error Prices} : Remembers (some prices) (.ok own) (.ok (.ok prices))
  | nothing {own : Except Error Prices} {e : Error} : Remembers none (.ok own) (.ok (.error e))
  | crashed {latest : Option Prices} {c : Crash} : Remembers latest (.error c) (.error c)

theorem consults_caching (h : Consults (caching inner last) t outcome later) :
    ∃ u source inner', Consults inner u source inner' ∧ asked t = asked u ∧
      Remembers ((answer? source).or last) source outcome ∧ later = caching inner' ((answer? source).or last) := by
  cases h with
  | answered takes =>
    rw [Estimator.prices] at takes
    obtain ⟨source, u, v, rfl, hu, hv⟩ := takes_monad_bind_ok.1 takes
    match source, hv with
    | .ok (fresh, becomes), hv =>
      obtain ⟨rfl, hr⟩ := hv
      cases hr
      exact ⟨u, _, becomes, .answered hu, by rw [List.append_nil], .latest, rfl⟩
    | .error e, hv =>
      cases last with
      | none => cases hv.2
      | some cached =>
        obtain ⟨w, hw, rfl, hr⟩ := takes_warn_bind hv
        cases hr
        refine ⟨u, _, inner, .failed hu, ?_, .latest, rfl⟩
        rw [asked_append, hw]
        exact List.append_nil _
  | failed takes =>
    rw [Estimator.prices] at takes
    obtain ⟨source, u, v, rfl, hu, hv⟩ := takes_monad_bind_ok.1 takes
    match source, hv with
    | .ok (fresh, becomes), hv => cases hv.2
    | .error e, hv =>
      cases last with
      | none =>
        obtain ⟨rfl, hr⟩ := hv
        cases hr
        exact ⟨u, _, inner, .failed hu, by rw [List.append_nil], .nothing, rfl⟩
      | some cached =>
        obtain ⟨w, _, rfl, hr⟩ := takes_warn_bind hv
        cases hr
  | crashed takes =>
    rw [Estimator.prices] at takes
    rcases takes_monad_bind.1 takes with ⟨c, hc, hr⟩ | ⟨source, u, v, rfl, _, hv⟩
    · cases hr
      exact ⟨t, _, inner, .crashed hc, rfl, .crashed, rfl⟩
    · match source, hv with
      | .ok (fresh, becomes), hv => cases hv.2
      | .error e, hv =>
        cases last with
        | none => cases hv.2
        | some cached =>
          obtain ⟨w, _, _, hr⟩ := takes_warn_bind hv
          cases hr

/-! ## The first of several -/

def Fails (estimator : Estimator) (t : List (Event priceSources)) : Prop :=
  ∃ e, Consults estimator t (.ok (.error e)) estimator

/-- What comes of trying estimators in order: the first one that does not fail decides, those behind it are not asked,
and when all of them have failed, the call crashes. -/
inductive Decides (estimators : List Estimator) : List (Event priceSources) → Outcome → List Estimator → Prop
  | answered {before behind : List Estimator} {decisive becomes : Estimator} {us : List (List (Event priceSources))}
    {u : List (Event priceSources)} {prices : Prices} (order : estimators = before ++ decisive :: behind)
    (failed : List.Forall₂ Fails before us) (answers : Consults decisive u (.ok (.ok prices)) becomes) :
    Decides estimators (us.flatten ++ u) (.ok (.ok prices)) (before ++ becomes :: behind)
  | exhausted {us : List (List (Event priceSources))} {text : String} (failed : List.Forall₂ Fails estimators us) :
    Decides estimators us.flatten (.error (.text text)) estimators
  | crashed {before behind : List Estimator} {decisive : Estimator} {us : List (List (Event priceSources))}
    {u : List (Event priceSources)} {c : Crash} (order : estimators = before ++ decisive :: behind)
    (failed : List.Forall₂ Fails before us) (crashes : Consults decisive u (.error c) decisive) :
    Decides estimators (us.flatten ++ u) (.error c) estimators

theorem Decides.behind {laters : List Estimator} (hfails : Fails estimator t)
    (h : Decides estimators u outcome laters) :
    Decides (estimator :: estimators) (t ++ u) outcome (estimator :: laters) := by
  cases h with
  | @answered before behind decisive becomes us u prices order failed answers =>
    subst order
    rw [← List.append_assoc]
    change Decides (_ :: before ++ _) ((t :: us).flatten ++ u) _ (_ :: before ++ _)
    exact .answered rfl (.cons hfails failed) answers
  | @exhausted us text failed =>
    change Decides _ (t :: us).flatten _ _
    exact .exhausted (.cons hfails failed)
  | @crashed before behind decisive us u c order failed crashes =>
    subst order
    rw [← List.append_assoc]
    change Decides (_ :: before ++ _) ((t :: us).flatten ++ u) _ (_ :: before ++ _)
    exact .crashed rfl (.cons hfails failed) crashes

theorem decides_of_firstPrices {index : Nat} {failures : List String} {r : Except Crash (Prices × List Estimator)}
    (h : (firstPrices index failures estimators).Takes t r) :
    ∃ u, asked t = asked u ∧
      ((∃ prices laters, r = .ok (prices, laters) ∧ Decides estimators u (.ok (.ok prices)) laters) ∨
        ∃ c, r = .error c ∧ Decides estimators u (.error c) estimators) := by
  induction estimators generalizing index failures t r with
  | nil =>
    obtain ⟨rfl, rfl⟩ := h
    exact ⟨[], rfl, .inr ⟨_, rfl, .exhausted .nil⟩⟩
  | cons estimator rest ih =>
    rw [firstPrices] at h
    rcases takes_monad_bind.1 h with ⟨c, hc, rfl⟩ | ⟨own, u, v, rfl, hu, hv⟩
    · exact ⟨t, rfl, .inr ⟨c, rfl, .crashed (List.nil_append _).symm .nil (.crashed hc)⟩⟩
    match own, hv with
    | .ok (prices, becomes), hv =>
      obtain ⟨rfl, rfl⟩ := hv
      refine ⟨u, by rw [List.append_nil], .inl ⟨prices, becomes :: rest, rfl, ?_⟩⟩
      exact .answered (List.nil_append _).symm .nil (.answered hu)
    | .error e, hv =>
      obtain ⟨w, hasked, hw⟩ := takes_warn_bind hv
      rcases takes_monad_bind.1 hw with ⟨c, hc, rfl⟩ | ⟨⟨prices, others⟩, x, y, rfl, hx, rfl, rfl⟩
      · obtain ⟨qs, hqs, ⟨_, _, hr, _⟩ | ⟨c', hr, hdecides⟩⟩ := ih hc
        · cases hr
        · cases hr
          refine ⟨u ++ qs, ?_, .inr ⟨c, rfl, hdecides.behind ⟨e, .failed hu⟩⟩⟩
          rw [asked_append, asked_append, hasked, hqs]
      · obtain ⟨qs, hqs, ⟨_, laters, hr, hdecides⟩ | ⟨_, hr, _⟩⟩ := ih hx
        · cases hr
          refine ⟨u ++ qs, ?_, .inl ⟨prices, estimator :: others, rfl, hdecides.behind ⟨e, .failed hu⟩⟩⟩
          rw [asked_append, asked_append, hasked, List.append_nil, hqs]
        · cases hr

theorem consults_must (h : Consults (must estimators) t outcome later) :
    ∃ u laters, asked t = asked u ∧ Decides estimators u outcome laters ∧ later = must laters := by
  cases h with
  | answered takes =>
    rw [Estimator.prices] at takes
    obtain ⟨⟨prices, laters⟩, u, v, rfl, hu, rfl, hr⟩ := takes_monad_bind_ok.1 takes
    cases hr
    obtain ⟨qs, hqs, ⟨_, _, hr, hdecides⟩ | ⟨_, hr, _⟩⟩ := decides_of_firstPrices hu
    · cases hr
      exact ⟨qs, laters, by rw [List.append_nil, hqs], hdecides, rfl⟩
    · cases hr
  | failed takes =>
    rw [Estimator.prices] at takes
    obtain ⟨_, _, _, _, _, _, hr⟩ := takes_monad_bind_ok.1 takes
    cases hr
  | crashed takes =>
    rw [Estimator.prices] at takes
    rcases takes_monad_bind.1 takes with ⟨c, hc, hr⟩ | ⟨_, _, _, _, _, _, hr⟩
    · cases hr
      obtain ⟨qs, hqs, ⟨_, _, hr, _⟩ | ⟨_, hr, hdecides⟩⟩ := decides_of_firstPrices hc
      · cases hr
      · cases hr
        exact ⟨qs, estimators, hqs, hdecides, rfl⟩
    · cases hr

/-- The first estimator decides, or it fails and the others decide. -/
theorem Decides.cases_cons {laters : List Estimator} (h : Decides (estimator :: estimators) t outcome laters) :
    (∃ becomes, Consults estimator t outcome becomes ∧ (∀ e, outcome ≠ .ok (.error e)) ∧
      laters = becomes :: estimators) ∨
    ∃ u v others, Fails estimator u ∧ Decides estimators v outcome others ∧ t = u ++ v ∧
      laters = estimator :: others := by
  cases h with
  | @answered before behind decisive becomes us u prices order failed answers =>
    match before, failed, order with
    | [], .nil, order =>
      cases order
      exact .inl ⟨becomes, answers, nofun, rfl⟩
    | _ :: _, .cons hfails failed, order =>
      cases order
      exact .inr ⟨_, _, _, hfails, .answered rfl failed answers, List.append_assoc .., rfl⟩
  | exhausted failed =>
    cases failed with
    | cons hfails failed => exact .inr ⟨_, _, _, hfails, .exhausted failed, rfl, rfl⟩
  | @crashed before behind decisive us u c order failed crashes =>
    match before, failed, order with
    | [], .nil, order =>
      cases order
      exact .inl ⟨_, crashes, nofun, rfl⟩
    | _ :: _, .cons hfails failed, order =>
      cases order
      exact .inr ⟨_, _, _, hfails, .crashed rfl failed crashes, List.append_assoc .., rfl⟩

/-! ## Behind a fallback -/

theorem Decides.of_fixed {laters : List Estimator} (h : Decides [fixed fixedPrices] t outcome laters) :
    t = [] ∧ outcome = .ok (.ok fixedPrices) ∧ laters = [fixed fixedPrices] := by
  rcases h.cases_cons with ⟨becomes, hfixed, _, rfl⟩ | ⟨_, _, _, ⟨e, hfails⟩, _⟩
  · obtain ⟨rfl, rfl, rfl⟩ := consults_fixed hfixed
    exact ⟨rfl, rfl, rfl⟩
  · cases (consults_fixed hfails).2.1

/-- Behind a fallback, the latest answer is served, or the fixed prices before the first one. -/
inductive FallsBack (fixedPrices : Prices) : Option Prices → Outcome → Outcome → Prop
  | latest {prices : Prices} {own : Except Error Prices} :
    FallsBack fixedPrices (some prices) (.ok own) (.ok (.ok prices))
  | nothing {own : Except Error Prices} : FallsBack fixedPrices none (.ok own) (.ok (.ok fixedPrices))
  | crashed {latest : Option Prices} {c : Crash} : FallsBack fixedPrices latest (.error c) (.error c)

theorem consults_fallback (h : Consults (must [caching inner last, fixed fixedPrices]) t outcome later) :
    ∃ u source inner', Consults inner u source inner' ∧ asked t = asked u ∧
      FallsBack fixedPrices ((answer? source).or last) source outcome ∧
      later = must [caching inner' ((answer? source).or last), fixed fixedPrices] := by
  obtain ⟨v, laters, hasked, hdecides, rfl⟩ := consults_must h
  rw [hasked]
  rcases hdecides.cases_cons with ⟨becomes, hown, hne, rfl⟩ | ⟨w, x, others, ⟨e, hfails⟩, hfixed, rfl, rfl⟩
  · obtain ⟨u, source, inner', hsource, hasked', hremembers, rfl⟩ := consults_caching hown
    refine ⟨u, source, inner', hsource, hasked', ?_, rfl⟩
    generalize (answer? source).or last = latest at hremembers ⊢
    cases hremembers with
    | latest => exact .latest
    | nothing => exact absurd rfl (hne _)
    | crashed => exact .crashed
  · obtain ⟨rfl, rfl, rfl⟩ := hfixed.of_fixed
    obtain ⟨u, source, inner', hsource, hasked', hremembers, hlater⟩ := consults_caching hfails
    rw [List.append_nil]
    refine ⟨u, source, inner', hsource, hasked', ?_, by rw [← hlater]⟩
    generalize (answer? source).or last = latest at hremembers ⊢
    cases hremembers with
    | nothing => exact .nothing

theorem forall_calls_of_fixed (h : Run (must [fixed fixedPrices]) calls later) :
    ∀ call ∈ calls, asked call.events = [] ∧ call.outcome = .ok (.ok fixedPrices) := by
  generalize hstart : must [fixed fixedPrices] = start at h
  induction h with
  | done => exact List.forall_mem_nil _
  | next first _ ih =>
    subst hstart
    obtain ⟨u, laters, hasked, hdecides, rfl⟩ := consults_must first
    obtain ⟨rfl, houtcome, rfl⟩ := hdecides.of_fixed
    exact List.forall_mem_cons.2 ⟨⟨hasked, houtcome⟩, ih rfl⟩

/-- One that remembers serves the latest answer of what it wraps, of several the first that answers decides, and behind
a fallback the fixed price is served until the primary estimator has answered and its latest answer from then on. -/
theorem served_across_failures :
    (∀ inner calls later, Run (caching inner none) calls later →
      ∃ own inner', Run inner own inner' ∧ Relays Remembers none own calls) ∧
    (∀ estimators t outcome later, Consults (must estimators) t outcome later →
      ∃ u laters, asked t = asked u ∧ Decides estimators u outcome laters ∧ later = must laters) ∧
    (∀ primary fallback calls later, Run (withFallback (some primary) fallback) calls later →
      ∃ own primary', Run primary own primary' ∧ Relays (FallsBack (.single fallback)) none own calls) ∧
    ∀ fallback calls later, Run (withFallback none fallback) calls later →
      ∀ call ∈ calls, asked call.events = [] ∧ call.outcome = .ok (.ok (.single fallback)) := by
  refine ⟨?_, ?_, ?_, ?_⟩
  · intro inner calls later h
    exact exists_relays caching (fun _ _ _ _ _ => consults_caching) h
  · intro estimators t outcome later h
    exact consults_must h
  · intro primary fallback calls later h
    exact exists_relays (fun inner last => must [caching inner last, fixed (.single fallback)])
      (fun _ _ _ _ _ => consults_fallback) h
  · intro fallback calls later h
    exact forall_calls_of_fixed h

/-- Every question to a source gets the next reply. -/
def replying : (q : PriceQuestion) → List (Reply Prices) → q.Answer × List (Reply Prices)
  | .quote _, [] => (.error .missingTxHash, [])
  | .quote _, reply :: replies => (reply, replies)
  | .log _, replies => ((), replies)

def low : Prices := .single ⟨"token", .zero⟩

def high : Prices := .single ⟨"token", .one⟩

/-- Failures around two answers. -/
def flaky : List (Reply Prices) :=
  [.error .missingTxHash, .ok low, .error .missingTxHash, .ok high, .error .missingTxHash]

def flakyCalls (estimator : Estimator) : List Call :=
  callsIn (fun _ replies => replies) replying 5 estimator flaky

def floor : DecCoin := ⟨"floor", .one⟩

/-- Of two sources that reply in this way, the second one answers the first call. -/
theorem consults_flaky : Consults (must [source 0, source 1])
    [⟨.quote 0, (.error .missingTxHash : Reply Prices)⟩,
      ⟨.log (.warn s!"Error using gas price estimator {0}, trying next one: {Error.missingTxHash.message}"), ()⟩,
      ⟨.quote 1, (.ok low : Reply Prices)⟩] (.ok (.ok low)) (must [source 0, source 1]) := by
  have htakes : (must [source 0, source 1]).prices.Takes
      ((must [source 0, source 1]).prices.transcript (S := priceSources) (fun _ replies => replies) replying flaky)
      _ := takes_transcript _ flaky
  exact .answered htakes

theorem served_across_failures_of_flaky :
    (flakyCalls (withFallback (some (source 0)) floor)).map Call.outcome =
      [.ok (.ok (.single floor)), .ok (.ok low), .ok (.ok low), .ok (.ok high), .ok (.ok high)] ∧
    (∃ own primary', Run (source 0) own primary' ∧
      Relays (FallsBack (.single floor)) none own (flakyCalls (withFallback (some (source 0)) floor))) ∧
    (∃ own inner', Run (source 0) own inner' ∧ Relays Remembers none own (flakyCalls (caching (source 0) none))) ∧
    (∃ u laters, Decides [source 0, source 1] u (.ok (.ok low)) laters) ∧
    ∀ call ∈ flakyCalls (withFallback none floor), call.outcome = .ok (.ok (.single floor)) := by
  obtain ⟨remembered, decided, fallen, fixed⟩ := served_across_failures
  refine ⟨by decide +kernel, ?_, ?_, ?_, ?_⟩
  · obtain ⟨later, hrun⟩ :=
      exists_run (fun _ replies => replies) replying 5 (withFallback (some (source 0)) floor) flaky
    exact fallen _ _ _ _ hrun
  · obtain ⟨later, hrun⟩ := exists_run (fun _ replies => replies) replying 5 (caching (source 0) none) flaky
    exact remembered _ _ _ hrun
  · obtain ⟨u, laters, _, hdecides, _⟩ := decided _ _ _ _ consults_flaky
    exact ⟨u, laters, hdecides⟩
  · obtain ⟨later, hrun⟩ := exists_run (fun _ replies => replies) replying 5 (withFallback none floor) flaky
    exact fun call hcall => (fixed _ _ _ hrun call hcall).2

end ReportRelay.Estimator
