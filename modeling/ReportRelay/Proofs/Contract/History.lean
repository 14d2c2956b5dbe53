import ReportRelay.Contract.Cache
import ReportRelay.Proofs.Dialogue.Clock

/-!
# What happens to a cache

A history is a list of what is asked of the chain, the clock and the cache, each with its time. It tells what becomes of
the cache, and the answers of the clock and of the cache itself have to fit it. Whatever is performed on a cache has
such a history, and every such history is one of something that is performed.
-/

namespace ReportRelay.Contract.Cache

open Dialogue

variable {α : Type} {start finish : Nat} {cache later : Cache} {es fs : List (Dated interface)}

/-- What an event makes of the cache. -/
def after (cache : Cache) (m : Dated interface) : Cache :=
  match m.event.question with
  | .renew details => (cache.renew details m.time).2
  | .putConfig block config => cache.putConfig block config m.time
  | .putTransmission transmission => cache.putTransmission transmission m.time
  | .chain _ | .now => cache

def afterAll (cache : Cache) (es : List (Dated interface)) : Cache :=
  es.foldl after cache

@[simp] theorem afterAll_nil : cache.afterAll [] = cache := rfl

@[simp] theorem afterAll_cons {m : Dated interface} : cache.afterAll (m :: es) = (cache.after m).afterAll es := rfl

@[simp] theorem afterAll_append : cache.afterAll (es ++ fs) = (cache.afterAll es).afterAll fs :=
  List.foldl_append

/-- The event is answered as the cache and the clock say. -/
def Gives (cache : Cache) (m : Dated interface) : Prop :=
  match m.event with
  | ⟨.renew details, isCurrent⟩ => isCurrent = (cache.renew details m.time).1
  | ⟨.now, now⟩ => now = m.time
  | ⟨.chain _, _⟩ | ⟨.putConfig _ _, _⟩ | ⟨.putTransmission _, _⟩ => True

/-- Every event is answered by the cache that the events before it have made. -/
def Consistent : Cache → List (Dated interface) → Prop
  | _, [] => True
  | cache, m :: es => cache.Gives m ∧ Consistent (cache.after m) es

instance decidableGives (cache : Cache) : (m : Dated interface) → Decidable (cache.Gives m)
  | ⟨time, .renew details, isCurrent⟩ => instDecidableEqBool isCurrent (cache.renew details time).1
  | ⟨time, .now, now⟩ => instDecidableEqNat now time
  | ⟨_, .chain _, _⟩ | ⟨_, .putConfig _ _, _⟩ | ⟨_, .putTransmission _, _⟩ => inferInstanceAs (Decidable True)

instance decidableConsistent : (cache : Cache) → (es : List (Dated interface)) → Decidable (cache.Consistent es)
  | _, [] => inferInstanceAs (Decidable True)
  | cache, m :: es =>
    have := decidableConsistent (cache.after m) es
    inferInstanceAs (Decidable (cache.Gives m ∧ Consistent (cache.after m) es))

/-! ## What is performed on a cache -/

/-- What is asked outside, where something is asked of the cache. -/
def outward (m : Dated interface) : Dated outside :=
  match m.event with
  | ⟨.chain question, a⟩ => ⟨m.time, .chain question, a⟩
  | ⟨.now, now⟩ => ⟨m.time, .now, now⟩
  | ⟨.renew _, _⟩ | ⟨.putConfig _ _, _⟩ | ⟨.putTransmission _, _⟩ => ⟨m.time, .now, m.time⟩

/-- If the clock was asked, it told the time. -/
def TellsTime (m : Dated outside) : Prop :=
  match m.event with
  | ⟨.now, now⟩ => now = m.time
  | ⟨.chain _, _⟩ => True

theorem lasts_answer {question : Question} {t : List (Dated outside)} {r : Except Crash (question.Answer × Cache)} :
    (answer question cache).Lasts start t finish r ∧ (∀ m ∈ t, TellsTime m) ↔
      ∃ a, t = [outward ⟨start, question, a⟩] ∧ finish = start ∧ cache.Gives ⟨start, question, a⟩ ∧
        r = .ok (a, cache.after ⟨start, question, a⟩) := by
  have hclock {now : Nat} (h : ∀ m ∈ [(⟨start, .now, now⟩ : Dated outside)], TellsTime m) : now = start :=
    h _ (List.mem_singleton_self _)
  have htime {now : Nat} (h : now = start) : ∀ m ∈ [(⟨start, .now, now⟩ : Dated outside)], TellsTime m :=
    List.forall_mem_singleton.2 h
  cases question with
  | chain question =>
    constructor
    · rintro ⟨⟨a, _, rfl, rfl, rfl, rfl⟩, _⟩
      exact ⟨a, rfl, rfl, trivial, rfl⟩
    · rintro ⟨a, rfl, rfl, _, rfl⟩
      exact ⟨⟨a, [], rfl, rfl, rfl, rfl⟩, List.forall_mem_singleton.2 trivial⟩
  | now =>
    constructor
    · rintro ⟨⟨now, _, rfl, rfl, rfl, rfl⟩, htold⟩
      exact ⟨now, rfl, rfl, hclock htold, rfl⟩
    · rintro ⟨now, rfl, rfl, hgives, rfl⟩
      exact ⟨⟨now, [], rfl, rfl, rfl, rfl⟩, htime hgives⟩
  | renew details =>
    constructor
    · rintro ⟨⟨now, _, rfl, rfl, rfl, rfl⟩, htold⟩
      obtain rfl := hclock htold
      exact ⟨(cache.renew details now).1, rfl, rfl, Eq.refl (cache.renew details now).1, rfl⟩
    · rintro ⟨isCurrent, rfl, rfl, hgives, rfl⟩
      exact ⟨⟨finish, [], rfl, rfl, rfl, by rw [hgives]; rfl⟩, htime rfl⟩
  | putConfig block config =>
    constructor
    · rintro ⟨⟨now, _, rfl, rfl, rfl, rfl⟩, htold⟩
      obtain rfl := hclock htold
      exact ⟨(), rfl, rfl, trivial, rfl⟩
    · rintro ⟨_, rfl, rfl, _, rfl⟩
      exact ⟨⟨finish, [], rfl, rfl, rfl, rfl⟩, htime rfl⟩
  | putTransmission transmission =>
    constructor
    · rintro ⟨⟨now, _, rfl, rfl, rfl, rfl⟩, htold⟩
      obtain rfl := hclock htold
      exact ⟨(), rfl, rfl, trivial, rfl⟩
    · rintro ⟨_, rfl, rfl, _, rfl⟩
      exact ⟨⟨finish, [], rfl, rfl, rfl, rfl⟩, htime rfl⟩

/-- What is performed on a cache while the clock tells the time, and what becomes of the cache, is what the histories
tell that fit the cache. So what holds of all these histories holds of whatever is performed. -/
theorem lasts_perform_iff {p : Run α} {t : List (Dated outside)} {r : Except Crash α} :
    ((perform p cache).Lasts start t finish (.ok (r, later)) ∧ ∀ m ∈ t, TellsTime m) ↔
      ∃ es, p.Lasts start es finish r ∧ cache.Consistent es ∧ later = cache.afterAll es ∧ t = es.map outward := by
  induction p generalizing cache start t with
  | done a =>
    constructor
    · rintro ⟨⟨rfl, rfl, hr⟩, _⟩
      cases hr
      exact ⟨[], ⟨rfl, rfl, rfl⟩, trivial, rfl, rfl⟩
    · rintro ⟨_, ⟨rfl, rfl, rfl⟩, _, rfl, rfl⟩
      exact ⟨⟨rfl, rfl, rfl⟩, List.forall_mem_nil _⟩
  | crash c =>
    constructor
    · rintro ⟨⟨rfl, rfl, hr⟩, _⟩
      cases hr
      exact ⟨[], ⟨rfl, rfl, rfl⟩, trivial, rfl, rfl⟩
    · rintro ⟨_, ⟨rfl, rfl, rfl⟩, _, rfl, rfl⟩
      exact ⟨⟨rfl, rfl, rfl⟩, List.forall_mem_nil _⟩
  | wait idle nanos k ih => exact ih ()
  | ask question k ih =>
    constructor
    · rintro ⟨h, htold⟩
      rcases lasts_bind.1 h with ⟨_, _, hc⟩ | ⟨_, u, v, middle, rfl, hu, hv⟩
      · cases hc
      obtain ⟨a, rfl, rfl, hgives, ha⟩ := lasts_answer.1 ⟨hu, fun m hm => htold m (List.mem_append_left v hm)⟩
      cases ha
      obtain ⟨es, hes, hconsistent, rfl, rfl⟩ :=
        (ih a).1 ⟨hv, fun m hm => htold m (List.mem_append_right _ hm)⟩
      exact ⟨_ :: es, ⟨a, es, rfl, hes⟩, ⟨hgives, hconsistent⟩, rfl, rfl⟩
    · rintro ⟨_, ⟨a, es, rfl, hes⟩, ⟨hgives, hconsistent⟩, rfl, rfl⟩
      obtain ⟨hu, htold⟩ := lasts_answer.2 ⟨a, rfl, rfl, hgives, rfl⟩
      obtain ⟨hv, hrest⟩ := (ih a).2 ⟨es, hes, hconsistent, rfl, rfl⟩
      exact ⟨lasts_bind.2 (.inr ⟨_, _, _, start, rfl, hu, hv⟩), List.forall_mem_append.2 ⟨htold, hrest⟩⟩

/-- A refresh that came to its end. -/
structure Refresh where
  start : Nat
  course : List (Dated interface)
  finish : Nat
  result : Except Error Unit

/-- The refresh was made by this action on the cache, while nothing else was done to it. -/
structure Refresh.MadeOn (action : Action Unit) (cache : Cache) (refresh : Refresh) : Prop where
  lasts : action.Lasts refresh.start refresh.course refresh.finish (.ok refresh.result)
  consistent : cache.Consistent refresh.course

/-! ## Scripted chains -/

/-- How a chain answers at every time. -/
abbrev Script := (question : Contract.Question) → Nat → question.Answer

def answeredBy (script : Script) : (question : Question) → Nat × Cache → question.Answer × (Nat × Cache)
  | .chain question, (clock, cache) => (script question clock, clock, cache)
  | .now, (clock, cache) => (clock, clock, cache)
  | .renew details, (clock, cache) => ((cache.renew details clock).1, clock, (cache.renew details clock).2)
  | .putConfig block config, (clock, cache) => ((), clock, cache.putConfig block config clock)
  | .putTransmission transmission, (clock, cache) => ((), clock, cache.putTransmission transmission clock)

def onClock (nanos : Nat) (world : Nat × Cache) : Nat × Cache :=
  (world.1 + nanos, world.2)

/-- The history of what is performed on a cache, where the chain is scripted. -/
def historyBy (script : Script) (p : Run α) (start : Nat) (cache : Cache) : List (Dated interface) :=
  (p.trace onClock (answeredBy script) (start, cache)).map fun step => ⟨step.1.1, step.2⟩

def endBy (script : Script) (p : Run α) (start : Nat) (cache : Cache) : Except Crash α × Nat × Cache :=
  p.run onClock (answeredBy script) (start, cache)

variable {script : Script} {p : Run α}

theorem lasts_historyBy :
    p.Lasts start (historyBy script p start cache) (endBy script p start cache).2.1 (endBy script p start cache).1 := by
  have hpass (nanos : Nat) (world : Nat × Cache) : (onClock nanos world).1 = world.1 + nanos := rfl
  have hanswer (question : Question) (world : Nat × Cache) : (answeredBy script question world).2.1 = world.1 := by
    cases question <;> rfl
  exact lasts_trace hpass hanswer p (start, cache)

theorem consistent_historyBy : cache.Consistent (historyBy script p start cache) ∧
    cache.afterAll (historyBy script p start cache) = (endBy script p start cache).2.2 := by
  induction p generalizing start cache with
  | done | crash => exact ⟨trivial, rfl⟩
  | wait idle nanos k ih => exact @ih () (start + nanos) cache
  | ask question k ih =>
    cases question with
    | chain | putConfig | putTransmission =>
      obtain ⟨hconsistent, hend⟩ := ih _
      exact ⟨⟨trivial, hconsistent⟩, hend⟩
    | renew | now =>
      obtain ⟨hconsistent, hend⟩ := ih _
      exact ⟨⟨Eq.refl _, hconsistent⟩, hend⟩

/-- The refresh that an action makes, where the chain is scripted and the result is this. -/
def Refresh.scripted (script : Script) (action : Action Unit) (start : Nat) (cache : Cache)
    (result : Except Error Unit) : Refresh where
  start := start
  course := historyBy script action.outcome start cache
  finish := (endBy script action.outcome start cache).2.1
  result := result

theorem madeOn_scripted {action : Action Unit} {result : Except Error Unit}
    (h : (endBy script action.outcome start cache).1 = .ok result) :
    (Refresh.scripted script action start cache result).MadeOn action cache := by
  refine ⟨?_, consistent_historyBy.1⟩
  change action.Lasts start _ _ (.ok result)
  rw [← h]
  exact lasts_historyBy

/-- A contract whose state is told from memory, at every time as at any other where these do not depend on it. -/
def contractScript (details record : Nat → Reply Bytes) (search : Nat → Reply (List TxResponse)) : Script
  | .state _ query, time =>
    if query = Bytes.ofText (Json.quoted "latest_config_details") then details time else record time
  | .search _, time => search time
  | .latestBlock, _ => (Reply.ok 0 : Reply Nat)
  | .log _, _ => ()

end ReportRelay.Contract.Cache
