import ReportRelay.Proofs.Contract.Sides

/-!
# The parts of the cache

What happens to either part of a cache depends on nothing but that part. So where one side of a refresh leaves a part
alone, the other side makes of it what it would make without the first.
-/

namespace ReportRelay.Contract.Cache

open Dialogue

variable {γ : Type} {cache c d : Cache} {m : Dated interface} {es u v : List (Dated interface)}

/-- What has happened until some time. -/
def upTo (time : Nat) (es : List (Dated interface)) : List (Dated interface) :=
  es.filter fun m => m.time ≤ time

theorem afterAll_upTo_cons {time : Nat} :
    cache.afterAll (upTo time (m :: es)) =
      (if m.time ≤ time then cache.after m else cache).afterAll (upTo time es) := by
  rw [upTo, List.filter_cons]
  by_cases h : m.time ≤ time
  · rw [if_pos h, if_pos (decide_eq_true h)]
    rfl
  · rw [if_neg h, if_neg (ne_true_of_eq_false (decide_eq_false h))]
    rfl

/-- The configuration that the cache holds, if it is the one that the contract reports. -/
def kept (cache : Cache) (details : ConfigDetails) : Option ContractConfig :=
  match cache.config with
  | none => none
  | some cached =>
    if cached.block = details.block ∧ cached.config.digest = details.digest then some cached.config else none

theorem kept_eq_some_iff {details : ConfigDetails} {config : ContractConfig} : cache.kept details = some config ↔
    (∃ updated, cache.config = some ⟨updated, details.block, config⟩) ∧ config.digest = details.digest := by
  unfold kept
  cases cache.config with
  | none => exact iff_of_false nofun fun ⟨⟨_, h⟩, _⟩ => nomatch h
  | some cached =>
    dsimp only
    split
    next h =>
      constructor
      · rintro ⟨⟩
        exact ⟨⟨cached.updatedAt, by rw [← h.1]⟩, h.2⟩
      · rintro ⟨⟨_, ⟨⟩⟩, _⟩
        rfl
    next h =>
      refine iff_of_false nofun ?_
      rintro ⟨⟨_, ⟨⟩⟩, hdigest⟩
      exact h ⟨rfl, hdigest⟩

theorem kept_eq_none_iff {details : ConfigDetails} : cache.kept details = none ↔
    ∀ cached, cache.config = some cached → ¬(cached.block = details.block ∧ cached.config.digest = details.digest) := by
  unfold kept
  cases cache.config with
  | none => exact iff_of_true rfl nofun
  | some cached =>
    dsimp only
    split
    next h => exact iff_of_false nofun fun hall => hall cached rfl h
    next h =>
      refine iff_of_true rfl ?_
      rintro _ ⟨⟩
      exact h

theorem renew_eq {details : ConfigDetails} {now : Nat} : cache.renew details now =
    match cache.kept details with
    | none => (false, cache)
    | some config => (true, { cache with config := some ⟨now, details.block, config⟩ }) := by
  obtain ⟨config, transmission⟩ := cache
  unfold renew kept
  cases config with
  | none => rfl
  | some cached =>
    by_cases h : cached.block = details.block ∧ cached.config.digest = details.digest
    · simp only [h, and_self, ↓reduceIte]
    · simp only [h, ↓reduceIte]

theorem gives_renew_iff {details : ConfigDetails} {time : Nat} {isCurrent : Bool} :
    cache.Gives ⟨time, .renew details, isCurrent⟩ ↔ isCurrent = (cache.kept details).isSome := by
  change isCurrent = (cache.renew details time).1 ↔ _
  rw [renew_eq]
  cases cache.kept details <;> exact Iff.rfl

@[simp] theorem transmission_renew {details : ConfigDetails} {now : Nat} :
    (cache.renew details now).2.transmission = cache.transmission := by
  rw [renew_eq]
  cases cache.kept details <;> rfl

@[simp] theorem block_renew {details : ConfigDetails} {now : Nat} :
    (cache.renew details now).2.config.map CachedConfig.block = cache.config.map CachedConfig.block := by
  rw [renew_eq]
  cases h : cache.kept details with
  | none => rfl
  | some config =>
    obtain ⟨⟨updated, hconfig⟩, _⟩ := kept_eq_some_iff.1 h
    rw [hconfig]
    rfl

theorem kept_congr (h : c.config = d.config) (details : ConfigDetails) : c.kept details = d.kept details := by
  rw [kept, kept, h]

theorem afterAll_upTo_asked {time : Nat} (t : List (Dated client)) :
    cache.afterAll (upTo time (t.map asked ++ es)) = cache.afterAll (upTo time es) := by
  induction t with
  | nil => rfl
  | cons m t ih =>
    have hm : cache.after (asked m) = cache := rfl
    rw [List.map_cons, List.cons_append, afterAll_upTo_cons, hm, ite_self]
    exact ih

theorem afterAll_upTo_map_asked {time : Nat} (t : List (Dated client)) :
    cache.afterAll (upTo time (t.map asked)) = cache := by
  rw [← List.append_nil (t.map asked), afterAll_upTo_asked]
  rfl

theorem config_after (h : c.config = d.config) (m : Dated interface) : (c.after m).config = (d.after m).config := by
  obtain ⟨time, question, a⟩ := m
  cases question with
  | chain | now | putTransmission => exact h
  | putConfig => rfl
  | renew details =>
    change (c.renew details time).2.config = (d.renew details time).2.config
    rw [renew_eq, renew_eq, kept_congr h]
    cases d.kept details with
    | none => exact h
    | some config => rfl

theorem gives_iff (h : c.config = d.config) (m : Dated interface) : c.Gives m ↔ d.Gives m := by
  obtain ⟨time, question, a⟩ := m
  cases question with
  | chain | now | putConfig | putTransmission => exact Iff.rfl
  | renew details =>
    change a = (c.renew details time).1 ↔ a = (d.renew details time).1
    rw [renew_eq, renew_eq, kept_congr h]
    cases d.kept details <;> exact Iff.rfl

theorem transmission_after (h : c.transmission = d.transmission) (m : Dated interface) :
    (c.after m).transmission = (d.after m).transmission := by
  obtain ⟨time, question, a⟩ := m
  cases question with
  | chain | now | putConfig => exact h
  | putTransmission => rfl
  | renew details =>
    change (c.renew details time).2.transmission = (d.renew details time).2.transmission
    rw [transmission_renew, transmission_renew, h]

/-- The events leave this part of every cache as it is. -/
def Leaves (part : Cache → γ) (es : List (Dated interface)) : Prop :=
  ∀ m ∈ es, ∀ cache : Cache, part (cache.after m) = part cache

/-- Where one of two lists leaves a part alone, the other one makes of it what both together make. -/
theorem part_afterAll {part : Cache → γ}
    (alone : ∀ {c d : Cache}, part c = part d → ∀ m, part (c.after m) = part (d.after m))
    (made : Interleave u v es) (hv : Leaves part v) (h : part c = part d) :
    part (c.afterAll es) = part (d.afterAll u) := by
  induction made generalizing c d with
  | nil => exact h
  | left _ ih => exact ih hv (alone h _)
  | right _ ih =>
    obtain ⟨hm, hv⟩ := List.forall_mem_cons.1 hv
    exact ih hv ((hm c).trans h)

theorem Consistent.left (made : Interleave u v es) (hv : Leaves config v) (h : c.config = d.config)
    (hes : c.Consistent es) : d.Consistent u := by
  induction made generalizing c d with
  | nil => trivial
  | @left m _ _ _ _ ih => exact ⟨(gives_iff h m).1 hes.1, ih hv (config_after h m) hes.2⟩
  | right _ ih =>
    obtain ⟨hm, hv⟩ := List.forall_mem_cons.1 hv
    exact ih hv ((hm c).trans h) hes.2

end ReportRelay.Contract.Cache
