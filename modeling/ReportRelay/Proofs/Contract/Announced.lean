import ReportRelay.Proofs.Contract.Served

/-!
# The configuration that was announced

A contract reports the block of its configuration and the digest, and the configuration itself is searched for in the
events of that block. The cache takes what the search finds. So it serves what the contract reported if, and only if,
the search found a configuration with the digest that was reported.
-/

namespace ReportRelay.Contract.Cache

open Dialogue

variable {address : String} {cache : Cache} {refresh : Refresh}

/-- The contract reported these details in the refresh. -/
def Refresh.Reports (address : String) (refresh : Refresh) (details : ConfigDetails) : Prop :=
  ∃ (reply : Reply Bytes) (rest : List (Dated client)),
    askedForConfig refresh.course = ⟨refresh.start, stateOf address "latest_config_details", reply⟩ :: rest ∧
      reply.comesTo detailsIn = .ok (.ok details)

/-- The search of the events of a block found this configuration in the refresh. -/
def Refresh.Finds (address : String) (block : Nat) (refresh : Refresh) (config : ContractConfig) : Prop :=
  ∃ (time : Nat) (reply : Reply (List TxResponse)),
    ⟨time, .search (setConfigConditions address block), reply⟩ ∈ askedForConfig refresh.course ∧
      reply.comesTo (configIn address block) = .ok (.ok config)

/-- What is served is what was reported: the block and the digest, and a configuration with that digest. -/
def Announces (cache : Cache) (ttl now : Nat) (details : ConfigDetails) : Prop :=
  cache.servedDetails ttl now = .ok details ∧
    ∃ config, cache.servedConfig ttl now details.block = .ok config ∧ config.digest = details.digest

theorem announces_iff {completed ttl now : Nat} {details : ConfigDetails} {config : ContractConfig}
    (h : cache.config = some ⟨completed, details.block, config⟩) (age : now ≤ completed + ttl) :
    cache.Announces ttl now details ↔ config.digest = details.digest := by
  unfold Announces
  simp only [servedDetails_eq_ok_iff, servedConfig_eq_ok_iff, h]
  constructor
  · rintro ⟨_, _, ⟨_, ⟨⟩, _⟩, hdigest⟩
    exact hdigest
  · intro hdigest
    refine ⟨⟨completed, details.block, config, rfl, age, ?_⟩, config, ⟨completed, rfl, age⟩, hdigest⟩
    rw [hdigest]

theorem verdict_eq_ok {α β : Type} {x : Except Error α} {y : Except Error β} (h : verdict x y = .ok ()) :
    ∃ a, x = .ok a := by
  match x, y with
  | .ok a, _ => exact ⟨a, rfl⟩
  | .error _, .ok _ | .error _, .error _ => cases h

theorem announces_iff_found (made : refresh.MadeOn (Cache.refresh address) cache) (hok : refresh.result = .ok ()) :
    ∃ details completed, refresh.Reports address details ∧ refresh.start ≤ completed ∧ completed ≤ refresh.finish ∧
      ∀ ttl now, now ≤ completed + ttl →
        ((cache.afterAll refresh.course).Announces ttl now details ↔
          ∀ config, refresh.Finds address details.block config → config.digest = details.digest) := by
  obtain ⟨updates, brings⟩ := exists_brings_of_refresh made
  obtain ⟨⟨block, config⟩, hvalue⟩ := verdict_eq_ok (brings.result.symm.trans hok)
  have hafter := brings.config_after made
  rw [hvalue] at hafter
  obtain ⟨reply, details, hsaid, rfl, hasked⟩ := brings.config.exists_of_ok hvalue
  refine ⟨details, updates.config.completed, ?_, brings.config.start_le, brings.config_le, fun ttl now age => ?_⟩
  · rcases hasked with ⟨hasked, _⟩ | ⟨_, hasked, _⟩ <;> exact ⟨reply, _, hasked, hsaid⟩
  rw [announces_iff hafter age]
  unfold Refresh.Finds
  rcases hasked with ⟨hasked, hkept⟩ | ⟨second, hasked, _, hfound⟩
  · refine iff_of_true (kept_eq_some_iff.1 hkept).2 ?_
    rintro config ⟨time, second, hmem, _⟩
    rw [hasked] at hmem
    cases List.mem_singleton.1 hmem
  · constructor
    · rintro hdigest config' ⟨time, third, hmem, hfound'⟩
      rw [hasked] at hmem
      rcases List.mem_cons.1 hmem with heq | hmem
      · cases heq
      · cases List.mem_singleton.1 hmem
        cases hfound.symm.trans hfound'
        exact hdigest
    · intro hall
      refine hall config ⟨refresh.start + reply.nanos, second, ?_, hfound⟩
      rw [hasked]
      exact List.mem_cons_of_mem _ (List.mem_singleton_self _)

/-! ## A block with two configurations -/

def otherHex : String :=
  String.ofList (List.replicate 63 '0' ++ ['1'])

/-- A contract that was given two configurations in one block, of which it reports the second. -/
def twiceSetScript : Script :=
  contractScript (fun _ => .ok (sampleDetails 1)) (fun _ => .ok (sampleRecord 1))
    fun _ => .ok [sampleTx [otherHex, zeroHex]]

def twiceSetRefresh : Refresh :=
  .scripted twiceSetScript (Cache.refresh "contract") 0 .empty (.ok ())

set_option maxRecDepth 10000 in
theorem twiceSetRefresh_madeOn : twiceSetRefresh.MadeOn (Cache.refresh "contract") .empty :=
  madeOn_scripted (by decide +kernel)

theorem announces_iff_found_of_twice_set :
    twiceSetRefresh.MadeOn (Cache.refresh "contract") .empty ∧ twiceSetRefresh.result = .ok () ∧
      ∃ details completed, twiceSetRefresh.Reports "contract" details ∧ twiceSetRefresh.start ≤ completed ∧
        completed ≤ twiceSetRefresh.finish ∧ ∀ ttl now, now ≤ completed + ttl →
          ((Cache.empty.afterAll twiceSetRefresh.course).Announces ttl now details ↔
            ∀ config, twiceSetRefresh.Finds "contract" details.block config → config.digest = details.digest) :=
  ⟨twiceSetRefresh_madeOn, rfl, announces_iff_found twiceSetRefresh_madeOn rfl⟩

set_option maxRecDepth 10000 in
theorem twiceSetRefresh_serves :
    (Cache.empty.afterAll twiceSetRefresh.course).servedDetails 0 0 ≠ .ok ⟨1, .zero⟩ := by
  decide +kernel

theorem not_announces_of_twice_set : ¬∀ (cache : Cache) (refresh : Refresh),
    refresh.MadeOn (Cache.refresh "contract") cache → refresh.result = .ok () →
      ∃ details completed, refresh.Reports "contract" details ∧ refresh.start ≤ completed ∧
        completed ≤ refresh.finish ∧ ∀ ttl now, now ≤ completed + ttl →
          (cache.afterAll refresh.course).Announces ttl now details := by
  intro h
  obtain ⟨details, completed, ⟨reply, rest, hasked, hsaid⟩, _, _, hserved⟩ := h _ _ twiceSetRefresh_madeOn rfl
  have hmem := List.mem_of_mem_filter (hasked ▸ List.mem_cons_self)
  have hreply : reply = (Reply.ok (sampleDetails 1) : Reply Bytes) := details_of_contractScript hmem
  rw [hreply] at hsaid
  cases hsaid.symm.trans comesTo_sampleDetails
  exact twiceSetRefresh_serves (hserved 0 0 (Nat.zero_le _)).1

end ReportRelay.Contract.Cache
