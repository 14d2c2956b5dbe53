import Mathlib.Data.List.Induction
import Mathlib.Data.List.Perm.Subperm
import ReportRelay.Proofs.Contract.AttributeValue

/-!
# Which attributes make a configuration

A list of attributes makes a configuration exactly when it is complete: each single kind once, signers and
transmitters at least once, and each value one that some configuration is written with. The configuration is then
the only one that is written with these values. The order of the attributes matters among signers and among
transmitters only, and attributes of unknown kinds do not matter.

Reading goes attribute by attribute, so everything is derived from what a partly read configuration records of the
attributes before it.
-/

namespace ReportRelay

namespace ContractConfig

/-- Nothing among the attributes is in the way of a configuration, although kinds may be missing. -/
structure Readable (attributes : List EventAttribute) : Prop where
  once : ∀ key : ConfigKey, key.isRepeatable = false → (key.valuesOf attributes).length ≤ 1
  wellFormed : ∀ key : ConfigKey, ∀ value ∈ key.valuesOf attributes, key.WellFormed value

/-- Each single kind is there once, each other kind at least once, and each value is well formed for its kind. -/
structure Complete (attributes : List EventAttribute) : Prop where
  once : ∀ key : ConfigKey, key.isRepeatable = false → (key.valuesOf attributes).length = 1
  present : ∀ key : ConfigKey, key.isRepeatable → key.valuesOf attributes ≠ []
  wellFormed : ∀ key : ConfigKey, ∀ value ∈ key.valuesOf attributes, key.WellFormed value

def IsKnown (attr : EventAttribute) : Prop :=
  ∃ key : ConfigKey, attr.key = key.name

theorem isKnown_iff {attr : EventAttribute} : IsKnown attr ↔ (ConfigKey.ofName? attr.key).isSome := by
  simp only [IsKnown, ← ConfigKey.ofName?_eq_some_iff, Option.isSome_iff_exists]

instance : DecidablePred IsKnown :=
  fun _ => decidable_of_iff _ isKnown_iff.symm

theorem ofName?_eq_none_iff {attr : EventAttribute} : ConfigKey.ofName? attr.key = none ↔ ¬IsKnown attr := by
  rw [isKnown_iff, Option.not_isSome_iff_eq_none]

/-- The keys of the attributes of unknown kinds, each as often as it comes. -/
def unknownKeys (attributes : List EventAttribute) : List String :=
  (attributes.filter fun attr => ¬IsKnown attr).map EventAttribute.key

theorem unknownKeys_append (before after : List EventAttribute) :
    unknownKeys (before ++ after) = unknownKeys before ++ unknownKeys after := by
  rw [unknownKeys, List.filter_append, List.map_append, unknownKeys, unknownKeys]

theorem unknownKeys_known {attr : EventAttribute} (h : IsKnown attr) : unknownKeys [attr] = [] := by
  rw [unknownKeys, List.filter_singleton, decide_eq_false (not_not.2 h)]
  rfl

theorem unknownKeys_unknown {attr : EventAttribute} (h : ¬IsKnown attr) : unknownKeys [attr] = [attr.key] := by
  rw [unknownKeys, List.filter_singleton, decide_eq_true h]
  rfl

namespace Readable

theorem nil : Readable [] :=
  ⟨fun _ _ => Nat.zero_le 1, fun _ => List.forall_mem_nil _⟩

theorem of_append {before after : List EventAttribute} (h : Readable (before ++ after)) : Readable before where
  once key hsingle := by
    have hlength := h.once key hsingle
    rw [ConfigKey.valuesOf_append, List.length_append] at hlength
    omega
  wellFormed key value hvalue := by
    refine h.wellFormed key value ?_
    rw [ConfigKey.valuesOf_append]
    exact List.mem_append_left _ hvalue

end Readable

theorem Complete.readable {attributes : List EventAttribute} (h : Complete attributes) : Readable attributes :=
  ⟨fun key hsingle => Nat.le_of_eq (h.once key hsingle), h.wellFormed⟩

theorem Complete.valuesOf_ne_nil {attributes : List EventAttribute} (h : Complete attributes) (key : ConfigKey) :
    key.valuesOf attributes ≠ [] := by
  cases hkey : key.isRepeatable with
  | true => exact h.present key hkey
  | false => exact List.ne_nil_of_length_pos (by rw [h.once key hkey]; exact Nat.one_pos)

theorem complete_iff {attributes : List EventAttribute} :
    Complete attributes ↔ Readable attributes ∧ ∀ key : ConfigKey, key.valuesOf attributes ≠ [] := by
  constructor
  · exact fun h => ⟨h.readable, h.valuesOf_ne_nil⟩
  · rintro ⟨hreadable, hpresent⟩
    refine ⟨fun key hsingle => ?_, fun key _ => hpresent key, hreadable.wellFormed⟩
    exact Nat.le_antisymm (hreadable.once key hsingle) (List.length_pos_of_ne_nil (hpresent key))

/-! ## One attribute more -/

namespace Partial

theorem add_eq_ok_iff {state state' : Partial} {attr : EventAttribute} :
    state.add attr = .ok state' ↔
      (¬IsKnown attr ∧ state' = { state with unknown := state.unknown ++ [attr.key] }) ∨
        ∃ key config, attr.key = key.name ∧ key.apply attr.value state.config = .ok config ∧
          (key ∈ state.seen → key.isRepeatable) ∧
          state' = { state with config, seen := if key ∈ state.seen then state.seen else state.seen ++ [key] } := by
  rw [← ofName?_eq_none_iff, add]
  cases hname : ConfigKey.ofName? attr.key with
  | none =>
    constructor
    · rintro ⟨⟩
      exact .inl ⟨rfl, rfl⟩
    · rintro (⟨-, rfl⟩ | ⟨key, config, hkey, -⟩)
      · rfl
      · exact nomatch hname.symm.trans (ConfigKey.ofName?_eq_some_iff.2 hkey)
  | some key =>
    have hkey := ConfigKey.ofName?_eq_some_iff.1 hname
    dsimp only
    rw [bind_eq_ok_iff]
    constructor
    · rintro ⟨config, happly, h⟩
      refine .inr ⟨key, config, hkey, happly, ?_⟩
      by_cases hseen : key ∈ state.seen
      · rw [if_pos hseen] at h ⊢
        split at h
        next hrepeatable =>
          cases h
          exact ⟨fun _ => hrepeatable, rfl⟩
        next => cases h
      · rw [if_neg hseen] at h ⊢
        cases h
        exact ⟨fun h => absurd h hseen, rfl⟩
    · rintro (⟨hnone, -⟩ | ⟨key', config, hkey', happly, hrepeatable, rfl⟩)
      · cases hnone
      · obtain rfl := ConfigKey.name_injective (hkey.symm.trans hkey')
        refine ⟨config, happly, ?_⟩
        by_cases hseen : key ∈ state.seen
        · rw [if_pos hseen, if_pos hseen, if_pos (hrepeatable hseen)]
          rfl
        · rw [if_neg hseen, if_neg hseen]
          rfl

/-- What a partly read configuration keeps of the attributes that were read. -/
structure Records (state : Partial) (attributes : List EventAttribute) : Prop where
  readable : Readable attributes
  nodup : state.seen.Nodup
  mem_seen_iff : ∀ key : ConfigKey, key ∈ state.seen ↔ key.valuesOf attributes ≠ []
  writtenAs : ∀ key : ConfigKey, state.config.WrittenAs key (key.valuesOf attributes)
  unknown_eq : state.unknown = unknownKeys attributes

theorem start_records : start.Records [] where
  readable := .nil
  nodup := List.nodup_nil
  mem_seen_iff _ := iff_of_false List.not_mem_nil fun h => h rfl
  writtenAs := ConfigKey.empty_writtenAs
  unknown_eq := rfl

theorem valuesOf_snoc_own {key : ConfigKey} {attributes : List EventAttribute} {attr : EventAttribute}
    (h : attr.key = key.name) : key.valuesOf (attributes ++ [attr]) = key.valuesOf attributes ++ [attr.value] := by
  rw [ConfigKey.valuesOf_append, ConfigKey.valuesOf_own h]

theorem valuesOf_snoc_other {key : ConfigKey} {attributes : List EventAttribute} {attr : EventAttribute}
    (h : attr.key ≠ key.name) : key.valuesOf (attributes ++ [attr]) = key.valuesOf attributes := by
  rw [ConfigKey.valuesOf_append, ConfigKey.valuesOf_other h, List.append_nil]

theorem Records.add {state state' : Partial} {attributes : List EventAttribute} {attr : EventAttribute}
    (h : state.Records attributes) (hadd : state.add attr = .ok state') : state'.Records (attributes ++ [attr]) := by
  obtain ⟨hunknown, rfl⟩ | ⟨key, config, hkey, happly, hrepeatable, rfl⟩ := add_eq_ok_iff.1 hadd
  · have hvalues (key : ConfigKey) : key.valuesOf (attributes ++ [attr]) = key.valuesOf attributes :=
      valuesOf_snoc_other fun hkey => hunknown ⟨key, hkey⟩
    refine ⟨⟨?_, ?_⟩, h.nodup, ?_, ?_, ?_⟩
    · exact fun key => hvalues key ▸ h.readable.once key
    · exact fun key => hvalues key ▸ h.readable.wellFormed key
    · exact fun key => hvalues key ▸ h.mem_seen_iff key
    · exact fun key => hvalues key ▸ h.writtenAs key
    · rw [unknownKeys_append, unknownKeys_unknown hunknown, h.unknown_eq]
  · have hother {other : ConfigKey} (hne : other ≠ key) :
        other.valuesOf (attributes ++ [attr]) = other.valuesOf attributes :=
      valuesOf_snoc_other fun hname => hne (ConfigKey.name_injective (hname.symm.trans hkey))
    have hown : key.valuesOf (attributes ++ [attr]) = key.valuesOf attributes ++ [attr.value] := valuesOf_snoc_own hkey
    have hfree (hsingle : key.isRepeatable = false) : key.valuesOf attributes = [] := by
      by_contra hne
      exact nomatch hsingle.symm.trans (hrepeatable ((h.mem_seen_iff key).2 hne))
    have hwritten := ConfigKey.writtenAs_of_apply happly (h.writtenAs key)
    refine ⟨⟨?_, ?_⟩, ?_, ?_, ?_, ?_⟩
    · intro other hsingle
      by_cases hne : other = key
      · subst hne
        rw [hown, hfree hsingle]
        exact Nat.le_refl 1
      · rw [hother hne]
        exact h.readable.once other hsingle
    · intro other value hvalue
      by_cases hne : other = key
      · subst hne
        rw [hown, List.mem_append, List.mem_singleton] at hvalue
        obtain hvalue | rfl := hvalue
        · exact h.readable.wellFormed other value hvalue
        · exact ConfigKey.wellFormed_of_apply happly
      · rw [hother hne] at hvalue
        exact h.readable.wellFormed other value hvalue
    · dsimp only
      split
      next => exact h.nodup
      next hseen => exact (List.perm_append_singleton key state.seen).nodup_iff.2 (List.nodup_cons.2 ⟨hseen, h.nodup⟩)
    · intro other
      by_cases hne : other = key
      · subst hne
        rw [hown]
        refine iff_of_true ?_ (List.append_ne_nil_of_right_ne_nil _ (List.cons_ne_nil _ _))
        dsimp only
        split
        next hseen => exact hseen
        next => exact List.mem_append_right _ (List.mem_singleton_self _)
      · rw [hother hne, ← h.mem_seen_iff other]
        dsimp only
        split
        next => exact Iff.rfl
        next => rw [List.mem_append, List.mem_singleton, or_iff_left hne]
    · intro other
      by_cases hne : other = key
      · subst hne
        rw [hown]
        cases hrepeat : other.isRepeatable with
        | true => exact hwritten (.inl hrepeat)
        | false => exact hwritten (.inr (hfree hrepeat))
      · rw [hother hne]
        exact (ConfigKey.writtenAs_other_of_apply happly hne _).2 (h.writtenAs other)
    · rw [unknownKeys_append, unknownKeys_known ⟨key, hkey⟩, List.append_nil, h.unknown_eq]

/-- An attribute is taken if the attributes with it are still readable. -/
theorem Records.exists_add {state : Partial} {attributes : List EventAttribute} {attr : EventAttribute}
    (h : state.Records attributes) (hreadable : Readable (attributes ++ [attr])) :
    ∃ state', state.add attr = .ok state' := by
  by_cases hknown : IsKnown attr
  · obtain ⟨key, hkey⟩ := hknown
    have hown : key.valuesOf (attributes ++ [attr]) = key.valuesOf attributes ++ [attr.value] := valuesOf_snoc_own hkey
    have hvalue : key.WellFormed attr.value :=
      hreadable.wellFormed key attr.value (hown ▸ List.mem_append_right _ (List.mem_singleton_self _))
    obtain ⟨config, happly⟩ := ConfigKey.exists_apply_of_wellFormed hvalue state.config
    refine ⟨_, add_eq_ok_iff.2 (.inr ⟨key, config, hkey, happly, fun hseen => ?_, rfl⟩)⟩
    by_contra hsingle
    have hlength := hreadable.once key (Bool.eq_false_iff.2 hsingle)
    have hpos := List.length_pos_of_ne_nil ((h.mem_seen_iff key).1 hseen)
    rw [hown, List.length_append, List.length_singleton] at hlength
    omega
  · exact ⟨_, add_eq_ok_iff.2 (.inl ⟨hknown, rfl⟩)⟩

/-! ## All attributes -/

theorem records_of_foldlM {attributes : List EventAttribute} {state : Partial}
    (h : attributes.foldlM Partial.add start = .ok state) : state.Records attributes := by
  induction attributes using List.reverseRecOn generalizing state with
  | nil =>
    cases h
    exact start_records
  | append_singleton attributes attr ih =>
    rw [List.foldlM_append, bind_eq_ok_iff] at h
    obtain ⟨state', hbefore, hattr⟩ := h
    rw [List.foldlM_cons, bind_eq_ok_iff] at hattr
    obtain ⟨state'', hadd, hlast⟩ := hattr
    cases hlast
    exact (ih hbefore).add hadd

theorem exists_foldlM {attributes : List EventAttribute} (h : Readable attributes) :
    ∃ state, attributes.foldlM Partial.add start = .ok state := by
  induction attributes using List.reverseRecOn with
  | nil => exact ⟨start, rfl⟩
  | append_singleton attributes attr ih =>
    obtain ⟨state, hbefore⟩ := ih h.of_append
    obtain ⟨state', hadd⟩ := (records_of_foldlM hbefore).exists_add h
    refine ⟨state', ?_⟩
    rw [List.foldlM_append, bind_eq_ok_iff]
    refine ⟨state, hbefore, ?_⟩
    rw [List.foldlM_cons, bind_eq_ok_iff]
    exact ⟨state', hadd, rfl⟩

theorem length_eq_iff {seen : List ConfigKey} (h : seen.Nodup) :
    seen.length = ConfigKey.all.length ↔ ∀ key, key ∈ seen := by
  have hsub : seen.Subperm ConfigKey.all := List.subperm_of_subset h fun key _ => key.mem_all
  constructor
  · intro hlength key
    exact (hsub.perm_of_length_le (Nat.le_of_eq hlength.symm)).mem_iff.2 key.mem_all
  · intro hall
    have hsub' : ConfigKey.all.Subperm seen := List.subperm_of_subset ConfigKey.all_nodup fun key _ => hall key
    exact (hsub.antisymm hsub').length_eq

theorem Records.finish_eq_ok_iff {state : Partial} {attributes : List EventAttribute} {config : ContractConfig}
    {unknown : List String} (h : state.Records attributes) :
    state.finish = .ok (config, unknown) ↔
      (∀ key : ConfigKey, key.valuesOf attributes ≠ []) ∧ config = state.config ∧ unknown = unknownKeys attributes := by
  have hall : state.seen.length = ConfigKey.all.length ↔ ∀ key : ConfigKey, key.valuesOf attributes ≠ [] :=
    (length_eq_iff h.nodup).trans (forall_congr' h.mem_seen_iff)
  rw [← hall, ← h.unknown_eq, finish]
  by_cases hlength : state.seen.length = ConfigKey.all.length
  · rw [if_pos hlength, Except.ok.injEq, Prod.mk.injEq, eq_comm (b := config), eq_comm (b := unknown)]
    exact (and_iff_right hlength).symm
  · rw [if_neg hlength]
    exact iff_of_false nofun fun h => hlength h.1

end Partial

/-- The configuration of complete attributes is the one that is written with their values. -/
theorem ofAttributes_eq_ok_iff {attributes : List EventAttribute} {config : ContractConfig} {unknown : List String} :
    ofAttributes attributes = .ok (config, unknown) ↔
      Complete attributes ∧ (∀ key : ConfigKey, config.WrittenAs key (key.valuesOf attributes)) ∧
        unknown = unknownKeys attributes := by
  rw [ofAttributes, bind_eq_ok_iff, complete_iff]
  constructor
  · rintro ⟨state, hfold, hfinish⟩
    have h := Partial.records_of_foldlM hfold
    obtain ⟨hpresent, rfl, rfl⟩ := h.finish_eq_ok_iff.1 hfinish
    exact ⟨⟨h.readable, hpresent⟩, h.writtenAs, rfl⟩
  · rintro ⟨⟨hreadable, hpresent⟩, hwritten, hunknown⟩
    obtain ⟨state, hfold⟩ := Partial.exists_foldlM hreadable
    have h := Partial.records_of_foldlM hfold
    have hconfig : config = state.config := eq_of_writtenAs (fun key _ => hpresent key) hwritten h.writtenAs
    exact ⟨state, hfold, h.finish_eq_ok_iff.2 ⟨hpresent, hconfig, hunknown⟩⟩

theorem exists_ofAttributes_iff {attributes : List EventAttribute} :
    (∃ result, ofAttributes attributes = .ok result) ↔ Complete attributes := by
  constructor
  · rintro ⟨⟨config, unknown⟩, h⟩
    exact (ofAttributes_eq_ok_iff.1 h).1
  · intro h
    obtain ⟨state, hfold⟩ := Partial.exists_foldlM h.readable
    have hrecords := Partial.records_of_foldlM hfold
    exact ⟨(state.config, _), ofAttributes_eq_ok_iff.2 ⟨h, hrecords.writtenAs, rfl⟩⟩

/-! ## Attributes of unknown kinds -/

theorem mem_names_iff {attr : EventAttribute} : attr.key ∈ ConfigKey.all.map ConfigKey.name ↔ IsKnown attr := by
  rw [List.mem_map, IsKnown]
  exact exists_congr fun key => (and_iff_right key.mem_all).trans eq_comm

/-- How often each key is counted: not at all if it is known, and otherwise as often as it comes. -/
theorem count_unknownKeys (attributes : List EventAttribute) (name : String) :
    (unknownKeys attributes).count name =
      if name ∈ ConfigKey.all.map ConfigKey.name then 0 else (attributes.map EventAttribute.key).count name := by
  rw [unknownKeys, List.count_eq_countP, List.count_eq_countP, List.countP_map, List.countP_map, List.countP_filter]
  split
  next hname =>
    refine List.countP_eq_zero.2 fun attr _ h => ?_
    simp only [Function.comp_apply, Bool.and_eq_true, beq_iff_eq, decide_eq_true_eq] at h
    obtain ⟨rfl, hunknown⟩ := h
    exact hunknown (mem_names_iff.1 hname)
  next hname =>
    refine List.countP_congr fun attr _ => ?_
    simp only [Function.comp_apply, Bool.and_eq_true, beq_iff_eq, decide_eq_true_eq]
    refine and_iff_left_of_imp ?_
    rintro rfl
    exact fun hknown => hname (mem_names_iff.2 hknown)

namespace Partial

/-- The state without the keys that are not known. -/
def forget (state : Partial) : Partial :=
  { state with unknown := [] }

theorem map_forget_add {state : Partial} {attr : EventAttribute} (h : IsKnown attr) :
    (state.add attr).map forget = state.forget.add attr := by
  obtain ⟨key, hkey⟩ := h
  rw [add, add, ConfigKey.ofName?_eq_some_iff.2 hkey]
  show Except.map forget (key.apply attr.value state.config >>= _) = key.apply attr.value state.config >>= _
  cases key.apply attr.value state.config with
  | error e => rfl
  | ok config =>
    show Except.map forget (if key ∈ state.seen then _ else _) = if key ∈ state.seen then _ else _
    by_cases hseen : key ∈ state.seen
    · rw [if_pos hseen, if_pos hseen]
      by_cases hrepeatable : key.isRepeatable
      · rw [if_pos hrepeatable, if_pos hrepeatable]
        rfl
      · rw [if_neg hrepeatable, if_neg hrepeatable]
        rfl
    · rw [if_neg hseen, if_neg hseen]
      rfl

theorem map_forget_add_unknown {state : Partial} {attr : EventAttribute} (h : ¬IsKnown attr) :
    (state.add attr).map forget = .ok state.forget := by
  rw [add, ofName?_eq_none_iff.2 h]
  rfl

theorem map_forget_foldlM (attributes : List EventAttribute) (state : Partial) :
    (attributes.foldlM Partial.add state).map forget =
      (attributes.filter fun attr => IsKnown attr).foldlM Partial.add state.forget := by
  induction attributes generalizing state with
  | nil => rfl
  | cons attr attributes ih =>
    have hstep : (List.foldlM Partial.add state (attr :: attributes)).map forget =
        (state.add attr).map forget >>= fun state' =>
          (attributes.filter fun attr => IsKnown attr).foldlM Partial.add state' := by
      rw [List.foldlM_cons]
      cases state.add attr with
      | error e => rfl
      | ok state' => exact ih state'
    rw [hstep]
    by_cases hknown : IsKnown attr
    · rw [map_forget_add hknown, List.filter_cons, if_pos (decide_eq_true hknown), List.foldlM_cons]
    · rw [map_forget_add_unknown hknown, List.filter_cons, decide_eq_false hknown, ok_bind]
      rfl

theorem map_fst_finish (state : Partial) : state.finish.map Prod.fst = state.forget.finish.map Prod.fst := by
  rw [finish, finish]
  show Except.map Prod.fst (if state.seen.length = _ then _ else _) =
    Except.map Prod.fst (if state.seen.length = _ then _ else _)
  split <;> rfl

end Partial

/-- The attributes of unknown kinds do not change the configuration, or the error. -/
theorem map_fst_ofAttributes (attributes : List EventAttribute) :
    (ofAttributes attributes).map Prod.fst =
      (ofAttributes (attributes.filter fun attr => IsKnown attr)).map Prod.fst := by
  have hfold : (attributes.filter fun attr => IsKnown attr).foldlM Partial.add .start =
      (attributes.foldlM Partial.add .start).map Partial.forget :=
    (Partial.map_forget_foldlM attributes .start).symm
  rw [ofAttributes, ofAttributes, hfold]
  cases attributes.foldlM Partial.add Partial.start with
  | error e => rfl
  | ok state => exact state.map_fst_finish

/-! ## Attributes in another order -/

/-- The same attributes in another order, but signers and transmitters in the same order among themselves. -/
structure Rearranged (attributes attributes' : List EventAttribute) : Prop where
  perm : attributes'.Perm attributes
  signers : ConfigKey.signers.valuesOf attributes' = ConfigKey.signers.valuesOf attributes
  transmitters : ConfigKey.transmitters.valuesOf attributes' = ConfigKey.transmitters.valuesOf attributes

namespace Rearranged

variable {attributes attributes' : List EventAttribute}

theorem symm (h : Rearranged attributes attributes') : Rearranged attributes' attributes :=
  ⟨h.perm.symm, h.signers.symm, h.transmitters.symm⟩

theorem valuesOf_eq (h : Rearranged attributes attributes') (hcomplete : Complete attributes) (key : ConfigKey) :
    key.valuesOf attributes' = key.valuesOf attributes := by
  have hperm : (key.valuesOf attributes').Perm (key.valuesOf attributes) := (h.perm.filter _).map _
  cases hkey : key.isRepeatable with
  | false =>
    obtain ⟨value, hvalue⟩ := List.length_eq_one_iff.1 (hcomplete.once key hkey)
    rw [hvalue] at hperm ⊢
    exact hperm.eq_singleton
  | true =>
    cases key with
    | signers => exact h.signers
    | transmitters => exact h.transmitters
    | _ => cases hkey

theorem complete (h : Rearranged attributes attributes') (hcomplete : Complete attributes) : Complete attributes' where
  once key := h.valuesOf_eq hcomplete key ▸ hcomplete.once key
  present key := h.valuesOf_eq hcomplete key ▸ hcomplete.present key
  wellFormed key := h.valuesOf_eq hcomplete key ▸ hcomplete.wellFormed key

theorem ofAttributes_eq {config : ContractConfig} {unknown : List String} (h : Rearranged attributes attributes')
    (hok : ofAttributes attributes = .ok (config, unknown)) :
    ∃ unknown', ofAttributes attributes' = .ok (config, unknown') ∧ unknown'.Perm unknown := by
  obtain ⟨hcomplete, hwritten, rfl⟩ := ofAttributes_eq_ok_iff.1 hok
  refine ⟨unknownKeys attributes', ofAttributes_eq_ok_iff.2 ⟨h.complete hcomplete, fun key => ?_, rfl⟩, ?_⟩
  · exact h.valuesOf_eq hcomplete key ▸ hwritten key
  · exact (h.perm.filter _).map _

theorem exists_error (h : Rearranged attributes attributes') (herror : ∃ e, ofAttributes attributes = .error e) :
    ∃ e, ofAttributes attributes' = .error e := by
  rw [exists_error_iff, exists_ofAttributes_iff] at herror ⊢
  exact fun hcomplete => herror (h.symm.complete hcomplete)

end Rearranged

/-! ## What is read -/

/-- A configuration is read from complete attributes and from no others. It is written with their values, the other
keys are counted, only the order of signers and of transmitters matters, and attributes of unknown kinds change
nothing but the count. -/
theorem ofAttributes_reads_complete (attributes : List EventAttribute) :
    ((∃ result, ofAttributes attributes = .ok result) ↔ Complete attributes) ∧
    (∀ config unknown, ofAttributes attributes = .ok (config, unknown) →
      (∀ key : ConfigKey, config.WrittenAs key (key.valuesOf attributes)) ∧
        ∀ name, unknown.count name =
          if name ∈ ConfigKey.all.map ConfigKey.name then 0 else (attributes.map EventAttribute.key).count name) ∧
    (∀ attributes', Rearranged attributes attributes' →
      (∀ config unknown, ofAttributes attributes = .ok (config, unknown) →
        ∃ unknown', ofAttributes attributes' = .ok (config, unknown') ∧ unknown'.Perm unknown) ∧
      ((∃ e, ofAttributes attributes = .error e) → ∃ e, ofAttributes attributes' = .error e)) ∧
    ∀ attributes', attributes'.filter (fun attr => IsKnown attr) = attributes.filter (fun attr => IsKnown attr) →
      (ofAttributes attributes').map Prod.fst = (ofAttributes attributes).map Prod.fst := by
  refine ⟨exists_ofAttributes_iff, ?_, ?_, ?_⟩
  · intro config unknown h
    obtain ⟨-, hwritten, rfl⟩ := ofAttributes_eq_ok_iff.1 h
    exact ⟨hwritten, count_unknownKeys attributes⟩
  · exact fun attributes' h => ⟨fun _ _ => h.ofAttributes_eq, h.exists_error⟩
  · intro attributes' h
    rw [map_fst_ofAttributes, h, ← map_fst_ofAttributes]

/-- All kinds out of order, with a digest in capitals, two signers, and a key that is not known twice. -/
def mixedAttributes : List EventAttribute :=
  [⟨"signers", "0A"⟩, ⟨"contract_address", "contract"⟩, ⟨"onchain_config", "AwQ="⟩, ⟨"transmitters", "one"⟩,
    ⟨"latest_config_digest", String.ofList (List.replicate 64 'F')⟩, ⟨"config_count", "+07"⟩, ⟨"signers", "ff"⟩,
    ⟨"contract_address", "other"⟩, ⟨"f", "255"⟩, ⟨"offchain_config_version", "2"⟩, ⟨"offchain_config", ""⟩]

def mixedConfig : ContractConfig where
  digest := ⟨⟨List.replicate 32 255, rfl⟩⟩
  count := 7
  signers := [[10], [255]]
  transmitters := ["one"]
  f := 255
  onchain := [3, 4]
  offchainVersion := 2
  offchain := []

set_option maxRecDepth 10000 in
theorem ofAttributes_mixed :
    ofAttributes mixedAttributes = .ok (mixedConfig, ["contract_address", "contract_address"]) := by
  decide +kernel

theorem rearranged_mixed : Rearranged mixedAttributes (mixedAttributes.rotateLeft 7) :=
  ⟨by decide, by decide, by decide⟩

theorem ofAttributes_reads_complete_of_mixed : Complete mixedAttributes ∧
    ∃ unknown, ofAttributes (mixedAttributes.rotateLeft 7) = .ok (mixedConfig, unknown) ∧
      unknown.Perm ["contract_address", "contract_address"] :=
  have h := ofAttributes_reads_complete mixedAttributes
  ⟨h.1.1 ⟨_, ofAttributes_mixed⟩, (h.2.2.1 _ rearranged_mixed).1 _ _ ofAttributes_mixed⟩

end ContractConfig

end ReportRelay
