import ReportRelay.Proofs.Contract.Sides

/-!
# Both sides of a refresh

A refresh goes through both sides at the same time. Its course is made of one of each, what it asks for either side is
told apart by the question, and its result names the sides that failed.
-/

namespace ReportRelay.Contract.Cache

open Dialogue

variable {α β : Type} {address : String} {start finish : Nat} {es u v : List (Dated interface)}

/-- Goes through both sides, as a refresh does. -/
def joined (config transmission : Action Unit) : Action Unit :=
  ExceptT.mk do
    let (config, transmission) ← Dialogue.inTurns config.outcome transmission.outcome
    match failures config transmission with
    | [] => return .ok ()
    | texts => return .error (.cache ("; ".intercalate texts))

theorem refresh_eq_joined : refresh address = joined (updateConfig address) (updateTransmission address) := rfl

/-- What is said of two sides: which of them failed, and why. -/
def verdict : Except Error α → Except Error β → Except Error Unit
  | .ok _, .ok _ => .ok ()
  | .error e, .ok _ => .error (.cache s!"config: {e.message}")
  | .ok _, .error e => .error (.cache s!"transmission: {e.message}")
  | .error e, .error other => .error (.cache s!"config: {e.message}; transmission: {other.message}")

theorem verdict_eq (x y : Except Error Unit) : verdict x y =
    match failures x y with
    | [] => .ok ()
    | texts => .error (.cache ("; ".intercalate texts)) := by
  match x, y with
  | .ok (), .ok () | .error _, .ok () | .ok (), .error _ => rfl
  | .error e, .error other =>
    have hjoint : "; transmission: " = "; " ++ "transmission: " := by decide
    have htexts : s!"config: {e.message}; transmission: {other.message}" =
        s!"config: {e.message}" ++ "; " ++ s!"transmission: {other.message}" := by
      simp only [toString, hjoint, String.append_assoc]
    rw [verdict, htexts]
    rfl

theorem verdict_map_unit (x : Except Error α) (y : Except Error β) :
    verdict (x.map fun _ => ()) (y.map fun _ => ()) = verdict x y := by
  cases x <;> cases y <;> rfl

/-- How a course of both sides is made. -/
inductive JoinedCourse (p q : Action Unit) (start : Nat) (es : List (Dated interface)) (finish : Nat) :
    Except Crash (Except Error Unit) → Prop
  | ended {u v : List (Dated interface)} {x y : Except Error Unit} {first second : Nat} (made : Interleave u v es)
    (config : p.Lasts start u first (.ok x)) (config_le : first ≤ finish)
    (transmission : q.Lasts start v second (.ok y)) (transmission_le : second ≤ finish) :
    JoinedCourse p q start es finish (.ok (verdict x y))
  | crashed {u v : List (Dated interface)} {reason : Crash} (made : Interleave u v es)
    (config : p.outcome.LastsSoFar start u) (transmission : q.outcome.LastsSoFar start v) :
    JoinedCourse p q start es finish (.error reason)

theorem joinedCourse_of_lasts {p q : Action Unit} {r : Except Crash (Except Error Unit)}
    (h : (joined p q).Lasts start es finish r) : JoinedCourse p q start es finish r := by
  rcases lasts_bind.1 h with ⟨c, hc, rfl⟩ | ⟨⟨x, y⟩, es, w, middle, rfl, hsides, hend⟩
  · obtain ⟨u, v, made, ⟨_, _, hr, _⟩ | ⟨_, _, ⟨⟨_, _, hu⟩, hv⟩ | ⟨hu, _, _, hv⟩⟩⟩ :=
      besideAt_of_lasts_together nonempty_answer hc
    · cases hr
    · exact .crashed made hu.soFar hv
    · exact .crashed made hu hv.soFar
  · obtain ⟨u, v, made, ⟨_, _, hr, ⟨first, hfirst, hu⟩, second, hsecond, hv⟩ | ⟨_, hr, _⟩⟩ :=
      besideAt_of_lasts_together nonempty_answer hsides
    · cases hr
      obtain ⟨rfl, rfl, rfl⟩ : w = [] ∧ finish = middle ∧ r = .ok (verdict x y) := by
        rw [verdict_eq]
        cases x <;> cases y <;> exact hend
      rw [List.append_nil]
      exact .ended made hu hfirst hv hsecond
    · cases hr

/-- So far as both sides have come, each of them has come. -/
theorem exists_begun_of_joined {p q : Action Unit} (h : (joined p q).outcome.LastsSoFar start es) :
    ∃ u v, Interleave u v es ∧ p.outcome.LastsSoFar start u ∧ q.outcome.LastsSoFar start v := by
  obtain ⟨rest, finish, r, hlasts⟩ := h
  have hbegun {u v : List (Dated interface)} (made : Interleave u v (es ++ rest)) (hu : p.outcome.LastsSoFar start u)
      (hv : q.outcome.LastsSoFar start v) :
      ∃ u v, Interleave u v es ∧ p.outcome.LastsSoFar start u ∧ q.outcome.LastsSoFar start v := by
    obtain ⟨u', v', ⟨_, hu'⟩, ⟨_, hv'⟩, made'⟩ := made.exists_of_append
    subst hu' hv'
    exact ⟨u', v', made', hu.of_append, hv.of_append⟩
  cases joinedCourse_of_lasts hlasts with
  | ended made hu _ hv => exact hbegun made hu.soFar hv.soFar
  | crashed made hu hv => exact hbegun made hu hv

/-! ## What is asked for each side -/

def chainEvent? (m : Dated interface) : Option (Dated client) :=
  match m.event with
  | ⟨.chain question, a⟩ => some ⟨m.time, question, a⟩
  | _ => none

/-- What is asked of the chain. -/
def chainEvents (es : List (Dated interface)) : List (Dated client) :=
  es.filterMap chainEvent?

theorem mem_chainEvents {time : Nat} {question : Contract.Question} {reply : question.Answer} :
    ⟨time, question, reply⟩ ∈ chainEvents es ↔ ⟨time, .chain question, reply⟩ ∈ es := by
  rw [chainEvents, List.mem_filterMap]
  constructor
  · rintro ⟨⟨_, question', _⟩, hmem, hsome⟩
    cases question' with
    | chain =>
      cases hsome
      exact hmem
    | now | renew | putConfig | putTransmission => cases hsome
  · exact fun hmem => ⟨_, hmem, rfl⟩

theorem chainEvents_map_asked (t : List (Dated client)) : chainEvents (t.map asked) = t := by
  rw [chainEvents, List.filterMap_map]
  exact List.filterMap_some

theorem answer_eq_of_script {script : Script} {p : Run α} {cache : Cache} :
    ∀ m ∈ chainEvents (historyBy script p start cache), m.event.answer = script m.event.question m.time := by
  induction p generalizing start cache with
  | done | crash => exact List.forall_mem_nil _
  | wait idle nanos k ih => exact @ih () (start + nanos) cache
  | ask question k ih =>
    cases question with
    | chain question => exact List.forall_mem_cons.2 ⟨rfl, ih _⟩
    | now | renew | putConfig | putTransmission => exact ih _

theorem details_of_contractScript {details record : Nat → Reply Bytes} {search : Nat → Reply (List TxResponse)}
    {p : Run α} {cache : Cache} {time : Nat} {reply : Reply Bytes}
    (h : ⟨time, stateOf address "latest_config_details", reply⟩ ∈
      chainEvents (historyBy (contractScript details record search) p start cache)) : reply = details time := by
  have hasked : Bytes.ofText (Json.quoted "latest_config_details") =
      Bytes.ofText (Json.quoted "latest_config_details") := rfl
  have hreply : (if _ = _ then details time else record time) = details time := if_pos hasked
  exact (answer_eq_of_script _ h).trans hreply

theorem record_of_contractScript {details record : Nat → Reply Bytes} {search : Nat → Reply (List TxResponse)}
    {p : Run α} {cache : Cache} {time : Nat} {name : String} {reply : Reply Bytes}
    (hname : Bytes.ofText (Json.quoted name) ≠ Bytes.ofText (Json.quoted "latest_config_details"))
    (h : ⟨time, stateOf address name, reply⟩ ∈
      chainEvents (historyBy (contractScript details record search) p start cache)) : reply = record time := by
  have hreply : (if _ = _ then details time else record time) = record time := if_neg hname
  exact (answer_eq_of_script _ h).trans hreply

/-- The question is one of the side of the configuration. -/
def concernsConfig : Contract.Question → Bool
  | .state _ query => query = Bytes.ofText (Json.quoted "latest_config_details")
  | .search _ => true
  | .latestBlock | .log _ => false

def askedForConfig (es : List (Dated interface)) : List (Dated client) :=
  (chainEvents es).filter fun m => concernsConfig m.event.question

def askedForTransmission (es : List (Dated interface)) : List (Dated client) :=
  (chainEvents es).filter fun m => !concernsConfig m.event.question

theorem asksOnly_query {P : client.Question → Prop} {name : String} {reader : Json.Reader α}
    (h : P (stateOf address name)) : (query address name reader).outcome.AsksOnly P := by
  refine Attempt.asksOnly_bind (Attempt.asksOnly_ofReply (.question h)) fun response => ?_
  split <;> exact .done _

theorem concernsConfig_details : concernsConfig (stateOf address "latest_config_details") = true :=
  decide_eq_true (Eq.refl (Bytes.ofText (Json.quoted "latest_config_details")))

theorem concernsConfig_record : concernsConfig (stateOf address "latest_transmission_details") = false :=
  have hne : Bytes.ofText (Json.quoted "latest_transmission_details") ≠
      Bytes.ofText (Json.quoted "latest_config_details") := by decide
  decide_eq_false hne

theorem concernsConfig_digestAndEpoch :
    concernsConfig (stateOf address "latest_config_digest_and_epoch") = false :=
  have hne : Bytes.ofText (Json.quoted "latest_config_digest_and_epoch") ≠
      Bytes.ofText (Json.quoted "latest_config_details") := by decide
  decide_eq_false hne

theorem asksOnly_transmission :
    (Contract.transmission address).outcome.AsksOnly fun question => concernsConfig question = false := by
  refine Attempt.asksOnly_bind (Attempt.asksOnly_ofDialogue (asksOnly_query concernsConfig_record)) fun
    | .ok record => .done _
    | .error e => ?_
  dsimp only
  split
  · refine Attempt.asksOnly_bind (Attempt.asksOnly_ofDialogue (asksOnly_query concernsConfig_digestAndEpoch)) fun
      | .ok current => ?_
      | .error second => Attempt.asksOnly_bind (Attempt.asksOnly_ofDialogue (.question rfl)) fun _ => .done _
    dsimp only
    split
    · exact Attempt.asksOnly_bind (Attempt.asksOnly_ofDialogue (.question rfl)) fun _ => .done _
    · exact .done _
  · exact .done _

theorem asked_of_interleave (made : Interleave u v es)
    (hu : ∀ m ∈ chainEvents u, concernsConfig m.event.question = true)
    (hv : ∀ m ∈ chainEvents v, concernsConfig m.event.question = false) :
    askedForConfig es = chainEvents u ∧ askedForTransmission es = chainEvents v := by
  have hall : Interleave (chainEvents u) (chainEvents v) (chainEvents es) := made.filterMap chainEvent?
  constructor
  · have hside := hall.filter fun m => concernsConfig m.event.question
    rw [List.filter_eq_self.2 hu, List.filter_eq_nil_iff.2 fun m hm => ne_true_of_eq_false (hv m hm)] at hside
    exact hside.eq_left.symm
  · have hside := hall.symm.filter fun m => !concernsConfig m.event.question
    have hkept (m : Dated client) (hm : m ∈ chainEvents v) : (!concernsConfig m.event.question) = true := by
      rw [hv m hm]
      rfl
    have hnone (m : Dated client) (hm : m ∈ chainEvents u) : ¬(!concernsConfig m.event.question) = true := by
      rw [hu m hm]
      exact Bool.false_ne_true
    rw [List.filter_eq_self.2 hkept, List.filter_eq_nil_iff.2 hnone] at hside
    exact hside.eq_left.symm

end ReportRelay.Contract.Cache
