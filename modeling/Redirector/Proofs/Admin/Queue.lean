import Redirector.Proofs.Admin.Steps
import Redirector.Proofs.Apply.Demand
import Redirector.Regex.Automaton

/-!
# Which requests ask for an apply

A request that changes which rules the store demands has to ask the worker for an apply, or the
change goes unnoticed until something else asks for one. This is about all requests, on any engine
and with any calls of the store refused: each of them asks for an apply or leaves the demand as it
was (`settling`), except where it is broken off between two writes (`BreaksOff`).

There are two such places. Removing a profile writes the list before it moves the pointer, and
setting both switches sets one before the other. If the second write is refused the first one stays,
and the reply is that of a failure, which asks for nothing. Adding a profile is no such place
although it writes twice: a new profile demands nothing yet.
-/

namespace Redirector.Admin

open Store (Call Program Scheduled)
open Store.Program (Ends)
open Apply (demand)
open Standard

variable {ε α : Type}

/-- A service on some engine, and a store whose calls may be refused. -/
abbrev Service.onSchedule (engine : Engine (StateM ε)) (key : String) :
    Service (StateM (ε × Scheduled)) := .on engine Store.scheduled key

/-- The operation of a request is broken off between two writes. -/
inductive BreaksOff (r : Request) (s : Scheduled) : Operation → Prop
  | deleteProfile {segment : List Char} {id : String} {f : Store.Fault} {s' : Scheduled}
    (hid : decodeSegment? segment = some id)
    (hrun : (Profiles.remove id).run Store.scheduled s = (.error f, s'))
    (hcall : ((Profiles.remove id).refused? Store.scheduled s).bind Call.key?
      = some Profiles.editingKey) : BreaksOff r s (.deleteProfile segment)
  | setSwitches {enabled headers : Bool} {f : Store.Fault} {s' s'' : Scheduled}
    (hbody : r.decode newSwitches = .ok ⟨some enabled, some headers⟩)
    (hfirst : (Profiles.setEnabled enabled).run Store.scheduled s = (.ok (), s'))
    (hsecond : (Profiles.setHeadersEnabled headers).run Store.scheduled s' = (.error f, s'')) :
    BreaksOff r s .setSwitches

/-! ## Asking for an apply, or leaving the demand alone -/

/-- To ask for an apply, or leave a demand as it was. -/
def settling (demanded : Except Store.Fault (List Rule)) : Standard Scheduled where
  intact s := demand s.entries = demanded
  meets _ before after s := after = before ++ [.admin] ∨
    after = before ∧ demand s.entries = demanded
  meets_of_intact h _ _ := Or.inr ⟨rfl, h⟩

section

variable {engine : Engine (StateM ε)} {key : String} {t : Session} {s : ε × Scheduled}
  {demanded : Except Store.Fault (List Rule)}

theorem spares_of_harmless {p : Program α} (hp : Apply.Harmless p) :
    (settling demanded).Spares Store.scheduled p := fun s h ↦ (hp.demand_run s).trans h

theorem settling_bearsReading : (settling demanded).BearsReading Store.scheduled where
  list := spares_of_harmless Apply.harmless_list
  of_readsOnly hp := spares_of_harmless (Apply.harmless_of_readsOnly hp)

theorem settling_requestApply (reply : Reply) :
    (settling demanded).Met (do Service.requestApply; return reply) t s := Or.inl rfl

/-- A program on the store, by what it does and where it is broken off. -/
theorem settling_withStore {p : Program α} {next : α → Action (StateM (ε × Scheduled)) Reply}
    {D : α → Store.Entries → Prop} {B : Option Call → Store.Entries → Prop}
    (hp : p.Ends D B s.2.entries)
    (hbroken : ∀ f s', p.run Store.scheduled s.2 = (.error f, s') →
      B (p.refused? Store.scheduled s.2) s'.entries → demand s'.entries = demanded)
    (hnext : ∀ a s', p.run Store.scheduled s.2 = (.ok a, s') → D a s'.entries →
      (settling demanded).Met (next a) t (s.1, s')) :
    (settling demanded).Met ((Service.onSchedule engine key).withStore p next) t s :=
  met_withStore (fun f s' hrun ↦ hbroken f s' hrun (hp.scheduled_error hrun))
    fun a s' hrun ↦ hnext a s' hrun (hp.scheduled_ok hrun)

theorem settling_if {done : Bool} {reply other : Reply}
    (h : done = false → demand s.2.entries = demanded) :
    (settling demanded).Met
      (if done then do Service.requestApply; return reply else return other) t s := by
  cases done with
  | true => exact settling_requestApply reply
  | false => exact met_reply (h rfl) other

end

/-! ## The operations -/

section

variable (engine : Engine (StateM ε)) (key : String) (t : Session) (s : ε × Scheduled) (r : Request)

theorem settling_createProfile (clock : Nat) :
    (settling (demand s.2.entries)).Met
      ((Service.onSchedule engine key).createProfile clock r) t s := by
  refine met_withBody rfl fun name _ ↦ ?_
  refine settling_withStore (Profiles.add_ends s.2.entries clock name) ?_ fun p s' _ _ ↦
    settling_requestApply _
  rintro f s' - (⟨-, hfound⟩ | ⟨-, ps, trimmed, hps, hs'⟩)
  · exact Apply.demand_of_asFound hfound
  · rw [hs']
    exact Apply.demand_newcomer hps clock trimmed

theorem settling_deleteProfile {segment : List Char}
    (h : ¬ BreaksOff r s.2 (.deleteProfile segment)) :
    (settling (demand s.2.entries)).Met
      ((Service.onSchedule engine key).deleteProfile segment) t s := by
  refine met_withId rfl fun id hid ↦ ?_
  split_ifs
  · exact met_reply rfl _
  · refine settling_withStore (Profiles.remove_ends s.2.entries id) ?_ ?_
    · rintro f s' hrun (⟨-, hfound⟩ | ⟨hcall, -⟩)
      · exact Apply.demand_of_asFound hfound
      · exact absurd (.deleteProfile hid hrun hcall) h
    · intro done s' _ hdone
      refine settling_if fun hfalse ↦ ?_
      subst hfalse
      rcases hdone with ⟨-, -, hs'⟩ | ⟨-, ps, -, -, hs'⟩
      · rw [hs']
      · rw [hs']
        exact Apply.demand_of_asFound (Or.inr rfl)

theorem settling_toggleProfile (segment : List Char) :
    (settling (demand s.2.entries)).Met
      ((Service.onSchedule engine key).toggleProfile segment) t s := by
  refine met_withId rfl fun id _ ↦ ?_
  refine settling_withStore (Profiles.toggle_ends s.2.entries id) ?_ ?_
  · exact fun _ _ _ hfound ↦ Apply.demand_of_asFound hfound
  · intro active s' _ hactive
    cases active with
    | some active => exact settling_requestApply _
    | none =>
      obtain ⟨ps, -, ⟨hs', -⟩ | ⟨p, -, -, -, hsome, -⟩⟩ := hactive
      · exact met_reply (Apply.demand_of_asFound (Or.inr hs')) _
      · cases hsome

theorem settling_swapProfiles :
    (settling (demand s.2.entries)).Met
      ((Service.onSchedule engine key).swapProfiles r) t s := by
  refine met_withBody rfl fun pair _ ↦ ?_
  refine settling_withStore (Profiles.swap_ends s.2.entries pair.a pair.b) ?_ ?_
  · exact fun _ _ _ hfound ↦ Apply.demand_of_asFound hfound
  · intro done s' _ hdone
    refine settling_if fun hfalse ↦ ?_
    obtain ⟨ps, -, ⟨-, -, hs'⟩ | ⟨p, -, q, -, -, -, htrue, -⟩⟩ := hdone
    · rw [hs']
      exact Apply.demand_of_asFound (Or.inr rfl)
    · rw [hfalse] at htrue
      cases htrue

theorem settling_saveDocument (segment : List Char) :
    (settling (demand s.2.entries)).Met
      ((Service.onSchedule engine key).saveDocument segment r) t s := by
  refine met_withId rfl fun id _ ↦ ?_
  refine met_withBody rfl fun text _ ↦ ?_
  refine settling_withStore (Profiles.save_ends s.2.entries text id) ?_ ?_
  · exact fun _ _ _ hfound ↦ Apply.demand_of_asFound hfound
  · intro done s' _ hdone
    refine settling_if fun hfalse ↦ ?_
    subst hfalse
    obtain ⟨ps, -, -, hs'⟩ := hdone
    rw [hs']
    exact Apply.demand_of_asFound (Or.inr rfl)

theorem setMentioned_ends {set : Bool → Program Unit} {es : Store.Entries}
    (hset : ∀ on, (set on).Ends (fun _ _ ↦ True) (fun _ es' ↦ es' = es) es) (on? : Option Bool) :
    (Service.setMentioned set on?).Ends (fun _ es' ↦ on? = none → es' = es) (fun _ es' ↦ es' = es)
      es := by
  cases on? with
  | none => exact fun _ ↦ rfl
  | some on => exact (hset on).mono (fun _ _ _ hnone ↦ by cases hnone) fun _ _ ↦ id

theorem settling_setSwitches (h : ¬ BreaksOff r s.2 .setSwitches) :
    (settling (demand s.2.entries)).Met
      ((Service.onSchedule engine key).setSwitches r) t s := by
  have henabled : ∀ on es,
      (Profiles.setEnabled on).Ends (fun _ _ ↦ True) (fun _ es' ↦ es' = es) es :=
    fun on es ↦ ⟨rfl, trivial⟩
  have hheaders : ∀ on es,
      (Profiles.setHeadersEnabled on).Ends (fun _ _ ↦ True) (fun _ es' ↦ es' = es) es :=
    fun on es ↦ ⟨rfl, trivial⟩
  refine met_withBody rfl fun sw hbody ↦ ?_
  refine settling_withStore (setMentioned_ends (fun on ↦ henabled on _) sw.enabled) ?_ ?_
  · rintro f s₁ - hs₁
    rw [hs₁]
  · intro _ s₁ hfirst hs₁
    refine settling_withStore (setMentioned_ends (fun on ↦ hheaders on _) sw.headers) ?_ ?_
    · intro f s₂ hsecond hs₂
      -- The second switch is refused. That is harmless unless the first one was mentioned too.
      obtain ⟨enabled, headers⟩ := sw
      cases headers with
      | none => cases hsecond
      | some headers =>
        cases enabled with
        | none => rw [hs₂, hs₁ rfl]
        | some enabled => exact absurd (.setSwitches hbody hfirst hsecond) h
    · intro _ s₂ _ _
      -- The apply is asked for, and reading the switches leaves the queue alone.
      exact Or.inl (met_readSwitches asksNothing_bearsReading trivial)

end

/-! ## All requests -/

section

variable {engine : Engine (StateM ε)} {key : String} {t : Session} {s : ε × Scheduled} {r : Request}

/-- **Every operation asks for an apply or leaves the demand alone**, unless it is broken off. -/
theorem settling_perform (clock : Nat) (o : Operation) (h : ¬ BreaksOff r s.2 o) :
    (settling (demand s.2.entries)).Met
      ((Service.onSchedule engine key).perform clock r o) t s := by
  cases o with
  | readStatus | listProfiles | readDocument | readEditing | applyNow | listRules
  | readSwitches => exact met_perform_of_isReading settling_bearsReading rfl clock r trivial
  | createProfile => exact settling_createProfile engine key t s r clock
  | swapProfiles => exact settling_swapProfiles engine key t s r
  | renameProfile segment =>
    refine met_withId rfl fun id _ ↦ met_withBody rfl fun name _ ↦ ?_
    exact met_withStore_of_spares (spares_of_harmless (Apply.harmless_rename id name)) rfl
      fun _ _ hs' ↦ met_reply hs' _
  | deleteProfile segment => exact settling_deleteProfile engine key t s r h
  | toggleProfile segment => exact settling_toggleProfile engine key t s segment
  | saveDocument segment => exact settling_saveDocument engine key t s r segment
  | setEditing =>
    refine met_withBody rfl fun id _ ↦ ?_
    exact met_withStore_of_spares (spares_of_harmless (Apply.harmless_setEditing id)) rfl
      fun _ _ hs' ↦ met_reply hs' _
  | collectGarbage =>
    exact met_withStore_of_spares (spares_of_harmless Apply.harmless_collectGarbage) rfl
      fun _ _ hs' ↦ met_reply hs' _
  | setSwitches => exact settling_setSwitches engine key t s r h

theorem queue_of_breaksOff (clock : Nat) {o : Operation} (h : BreaksOff r s.2 o) :
    ((Service.onSchedule engine key).perform clock r o t s).1.2.queue = t.queue := by
  cases h with
  | @deleteProfile segment id f s' hid hrun hcall =>
    have hne : id ≠ Profile.defaultId := by
      rintro rfl
      cases hcall
    rw [Service.perform, Service.deleteProfile, Service.withId, hid]
    dsimp only
    rw [if_neg hne, withStore_apply, hrun]
  | setSwitches hbody hfirst hsecond =>
    rw [Service.perform, Service.setSwitches, hbody, Service.withBody, withStore_apply,
      Service.setMentioned, hfirst]
    dsimp only
    rw [withStore_apply, Service.setMentioned, hsecond]

/-- **A request that changes what the store demands asks for an apply**, exactly if it is not broken
off between two writes. -/
theorem asks_iff_of_demand_ne {clock : Nat}
    (h : demand ((Service.onSchedule engine key).respond clock r t s).2.2.entries
      ≠ demand s.2.entries) :
    ((Service.onSchedule engine key).respond clock r t s).1.2.queue = t.queue ++ [.admin] ↔
      ∀ o, r.operation? = some o → ¬ BreaksOff r s.2 o := by
  by_cases hrouted : r.Carries key ∧ ∃ o, r.operation? = some o
  · obtain ⟨hkey, o, ho⟩ := hrouted
    let done := (Service.onSchedule engine key).perform clock r o t s
    have hrespond : (Service.onSchedule engine key).respond clock r t s
        = (({ done.1.1 with sendsContent := decide (r.method ≠ "HEAD") }, done.1.2), done.2) :=
      congrFun (congrFun (respond_of_carries (Service.onSchedule engine key) clock hkey ho) t) s
    rw [hrespond] at h ⊢
    constructor
    · intro hqueue o' ho' hbreaks
      obtain rfl : o = o' := Option.some.inj (ho.symm.trans ho')
      have hsame : t.queue = t.queue ++ [.admin] :=
        (queue_of_breaksOff clock hbreaks).symm.trans hqueue
      exact absurd (List.self_eq_append_right.mp hsame) (List.cons_ne_nil _ _)
    · intro hbreaks
      rcases settling_perform clock o (hbreaks o ho) with hqueue | ⟨-, hdemand⟩
      · exact hqueue
      · exact absurd hdemand h
  · obtain ⟨reply, hrespond⟩ := respond_of_not_routed engine Store.scheduled key t s clock hrouted
    rw [hrespond] at h
    exact absurd rfl h

end

def oneDomain : Store.Entries :=
  [(Profiles.documentKey Profile.defaultId, Profile.documentToJson "\x7b\"cors\": [\"a\"]\x7d"),
    (Profiles.listKey, Profile.listToJson [Profile.default])]

def switchRequest (body : String) : Request where
  method := "PUT"
  target := "/switch"
  headers := [("authorization", "Bearer k"), ("content-type", "application/json")]
  body := body.toUTF8

/-- Switching everything off asks for an apply. -/
theorem asks_iff_of_demand_ne_off :
    let s : RuleTable × Scheduled := (.empty, ⟨oneDomain, .clear⟩)
    let r := switchRequest "\x7b\"enabled\": false\x7d"
    let out := (Service.onSchedule (Engine.memory Regex.check) "k").respond 0 r ⟨.initial, []⟩ s
    demand out.2.2.entries ≠ demand oneDomain ∧ out.1.2.queue = [.admin] := by
  intro s r out
  have hchanged : demand out.2.2.entries ≠ demand oneDomain := by decide +kernel
  refine ⟨hchanged, (asks_iff_of_demand_ne hchanged).mpr ?_⟩
  have ho : r.operation? = some .setSwitches := by decide +kernel
  have hheaders : (r.decode newSwitches).toOption.bind Switches.headers = none := by decide +kernel
  intro o ho' hbreaks
  obtain rfl : Operation.setSwitches = o := Option.some.inj (ho.symm.trans ho')
  -- The other switch is not mentioned, so there is no second write.
  cases hbreaks with
  | setSwitches hbody =>
    rw [hbody] at hheaders
    cases hheaders

/-- Both switches are to be set, and the second one is refused: the first one stays switched off,
the reply is that of a failure, and no apply is asked for. -/
theorem silent_after_failure :
    let s : RuleTable × Scheduled :=
      (.empty, ⟨oneDomain, { Store.Schedule.clear with set := [none, some .poisoned] }⟩)
    let out := (Service.onSchedule (Engine.memory Regex.check) "k").respond 0
      (switchRequest "\x7b\"enabled\": false, \"cors_enabled\": true\x7d") ⟨.initial, []⟩ s
    demand oneDomain ≠ .ok [] ∧ demand out.2.2.entries = .ok [] ∧ out.1.1.status = 500 ∧
      out.1.2.queue = [] := by
  decide +kernel

end Redirector.Admin
