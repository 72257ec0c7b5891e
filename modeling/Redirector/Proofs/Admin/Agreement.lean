import Redirector.Proofs.Admin.Steps
import Redirector.Proofs.Profile.History
import Redirector.Proofs.Profile.View
import Redirector.Regex.Automaton

/-!
# Replies, the store and the queue

What a request is answered, what it does to the store and whether it asks for an apply have to go
together, and this is about all requests on a store in memory whose list can be read, and any
engine. There are six changes that a request can make (`Change`). Whether it makes one depends on
the operation, its arguments and the list (`Request.Makes`); if it does, one apply is asked for, the
reply is that of success, and what is read next is what there was with the change (`Change.Does`).
All other requests ask for nothing, and if one of them is refused, what is read next is what there
was (`responses_agree`).

Renaming a profile, editing another one and collecting garbage change the store and ask for nothing,
since no rule depends on what they change.

## Operations that make no change

An operation that makes no change either only looks at the store, or ends with a reply that is no
refusal. Both ask for nothing, and keep what is read if they refuse the request (`staying`).
-/

namespace Redirector.Admin

open Store (Entries Program)
open Profiles (Reads View)
open Standard

variable {ε α : Type}

/-! ## Changes -/

/-- A change that a request can make. -/
inductive Change where
  | create (name : String)
  | delete (id : String)
  | toggle (id : String)
  | save (text id : String)
  | swap (a b : String)
  | set (switches : Switches)

/-- The operation of the request makes a change, given the list. -/
def Request.Makes (r : Request) (ps : List Profile) (c : Change) : Operation → Prop
  | .createProfile => ∃ name, r.decode newProfile = .ok name ∧
    (∃ a ∈ name.toList, Text.isBlank a = false) ∧ c = .create name
  | .deleteProfile segment => ∃ id, decodeSegment? segment = some id ∧
    (id ∈ Profile.ids ps ∧ id ≠ Profile.defaultId) ∧ c = .delete id
  | .toggleProfile segment => ∃ id, decodeSegment? segment = some id ∧
    id ∈ Profile.ids ps ∧ c = .toggle id
  | .saveDocument segment => ∃ id, decodeSegment? segment = some id ∧
    ∃ text, r.text = .ok text ∧ id ∈ Profile.ids ps ∧ c = .save text id
  | .swapProfiles => ∃ pair, r.decode swappedProfiles = .ok pair ∧
    (pair.a ∈ Profile.ids ps ∧ pair.b ∈ Profile.ids ps) ∧ c = .swap pair.a pair.b
  | .setSwitches => ∃ switches, r.decode newSwitches = .ok switches ∧ c = .set switches
  | _ => False

/-- The request carries the key, and its operation makes a change. -/
def Request.Changes (r : Request) (key : String) (ps : List Profile) (c : Change) : Prop :=
  r.Carries key ∧ ∃ o, r.operation? = some o ∧ r.Makes ps c o

/-- What a change does to what is read, and how it is answered. -/
inductive Change.Does (v : View) : Change → View → Reply → Prop
  | create {name : String} {p : Profile} (hname : p.name = String.ofList (Text.trim name.toList))
    (hactive : p.active = true) (hnew : p.id ∉ Profile.ids v.profiles)
    (hdocument : v.document p.id = .ok Document.template) :
    Does v (.create name) (v.added p) { status := 201, content := .json p.toReply }
  | delete (id : String) : Does v (.delete id) (v.removed id) (.bare 204)
  /-- The default profile stays on. -/
  | toggle {p : Profile} {active : Bool} (hp : p ∈ v.profiles)
    (hactive : active = (p.isDefault || !p.active)) :
    Does v (.toggle p.id) (v.toggled p active)
      (.json (.object [("id", .string p.id), ("active", .boolean active)]))
  | save (text id : String) : Does v (.save text id) (v.saved text id) (Service.savedReply id text)
  | swap {p q : Profile} (hp : p ∈ v.profiles) (hq : q ∈ v.profiles) :
    Does v (.swap p.id q.id) (v.swapped p q) (.bare 204)
  /-- A switch that is not mentioned stays. -/
  | set {switches : Switches} {enabled headers : Bool}
    (henabled : enabled = switches.enabled.getD v.enabled)
    (hheaders : headers = switches.headers.getD v.headers) :
    Does v (.set switches) { v with enabled, headers }
      (.json (.object [("enabled", .boolean enabled), ("cors_enabled", .boolean headers)]))

theorem Request.Makes.unique {r : Request} {ps : List Profile} {o : Operation} {c c' : Change}
    (h : r.Makes ps c o) (h' : r.Makes ps c' o) : c = c' := by
  have hok : ∀ {β : Type} {x : Except Reply β} {a b : β}, x = .ok a → x = .ok b → a = b :=
    fun ha hb ↦ Except.ok.inj (ha.symm.trans hb)
  have hsome : ∀ {segment : List Char} {a b : String}, decodeSegment? segment = some a →
      decodeSegment? segment = some b → a = b := fun ha hb ↦ Option.some.inj (ha.symm.trans hb)
  cases o with
  | createProfile | swapProfiles =>
    obtain ⟨a, ha, -, rfl⟩ := h
    obtain ⟨b, hb, -, rfl⟩ := h'
    rw [hok ha hb]
  | deleteProfile segment | toggleProfile segment =>
    obtain ⟨id, hid, -, rfl⟩ := h
    obtain ⟨id', hid', -, rfl⟩ := h'
    rw [hsome hid hid']
  | saveDocument segment =>
    obtain ⟨id, hid, text, htext, -, rfl⟩ := h
    obtain ⟨id', hid', text', htext', -, rfl⟩ := h'
    rw [hsome hid hid', hok htext htext']
  | setSwitches =>
    obtain ⟨a, ha, rfl⟩ := h
    obtain ⟨b, hb, rfl⟩ := h'
    rw [hok ha hb]
  | _ => exact h.elim

theorem Change.Does.status {v v' : View} {c : Change} {reply : Reply} (h : c.Does v v' reply) :
    reply.status = 200 ∨ reply.status = 201 ∨ reply.status = 204 := by
  cases h with
  | create => exact Or.inr (Or.inl rfl)
  | delete | swap => exact Or.inr (Or.inr rfl)
  | toggle | set => exact Or.inl rfl
  | save text id =>
    left
    rw [Service.savedReply]
    cases Document.parse text with
    | ok => rfl
    | error => rfl

/-! ## What a request comes to -/

/-- The request is refused. -/
def Reply.IsRefusal (reply : Reply) : Prop := 400 ≤ reply.status ∧ reply.status < 500

/-- To ask for nothing, and to keep what is read if the request is refused. -/
def staying (v : View) : Standard Entries where
  intact es := Reads es v
  meets reply before after es := after = before ∧ (reply.IsRefusal → Reads es v)
  meets_of_intact h _ _ := ⟨rfl, fun _ ↦ h⟩

/-- An action carries out the change that is to be made, or there is none. -/
def Agrees (makes : Change → Prop) (v : View) (x : Action (StateM (ε × Entries)) Reply)
    (t : Session) (s : ε × Entries) : Prop :=
  (∃ c v', makes c ∧ (x t s).1.2.queue = t.queue ++ [.admin] ∧ c.Does v v' (x t s).1.1 ∧
    Reads (x t s).2.2 v') ∨
  (∀ c, ¬ makes c) ∧ (staying v).Met x t s

section

variable {engine : Engine (StateM ε)} {key : String} {t : Session} {s : ε × Entries} {v : View}

/-- A program that leaves the entries as it finds them, apart from the list that there is to start
with, keeps what is read. -/
theorem spares_of_asFound {p : Program α}
    (h : ∀ es, Profiles.AsFound es (p.run Store.memory es).2) :
    (staying v).Spares Store.memory p := fun es hes ↦ Reads.asFound hes (h es)

theorem staying_bearsReading : (staying v).BearsReading Store.memory where
  list := spares_of_asFound fun _ ↦ Or.inr rfl
  of_readsOnly hp := spares_of_asFound fun es ↦ Or.inl (hp.run_entries es)

theorem staying_answer {reply : Reply} (n : Nat) (hstatus : reply.status = n) (hn : n < 400) :
    (staying v).Met (pure reply) t s :=
  ⟨rfl, fun hrefusal ↦ absurd (hstatus ▸ hrefusal.1) (Nat.not_le_of_lt hn)⟩

/-! ## Operations that make no change -/

theorem staying_renameProfile (h : Reads s.2 v) (segment : List Char) (r : Request) :
    (staying v).Met ((Service.inMemory engine key).renameProfile segment r) t s := by
  refine met_withId h fun id _ ↦ met_withBody h fun name _ ↦ ?_
  have hends := Profiles.rename_ends s.2 id name
  refine met_withStore (fun f es' hrun ↦ h.asFound (hends.memory_error hrun)) ?_
  intro done es' hrun
  cases done with
  | true => exact staying_answer 204 rfl (by decide)
  | false =>
    obtain ⟨ps, trimmed, -, -, -, rfl⟩ := hends.memory_ok hrun
    exact met_reply h.withList _

theorem staying_setEditing (h : Reads s.2 v) (r : Request) :
    (staying v).Met ((Service.inMemory engine key).setEditing r) t s := by
  refine met_withBody h fun id _ ↦ ?_
  have hends := Profiles.setEditing_ends s.2 id
  refine met_withStore (fun f es' hrun ↦ h.asFound (hends.memory_error hrun)) ?_
  intro done es' hrun
  cases done with
  | true => exact staying_answer 200 rfl (by decide)
  | false =>
    obtain ⟨ps, -, -, rfl⟩ := hends.memory_ok hrun
    exact met_reply h.withList _

theorem staying_collectGarbage (h : Reads s.2 v) :
    (staying v).Met (Service.inMemory engine key).collectGarbage t s := by
  obtain ⟨n, es', hrun⟩ := h.collectGarbage
  rw [Service.collectGarbage, Met, withStore_apply, hrun]
  exact staying_answer 200 rfl (by decide)

theorem readSwitches_inMemory (h : Reads s.2 v) :
    (Service.inMemory engine key).readSwitches t s
      = ((.json (.object [("enabled", .boolean v.enabled), ("cors_enabled", .boolean v.headers)]),
          t), s) := by
  have henabled : Profiles.isEnabled.run Store.memory s.2 = (.ok v.enabled, s.2) :=
    Prod.ext h.enabled (Apply.readsOnly_isEnabled.run_entries s.2)
  have hheaders : Profiles.headersEnabled.run Store.memory s.2 = (.ok v.headers, s.2) :=
    Prod.ext h.headers (Apply.readsOnly_headersEnabled.run_entries s.2)
  rw [Service.readSwitches, bind_action_apply, run_apply, henabled, bind_action_apply, run_apply,
    hheaders]
  rfl

/-! ## Operations that make a change -/

theorem agrees_of_staying {makes : Change → Prop} {x : Action (StateM (ε × Entries)) Reply}
    (hmakes : ∀ c, ¬ makes c) (h : (staying v).Met x t s) : Agrees makes v x t s :=
  Or.inr ⟨hmakes, h⟩

theorem agrees_of_not {P : Prop} {c : Change} {x : Action (StateM (ε × Entries)) Reply}
    (hP : ¬ P) (h : (staying v).Met x t s) : Agrees (fun c' ↦ P ∧ c' = c) v x t s :=
  agrees_of_staying (fun _ hc ↦ hP hc.1) h

theorem agrees_of_eq {makes : Change → Prop} {x : Action (StateM (ε × Entries)) Reply} {c : Change}
    {v' : View} {reply : Reply}
    (hx : x t s = ((reply, { t with queue := t.queue ++ [.admin] }), s)) (hmakes : makes c)
    (hdoes : c.Does v v' reply) (h : Reads s.2 v') : Agrees makes v x t s := by
  rw [Agrees, hx]
  exact Or.inl ⟨c, v', hmakes, rfl, hdoes, h⟩

theorem agrees_requestApply {P : Prop} {c : Change} {v' : View} {reply : Reply} (hP : P)
    (hdoes : c.Does v v' reply) (h : Reads s.2 v') :
    Agrees (fun c' ↦ P ∧ c' = c) v (do Service.requestApply; return reply) t s :=
  agrees_of_eq rfl ⟨hP, rfl⟩ hdoes h

theorem agrees_withId {makes : String → Change → Prop} {segment : List Char}
    {next : String → Action (StateM (ε × Entries)) Reply} (h : Reads s.2 v)
    (hnext : ∀ id, Agrees (makes id) v (next id) t s) :
    Agrees (fun c ↦ ∃ id, decodeSegment? segment = some id ∧ makes id c) v
      (Service.withId segment next) t s := by
  rw [Service.withId]
  cases decodeSegment? segment with
  | some id =>
    simpa only [Option.some.injEq, exists_eq_left'] using hnext id
  | none =>
    exact agrees_of_staying (fun c hc ↦ by simp at hc) (met_reply h _)

theorem agrees_withBody {makes : α → Change → Prop} {body : Except Reply α}
    {next : α → Action (StateM (ε × Entries)) Reply} (h : Reads s.2 v)
    (hnext : ∀ a, Agrees (makes a) v (next a) t s) :
    Agrees (fun c ↦ ∃ a, body = .ok a ∧ makes a c) v (Service.withBody body next) t s := by
  cases body with
  | ok a =>
    change Agrees _ v (next a) t s
    simpa only [Except.ok.injEq, exists_eq_left'] using hnext a
  | error reply => exact agrees_of_staying (fun c hc ↦ by simp at hc) (met_reply h reply)

theorem agrees_withStore {makes : Change → Prop} {p : Program α} {a : α} {es' : Entries}
    {next : α → Action (StateM (ε × Entries)) Reply}
    (hrun : p.run Store.memory s.2 = (.ok a, es')) (hnext : Agrees makes v (next a) t (s.1, es')) :
    Agrees makes v ((Service.inMemory engine key).withStore p next) t s := by
  rw [Agrees, Met, withStore_apply, hrun]
  exact hnext

theorem agrees_if {P : Prop} {done : Bool} {c : Change} {v' : View} {reply other : Reply}
    (hP : done = true ↔ P) (hdoes : P → c.Does v v' reply)
    (h : Reads s.2 (if done then v' else v)) :
    Agrees (fun c' ↦ P ∧ c' = c) v
      (if done then do Service.requestApply; return reply else return other) t s := by
  cases done with
  | true => exact agrees_requestApply (hP.mp rfl) (hdoes (hP.mp rfl)) h
  | false => exact agrees_of_not (fun h ↦ Bool.false_ne_true (hP.mpr h)) (met_reply h other)

theorem agrees_createProfile (h : Reads s.2 v) (clock : Nat) (r : Request) :
    Agrees (r.Makes v.profiles · .createProfile) v
      ((Service.inMemory engine key).createProfile clock r) t s := by
  refine agrees_withBody h fun name ↦ ?_
  by_cases hname : ∃ c ∈ name.toList, Text.isBlank c = false
  · obtain ⟨p, es', hrun, hpname, hactive, hnew, hdocument, hes'⟩ := h.add hname clock
    exact agrees_withStore hrun
      (agrees_requestApply hname (.create hpname hactive hnew hdocument) hes')
  · refine agrees_of_not hname ?_
    have hblank : ∀ c ∈ name.toList, Text.isBlank c = true := by
      intro c hc
      by_contra hne
      exact hname ⟨c, hc, Bool.eq_false_iff.mpr hne⟩
    rw [Met, withStore_apply,
      Profiles.add_run_of_trim_eq_nil (Text.trim_eq_nil_iff.mpr hblank) clock _]
    exact ⟨rfl, fun _ ↦ h⟩

theorem agrees_deleteProfile (h : Reads s.2 v) (r : Request) (segment : List Char) :
    Agrees (r.Makes v.profiles · (.deleteProfile segment)) v
      ((Service.inMemory engine key).deleteProfile segment) t s := by
  refine agrees_withId h fun id ↦ ?_
  split_ifs with hid
  · exact agrees_of_not (fun hP ↦ hP.2 hid) (met_reply h _)
  · obtain ⟨es', hrun, hes'⟩ := h.remove hid
    refine agrees_withStore hrun (agrees_if ?_ (fun _ ↦ .delete id) hes')
    rw [Profile.listed_iff, and_iff_left hid]

theorem agrees_toggleProfile (h : Reads s.2 v) (r : Request) (segment : List Char) :
    Agrees (r.Makes v.profiles · (.toggleProfile segment)) v
      ((Service.inMemory engine key).toggleProfile segment) t s := by
  refine agrees_withId h fun id ↦ ?_
  rcases h.toggle id with ⟨p, hp, rfl, es', hrun, hes'⟩ | ⟨hunlisted, es', hrun, hes'⟩
  · exact agrees_withStore hrun
      (agrees_requestApply (Profile.mem_ids_of_mem hp) (.toggle hp rfl) hes')
  · exact agrees_withStore hrun (agrees_of_not hunlisted (met_reply hes' _))

theorem agrees_saveDocument (h : Reads s.2 v) (r : Request) (segment : List Char) :
    Agrees (r.Makes v.profiles · (.saveDocument segment)) v
      ((Service.inMemory engine key).saveDocument segment r) t s := by
  refine agrees_withId h fun id ↦ agrees_withBody h fun text ↦ ?_
  obtain ⟨es', hrun, hes'⟩ := h.save text id
  exact agrees_withStore hrun (agrees_if Profile.listed_iff (fun _ ↦ .save text id) hes')

theorem agrees_swapProfiles (h : Reads s.2 v) (r : Request) :
    Agrees (r.Makes v.profiles · .swapProfiles) v
      ((Service.inMemory engine key).swapProfiles r) t s := by
  refine agrees_withBody h fun pair ↦ ?_
  rcases h.swap pair.a pair.b with
    ⟨p, hp, q, hq, hpa, hqb, es', hrun, hes'⟩ | ⟨hunlisted, es', hrun, hes'⟩
  · rw [← hpa, ← hqb] at hrun ⊢
    exact agrees_withStore hrun (agrees_requestApply
      ⟨Profile.mem_ids_of_mem hp, Profile.mem_ids_of_mem hq⟩ (.swap hp hq) hes')
  · refine agrees_withStore hrun (agrees_of_not (fun hP ↦ ?_) (met_reply hes' _))
    exact hunlisted.elim (fun ha ↦ ha hP.1) fun hb ↦ hb hP.2

theorem agrees_setSwitches (h : Reads s.2 v) (r : Request) :
    Agrees (r.Makes v.profiles · .setSwitches) v
      ((Service.inMemory engine key).setSwitches r) t s := by
  refine agrees_withBody h fun switches ↦ ?_
  have henabled : ∃ es', (Service.setMentioned Profiles.setEnabled switches.enabled).run
      Store.memory s.2 = (.ok (), es') ∧
        Reads es' { v with enabled := switches.enabled.getD v.enabled } := by
    cases switches.enabled with
    | none => exact ⟨_, rfl, h⟩
    | some on => exact ⟨_, Program.run_memory_set _ _ _ _, h.setEnabled on⟩
  obtain ⟨es₁, hrun₁, h₁⟩ := henabled
  have hheaders : ∃ es', (Service.setMentioned Profiles.setHeadersEnabled switches.headers).run
      Store.memory es₁ = (.ok (), es') ∧
        Reads es' { v with
          enabled := switches.enabled.getD v.enabled
          headers := switches.headers.getD v.headers } := by
    cases switches.headers with
    | none => exact ⟨_, rfl, h₁⟩
    | some on => exact ⟨_, Program.run_memory_set _ _ _ _, h₁.setHeadersEnabled on⟩
  obtain ⟨es₂, hrun₂, h₂⟩ := hheaders
  exact agrees_withStore hrun₁ (agrees_withStore hrun₂
    (agrees_of_eq (readSwitches_inMemory h₂) rfl (.set rfl rfl) h₂))

/-! ## All requests -/

variable (engine key t) in
/-- **Every operation carries out the change that is to be made**, or there is none. -/
theorem agrees_perform (h : Reads s.2 v) (clock : Nat) (r : Request) (o : Operation) :
    Agrees (r.Makes v.profiles · o) v ((Service.inMemory engine key).perform clock r o) t s := by
  have hnone : ∀ {x : Action (StateM (ε × Entries)) Reply}, (staying v).Met x t s →
      Agrees (fun _ ↦ False) v x t s := agrees_of_staying fun _ ↦ id
  cases o with
  | readStatus | listProfiles | readDocument | readEditing | applyNow | listRules
  | readSwitches => exact hnone (met_perform_of_isReading staying_bearsReading h clock r trivial)
  | createProfile => exact agrees_createProfile h clock r
  | swapProfiles => exact agrees_swapProfiles h r
  | renameProfile segment => exact hnone (staying_renameProfile h segment r)
  | deleteProfile segment => exact agrees_deleteProfile h r segment
  | toggleProfile segment => exact agrees_toggleProfile h r segment
  | saveDocument segment => exact agrees_saveDocument h r segment
  | setEditing => exact hnone (staying_setEditing h r)
  | collectGarbage => exact hnone (staying_collectGarbage h)
  | setSwitches => exact agrees_setSwitches h r

end

section

variable (engine : Engine (StateM ε)) (key : String) (t : Session) {s : ε × Entries} {v : View}

/-- **The reply, the store and the queue agree.** Where a request makes a change, one apply is asked
for, it is answered with success, and what is read next is what there was with the change.
Otherwise nothing is asked for; and whatever is refused, what is read next is what there was. -/
theorem responses_agree (h : Reads s.2 v) (clock : Nat) (r : Request) :
    let out := (Service.inMemory engine key).respond clock r t s
    (∀ c, r.Changes key v.profiles c →
      out.1.2.queue = t.queue ++ [.admin] ∧ 200 ≤ out.1.1.status ∧ out.1.1.status < 300 ∧
        ∃ v' reply, c.Does v v' reply ∧
          out.1.1 = { reply with sendsContent := decide (r.method ≠ "HEAD") } ∧
          Reads out.2.2 v') ∧
    ((∀ c, ¬ r.Changes key v.profiles c) → out.1.2.queue = t.queue) ∧
    (out.1.1.IsRefusal → Reads out.2.2 v) := by
  intro out
  by_cases hrouted : r.Carries key ∧ ∃ o, r.operation? = some o
  · obtain ⟨hkey, o, ho⟩ := hrouted
    let done := (Service.inMemory engine key).perform clock r o t s
    have hout : out = (({ done.1.1 with sendsContent := decide (r.method ≠ "HEAD") }, done.1.2),
        done.2) :=
      congrFun (congrFun (respond_of_carries (Service.inMemory engine key) clock hkey ho) t) s
    have hmakes : ∀ {c}, r.Changes key v.profiles c → r.Makes v.profiles c o := by
      rintro c ⟨-, o', ho', hc⟩
      rwa [Option.some.inj (ho.symm.trans ho')]
    rw [hout]
    rcases agrees_perform engine key t h clock r o with
      ⟨c, v', hc, hqueue, hdoes, hes'⟩ | ⟨hnone, hqueue, hstays⟩
    · have hstatus : done.1.1.status = 200 ∨ done.1.1.status = 201 ∨ done.1.1.status = 204 :=
        hdoes.status
      refine ⟨?_, ?_, ?_⟩
      · intro c' hc'
        obtain rfl : c' = c := (hmakes hc').unique hc
        exact ⟨hqueue, by dsimp only; omega, by dsimp only; omega, v', _, hdoes, rfl, hes'⟩
      · intro hno
        exact absurd ⟨hkey, o, ho, hc⟩ (hno c)
      · rintro ⟨hrefused, -⟩
        dsimp only at hrefused
        omega
    · exact ⟨fun c hc ↦ absurd (hmakes hc) (hnone c), fun _ ↦ hqueue, hstays⟩
  · obtain ⟨reply, hout⟩ := respond_of_not_routed engine Store.memory key t s clock hrouted
    have hsame : out = ((reply, t), s) := hout
    rw [hsame]
    refine ⟨?_, fun _ ↦ rfl, fun _ ↦ h⟩
    rintro c ⟨hkey, o, ho, -⟩
    exact absurd ⟨hkey, o, ho⟩ hrouted

end

def deleteRequest (path : String) : Request where
  method := "DELETE"
  target := path
  headers := [("authorization", "Bearer k")]
  body := .empty

/-- The profile that is being edited is removed; the default profile cannot be. -/
theorem responses_agree_delete :
    let respond (path : String) := (Service.inMemory (Engine.memory Regex.check) "k").respond 0
      (deleteRequest path) ⟨.initial, []⟩ (.empty, Profiles.pairOfProfiles)
    ∃ v, Reads Profiles.pairOfProfiles v ∧
      (respond "/profiles/1").1.2.queue = [.admin] ∧
      Reads (respond "/profiles/1").2.2 (v.removed "1") ∧
      (respond "/profiles/0").1.1.status = 400 ∧ (respond "/profiles/0").1.2.queue = [] ∧
      Reads (respond "/profiles/0").2.2 v := by
  intro respond
  have hlisting : Profiles.listing Profiles.pairOfProfiles
      = .ok [Profile.default, ⟨"1", "a", true⟩] := by decide +kernel
  obtain ⟨v, hv, hprofiles⟩ := Profiles.exists_reads hlisting
  have hdelete := responses_agree (Engine.memory Regex.check) "k" ⟨.initial, []⟩
    (s := (.empty, Profiles.pairOfProfiles)) hv 0
  have hchanges : (deleteRequest "/profiles/1").Changes "k" v.profiles (.delete "1") := by
    rw [Request.Changes, Request.Carries, hprofiles]
    refine ⟨by decide +kernel, .deleteProfile "1".toList, by decide +kernel, "1", ?_, ?_, rfl⟩
    · decide +kernel
    · decide
  obtain ⟨hqueue, -, -, v', reply, hdoes, -, hv'⟩ := (hdelete (deleteRequest "/profiles/1")).1 _
    hchanges
  have hrefused : (respond "/profiles/0").1.1.status = 400 := by decide +kernel
  refine ⟨v, hv, hqueue, ?_, hrefused, ?_, ?_⟩
  · cases hdoes
    exact hv'
  · refine (hdelete (deleteRequest "/profiles/0")).2.1 ?_
    rintro c ⟨-, o, ho, hc⟩
    have ho' : (deleteRequest "/profiles/0").operation? = some (.deleteProfile "0".toList) := by
      decide +kernel
    obtain rfl := Option.some.inj (ho'.symm.trans ho)
    obtain ⟨id, hid, ⟨-, hne⟩, -⟩ := hc
    have hid' : decodeSegment? "0".toList = some "0" := by decide +kernel
    exact hne (Option.some.inj (hid.symm.trans hid'))
  · refine (hdelete (deleteRequest "/profiles/0")).2.2 ?_
    rw [Reply.IsRefusal]
    change 400 ≤ (respond "/profiles/0").1.1.status ∧ (respond "/profiles/0").1.1.status < 500
    rw [hrefused]
    decide

end Redirector.Admin
