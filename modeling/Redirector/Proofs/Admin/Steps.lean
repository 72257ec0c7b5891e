import Redirector.Admin.Api
import Redirector.Engine
import Redirector.Proofs.Apply.Pipeline
import Redirector.Proofs.Apply.Wanted
import Redirector.Proofs.Profile.Effect
import Redirector.Proofs.State
import Redirector.Regex.Automaton
import Redirector.Store

/-!
# Answering a request, step by step

A request without the key is refused before anything is done for it. Any other is answered in steps,
and what it has to meet in the end is carried along them.
-/

namespace Redirector.Admin

/-! ## Requests without the key

A request that does not carry the key is refused before anything is done for it, whatever it asks
for (`refused_without_key`): nothing is read of the store, so that not even the list that a new
store begins with is written, no call of the engine is made and no apply is asked for. The refusal
tells nothing of the service either. It is the same for any two services, whatever is in their
stores and engines; it depends on the path and the method alone.

Only the first header with the name counts. Its value is compared as a whole, so that there is no
other way to write it: the scheme in lower case, a second space or a longer key are refused, and so
is the key in a second header.
-/

/-- The value of the first header that may carry the key. -/
def Request.authorization? (r : Request) : Option String :=
  (r.headers.find? fun h ↦ lower h.1 = "authorization").map Prod.snd

/-- The request carries the key. -/
def Request.Carries (r : Request) (key : String) : Prop :=
  r.authorization? = some ("Bearer " ++ key) ∧ isVisible ("Bearer " ++ key) = true

theorem dropStart?_eq_some_iff {first cs rest : List Char} :
    dropStart? first cs = some rest ↔ cs = first ++ rest := by
  induction first generalizing cs with
  | nil => simp [dropStart?]
  | cons a first ih =>
    cases cs with
    | nil => simp [dropStart?]
    | cons c cs =>
      by_cases hac : a = c
      · simp [dropStart?, hac, ih]
      · have hca : c ≠ a := fun h ↦ hac h.symm
        simp [dropStart?, hac, hca]

/-- **The check lets through who carries the key**, and nobody else. -/
theorem Request.isAuthorized_iff {r : Request} {key : String} :
    r.isAuthorized key = true ↔ r.Carries key := by
  have hvalue : ∀ value : String, dropStart? "Bearer ".toList value.toList = some key.toList ↔
      value = "Bearer " ++ key := by
    intro value
    rw [dropStart?_eq_some_iff, ← String.toList_append, String.toList_inj]
  rw [isAuthorized, Carries, header?, authorization?]
  cases r.headers.find? fun h ↦ lower h.1 = "authorization" with
  | none => simp
  | some h =>
    obtain ⟨name, value⟩ := h
    dsimp only
    by_cases hvisible : isVisible value = true
    · have hkey : value = "Bearer " ++ key ∧ isVisible ("Bearer " ++ key) = true ↔
          value = "Bearer " ++ key := and_iff_left_of_imp fun h ↦ h ▸ hvisible
      simpa only [hvisible, if_true, Option.bind_some, Option.map_some, beq_iff_eq,
        Option.some.injEq, hkey] using hvalue value
    · have hkey : ¬ (value = "Bearer " ++ key ∧ isVisible ("Bearer " ++ key) = true) := by
        rintro ⟨rfl, h⟩
        exact hvisible h
      rw [if_neg hvisible, Option.bind_none, Option.map_some, Option.some.injEq]
      exact iff_of_false Bool.false_ne_true hkey

/-- The refusal of a request: if its path has other methods only, they are listed. -/
def Request.refusal (r : Request) : Reply :=
  let allowed := Allowed.ofPath r.path
  let isRouted := ((Method.ofName? r.method).bind allowed.operation?).isSome
  { Reply.bare 401 with
    allow := if isRouted || allowed.isEmpty then none else some allowed.listing }

section

variable {m : Type → Type} [Monad m] (s : Service m) (clock : Nat) (r : Request) (t : Session)

theorem respond_of_not_carries (h : ¬ r.Carries s.key) :
    s.respond clock r t = pure (r.refusal, t) := by
  rw [← Request.isAuthorized_iff] at h
  unfold Service.respond Request.refusal
  dsimp only
  cases ho : (Method.ofName? r.method).bind (Allowed.ofPath r.path).operation? with
  | some o =>
    dsimp only
    rw [if_neg h, Option.isSome_some, Bool.true_or, if_pos rfl]
    rfl
  | none =>
    dsimp only
    rw [if_neg h, Option.isSome_none, Bool.false_or]
    -- The path may have no methods at all.
    by_cases hallowed : (Allowed.ofPath r.path).isEmpty = true
    · rw [if_pos hallowed, if_pos hallowed]
      rfl
    · rw [if_neg hallowed, if_neg hallowed]
      rfl

/-- **A request without the key is refused before anything is done for it**, and the refusal is the
same for all services and whatever they hold. -/
theorem refused_without_key (h : ¬ r.Carries s.key) :
    s.respond clock r t = pure (r.refusal, t) ∧ r.refusal.status = 401 ∧
      r.refusal.content = .none :=
  ⟨respond_of_not_carries s clock r t h, rfl, rfl⟩

end

/-- A service on some engine and some store, each with a state of its own. -/
def Service.on {ε σ : Type} (engine : Engine (StateM ε)) (backend : Store.Backend (StateM σ))
    (key : String) : Service (StateM (ε × σ)) where
  backend := backend.lift onSecond.map
  engine := engine.lift onFirst.map
  key := key

/-- A service on some engine, and a store in memory. -/
abbrev Service.inMemory {ε : Type} (engine : Engine (StateM ε)) (key : String) :
    Service (StateM (ε × Store.Entries)) := .on engine Store.memory key

/-- A request to add a profile. Its first header is nearly the key, and the key is in its second
one. -/
def twoKeys : Request where
  method := "POST"
  target := "/profiles"
  headers := [("Authorization", "bearer k"), ("authorization", "Bearer k"),
    ("content-type", "application/json")]
  body := "\x7b\"name\": \"a\"\x7d".toUTF8

/-- Nothing is written to an empty store, not even its first list. -/
theorem refused_without_key_twoKeys :
    ¬ twoKeys.Carries "k" ∧
      (Service.inMemory (Engine.memory Regex.check) "k").respond 0 twoKeys ⟨.initial, []⟩
          (.empty, [])
        = ((twoKeys.refusal, ⟨.initial, []⟩), (.empty, [])) := by
  have hkey : ¬ twoKeys.Carries "k" := by
    rw [Request.Carries]
    decide +kernel
  have hrefused := refused_without_key (Service.inMemory (Engine.memory Regex.check) "k") 0 twoKeys
    ⟨.initial, []⟩ hkey
  exact ⟨hkey, congrFun hrefused.1 (.empty, [])⟩

/-! ## Answering a request, step by step

Every operation is put together from a few steps: it takes something from the request, runs a
program on the store, makes a call of the engine, or replies. What a request has to meet in the end
(`Standard`) is carried along these steps, whatever it is. Until something happens to the store that
matters, the request may end in any way that asks for nothing; so the steps up to there need not be
told apart.

Operations that only look at the store, and the one that applies it, are covered for all standards
at once, as long as looking keeps the store intact (`Standard.met_perform_of_isReading`).
-/

open Store (Program)

variable {ε σ α β : Type}

def Request.operation? (r : Request) : Option Operation :=
  (Method.ofName? r.method).bind (Allowed.ofPath r.path).operation?

/-! ### Steps -/

theorem bind_action_apply (x : Action (StateM σ) α) (k : α → Action (StateM σ) β) (t : Session)
    (s : σ) : (x >>= k) t s = k (x t s).1.1 (x t s).1.2 (x t s).2 := rfl

section

variable (engine : Engine (StateM ε)) (backend : Store.Backend (StateM σ)) (key : String)
  (t : Session) (s : ε × σ)

theorem run_apply (p : Program α) :
    (Service.on engine backend key).run p t s
      = (((p.run backend s.2).1, t), (s.1, (p.run backend s.2).2)) := by
  have hrun : p.run (Service.on engine backend key).backend = onSecond.map (p.run backend) :=
    Program.run_lift onSecond backend p
  rw [Service.run, hrun]
  rfl

theorem withStore_apply (p : Program α) (next : α → Action (StateM (ε × σ)) Reply) :
    (Service.on engine backend key).withStore p next t s =
      match p.run backend s.2 with
      | (.ok a, s') => next a t (s.1, s')
      | (.error f, s') => ((.ofStoreFault f, t), (s.1, s')) := by
  rw [Service.withStore, bind_action_apply, run_apply]
  rcases p.run backend s.2 with ⟨f | a, s'⟩
  · rfl
  · rfl

/-- An apply reads the store, and after that only the engine is touched. -/
theorem applyNow_store :
    ((Service.on engine backend key).applyNow t s).2.2 = (Apply.wanted.run backend s.2).2 := by
  change (Apply.store (engine.lift onFirst.map) (backend.lift onSecond.map) t.record
    (s.1, s.2)).2.2 = _
  rw [Apply.store_apply engine t.record backend s.1 s.2]

end

/-! ### What a request has to meet -/

/-- **What a request has to meet.** A request that asks for nothing meets it with any reply, if it
ends while the store is intact. -/
structure Standard (σ : Type) where
  /-- Nothing that matters has happened to the store. -/
  intact : σ → Prop
  /-- What has to hold of the reply, of the queue before and after, and of the store. -/
  meets : Reply → (before after : Apply.Queue) → σ → Prop
  meets_of_intact {s : σ} (h : intact s) (reply : Reply) (q : Apply.Queue) : meets reply q q s

namespace Standard

/-- The action ends as it has to. -/
def Met (S : Standard σ) (x : Action (StateM (ε × σ)) Reply) (t : Session) (s : ε × σ) : Prop :=
  S.meets (x t s).1.1 t.queue (x t s).1.2.queue (x t s).2.2

/-- The program keeps the store intact, wherever it ends. -/
def Spares (S : Standard σ) (backend : Store.Backend (StateM σ)) (p : Program α) : Prop :=
  ∀ s, S.intact s → S.intact (p.run backend s).2

variable {S : Standard σ} {engine : Engine (StateM ε)} {backend : Store.Backend (StateM σ)}
  {key : String} {t : Session} {s : ε × σ} {p : Program α}

theorem spares_done (a : α) : S.Spares backend (.done a) := fun _ h ↦ h

theorem Spares.bind {f : α → Program β} (hp : S.Spares backend p)
    (hf : ∀ a, S.Spares backend (f a)) : S.Spares backend (p >>= f) := by
  intro s h
  have hs := hp s h
  rw [Program.run_bind_apply]
  rcases hrun : p.run backend s with ⟨e | a, s'⟩
  · rw [hrun] at hs
    exact hs
  · rw [hrun] at hs
    exact hf a s' hs

theorem met_reply (h : S.intact s.2) (reply : Reply) : S.Met (pure reply) t s :=
  S.meets_of_intact h reply t.queue

theorem met_withBody {body : Except Reply α} {next : α → Action (StateM (ε × σ)) Reply}
    (h : S.intact s.2) (hnext : ∀ a, body = .ok a → S.Met (next a) t s) :
    S.Met (Service.withBody body next) t s := by
  cases body with
  | ok a => exact hnext a rfl
  | error reply => exact met_reply h reply

theorem met_withId {segment : List Char} {next : String → Action (StateM (ε × σ)) Reply}
    (h : S.intact s.2) (hnext : ∀ id, decodeSegment? segment = some id → S.Met (next id) t s) :
    S.Met (Service.withId segment next) t s := by
  rw [Service.withId]
  cases hid : decodeSegment? segment with
  | some id => exact hnext id hid
  | none => exact met_reply h _

/-- A program on the store: where it fails, the store has to be intact. -/
theorem met_withStore {next : α → Action (StateM (ε × σ)) Reply}
    (herror : ∀ f s', p.run backend s.2 = (.error f, s') → S.intact s')
    (hnext : ∀ a s', p.run backend s.2 = (.ok a, s') → S.Met (next a) t (s.1, s')) :
    S.Met ((Service.on engine backend key).withStore p next) t s := by
  rw [Met, withStore_apply]
  rcases hrun : p.run backend s.2 with ⟨f | a, s'⟩
  · exact S.meets_of_intact (herror f s' hrun) _ _
  · exact hnext a s' hrun

theorem met_run_of_spares {next : Except Store.Fault α → Action (StateM (ε × σ)) Reply}
    (hp : S.Spares backend p) (h : S.intact s.2)
    (hnext : ∀ x s', S.intact s' → S.Met (next x) t (s.1, s')) :
    S.Met ((Service.on engine backend key).run p >>= next) t s := by
  rw [Met, bind_action_apply, run_apply]
  exact hnext _ _ (hp s.2 h)

theorem met_withStore_of_spares {next : α → Action (StateM (ε × σ)) Reply}
    (hp : S.Spares backend p) (h : S.intact s.2)
    (hnext : ∀ a s', S.intact s' → S.Met (next a) t (s.1, s')) :
    S.Met ((Service.on engine backend key).withStore p next) t s := by
  refine met_run_of_spares hp h fun x s' hs' ↦ ?_
  cases x with
  | ok a => exact hnext a s' hs'
  | error f => exact met_reply hs' _

theorem met_engine {x : StateM ε α} {next : α → Action (StateM (ε × σ)) Reply}
    (hnext : ∀ a e, S.Met (next a) t (e, s.2)) :
    S.Met ((onFirst.map x : StateM (ε × σ) α) >>= next : Action (StateM (ε × σ)) Reply) t s :=
  hnext (x s.1).1 (x s.1).2

end Standard

/-! ### Operations that only look -/

/-- The operation looks at the store and the engine, or applies what it finds. -/
def Operation.IsReading : Operation → Prop
  | readStatus | listProfiles | readDocument _ | readEditing | applyNow | listRules
  | readSwitches => True
  | _ => False

namespace Standard

/-- The store is still intact after it was looked at. Reading the list is a case of its own, because
it may write the first one. -/
structure BearsReading (S : Standard σ) (backend : Store.Backend (StateM σ)) : Prop where
  list : S.Spares backend Profiles.list
  of_readsOnly : ∀ {α : Type} {p : Program α}, p.ReadsOnly Profiles.Beside → S.Spares backend p

variable {S : Standard σ} {engine : Engine (StateM ε)} {backend : Store.Backend (StateM σ)}
  {key : String} {t : Session} {s : ε × σ}

theorem BearsReading.isEnabled (hS : S.BearsReading backend) :
    S.Spares backend Profiles.isEnabled := hS.of_readsOnly Apply.readsOnly_isEnabled

theorem BearsReading.headersEnabled (hS : S.BearsReading backend) :
    S.Spares backend Profiles.headersEnabled := hS.of_readsOnly Apply.readsOnly_headersEnabled

theorem BearsReading.wanted (hS : S.BearsReading backend) : S.Spares backend Apply.wanted := by
  refine hS.isEnabled.bind fun on ↦ ?_
  cases on with
  | false => exact spares_done none
  | true =>
    have hdocuments : S.Spares backend Profiles.activeDocuments :=
      hS.list.bind fun _ ↦ hS.of_readsOnly (Profiles.readsOnly_documentsOf _)
    exact hdocuments.bind fun _ ↦ hS.headersEnabled.bind fun _ ↦ spares_done _

theorem met_readStatus (hS : S.BearsReading backend) (h : S.intact s.2) :
    S.Met (Service.on engine backend key).readStatus t s := by
  refine met_run_of_spares hS.list h fun profiles s₁ h₁ ↦ ?_
  refine met_run_of_spares hS.isEnabled h₁ fun enabled s₂ h₂ ↦ ?_
  refine met_run_of_spares hS.headersEnabled h₂ fun headers s₃ h₃ ↦ ?_
  rcases profiles with f | profiles
  · exact met_reply h₃ _
  · rcases enabled with f | enabled
    · exact met_reply h₃ _
    · rcases headers with f | headers
      · exact met_reply h₃ _
      · refine met_engine fun ids e ↦ ?_
        cases ids with
        | ok ids => exact met_reply h₃ _
        | error f => exact met_reply h₃ _

theorem met_readDocument (hS : S.BearsReading backend) (h : S.intact s.2) (segment : List Char) :
    S.Met ((Service.on engine backend key).readDocument segment) t s := by
  refine met_withId h fun id _ ↦ met_withStore_of_spares hS.list h fun ps s₁ h₁ ↦ ?_
  split_ifs
  · exact met_withStore_of_spares (hS.of_readsOnly (Profiles.readsOnly_document id)) h₁
      fun text s₂ h₂ ↦ met_reply h₂ _
  · exact met_reply h₁ _

theorem met_readSwitches (hS : S.BearsReading backend) (h : S.intact s.2) :
    S.Met (Service.on engine backend key).readSwitches t s := by
  refine met_run_of_spares hS.isEnabled h fun enabled s₁ h₁ ↦ ?_
  refine met_run_of_spares hS.headersEnabled h₁ fun headers s₂ h₂ ↦ ?_
  rcases enabled with f | enabled
  · exact met_reply h₂ _
  · rcases headers with f | headers
    · exact met_reply h₂ _
    · exact met_reply h₂ _

theorem met_applyNow (hS : S.BearsReading backend) (h : S.intact s.2) :
    S.Met (Service.on engine backend key).applyNow t s := by
  rw [Met, applyNow_store]
  exact S.meets_of_intact (hS.wanted s.2 h) _ _

/-- **An operation that only looks** meets whatever the store bears to be looked at for. -/
theorem met_perform_of_isReading (hS : S.BearsReading backend) (h : S.intact s.2) (clock : Nat)
    (r : Request) {o : Operation} (ho : o.IsReading) :
    S.Met ((Service.on engine backend key).perform clock r o) t s := by
  cases o with
  | readStatus => exact met_readStatus hS h
  | listProfiles => exact met_withStore_of_spares hS.list h fun _ _ hs' ↦ met_reply hs' _
  | readDocument segment => exact met_readDocument hS h segment
  | readEditing =>
    exact met_withStore_of_spares (hS.of_readsOnly Profiles.readsOnly_editing) h
      fun _ _ hs' ↦ met_reply hs' _
  | applyNow => exact met_applyNow hS h
  | listRules =>
    refine met_engine fun rules e ↦ ?_
    cases rules with
    | ok rules => exact met_reply h _
    | error f => exact met_reply h _
  | readSwitches => exact met_readSwitches hS h
  | createProfile | swapProfiles | renameProfile | deleteProfile | toggleProfile | saveDocument
  | setEditing | collectGarbage | setSwitches => exact ho.elim

/-- To ask for nothing, whatever becomes of the store. -/
def asksNothing : Standard σ where
  intact _ := True
  meets _ before after _ := after = before
  meets_of_intact _ _ _ := rfl

theorem asksNothing_bearsReading : asksNothing.BearsReading backend where
  list _ := id
  of_readsOnly _ _ := id

end Standard

/-! ### Answers -/

/-- A request with the key is the operation that it names. -/
theorem respond_of_carries {m : Type → Type} [Monad m] (s : Service m) (clock : Nat) {r : Request}
    {o : Operation} (hkey : r.Carries s.key) (ho : r.operation? = some o) :
    s.respond clock r = do
      return { ← s.perform clock r o with sendsContent := decide (r.method ≠ "HEAD") } := by
  rw [Request.operation?] at ho
  rw [Service.respond, ho]
  exact if_pos (Request.isAuthorized_iff.mpr hkey)

/-- A request that names no operation, or does not carry the key, changes nothing at all. -/
theorem respond_of_not_routed (engine : Engine (StateM ε)) (backend : Store.Backend (StateM σ))
    (key : String) (t : Session) (s : ε × σ) (clock : Nat) {r : Request}
    (h : ¬ (r.Carries key ∧ ∃ o, r.operation? = some o)) :
    ∃ reply, (Service.on engine backend key).respond clock r t s = ((reply, t), s) := by
  by_cases hkey : r.Carries key
  · have ho : r.operation? = none := by
      cases ho : r.operation? with
      | none => rfl
      | some o => exact absurd ⟨hkey, o, ho⟩ h
    rw [Request.operation?] at ho
    rw [Service.respond, ho]
    exact ⟨_, rfl⟩
  · have hrefused := respond_of_not_carries (Service.on engine backend key) clock r t hkey
    exact ⟨r.refusal, congrFun hrefused s⟩

end Redirector.Admin
