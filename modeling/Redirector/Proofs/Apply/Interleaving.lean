import Redirector.Apply
import Redirector.Proofs.Apply.Pipeline
import Redirector.Proofs.Apply.Wanted
import Redirector.Proofs.Store.Program
import Redirector.Regex.Automaton

/-!
# The worker among others

Clients change the store and ask for an apply afterwards, the worker serves what they ask for, and
others apply the store by themselves. All of this goes on at the same time; a run is any order of
steps, each as small as what can be told apart from outside: a single call to the store, a single
request put in or taken out of the queue, the gate taken or given back.

## What is one step and what is not

An apply that has the gate reads the store call by call, and a client may change the store between
any two of its calls. Replacing the rules is a single step, because the engine is not touched
without the gate. What a client does to the store in one step may be anything: one call, a whole
operation, or a file that was written from outside and is read again.

Left to itself, an apply does what `store` does (`apply_alone`), and the worker what `work` does
(`work_alone`).
-/

namespace Redirector.Apply

open Store (Program)

/-- Who applies the store: the worker, or someone else who does not wait for it. -/
inductive Applier where
  | worker
  | caller
  deriving DecidableEq

/-- What the worker is at. -/
inductive Stage where
  /-- It waits for a request. -/
  | waiting
  /-- It has taken a request and throws away the others. -/
  | draining
  /-- It waits for the gate. -/
  | ready
  | applying
  | stopped
  deriving DecidableEq

/-- What the worker is at once an apply has begun. -/
def Applier.begins : Applier → Stage → Stage
  | worker, _ => .applying
  | caller, g => g

/-- What the worker is at once an apply has ended. -/
def Applier.ends : Applier → Stage → Stage
  | worker, _ => .waiting
  | caller, g => g

/-- The state of everything that takes part. -/
structure System (ι : Type) where
  store : Store.Scheduled
  table : RuleTable
  record : Record
  queue : Queue
  /-- The clients that have changed the store and not asked for an apply since. -/
  owes : ι → Prop
  /-- Who has the gate, and what is still to be read. -/
  gate : Option (Applier × Program (Option Wanted))
  stage : Stage

/-- What happens in a step. -/
inductive Event (ι : Type) where
  /-- A client changes the store. -/
  | change (i : ι)
  /-- A client asks for an apply. -/
  | send (i : ι)
  /-- The worker takes a request. -/
  | receive
  /-- The worker throws a request away. -/
  | drop
  /-- The worker finds the queue empty. -/
  | drained
  | begin (a : Applier)
  /-- The apply that has the gate makes a call to the store. -/
  | read
  | conclude (outcome : Except Fault Report)
  | stop

namespace System

variable {ι : Type}

/-- Before anything has happened. -/
def initial (store : Store.Scheduled) (rules : List Rule) (record : Record) : System ι where
  store := store
  table := .ofRules rules
  record := record
  queue := []
  owes _ := False
  gate := none
  stage := .waiting

section

variable (check : Regex.Check)

/-- One step. Calls to the store may fail, as their schedule says. -/
inductive Step : System ι → Event ι → System ι → Prop
  | change (s : System ι) (i : ι) (store : Store.Scheduled) :
    Step s (.change i) { s with store := store, owes := fun j ↦ j = i ∨ s.owes j }
  -- No one looks into the queue of a worker that has stopped.
  | send (s : System ι) (i : ι) (t : Trigger) :
    Step s (.send i) { s with queue := s.queue ++ [t], owes := fun j ↦ j ≠ i ∧ s.owes j }
  | receive {s : System ι} {t : Trigger} {q : Queue} (hstage : s.stage = .waiting)
    (hqueue : s.queue = t :: q) : Step s .receive { s with queue := q, stage := .draining }
  | drop {s : System ι} {t : Trigger} {q : Queue} (hstage : s.stage = .draining)
    (hqueue : s.queue = t :: q) : Step s .drop { s with queue := q }
  | drained {s : System ι} (hstage : s.stage = .draining) (hqueue : s.queue = []) :
    Step s .drained { s with stage := .ready }
  | begin {s : System ι} (a : Applier) (hgate : s.gate = none)
    (hstage : a = .worker → s.stage = .ready) :
    Step s (.begin a) { s with gate := some (a, wanted), stage := a.begins s.stage }
  | read {s : System ι} {a : Applier} {p : Program (Option Wanted)} (hgate : s.gate = some (a, p))
    (hresult : p.result? = none) :
    Step s .read { s with
      gate := some (a, (p.advance Store.scheduled s.store).1)
      store := (p.advance Store.scheduled s.store).2 }
  | conclude {s : System ι} {a : Applier} {p : Program (Option Wanted)}
    {x : Except Store.Fault (Option Wanted)} {outcome : Except Fault Report} {record : Record}
    {table : RuleTable} (hgate : s.gate = some (a, p)) (hresult : p.result? = some x)
    (hout : Apply.conclude (Engine.memory check) x s.record s.table = ((outcome, record), table)) :
    Step s (.conclude outcome)
      { s with gate := none, record := record, table := table, stage := a.ends s.stage }
  | stop {s : System ι} (hstage : s.stage = .waiting) : Step s .stop { s with stage := .stopped }

/-- Any number of steps from a first state, with what happened in them, the latest first. -/
inductive Run (s₀ : System ι) : List (Event ι) → System ι → Prop
  | start : Run s₀ [] s₀
  | step {τ : List (Event ι)} {s s' : System ι} {e : Event ι} (h : Run s₀ τ s)
    (hstep : Step check s e s') : Run s₀ (e :: τ) s'

end

variable {check : Regex.Check}

theorem Run.trans {s s' s'' : System ι} {τ τ' : List (Event ι)} (h : Run check s τ s')
    (h' : Run check s' τ' s'') : Run check s (τ' ++ τ) s'' := by
  induction h' with
  | start => exact h
  | step _ hstep ih => exact ih.step hstep

theorem Run.single {s s' : System ι} {e : Event ι} (h : Step check s e s') : Run check s [e] s' :=
  Run.start.step h

/-! ## Left alone -/

theorem read_alone {a : Applier} {p : Program (Option Wanted)} {s : System ι}
    (hgate : s.gate = some (a, p)) :
    ∃ τ q,
      Run check s τ { s with gate := some (a, q), store := (p.run Store.scheduled s.store).2 } ∧
      q.result? = some (p.run Store.scheduled s.store).1 := by
  induction p using Program.advance_induction Store.scheduled generalizing s with
  | ended p x hresult =>
    have hrun := Program.run_of_result? hresult Store.scheduled s.store
    refine ⟨[], p, ?_, by rw [hresult, hrun]⟩
    rw [hrun, ← hgate]
    exact Run.start
  | call p hresult ih =>
    obtain ⟨τ, q, hrun, hq⟩ := @ih s.store { s with
      gate := some (a, (p.advance Store.scheduled s.store).1)
      store := (p.advance Store.scheduled s.store).2 } rfl
    rw [Program.run_advance] at hrun hq
    exact ⟨τ ++ [.read], q, (Run.single (Step.read hgate hresult)).trans hrun, hq⟩

/-- **An apply that no one comes between is `store`.** -/
theorem apply_alone {a : Applier} {s : System ι} (hgate : s.gate = none)
    (hstage : a = .worker → s.stage = .ready) {outcome : Except Fault Report} {record : Record}
    {table : RuleTable} {store : Store.Scheduled}
    (hstore : Apply.store ((Engine.memory check).lift onFirst.map)
      (Store.scheduled.lift onSecond.map) s.record (s.table, s.store)
        = ((outcome, record), (table, store))) :
    ∃ τ, Run check s (.conclude outcome :: τ)
      { s with
        store := store, table := table, record := record, stage := a.ends (a.begins s.stage) } := by
  rw [store_apply] at hstore
  obtain ⟨hout, hrest⟩ := Prod.mk.inj hstore
  obtain ⟨htable, rfl⟩ := Prod.mk.inj hrest
  obtain ⟨τ, q, hrun, hq⟩ := read_alone (a := a) (p := wanted) (s := { s with
    gate := some (a, wanted), stage := a.begins s.stage }) rfl
  have hconclude := Step.conclude (s := { s with
    gate := some (a, q), stage := a.begins s.stage
    store := (wanted.run Store.scheduled s.store).2 }) rfl hq (Prod.ext hout htable)
  refine ⟨τ ++ [.begin a], ?_⟩
  have hend := ((Run.single (Step.begin a hgate hstage)).trans hrun).step hconclude
  rw [hgate]
  exact hend

private theorem drain_alone {s : System ι} (hstage : s.stage = .draining) :
    ∃ τ, Run check s τ { s with queue := [], stage := .ready } := by
  obtain ⟨store, table, record, queue, owes, gate, stage⟩ := s
  induction queue with
  | nil => exact ⟨_, Run.single (Step.drained hstage rfl)⟩
  | cons t q ih =>
    obtain ⟨τ, hrun⟩ := ih hstage
    exact ⟨_, (Run.single (Step.drop hstage rfl)).trans hrun⟩

/-- **A worker that no one comes between does what `work` does**, and waits again. -/
theorem work_alone {s : System ι} (hgate : s.gate = none) (hstage : s.stage = .waiting)
    (hqueue : s.queue ≠ []) {n : Nat} {record : Record} {table : RuleTable}
    {store : Store.Scheduled}
    (hwork : work ((Engine.memory check).lift onFirst.map) (Store.scheduled.lift onSecond.map)
      s.queue s.record (s.table, s.store) = ((n, record), (table, store))) :
    ∃ τ, Run check s τ { s with
      store := store, table := table, record := record, queue := s.queue.drain.2 } := by
  obtain ⟨t, q, hq⟩ := List.exists_cons_of_ne_nil hqueue
  rw [hq] at hwork ⊢
  rcases hstore : Apply.store ((Engine.memory check).lift onFirst.map)
    (Store.scheduled.lift onSecond.map) s.record (s.table, s.store)
    with ⟨⟨outcome, record'⟩, table', store'⟩
  simp only [work, Queue.drain, bind_apply, hstore] at hwork
  cases hwork
  obtain ⟨τ, hdrain⟩ := drain_alone (s := { s with queue := q, stage := .draining }) rfl
  obtain ⟨τ', happly⟩ := apply_alone (a := .worker)
    (s := { s with queue := [], stage := .ready }) hgate (fun _ ↦ rfl) hstore
  have hend := ((Run.single (Step.receive hstage hq)).trans hdrain).trans happly
  refine ⟨.conclude outcome :: τ' ++ (τ ++ [.receive]), ?_⟩
  rw [hstage]
  exact hend

end System

/-! ## No change is lost

The worker throws requests away, so a change is not served by the apply that it was asked for, and
an apply reads the store in several calls, between which others may change it. Nothing is lost all
the same: once everything is quiet, every change came before the beginning of the last apply
(`no_change_is_lost`).

### The invariant

Let a history be fresh if every change in it is followed by the beginning of an apply. While it is
not, another apply is bound to begin: a client has yet to ask for it, or a request is queued, or the
worker has taken a request and not begun (`Pending`). This is kept because requests are thrown away
only by a worker that has not begun.

While the history is fresh, the store has not been changed since the last apply began, except by
that apply itself. So what is left to be read of it is what the present entries ask for
(`Reading`), and once it has ended well, the rules that these ask for are installed (`Serves`).
-/

open Store (Program Entries)

/-- How many requests the worker has taken and not begun to serve. -/
def Stage.taken : Stage → Nat
  | waiting => 0
  | draining => 1
  | ready => 1
  | applying => 0
  | stopped => 0

/-- Whether what happens is beside the store and the applies: a matter of the queue and of what the
worker is at. -/
def Event.IsAside {ι : Type} : Event ι → Prop
  | send _ | receive | drop | drained | stop => True
  | change _ | begin _ | read | conclude _ => False

namespace System

variable {check : Regex.Check} {ι : Type}

/-! ### Histories -/

/-- Every change is followed by the beginning of an apply. -/
def Fresh : List (Event ι) → Prop
  | [] => True
  | .begin _ :: _ => True
  | .change _ :: _ => False
  | _ :: τ => Fresh τ

/-- How the apply that began last has ended, if it has. -/
def latest : List (Event ι) → Option (Except Fault Report)
  | [] => none
  | .begin _ :: _ => none
  | .conclude outcome :: _ => some outcome
  | _ :: τ => latest τ

/-- How many requests the worker has taken to serve them. -/
def received : List (Event ι) → Nat
  | [] => 0
  | .receive :: τ => received τ + 1
  | _ :: τ => received τ

/-- How many applies the worker has begun. -/
def served : List (Event ι) → Nat
  | [] => 0
  | .begin .worker :: τ => served τ + 1
  | _ :: τ => served τ

theorem Fresh.begin_after {after before : List (Event ι)} {i : ι}
    (h : Fresh (after ++ .change i :: before)) : ∃ a, .begin a ∈ after := by
  induction after with
  | nil => exact h.elim
  | cons e after ih =>
    cases e with
    | begin a => exact ⟨a, List.mem_cons_self⟩
    | change j => exact h.elim
    | send | receive | drop | drained | read | conclude | stop =>
      obtain ⟨a, ha⟩ := ih h
      exact ⟨a, List.mem_cons_of_mem _ ha⟩

theorem fresh_aside {e : Event ι} (he : e.IsAside) {τ : List (Event ι)} :
    Fresh (e :: τ) ↔ Fresh τ := by
  cases e with
  | change | begin | read | conclude => cases he
  | send | receive | drop | drained | stop => rfl

theorem latest_aside {e : Event ι} (he : e.IsAside) {τ : List (Event ι)} :
    latest (e :: τ) = latest τ := by
  cases e with
  | change | begin | read | conclude => cases he
  | send | receive | drop | drained | stop => rfl

theorem mem_of_begin_mem_aside {e : Event ι} (he : e.IsAside) {τ : List (Event ι)} {a : Applier}
    (h : .begin a ∈ e :: τ) : .begin a ∈ τ := by
  refine List.mem_of_ne_of_mem ?_ h
  rintro rfl
  cases he

/-! ### States -/

/-- Another apply is bound to begin, unless the worker has been stopped. -/
def Pending (s : System ι) : Prop :=
  (∃ i, s.owes i) ∨ s.queue ≠ [] ∨ s.stage = .draining ∨ s.stage = .ready ∨ s.stage = .stopped

/-- Nothing is going on: no client has yet to ask for an apply, the queue is empty, no one has the
gate, and the worker waits for a request. -/
structure Quiet (s : System ι) : Prop where
  announced : ∀ i, ¬ s.owes i
  queue : s.queue = []
  gate : s.gate = none
  stage : s.stage = .waiting

theorem Quiet.not_pending {s : System ι} (h : s.Quiet) : ¬ s.Pending := by
  rintro (⟨i, hi⟩ | hqueue | hstage | hstage | hstage)
  · exact h.announced i hi
  · exact hqueue h.queue
  · rw [h.stage] at hstage
    cases hstage
  · rw [h.stage] at hstage
    cases hstage
  · rw [h.stage] at hstage
    cases hstage

/-- An apply with something left to read will have read what the entries ask for, unless a call has
failed. -/
def Reading (p : Program (Option Wanted)) (es : Entries) : Prop :=
  (∃ f, p = .fail f) ∨
    (p.run Store.memory es).1 = asked es ∧ p.Along (fun es' ↦ asked es' = asked es) es

/-- Just the rules that the entries ask for are installed. -/
def Serves (t : RuleTable) (es : Entries) : Prop :=
  ∃ w, asked es = .ok w ∧ t.Holds (Request.ofWanted w).rules

theorem reading_wanted (es : Entries) : Reading wanted es := Or.inr ⟨rfl, wanted_along es⟩

theorem Reading.advance {p : Program (Option Wanted)} {st : Store.Scheduled}
    (h : Reading p st.entries) :
    Reading (p.advance Store.scheduled st).1 (p.advance Store.scheduled st).2.entries := by
  rcases Program.advance_scheduled p st with ⟨f, hfail, -⟩ | ⟨hprogram, hentries⟩
  · exact Or.inl ⟨f, hfail⟩
  · rw [hprogram, hentries]
    rcases h with ⟨f, rfl⟩ | ⟨hrun, halong⟩
    · exact Or.inl ⟨f, rfl⟩
    · have hnext := halong.advance
      refine Or.inr ⟨?_, ?_⟩
      · rw [Program.run_advance, hrun, hnext.here]
      · rw [hnext.here]
        exact hnext

/-- An apply that ends well has installed what the entries ask for. -/
theorem Reading.serves {p : Program (Option Wanted)} {es : Entries} (h : Reading p es)
    {x : Except Store.Fault (Option Wanted)} (hresult : p.result? = some x) {r r' : Record}
    {t t' : RuleTable} {report : Report} (hwf : t.WellFormed)
    (hout : Apply.conclude (Engine.memory check) x r t = ((.ok report, r'), t')) :
    Serves t' es := by
  obtain ⟨w, rfl, hinstallable, rfl⟩ :=
    (conclude_memory_eq_ok_iff hwf x r).mp ⟨report, r', hout⟩
  rcases h with ⟨f, rfl⟩ | ⟨hrun, -⟩
  · cases hresult
  · rw [Program.run_of_result? hresult] at hrun
    exact ⟨w, hrun.symm, (RuleTable.wellFormed_ofRules _).holds
      (RuleTable.rules_ofRules_perm hinstallable.distinct)⟩

/-! ### The invariant -/

/-- **The invariant of a run.** -/
structure Invariant (τ : List (Event ι)) (s : System ι) : Prop where
  wellFormed : s.table.WellFormed
  applying : ∀ p, s.gate = some (.worker, p) → s.stage = .applying
  /-- The worker has begun for each request that it took, or is about to. -/
  counted : served τ + s.stage.taken = received τ
  pending : ¬ Fresh τ → s.Pending
  ended : s.gate = none → ∀ a, .begin a ∈ τ → ∃ outcome, latest τ = some outcome
  reading : Fresh τ → ∀ a p, s.gate = some (a, p) → Reading p s.store.entries
  serves : Fresh τ → s.gate = none → ∀ report, latest τ = some (.ok report) →
    Serves s.table s.store.entries

theorem invariant_initial (store : Store.Scheduled) (rules : List Rule) (record : Record) :
    Invariant [] (initial store rules record : System ι) where
  wellFormed := RuleTable.wellFormed_ofRules rules
  applying _ h := by cases h
  counted := rfl
  pending h := (h trivial).elim
  ended _ _ h := by cases h
  reading _ _ _ h := by cases h
  serves _ _ _ h := by cases h

namespace Invariant

variable {s : System ι} {τ : List (Event ι)}

/-- The worker has the gate only while it applies. -/
private theorem gate_ne_worker (h : Invariant τ s) (hstage : s.stage ≠ .applying)
    (p : Program (Option Wanted)) : s.gate ≠ some (.worker, p) :=
  fun hgate ↦ hstage (h.applying p hgate)

/-! #### Beside an apply -/

/-- What happens beside an apply keeps what is said of applies; what is left is a matter of the
queue, of the clients and of what the worker is at. -/
private theorem aside (h : Invariant τ s) (e : Event ι) (he : e.IsAside) {queue : Queue}
    {owes : ι → Prop} {stage : Stage}
    (happlying : ∀ p, s.gate = some (.worker, p) → stage = .applying)
    (hcounted : served (e :: τ) + stage.taken = received (e :: τ))
    (hpending : ¬ Fresh τ → Pending { s with queue := queue, owes := owes, stage := stage }) :
    Invariant (e :: τ) { s with queue := queue, owes := owes, stage := stage } where
  wellFormed := h.wellFormed
  applying := happlying
  counted := hcounted
  pending hfresh := hpending (by rwa [fresh_aside he] at hfresh)
  ended hgate a ha := by
    rw [latest_aside he]
    exact h.ended hgate a (mem_of_begin_mem_aside he ha)
  reading hfresh := h.reading ((fresh_aside he).mp hfresh)
  serves hfresh hgate := by
    rw [latest_aside he]
    exact h.serves ((fresh_aside he).mp hfresh) hgate

theorem send (h : Invariant τ s) (i : ι) (t : Trigger) :
    Invariant (.send i :: τ)
      { s with queue := s.queue ++ [t], owes := fun j ↦ j ≠ i ∧ s.owes j } :=
  h.aside (.send i) trivial h.applying h.counted fun _ ↦ Or.inr (Or.inl (List.concat_ne_nil _ _))

theorem receive (h : Invariant τ s) (hstage : s.stage = .waiting) (q : Queue) :
    Invariant (.receive :: τ) { s with queue := q, stage := .draining } := by
  refine h.aside .receive trivial (fun p hgate ↦ ?_) ?_ fun _ ↦ Or.inr (Or.inr (Or.inl rfl))
  · exact absurd hgate (h.gate_ne_worker (by rw [hstage]; decide) p)
  · have hcounted := h.counted
    rw [hstage] at hcounted
    exact congrArg (· + 1) hcounted

theorem drop (h : Invariant τ s) (hstage : s.stage = .draining) (q : Queue) :
    Invariant (.drop :: τ) { s with queue := q } :=
  h.aside .drop trivial h.applying h.counted fun _ ↦ Or.inr (Or.inr (Or.inl hstage))

theorem drained (h : Invariant τ s) (hstage : s.stage = .draining) :
    Invariant (.drained :: τ) { s with stage := .ready } := by
  refine h.aside .drained trivial (fun p hgate ↦ ?_) ?_
    fun _ ↦ Or.inr (Or.inr (Or.inr (Or.inl rfl)))
  · exact absurd hgate (h.gate_ne_worker (by rw [hstage]; decide) p)
  · have hcounted := h.counted
    rw [hstage] at hcounted
    exact hcounted

theorem stop (h : Invariant τ s) (hstage : s.stage = .waiting) :
    Invariant (.stop :: τ) { s with stage := .stopped } := by
  refine h.aside .stop trivial (fun p hgate ↦ ?_) ?_
    fun _ ↦ Or.inr (Or.inr (Or.inr (Or.inr rfl)))
  · exact absurd hgate (h.gate_ne_worker (by rw [hstage]; decide) p)
  · have hcounted := h.counted
    rw [hstage] at hcounted
    exact hcounted

/-! #### A change, and an apply -/

/-- The client that has changed the store has yet to ask for an apply. -/
theorem change (h : Invariant τ s) (i : ι) (store : Store.Scheduled) :
    Invariant (.change i :: τ)
      { s with store := store, owes := fun j ↦ j = i ∨ s.owes j } where
  wellFormed := h.wellFormed
  applying := h.applying
  counted := h.counted
  pending _ := Or.inl ⟨i, Or.inl rfl⟩
  ended hgate a ha := h.ended hgate a (List.mem_of_ne_of_mem (by simp) ha)
  reading := False.elim
  serves := False.elim

/-- From here on nothing has changed since the last apply has begun. -/
theorem begin (h : Invariant τ s) (a : Applier) (hstage : a = .worker → s.stage = .ready) :
    Invariant (.begin a :: τ)
      { s with gate := some (a, wanted), stage := a.begins s.stage } where
  wellFormed := h.wellFormed
  applying := by
    rintro p ⟨⟩
    rfl
  counted := by
    cases a with
    | worker =>
      have hcounted := h.counted
      rw [hstage rfl] at hcounted
      exact hcounted
    | caller => exact h.counted
  pending hfresh := absurd trivial hfresh
  ended hnone := by cases hnone
  reading := by
    rintro - b p ⟨⟩
    exact reading_wanted _
  serves _ hnone := by cases hnone

theorem read (h : Invariant τ s) {a : Applier} {p : Program (Option Wanted)}
    (hgate : s.gate = some (a, p)) :
    Invariant (.read :: τ) { s with
      gate := some (a, (p.advance Store.scheduled s.store).1)
      store := (p.advance Store.scheduled s.store).2 } where
  wellFormed := h.wellFormed
  applying := by
    rintro p ⟨⟩
    exact h.applying _ hgate
  counted := h.counted
  pending := h.pending
  ended hnone := by cases hnone
  reading := by
    rintro hfresh b p ⟨⟩
    exact (h.reading hfresh _ _ hgate).advance
  serves _ hnone := by cases hnone

/-- While the worker has the gate it is neither before nor after an apply. -/
private theorem pending_ends (h : Invariant τ s) {a : Applier} {p : Program (Option Wanted)}
    (hgate : s.gate = some (a, p)) (hpending : s.Pending) (record : Record) (table : RuleTable) :
    Pending { s with gate := none, record := record, table := table, stage := a.ends s.stage } := by
  rcases hpending with howes | hqueue | hstage
  · exact Or.inl howes
  · exact Or.inr (Or.inl hqueue)
  · cases a with
    | caller => exact Or.inr (Or.inr hstage)
    | worker =>
      rw [h.applying p hgate] at hstage
      rcases hstage with hstage | hstage | hstage
      · cases hstage
      · cases hstage
      · cases hstage

/-- What the entries ask for has been read, and is installed if all went well. -/
theorem conclude (h : Invariant τ s) {a : Applier} {p : Program (Option Wanted)}
    {x : Except Store.Fault (Option Wanted)} {outcome : Except Fault Report} {record : Record}
    {table : RuleTable} (hgate : s.gate = some (a, p)) (hresult : p.result? = some x)
    (hout : Apply.conclude (Engine.memory check) x s.record s.table
      = ((outcome, record), table)) :
    Invariant (.conclude outcome :: τ)
      { s with gate := none, record := record, table := table, stage := a.ends s.stage } where
  wellFormed := by
    have hwf := wellFormed_conclude_memory check h.wellFormed x s.record
    rw [hout] at hwf
    exact hwf
  applying _ hnone := by cases hnone
  counted := by
    cases a with
    | worker =>
      have hcounted := h.counted
      rw [h.applying p hgate] at hcounted
      exact hcounted
    | caller => exact h.counted
  pending hfresh := h.pending_ends hgate (h.pending hfresh) record table
  ended _ _ _ := ⟨outcome, rfl⟩
  reading _ _ _ hsome := by cases hsome
  serves := by
    rintro hfresh - report ⟨⟩
    exact (h.reading hfresh a p hgate).serves hresult h.wellFormed hout

/-! #### Runs -/

/-- **One step** keeps the invariant. -/
theorem step {s' : System ι} {e : Event ι} (h : Invariant τ s) (hstep : Step check s e s') :
    Invariant (e :: τ) s' := by
  cases hstep with
  | change i store => exact h.change i store
  | send i t => exact h.send i t
  | receive hstage _ => exact h.receive hstage _
  | drop hstage _ => exact h.drop hstage _
  | drained hstage _ => exact h.drained hstage
  | begin a _ hstage => exact h.begin a hstage
  | read hgate _ => exact h.read hgate
  | conclude hgate hresult hout => exact h.conclude hgate hresult hout
  | stop hstage => exact h.stop hstage

theorem run {s₀ : System ι} {τ : List (Event ι)} (h : Invariant [] s₀) (hrun : Run check s₀ τ s) :
    Invariant τ s := by
  induction hrun with
  | start => exact h
  | step _ hstep ih => exact ih.step hstep

end Invariant

/-- **No change is lost.** Once everything is quiet, every change came before the beginning of the
last apply; and if that apply ended well, just the rules that the entries ask for by now are
installed. All the while the worker has begun at most one apply for each request that it took. -/
theorem no_change_is_lost {store : Store.Scheduled} {rules : List Rule} {record : Record}
    {τ : List (Event ι)} {s : System ι} (hrun : Run check (initial store rules record) τ s) :
    (s.Quiet →
      (∀ after i before, τ = after ++ .change i :: before → ∃ a, .begin a ∈ after) ∧
      (∀ a, .begin a ∈ τ → ∃ outcome, latest τ = some outcome) ∧
      (∀ report, latest τ = some (.ok report) → Serves s.table s.store.entries)) ∧
    served τ ≤ received τ := by
  have h := (invariant_initial store rules record).run hrun
  refine ⟨fun hquiet ↦ ?_, h.counted ▸ Nat.le_add_right _ _⟩
  have hfresh : Fresh τ := by
    by_contra hstale
    exact hquiet.not_pending (h.pending hstale)
  refine ⟨?_, h.ended hquiet.gate, h.serves hfresh hquiet.gate⟩
  rintro after i before rfl
  exact hfresh.begin_after

/-- A client switches rules off, and the worker serves it. -/
theorem no_change_is_lost_switched_off :
    ∃ s : System Unit,
      Run Regex.check (initial ⟨[], .clear⟩ [pageRule 1000] .initial)
        [.conclude (.ok ⟨1, 0, 0⟩), .read, .begin .worker, .drained, .receive, .send (), .change ()]
        s ∧ s.Quiet ∧ Serves s.table s.store.entries := by
  have hstart : Run Regex.check
      (initial ⟨[], .clear⟩ [pageRule 1000] .initial : System Unit) [] _ := .start
  have hrun := hstart
    |>.step (.change _ () ⟨[(Profiles.enabledKey, .boolean false)], .clear⟩)
    |>.step (.send _ () .admin)
    |>.step (.receive rfl rfl)
    |>.step (.drained rfl rfl)
    |>.step (.begin .worker rfl fun _ ↦ rfl)
    |>.step (.read rfl rfl)
    |>.step (.conclude (x := .ok none) rfl rfl rfl)
  refine ⟨_, hrun, ?quiet, ((no_change_is_lost hrun).1 ?quiet).2.2 _ rfl⟩
  exact ⟨fun _ h ↦ h.1 rfl, rfl, rfl, rfl⟩

end System

end Redirector.Apply
