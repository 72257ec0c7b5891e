import Redirector.Proofs.Profile.Garbage
import Redirector.Proofs.Profile.Operation
import Redirector.Proofs.Rule.Wire
import Redirector.Proofs.Store.File

/-!
# The profile store in a file

What the operations on profiles put into the store is of few kinds: lists of profiles, documents,
identifiers and switches, all of which are read back from a file as they were
(`Operation.putsStorable`). So every operation does in a file what it does in memory. There the keys
may be listed in any order, and no operation depends on it (`Operation.run_backend`).

## Reading the file again

The entries that are held can at any time be given up for those in the file, by the store itself or
because another one is opened in its place. These are events of a run like the operations are. In
memory, where there is no file, nothing comes of them, and a run in a file is seen to be the same as
one in memory, event by event (`observe_inFile`): what is answered, what is held, and what the file
stands for.
-/

namespace Redirector.Profiles

open Files (Path Tree)
open Store (Program Entries KeyOrder)

/-! ## What is put in -/

theorem storable_listToJson (ps : List Profile) :
    Json.Storable Store.storableDepth (Profile.listToJson ps) := by
  have hprofiles : Json.Storable 2 (Profile.listToJson ps) := by
    refine Json.Storable.array fun j hj ↦ ?_
    obtain ⟨p, -, rfl⟩ := List.mem_map.mp hj
    exact p.storable_toJson
  exact hprofiles.mono (by decide)

theorem storable_documentToJson (text : String) :
    Json.Storable Store.storableDepth (Profile.documentToJson text) :=
  (Profile.storable_document text).mono (by decide)

/-- **Every operation puts in only what is read back from a file as it was.** -/
theorem Operation.putsStorable (o : Operation) :
    o.program.PutsOnly (Json.Storable Store.storableDepth) := by
  refine o.writes.putsOnly fun key value hwrite ↦ ?_
  cases hwrite with
  | list ps => exact storable_listToJson ps
  | aim id => exact .string id
  | @switch _ _ on => exact .boolean on
  | document text id => exact storable_documentToJson text

/-! ## The order of the keys -/

/-- **Every operation does the same in whatever order the keys are listed.** -/
theorem Operation.run_backend (o : Operation) (order : KeyOrder) (es : Entries) :
    o.program.run order.backend es = o.program.run Store.memory es := by
  cases hasks : o.asksForKeys with
  | false => exact (Operation.keyless hasks).run_backend order es
  | true =>
    cases o with
    | add clock name => exact add_run_backend order clock name es
    | collectGarbage => exact collectGarbage_run_backend order es
    | _ => cases hasks

/-! ## Runs -/

/-- What happens to a store in a file: an operation, or the file is read again, by the store itself
or by one that is opened in its place. -/
inductive Event where
  | operation (o : Operation)
  | reload
  | reopen

namespace Event

def Result : Event → Type
  | operation o => o.Result
  | reload | reopen => Unit

def isOperation : Event → Bool
  | operation _ => true
  | reload | reopen => false

/-- A store is opened in the place of the one there was. If that fails, nothing is held. -/
def replaceStore (path : Path) : StateT Entries (StateM Tree) (Except Store.Fault Unit) :=
  fun _ ↦ do
    match ← Store.load Tree.system path with
    | .ok es => return (.ok (), es)
    | .error f => return (.error f, [])

/-- What happens to a store in a file. -/
def inFile (path : Path) : (e : Event) → StateT Entries (StateM Tree) (Except Store.Fault e.Result)
  | operation o => o.program.run (Store.file Tree.system path)
  | reload => Store.reload Tree.system path
  | reopen => replaceStore path

/-- What happens to a store in memory, which there is no file of. The keys may be listed in any
order there; in a file it is the ascending one. -/
def inMemory (order : KeyOrder) : (e : Event) → StateM Entries (Except Store.Fault e.Result)
  | operation o => o.program.run order.backend
  | reload | reopen => return .ok ()

end Event

/-- What is seen of a store after something has happened: the answer, the entries that are held, and
the entries that can be read. -/
structure Observation where
  event : Event
  answer : Except Store.Fault event.Result
  held : Entries
  stored : Except Store.Fault Entries

/-- What is seen of a store in a file: its entries are read from there. -/
def observeInFile (path : Path) (e : Event) : StateT Entries (StateM Tree) Observation :=
  fun es ↦ do
    let (answer, es) ← e.inFile path es
    let stored ← Store.load Tree.system path
    return (⟨e, answer, es, stored⟩, es)

/-- What is seen of a store in memory: what it holds is all there is. -/
def observeInMemory (order : KeyOrder) (e : Event) : StateM Entries Observation := fun es ↦
  let (answer, es) := e.inMemory order es
  (⟨e, answer, es, .ok es⟩, es)

/-- What is seen while things happen one after the other. -/
def observe {m : Type → Type} [Monad m] (look : Event → m Observation) (es : List Event) :
    m (List Observation) := es.mapM look

section

variable {path : Path} {es : Entries} {t : Tree}

/-- Reading the file again, by whichever store, changes nothing. -/
theorem mirrored_of_read (h : Store.Mirrors path es t)
    {x : (Except Store.Fault Unit × Entries) × Tree} (hx : x = ((.ok (), es), t)) :
    Store.Follows path t x (.ok (), es) := by
  rw [hx]
  exact Or.inr ⟨rfl, h, id⟩

/-- **One event**: in a file the same comes of it as in memory. -/
theorem follows_event (order : KeyOrder) (h : Store.Mirrors path es t) (e : Event) :
    Store.Follows path t (e.inFile path es t) (e.inMemory order es) := by
  cases e with
  | operation o =>
    have hmemory : (Event.operation o).inMemory order es = o.program.run Store.memory es :=
      o.run_backend order es
    rw [hmemory]
    exact h.run o.putsStorable
  | reload =>
    refine mirrored_of_read h ?_
    change Store.reload Tree.system path es t = _
    simp only [Store.reload, bind_apply, h.load]
    rfl
  | reopen =>
    refine mirrored_of_read h ?_
    change Event.replaceStore path es t = _
    simp only [Event.replaceStore, bind_apply, h.load]
    rfl

theorem observeInFile_cases (order : KeyOrder) (h : Store.Mirrors path es t) (e : Event) :
    Store.IsBlocked (observeInFile path e es t).1.1.answer ∧ ¬ t.Free path ∨
      Store.Mirrored path t (observeInFile path e es t) (observeInMemory order e es) := by
  have hfile : observeInFile path e es t =
      ((⟨e, (e.inFile path es t).1.1, (e.inFile path es t).1.2,
        (Store.load Tree.system path (e.inFile path es t).2).1⟩, (e.inFile path es t).1.2),
          (Store.load Tree.system path (e.inFile path es t).2).2) := rfl
  rw [hfile]
  rcases follows_event order h e with hblocked | ⟨hsame, hmirrors, hfree⟩
  · exact Or.inl hblocked
  · rw [hmirrors.load]
    refine Or.inr ⟨?_, hmirrors, hfree⟩
    rw [hsame]
    rfl

theorem observe_cons {σ : Type} (look : Event → StateM σ Observation) (e : Event) (es : List Event)
    (s : σ) : observe look (e :: es) s =
      ((look e s).1 :: (observe look es (look e s).2).1, (observe look es (look e s).2).2) := by
  rw [observe, List.mapM_cons]
  rfl

theorem observeInFile_cons (e : Event) (events : List Event) :
    observe (observeInFile path) (e :: events) es t =
      (((observeInFile path e es t).1.1 :: (observe (observeInFile path) events
          (observeInFile path e es t).1.2 (observeInFile path e es t).2).1.1,
        (observe (observeInFile path) events
          (observeInFile path e es t).1.2 (observeInFile path e es t).2).1.2),
        (observe (observeInFile path) events
          (observeInFile path e es t).1.2 (observeInFile path e es t).2).2) := by
  rw [observe, List.mapM_cons]
  rfl

/-- **A run**: what is seen in a file is what is seen in memory all along. -/
theorem observe_cases (order : KeyOrder) (h : Store.Mirrors path es t) (events : List Event) :
    (∃ o ∈ (observe (observeInFile path) events es t).1.1, Store.IsBlocked o.answer) ∧
        ¬ t.Free path ∨
      Store.Mirrored path t (observe (observeInFile path) events es t)
        (observe (observeInMemory order) events es) := by
  induction events generalizing es t with
  | nil => exact Or.inr ⟨rfl, h, id⟩
  | cons e events ih =>
    rw [observe_cons, observeInFile_cons]
    rcases observeInFile_cases order h e with ⟨hblocked, hfull⟩ | ⟨hsame, hmirrors, hfree⟩
    · exact Or.inl ⟨⟨_, List.mem_cons_self, hblocked⟩, hfull⟩
    · rcases ih hmirrors with ⟨⟨o, ho, hblocked⟩, hfull⟩ | ⟨hsame', hmirrors', hfree'⟩
      · exact Or.inl ⟨⟨o, List.mem_cons_of_mem _ ho, hblocked⟩, mt hfree hfull⟩
      · refine Or.inr ⟨?_, hmirrors', fun h ↦ hfree' (hfree h)⟩
        rw [← hsame, hsame']

/-- In memory nothing comes of reading the file again. -/
theorem observe_filter_isOperation (order : KeyOrder) (events : List Event) (es : Entries) :
    (observe (observeInMemory order) events es).1.filter (·.event.isOperation) =
      (observe (observeInMemory order) (events.filter Event.isOperation) es).1 := by
  induction events generalizing es with
  | nil => rfl
  | cons e events ih =>
    rw [observe_cons]
    cases e with
    | operation o =>
      rw [List.filter_cons_of_pos (by rfl), List.filter_cons_of_pos (by rfl), observe_cons, ih]
    | reload | reopen =>
      rw [List.filter_cons_of_neg (by exact Bool.false_ne_true),
        List.filter_cons_of_neg (by exact Bool.false_ne_true)]
      exact ih es

/-- **The store in a file is a mirror of the one in memory.** A store that is opened where there is
no file holds nothing. As long as no file fails to be written, every operation on it gives the same
result as in memory, and after every one the file stands for the entries in memory. Nothing comes of
reading the file again, or of opening another store in its place: the operations give what they give
without that. In memory the keys may be listed in any order. -/
theorem observe_inFile (path : Path) (order : KeyOrder) (events : List Event) {t : Tree}
    (habsent : (t.get path).isOk = false)
    (hwritten : ∀ o ∈ (observe (observeInFile path) events [] t).1.1,
      ¬ Store.IsBlocked o.answer) :
    Store.load Tree.system path t = (.ok [], t) ∧
      (observe (observeInFile path) events [] t).1.1 =
        (observe (observeInMemory order) events []).1 ∧
      (observe (observeInFile path) events [] t).1.1.filter (·.event.isOperation) =
        (observe (observeInMemory order) (events.filter Event.isOperation) []).1 := by
  have hmirrors := Store.mirrors_of_absent habsent
  rcases observe_cases order hmirrors events with ⟨⟨o, ho, hblocked⟩, -⟩ | hmirrored
  · exact absurd hblocked (hwritten o ho)
  · have hsame : (observe (observeInFile path) events [] t).1.1 =
        (observe (observeInMemory order) events []).1 := congrArg Prod.fst hmirrored.same
    rw [hsame]
    exact ⟨hmirrors.load, rfl, observe_filter_isOperation order events []⟩

/-- A profile with a document, both of which are gone in the end; the file is read again twice. The
store in memory lists its keys from the last to the first. -/
theorem observe_inFile_document :
    let events : List Event := [.operation (.add 1 "é"), .reload, .operation (.save "{}" "1"),
      .reopen, .operation (.remove "1"), .operation .collectGarbage]
    let seen := (observe (observeInFile ["state", "profiles.json"]) events [] .empty).1.1
    seen.map (fun o ↦ o.stored.toOption.map Sorted.keys) = [
      some ["config_items", "editing_config_key"],
      some ["config_items", "editing_config_key"],
      some ["config/1", "config_items", "editing_config_key"],
      some ["config/1", "config_items", "editing_config_key"],
      some ["config/1", "config_items", "editing_config_key"],
      some ["config_items", "editing_config_key"]] := by
  intro events seen
  have hfree : Tree.empty.Free ["state", "profiles.json"] :=
    Tree.free_empty (by decide) (by decide)
  -- The run is computed in memory only: in the file it is known to be the same.
  have hmirrored := (observe_cases .descending (Store.mirrors_of_absent (t := .empty) rfl)
    events).resolve_left fun h ↦ h.2 hfree
  have hmemory : ∀ o ∈ (observe (observeInMemory .descending) events []).1,
      ¬ Store.IsBlocked o.answer := by
    decide +kernel
  have hsame : seen = (observe (observeInMemory .descending) events []).1 :=
    (observe_inFile ["state", "profiles.json"] .descending events rfl (by
      rwa [congrArg Prod.fst hmirrored.same])).2.1
  rw [hsame]
  decide +kernel

end

end Redirector.Profiles
