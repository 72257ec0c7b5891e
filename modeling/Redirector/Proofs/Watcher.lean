import Redirector.Daemon.Basic
import Redirector.Proofs.Store.File

/-!
# What the watcher makes of an event

An event matters if it creates or modifies a file with the name of the store file. What it does to
the entries is told by what the reader of the store finds at that moment (`reading?`): the entries
that are read take the place of the old ones and one apply is asked for, or there are none to be
read and nothing happens (`react_tree`). Over a run of events this makes the entries those of the
last reading, with one trigger for each reading (`reactAll_eq`).

Profiles should be given up for others only. The reader of the store, however, takes a file that is
not there for one without entries, which is right when the service starts and has never stored any,
but not when a file is moved away: the event of moving it is one that modifies it. Other than that
the watcher is careful (`careful_iff`).
-/

namespace Redirector.Watcher

open Files (Path Tree)
open Store (Entries)

variable {path : Path} {e : Event} {es : Entries} {t : Tree}

/-! ## Events that matter -/

theorem sameFile_iff {p q : Path} :
    sameFile p q ↔ p = q ∨ ∃ name, p.fileName? = some name ∧ q.fileName? = some name := by
  rw [sameFile, Bool.or_eq_true, decide_eq_true_eq, Bool.and_eq_true, decide_eq_true_eq]
  refine or_congr_right ?_
  constructor
  · intro ⟨hsome, heq⟩
    obtain ⟨name, hname⟩ := Option.isSome_iff_exists.mp hsome
    exact ⟨name, hname, heq ▸ hname⟩
  · intro ⟨name, hp, hq⟩
    rw [hp, hq]
    exact ⟨rfl, rfl⟩

/-- The event creates or modifies a file that is at a path or has the name of the one there. -/
def Event.Matters (e : Event) (path : Path) : Prop :=
  (e.change = .created ∨ e.change = .modified) ∧
    ∃ p ∈ e.paths, p = path ∨ ∃ name, p.fileName? = some name ∧ path.fileName? = some name

theorem concerns_iff : e.concerns path ↔ e.Matters path := by
  rw [Event.concerns, Bool.and_eq_true, Bool.or_eq_true, decide_eq_true_eq, decide_eq_true_eq,
    List.any_eq_true]
  exact and_congr_right fun _ ↦ exists_congr fun _ ↦ and_congr_right fun _ ↦ sameFile_iff

/-! ## One event -/

/-- The entries that are read on an event, if any are. -/
def reading? (path : Path) (e : Event) (t : Tree) : Option Entries :=
  if e.concerns path then (Store.load Tree.system path t).1.toOption else none

/-- **The reaction to an event**: the entries that are read, if any are, take the place of the
others, and there is one trigger for them. The directory tree stays as it is. -/
theorem react_tree (path : Path) (e : Event) (es : Entries) (t : Tree) :
    ∃ reaction : Reaction,
      react Tree.system path e es t = ((reaction, (reading? path e t).getD es), t) ∧
        reaction.sent = (reading? path e t).toList.map fun _ ↦ .storeChanged := by
  have hload : (Store.load Tree.system path t).2 = t := by rw [Store.load_tree]
  by_cases he : e.concerns path
  · have hreload : Store.reload Tree.system path es t =
        match Store.load Tree.system path t with
        | (.ok es', t') => ((.ok (), es'), t')
        | (.error f, t') => ((.error f, es), t') := by
      rw [Store.reload, bind_apply]
      rcases Store.load Tree.system path t with ⟨f | es', t'⟩
      · rfl
      · rfl
    rw [react, if_pos he, bind_apply_apply, hreload, reading?, if_pos he]
    rcases hread : Store.load Tree.system path t with ⟨f | es', t'⟩
    · rw [hread] at hload
      exact ⟨some (.error f), by rw [← hload]; rfl, rfl⟩
    · rw [hread] at hload
      exact ⟨some (.ok .storeChanged), by rw [← hload]; rfl, rfl⟩
  · rw [react, if_neg he, reading?, if_neg he]
    exact ⟨none, rfl, rfl⟩

/-- What is read on an event that matters: what the file says, and nothing of a file that is not
there. -/
theorem reading?_eq_some_iff {es' : Entries} :
    reading? path e t = some es' ↔ e.Matters path ∧
      ((t.get path).isOk = false ∧ es' = [] ∨
        ∃ content, t.read path = .ok content ∧ Entries.decode content = .ok es') := by
  rw [← concerns_iff, ← Store.load_eq_ok_iff, reading?]
  by_cases he : e.concerns path
  · rw [if_pos he, and_iff_right he]
    rcases (Store.load Tree.system path t).1 with f | es₁
    · exact ⟨nofun, nofun⟩
    · exact ⟨fun h ↦ congrArg Except.ok (Option.some.inj h), fun h ↦ h ▸ rfl⟩
  · rw [if_neg he]
    exact ⟨nofun, fun h ↦ absurd h.1 he⟩

/-- What a careful watcher makes of an event. If it does not matter, nothing happens. If it does and
the file can be read, the entries are just those in the file, and one apply is asked for. If the
file cannot be read, for whatever reason, the entries stay as they were. -/
def Careful (path : Path) (e : Event) (es : Entries) (t : Tree) : Prop :=
  ∃ reaction es', react Tree.system path e es t = ((reaction, es'), t) ∧
    (¬ e.Matters path ∧ es' = es ∧ reaction.sent = [] ∨
      e.Matters path ∧ (∃ content, t.read path = .ok content ∧ Entries.decode content = .ok es') ∧
        reaction.sent = [.storeChanged] ∨
      e.Matters path ∧
        (¬ ∃ content es', t.read path = .ok content ∧ Entries.decode content = .ok es') ∧
        es' = es ∧ reaction.sent = [])

/-- **The watcher is careful unless the file is gone** by the time it looks after an event that
matters. -/
theorem careful_iff (path : Path) (e : Event) (es : Entries) (t : Tree) :
    Careful path e es t ↔ (e.Matters path → (t.get path).isOk) := by
  obtain ⟨reaction, hreact, hsent⟩ := react_tree path e es t
  constructor
  · intro ⟨reaction', es', hreact', h⟩ hmatters
    by_contra hget
    -- Nothing is there, so that a trigger is sent without anything that has been read.
    have hreading : reading? path e t = some [] :=
      reading?_eq_some_iff.mpr ⟨hmatters, Or.inl ⟨eq_false_of_ne_true hget, rfl⟩⟩
    rw [hreact] at hreact'
    obtain ⟨⟨rfl, rfl⟩, -⟩ := by simpa only [Prod.mk.injEq] using hreact'
    rw [hreading] at hsent
    rcases h with ⟨hnot, -⟩ | ⟨-, ⟨content, hread, -⟩, -⟩ | ⟨-, -, -, hnone⟩
    · exact hnot hmatters
    · rw [Tree.get_eq_ok_iff.mpr (Tree.read_eq_ok_iff.mp hread)] at hget
      exact hget rfl
    · rw [hnone] at hsent
      cases hsent
  · intro h
    refine ⟨reaction, _, hreact, ?_⟩
    by_cases hmatters : e.Matters path
    · have hthere := ne_false_of_eq_true (h hmatters)
      rcases hreading : reading? path e t with _ | es'
      · rw [hreading] at hsent
        refine Or.inr (Or.inr ⟨hmatters, ?_, rfl, hsent⟩)
        intro ⟨content, es', hcontent⟩
        have hsome := reading?_eq_some_iff.mpr ⟨hmatters, Or.inr ⟨content, hcontent⟩⟩
        rw [hreading] at hsome
        cases hsome
      · rw [hreading] at hsent
        obtain ⟨-, habsent | hread⟩ := reading?_eq_some_iff.mp hreading
        · exact absurd habsent.1 hthere
        · exact Or.inr (Or.inl ⟨hmatters, hread, hsent⟩)
    · have hreading : reading? path e t = none := by
        rw [reading?, if_neg (mt concerns_iff.mp hmatters)]
      rw [hreading] at hsent ⊢
      exact Or.inl ⟨hmatters, rfl, hsent⟩

/-- A file that is moved away takes all entries with it: they are dropped from memory, and an apply
is asked for that finds none. -/
theorem careful_not_always :
    ¬ Careful ["profiles.json"] ⟨.modified, [["profiles.json"]]⟩ [("enabled", .boolean true)]
      .empty := by
  have hreact : react Tree.system ["profiles.json"] ⟨.modified, [["profiles.json"]]⟩
      [("enabled", .boolean true)] .empty = ((some (.ok .storeChanged), []), .empty) := rfl
  rintro ⟨reaction, es', h, hcases⟩
  rw [hreact] at h
  obtain ⟨⟨rfl, rfl⟩, -⟩ := by simpa only [Prod.mk.injEq] using h
  rcases hcases with ⟨-, hentries, -⟩ | ⟨-, ⟨content, hread, -⟩, -⟩ | ⟨-, -, hentries, -⟩
  · cases hentries
  · cases hread
  · cases hentries

/-! ## Event after event -/

/-- Reacts to events one after the other, with what the directory is like at each. -/
def reactAll (path : Path) : List (Event × Tree) → Entries → Entries × List Apply.Trigger
  | [], es => (es, [])
  | (e, t) :: rest, es =>
    let ((reaction, es'), _) := react Tree.system path e es t
    let (es'', triggers) := reactAll path rest es'
    (es'', reaction.sent ++ triggers)

/-- The entries that are read on some events. -/
def readings (path : Path) (events : List (Event × Tree)) : List Entries :=
  events.filterMap fun (e, t) ↦ reading? path e t

/-- **The entries are those of the last reading**, or what they were if there has been none, and an
apply has been asked for once for each. -/
theorem reactAll_eq (path : Path) (events : List (Event × Tree)) (es : Entries) :
    reactAll path events es =
      ((readings path events).getLast?.getD es,
        (readings path events).map fun _ ↦ .storeChanged) := by
  induction events generalizing es with
  | nil => rfl
  | cons event rest ih =>
    obtain ⟨e, t⟩ := event
    obtain ⟨reaction, hreact, hsent⟩ := react_tree path e es t
    simp only [reactAll, hreact, ih, hsent, readings, List.filterMap_cons]
    rcases reading? path e t with _ | es'
    · rfl
    · simp only [Option.getD_some, Option.toList_some, List.map_cons, List.map_nil,
        List.singleton_append, List.getLast?_cons]

end Redirector.Watcher
