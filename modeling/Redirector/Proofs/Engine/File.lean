import Redirector.Engine
import Redirector.Proofs.Engine.Table
import Redirector.Proofs.Files.Tree
import Redirector.Proofs.Rule.Wire
import Redirector.Regex.Automaton

/-!
# The engine in a file does what the one in memory does

Between two calls an engine in a file knows nothing but what the file says. The file says all there
is to know: it holds the rules of a well-formed table (`Keeps`), every rule is read back as it was
written, and the table is determined by its rules. So each call finds the very table that an engine
in memory would have by then, and gives the same answer (`Keeps.turn`).

Since nothing else is carried from one call to the next, it does not matter either whether all calls
are made to one engine or some of them to another one on the same path: a run is cut into sessions,
each of them with an engine of its own.
-/

namespace Redirector.Engine

open Files (Path Tree)

/-! ## Updates and what is seen after them -/

/-- What is seen of an engine that is given an update: the answer, and what is installed then. -/
structure Turn where
  answer : Except Fault Unit
  ids : Except Fault (List UInt32)
  rules : Except Fault (List Rule)

section

variable {m : Type → Type} [Monad m]

/-- Gives an engine an update and looks at what is installed. -/
def turn (e : Engine m) (u : RuleUpdate) : m Turn := do
  return ⟨← e.update u, ← e.ids, ← e.rules⟩

/-- Gives an engine some updates, one after the other. -/
def serve (e : Engine m) (us : List RuleUpdate) : m (List Turn) := us.mapM (turn e)

/-- Serves some sessions, one after the other, each with an engine that is made for it. -/
def serveSessions (check : Regex.Check) (files : Files.System m) (path : Path)
    (sessions : List (List RuleUpdate)) : m (List Turn) := do
  return (← sessions.mapM fun us ↦ serve (file check files path) us).flatten

end

/-! ## What is in the file -/

/-- The file at a path says what a table holds; there need not be a file for the empty table. -/
structure Keeps (path : Path) (t : Tree) (table : RuleTable) : Prop where
  wellFormed : table.WellFormed
  stored : t.read path = .ok (encode table) ∨ t.read path = .error .missing ∧ table = .empty

/-- **A table is read back as it was written.** -/
theorem decode_encode {table : RuleTable} (h : table.WellFormed) :
    decode (encode table) = .ok table := by
  rw [decode, encode, Rule.ofBytes_listToJson]
  exact congrArg Except.ok h.eq_ofRules

section

variable {check : Regex.Check} {path : Path} {t t' : Tree} {table table' : RuleTable}

theorem Keeps.load (h : Keeps path t table) : load Tree.system path t = (.ok table, t) := by
  have hsystem : Tree.system.read path t = (t.read path, t) := rfl
  rw [Engine.load, bind_apply, hsystem]
  rcases h.stored with hread | ⟨hread, rfl⟩
  · rw [hread]
    exact congrArg (·, t) (decode_encode h.wellFormed)
  · rw [hread]
    rfl

/-- An update of the table that the file holds: it is rejected, or written to the file. -/
theorem Keeps.update (check : Regex.Check) (h : Keeps path t table) (u : RuleUpdate) :
    (file check Tree.system path).update u t =
      match table.update check u with
      | .error r => (.error (.rejected r), t)
      | .ok table' => save Tree.system path table' t := by
  simp only [file, bind_apply, h.load]
  rcases table.update check u with r | table'
  · rfl
  · rfl

theorem Keeps.ids (h : Keeps path t table) :
    (file check Tree.system path).ids t = (.ok table.ids, t) := by
  simp only [file, bind_apply, h.load]
  rfl

theorem Keeps.rules (h : Keeps path t table) :
    (file check Tree.system path).rules t = (.ok table.rules, t) := by
  simp only [file, bind_apply, h.load]
  rfl

/-- A table is written and can be read then, or there is a fault of the file system, and no room
for the file. -/
theorem save_cases (path : Path) (table : RuleTable) (t : Tree) :
    (∃ f t', save Tree.system path table t = (.error (.files f), t') ∧ ¬ t.Free path) ∨
      ∃ t', save Tree.system path table t = (.ok (), t') ∧ t'.read path = .ok (encode table) ∧
        (t.Free path → t'.Free path) := by
  have hsave : save Tree.system path table t =
      ((Tree.system.replace path (encode table) t).1.mapError .files,
        (Tree.system.replace path (encode table) t).2) := rfl
  rw [hsave]
  rcases Tree.replace_cases path (encode table) t with ⟨f, t', h, hfree⟩ | ⟨t', h, hread, hfree⟩
  · rw [h]
    exact Or.inl ⟨f, t', rfl, hfree⟩
  · rw [h]
    exact Or.inr ⟨t', rfl, hread, hfree⟩

/-! ## Two engines side by side -/

theorem turn_apply {σ : Type} (e : Engine (StateM σ)) (u : RuleUpdate) (s : σ) :
    turn e u s =
      (⟨(e.update u s).1, (e.ids (e.update u s).2).1, (e.rules (e.ids (e.update u s).2).2).1⟩,
        (e.rules (e.ids (e.update u s).2).2).2) := rfl

/-- Both engines have answered the same and hold the same, and if there was room for the file, there
still is. -/
structure Agree {α : Type} (path : Path) (t : Tree) (x : α × Tree) (y : α × RuleTable) : Prop where
  answer : x.1 = y.1
  keeps : Keeps path x.2 y.2
  free : t.Free path → x.2.Free path

/-- The update was answered with a fault of the file system. -/
def Turn.IsBlocked (a : Turn) : Prop := ∃ f, a.answer = .error (.files f)

/-- What follows an update, if the file holds the table that the update has led to. -/
theorem agree_turn {u : RuleUpdate} {answer : Except Fault Unit}
    (hfile : (file check Tree.system path).update u t = (answer, t'))
    (hmemory : (memory check).update u table = (answer, table')) (h : Keeps path t' table')
    (hfree : t.Free path → t'.Free path) :
    Agree path t (turn (file check Tree.system path) u t) (turn (memory check) u table) := by
  simp only [turn_apply, hfile, hmemory, h.ids, h.rules]
  exact ⟨rfl, h, hfree⟩

/-- **One update**: the engines agree, unless the file cannot be written, for which there must be
something in its way. -/
theorem Keeps.turn (h : Keeps path t table) (u : RuleUpdate) :
    (turn (file check Tree.system path) u t).1.IsBlocked ∧ ¬ t.Free path ∨
      Agree path t (turn (file check Tree.system path) u t) (turn (memory check) u table) := by
  have hupdate := h.update check u
  rcases htable : table.update check u with r | table'
  · have hmemory : (memory check).update u table = (.error (.rejected r), table) :=
      memory_update_of_error htable
    rw [htable] at hupdate
    exact Or.inr (agree_turn hupdate hmemory h id)
  · have hmemory : (memory check).update u table = (.ok (), table') := memory_update_of_ok htable
    have hwf : table'.WellFormed :=
      (RuleTable.rules_eraseAll h.wellFormed u.remove).1.addAll htable
    rw [htable] at hupdate
    rcases save_cases path table' t with ⟨f, t', hsave, hfree⟩ | ⟨t', hsave, hread, hfree⟩
    · exact Or.inl ⟨⟨f, congrArg Prod.fst (hupdate.trans hsave)⟩, hfree⟩
    · exact Or.inr (agree_turn (hupdate.trans hsave) hmemory ⟨hwf, Or.inl hread⟩ hfree)

theorem serve_cons {σ : Type} (e : Engine (StateM σ)) (u : RuleUpdate) (us : List RuleUpdate)
    (s : σ) : serve e (u :: us) s =
      ((Engine.turn e u s).1 :: (serve e us (Engine.turn e u s).2).1,
        (serve e us (Engine.turn e u s).2).2) := by
  rw [serve, List.mapM_cons]
  rfl

/-- **Some updates**, one after the other. -/
theorem Keeps.serve (h : Keeps path t table) (us : List RuleUpdate) :
    (∃ a ∈ (serve (file check Tree.system path) us t).1, a.IsBlocked) ∧ ¬ t.Free path ∨
      Agree path t (serve (file check Tree.system path) us t) (serve (memory check) us table) := by
  induction us generalizing t table with
  | nil => exact Or.inr ⟨rfl, h, id⟩
  | cons u us ih =>
    rw [serve_cons, serve_cons]
    rcases h.turn u with ⟨hblocked, hfree⟩ | hturn
    · exact Or.inl ⟨⟨_, List.mem_cons_self, hblocked⟩, hfree⟩
    · rcases ih hturn.keeps with ⟨⟨a, ha, hblocked⟩, hfree⟩ | hrest
      · exact Or.inl ⟨⟨a, List.mem_cons_of_mem _ ha, hblocked⟩, mt hturn.free hfree⟩
      · rw [hturn.answer, hrest.answer]
        exact Or.inr ⟨rfl, hrest.keeps, fun hfree ↦ hrest.free (hturn.free hfree)⟩

theorem not_isBlocked_memory (us : List RuleUpdate) (table : RuleTable) :
    ∀ a ∈ (Engine.serve (memory check) us table).1, ¬ a.IsBlocked := by
  induction us generalizing table with
  | nil => exact List.forall_mem_nil _
  | cons u us ih =>
    rw [serve_cons]
    refine List.forall_mem_cons.mpr ⟨?_, ih _⟩
    rintro ⟨f, hf⟩
    simp only [turn_apply, memory] at hf
    rcases htable : table.update check u with r | table'
    · rw [htable] at hf
      cases hf
    · rw [htable] at hf
      cases hf

/-- Nothing is carried over from one session to the next but the file. -/
theorem serveSessions_eq {m : Type → Type} [Monad m] [LawfulMonad m] (files : Files.System m)
    (path : Path) (sessions : List (List RuleUpdate)) :
    serveSessions check files path sessions =
      Engine.serve (file check files path) sessions.flatten := by
  induction sessions with
  | nil => simp [serveSessions, Engine.serve]
  | cons us sessions ih =>
    rw [List.flatten_cons, Engine.serve, List.mapM_append, ← Engine.serve, ← Engine.serve, ← ih]
    simp [serveSessions]

theorem update_rejected {u : RuleUpdate} {r : Rejection}
    (h : (file check Tree.system path).update u t = (.error (.rejected r), t')) : t' = t := by
  have hload : (Engine.load Tree.system path t).2 = t := by
    have hsystem : Tree.system.read path t = (t.read path, t) := rfl
    rw [Engine.load, bind_apply, hsystem]
    rcases t.read path with f | content
    · cases f with
      | missing | taken | notDirectory | isDirectory | notText | other => rfl
    · rfl
  -- Of the three steps only the second rejects anything, and nothing has been written by then.
  simp only [file, bind_apply] at h
  rw [hload] at h
  rcases hcall : (Engine.load Tree.system path t).1 with f | table
  · rw [hcall] at h
    exact (congrArg Prod.snd h).symm
  · rw [hcall] at h
    rcases htable : table.update check u with e | table'
    · simp only [htable] at h
      exact (congrArg Prod.snd h).symm
    · simp only [htable] at h
      rcases save_cases path table' t with ⟨f, t₁, hsave, -⟩ | ⟨t₁, hsave, -⟩
      · rw [hsave] at h
        cases h
      · rw [hsave] at h
        cases h

theorem keeps_empty (h : t.read path = .error .missing) : Keeps path t .empty :=
  ⟨RuleTable.wellFormed_empty, Or.inr ⟨h, rfl⟩⟩

/-- **The engine in a file does what the one in memory does.** If it starts without a file, and no
file fails to be written, every update is answered as in memory, and what is installed after it is
the same, however the updates are split into sessions. An update that is rejected leaves the files
as they were. -/
theorem serveSessions_file (check : Regex.Check) (path : Path)
    (sessions : List (List RuleUpdate)) {t : Tree} (hmissing : t.read path = .error .missing)
    (hwritten : ∀ a ∈ (serveSessions check Tree.system path sessions t).1, ¬ a.IsBlocked) :
    (serveSessions check Tree.system path sessions t).1 =
        (Engine.serve (memory check) sessions.flatten .empty).1 ∧
      ∀ u r t t',
        (file check Tree.system path).update u t = (.error (.rejected r), t') → t' = t := by
  refine ⟨?_, fun u r t t' ↦ update_rejected⟩
  rw [serveSessions_eq] at hwritten ⊢
  rcases (keeps_empty hmissing).serve sessions.flatten with ⟨⟨a, ha, hblocked⟩, -⟩ | hagree
  · exact absurd hblocked (hwritten a ha)
  · exact hagree.answer

/-- Where there is room for the file, it never fails to be written. -/
theorem not_isBlocked_of_free (sessions : List (List RuleUpdate))
    (hmissing : t.read path = .error .missing) (hfree : t.Free path) :
    ∀ a ∈ (serveSessions check Tree.system path sessions t).1, ¬ a.IsBlocked := by
  rw [serveSessions_eq]
  rcases (keeps_empty hmissing).serve sessions.flatten with ⟨-, hblocked⟩ | hagree
  · exact absurd hfree hblocked
  · rw [hagree.answer]
    exact not_isBlocked_memory _ _

/-- A rule that cannot be added twice, and is taken out in a session of its own. -/
theorem serveSessions_file_twice :
    let r : Rule := ⟨1, 1, .modifyHeaders [.set "X" "é"], ⟨none, some "a.com", [.image]⟩⟩
    let seen := (serveSessions Regex.check Tree.system ["rules", "installed.json"]
      [[.adding [r], .adding [r]], [.removing [1]]] .empty).1
    seen.map Turn.answer = [.ok (), .error (.rejected (.duplicateId 1)), .ok ()] ∧
      seen.map Turn.rules = [.ok [r], .ok [r], .ok []] := by
  intro r seen
  have hfree : Tree.empty.Free ["rules", "installed.json"] :=
    Tree.free_empty (by decide) (by decide)
  have hseen := (serveSessions_file Regex.check ["rules", "installed.json"]
    [[.adding [r], .adding [r]], [.removing [1]]] rfl (not_isBlocked_of_free _ rfl hfree)).1
  change seen = _ at hseen
  rw [hseen]
  decide +kernel

end

end Redirector.Engine
