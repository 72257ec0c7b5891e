import Redirector.Proofs.Files.Tree
import Redirector.Proofs.Json.Layout
import Redirector.Proofs.Store.Program
import Redirector.Store

/-!
# The store in a file does what the one in memory does

The store in a file holds its entries in memory as well, so that its answers are those of the store
in memory as long as the two hold the same. What has to be shown is that the file says the same
again (`Mirrors`): whatever is put in is read back as it was, and where nothing is written, nothing
has changed. Reading the file in the middle of a run is then of no consequence.

Not every value is read back as it was: the members of objects must be in key order, and the nesting
not too deep (`Json.Storable`). A program that puts in no others (`Program.PutsOnly`) leaves the
file a mirror of what is in memory, unless the file cannot be written (`Mirrors.run`).
-/

namespace Redirector

namespace Store

open Files (Path Tree)

/-! ## What is in the file -/

/-- How deep a value may be nested that is kept under a key. In the file it is a member of an
object, and the reader must have room for both. -/
def storableDepth : Nat := 126

/-- Entries that are read back from a file as they were. -/
structure Entries.Storable (es : Entries) : Prop where
  isSorted : Sorted.IsSorted es
  values : ∀ p ∈ es, Json.Storable storableDepth p.2

namespace Entries.Storable

variable {es : Entries}

theorem nil : Storable [] := ⟨List.Pairwise.nil, List.forall_mem_nil _⟩

theorem insert (h : Storable es) (key : String) {value : Json}
    (hvalue : Json.Storable storableDepth value) : Storable (Sorted.insert key value es) := by
  refine ⟨Sorted.isSorted_insert String.lt_trans ?_ h.isSorted, fun p hp ↦ ?_⟩
  · intro a b hlt hne
    exact Std.lt_of_le_of_ne (String.not_lt.mp hlt) hne
  · rcases Sorted.eq_or_mem_of_mem_insert hp with rfl | hp
    · exact hvalue
    · exact h.values p hp

theorem erase (h : Storable es) (key : String) : Storable (Sorted.erase key es) :=
  ⟨Sorted.isSorted_erase h.isSorted, fun p hp ↦ h.values p (List.mem_of_mem_filter hp)⟩

/-- **Entries are read back as they were.** -/
theorem decode_encode (h : Storable es) : Entries.decode es.encode = .ok es := by
  -- The object of all entries is one deeper than its values, which is as deep as the reader goes.
  have hobject : Json.Storable (storableDepth + 1) (.object es) := .object h.isSorted h.values
  have hmembers : Json.Decoder.members.ofJson .stored (.object es) = .ok es := by
    simp only [Json.Decoder.members, hobject.sorted]
    rfl
  have hread := Json.Decoder.agrees_members.run_pretty hmembers hobject.fits (by decide) true
  rw [Entries.decode, Entries.encode, Json.Decoder.ofStream, hread]
  rfl

end Entries.Storable

/-- What reading the entries comes to in a directory tree, which it leaves as it is. -/
theorem load_tree (path : Path) (t : Tree) :
    load Tree.system path t =
      (if (t.get path).isOk then (t.read path).mapError .files >>= Entries.decode else .ok [],
        t) := by
  have hthere : Tree.system.isThere path t = ((t.get path).isOk, t) := rfl
  have hread : Tree.system.read path t = (t.read path, t) := rfl
  rw [load, bind_apply, hthere]
  by_cases hget : (t.get path).isOk
  · rw [if_pos hget, if_pos hget, bind_apply, hread]
    rcases t.read path with f | content
    · rfl
    · rfl
  · rw [if_neg hget, if_neg hget]
    rfl

theorem load_of_absent {path : Path} {t : Tree} (h : (t.get path).isOk = false) :
    load Tree.system path t = (.ok [], t) := by
  rw [load_tree, h]
  rfl

theorem load_of_read {path : Path} {content : ByteArray} {t : Tree}
    (h : t.read path = .ok content) : load Tree.system path t = (Entries.decode content, t) := by
  have hget : t.get path = .ok (.file content) :=
    Tree.get_eq_ok_iff.mpr (Tree.read_eq_ok_iff.mp h)
  rw [load_tree, hget, h]
  rfl

/-- What can be read: no entries if there is nothing at the path, or what a file says. -/
theorem load_eq_ok_iff {path : Path} {es : Entries} {t : Tree} :
    (load Tree.system path t).1 = .ok es ↔
      (t.get path).isOk = false ∧ es = [] ∨
        ∃ content, t.read path = .ok content ∧ Entries.decode content = .ok es := by
  by_cases hget : (t.get path).isOk = false
  · have hread : ∀ content, t.read path ≠ .ok content := by
      intro content hread
      rw [Tree.get_eq_ok_iff.mpr (Tree.read_eq_ok_iff.mp hread)] at hget
      cases hget
    rw [load_of_absent hget, and_iff_right hget, or_iff_left fun ⟨c, hc, _⟩ ↦ hread c hc]
    exact ⟨fun h ↦ (Except.ok.inj h).symm, fun h ↦ congrArg Except.ok h.symm⟩
  · rw [or_iff_right (mt And.left hget), load_tree, if_pos (eq_true_of_ne_false hget)]
    rcases t.read path with f | content
    · exact ⟨nofun, nofun⟩
    · exact ⟨fun h ↦ ⟨content, rfl, h⟩, fun ⟨_, hcontent, h⟩ ↦ Except.ok.inj hcontent ▸ h⟩

/-- The file at a path says what the entries are; there need not be a file if there are none. -/
structure Mirrors (path : Path) (es : Entries) (t : Tree) : Prop where
  storable : es.Storable
  load : load Tree.system path t = (.ok es, t)

section

variable {path : Path} {es es' : Entries} {t t' : Tree}

theorem mirrors_of_absent (h : (t.get path).isOk = false) : Mirrors path [] t :=
  ⟨Entries.Storable.nil, load_of_absent h⟩

theorem mirrors_of_read (h : es.Storable) (hread : t.read path = .ok es.encode) :
    Mirrors path es t := by
  refine ⟨h, ?_⟩
  rw [load_of_read hread, h.decode_encode]

/-- Entries are written and mirrored then, or there is a fault of the file system, and no room for
the file. -/
theorem persist_cases (path : Path) (h : es.Storable) (t : Tree) :
    (∃ f t', persist Tree.system path es t = (.error (.files f), t') ∧ ¬ t.Free path) ∨
      ∃ t', persist Tree.system path es t = (.ok (), t') ∧ Mirrors path es t' ∧
        (t.Free path → t'.Free path) := by
  have hpersist : persist Tree.system path es t =
      ((Tree.system.replace path es.encode t).1.mapError .files,
        (Tree.system.replace path es.encode t).2) := rfl
  rw [hpersist]
  rcases Tree.replace_cases path es.encode t with ⟨f, t', h', hfree⟩ | ⟨t', h', hread, hfree⟩
  · rw [h']
    exact Or.inl ⟨f, t', rfl, hfree⟩
  · rw [h']
    exact Or.inr ⟨t', rfl, mirrors_of_read h hread, hfree⟩

end

/-! ## Programs -/

namespace Program

variable {α : Type}

/-- The program puts in no other values than those of some kind. -/
def PutsOnly (V : Json → Prop) : Program α → Prop
  | done _ => True
  | fail _ => True
  | get _ next => ∀ v, (next v).PutsOnly V
  | set _ value next => V value ∧ next.PutsOnly V
  | remove _ next => next.PutsOnly V
  | keys next => ∀ ks, (next ks).PutsOnly V

theorem Writes.putsOnly {V : Json → Prop} {W : String → Option Json → Prop} {p : Program α}
    (h : p.Writes W) (hW : ∀ key value, W key (some value) → V value) : p.PutsOnly V := by
  induction p with
  | done | fail => trivial
  | get key next ih => exact fun v ↦ ih v (h v)
  | set key value next ih => exact ⟨hW key value h.1, ih h.2⟩
  | remove key next ih => exact ih h.2
  | keys next ih => exact fun ks ↦ ih ks (h ks)

end Program

/-- The answer is a fault of the file system. -/
def IsBlocked {α : Type} (answer : Except Fault α) : Prop := ∃ f, answer = .error (.files f)

instance {α : Type} (answer : Except Fault α) : Decidable (IsBlocked answer) :=
  match answer with
  | .error (.files f) => isTrue ⟨f, rfl⟩
  | .ok _ | .error .emptyName | .error (.format _) | .error .poisoned => isFalse nofun

/-- What has come of a program in a file is what has come of it in memory: the answer, and the
entries that are held. The file mirrors these, and if there was room for it, there still is. -/
structure Mirrored {α : Type} (path : Path) (t : Tree) (x : (α × Entries) × Tree)
    (y : α × Entries) : Prop where
  same : x.1 = y
  mirrors : Mirrors path x.1.2 x.2
  free : t.Free path → x.2.Free path

/-- The same has come of a program in a file as in memory, unless there was a fault of the file
system, for which something must be in the way of the file. -/
def Follows {α : Type} (path : Path) (t : Tree) (x : (Except Fault α × Entries) × Tree)
    (y : Except Fault α × Entries) : Prop :=
  IsBlocked x.1.1 ∧ ¬ t.Free path ∨ Mirrored path t x y

section

variable {α : Type} {path : Path} {es : Entries} {t t' : Tree}

theorem Follows.of_free {x : (Except Fault α × Entries) × Tree} {y : Except Fault α × Entries}
    (h : Follows path t' x y) (hfree : t.Free path → t'.Free path) : Follows path t x y := by
  rcases h with ⟨hblocked, hfull⟩ | hmirrored
  · exact Or.inl ⟨hblocked, mt hfree hfull⟩
  · exact Or.inr ⟨hmirrored.same, hmirrored.mirrors, fun h ↦ hmirrored.free (hfree h)⟩

/-- Writes entries, and goes on if that went well. -/
private def persistThen (path : Path) (es : Entries) (p : Program α) (t : Tree) :
    (Except Fault α × Entries) × Tree :=
  match persist Tree.system path es t with
  | (.ok _, t') => p.run (file Tree.system path) es t'
  | (.error f, t') => ((.error f, es), t')

private theorem follows_persistThen {p : Program α} (h : es.Storable)
    (hp : ∀ t', Mirrors path es t' →
      Follows path t' (p.run (file Tree.system path) es t') (p.run memory es)) :
    Follows path t (persistThen path es p t) (p.run memory es) := by
  rw [persistThen]
  rcases persist_cases path h t with ⟨f, t', hpersist, hfree⟩ | ⟨t', hpersist, hmirrors, hfree⟩
  · rw [hpersist]
    exact Or.inl ⟨⟨f, rfl⟩, hfree⟩
  · rw [hpersist]
    exact (hp t' hmirrors).of_free hfree

theorem run_file_get (key : String) (next : Option Json → Program α) :
    (Program.get key next).run (file Tree.system path) es t =
      (next (Sorted.get? key es)).run (file Tree.system path) es t := by
  rw [Program.run]
  rfl

theorem run_file_keys (next : List String → Program α) :
    (Program.keys next).run (file Tree.system path) es t =
      (next (Sorted.keys es)).run (file Tree.system path) es t := by
  rw [Program.run]
  rfl

private theorem bind_persist {call : StateT Entries (StateM Tree) (Except Fault Unit)}
    {es' : Entries} {p : Program α}
    (hcall : call es t = (((persist Tree.system path es' t).1, es'),
      (persist Tree.system path es' t).2)) :
    (call >>= fun answer ↦
      match answer with
      | .ok () => p.run (file Tree.system path)
      | .error e => pure (.error e) : StateT Entries (StateM Tree) (Except Fault α)) es t =
        persistThen path es' p t := by
  rw [bind_apply_apply, hcall, persistThen]
  rcases persist Tree.system path es' t with ⟨f | _, t'⟩
  · rfl
  · rfl

private theorem run_file_set (key : String) (value : Json) (next : Program α) :
    (Program.set key value next).run (file Tree.system path) es t =
      persistThen path (Sorted.insert key value es) next t := by
  rw [Program.run]
  exact bind_persist rfl

theorem file_remove (key : String) : (file Tree.system path).remove key es t =
    if Sorted.contains key es then
      (((persist Tree.system path (Sorted.erase key es) t).1, Sorted.erase key es),
        (persist Tree.system path (Sorted.erase key es) t).2)
    else ((.ok (), es), t) := by
  change (if Sorted.contains key es then _ else _ : StateM Tree _) t = _
  split_ifs
  · rfl
  · rfl

private theorem run_file_remove (key : String) (next : Program α) :
    (Program.remove key next).run (file Tree.system path) es t =
      if Sorted.contains key es then persistThen path (Sorted.erase key es) next t
      else next.run (file Tree.system path) es t := by
  rw [Program.run]
  by_cases hkey : Sorted.contains key es
  · rw [if_pos hkey]
    exact bind_persist ((file_remove key).trans (if_pos hkey))
  · rw [if_neg hkey, bind_apply_apply, file_remove, if_neg hkey]

theorem erase_of_not_contains {key : String} (h : ¬ Sorted.contains key es) :
    Sorted.erase key es = es := by
  rw [Sorted.contains, Bool.not_eq_true, Option.isSome_eq_false_iff,
    Option.isNone_iff_eq_none] at h
  exact Sorted.erase_of_get?_eq_none h

/-- **A program does the same in a file as in memory**, unless the file cannot be written. -/
theorem Mirrors.run (h : Mirrors path es t) {p : Program α}
    (hp : p.PutsOnly (Json.Storable storableDepth)) :
    Follows path t (p.run (file Tree.system path) es t) (p.run memory es) := by
  induction p generalizing es t with
  | done a => exact Or.inr ⟨rfl, h, id⟩
  | fail e => exact Or.inr ⟨rfl, h, id⟩
  | get key next ih =>
    rw [run_file_get, Program.run_memory_get]
    exact ih _ h (hp _)
  | set key value next ih =>
    rw [run_file_set, Program.run_memory_set]
    exact follows_persistThen (h.storable.insert key hp.1) fun t' ht' ↦ ih ht' hp.2
  | remove key next ih =>
    rw [run_file_remove, Program.run_memory_remove]
    split_ifs with hkey
    · exact follows_persistThen (h.storable.erase key) fun t' ht' ↦ ih ht' hp
    · -- The file is not written, and it need not be.
      rw [erase_of_not_contains hkey]
      exact ih h hp
  | keys next ih =>
    rw [run_file_keys, Program.run_memory_keys]
    exact ih _ h (hp _)

end

/-! ## With room for the file

As long as the file can be written, what is in it does not matter to the programs: they find and
leave the same entries as in memory, whatever others do to the file.
-/

section

variable {α : Type} {path : Path} {t : Tree}

theorem persist_of_free (h : t.Free path) (es : Entries) :
    ∃ t', persist Tree.system path es t = (.ok (), t') ∧ t'.Free path := by
  obtain ⟨t', hreplace, hfree⟩ := h.replace es.encode
  have hpersist : persist Tree.system path es t =
      ((Tree.system.replace path es.encode t).1.mapError .files,
        (Tree.system.replace path es.encode t).2) := rfl
  rw [hpersist, hreplace]
  exact ⟨t', rfl, hfree⟩

/-- **A call** in a file is the call in memory. -/
theorem advance_file (h : t.Free path) (p : Program α) (es : Entries) :
    ∃ t', p.advance (file Tree.system path) es t = (p.advance memory es, t') ∧ t'.Free path := by
  cases p with
  | done | fail | get | keys => exact ⟨t, rfl, h⟩
  | set key value next =>
    obtain ⟨t', hpersist, hfree⟩ := persist_of_free h (Sorted.insert key value es)
    have hcall : (file Tree.system path).set key value es t =
        ((.ok (), Sorted.insert key value es), t') := by
      change (((persist Tree.system path _ t).1, _), (persist Tree.system path _ t).2) = _
      rw [hpersist]
    refine ⟨t', ?_, hfree⟩
    rw [Program.advance, bind_apply_apply, hcall]
    rfl
  | remove key next =>
    obtain ⟨t', hcall, hfree⟩ : ∃ t', (file Tree.system path).remove key es t =
        ((.ok (), Sorted.erase key es), t') ∧ t'.Free path := by
      rw [file_remove]
      by_cases hkey : Sorted.contains key es
      · obtain ⟨t', hpersist, hfree⟩ := persist_of_free h (Sorted.erase key es)
        rw [if_pos hkey, hpersist]
        exact ⟨t', rfl, hfree⟩
      · rw [if_neg hkey, erase_of_not_contains hkey]
        exact ⟨t, rfl, h⟩
    refine ⟨t', ?_, hfree⟩
    rw [Program.advance, bind_apply_apply, hcall]
    rfl

theorem steps_file (h : t.Free path) (n : ℕ) (p : Program α) (es : Entries) :
    ∃ t', p.steps (file Tree.system path) n es t = (p.steps memory n es, t') ∧ t'.Free path := by
  induction n generalizing p es t with
  | zero => exact ⟨t, rfl, h⟩
  | succ n ih =>
    obtain ⟨t₁, hadvance, hfree⟩ := advance_file h p es
    rw [Program.steps, bind_apply_apply, hadvance]
    exact ih hfree _ _

/-- **A run** in a file is the run in memory. -/
theorem run_file (h : t.Free path) (p : Program α) (es : Entries) :
    ∃ t', p.run (file Tree.system path) es t = (p.run memory es, t') ∧ t'.Free path := by
  induction p using Program.advance_induction memory generalizing es t with
  | ended p x hp =>
    cases p with
    | done | fail => exact ⟨t, rfl, h⟩
    | get | set | remove | keys => cases hp
  | call p hp ih =>
    obtain ⟨t₁, hadvance, hfree⟩ := advance_file h p es
    obtain ⟨t', hrun, hfree'⟩ := ih es hfree (p.advance memory es).2
    rw [Program.run_advance] at hrun
    refine ⟨t', ?_, hfree'⟩
    rw [Program.run_eq_advance_bind, bind_apply_apply, hadvance, hrun]

end

end Store

end Redirector
