import Mathlib.Tactic.SplitIfs
import Redirector.Files.Tree
import Redirector.Proofs.State

/-!
# Replacing a file in a directory tree

A file is replaced by writing its new content under the temporary path and renaming that. If both go
well, the file has the new content afterwards (`Tree.read_of_replace`): the temporary path is on the
way to no file, since it is a file itself. Both go well as long as nothing but directories is in the
way (`Tree.Free.replace`), and that stays so.
-/

namespace Redirector.Files

namespace Path

theorem length_lt_of_mem_ancestors {p q : Path} (h : q ∈ p.ancestors) : q.length < p.length := by
  obtain ⟨i, hi, rfl⟩ := List.mem_map.mp h
  obtain ⟨hlow, hhigh⟩ := List.mem_range'_1.mp hi
  rw [List.length_take]
  omega

theorem ancestors_append {directory : Path} (h : directory ≠ []) (name : String) :
    ancestors (directory ++ [name]) = directory.ancestors ++ [directory] := by
  obtain ⟨k, hk⟩ := Nat.exists_eq_add_one_of_ne_zero (mt List.eq_nil_of_length_eq_zero h)
  have htake : ∀ i ∈ List.range' 1 k, (directory ++ [name]).take i = directory.take i := by
    intro i hi
    have hle := (List.mem_range'_1.mp hi).2
    exact List.take_append_of_le_length (by omega)
  simp only [ancestors, List.length_append, hk, List.length_singleton, Nat.add_sub_cancel,
    List.range'_concat, List.map_append, List.map_congr_left htake]
  have hlast : (directory ++ [name]).take (1 + 1 * k) = directory := by
    rw [Nat.one_mul, Nat.add_comm, ← hk, List.take_left]
  rw [List.map_singleton, hlast]

theorem ancestors_append_congr (directory : Path) (name name' : String) :
    ancestors (directory ++ [name]) = ancestors (directory ++ [name']) := by
  by_cases h : directory = []
  · subst h
    rfl
  · rw [ancestors_append h, ancestors_append h]

theorem append_not_mem_ancestors (directory : Path) (name name' : String) :
    directory ++ [name] ∉ ancestors (directory ++ [name']) := by
  intro h
  have hlength := length_lt_of_mem_ancestors h
  rw [List.length_append, List.length_append] at hlength
  exact Nat.lt_irrefl _ hlength

theorem fileName?_append (directory : Path) (name : String) :
    fileName? (directory ++ [name]) = if name = ".." ∨ name = "/" then none else some name := by
  rw [fileName?, List.getLast?_concat]
  split
  · next h => cases h
  · next h => rw [Option.some.inj h]; rfl
  · next h => rw [Option.some.inj h]; rfl
  · next hup hroot h =>
    obtain rfl := Option.some.inj h
    rw [if_neg (not_or.mpr ⟨hup, hroot⟩)]

theorem eq_append_of_fileName? {p : Path} {name : String} (h : p.fileName? = some name) :
    p = p.parent ++ [name] := by
  have hne : p ≠ [] := by
    rintro rfl
    cases h
  rw [← List.dropLast_concat_getLast hne, fileName?_append] at h
  split_ifs at h
  rw [← Option.some.inj h]
  exact (List.dropLast_concat_getLast hne).symm

theorem temporary_of_fileName? {p : Path} {name : String} (h : p.fileName? = some name) :
    p.temporary = p.parent ++ [stem name ++ ".tmp"] := by
  rw [temporary, h]

end Path

namespace Tree

variable {t t' : Tree} {p q : Path} {n : Node} {content : ByteArray}

/-! ## What is where -/

theorem fileName?_ne_none (h : t.node? p ≠ some .directory) : p.fileName? ≠ none :=
  fun hnone ↦ h (if_pos hnone)

theorem node?_put_self (h : p.fileName? ≠ none) (n : Node) (t : Tree) :
    (t.put p n).node? p = some n := by
  rw [node?, if_neg h, put, Sorted.get?_insert (fun a ↦ List.lt_irrefl a), if_pos rfl]

theorem node?_put_of_ne (h : q ≠ p) (n : Node) (t : Tree) : (t.put p n).node? q = t.node? q := by
  rw [node?, node?, put, Sorted.get?_insert (fun a ↦ List.lt_irrefl a), if_neg h.symm]

theorem node?_erase_self (h : p.fileName? ≠ none) (t : Tree) : (t.erase p).node? p = none := by
  rw [node?, if_neg h, erase, Sorted.get?_erase, if_pos rfl]

theorem node?_erase_of_ne (h : q ≠ p) (t : Tree) : (t.erase p).node? q = t.node? q := by
  rw [node?, node?, erase, Sorted.get?_erase, if_neg h]

theorem wayTo_eq_ok_iff : t.wayTo p = .ok () ↔ ∀ q ∈ p.ancestors, t.node? q = some .directory := by
  rw [wayTo]
  generalize p.ancestors = qs
  induction qs with
  | nil => simp [List.forM, pure, Except.pure]
  | cons q qs ih =>
    rw [List.forall_mem_cons, ← ih, List.forM]
    rcases t.node? q with _ | _ | _
    · simp [bind, Except.bind]
    · simp [bind, Except.bind]
    · simp [bind, Except.bind]

/-! ## Single steps -/

theorem get_eq_ok_iff : t.get p = .ok n ↔ t.wayTo p = .ok () ∧ t.node? p = some n := by
  rw [get]
  rcases t.wayTo p with e | _
  · simp [bind, Except.bind]
  · rcases t.node? p with _ | n
    · simp [bind, Except.bind]
    · simp [bind, Except.bind]

theorem read_eq_ok_iff :
    t.read p = .ok content ↔ t.wayTo p = .ok () ∧ t.node? p = some (.file content) := by
  rw [← get_eq_ok_iff, read]
  rcases t.get p with e | _ | _
  · simp [bind, Except.bind]
  · simp [bind, Except.bind]
  · simp [bind, Except.bind]

theorem write_eq_ok_iff : t.write p content = .ok t' ↔
    t.wayTo p = .ok () ∧ t.node? p ≠ some .directory ∧ t.put p (.file content) = t' := by
  rw [write]
  rcases t.wayTo p with e | _
  · simp [bind, Except.bind]
  · rcases t.node? p with _ | _ | _
    · simp [bind, Except.bind]
    · simp [bind, Except.bind]
    · simp [bind, Except.bind]

theorem rename_eq_ok_iff {source : Path} : t.rename source p = .ok t' ↔
    ∃ n, t.get source = .ok n ∧ t.wayTo p = .ok () ∧ t.node? p ≠ some .directory ∧
      (t.erase source).put p n = t' := by
  rw [rename]
  rcases t.get source with e | n
  · simp [bind, Except.bind]
  · rcases t.wayTo p with e | _
    · simp [bind, Except.bind]
    · rcases t.node? p with _ | _ | _
      · simp [bind, Except.bind]
      · simp [bind, Except.bind]
      · simp [bind, Except.bind]

theorem attempt_eq_ok_iff (change : Tree → Except Fault Tree) (t : Tree) :
    attempt change t = (.ok (), t') ↔ change t = .ok t' := by
  constructor
  · intro h
    rw [attempt] at h
    rcases hchange : change t with e | t₁
    · rw [hchange] at h
      cases h
    · rw [hchange] at h
      cases h
      rfl
  · intro h
    rw [attempt, h]

theorem run_bind_eq_ok_iff (x : StateM Tree (Except Fault Unit))
    (k : ExceptT Fault (StateM Tree) Unit) (t : Tree) :
    (ExceptT.mk x >>= fun _ ↦ k).run t = (.ok (), t') ↔
      ∃ t₁, x t = (.ok (), t₁) ∧ k.run t₁ = (.ok (), t') := by
  have hstep : (ExceptT.mk x >>= fun _ ↦ k).run t =
      match x t with
      | (.error e, t₁) => (.error e, t₁)
      | (.ok _, t₁) => k.run t₁ := by
    change (x >>= ExceptT.bindCont fun _ ↦ k) t = _
    rw [bind_apply]
    rcases x t with ⟨e | _, t₁⟩
    · rfl
    · rfl
  rw [hstep]
  constructor
  · intro h
    rcases hx : x t with ⟨e | _, t₁⟩
    · rw [hx] at h
      cases h
    · rw [hx] at h
      exact ⟨t₁, rfl, h⟩
  · rintro ⟨t₁, hx, hk⟩
    rw [hx]
    exact hk

theorem replace_eq_ok_iff : system.replace p content t = (.ok (), t') ↔
    ∃ t₁ t₂, (if p.parent = [] then .ok t else t.createDirectory p.parent) = .ok t₁ ∧
      t₁.write p.temporary content = .ok t₂ ∧ t₂.rename p.temporary p = .ok t' := by
  have hlast (t₁ : Tree) : (ExceptT.mk (system.write p.temporary content) >>= fun _ ↦
      ExceptT.mk (system.rename p.temporary p)).run t₁ = (.ok (), t') ↔
        ∃ t₂, t₁.write p.temporary content = .ok t₂ ∧ t₂.rename p.temporary p = .ok t' := by
    rw [run_bind_eq_ok_iff]
    refine exists_congr fun t₂ ↦ and_congr ?_ ?_
    · exact attempt_eq_ok_iff (write · p.temporary content) t₁
    · exact attempt_eq_ok_iff (rename · p.temporary p) t₂
  by_cases h : p.parent = []
  · have hreplace : system.replace p content = (ExceptT.mk (system.write p.temporary content) >>=
        fun _ ↦ ExceptT.mk (system.rename p.temporary p)).run := by
      simp [System.replace, h]
    rw [hreplace, hlast, if_pos h]
    simp
  · have hreplace : system.replace p content = (ExceptT.mk (system.createDirectory p.parent) >>=
        fun _ ↦ ExceptT.mk (system.write p.temporary content) >>=
          fun _ ↦ ExceptT.mk (system.rename p.temporary p)).run := by
      simp [System.replace, h]
    rw [hreplace, run_bind_eq_ok_iff, if_neg h]
    simp only [hlast, exists_and_left]
    refine exists_congr fun t₁ ↦ and_congr_left fun _ ↦ ?_
    exact attempt_eq_ok_iff (createDirectory · p.parent) t

/-! ## The whole -/

/-- **A file that was replaced has its new content.** -/
theorem read_of_replace (h : system.replace p content t = (.ok (), t')) :
    t'.read p = .ok content := by
  obtain ⟨t₁, t₂, -, hwrite, hrename⟩ := replace_eq_ok_iff.mp h
  obtain ⟨-, hfree, rfl⟩ := write_eq_ok_iff.mp hwrite
  obtain ⟨n, hget, hway, htarget, rfl⟩ := rename_eq_ok_iff.mp hrename
  have htemporary : (t₁.put p.temporary (.file content)).node? p.temporary =
      some (.file content) := node?_put_self (fileName?_ne_none hfree) _ _
  obtain rfl : n = .file content := by
    rw [(get_eq_ok_iff.mp hget).2] at htemporary
    exact Option.some.inj htemporary
  rw [read_eq_ok_iff, wayTo_eq_ok_iff]
  refine ⟨fun q hq ↦ ?_, node?_put_self (fileName?_ne_none htarget) _ _⟩
  have hdirectory := wayTo_eq_ok_iff.mp hway q hq
  have hne : q ≠ p := by
    rintro rfl
    exact Nat.lt_irrefl _ (Path.length_lt_of_mem_ancestors hq)
  -- By the time of the renaming there is a file at the temporary path, so nothing is below it.
  have hne' : q ≠ p.temporary := by
    rintro rfl
    rw [htemporary] at hdirectory
    cases hdirectory
  rw [node?_put_of_ne hne, node?_erase_of_ne hne', hdirectory]

/-- There is room for a file: all that is on the way to it is directories, and neither the file nor
the temporary one is a directory. -/
structure Free (t : Tree) (p : Path) : Prop where
  way : ∀ q ∈ p.ancestors, t.node? q = none ∨ t.node? q = some .directory
  target : t.node? p ≠ some .directory
  temporary : t.node? p.temporary ≠ some .directory

theorem free_empty (h : p.fileName? ≠ none) (htemporary : p.temporary.fileName? ≠ none) :
    empty.Free p := by
  have hnode : ∀ q, empty.node? q = if q.fileName? = none then some .directory else none :=
    fun _ ↦ rfl
  refine ⟨fun q _ ↦ ?_, ?_, ?_⟩
  · rw [hnode]
    split_ifs
    · exact Or.inr rfl
    · exact Or.inl rfl
  · rw [hnode, if_neg h]
    exact Option.some_ne_none _ |>.symm
  · rw [hnode, if_neg htemporary]
    exact Option.some_ne_none _ |>.symm

/-- Directories are made one after the other where there is nothing, and nothing else changes. -/
private theorem exists_made {step : Tree → Path → Except Fault Tree}
    (new : ∀ t q, t.node? q = none → step t q = .ok (t.put q .directory))
    (old : ∀ t q, t.node? q = some .directory → step t q = .ok t) {qs : List Path}
    (h : ∀ q ∈ qs, t.node? q = none ∨ t.node? q = some .directory) :
    ∃ t', qs.foldlM step t = .ok t' ∧ (∀ q ∈ qs, t'.node? q = some .directory) ∧
      ∀ q ∉ qs, t'.node? q = t.node? q := by
  induction qs generalizing t with
  | nil => exact ⟨t, rfl, List.forall_mem_nil _, fun _ _ ↦ rfl⟩
  | cons q qs ih =>
    obtain ⟨hq, hqs⟩ := List.forall_mem_cons.mp h
    obtain ⟨t₁, hstep, hmade, hframe⟩ : ∃ t₁, step t q = .ok t₁ ∧
        t₁.node? q = some .directory ∧ ∀ r ≠ q, t₁.node? r = t.node? r := by
      rcases hq with hq | hq
      · have hstart := fileName?_ne_none (t := t) (p := q) (by simp [hq])
        exact ⟨_, new t q hq, node?_put_self hstart _ t, fun r hr ↦ node?_put_of_ne hr _ t⟩
      · exact ⟨t, old t q hq, hq, fun _ _ ↦ rfl⟩
    -- Nothing says that the paths are different, but making a directory twice does no harm.
    have hnext : ∀ r ∈ qs, t₁.node? r = none ∨ t₁.node? r = some .directory := by
      intro r hr
      by_cases hrq : r = q
      · exact Or.inr (hrq ▸ hmade)
      · rw [hframe r hrq]
        exact hqs r hr
    obtain ⟨t', hrest, hmade', hframe'⟩ := ih hnext
    refine ⟨t', ?_, List.forall_mem_cons.mpr ⟨?_, hmade'⟩, fun r hr ↦ ?_⟩
    · rw [List.foldlM_cons, hstep]
      exact hrest
    · by_cases hmem : q ∈ qs
      · exact hmade' q hmem
      · rw [hframe' q hmem, hmade]
    · obtain ⟨hrq, hmem⟩ := not_or.mp (mt List.mem_cons.mpr hr)
      rw [hframe' r hmem, hframe r hrq]

theorem createDirectory_of_way
    (h : ∀ q ∈ p.ancestors ++ [p], t.node? q = none ∨ t.node? q = some .directory) :
    ∃ t', t.createDirectory p = .ok t' ∧
      (∀ q ∈ p.ancestors ++ [p], t'.node? q = some .directory) ∧
      ∀ q ∉ p.ancestors ++ [p], t'.node? q = t.node? q :=
  exists_made (fun t q hq ↦ by rw [hq]) (fun t q hq ↦ by rw [hq]) h

theorem exists_directory {directory : Path} {name : String}
    (h : ∀ q ∈ Path.ancestors (directory ++ [name]), t.node? q = none ∨
      t.node? q = some .directory) :
    ∃ t', (if directory = [] then .ok t else t.createDirectory directory) = .ok t' ∧
      (∀ q ∈ Path.ancestors (directory ++ [name]), t'.node? q = some .directory) ∧
      ∀ q ∉ Path.ancestors (directory ++ [name]), t'.node? q = t.node? q := by
  by_cases hdirectory : directory = []
  · subst hdirectory
    exact ⟨t, rfl, List.forall_mem_nil _, fun _ _ ↦ rfl⟩
  · rw [Path.ancestors_append hdirectory] at h ⊢
    rw [if_neg hdirectory]
    exact createDirectory_of_way h

/-- A file whose directory is there can be written and put in its place. -/
theorem exists_renamed (hway : ∀ q ∈ p.ancestors, t.node? q = some .directory)
    (htarget : t.node? p ≠ some .directory) (htemporary : t.node? p.temporary ≠ some .directory)
    (hancestors : p.temporary.ancestors = p.ancestors) (content : ByteArray) :
    ∃ t₁ t', t.write p.temporary content = .ok t₁ ∧ t₁.rename p.temporary p = .ok t' ∧
      t'.Free p := by
  have hp : p ∉ p.ancestors := fun h ↦ Nat.lt_irrefl _ (Path.length_lt_of_mem_ancestors h)
  have hq : p.temporary ∉ p.ancestors := by
    intro h
    rw [← hancestors] at h
    exact Nat.lt_irrefl _ (Path.length_lt_of_mem_ancestors h)
  have hwrite : t.write p.temporary content = .ok (t.put p.temporary (.file content)) := by
    refine write_eq_ok_iff.mpr ⟨wayTo_eq_ok_iff.mpr ?_, htemporary, rfl⟩
    rwa [hancestors]
  generalize ht₁ : t.put p.temporary (.file content) = t₁ at hwrite
  have hway₁ : ∀ q ∈ p.ancestors, t₁.node? q = some .directory := by
    intro q hmem
    rw [← ht₁, node?_put_of_ne (ne_of_mem_of_not_mem hmem hq), hway q hmem]
  have hfile : t₁.node? p.temporary = some (.file content) := by
    rw [← ht₁, node?_put_self (fileName?_ne_none htemporary)]
  -- A file whose extension is that of temporary files is its own temporary file.
  have htarget₁ : t₁.node? p ≠ some .directory := by
    by_cases hpq : p = p.temporary
    · rw [hpq, hfile]
      simp
    · rwa [← ht₁, node?_put_of_ne hpq]
  have hrename : t₁.rename p.temporary p =
      .ok ((t₁.erase p.temporary).put p (.file content)) := by
    refine rename_eq_ok_iff.mpr ⟨_, get_eq_ok_iff.mpr ⟨wayTo_eq_ok_iff.mpr ?_, hfile⟩,
      wayTo_eq_ok_iff.mpr hway₁, htarget₁, rfl⟩
    rwa [hancestors]
  refine ⟨t₁, _, hwrite, hrename, fun q hmem ↦ Or.inr ?_, ?_, ?_⟩
  · rw [node?_put_of_ne (ne_of_mem_of_not_mem hmem hp),
      node?_erase_of_ne (ne_of_mem_of_not_mem hmem hq), hway₁ q hmem]
  · rw [node?_put_self (fileName?_ne_none htarget)]
    simp
  · by_cases hpq : p.temporary = p
    · rw [hpq, node?_put_self (fileName?_ne_none htarget)]
      simp
    · rw [node?_put_of_ne hpq, node?_erase_self (fileName?_ne_none htemporary)]
      simp

/-- **A file that there is room for can be replaced**, and there is still room for it. -/
theorem Free.replace (h : t.Free p) (content : ByteArray) :
    ∃ t', system.replace p content t = (.ok (), t') ∧ t'.Free p := by
  obtain ⟨name, hname⟩ := Option.ne_none_iff_exists'.mp (fileName?_ne_none h.target)
  have htemporary := Path.temporary_of_fileName? hname
  obtain ⟨directory, rfl⟩ : ∃ directory, p = directory ++ [name] :=
    ⟨_, Path.eq_append_of_fileName? hname⟩
  rw [Path.parent, List.dropLast_concat] at htemporary
  have hnot := Path.append_not_mem_ancestors directory
  obtain ⟨t₁, hmake, hmade, hframe⟩ := exists_directory h.way
  obtain ⟨t₂, t', hwrite, hrename, hfree⟩ := exists_renamed (t := t₁) hmade
    (by rw [hframe _ (hnot _ _)]; exact h.target)
    (by rw [htemporary, hframe _ (hnot _ _), ← htemporary]; exact h.temporary)
    (by rw [htemporary]; exact Path.ancestors_append_congr _ _ _) content
  refine ⟨t', replace_eq_ok_iff.mpr ⟨t₁, t₂, ?_, hwrite, hrename⟩, hfree⟩
  rwa [Path.parent, List.dropLast_concat]

/-- A file is replaced and can be read then, or there is a fault, and no room for the file. -/
theorem replace_cases (p : Path) (content : ByteArray) (t : Tree) :
    (∃ f t', system.replace p content t = (.error f, t') ∧ ¬ t.Free p) ∨
      ∃ t', system.replace p content t = (.ok (), t') ∧ t'.read p = .ok content ∧
        (t.Free p → t'.Free p) := by
  rcases hreplace : system.replace p content t with ⟨f | _, t'⟩
  · refine Or.inl ⟨f, t', rfl, fun hfree ↦ ?_⟩
    obtain ⟨t₁, hok, -⟩ := hfree.replace content
    rw [hreplace] at hok
    cases hok
  · refine Or.inr ⟨t', rfl, read_of_replace hreplace, fun hfree ↦ ?_⟩
    obtain ⟨t₁, hok, hfree⟩ := hfree.replace content
    rw [hreplace] at hok
    cases hok
    exact hfree

end Tree

end Redirector.Files
