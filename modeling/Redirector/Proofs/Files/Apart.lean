import Mathlib.Data.List.Basic
import Redirector.Daemon.Basic
import Redirector.Proofs.Engine.File
import Redirector.Proofs.Files.Tree
import Redirector.Proofs.Profile.Mirror
import Redirector.Regex.Automaton

/-!
# Files that are replaced apart from each other

Replacing a file touches two paths, its own and the temporary one. What stands at any other path is
left alone (`Tree.spares_replace`), up to directories that are made on the way. So two files can be
replaced without regard to each other if they have no such path in common, and that is a matter of
the temporary paths alone: the temporary path of a temporary path is itself, so a file whose path is
the temporary one of another has the same temporary path (`Path.disjoint_written_iff`).
-/

namespace Redirector.Files

namespace Path

/-! ## Names of files -/

/-- The paths that replacing a file writes to. -/
def written (p : Path) : List Path := [p, p.temporary]

theorem stem_ne_empty {name : String} (h : name ≠ "") : stem name ≠ "" := by
  rw [stem]
  split
  · exact h
  · next hne =>
    rw [ne_eq, String.ofList_eq_empty_iff, List.reverse_eq_nil_iff]
    exact hne

theorem stem_append_extension {name : String} (h : name ≠ "") : stem (name ++ ".tmp") = name := by
  have hreverse : (name ++ ".tmp").toList.reverse = 'p' :: 'm' :: 't' :: '.' :: name.toList.reverse
      := by
    rw [String.toList_append, List.reverse_append]
    rfl
  have hdrop : ((name ++ ".tmp").toList.reverse.dropWhile (· ≠ '.')).drop 1
      = name.toList.reverse := by
    rw [hreverse]
    rfl
  rw [stem, hdrop]
  split
  · next hnil =>
    rw [List.reverse_eq_nil_iff, String.toList_eq_nil_iff] at hnil
    exact absurd hnil h
  · rw [List.reverse_reverse, String.ofList_toList]

theorem mem_of_mem_up {p : Path} {name : String} (h : name ∈ up p) : name ∈ p ∨ name = ".." := by
  rw [up] at h
  split at h
  · exact (List.mem_append.mp h).imp_right List.mem_singleton.mp
  · exact (List.mem_append.mp h).imp_right List.mem_singleton.mp
  · exact .inl h
  · exact .inl (List.dropLast_subset _ h)

theorem empty_not_mem_ofString (s : String) : "" ∉ ofString s := by
  have hstep : ∀ (p : Path) (name : String), "" ∉ p → "" ∉ step p name := by
    intro p name hp
    rw [step]
    split_ifs with hname hup
    · exact hp
    · rw [List.mem_append, List.mem_singleton]
      rintro (hmem | rfl)
      · rcases mem_of_mem_up hmem with hmem | heq
        · exact hp (List.dropLast_subset _ hmem)
        · exact absurd heq (by decide)
      · exact hname (.inl rfl)
    · rw [List.mem_append, List.mem_singleton]
      rintro (hmem | rfl)
      · exact hp hmem
      · exact hname (.inl rfl)
  have hfold : ∀ (names : List String) (p : Path), "" ∉ p → "" ∉ names.foldl step p := by
    intro names
    induction names with
    | nil => exact fun p hp ↦ hp
    | cons name names ih => exact fun p hp ↦ ih _ (hstep p name hp)
  rw [ofString]
  refine hfold _ _ ?_
  split_ifs
  · decide
  · exact List.not_mem_nil

/-! ## Temporary paths -/

theorem temporary_temporary {p : Path} (h : "" ∉ p) : p.temporary.temporary = p.temporary := by
  cases hname : p.fileName? with
  | none =>
    have htemporary : p.temporary = p := by rw [temporary, hname]
    rw [htemporary, htemporary]
  | some name =>
    have hne : name ≠ "" := by
      rintro rfl
      rw [eq_append_of_fileName? hname] at h
      exact h List.mem_concat_self
    have hlast : fileName? (p.parent ++ [stem name ++ ".tmp"]) = some (stem name ++ ".tmp") := by
      have hlength : (stem name ++ ".tmp").length = (stem name).length + 4 :=
        String.length_append _ _
      rw [fileName?_append, if_neg]
      rintro (heq | heq)
      · rw [heq] at hlength
        have hshort : "..".length = 2 := by decide
        omega
      · rw [heq] at hlength
        have hshort : "/".length = 1 := by decide
        omega
    rw [temporary_of_fileName? hname, temporary_of_fileName? hlast, parent, List.dropLast_concat,
      stem_append_extension (stem_ne_empty hne)]

/-- **When two files are replaced apart from each other.** -/
theorem disjoint_written_iff {p q : Path} (hp : "" ∉ p) (hq : "" ∉ q) :
    List.Disjoint p.written q.written ↔ p.temporary ≠ q.temporary := by
  constructor
  · intro hdisjoint heq
    have hmem : q.temporary ∈ q.written := by simp [written]
    exact hdisjoint (by simp [written]) (heq ▸ hmem)
  · -- Whichever two of the paths are equal, so are their temporary paths.
    intro hne a ha hb
    have htemporary : ∀ {r : Path}, "" ∉ r → a ∈ r.written → a.temporary = r.temporary := by
      intro r hr hmem
      rcases List.mem_pair.mp hmem with rfl | rfl
      · rfl
      · exact temporary_temporary hr
    exact hne ((htemporary hp ha).symm.trans (htemporary hq hb))

end Path

namespace Tree

variable {α β : Type} {t t' : Tree} {p q : Path}

/-- The content of the file at a path, without a look at the way there. -/
def file? (t : Tree) (p : Path) : Option ByteArray :=
  match t.node? p with
  | some (.file content) => some content
  | _ => none

theorem file?_congr (h : t'.node? q = t.node? q) : t'.file? q = t.file? q := by
  rw [file?, file?, h]

/-! ## What is left alone -/

/-- Whatever is done to a tree, the file at a path stays as it was; if there is none, none is
made. -/
def Spares (q : Path) (x : StateM Tree α) : Prop := ∀ t, (x t).2.file? q = t.file? q

theorem spares_of_snd_eq {x : StateM Tree α} (h : ∀ t, (x t).2 = t) : Spares q x :=
  fun t ↦ congrArg (·.file? q) (h t)

theorem spares_pure (a : α) : Spares q (pure a : StateM Tree α) := fun _ ↦ rfl

theorem Spares.bind {x : StateM Tree α} {k : α → StateM Tree β} (hx : Spares q x)
    (hk : ∀ a, Spares q (k a)) : Spares q (x >>= k) := by
  intro t
  rw [bind_apply, hk, hx]

theorem spares_attempt {change : Tree → Except Fault Tree}
    (h : ∀ t t', change t = .ok t' → t'.file? q = t.file? q) : Spares q (attempt change) := by
  intro t
  rw [attempt]
  rcases hchange : change t with e | t'
  · rfl
  · exact h t t' hchange

theorem spares_write (h : q ≠ p) (content : ByteArray) : Spares q (system.write p content) := by
  refine spares_attempt fun t t' hwrite ↦ ?_
  obtain ⟨-, -, rfl⟩ := write_eq_ok_iff.mp hwrite
  exact file?_congr (node?_put_of_ne h _ t)

theorem spares_rename {source : Path} (hsource : q ≠ source) (htarget : q ≠ p) :
    Spares q (system.rename source p) := by
  refine spares_attempt fun t t' hrename ↦ ?_
  obtain ⟨n, -, -, -, rfl⟩ := rename_eq_ok_iff.mp hrename
  rw [file?_congr (node?_put_of_ne htarget n _), file?_congr (node?_erase_of_ne hsource t)]

/-- Directories are only made where there is nothing. -/
theorem file?_put_directory (h : t.node? p = none) : (t.put p .directory).file? q = t.file? q := by
  by_cases hpq : q = p
  · subst hpq
    have hstart : q.fileName? ≠ none := fileName?_ne_none (t := t) (by simp [h])
    rw [file?, file?, node?_put_self hstart, h]
  · exact file?_congr (node?_put_of_ne hpq _ t)

theorem spares_createDirectory (p : Path) : Spares q (system.createDirectory p) := by
  refine spares_attempt fun t t' hcreate ↦ ?_
  rw [createDirectory] at hcreate
  generalize p.ancestors ++ [p] = qs at hcreate
  induction qs generalizing t with
  | nil => rw [← Except.ok.inj hcreate]
  | cons r qs ih =>
    rw [List.foldlM_cons] at hcreate
    rcases hnode : t.node? r with _ | content | _
    · rw [hnode] at hcreate
      rw [ih _ hcreate, file?_put_directory hnode]
    · rw [hnode] at hcreate
      cases hcreate
    · rw [hnode] at hcreate
      exact ih _ hcreate

theorem Spares.andThen {x : StateM Tree (Except Fault Unit)}
    {k : ExceptT Fault (StateM Tree) Unit} (hx : Spares q x) (hk : Spares q k.run) :
    Spares q (ExceptT.mk x >>= fun _ ↦ k).run := by
  change Spares q (x >>= ExceptT.bindCont fun _ ↦ k)
  refine hx.bind fun answer ↦ ?_
  cases answer with
  | ok => exact hk
  | error e => exact spares_pure _

/-- **Replacing a file leaves the others alone.** -/
theorem spares_replace (h : q ∉ p.written) (content : ByteArray) :
    Spares q (system.replace p content) := by
  rw [Path.written, List.mem_pair, not_or] at h
  have hfile : Spares q (ExceptT.mk (system.write p.temporary content) >>=
      fun _ ↦ ExceptT.mk (system.rename p.temporary p)).run :=
    (spares_write h.2 content).andThen (spares_rename h.2 h.1)
  rw [System.replace]
  split_ifs
  · exact hfile
  · exact (spares_createDirectory p.parent).andThen hfile

end Tree

end Redirector.Files

namespace Redirector

/-! ## The two files of the daemon

The daemon keeps its profiles in one file and the installed rules in another, and replaces each of
them without regard to the other. Both sides touch no other paths than the ones that replacing their
own file writes to (`Profiles.spares_observe`, `Engine.spares_serve`), so all is well as long as the
two files have no such path in common (`Daemon.files_apart`).

The check of the settings compares the two paths as texts. It therefore lets settings pass whose
files differ in nothing but the extension, or whose paths differ in how they are written, and then
one side takes the file of the other away (`Daemon.files_overlap`).
-/

open Files (Path Tree)
open Files.Tree (Spares spares_pure spares_of_snd_eq spares_replace)

/-! ### The profile store -/

namespace Store

variable {α : Type} {path q : Path}

theorem spares_bind {σ β : Type} {x : StateT σ (StateM Tree) α} {k : α → StateT σ (StateM Tree) β}
    (hx : ∀ s, Spares q (x s)) (hk : ∀ a s, Spares q (k a s)) (s : σ) : Spares q ((x >>= k) s) :=
  fun t ↦ by rw [bind_apply_apply, hk, hx]

theorem spares_load (path : Path) : Spares q (load Tree.system path) := by
  refine Spares.bind (spares_of_snd_eq fun _ ↦ rfl) fun isThere ↦ ?_
  split_ifs
  · refine Spares.bind (spares_of_snd_eq fun _ ↦ rfl) fun content ↦ ?_
    cases content with
    | ok content => exact spares_pure _
    | error f => exact spares_pure _
  · exact spares_pure _

theorem spares_persist (h : q ∉ path.written) (es : Entries) :
    Spares q (persist Tree.system path es) :=
  (spares_replace h es.encode).bind fun _ ↦ spares_pure _

theorem spares_set (h : q ∉ path.written) (key : String) (value : Json) (es : Entries) :
    Spares q ((file Tree.system path).set key value es) :=
  (spares_persist h _).bind fun _ ↦ spares_pure _

theorem spares_remove (h : q ∉ path.written) (key : String) (es : Entries) :
    Spares q ((file Tree.system path).remove key es) := by
  change Spares q (if Sorted.contains key es then _ else _)
  split_ifs
  · exact (spares_persist h _).bind fun _ ↦ spares_pure _
  · exact spares_pure _

/-- **A program on a store in a file** touches no other files. -/
theorem spares_run (h : q ∉ path.written) (p : Program α) (es : Entries) :
    Spares q (p.run (file Tree.system path) es) := by
  induction p generalizing es with
  | done a => exact spares_pure _
  | fail e => exact spares_pure _
  | get key next ih =>
    rw [Program.run]
    refine spares_bind (fun _ ↦ spares_pure _) (fun answer ↦ ?_) es
    cases answer with
    | ok v => exact ih v
    | error e => exact fun _ ↦ spares_pure _
  | set key value next ih =>
    rw [Program.run]
    refine spares_bind (spares_set h key value) (fun answer ↦ ?_) es
    cases answer with
    | ok => exact ih
    | error e => exact fun _ ↦ spares_pure _
  | remove key next ih =>
    rw [Program.run]
    refine spares_bind (spares_remove h key) (fun answer ↦ ?_) es
    cases answer with
    | ok => exact ih
    | error e => exact fun _ ↦ spares_pure _
  | keys next ih =>
    rw [Program.run]
    refine spares_bind (fun _ ↦ spares_pure _) (fun answer ↦ ?_) es
    cases answer with
    | ok ks => exact ih ks
    | error e => exact fun _ ↦ spares_pure _

end Store

namespace Profiles

variable {path q : Path}

theorem spares_inFile (h : q ∉ path.written) (e : Event) (es : Store.Entries) :
    Spares q (e.inFile path es) := by
  cases e with
  | operation o => exact Store.spares_run h o.program es
  | reload | reopen =>
    refine (Store.spares_load path).bind fun answer ↦ ?_
    cases answer with
    | ok es' => exact spares_pure _
    | error f => exact spares_pure _

theorem spares_observeInFile (h : q ∉ path.written) (e : Event) (es : Store.Entries) :
    Spares q (observeInFile path e es) :=
  (spares_inFile h e es).bind fun _ ↦ (Store.spares_load path).bind fun _ ↦ spares_pure _

/-- **Whatever happens to a profile store in a file**, other files are left alone. -/
theorem spares_observe (h : q ∉ path.written) (events : List Event) (es : Store.Entries) :
    Spares q (observe (observeInFile path) events es) := by
  induction events generalizing es with
  | nil => exact spares_pure _
  | cons e events ih =>
    intro t
    rw [observeInFile_cons, ih, spares_observeInFile h]

end Profiles

/-! ### The engine -/

namespace Engine

variable {check : Regex.Check} {path q : Path}

theorem spares_load (path : Path) : Spares q (load Tree.system path) := by
  refine Spares.bind (spares_of_snd_eq fun _ ↦ rfl) fun content ↦ spares_of_snd_eq fun t ↦ ?_
  rcases content with f | content
  · cases f with
    | missing | taken | notDirectory | isDirectory | notText | other => rfl
  · rfl

theorem spares_update (h : q ∉ path.written) (u : RuleUpdate) :
    Spares q ((file check Tree.system path).update u) := by
  refine (spares_load path).bind fun answer ↦ ?_
  cases answer with
  | error f => exact spares_pure _
  | ok table =>
    dsimp only
    cases table.update check u with
    | error r => exact spares_pure _
    | ok table' => exact (spares_replace h _).bind fun _ ↦ spares_pure _

theorem spares_turn (h : q ∉ path.written) (u : RuleUpdate) :
    Spares q (turn (file check Tree.system path) u) :=
  (spares_update h u).bind fun _ ↦
    ((spares_load path).bind fun _ ↦ spares_pure _).bind fun _ ↦
      ((spares_load path).bind fun _ ↦ spares_pure _).bind fun _ ↦ spares_pure _

/-- **Whatever an engine in a file is asked for**, other files are left alone. -/
theorem spares_serve (h : q ∉ path.written) (us : List RuleUpdate) :
    Spares q (serve (file check Tree.system path) us) := by
  induction us with
  | nil => exact spares_pure _
  | cons u us ih =>
    intro t
    rw [serve_cons, ih, spares_turn h]

end Engine

/-! ### Both files -/

namespace Daemon

/-- **The two files of the daemon** have no path in common that is written to exactly if their
temporary paths differ. Then nothing that is done with the profiles changes the file with the rules
or its temporary one, and the other way round. -/
theorem files_apart (check : Regex.Check) (s : Settings) :
    (List.Disjoint (storePath s).written (rulesPath s).written ↔
        (storePath s).temporary ≠ (rulesPath s).temporary) ∧
      ((storePath s).temporary ≠ (rulesPath s).temporary →
        (∀ q ∈ (rulesPath s).written, ∀ events es,
          Spares q (Profiles.observe (Profiles.observeInFile (storePath s)) events es)) ∧
        ∀ q ∈ (storePath s).written, ∀ us,
          Spares q (Engine.serve (Engine.file check Tree.system (rulesPath s)) us)) := by
  have hiff := Path.disjoint_written_iff (Path.empty_not_mem_ofString s.storage.path)
    (Path.empty_not_mem_ofString s.engine.rulesPath)
  refine ⟨hiff, fun hne ↦ ?_⟩
  have hdisjoint := hiff.mpr hne
  exact ⟨fun q hq ↦ Profiles.spares_observe fun hmem ↦ hdisjoint hmem hq,
    fun q hq ↦ Engine.spares_serve fun hmem ↦ hdisjoint hq hmem⟩

/-- With the default settings, the engine leaves the profiles alone. -/
theorem files_apart_default :
    (storePath {}).temporary ≠ (rulesPath {}).temporary ∧
      List.Disjoint (storePath {}).written (rulesPath {}).written ∧
      ∀ us, Spares ["forward-rules", "profiles.json"]
        (Engine.serve
          (Engine.file Regex.check Tree.system ["forward-rules", "installed-rules.json"]) us) := by
  have hne : (storePath {}).temporary ≠ (rulesPath {}).temporary := by decide +kernel
  have hstore : storePath {} = ["forward-rules", "profiles.json"] := by decide +kernel
  have hrules : rulesPath {} = ["forward-rules", "installed-rules.json"] := by decide +kernel
  refine ⟨hne, (files_apart Regex.check {}).1.mpr hne, fun us ↦ ?_⟩
  have hspares := ((files_apart Regex.check {}).2 hne).2 (storePath {}) List.mem_cons_self us
  rwa [hrules, hstore] at hspares

/-- Settings that pass the check although the store file is the temporary file of the rules: the
first update of the engine takes it away. -/
theorem files_overlap :
    let s : Settings := { storage := ⟨"rules.tmp"⟩, engine := ⟨"rules.json"⟩ }
    let t := Tree.empty.put (storePath s) (.file (Store.Entries.encode []))
    let r : Rule := ⟨1, 1, .modifyHeaders [.set "X" "Y"], ⟨none, some "a.com", [.image]⟩⟩
    s.violations Regex.check = [] ∧
      ¬ List.Disjoint (storePath s).written (rulesPath s).written ∧
      (t.file? (storePath s)).isSome ∧
      (((Engine.file Regex.check Tree.system (rulesPath s)).update (.adding [r]) t).2.file?
        (storePath s)).isNone := by
  intro s t r
  have hshared : (rulesPath s).temporary = storePath s := by decide +kernel
  refine ⟨by decide +kernel, fun hdisjoint ↦ ?_, by decide +kernel, by decide +kernel⟩
  have hmem : storePath s ∈ (rulesPath s).written :=
    List.mem_cons_of_mem _ (List.mem_singleton.mpr hshared.symm)
  exact hdisjoint List.mem_cons_self hmem

end Daemon

end Redirector
