import Mathlib.Data.List.TakeWhile
import Redirector.Proofs.Profile.Operation
import Redirector.Proofs.Store.Program

/-!
# Where the operations on a profile end

In memory no call is refused. So an operation that starts by reading the list comes to its end as
soon as the list can be decoded, and its result and the entries it leaves behind are those of one
equation, given the list. The equations are stated for the list that is read, which is in normal
form: a profile is found under its identifier because no other profile has it.

An operation on a profile that is not in the list ends where the list was read, and so do those that
have nothing to do for the default profile. Adding a profile is the one operation here that asks for
all keys, so its equation is stated for every order in which they may be listed.
-/

namespace Redirector

theorem Text.trim_eq_nil_iff {s : List Char} :
    Text.trim s = [] ↔ ∀ c ∈ s, Text.isBlank c = true := by
  rw [Text.trim, List.reverse_eq_nil_iff, List.dropWhile_eq_nil_iff]
  simp only [List.mem_reverse]
  constructor
  · intro h
    -- The first character that is left would be one that is not blank.
    rw [← List.dropWhile_eq_nil_iff]
    by_contra hne
    have hblank := h _ (List.head_mem hne)
    rw [List.head_dropWhile_not _ hne] at hblank
    cases hblank
  · intro h c hc
    exact h c ((List.dropWhile_suffix _).subset hc)

namespace Profiles

open Store (Program Entries KeyOrder)

/-! ## Before the list is read -/

theorem checkName_of_trim_ne_nil {name : String} (h : Text.trim name.toList ≠ []) :
    checkName name = .done (String.ofList (Text.trim name.toList)) := by
  rw [checkName]
  cases htrim : Text.trim name.toList with
  | nil => exact absurd htrim h
  | cons c cs => rfl

theorem checkName_of_trim_eq_nil {name : String} (h : Text.trim name.toList = []) :
    checkName name = .fail .emptyName := by
  rw [checkName, h]

theorem add_run_of_trim_eq_nil {name : String} (h : Text.trim name.toList = []) (clock : Nat)
    (es : Entries) : (add clock name).run Store.memory es = (.error .emptyName, es) := by
  rw [add, checkName_of_trim_eq_nil h]
  rfl

theorem rename_run_of_trim_eq_nil {name : String} (h : Text.trim name.toList = []) (id : String)
    (es : Entries) : (rename id name).run Store.memory es = (.error .emptyName, es) := by
  rw [rename, checkName_of_trim_eq_nil h]
  rfl

theorem remove_run_default (es : Entries) :
    (remove Profile.defaultId).run Store.memory es = (.ok false, es) := by
  rw [remove, if_pos rfl]
  rfl

/-! ## Once the list is read -/

theorem keyless_list : list.Keyless := Operation.keyless (o := .list) rfl

/-- A removal once the list is known to have the profile. -/
private theorem removed_run (id : String) (ps : List Profile) (es : Entries) :
    (do
      write (Profile.remove id ps)
      if (← storedEditing) = some id then
        retarget (Profile.before? id ps)
      return true : Program Bool).run Store.memory es
      = (.ok true, unaimed id ps (written (Profile.remove id ps) es)) := by
  change (Program.set listKey (Profile.listToJson (Profile.remove id ps))
    (.get editingKey fun j ↦
      if j.bind Json.string? = some id then retarget (Profile.before? id ps) >>= fun _ ↦ .done true
      else .done true)).run Store.memory es = _
  rw [Program.run_memory_set, Program.run_memory_get, unaimed, pointer, written]
  split_ifs
  · cases Profile.before? id ps with
    | some p => rfl
    | none => rfl
  · rfl

/-- What begins with reading the list gives the same in any order of the keys, if what follows a
list that can be read does. -/
theorem list_bind_run_backend_eq (o : KeyOrder) (es : Entries) {α : Type}
    {k : List Profile → Program α} (h : ∀ ps, listing es = .ok ps →
      (k ps).run o.backend (withList es) = (k ps).run Store.memory (withList es)) :
    (list >>= k).run o.backend es = (list >>= k).run Store.memory es := by
  rw [Program.run_bind_apply, Program.run_bind_apply, keyless_list.run_backend]
  rcases hlist : list.run Store.memory es with ⟨f | ps, es'⟩
  · rfl
  · obtain rfl : withList es = es' := congrArg Prod.snd hlist
    exact h ps (congrArg Prod.fst hlist)

section

variable {es : Entries} {ps : List Profile} (hps : listing es = .ok ps)

include hps

/-- What begins with reading the list goes on with the list that is read. -/
theorem list_bind_run_backend (o : KeyOrder) {α : Type} (k : List Profile → Program α) :
    (list >>= k).run o.backend es = (k ps).run o.backend (withList es) := by
  have hlist : list.run o.backend es = (.ok ps, withList es) := by
    rw [keyless_list.run_backend]
    exact Prod.ext hps rfl
  rw [Program.run_bind_apply, hlist]

theorem list_bind_run {α : Type} (k : List Profile → Program α) :
    (list >>= k).run Store.memory es = (k ps).run Store.memory (withList es) :=
  list_bind_run_backend hps .ascending k

/-- The new profile is the same in whatever order the keys are listed. -/
theorem add_run {name : String} (hname : Text.trim name.toList ≠ []) (o : KeyOrder)
    (clock : Nat) :
    let p := newcomer clock (String.ofList (Text.trim name.toList)) ps (withList es)
    (add clock name).run o.backend es
      = (.ok p, aimed p.id (written (ps ++ [p]) (withList es))) := by
  intro p
  have hused := ((o.perm (withList es)).filterMap documentId?).append_left (ps.map Profile.id)
  rw [add, checkName_of_trim_ne_nil hname]
  change (list >>= fun ps ↦ _).run o.backend es = _
  rw [list_bind_run_backend hps]
  refine (Program.run_backend_keys o _ _).trans ?_
  dsimp only [Program.bind]
  rw [Profile.firstUnused_of_perm hused]
  rfl

theorem rename_run {name : String} (hname : Text.trim name.toList ≠ []) (id : String) :
    (rename id name).run Store.memory es
      = (.ok (Profile.listed id ps),
          if Profile.listed id ps then
            written (Profile.rename id (String.ofList (Text.trim name.toList)) ps) (withList es)
          else withList es) := by
  rw [rename, checkName_of_trim_ne_nil hname]
  change (list >>= fun ps ↦ _).run Store.memory es = _
  rw [list_bind_run hps]
  cases Profile.listed id ps with
  | false => rfl
  | true => rfl

theorem remove_run {id : String} (hid : id ≠ Profile.defaultId) :
    (remove id).run Store.memory es
      = (.ok (Profile.listed id ps),
          if Profile.listed id ps then unaimed id ps (written (Profile.remove id ps) (withList es))
          else withList es) := by
  rw [remove, if_neg hid, list_bind_run hps]
  cases Profile.listed id ps with
  | false => rfl
  | true => exact removed_run id ps _

theorem swap_run {p q : Profile} (hp : p ∈ ps) (hq : q ∈ ps) :
    (swap p.id q.id).run Store.memory es
      = (.ok true, written (Profile.swap p q ps) (withList es)) := by
  have hdistinct := (normal_of_listing hps).distinct
  rw [swap, list_bind_run hps, Profile.find?_id_of_mem hdistinct hp,
    Profile.find?_id_of_mem hdistinct hq]
  rfl

theorem swap_run_of_not_mem {a b : String} (h : a ∉ Profile.ids ps ∨ b ∉ Profile.ids ps) :
    (swap a b).run Store.memory es = (.ok false, withList es) := by
  rw [swap, list_bind_run hps]
  rcases h with ha | hb
  · rw [Profile.find?_id_of_not_mem ha]
    rfl
  · rw [Profile.find?_id_of_not_mem hb]
    cases ps.find? (·.id == a) with
    | none => rfl
    | some p => rfl

theorem toggle_run {p : Profile} (hp : p ∈ ps) (hid : p.id ≠ Profile.defaultId) :
    (toggle p.id).run Store.memory es
      = (.ok (some !p.active), written (Profile.setActive p.id (!p.active) ps) (withList es)) := by
  have hdefault : ¬ p.isDefault = true := fun h ↦ hid (Profile.isDefault_iff.mp h)
  rw [toggle, list_bind_run hps, Profile.find?_id_of_mem (normal_of_listing hps).distinct hp]
  dsimp only
  rw [if_neg hdefault]
  rfl

theorem toggle_run_default :
    (toggle Profile.defaultId).run Store.memory es = (.ok (some true), withList es) := by
  obtain ⟨p, hp, hdefault, -⟩ := (normal_of_listing hps).exists_default
  rw [toggle, list_bind_run hps, ← Profile.isDefault_iff.mp hdefault,
    Profile.find?_id_of_mem (normal_of_listing hps).distinct hp]
  dsimp only
  rw [if_pos hdefault]
  rfl

theorem toggle_run_of_not_mem {id : String} (h : id ∉ Profile.ids ps) :
    (toggle id).run Store.memory es = (.ok none, withList es) := by
  rw [toggle, list_bind_run hps, Profile.find?_id_of_not_mem h]
  rfl

theorem setEditing_run (id : String) :
    (setEditing id).run Store.memory es
      = (.ok (Profile.listed id ps),
          if Profile.listed id ps then aimed id (withList es) else withList es) := by
  rw [setEditing, list_bind_run hps]
  cases Profile.listed id ps with
  | false => rfl
  | true => rfl

theorem save_run (text id : String) :
    (save text id).run Store.memory es
      = (.ok (Profile.listed id ps),
          if Profile.listed id ps then saved text id (withList es) else withList es) := by
  rw [save, list_bind_run hps]
  cases Profile.listed id ps with
  | false => rfl
  | true => rfl

end

/-- Adding a profile is the same in any order of the keys, whether the list can be read or not. -/
theorem add_run_backend (o : KeyOrder) (clock : Nat) (name : String) (es : Entries) :
    (add clock name).run o.backend es = (add clock name).run Store.memory es := by
  by_cases hname : Text.trim name.toList = []
  · rw [add, checkName_of_trim_eq_nil hname]
    rfl
  · cases hps : listing es with
    | ok ps => exact (add_run hps hname o clock).trans (add_run hps hname .ascending clock).symm
    | error f =>
      rw [add, checkName_of_trim_ne_nil hname]
      refine list_bind_run_backend_eq o es fun ps hok ↦ ?_
      cases hps.symm.trans hok

end Profiles

end Redirector
