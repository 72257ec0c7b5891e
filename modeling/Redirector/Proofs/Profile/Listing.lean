import Mathlib.Data.List.Nodup
import Mathlib.Data.List.TakeWhile
import Mathlib.Logic.Equiv.Basic
import Mathlib.Tactic.SplitIfs
import Redirector.Profile.Basic
import Std.Data.String.ToNat

/-!
# The normal form of profile lists

A list in normal form is one that whoever reads it can rely on: an identifier names one profile, and
the default profile is there and active (`Normal`). `normalize` makes such a list of any list and
keeps what can be kept (`Normalizes`); it leaves a list in normal form alone, so that a list which
was stored in normal form is read back as it is.

## Changes that keep it

Each change of a list is a pass over its entries. It keeps the normal form because it keeps the
identifiers, or takes one away that is not the default one, or exchanges two of them, or adds one
that is new. That there is always a new one to be found is a matter of counting: more numbers are
tried than texts are used (`toString_firstUnused`).
-/

namespace Redirector.Profile

def ids (ps : List Profile) : List String := ps.map Profile.id

theorem mem_ids_of_mem {p : Profile} {ps : List Profile} (h : p ∈ ps) : p.id ∈ ids ps :=
  List.mem_map_of_mem h

theorem listed_iff {id : String} {ps : List Profile} : listed id ps = true ↔ id ∈ ids ps := by
  rw [listed, List.any_eq_true, ids, List.mem_map]
  simp only [beq_iff_eq]

theorem listed_eq_false {id : String} {ps : List Profile} (h : id ∉ ids ps) :
    listed id ps = false := Bool.eq_false_iff.mpr fun hlisted ↦ h (listed_iff.mp hlisted)

theorem mem_of_find?_id {id : String} {p : Profile} {ps : List Profile}
    (h : ps.find? (·.id == id) = some p) : p ∈ ps ∧ p.id = id := by
  have hid := List.find?_some h
  exact ⟨List.mem_of_find?_eq_some h, eq_of_beq hid⟩

theorem not_mem_ids_of_find? {id : String} {ps : List Profile}
    (h : ps.find? (·.id == id) = none) : id ∉ ids ps := by
  rw [← listed_iff, listed, List.any_eq_true]
  rintro ⟨q, hq, hqid⟩
  exact List.find?_eq_none.mp h q hq hqid

theorem find?_id_of_not_mem {id : String} {ps : List Profile} (h : id ∉ ids ps) :
    ps.find? (·.id == id) = none := by
  cases hfound : ps.find? (·.id == id) with
  | none => rfl
  | some q =>
    obtain ⟨hq, rfl⟩ := mem_of_find?_id hfound
    exact absurd (mem_ids_of_mem hq) h

theorem isDefault_iff {p : Profile} : p.isDefault = true ↔ p.id = defaultId := by
  rw [isDefault, beq_iff_eq]

/-- A list in which an identifier names one profile, and the default profile is there, once, and is
active. -/
structure Normal (ps : List Profile) : Prop where
  distinct : (ids ps).Nodup
  default : (ps.filter isDefault).map Profile.active = [true]

instance (ps : List Profile) : Decidable (Normal ps) :=
  decidable_of_iff ((ids ps).Nodup ∧ (ps.filter isDefault).map Profile.active = [true])
    ⟨fun h ↦ ⟨h.1, h.2⟩, fun h ↦ ⟨h.1, h.2⟩⟩

section

variable {ps : List Profile}

/-- An identifier that occurs once names one profile. -/
theorem eq_of_id_eq (h : (ids ps).Nodup) {p q : Profile} (hp : p ∈ ps) (hq : q ∈ ps)
    (hid : p.id = q.id) : p = q := List.inj_on_of_nodup_map h hp hq hid

theorem find?_id_of_mem (h : (ids ps).Nodup) {p : Profile} (hp : p ∈ ps) :
    ps.find? (·.id == p.id) = some p := by
  cases hfound : ps.find? (·.id == p.id) with
  | none => exact absurd (mem_ids_of_mem hp) (not_mem_ids_of_find? hfound)
  | some q =>
    obtain ⟨hq, hid⟩ := mem_of_find?_id hfound
    rw [eq_of_id_eq h hq hp hid]

theorem filter_isDefault_eq (h : (ids ps).Nodup) {p : Profile} (hp : p ∈ ps)
    (hdefault : p.isDefault = true) : ps.filter isDefault = [p] := by
  induction ps with
  | nil => cases hp
  | cons q ps ih =>
    obtain ⟨hq, hps⟩ := List.nodup_cons.mp h
    rcases List.mem_cons.mp hp with rfl | hp
    · rw [List.filter_cons_of_pos hdefault, List.filter_eq_nil_iff.mpr]
      intro r hr hrdefault
      rw [isDefault_iff] at hdefault hrdefault
      exact hq (hdefault.trans hrdefault.symm ▸ mem_ids_of_mem hr)
    · have hqdefault : ¬ q.isDefault = true := by
        rw [isDefault_iff] at hdefault ⊢
        intro hid
        exact hq (hid.trans hdefault.symm ▸ mem_ids_of_mem hp)
      rw [List.filter_cons_of_neg hqdefault, ih hps hp]

theorem Normal.of_mem (h : (ids ps).Nodup) {p : Profile} (hp : p ∈ ps)
    (hdefault : p.isDefault = true) (hactive : p.active = true) : Normal ps where
  distinct := h
  default := by rw [filter_isDefault_eq h hp hdefault, List.map_singleton, hactive]

theorem Normal.exists_default (h : Normal ps) :
    ∃ p ∈ ps, p.isDefault = true ∧ p.active = true := by
  obtain ⟨p, hp, hactive⟩ := List.map_eq_singleton_iff.mp h.default
  have hmem : p ∈ ps.filter isDefault := hp ▸ List.mem_singleton_self p
  exact ⟨p, (List.mem_filter.mp hmem).1, (List.mem_filter.mp hmem).2, hactive⟩

theorem Normal.defaultId_mem (h : Normal ps) : defaultId ∈ ids ps := by
  obtain ⟨p, hp, hdefault, -⟩ := h.exists_default
  exact isDefault_iff.mp hdefault ▸ mem_ids_of_mem hp

theorem Normal.ne_nil (h : Normal ps) : ps ≠ [] := by
  rintro rfl
  cases h.default

theorem normal_default : Normal [Profile.default] := by decide

end

/-! ## Bringing a list into normal form -/

section

variable {ps : List Profile}

private theorem ids_distinct (seen : List String) (ps : List Profile) :
    ids (distinct seen ps) = ((ids ps).filter (· ∉ seen)).eraseDups := by
  induction ps generalizing seen with
  | nil => rfl
  | cons p ps ih =>
    have hcons : ids (p :: ps) = p.id :: ids ps := rfl
    rw [distinct, hcons]
    split_ifs with hseen
    · rw [List.filter_cons_of_neg (by simpa using hseen)]
      exact ih seen
    · rw [List.filter_cons_of_pos (by simpa using hseen), List.eraseDups_cons, List.filter_filter]
      refine congrArg (p.id :: ·) ((ih _).trans (congrArg List.eraseDups ?_))
      refine List.filter_congr fun id _ ↦ ?_
      rw [Bool.eq_iff_iff]
      simp

private theorem nodup_distinct (seen : List String) (ps : List Profile) :
    (ids (distinct seen ps)).Nodup := by
  induction ps generalizing seen with
  | nil => exact List.nodup_nil
  | cons p ps ih =>
    rw [distinct]
    split_ifs
    · exact ih seen
    · refine List.nodup_cons.mpr ⟨fun hmem ↦ ?_, ih _⟩
      rw [← ids, ids_distinct, List.mem_eraseDups, List.mem_filter] at hmem
      simp at hmem

private theorem mem_distinct {seen : List String} {ps : List Profile} {p : Profile}
    (hfirst : ps.find? (·.id == p.id) = some p) (hseen : p.id ∉ seen) : p ∈ distinct seen ps := by
  induction ps generalizing seen with
  | nil => cases hfirst
  | cons q ps ih =>
    rw [List.find?_cons] at hfirst
    rw [distinct]
    by_cases hid : q.id = p.id
    · rw [beq_iff_eq.mpr hid] at hfirst
      obtain rfl : q = p := Option.some.inj hfirst
      rw [if_neg hseen]
      exact List.mem_cons_self
    · rw [beq_eq_false_iff_ne.mpr hid] at hfirst
      split_ifs
      · exact ih hfirst hseen
      · refine List.mem_cons_of_mem _ (ih hfirst ?_)
        exact List.not_mem_cons_of_ne_of_not_mem (Ne.symm hid) hseen

private theorem distinct_eq_self {seen : List String} (h : (ids ps).Nodup)
    (hseen : ∀ id ∈ ids ps, id ∉ seen) : distinct seen ps = ps := by
  induction ps generalizing seen with
  | nil => rfl
  | cons p ps ih =>
    obtain ⟨hp, hps⟩ := List.nodup_cons.mp h
    rw [distinct, if_neg (hseen p.id List.mem_cons_self), ih hps]
    intro id hid
    refine List.not_mem_cons_of_ne_of_not_mem ?_ (hseen id (List.mem_cons_of_mem _ hid))
    rintro rfl
    exact hp hid

@[simp] theorem id_activateDefault (p : Profile) : (activateDefault p).id = p.id := by
  rw [activateDefault]
  split_ifs
  · rfl
  · rfl

@[simp] theorem isDefault_activateDefault (p : Profile) :
    (activateDefault p).isDefault = p.isDefault := by
  rw [isDefault, isDefault, id_activateDefault]

theorem activateDefault_of_active {p : Profile} (h : p.isDefault = true → p.active = true) :
    activateDefault p = p := by
  rw [activateDefault]
  split_ifs with hdefault
  · obtain ⟨id, name, active⟩ := p
    obtain rfl : active = true := h hdefault
    rfl
  · rfl

private theorem ids_map_activateDefault (ps : List Profile) :
    ids (ps.map activateDefault) = ids ps := by
  rw [ids, List.map_map]
  exact List.map_congr_left fun p _ ↦ id_activateDefault p

private theorem any_isDefault_iff : ps.any isDefault = true ↔ defaultId ∈ ids ps := by
  rw [List.any_eq_true, ids, List.mem_map]
  simp only [isDefault_iff]

/-- What bringing a list into normal form makes of it: the first profile of each identifier is kept,
in order, except that the default one is made active, or put in front if it was missing. -/
structure Normalizes (ps qs : List Profile) : Prop where
  normal : Normal qs
  order : ids qs = (if defaultId ∈ ids ps then [] else [defaultId]) ++ (ids ps).eraseDups
  kept : ∀ p, ps.find? (·.id == p.id) = some p → activateDefault p ∈ qs
  restored : defaultId ∉ ids ps → Profile.default ∈ qs

/-- **Bringing a list into normal form.** -/
theorem normalizes_normalize (ps : List Profile) : Normalizes ps (normalize ps) := by
  have hids : ids ((distinct [] ps).map activateDefault) = (ids ps).eraseDups := by
    rw [ids_map_activateDefault, ids_distinct, List.filter_eq_self.mpr]
    exact fun id _ ↦ decide_eq_true List.not_mem_nil
  have hdistinct : (ids ((distinct [] ps).map activateDefault)).Nodup := by
    rw [ids_map_activateDefault]
    exact nodup_distinct [] ps
  have hkept : ∀ p, ps.find? (·.id == p.id) = some p →
      activateDefault p ∈ (distinct [] ps).map activateDefault :=
    fun p hp ↦ List.mem_map_of_mem (mem_distinct hp List.not_mem_nil)
  rw [normalize]
  split_ifs with hany
  · have hmem : defaultId ∈ ids ps := by
      rwa [any_isDefault_iff, hids, List.mem_eraseDups] at hany
    obtain ⟨q, hq, hqdefault⟩ := List.any_eq_true.mp hany
    obtain ⟨p, -, rfl⟩ := List.mem_map.mp hq
    have hactive : (activateDefault p).active = true := by
      rw [isDefault_activateDefault] at hqdefault
      rw [activateDefault, if_pos hqdefault]
    exact {
      normal := .of_mem hdistinct hq hqdefault hactive
      order := by rw [if_pos hmem, List.nil_append, hids]
      kept := hkept
      restored := fun hmissing ↦ absurd hmem hmissing }
  · have hmissing : defaultId ∉ ids ps := by
      rwa [any_isDefault_iff, hids, List.mem_eraseDups] at hany
    have hnew : defaultId ∉ ids ((distinct [] ps).map activateDefault) := by
      rwa [hids, List.mem_eraseDups]
    exact {
      normal := .of_mem (List.nodup_cons.mpr ⟨hnew, hdistinct⟩) List.mem_cons_self rfl rfl
      order := by
        rw [if_neg hmissing, ← hids]
        rfl
      kept := fun p hp ↦ List.mem_cons_of_mem _ (hkept p hp)
      restored := fun _ ↦ List.mem_cons_self }

theorem normal_normalize (ps : List Profile) : Normal (normalize ps) :=
  (normalizes_normalize ps).normal

/-- What a profile of the normal form is can be told from its identifier. -/
theorem Normalizes.eq_map {qs : List Profile} (h : Normalizes ps qs) :
    qs = (ids qs).map fun id ↦ (ps.find? (·.id == id)).elim Profile.default activateDefault := by
  have hfound : ∀ q ∈ qs,
      (ps.find? (·.id == q.id)).elim Profile.default activateDefault = q := by
    intro q hq
    cases hfirst : ps.find? (·.id == q.id) with
    | none =>
      -- The identifier is not one of the list, so it is that of the profile in front.
      have hmem := mem_ids_of_mem hq
      rw [h.order, List.mem_append, List.mem_eraseDups,
        or_iff_left (not_mem_ids_of_find? hfirst)] at hmem
      split_ifs at hmem with hthere
      · cases hmem
      · have hid : q.id = defaultId := List.mem_singleton.mp hmem
        exact eq_of_id_eq h.normal.distinct (h.restored hthere) hq hid.symm
    | some p =>
      obtain ⟨-, hid⟩ := mem_of_find?_id hfirst
      have hkept : activateDefault p ∈ qs := h.kept p (by rw [hid]; exact hfirst)
      exact eq_of_id_eq h.normal.distinct hkept hq ((id_activateDefault p).trans hid)
  rw [ids, List.map_map]
  exact ((List.map_congr_left hfound).trans (List.map_id' qs)).symm

/-- **A list has one normal form.** -/
theorem normalizes_iff {qs : List Profile} : Normalizes ps qs ↔ qs = normalize ps := by
  constructor
  · intro h
    have horder : ids qs = ids (normalize ps) := h.order.trans (normalizes_normalize ps).order.symm
    rw [(normalizes_normalize ps).eq_map, ← horder]
    exact h.eq_map
  · rintro rfl
    exact normalizes_normalize ps

theorem Normal.normalize_eq (h : Normal ps) : normalize ps = ps := by
  have hactive : ∀ p ∈ ps, activateDefault p = p := by
    intro p hp
    refine activateDefault_of_active fun hdefault ↦ ?_
    obtain ⟨q, hq, hqdefault, hqactive⟩ := h.exists_default
    rw [isDefault_iff] at hdefault hqdefault
    rwa [eq_of_id_eq h.distinct hp hq (hdefault.trans hqdefault.symm)]
  have hsame : (Profile.distinct [] ps).map activateDefault = ps := by
    rw [distinct_eq_self h.distinct fun _ _ ↦ List.not_mem_nil, List.map_congr_left hactive,
      List.map_id']
  rw [normalize, hsame, if_pos (any_isDefault_iff.mpr h.defaultId_mem)]

end

/-! ## Changes of a list -/

section

variable {ps : List Profile}

theorem ids_rename (id name : String) (ps : List Profile) : ids (rename id name ps) = ids ps := by
  rw [ids, rename, List.map_map]
  refine List.map_congr_left fun p _ ↦ ?_
  rw [Function.comp_apply]
  split_ifs
  · rfl
  · rfl

theorem filter_active_rename (id name : String) (ps : List Profile) :
    (rename id name ps).filter active = rename id name (ps.filter active) := by
  rw [rename, rename, List.filter_map]
  refine congrArg (List.map _) (List.filter_congr fun p _ ↦ ?_)
  rw [Function.comp_apply]
  split_ifs
  · rfl
  · rfl

theorem Normal.rename (h : Normal ps) (id name : String) : Normal (rename id name ps) := by
  obtain ⟨p, hp, hdefault, hactive⟩ := h.exists_default
  refine .of_mem (by rw [ids_rename]; exact h.distinct) (List.mem_map_of_mem hp) ?_ ?_
  · split_ifs
    · exact hdefault
    · exact hdefault
  · split_ifs
    · exact hactive
    · exact hactive

theorem ids_setActive (id : String) (active : Bool) (ps : List Profile) :
    ids (setActive id active ps) = ids ps := by
  rw [ids, setActive, List.map_map]
  refine List.map_congr_left fun p _ ↦ ?_
  rw [Function.comp_apply]
  split_ifs
  · rfl
  · rfl

theorem Normal.setActive (h : Normal ps) {id : String} (hid : id ≠ defaultId) (active : Bool) :
    Normal (setActive id active ps) := by
  obtain ⟨p, hp, hdefault, hactive⟩ := h.exists_default
  have hne : p.id ≠ id := fun heq ↦ hid (heq.symm.trans (isDefault_iff.mp hdefault))
  refine .of_mem (by rw [ids_setActive]; exact h.distinct) (p := p) ?_ hdefault hactive
  exact List.mem_map.mpr ⟨p, hp, if_neg hne⟩

theorem Normal.setActive_default (h : Normal ps) : Profile.setActive defaultId true ps = ps := by
  obtain ⟨p, hp, hdefault, hactive⟩ := h.exists_default
  refine (List.map_congr_left fun q hq ↦ ?_).trans (List.map_id ps)
  split_ifs with hid
  · have heq : q = p := eq_of_id_eq h.distinct hq hp (hid.trans (isDefault_iff.mp hdefault).symm)
    rw [heq, ← hactive]
    rfl
  · rfl

theorem mem_ids_remove {id j : String} : j ∈ ids (remove id ps) ↔ j ∈ ids ps ∧ j ≠ id := by
  simp only [ids, remove, List.mem_map, List.mem_filter, decide_eq_true_eq]
  constructor
  · rintro ⟨p, ⟨hp, hne⟩, rfl⟩
    exact ⟨⟨p, hp, rfl⟩, hne⟩
  · rintro ⟨⟨p, hp, rfl⟩, hne⟩
    exact ⟨p, ⟨hp, hne⟩, rfl⟩

theorem Normal.remove (h : Normal ps) {id : String} (hid : id ≠ defaultId) :
    Normal (remove id ps) := by
  obtain ⟨p, hp, hdefault, hactive⟩ := h.exists_default
  have hne : p.id ≠ id := fun heq ↦ hid (heq.symm.trans (isDefault_iff.mp hdefault))
  have hsublist : (ids (Profile.remove id ps)).Sublist (ids ps) := List.filter_sublist.map _
  exact .of_mem (h.distinct.sublist hsublist)
    (List.mem_filter.mpr ⟨hp, decide_eq_true hne⟩) hdefault hactive

/-- The profile before another one is still there when that is removed. -/
theorem mem_ids_remove_of_before? {id : String} {p : Profile} (h : before? id ps = some p) :
    p.id ∈ ids (remove id ps) := by
  have hmem := List.mem_of_getLast? h
  refine mem_ids_remove.mpr ⟨mem_ids_of_mem (List.takeWhile_subset _ hmem), ?_⟩
  have hbefore := List.mem_takeWhile_imp hmem
  exact of_decide_eq_true hbefore

theorem ids_swap (p q : Profile) (ps : List Profile) :
    ids (swap p q ps) = (ids ps).map (Equiv.swap p.id q.id) := by
  rw [ids, swap, ids, List.map_map, List.map_map]
  refine List.map_congr_left fun r _ ↦ ?_
  rw [Function.comp_apply, Function.comp_apply, Equiv.swap_apply_def]
  split_ifs
  · rfl
  · rfl
  · rfl

theorem mem_swap_of_mem (h : (ids ps).Nodup) {p q r : Profile} (hp : p ∈ ps) (hq : q ∈ ps)
    (hr : r ∈ ps) : r ∈ swap p q ps := by
  rw [swap, List.mem_map]
  by_cases hrp : r.id = p.id
  · refine ⟨q, hq, ?_⟩
    rw [eq_of_id_eq h hr hp hrp]
    by_cases hqp : q.id = p.id
    · rw [if_pos hqp, eq_of_id_eq h hq hp hqp]
    · rw [if_neg hqp, if_pos rfl]
  · by_cases hrq : r.id = q.id
    · refine ⟨p, hp, ?_⟩
      rw [if_pos rfl, eq_of_id_eq h hr hq hrq]
    · exact ⟨r, hr, by rw [if_neg hrp, if_neg hrq]⟩

theorem mem_ids_swap {p q : Profile} (hp : p ∈ ps) (hq : q ∈ ps) {id : String}
    (hid : id ∈ ids ps) : id ∈ ids (swap p q ps) := by
  rw [ids_swap, List.mem_map]
  refine ⟨Equiv.swap p.id q.id id, ?_, Equiv.swap_apply_self _ _ _⟩
  rw [Equiv.swap_apply_def]
  split_ifs
  · exact mem_ids_of_mem hq
  · exact mem_ids_of_mem hp
  · exact hid

theorem Normal.swap (h : Normal ps) {p q : Profile} (hp : p ∈ ps) (hq : q ∈ ps) :
    Normal (swap p q ps) := by
  obtain ⟨r, hr, hdefault, hactive⟩ := h.exists_default
  refine .of_mem ?_ (mem_swap_of_mem h.distinct hp hq hr) hdefault hactive
  rw [ids_swap]
  exact h.distinct.map (Equiv.injective _)

theorem ids_append (p : Profile) : ids (ps ++ [p]) = ids ps ++ [p.id] := by
  rw [ids, List.map_append, List.map_singleton, ids]

theorem Normal.append (h : Normal ps) {p : Profile} (hp : p.id ∉ ids ps) : Normal (ps ++ [p]) := by
  obtain ⟨q, hq, hdefault, hactive⟩ := h.exists_default
  refine .of_mem ?_ (List.mem_append_left _ hq) hdefault hactive
  rw [ids_append]
  exact h.distinct.append (List.nodup_singleton _) (List.disjoint_singleton.mpr hp)

end

/-! ## Where a profile stands

A change that concerns one profile leaves what stands before it and after it alone, because neither
has its identifier.
-/

section

variable {before after : List Profile} {p : Profile}

private theorem ids_around (h : (ids (before ++ p :: after)).Nodup) :
    p.id ∉ ids before ∧ p.id ∉ ids after := by
  rw [ids, List.map_append, List.map_cons, List.nodup_append] at h
  obtain ⟨-, hafter, hapart⟩ := h
  exact ⟨fun hmem ↦ hapart _ hmem _ List.mem_cons_self rfl, (List.nodup_cons.mp hafter).1⟩

theorem remove_around (h : (ids (before ++ p :: after)).Nodup) :
    remove p.id (before ++ p :: after) = before ++ after := by
  obtain ⟨hbefore, hafter⟩ := ids_around h
  have hkept : ∀ qs : List Profile, p.id ∉ ids qs → remove p.id qs = qs := fun qs hqs ↦
    List.filter_eq_self.mpr fun q hq ↦ decide_eq_true fun heq ↦ hqs (heq ▸ mem_ids_of_mem hq)
  rw [remove, List.filter_append, List.filter_cons_of_neg (by simp), ← remove, ← remove,
    hkept before hbefore, hkept after hafter]

theorem before?_around (h : (ids (before ++ p :: after)).Nodup) :
    before? p.id (before ++ p :: after) = before.getLast? := by
  have hother : ∀ q ∈ before, decide (q.id ≠ p.id) = true := fun q hq ↦
    decide_eq_true fun heq ↦ (ids_around h).1 (heq ▸ mem_ids_of_mem hq)
  rw [before?, List.takeWhile_append_of_pos hother, List.takeWhile_cons_of_neg (by simp),
    List.append_nil]

theorem setActive_around (h : (ids (before ++ p :: after)).Nodup) (active : Bool) :
    setActive p.id active (before ++ p :: after) = before ++ { p with active } :: after := by
  obtain ⟨hbefore, hafter⟩ := ids_around h
  have hkept : ∀ qs : List Profile, p.id ∉ ids qs → setActive p.id active qs = qs := by
    intro qs hqs
    refine (List.map_congr_left fun q hq ↦ if_neg fun heq ↦ ?_).trans (List.map_id qs)
    exact hqs (heq ▸ mem_ids_of_mem hq)
  rw [setActive, List.map_append, List.map_cons, if_pos rfl, ← setActive, ← setActive,
    hkept before hbefore, hkept after hafter]

end

section

variable {ps : List Profile} {i j : Nat} {p q : Profile}

theorem getElem?_ids (h : ps[i]? = some p) : (ids ps)[i]? = some p.id := by
  rw [ids, List.getElem?_map, h, Option.map_some]

theorem place_unique (h : (ids ps).Nodup) (hi : ps[i]? = some p) (hj : ps[j]? = some q)
    (hid : p.id = q.id) : i = j := by
  obtain ⟨hlt, -⟩ := List.getElem?_eq_some_iff.mp (getElem?_ids hi)
  refine (List.getElem?_inj hlt h).mp ?_
  rw [getElem?_ids hi, getElem?_ids hj, hid]

/-- **Swapping two profiles exchanges their places**, and nothing else. -/
theorem getElem?_swap (h : (ids ps).Nodup) (hi : ps[i]? = some p) (hj : ps[j]? = some q) (k : Nat) :
    (swap p q ps)[k]? = ps[Equiv.swap i j k]? := by
  rw [swap, List.getElem?_map, Equiv.swap_apply_def]
  by_cases hki : k = i
  · rw [if_pos hki, hki, hi, hj, Option.map_some, if_pos rfl]
  · rw [if_neg hki]
    by_cases hkj : k = j
    · have hqp : q.id ≠ p.id := fun hid ↦ hki (hkj.trans (place_unique h hj hi hid))
      rw [if_pos hkj, hkj, hj, hi, Option.map_some, if_neg hqp, if_pos rfl]
    · rw [if_neg hkj]
      cases hk : ps[k]? with
      | none => rfl
      | some r =>
        rw [Option.map_some, if_neg fun hid ↦ hki (place_unique h hk hi hid),
          if_neg fun hid ↦ hkj (place_unique h hk hj hid)]

theorem swap_comm (h : (ids ps).Nodup) (hp : p ∈ ps) (hq : q ∈ ps) : swap p q ps = swap q p ps := by
  obtain ⟨i, hi⟩ := List.mem_iff_getElem?.mp hp
  obtain ⟨j, hj⟩ := List.mem_iff_getElem?.mp hq
  refine List.ext_getElem? fun k ↦ ?_
  rw [getElem?_swap h hi hj, getElem?_swap h hj hi, Equiv.swap_comm]

theorem swap_swap (h : Normal ps) (hp : p ∈ ps) (hq : q ∈ ps) : swap p q (swap p q ps) = ps := by
  obtain ⟨i, hi⟩ := List.mem_iff_getElem?.mp hp
  obtain ⟨j, hj⟩ := List.mem_iff_getElem?.mp hq
  have hplaces := getElem?_swap h.distinct hi hj
  -- In the list after the first swap, each of the two stands where the other one stood.
  have hp' : (swap p q ps)[j]? = some p := by rw [hplaces, Equiv.swap_apply_right, hi]
  have hq' : (swap p q ps)[i]? = some q := by rw [hplaces, Equiv.swap_apply_left, hj]
  refine List.ext_getElem? fun k ↦ ?_
  rw [getElem?_swap (h.swap hp hq).distinct hp' hq', hplaces, Equiv.swap_comm j i,
    Equiv.swap_apply_self]

end

/-! ## New identifiers -/

/-- What is used matters, and not in which order. -/
theorem firstUnused_of_perm {used used' : List String} (h : used.Perm used') (n : Nat) :
    firstUnused used used.length n = firstUnused used' used'.length n := by
  rw [h.length_eq]
  generalize used'.length = fuel
  induction fuel generalizing n with
  | zero => rfl
  | succ fuel ih => simp only [firstUnused, h.mem_iff, ih]

private theorem toString_mem_of_firstUnused {used : List String} {fuel n : Nat}
    (h : toString (firstUnused used fuel n) ∈ used) {k : Nat} (hk : k ≤ fuel) :
    toString (n + k) ∈ used := by
  induction fuel generalizing n k with
  | zero =>
    obtain rfl : k = 0 := Nat.le_zero.mp hk
    exact h
  | succ fuel ih =>
    rw [firstUnused] at h
    split_ifs at h with hmem
    · cases k with
      | zero => exact hmem
      | succ k =>
        rw [Nat.add_comm k, ← Nat.add_assoc]
        exact ih h (Nat.succ_le_succ_iff.mp hk)
    · exact absurd h hmem

/-- **There is always a new identifier**: one more number is tried than there are texts in use. -/
theorem toString_firstUnused (used : List String) (n : Nat) :
    toString (firstUnused used used.length n) ∉ used := by
  intro h
  have hinjective : Function.Injective fun k ↦ toString (n + k) :=
    fun a b hab ↦ Nat.add_left_cancel (Nat.repr_inj.mp hab)
  have hsubset : (List.range (used.length + 1)).map (fun k ↦ toString (n + k)) ⊆ used := by
    intro id hid
    obtain ⟨k, hk, rfl⟩ := List.mem_map.mp hid
    exact toString_mem_of_firstUnused h (Nat.lt_succ_iff.mp (List.mem_range.mp hk))
  have hlength := (List.nodup_range.map hinjective).length_le_of_subset hsubset
  rw [List.length_map, List.length_range] at hlength
  exact Nat.not_succ_le_self _ hlength

end Redirector.Profile
