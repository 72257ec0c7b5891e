import Mathlib.Data.Finset.Insert
import Mathlib.Data.List.Induction
import Mathlib.Tactic.SplitIfs
import Redirector.Forwarding

/-!
# Merging configurations

Merging goes through the entries of all configurations once and keeps those that it has not met
before. This module says what is kept without a reference to how: an entry stands in the union
exactly if the same entry does not stand anywhere before it (`firstOccurrences_eq_withoutRepeats`).
What may be asked of a union follows:

* entries that have been merged before may be merged again, in groups of any size, and nothing is
  different (`union_map_union`);
* whatever is looked for, the first entry that satisfies it is the same as without merging
  (`find?_firstOccurrences`), since an entry that is dropped has an equal one before it.

## One loop over both kinds

A configuration has entries of two kinds, and each kind has its own memory of what has been met. A
loop over the configurations can carry both memories along, as sets beside the lists of what has
been kept. As a set never has another element than its list (`Gathered`), this comes to merging one
kind after the other (`unionInOneLoop_eq`).
-/

namespace Redirector.Forwarding

section

variable {α : Type} [DecidableEq α]

/-! ## Entries by their places -/

/-- The entries that do not stand in the list before. -/
def withoutRepeats (xs : List α) : List α :=
  (xs.zipIdx.filter fun e ↦ e.1 ∉ xs.take e.2).map Prod.fst

theorem withoutRepeats_concat (xs : List α) (a : α) :
    withoutRepeats (xs ++ [a]) = withoutRepeats xs ++ if a ∈ xs then [] else [a] := by
  have hbefore : ∀ e ∈ xs.zipIdx,
      decide (e.1 ∉ (xs ++ [a]).take e.2) = decide (e.1 ∉ xs.take e.2) := by
    intro e he
    rw [List.take_append_of_le_length (Nat.le_of_lt (List.mem_zipIdx' he).1)]
  rw [withoutRepeats, List.zipIdx_append, List.filter_append, List.map_append,
    List.filter_congr hbefore, ← withoutRepeats, Nat.zero_add, List.zipIdx_singleton]
  congr 1
  by_cases hmem : a ∈ xs
  · rw [if_pos hmem, List.filter_cons_of_neg (by simpa using hmem), List.filter_nil, List.map_nil]
  · rw [if_neg hmem, List.filter_cons_of_pos (by simpa using hmem), List.filter_nil,
      List.map_singleton]

theorem mem_foldl_addNew {kept xs : List α} {a : α} :
    a ∈ xs.foldl addNew kept ↔ a ∈ kept ∨ a ∈ xs := by
  induction xs generalizing kept with
  | nil => simp
  | cons b xs ih =>
    rw [List.foldl_cons, ih, List.mem_cons, addNew]
    split_ifs with hmem
    · constructor
      · exact Or.imp_right Or.inr
      · rintro (hkept | rfl | hxs)
        · exact Or.inl hkept
        · exact Or.inl hmem
        · exact Or.inr hxs
    · rw [List.mem_append, List.mem_singleton, or_assoc]

theorem mem_firstOccurrences {xs : List α} {a : α} : a ∈ firstOccurrences xs ↔ a ∈ xs := by
  rw [firstOccurrences, mem_foldl_addNew]
  exact or_iff_right List.not_mem_nil

theorem firstOccurrences_concat (xs : List α) (a : α) :
    firstOccurrences (xs ++ [a]) = addNew (firstOccurrences xs) a := by
  rw [firstOccurrences, List.foldl_append, ← firstOccurrences, List.foldl_cons, List.foldl_nil]

/-- **What merging keeps**: every entry but those that repeat an earlier one. -/
theorem firstOccurrences_eq_withoutRepeats (xs : List α) :
    firstOccurrences xs = withoutRepeats xs := by
  induction xs using List.reverseRecOn with
  | nil => rfl
  | append_singleton xs a ih =>
    rw [firstOccurrences_concat, withoutRepeats_concat, addNew, ← ih]
    simp only [mem_firstOccurrences]
    split_ifs
    · rw [List.append_nil]
    · rfl

/-! ## Merging what was merged -/

/-- Dropping repeats beforehand makes no difference to what is kept in the end. -/
theorem foldl_addNew_firstOccurrences (kept xs : List α) :
    (firstOccurrences xs).foldl addNew kept = xs.foldl addNew kept := by
  induction xs using List.reverseRecOn with
  | nil => rfl
  | append_singleton xs a ih =>
    have hconcat : (xs ++ [a]).foldl addNew kept = addNew (xs.foldl addNew kept) a := by
      rw [List.foldl_append, List.foldl_cons, List.foldl_nil]
    rw [firstOccurrences_concat, hconcat, addNew]
    by_cases hmem : a ∈ xs
    · -- The repeat is dropped on either side.
      rw [if_pos (mem_firstOccurrences.mpr hmem), ih, addNew,
        if_pos (mem_foldl_addNew.mpr (Or.inr hmem))]
    · rw [if_neg (mem_firstOccurrences.not.mpr hmem), List.foldl_append, ih, List.foldl_cons,
        List.foldl_nil]

/-- Repeats may be dropped group by group first. -/
theorem firstOccurrences_flatMap (xss : List (List α)) :
    firstOccurrences (xss.flatMap firstOccurrences) = firstOccurrences xss.flatten := by
  suffices h : ∀ kept : List α,
      (xss.flatMap firstOccurrences).foldl addNew kept = xss.flatten.foldl addNew kept from h []
  induction xss with
  | nil => exact fun _ ↦ rfl
  | cons xs xss ih =>
    intro kept
    rw [List.flatMap_cons, List.flatten_cons, List.foldl_append, List.foldl_append,
      foldl_addNew_firstOccurrences, ih]

/-! ## The first match -/

/-- An entry that is dropped has an equal one before it, so it is never the first to be found. -/
theorem find?_foldl_addNew (p : α → Bool) (kept xs : List α) :
    (xs.foldl addNew kept).find? p = (kept ++ xs).find? p := by
  induction xs generalizing kept with
  | nil => rw [List.foldl_nil, List.append_nil]
  | cons a xs ih =>
    rw [List.foldl_cons, ih, addNew]
    split_ifs with hmem
    · rw [List.find?_append, List.find?_append]
      cases hkept : kept.find? p with
      | some b => rfl
      | none => rw [List.find?_cons_of_neg (List.find?_eq_none.mp hkept a hmem)]
    · rw [List.append_assoc, List.singleton_append]

theorem find?_firstOccurrences (p : α → Bool) (xs : List α) :
    (firstOccurrences xs).find? p = xs.find? p := find?_foldl_addNew p [] xs

/-! ## Entries that are gone through -/

/-- The entries of one kind as far as they have been gone through: those that have been met, and
those that have been kept, in order. They are the same ones. -/
structure Gathered (α : Type) where
  met : Finset α
  kept : List α
  mem_met : ∀ a, a ∈ met ↔ a ∈ kept

namespace Gathered

/-- Nothing has been met. -/
def nothing : Gathered α := ⟨∅, [], fun a ↦ by simp⟩

/-- Goes on to another entry, which is kept if it has not been met. -/
def next (g : Gathered α) (a : α) : Gathered α :=
  if a ∈ g.met then g
  else ⟨insert a g.met, g.kept ++ [a], fun b ↦ by simp [g.mem_met, or_comm]⟩

theorem kept_next (g : Gathered α) (a : α) : (g.next a).kept = addNew g.kept a := by
  rw [next, addNew]
  simp only [g.mem_met]
  split_ifs
  · rfl
  · rfl

theorem kept_foldl_next (g : Gathered α) (xs : List α) :
    (xs.foldl next g).kept = xs.foldl addNew g.kept := by
  induction xs generalizing g with
  | nil => rfl
  | cons a xs ih => rw [List.foldl_cons, List.foldl_cons, ih, kept_next]

end Gathered

end

/-- Goes on to another configuration: first to its redirects, then to its domains. -/
def visit (g : Gathered Redirect × Gathered String) (f : Forwarding) :
    Gathered Redirect × Gathered String :=
  (f.redirects.foldl Gathered.next g.1, f.domains.foldl Gathered.next g.2)

/-- The union by one loop that carries along what has been met of either kind. -/
def unionInOneLoop (fs : List Forwarding) : Forwarding :=
  let g := fs.foldl visit (.nothing, .nothing)
  ⟨g.1.kept, g.2.kept⟩

theorem foldl_visit (g : Gathered Redirect × Gathered String) (fs : List Forwarding) :
    fs.foldl visit g = ((fs.flatMap redirects).foldl Gathered.next g.1,
      (fs.flatMap domains).foldl Gathered.next g.2) := by
  induction fs generalizing g with
  | nil => rfl
  | cons f fs ih =>
    rw [List.foldl_cons, ih, List.flatMap_cons, List.flatMap_cons, List.foldl_append,
      List.foldl_append, visit]

theorem unionInOneLoop_eq (fs : List Forwarding) : unionInOneLoop fs = union fs := by
  rw [unionInOneLoop, foldl_visit]
  dsimp only
  rw [Gathered.kept_foldl_next, Gathered.kept_foldl_next]
  rfl

/-! ## Unions -/

/-- Entries of either kind are merged in the same way. -/
theorem firstOccurrences_map_union {α : Type} [DecidableEq α] {entries : Forwarding → List α}
    (merged : ∀ fs, entries (union fs) = firstOccurrences (fs.flatMap entries))
    (fss : List (List Forwarding)) :
    firstOccurrences ((fss.map union).flatMap entries)
      = firstOccurrences (fss.flatten.flatMap entries) := by
  have hmerged : (fss.map union).flatMap entries
      = (fss.map (·.flatMap entries)).flatMap firstOccurrences := by
    rw [List.flatMap_map, List.flatMap_map]
    exact List.flatMap_congr fun fs _ ↦ merged fs
  have hflat : fss.flatten.flatMap entries = (fss.map (·.flatMap entries)).flatten := by
    rw [← List.flatMap_def, ← List.flatMap_id, List.flatMap_assoc]
    rfl
  rw [hmerged, firstOccurrences_flatMap, hflat]

/-- **How configurations are grouped** before they are merged does not matter. -/
theorem union_map_union (fss : List (List Forwarding)) :
    union (fss.map union) = union fss.flatten := by
  rw [union, union, firstOccurrences_map_union fun _ ↦ rfl, firstOccurrences_map_union fun _ ↦ rfl]

/-- **Merging drops repeats and nothing else.** The loop over the configurations comes to the
entries of all of them, one configuration after the other, without those that stand there before. So
configurations can be merged in groups, and a union that is merged again stays as it is; and
whatever is looked for among redirects or domains, the first one in the union is the first one in
the configurations. -/
theorem union_drops_repeats (fs : List Forwarding) :
    unionInOneLoop fs = union fs ∧
      (union fs).redirects = withoutRepeats (fs.flatMap redirects) ∧
      (union fs).domains = withoutRepeats (fs.flatMap domains) ∧
      (∀ gs, union (fs ++ gs) = union [union fs, union gs]) ∧
      (∀ groups : List (List Forwarding), union (groups.map union) = union groups.flatten) ∧
      union [union fs] = union fs ∧
      (∀ p, (union fs).redirects.find? p = (fs.flatMap redirects).find? p) ∧
      ∀ p, (union fs).domains.find? p = (fs.flatMap domains).find? p := by
  refine ⟨unionInOneLoop_eq fs, firstOccurrences_eq_withoutRepeats _,
    firstOccurrences_eq_withoutRepeats _, fun gs ↦ ?_, union_map_union, ?_,
    fun p ↦ find?_firstOccurrences p _, fun p ↦ find?_firstOccurrences p _⟩
  · have hpair := union_map_union [fs, gs]
    rw [List.flatten_cons, List.flatten_singleton] at hpair
    exact hpair.symm
  · have hsingle := union_map_union [fs]
    rwa [List.flatten_singleton] at hsingle

/-- The redirect that both configurations have stays where the first one has it; the one with the
same pattern and another target is none of its repeats. -/
example :
    union [⟨[⟨"a", "1"⟩, ⟨"b", "2"⟩], ["x.example"]⟩,
        ⟨[⟨"b", "2"⟩, ⟨"a", "3"⟩], ["y.example", "x.example"]⟩]
      = ⟨[⟨"a", "1"⟩, ⟨"b", "2"⟩, ⟨"a", "3"⟩], ["x.example", "y.example"]⟩ := by
  decide

end Redirector.Forwarding
