import Mathlib.Data.List.Perm.Basic
import Mathlib.Tactic.ByContra
import Mathlib.Tactic.SplitIfs
import Redirector.Rule.Basic

/-!
# Rules in order

Both the compiler and the engine put rules in the order of their identifiers. No identifier occurs
twice in such a list, and its content determines it.
-/

namespace Redirector.Rule

/-- The identifiers ascend along the list. -/
def Ascending (rs : List Rule) : Prop := rs.Pairwise (·.id < ·.id)

namespace Ascending

variable {rs ss : List Rule}

theorem distinct (h : Ascending rs) : (rs.map Rule.id).Nodup := by
  refine List.pairwise_map.mpr (h.imp ?_)
  intro a b hlt heq
  exact UInt32.lt_irrefl _ (heq ▸ hlt)

theorem eq_of_perm (hr : Ascending rs) (hs : Ascending ss) (h : rs.Perm ss) : rs = ss := by
  refine h.eq_of_pairwise ?_ hr hs
  intro a b _ _ hab hba
  exact absurd (UInt32.lt_trans hab hba) (UInt32.lt_irrefl _)

end Ascending

end Redirector.Rule

namespace Redirector

/-! ## Compiling in closed form

The compiler is a pass over the entries with the next free identifier as its state. What comes out
can be said without a state: the entries that compile, numbered from the first identifier on
(`compiled_compileFrom`). That is so as long as what keeps an entry from compiling is the entry
alone, or that its number is too high; a number that is too high stays so for all later entries.

### Identifiers

The engine's identifiers are machine words, so numbers beyond their range would start again from
zero. Up to there they ascend along the list (`ascending_numbered`), redirects before header rules.
-/

namespace Forwarding

private theorem foldl_addNew {α : Type} [DecidableEq α] (kept xs : List α) :
    xs.foldl addNew kept = kept ++ (xs.filter (· ∉ kept)).eraseDups := by
  induction xs generalizing kept with
  | nil => simp
  | cons a xs ih =>
    rw [List.foldl_cons, ih, addNew]
    split_ifs with hmem
    · rw [List.filter_cons_of_neg (by simpa using hmem)]
    · rw [List.filter_cons_of_pos (by simpa using hmem), List.eraseDups_cons, List.filter_filter,
        List.append_assoc, List.singleton_append]
      congr 3
      refine List.filter_congr fun b _ ↦ ?_
      rw [Bool.eq_iff_iff]
      simp [and_comm]

theorem firstOccurrences_eq {α : Type} [DecidableEq α] (xs : List α) :
    firstOccurrences xs = xs.eraseDups := by
  rw [firstOccurrences, foldl_addNew, List.nil_append, List.filter_eq_self.mpr]
  exact fun a _ ↦ decide_eq_true List.not_mem_nil

end Forwarding

namespace Rule

/-- Entries numbered from some number on, each made a rule. -/
def numbered {α : Type} (build : α → Nat → Rule) (first : Nat) (as : List α) : List Rule :=
  (as.zipIdx first).map fun p ↦ build p.1 p.2

theorem numbered_cons {α : Type} (build : α → Nat → Rule) (first : Nat) (a : α) (as : List α) :
    numbered build first (a :: as) = build a first :: numbered build (first + 1) as := rfl

section

variable {α : Type} {compile : α → Nat → Except SkipReason Rule} {build : α → Nat → Rule}
  {keep : α → Bool}

/-- **The compiler without its state**: the entries that compile are numbered as long as there are
numbers. -/
theorem compiled_compileFrom {last next : Nat} {as : List α}
    (h : ∀ a n, n < next + as.length →
      (compile a n).toOption = if keep a ∧ n < last then some (build a n) else none) :
    compiled (compileFrom compile next as)
      = numbered build next ((as.filter keep).take (last - next)) := by
  induction as generalizing next with
  | nil => simp [compileFrom, compiled, numbered]
  | cons a as ih =>
    have hhead := h a next (by simp)
    have hrest := @ih next fun b n hn ↦ h b n (by rw [List.length_cons]; omega)
    rw [compileFrom]
    cases hcompile : compile a next with
    | error reason =>
      have hrefused : ¬ (keep a ∧ next < last) := by
        intro hcon
        rw [hcompile, if_pos hcon] at hhead
        cases hhead
      change compiled (compileFrom compile next as) = _
      rw [hrest]
      by_cases hkeep : keep a = true
      · -- Numbers have run out.
        have hnone : last - next = 0 := by
          have hlast : ¬ next < last := fun hlt ↦ hrefused ⟨hkeep, hlt⟩
          omega
        rw [hnone, List.take_zero, List.take_zero]
      · rw [List.filter_cons_of_neg hkeep]
    | ok r =>
      have hkept : keep a ∧ next < last := by
        by_contra hcon
        rw [hcompile, if_neg hcon] at hhead
        cases hhead
      rw [hcompile, if_pos hkept] at hhead
      obtain rfl : r = build a next := Option.some.inj hhead
      have hroom : last - next = last - (next + 1) + 1 := by
        have hlt := hkept.2
        omega
      change build a next :: compiled (compileFrom compile (next + 1) as) = _
      rw [ih fun b n hn ↦ h b n (by rw [List.length_cons]; omega), List.filter_cons_of_pos hkept.1,
        hroom, List.take_succ_cons, numbered_cons]

end

/-! ### Rules of entries -/

def forRedirect (r : Redirect) (id : Nat) : Rule where
  id := UInt32.ofNat id
  priority := defaultPriority
  action := .redirect (Template.toSubstitution r.target)
  condition := ⟨some (Pattern.toFilter r.pattern), none, ResourceType.all⟩

def forDomain (domain : String) (id : Nat) : Rule where
  id := UInt32.ofNat id
  priority := defaultPriority
  action := .modifyHeaders permissiveHeaders
  condition := ⟨none, some ("||" ++ domain), ResourceType.scripted⟩

/-- A redirect with both of its parts. -/
def isComplete (r : Redirect) : Bool := r.pattern ≠ "" ∧ r.target ≠ ""

theorem toOption_ofRedirect (r : Redirect) (n : Nat) :
    (ofRedirect r n).toOption
      = if isComplete r ∧ n < firstHeaderId then some (forRedirect r n) else none := by
  simp only [ofRedirect, isComplete, decide_eq_true_eq]
  split_ifs with hpattern hall htarget hall hlast hall hall
  · exact absurd hpattern hall.1.1
  · rfl
  · exact absurd htarget hall.1.2
  · rfl
  · exact absurd hlast (Nat.not_lt.mpr (Nat.le_of_lt_succ hall.2))
  · rfl
  · rfl
  · exact absurd ⟨⟨hpattern, htarget⟩, Nat.lt_succ_of_le (Nat.not_lt.mp hlast)⟩ hall

theorem toOption_ofDomain (domain : String) (n : Nat) :
    (ofDomain domain n).toOption
      = if domain = "" then none else some (forDomain domain n) := by
  rw [ofDomain]
  split_ifs with hempty
  · rfl
  · rfl

/-! ### Identifiers -/

theorem map_id_numbered {α : Type} {build : α → Nat → Rule}
    (hid : ∀ a n, (build a n).id = UInt32.ofNat n) (first : Nat) (as : List α) :
    (numbered build first as).map Rule.id = (List.range' first as.length).map UInt32.ofNat := by
  rw [numbered, List.map_map, ← List.zipIdx_map_snd, List.map_map]
  exact List.map_congr_left fun p _ ↦ hid p.1 p.2

theorem ascending_numbered {α : Type} {build : α → Nat → Rule}
    (hid : ∀ a n, (build a n).id = UInt32.ofNat n) {first : Nat} {as : List α}
    (hbound : first + as.length ≤ UInt32.size) :
    Ascending (numbered build first as) := by
  have hids : ((numbered build first as).map Rule.id).Pairwise (· < ·) := by
    rw [map_id_numbered hid, List.pairwise_map]
    refine (List.pairwise_lt_range' 1).imp_of_mem ?_
    intro m n hm hn hlt
    rw [List.mem_range'_1] at hm hn
    rw [UInt32.lt_iff_toNat_lt, UInt32.toNat_ofNat_of_lt' (by omega),
      UInt32.toNat_ofNat_of_lt' (by omega)]
    exact hlt
  exact List.pairwise_map.mp hids

theorem toNat_id_of_mem {α : Type} {build : α → Nat → Rule}
    (hid : ∀ a n, (build a n).id = UInt32.ofNat n) {first : Nat} {as : List α}
    (hbound : first + as.length ≤ UInt32.size) {r : Rule} (hr : r ∈ numbered build first as) :
    first ≤ r.id.toNat ∧ r.id.toNat < first + as.length := by
  have hmem : r.id ∈ (numbered build first as).map Rule.id := List.mem_map_of_mem hr
  rw [map_id_numbered hid, List.mem_map] at hmem
  obtain ⟨n, hn, heq⟩ := hmem
  rw [List.mem_range'_1] at hn
  rw [← heq, UInt32.toNat_ofNat_of_lt' (by omega)]
  exact hn

/-- The number after the last one would be zero. -/
theorem bound_of_id_ne_zero {α : Type} {build : α → Nat → Rule}
    (hid : ∀ a n, (build a n).id = UInt32.ofNat n) {first : Nat} {as : List α}
    (hfirst : first ≤ UInt32.size) (h : ∀ x ∈ numbered build first as, x.id ≠ 0) :
    first + as.length ≤ UInt32.size := by
  by_contra hover
  have hzero : (0 : UInt32) ∈ (numbered build first as).map Rule.id := by
    rw [map_id_numbered hid, List.mem_map]
    exact ⟨UInt32.size, List.mem_range'_1.mpr ⟨hfirst, by omega⟩, by decide⟩
  obtain ⟨x, hx, hx0⟩ := List.mem_map.mp hzero
  exact h x hx hx0

end Rule

namespace Forwarding

open Rule

theorem redirectRules_eq (f : Forwarding) :
    f.redirectRules = numbered forRedirect 1 ((f.redirects.filter isComplete).take 999) := by
  exact compiled_compileFrom fun r n _ ↦ toOption_ofRedirect r n

theorem headerRules_eq (f : Forwarding) :
    f.headerRules = numbered forDomain 1000 (f.domains.filter (· ≠ "")) := by
  -- Domains do not run out of numbers: there is one for each of them.
  have hcompiled : f.headerRules = numbered forDomain 1000
      ((f.domains.filter (· ≠ "")).take (1000 + f.domains.length - 1000)) := by
    refine compiled_compileFrom fun domain n hn ↦ ?_
    rw [toOption_ofDomain]
    by_cases hempty : domain = ""
    · rw [if_pos hempty, if_neg (by simp [hempty])]
    · rw [if_neg hempty, if_pos ⟨decide_eq_true hempty, hn⟩]
  rw [hcompiled, Nat.add_sub_cancel_left, List.take_of_length_le (List.length_filter_le _ _)]

/-- **What some configurations compile to.** -/
theorem compileAll_eq (fs : List Forwarding) (withHeaders : Bool) :
    compileAll fs withHeaders =
      numbered forRedirect 1 (((fs.flatMap redirects).eraseDups.filter isComplete).take 999) ++
        if withHeaders then numbered forDomain 1000 ((fs.flatMap domains).eraseDups.filter (· ≠ ""))
        else [] := by
  rw [compileAll, redirectRules_eq, headerRules_eq, union, firstOccurrences_eq,
    firstOccurrences_eq]

/-- Rules with valid identifiers come out of the compiler in the order of these. -/
theorem ascending_compileAll {fs : List Forwarding} {withHeaders : Bool}
    (h : ∀ x ∈ compileAll fs withHeaders, x.id ≠ 0) :
    Ascending (compileAll fs withHeaders) := by
  rw [compileAll_eq] at h ⊢
  have hredirects := List.length_take_le 999 ((fs.flatMap redirects).eraseDups.filter isComplete)
  have hfirst := Nat.le_trans (Nat.add_le_add_left hredirects 1) (by decide : 1 + 999 ≤ UInt32.size)
  refine List.pairwise_append.mpr ⟨ascending_numbered (fun _ _ ↦ rfl) hfirst, ?_, ?_⟩
  · split_ifs with hheaders
    · rw [if_pos hheaders] at h
      exact ascending_numbered (fun _ _ ↦ rfl) (bound_of_id_ne_zero (fun _ _ ↦ rfl) (by decide)
        fun x hx ↦ h x (List.mem_append_right _ hx))
    · exact List.Pairwise.nil
  · intro x hx y hy
    split_ifs at h hy
    · have hbound := bound_of_id_ne_zero (fun _ _ ↦ rfl) (by decide)
        fun x hx ↦ h x (List.mem_append_right _ hx)
      have hxid := toNat_id_of_mem (fun _ _ ↦ rfl) hfirst hx
      have hyid := toNat_id_of_mem (fun _ _ ↦ rfl) hbound hy
      rw [UInt32.lt_iff_toNat_lt]
      omega
    · exact absurd hy List.not_mem_nil

end Forwarding

end Redirector
