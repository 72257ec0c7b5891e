import Redirector.Proofs.Engine.Table
import Redirector.Proofs.Rule.Compile
import Redirector.Regex.Automaton

/-!
# What an update does, exactly

An update is accepted or rejected for what it asks of the table, not for how it is written down: the
order of the rules and of the identifiers to be removed decides only which fault is reported, never
whether there is one (`RuleUpdate.Acceptable`). What an accepted update leaves behind is what the
table held, without what was to be removed, and the new rules.

A rejected update reports the earliest fault. Faults of a rule depend on what stands before it, as
an identifier counts as taken from the first rule on that has it, so they are told by the place of a
rule in its list (`Rule.objectionAt?`).

## One update or two

Whoever replaces rules may do so in one update or may first remove and then add. Both are accepted
alike and come to the same table. They differ if they are rejected: the one update has then changed
nothing, and of the two the first has been made. What it took out can be put back, and then nothing
has changed either (`Engine.updateInSteps_agrees`); an apply relies on this when it restores what
was installed.
-/

namespace Redirector

namespace Rule

/-! ## Objections -/

section

variable (check : Regex.Check)

/-- What is wrong with a rule if some identifiers are taken. -/
def objection? (taken : List UInt32) (r : Rule) : Option Rejection :=
  if r.id ∈ taken then some (.duplicateId r.id) else r.fault? check

/-- What is wrong with the rule at some place of a list, if identifiers are taken by others and by
the rules before it. Past the end there is nothing wrong. -/
def objectionAt? (taken : List UInt32) (rs : List Rule) (i : Nat) : Option Rejection :=
  rs[i]?.bind (objection? check (taken ++ (rs.take i).map Rule.id))

/-- The objection at the earliest place where there is one. -/
def FirstObjection (taken : List UInt32) (rs : List Rule) (e : Rejection) : Prop :=
  ∃ i, objectionAt? check taken rs i = some e ∧ ∀ j < i, objectionAt? check taken rs j = none

end

variable {check : Regex.Check} {taken : List UInt32} {r : Rule} {rs : List Rule} {e : Rejection}

theorem objectionAt?_cons_zero :
    objectionAt? check taken (r :: rs) 0 = r.objection? check taken := by
  rw [objectionAt?, List.take_zero, List.map_nil, List.append_nil]
  rfl

theorem objectionAt?_cons_succ (i : Nat) :
    objectionAt? check taken (r :: rs) (i + 1) = objectionAt? check (taken ++ [r.id]) rs i := by
  rw [objectionAt?, objectionAt?, List.take_succ_cons, List.map_cons, List.append_cons]
  rfl

theorem not_firstObjection_nil : ¬ FirstObjection check taken [] e := by
  rintro ⟨i, hi, -⟩
  cases hi

/-- Either the first rule is at fault or, with its identifier taken, one after it. -/
theorem firstObjection_cons : FirstObjection check taken (r :: rs) e ↔
    r.objection? check taken = some e ∨
      r.objection? check taken = none ∧ FirstObjection check (taken ++ [r.id]) rs e := by
  constructor
  · rintro ⟨i, hi, hbefore⟩
    cases i with
    | zero => exact Or.inl (objectionAt?_cons_zero.symm.trans hi)
    | succ i =>
      have hhead := hbefore 0 (Nat.succ_pos i)
      rw [objectionAt?_cons_zero] at hhead
      refine Or.inr ⟨hhead, i, (objectionAt?_cons_succ i).symm.trans hi, fun j hj ↦ ?_⟩
      exact (objectionAt?_cons_succ j).symm.trans (hbefore (j + 1) (Nat.succ_lt_succ hj))
  · rintro (hhead | ⟨hhead, i, hi, hbefore⟩)
    · exact ⟨0, objectionAt?_cons_zero.trans hhead, fun j hj ↦ absurd hj (Nat.not_lt_zero j)⟩
    · refine ⟨i + 1, (objectionAt?_cons_succ i).trans hi, fun j hj ↦ ?_⟩
      cases j with
      | zero => exact objectionAt?_cons_zero.trans hhead
      | succ j => exact (objectionAt?_cons_succ j).trans (hbefore j (Nat.lt_of_succ_lt_succ hj))

end Rule

variable {check : Regex.Check}

/-- What a table asks of an update: the new rules are valid, no two of them share an identifier, and
none has that of a rule that stays. -/
structure RuleUpdate.Acceptable (check : Regex.Check) (t : RuleTable) (u : RuleUpdate) : Prop where
  valid : ∀ r ∈ u.add, r.fault? check = none
  distinct : (u.add.map Rule.id).Nodup
  free : ∀ r ∈ u.add, r.id ∈ t.ids → r.id ∈ u.remove

theorem RuleUpdate.Acceptable.congr {t : RuleTable} {u v : RuleUpdate} (h : v.Acceptable check t)
    (hadd : v.add.Perm u.add) (hremove : ∀ id, id ∈ v.remove ↔ id ∈ u.remove) :
    u.Acceptable check t where
  valid r hr := h.valid r (hadd.mem_iff.mpr hr)
  distinct := (hadd.map Rule.id).nodup_iff.mp h.distinct
  free r hr hid := (hremove r.id).mp (h.free r (hadd.mem_iff.mpr hr) hid)

namespace RuleTable

/-! ## Rejected updates -/

theorem add_eq (t : RuleTable) (r : Rule) :
    t.add check r =
      match r.objection? check t.ids with
      | some e => .error e
      | none => .ok (t.insert r) := by
  by_cases hmem : r.id ∈ t.ids
  · have hobjection : r.objection? check t.ids = some (.duplicateId r.id) := if_pos hmem
    rw [hobjection]
    exact if_pos (contains_iff_mem_ids.mpr hmem)
  · have hobjection : r.objection? check t.ids = r.fault? check := if_neg hmem
    rw [hobjection]
    exact if_neg fun hc ↦ hmem (contains_iff_mem_ids.mp hc)

/-- **Adding rules fails for the first objection** in the order of the list. -/
theorem addAll_eq_error_iff {t : RuleTable} {taken : List UInt32}
    (htaken : ∀ id, id ∈ taken ↔ id ∈ t.ids) {rs : List Rule} {e : Rejection} :
    t.addAll check rs = .error e ↔ Rule.FirstObjection check taken rs e := by
  induction rs generalizing t taken with
  | nil => exact iff_of_false (fun h ↦ by cases h) Rule.not_firstObjection_nil
  | cons r rs ih =>
    have hsame : r.objection? check t.ids = r.objection? check taken := by
      simp only [Rule.objection?, htaken]
    rw [addAll_cons, add_eq, hsame, Rule.firstObjection_cons]
    cases r.objection? check taken with
    | some e' => simp [bind, Except.bind]
    | none =>
      have hnext : ∀ id, id ∈ taken ++ [r.id] ↔ id ∈ (t.insert r).ids := by
        intro id
        rw [List.mem_append, List.mem_singleton, htaken, mem_ids_insert]
      change (t.insert r).addAll check rs = .error e ↔ _
      rw [ih hnext]
      simp

section

variable {t : RuleTable} (h : t.WellFormed) {u : RuleUpdate}

include h

theorem ids_eraseAll (ids : List UInt32) : (t.eraseAll ids).ids = t.ids.filter (· ∉ ids) := by
  obtain ⟨hwf, hrules⟩ := rules_eraseAll h ids
  rw [hwf.ids_eq, hrules, h.ids_eq, List.filter_map]
  rfl

theorem update_eq_error_iff {e : Rejection} :
    t.update check u = .error e ↔
      Rule.FirstObjection check (t.ids.filter (· ∉ u.remove)) u.add e := by
  rw [← ids_eraseAll h]
  exact addAll_eq_error_iff fun _ ↦ Iff.rfl

/-! ## Accepted updates -/

/-- An update is acceptable if its rules can be added once the table is without those that are to be
removed. -/
theorem acceptable_iff : u.Acceptable check t ↔ (∀ r ∈ u.add, r.fault? check = none) ∧
    (((t.eraseAll u.remove).rules ++ u.add).map Rule.id).Nodup := by
  obtain ⟨hwf, hrules⟩ := rules_eraseAll h u.remove
  rw [List.map_append, List.nodup_append, and_iff_right hwf.distinct]
  constructor
  · rintro ⟨hvalid, hdistinct, hfree⟩
    refine ⟨hvalid, hdistinct, ?_⟩
    intro a ha b hb hab
    obtain ⟨s, hs, rfl⟩ := List.mem_map.mp ha
    obtain ⟨r, hr, rfl⟩ := List.mem_map.mp hb
    rw [hrules, List.mem_filter, decide_eq_true_eq] at hs
    have hid : r.id ∈ t.ids := by
      rw [h.ids_eq, ← hab]
      exact List.mem_map_of_mem hs.1
    exact hs.2 (hab ▸ hfree r hr hid)
  · rintro ⟨hvalid, hdistinct, hapart⟩
    refine ⟨hvalid, hdistinct, ?_⟩
    intro r hr hid
    by_contra hstays
    rw [h.ids_eq] at hid
    obtain ⟨s, hs, heq⟩ := List.mem_map.mp hid
    have hleft : s ∈ (t.eraseAll u.remove).rules := by
      rw [hrules, List.mem_filter, decide_eq_true_eq, heq]
      exact ⟨hs, hstays⟩
    exact hapart s.id (List.mem_map_of_mem hleft) r.id (List.mem_map_of_mem hr) heq

/-- **When an update is accepted, and what comes out.** -/
theorem update_eq_ok_iff {t' : RuleTable} :
    t.update check u = .ok t' ↔
      u.Acceptable check t ∧ t' = u.add.foldl insert (t.eraseAll u.remove) := by
  rw [update, addAll_eq_ok_iff (rules_eraseAll h u.remove).1, acceptable_iff h, and_assoc]

/-- What comes out can be told from its rules, whatever order they were added in. -/
theorem update_eq_ok_iff_perm {t' : RuleTable} :
    t.update check u = .ok t' ↔ u.Acceptable check t ∧ t'.WellFormed ∧
      t'.rules.Perm (t.rules.filter (·.id ∉ u.remove) ++ u.add) := by
  obtain ⟨hwf, hrules⟩ := rules_eraseAll h u.remove
  rw [update_eq_ok_iff h, ← hrules]
  refine and_congr_right fun hacceptable ↦ ?_
  have hperm := rules_foldl_insert_perm hwf ((acceptable_iff h).mp hacceptable).2
  have hwf' := hwf.foldl_insert u.add
  constructor
  · rintro rfl
    exact ⟨hwf', hperm⟩
  · rintro ⟨ht', hperm'⟩
    exact ht'.eq_of_perm hwf' (hperm'.trans hperm.symm)

/-- Neither the order of the new rules nor that of the identifiers matters, and an identifier may be
listed more than once. -/
theorem update_congr {v : RuleUpdate} (hadd : v.add.Perm u.add)
    (hremove : ∀ id, id ∈ v.remove ↔ id ∈ u.remove) {t' : RuleTable} :
    t.update check v = .ok t' ↔ t.update check u = .ok t' := by
  have hacceptable : v.Acceptable check t ↔ u.Acceptable check t :=
    ⟨fun hv ↦ hv.congr hadd hremove, fun hu ↦ hu.congr hadd.symm fun id ↦ (hremove id).symm⟩
  have hperm : t'.rules.Perm (t.rules.filter (·.id ∉ v.remove) ++ v.add) ↔
      t'.rules.Perm (t.rules.filter (·.id ∉ u.remove) ++ u.add) := by
    simp only [hremove]
    exact ⟨fun hp ↦ hp.trans (hadd.append_left _), fun hp ↦ hp.trans (hadd.symm.append_left _)⟩
  rw [update_eq_ok_iff_perm h, update_eq_ok_iff_perm h, hacceptable, hperm]

end

theorem get?_update {t t' : RuleTable} (h : t.WellFormed) {u : RuleUpdate}
    (hu : t.update check u = .ok t') {id : UInt32} {r : Rule} :
    t'.get? id = some r ↔ (r ∈ u.add ∧ r.id = id) ∨ (t.get? id = some r ∧ id ∉ u.remove) := by
  obtain ⟨-, hwf, hperm⟩ := (update_eq_ok_iff_perm h).mp hu
  rw [hwf.get?_eq_some_iff, h.get?_eq_some_iff, hperm.mem_iff, List.mem_append, List.mem_filter,
    decide_eq_true_eq]
  constructor
  · rintro ⟨⟨hr, hstays⟩ | hr, rfl⟩
    · exact Or.inr ⟨⟨hr, rfl⟩, hstays⟩
    · exact Or.inl ⟨hr, rfl⟩
  · rintro (⟨hr, rfl⟩ | ⟨⟨hr, rfl⟩, hstays⟩)
    · exact ⟨Or.inr hr, rfl⟩
    · exact ⟨Or.inl ⟨hr, hstays⟩, rfl⟩

/-- **Rules that were taken out can be put back** exactly if they are valid, in any order, and then
nothing has changed. -/
theorem update_adding_removed_iff {t : RuleTable} (h : t.WellFormed) {ids : List UInt32}
    {back : List Rule} (hback : back.Perm (t.rules.filter (·.id ∈ ids))) :
    (t.eraseAll ids).update check (.adding back) = .ok t ↔ ∀ r ∈ back, r.fault? check = none := by
  obtain ⟨hwf, hrules⟩ := rules_eraseAll h ids
  rw [update_eq_ok_iff_perm hwf]
  constructor
  · exact fun hok ↦ hok.1.valid
  · intro hvalid
    refine ⟨⟨hvalid, ?_, ?_⟩, h, ?_⟩
    · exact (hback.map Rule.id).nodup_iff.mpr (h.distinct.sublist (List.filter_sublist.map _))
    · intro r hr hid
      rw [ids_eraseAll h, List.mem_filter, decide_eq_true_eq] at hid
      exact absurd (of_decide_eq_true (List.mem_filter.mp (hback.mem_iff.mp hr)).2) hid.2
    · have hall : (t.eraseAll ids).rules.filter (·.id ∉ (RuleUpdate.adding back).remove)
          = t.rules.filter (·.id ∉ ids) := by
        rw [hrules]
        exact List.filter_eq_self.mpr fun _ _ ↦ decide_eq_true List.not_mem_nil
      rw [hall]
      have hsplit := List.filter_append_perm (fun r : Rule ↦ decide (r.id ∈ ids)) t.rules
      simp only [← decide_not] at hsplit
      exact (hsplit.symm.trans List.perm_append_comm).trans (hback.symm.append_left _)

end RuleTable

namespace Engine

/-! ## The engine in memory -/

theorem memory_accepts_iff {t : RuleTable} (h : t.WellFormed) {u : RuleUpdate} :
    ((memory check).update u t).1 = .ok () ↔ u.Acceptable check t := by
  constructor
  · intro hok
    have hu : t.update check u = .ok ((memory check).update u t).2 :=
      memory_update_eq_ok_iff.mp (Prod.ext hok rfl)
    exact ((RuleTable.update_eq_ok_iff h).mp hu).1
  · intro hacceptable
    rw [memory_update_of_ok ((RuleTable.update_eq_ok_iff h).mpr ⟨hacceptable, rfl⟩)]

theorem memory_update_congr {t : RuleTable} (h : t.WellFormed) {u v : RuleUpdate}
    (hadd : v.add.Perm u.add) (hremove : ∀ id, id ∈ v.remove ↔ id ∈ u.remove) :
    (((memory check).update v t).1 = .ok () ↔ ((memory check).update u t).1 = .ok ()) ∧
      ((memory check).update v t).2 = ((memory check).update u t).2 := by
  have hcongr (t' : RuleTable) : t.update check v = .ok t' ↔ t.update check u = .ok t' :=
    RuleTable.update_congr h hadd hremove
  cases hu : t.update check u with
  | ok t' =>
    rw [memory_update_of_ok hu, memory_update_of_ok ((hcongr t').mpr hu)]
    exact ⟨Iff.rfl, rfl⟩
  | error e =>
    cases hv : t.update check v with
    | ok t' =>
      rw [hcongr, hu] at hv
      cases hv
    | error e' =>
      rw [memory_update_of_error hu, memory_update_of_error hv]
      exact ⟨iff_of_false (fun hok ↦ by cases hok) (fun hok ↦ by cases hok), rfl⟩

/-- **An update, exactly.** It is accepted if and only if each of the new rules is valid, no two of
them share an identifier, and none has the identifier of a rule that stays. Then the table holds the
new rules under their own identifiers and those of the old ones that were not to be removed. If it
is rejected nothing has changed, and the fault is that of the earliest rule that is at fault, first
of all for its identifier. So neither the order of the new rules nor that of the identifiers decides
whether an update is accepted, or what comes of it. -/
theorem memory_update_exactly (check : Regex.Check) {t : RuleTable} (h : t.WellFormed)
    (u : RuleUpdate) :
    (((memory check).update u t).1 = .ok () ↔
        (∀ r ∈ u.add, r.fault? check = none) ∧ (u.add.map Rule.id).Nodup ∧
          ∀ r ∈ u.add, r.id ∈ t.ids → r.id ∈ u.remove) ∧
      (((memory check).update u t).1 = .ok () → ((memory check).update u t).2.WellFormed ∧
        ∀ id r, ((memory check).update u t).2.get? id = some r ↔
          (r ∈ u.add ∧ r.id = id) ∨ (t.get? id = some r ∧ id ∉ u.remove)) ∧
      (∀ f, ((memory check).update u t).1 = .error f → ((memory check).update u t).2 = t ∧
        ∃ e, f = .rejected e ∧ Rule.FirstObjection check (t.ids.filter (· ∉ u.remove)) u.add e) ∧
      ∀ v : RuleUpdate, v.add.Perm u.add → (∀ id, id ∈ v.remove ↔ id ∈ u.remove) →
        (((memory check).update v t).1 = .ok () ↔ ((memory check).update u t).1 = .ok ()) ∧
        ((memory check).update v t).2 = ((memory check).update u t).2 := by
  refine ⟨?_, fun hok ↦ ?_, fun f hf ↦ ?_, fun v hadd hremove ↦ memory_update_congr h hadd hremove⟩
  · rw [memory_accepts_iff h]
    exact ⟨fun ⟨hvalid, hdistinct, hfree⟩ ↦ ⟨hvalid, hdistinct, hfree⟩,
      fun ⟨hvalid, hdistinct, hfree⟩ ↦ ⟨hvalid, hdistinct, hfree⟩⟩
  · have hu : t.update check u = .ok ((memory check).update u t).2 :=
      memory_update_eq_ok_iff.mp (Prod.ext hok rfl)
    exact ⟨((RuleTable.update_eq_ok_iff_perm h).mp hu).2.1, fun _ _ ↦ RuleTable.get?_update h hu⟩
  · obtain ⟨hstays, e, rfl, hu⟩ := memory_update_eq_error hf
    exact ⟨hstays, e, rfl, (RuleTable.update_eq_error_iff h).mp hu⟩

/-- A rule takes the place of one that is removed, next to a new one. Without the removal it is at
fault for its identifier, before the rule after it that is not valid. -/
theorem memory_update_exactly_replacing :
    let t := RuleTable.ofRules [Rule.forDomain "a.example" 1000, Rule.forDomain "b.example" 1001]
    let u : RuleUpdate :=
      ⟨[Rule.forDomain "c.example" 1002, Rule.forDomain "d.example" 1000], [1000]⟩
    let v : RuleUpdate := ⟨u.add.reverse, [1000, 1000]⟩
    let w : RuleUpdate := ⟨u.add ++ [Rule.forDomain "é.example" 1003], []⟩
    t.WellFormed ∧ ((memory Regex.check).update u t).1 = .ok () ∧
      ((memory Regex.check).update u t).2.get? 1000 = some (Rule.forDomain "d.example" 1000) ∧
      ((memory Regex.check).update v t).2 = ((memory Regex.check).update u t).2 ∧
      ((memory Regex.check).update w t).2 = t ∧
      Rule.FirstObjection Regex.check t.ids w.add (.duplicateId 1000) := by
  intro t u v w
  have h : t.WellFormed := RuleTable.wellFormed_ofRules _
  obtain ⟨haccepted, htable, -, hsame⟩ := memory_update_exactly Regex.check h u
  have hok : ((memory Regex.check).update u t).1 = .ok () := by decide
  obtain ⟨-, -, hrejected, -⟩ := memory_update_exactly Regex.check h w
  obtain ⟨hstays, e, he, hfirst⟩ := hrejected (.rejected (.duplicateId 1000)) (by decide)
  obtain rfl : Rejection.duplicateId 1000 = e := Fault.rejected.inj he
  refine ⟨h, hok, ?_, ?_, hstays, hfirst⟩
  · exact ((htable hok).2 1000 (Rule.forDomain "d.example" 1000)).mpr (Or.inl ⟨by decide, rfl⟩)
  · exact (hsame v (List.reverse_perm u.add) (by simp [u, v])).2

/-! ## In two steps -/

/-- Makes an update in two: what is to be removed is removed before anything is added. -/
def updateInSteps {m : Type → Type} [Monad m] (engine : Engine m) (u : RuleUpdate) :
    m (Except Fault Unit) := do
  match ← engine.update (.removing u.remove) with
  | .ok () => engine.update (.adding u.add)
  | .error f => return .error f

/-- In memory the first step cannot fail. -/
theorem updateInSteps_memory (u : RuleUpdate) (t : RuleTable) :
    updateInSteps (memory check) u t =
      (memory check).update (.adding u.add) (t.eraseAll u.remove) := rfl

/-- **One update and two agree.** An update in two steps is accepted exactly if it is accepted as
one, with the same table, and otherwise rejected for the same fault. Then the one update has changed
nothing, and after the two steps the table is without the rules that were to be removed. To add
these again, in any order, brings the original table back exactly if each of them is valid. -/
theorem updateInSteps_agrees (check : Regex.Check) {t : RuleTable} (h : t.WellFormed)
    (u : RuleUpdate) :
    let one := (memory check).update u t
    let two := updateInSteps (memory check) u t
    two.1 = one.1 ∧ (one.1 = .ok () → two.2 = one.2) ∧
      ∀ f, one.1 = .error f → one.2 = t ∧
        two.2.WellFormed ∧ two.2.rules = t.rules.filter (·.id ∉ u.remove) ∧
        ∀ back : List Rule, back.Perm (t.rules.filter (·.id ∈ u.remove)) →
          ((memory check).update (.adding back) two.2 = (.ok (), t) ↔
            ∀ r ∈ back, r.fault? check = none) := by
  intro one two
  have htwo : two = (memory check).update (.adding u.add) (t.eraseAll u.remove) :=
    updateInSteps_memory u t
  obtain ⟨hwf, hrules⟩ := RuleTable.rules_eraseAll h u.remove
  cases hu : t.update check u with
  | ok t' =>
    have hone : one = (.ok (), t') := memory_update_of_ok hu
    have hsecond : (t.eraseAll u.remove).update check (.adding u.add) = .ok t' := hu
    rw [htwo, memory_update_of_ok hsecond, hone]
    refine ⟨rfl, fun _ ↦ rfl, fun f hf ↦ ?_⟩
    cases hf
  | error e =>
    have hone : one = (.error (.rejected e), t) := memory_update_of_error hu
    have hsecond : (t.eraseAll u.remove).update check (.adding u.add) = .error e := hu
    rw [htwo, memory_update_of_error hsecond, hone]
    refine ⟨rfl, fun hok ↦ ?_, fun _ _ ↦ ⟨rfl, hwf, hrules, fun back hback ↦ ?_⟩⟩
    · cases hok
    · rw [memory_update_eq_ok_iff]
      exact RuleTable.update_adding_removed_iff h hback

/-- One of two rules is to be replaced by one that is not valid, and is put back. -/
theorem updateInSteps_agrees_restored :
    let t := RuleTable.ofRules [Rule.forDomain "a.example" 1000, Rule.forDomain "b.example" 1001]
    let u : RuleUpdate := ⟨[Rule.forDomain "é.example" 1002], [1000, 7]⟩
    t.WellFormed ∧
      ((memory Regex.check).update u t).1 = .error (.rejected (.invalidUrlFilter 1002)) ∧
      ((memory Regex.check).update u t).2 = t ∧
      (updateInSteps (memory Regex.check) u t).1 = .error (.rejected (.invalidUrlFilter 1002)) ∧
      (updateInSteps (memory Regex.check) u t).2.rules = [Rule.forDomain "b.example" 1001] ∧
      (memory Regex.check).update (.adding [Rule.forDomain "a.example" 1000])
          (updateInSteps (memory Regex.check) u t).2 = (.ok (), t) := by
  intro t u
  have h : t.WellFormed := RuleTable.wellFormed_ofRules _
  have herror :
      ((memory Regex.check).update u t).1 = .error (.rejected (.invalidUrlFilter 1002)) := by
    decide
  obtain ⟨hsame, -, hrejected⟩ := updateInSteps_agrees Regex.check h u
  obtain ⟨hstays, -, hrules, hback⟩ := hrejected _ herror
  refine ⟨h, herror, hstays, hsame.trans herror, hrules.trans (by decide), ?_⟩
  exact (hback [Rule.forDomain "a.example" 1000] (List.Perm.of_eq (by decide))).mpr (by decide)

end Engine

end Redirector

namespace Redirector.RuleTable

/-! ## Tables that updates lead to

A table takes a rule only after a look at it, and under no identifier but the rule's own. So
whatever updates are made to an empty table, accepted or rejected, it is well-formed and holds valid
rules only (`RuleTable.Valid`). Nothing else can be said of all these tables: a table that is valid
can be reached, even in one update (`RuleTable.exists_after_iff`).

Tables that are made of rules directly, as those read from a file, need not be valid. They are not
meant here.
-/

variable {check : Regex.Check}

/-- The table is well-formed, and no rule in it is at fault. -/
structure Valid (check : Regex.Check) (t : RuleTable) : Prop extends t.WellFormed where
  valid : ∀ r ∈ t.rules, r.fault? check = none

/-- The table after some updates, one after the other. An update that is rejected changes
nothing. -/
def after (check : Regex.Check) (t : RuleTable) (us : List RuleUpdate) : RuleTable :=
  us.foldl (fun t u ↦ ((Engine.memory check).update u t).2) t

theorem valid_empty : empty.Valid check where
  toWellFormed := wellFormed_empty
  valid _ hr := absurd hr List.not_mem_nil

namespace Valid

variable {t : RuleTable}

theorem installable (h : t.Valid check) : Rule.Installable check t.rules := ⟨h.valid, h.distinct⟩

/-- **One step**: what is left of a table with valid rules is valid, and so is what is added. -/
theorem update (h : t.Valid check) (u : RuleUpdate) :
    ((Engine.memory check).update u t).2.Valid check := by
  cases hu : t.update check u with
  | error e =>
    rw [Engine.memory_update_of_error hu]
    exact h
  | ok t' =>
    rw [Engine.memory_update_of_ok hu]
    obtain ⟨hacceptable, hwf, hperm⟩ := (update_eq_ok_iff_perm h.toWellFormed).mp hu
    refine ⟨hwf, fun r hr ↦ ?_⟩
    rw [hperm.mem_iff, List.mem_append] at hr
    rcases hr with hkept | hadded
    · exact h.valid r (List.mem_of_mem_filter hkept)
    · exact hacceptable.valid r hadded

/-- **A whole run**, by induction on the updates. -/
theorem after (h : t.Valid check) (us : List RuleUpdate) : (t.after check us).Valid check := by
  induction us generalizing t with
  | nil => exact h
  | cons u us ih => exact ih (h.update u)

theorem eq_after (h : t.Valid check) : empty.after check [.adding t.rules] = t := by
  have hadd : empty.update check (.adding t.rules) = .ok (ofRules t.rules) :=
    empty_addAll_eq_ok_iff.mpr ⟨h.installable, rfl⟩
  rw [RuleTable.after, List.foldl_cons, List.foldl_nil, Engine.memory_update_of_ok hadd]
  exact h.eq_ofRules

theorem zero_not_mem_ids (h : t.Valid check) : 0 ∉ t.ids := by
  rw [h.ids_eq, List.mem_map]
  rintro ⟨r, hr, hzero⟩
  exact Rule.id_ne_zero_of_valid (h.valid r hr) hzero

end Valid

/-- **The tables that updates lead to**, from an empty one, are those in which every rule is valid
and stands under its own identifier, and the identifiers ascend. These are then the identifiers of
the rules, in the same order; none of them is zero, and there are as many as the table says. -/
theorem exists_after_iff (t : RuleTable) :
    (∃ us, empty.after check us = t) ↔
      (∀ p ∈ t.entries, p.2.fault? check = none ∧ p.1 = p.2.id) ∧ t.ids.Pairwise (· < ·) ∧
        t.ids = t.rules.map Rule.id ∧ 0 ∉ t.ids ∧ t.size = t.ids.length := by
  constructor
  · rintro ⟨us, rfl⟩
    have h : (empty.after check us).Valid check := valid_empty.after us
    refine ⟨fun p hp ↦ ⟨h.valid p.2 (List.mem_map_of_mem hp), h.keyed p hp⟩, ?_, h.ids_eq,
      h.zero_not_mem_ids, ?_⟩
    · exact List.pairwise_map.mpr h.isSorted
    · exact (List.length_map _).symm
  · rintro ⟨hentries, hascending, -⟩
    have h : t.Valid check := by
      refine ⟨⟨Sorted.isSorted_of_keys hascending rfl, fun p hp ↦ (hentries p hp).2⟩, ?_⟩
      intro r hr
      obtain ⟨p, hp, rfl⟩ := List.mem_map.mp hr
      exact (hentries p hp).1
    exact ⟨_, h.eq_after⟩

end Redirector.RuleTable
