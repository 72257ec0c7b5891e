import Redirector.Engine
import Redirector.Proofs.Rule.Compile
import Redirector.Proofs.Sorted

/-!
# What a table of installed rules holds

A table is well-formed if its identifiers ascend and every rule stands under its own one. All tables
that come from rules and updates are, and a well-formed table is determined by its rules: two of
them with the same rules, in any order, are equal. This is why adding back the rules of a table
that was emptied gives that very table again.

## One fold for every addition

Adding rules one after the other succeeds exactly if each is valid and no identifier occurs twice,
counting the rules that were there before; what comes out is then the plain fold of `insert`
(`addAll_eq_ok_iff`). Everything about the content of a table after an update follows from the
content of that fold.
-/

namespace Redirector

variable {check : Regex.Check}

/-- Rules that an empty table takes all at once: each is valid, and no identifier occurs twice. -/
structure Rule.Installable (check : Regex.Check) (rs : List Rule) : Prop where
  valid : ∀ r ∈ rs, r.fault? check = none
  distinct : (rs.map Rule.id).Nodup

theorem Rule.id_ne_zero_of_valid {r : Rule} (h : r.fault? check = none) : r.id ≠ 0 := by
  intro hzero
  rw [fault?, if_pos hzero] at h
  cases h

namespace RuleTable

/-- The identifiers ascend and each rule stands under its own. -/
structure WellFormed (t : RuleTable) : Prop where
  isSorted : Sorted.IsSorted t.entries
  keyed : ∀ p ∈ t.entries, p.1 = p.2.id

/-- The table holds exactly some rules, in the order of their identifiers. -/
structure Holds (t : RuleTable) (rs : List Rule) : Prop where
  perm : t.rules.Perm rs
  ascending : Rule.Ascending t.rules

/-! ## Rules and entries -/

@[simp] theorem rules_empty : empty.rules = [] := rfl

@[simp] theorem size_empty : empty.size = 0 := rfl

@[simp] theorem length_rules (t : RuleTable) : t.rules.length = t.size := List.length_map _

theorem rules_eq_nil_iff {t : RuleTable} : t.rules = [] ↔ t = empty := by
  obtain ⟨entries⟩ := t
  simp [rules, empty]

theorem contains_iff_mem_ids {t : RuleTable} {id : UInt32} :
    t.contains id = true ↔ id ∈ t.ids :=
  Sorted.contains_iff_mem_keys

theorem mem_ids_insert {t : RuleTable} {r : Rule} {id : UInt32} :
    id ∈ (t.insert r).ids ↔ id ∈ t.ids ∨ id = r.id :=
  Sorted.mem_keys_insert UInt32.lt_irrefl

namespace WellFormed

variable {t u : RuleTable}

theorem entries_eq (h : t.WellFormed) : t.entries = t.rules.map fun r ↦ (r.id, r) := by
  rw [rules, List.map_map]
  refine (List.map_id _).symm.trans (List.map_congr_left fun p hp ↦ ?_)
  exact Prod.ext (h.keyed p hp) rfl

theorem ascending (h : t.WellFormed) : Rule.Ascending t.rules := by
  have hs : List.Pairwise (fun a b : UInt32 × Rule ↦ a.1 < b.1) t.entries := h.isSorted
  rw [h.entries_eq, List.pairwise_map] at hs
  exact hs

theorem distinct (h : t.WellFormed) : (t.rules.map Rule.id).Nodup := h.ascending.distinct

theorem holds (h : t.WellFormed) {rs : List Rule} (hp : t.rules.Perm rs) : t.Holds rs :=
  ⟨hp, h.ascending⟩

/-- **A well-formed table is determined by its rules**, whatever order they are given in. -/
theorem eq_of_perm (ht : t.WellFormed) (hu : u.WellFormed) (h : t.rules.Perm u.rules) :
    t = u := by
  have hrules : t.rules = u.rules := ht.ascending.eq_of_perm hu.ascending h
  have hentries : t.entries = u.entries := by rw [ht.entries_eq, hu.entries_eq, hrules]
  exact congrArg RuleTable.mk hentries

theorem ids_eq (h : t.WellFormed) : t.ids = t.rules.map Rule.id := by
  rw [ids, Sorted.keys, h.entries_eq, List.map_map]
  rfl

theorem contains_iff (h : t.WellFormed) {id : UInt32} :
    t.contains id = true ↔ id ∈ t.rules.map Rule.id := by
  rw [contains_iff_mem_ids, h.ids_eq]

/-- What is found under an identifier is the rule with that identifier. -/
theorem get?_eq_some_iff (h : t.WellFormed) {id : UInt32} {r : Rule} :
    t.get? id = some r ↔ r ∈ t.rules ∧ r.id = id := by
  have hdistinct : (Sorted.keys t.entries).Nodup := by
    rw [← ids, h.ids_eq]
    exact h.distinct
  rw [get?, Sorted.get?_eq_some_iff hdistinct, h.entries_eq, List.mem_map]
  constructor
  · rintro ⟨s, hs, heq⟩
    obtain ⟨rfl, rfl⟩ := Prod.mk.inj heq
    exact ⟨hs, rfl⟩
  · rintro ⟨hr, rfl⟩
    exact ⟨r, hr, rfl⟩

end WellFormed

/-! ## Inserting -/

theorem wellFormed_empty : empty.WellFormed := ⟨List.Pairwise.nil, by simp [empty]⟩

theorem WellFormed.insert {t : RuleTable} (h : t.WellFormed) (r : Rule) :
    (t.insert r).WellFormed := by
  refine ⟨Sorted.isSorted_insert UInt32.lt_trans ?_ h.isSorted, ?_⟩
  · intro a b hlt hne
    exact UInt32.lt_of_le_of_ne (UInt32.not_lt.mp hlt) hne
  · intro p hp
    rcases Sorted.eq_or_mem_of_mem_insert hp with rfl | hp
    · rfl
    · exact h.keyed p hp

theorem WellFormed.foldl_insert {t : RuleTable} (h : t.WellFormed) (rs : List Rule) :
    (rs.foldl RuleTable.insert t).WellFormed := by
  induction rs generalizing t with
  | nil => exact h
  | cons r rs ih => exact ih (h.insert r)

theorem wellFormed_ofRules (rs : List Rule) : (ofRules rs).WellFormed :=
  wellFormed_empty.foldl_insert rs

theorem rules_insert_ne_nil (t : RuleTable) (r : Rule) : (t.insert r).rules ≠ [] := by
  rw [rules, insert, ne_eq, List.map_eq_nil_iff]
  exact Sorted.insert_ne_nil

theorem rules_insert_perm {t : RuleTable} (h : t.WellFormed) {r : Rule}
    (hr : r.id ∉ t.rules.map Rule.id) : (t.insert r).rules.Perm (r :: t.rules) := by
  have hnone : Sorted.get? r.id t.entries = none := by
    rw [← h.contains_iff, contains, Sorted.contains, Bool.not_eq_true,
      Option.isSome_eq_false_iff, Option.isNone_iff_eq_none] at hr
    exact hr
  exact (Sorted.insert_perm hnone).map Prod.snd

/-- As long as no identifier occurs twice, inserting keeps what was there. -/
theorem rules_foldl_insert_perm {t : RuleTable} (h : t.WellFormed) {rs : List Rule}
    (hd : ((t.rules ++ rs).map Rule.id).Nodup) :
    (rs.foldl insert t).rules.Perm (t.rules ++ rs) := by
  induction rs generalizing t with
  | nil => rw [List.foldl_nil, List.append_nil]
  | cons r rs ih =>
    have hr : r.id ∉ t.rules.map Rule.id := by
      rw [List.map_append, List.map_cons, List.nodup_append] at hd
      exact fun hmem ↦ hd.2.2 _ hmem _ List.mem_cons_self rfl
    have hstep : ((t.insert r).rules ++ rs).Perm (t.rules ++ r :: rs) :=
      ((rules_insert_perm h hr).append_right rs).trans List.perm_middle.symm
    rw [List.foldl_cons]
    exact (ih (h.insert r) ((hstep.map Rule.id).nodup_iff.mpr hd)).trans hstep

theorem rules_ofRules_perm {rs : List Rule} (h : (rs.map Rule.id).Nodup) :
    (ofRules rs).rules.Perm rs :=
  rules_foldl_insert_perm wellFormed_empty h

theorem rules_ofRules_eq_nil_iff {rs : List Rule} : (ofRules rs).rules = [] ↔ rs = [] := by
  have hkeep : ∀ (rs : List Rule) (t : RuleTable), t.rules ≠ [] →
      (rs.foldl insert t).rules ≠ [] := by
    intro rs
    induction rs with
    | nil => exact fun t ht ↦ ht
    | cons r rs ih => exact fun t _ ↦ ih _ (rules_insert_ne_nil t r)
  cases rs with
  | nil => exact iff_of_true rfl rfl
  | cons r rs => exact iff_of_false (hkeep rs _ (rules_insert_ne_nil _ r)) (List.cons_ne_nil _ _)

theorem rules_ofRules_of_ascending {rs : List Rule} (h : Rule.Ascending rs) :
    (ofRules rs).rules = rs :=
  (wellFormed_ofRules rs).ascending.eq_of_perm h (rules_ofRules_perm h.distinct)

theorem WellFormed.eq_ofRules {t : RuleTable} (h : t.WellFormed) : ofRules t.rules = t :=
  (wellFormed_ofRules _).eq_of_perm h (rules_ofRules_perm h.distinct)

/-! ## Adding -/

theorem add_eq_ok_iff {t u : RuleTable} (h : t.WellFormed) {r : Rule} :
    t.add check r = .ok u ↔
      r.id ∉ t.rules.map Rule.id ∧ r.fault? check = none ∧ u = t.insert r := by
  rw [add]
  by_cases hc : t.contains r.id = true
  · rw [if_pos hc]
    simp only [reduceCtorEq, false_iff]
    exact fun hcon ↦ hcon.1 (h.contains_iff.mp hc)
  · rw [if_neg hc]
    have hr : r.id ∉ t.rules.map Rule.id := fun hmem ↦ hc (h.contains_iff.mpr hmem)
    cases hf : r.fault? check with
    | some e => simp
    | none => simp [hr, eq_comm]

theorem addAll_cons (t : RuleTable) (r : Rule) (rs : List Rule) :
    t.addAll check (r :: rs) = t.add check r >>= (·.addAll check rs) := rfl

/-- **When rules are added, and what comes out.** -/
theorem addAll_eq_ok_iff {t u : RuleTable} (h : t.WellFormed) {rs : List Rule} :
    t.addAll check rs = .ok u ↔ (∀ r ∈ rs, r.fault? check = none) ∧
      ((t.rules ++ rs).map Rule.id).Nodup ∧ u = rs.foldl insert t := by
  induction rs generalizing t with
  | nil =>
    have hd := h.distinct
    simp [addAll, pure, Except.pure, hd, eq_comm]
  | cons r rs ih =>
    have hsplit : t.addAll check (r :: rs) = .ok u ↔
        ∃ v, t.add check r = .ok v ∧ v.addAll check rs = .ok u := by
      rw [addAll_cons]
      cases t.add check r with
      | error e => simp [bind, Except.bind]
      | ok v => simp [bind, Except.bind]
    rw [hsplit]
    constructor
    · rintro ⟨v, hv, hu⟩
      obtain ⟨hr, hf, rfl⟩ := (add_eq_ok_iff h).mp hv
      obtain ⟨hvalid, hd, rfl⟩ := (ih (h.insert r)).mp hu
      refine ⟨List.forall_mem_cons.mpr ⟨hf, hvalid⟩, ?_, rfl⟩
      have hperm := ((rules_insert_perm h hr).append_right rs).trans List.perm_middle.symm
      exact (hperm.map Rule.id).nodup_iff.mp hd
    · rintro ⟨hvalid, hd, rfl⟩
      obtain ⟨hf, hvalid⟩ := List.forall_mem_cons.mp hvalid
      have hr : r.id ∉ t.rules.map Rule.id := by
        rw [List.map_append, List.map_cons, List.nodup_append] at hd
        exact fun hmem ↦ hd.2.2 _ hmem _ List.mem_cons_self rfl
      refine ⟨t.insert r, (add_eq_ok_iff h).mpr ⟨hr, hf, rfl⟩, (ih (h.insert r)).mpr
        ⟨hvalid, ?_, rfl⟩⟩
      have hperm := ((rules_insert_perm h hr).append_right rs).trans List.perm_middle.symm
      exact (hperm.map Rule.id).nodup_iff.mpr hd

theorem WellFormed.addAll {t u : RuleTable} (h : t.WellFormed) {rs : List Rule}
    (hu : t.addAll check rs = .ok u) : u.WellFormed := by
  obtain ⟨-, -, rfl⟩ := (addAll_eq_ok_iff h).mp hu
  exact h.foldl_insert rs

theorem rules_addAll_perm {t u : RuleTable} (h : t.WellFormed) {rs : List Rule}
    (hu : t.addAll check rs = .ok u) : u.rules.Perm (t.rules ++ rs) := by
  obtain ⟨-, hd, rfl⟩ := (addAll_eq_ok_iff h).mp hu
  exact rules_foldl_insert_perm h hd

theorem size_addAll {t u : RuleTable} (h : t.WellFormed) {rs : List Rule}
    (hu : t.addAll check rs = .ok u) : u.size = t.size + rs.length := by
  rw [← length_rules, (rules_addAll_perm h hu).length_eq, List.length_append, length_rules]

theorem empty_addAll_eq_ok_iff {u : RuleTable} {rs : List Rule} :
    empty.addAll check rs = .ok u ↔ Rule.Installable check rs ∧ u = ofRules rs := by
  rw [addAll_eq_ok_iff wellFormed_empty]
  constructor
  · rintro ⟨hvalid, hd, rfl⟩
    exact ⟨⟨hvalid, hd⟩, rfl⟩
  · rintro ⟨⟨hvalid, hd⟩, rfl⟩
    exact ⟨hvalid, hd, rfl⟩

/-- Rules with different identifiers are added unless one is at fault, and then it is the first
such rule that the update is rejected for. -/
theorem addAll_of_distinct {t : RuleTable} (h : t.WellFormed) {rs : List Rule}
    (hd : ((t.rules ++ rs).map Rule.id).Nodup) :
    t.addAll check rs =
      match rs.findSome? (Rule.fault? check) with
      | some e => .error e
      | none => .ok (rs.foldl insert t) := by
  induction rs generalizing t with
  | nil => rfl
  | cons r rs ih =>
    have hr : r.id ∉ t.rules.map Rule.id := by
      rw [List.map_append, List.map_cons, List.nodup_append] at hd
      exact fun hmem ↦ hd.2.2 _ hmem _ List.mem_cons_self rfl
    have hperm := ((rules_insert_perm h hr).append_right rs).trans List.perm_middle.symm
    rw [addAll_cons, List.findSome?_cons]
    cases hf : r.fault? check with
    | some e =>
      rw [add, if_neg fun hc ↦ hr (h.contains_iff.mp hc), hf]
      rfl
    | none =>
      rw [(add_eq_ok_iff h).mpr ⟨hr, hf, rfl⟩]
      exact ih (h.insert r) ((hperm.map Rule.id).nodup_iff.mpr hd)

/-! ## Removing -/

theorem rules_eraseAll {t : RuleTable} (h : t.WellFormed) (ids : List UInt32) :
    (t.eraseAll ids).WellFormed ∧ (t.eraseAll ids).rules = t.rules.filter (·.id ∉ ids) := by
  induction ids generalizing t with
  | nil => exact ⟨h, by simp [eraseAll]⟩
  | cons id ids ih =>
    have herase : (t.erase id).WellFormed :=
      ⟨Sorted.isSorted_erase h.isSorted, fun p hp ↦ h.keyed p (List.mem_of_mem_filter hp)⟩
    have hrules : (t.erase id).rules = t.rules.filter (·.id ≠ id) := by
      rw [rules, erase, Sorted.erase, h.entries_eq, List.filter_map, List.map_map]
      exact List.map_id _
    obtain ⟨hwf, heq⟩ := ih herase
    refine ⟨hwf, ?_⟩
    rw [eraseAll, List.foldl_cons, ← eraseAll, heq, hrules, List.filter_filter]
    refine List.filter_congr fun r _ ↦ ?_
    simp [Bool.and_comm]

theorem eraseAll_ids {t : RuleTable} (h : t.WellFormed) :
    t.eraseAll (t.rules.map Rule.id) = empty := by
  rw [← rules_eq_nil_iff, (rules_eraseAll h _).2, List.filter_eq_nil_iff]
  intro r hr
  simp only [decide_eq_true_eq, not_not]
  exact List.mem_map_of_mem hr

theorem update_removing_ids {t : RuleTable} (h : t.WellFormed) :
    t.update check (.removing (t.rules.map Rule.id)) = .ok empty := by
  rw [update, RuleUpdate.removing, eraseAll_ids h]
  rfl

end RuleTable

end Redirector

namespace Redirector.Engine

/-! ## Calls that fail on schedule

A call whose turn it is to fail leaves the table alone, and any other call does what it does to the
table in memory. Only two things about a state matter to the next calls: whether the next listing is
answered, and what a successful update has made of the table.

What is true of an engine because its calls may fail, and not because of the schedule, is stated for
every engine that is a table in this sense (`Engine.Fallible`).
-/

variable {check : Regex.Check}

/-! ### The engine in memory -/

theorem memory_update_of_ok {t t' : RuleTable} {u : RuleUpdate} (h : t.update check u = .ok t') :
    (memory check).update u t = (.ok (), t') := by
  simp only [memory, h]

theorem memory_update_of_error {t : RuleTable} {u : RuleUpdate} {e : Rejection}
    (h : t.update check u = .error e) : (memory check).update u t = (.error (.rejected e), t) := by
  simp only [memory, h]

theorem memory_update_eq_ok_iff {t t' : RuleTable} {u : RuleUpdate} :
    (memory check).update u t = (.ok (), t') ↔ t.update check u = .ok t' := by
  constructor
  · intro h
    cases hu : t.update check u with
    | ok t₁ =>
      rw [memory_update_of_ok hu] at h
      exact congrArg Except.ok (Prod.mk.inj h).2
    | error e =>
      rw [memory_update_of_error hu] at h
      cases h
  · exact memory_update_of_ok

theorem memory_update_eq_error {t : RuleTable} {u : RuleUpdate} {f : Fault}
    (h : ((memory check).update u t).1 = .error f) :
    ((memory check).update u t).2 = t ∧ ∃ e, f = .rejected e ∧ t.update check u = .error e := by
  cases hu : t.update check u with
  | ok t' =>
    rw [memory_update_of_ok hu] at h
    cases h
  | error e =>
    rw [memory_update_of_error hu] at h ⊢
    exact ⟨rfl, e, (Except.error.inj h).symm, rfl⟩

/-! ### Calls that may fail -/

/-- **A table with calls that may fail.** A call that fails changes nothing; which ones do is up to
the state of the engine, apart from updates that the table rejects. -/
structure Fallible {ε : Type} (engine : Engine (StateM ε)) (check : Regex.Check)
    (table : ε → RuleTable) : Prop where
  ids (e : ε) : table (engine.ids e).2 = table e ∧
    ((engine.ids e).1 = .ok (table e).ids ∨ ∃ f, (engine.ids e).1 = .error f)
  rules (e : ε) : table (engine.rules e).2 = table e ∧
    ((engine.rules e).1 = .ok (table e).rules ∨ ∃ f, (engine.rules e).1 = .error f)
  update (u : RuleUpdate) (e : ε) :
    (engine.update u e).1 = .ok () ∧ (table e).update check u = .ok (table (engine.update u e).2) ∨
      (∃ f, (engine.update u e).1 = .error f) ∧ table (engine.update u e).2 = table e

namespace Scheduled

/-- Whether the next listing is answered. -/
def lists (s : Scheduled) : Bool :=
  match s.listings.head? with
  | some (some _) => false
  | _ => true

theorem rules_of_lists {s : Scheduled} (h : s.lists = true) :
    (scheduled check).rules s = (.ok s.table.rules, { s with listings := s.listings.tail }) := by
  simp only [scheduled, listing]
  rcases hnext : s.listings.head? with _ | _ | f
  · rfl
  · rfl
  · rw [lists, hnext] at h
    cases h

theorem rules_of_not_lists {s : Scheduled} (h : s.lists = false) :
    ∃ f, (scheduled check).rules s = (.error f, { s with listings := s.listings.tail }) := by
  simp only [scheduled, listing]
  rcases hnext : s.listings.head? with _ | _ | f
  · rw [lists, hnext] at h
    cases h
  · rw [lists, hnext] at h
    cases h
  · exact ⟨f, rfl⟩

theorem update_eq_ok {s s' : Scheduled} {u : RuleUpdate}
    (h : (scheduled check).update u s = (.ok (), s')) : s.table.update check u = .ok s'.table := by
  simp only [scheduled, answer] at h
  rcases hnext : s.updates.head? with _ | _ | f
  · rw [hnext] at h
    obtain ⟨hok, rfl⟩ := Prod.mk.inj h
    exact memory_update_eq_ok_iff.mp (Prod.ext hok rfl)
  · rw [hnext] at h
    obtain ⟨hok, rfl⟩ := Prod.mk.inj h
    exact memory_update_eq_ok_iff.mp (Prod.ext hok rfl)
  · rw [hnext] at h
    cases h

theorem table_update_of_error {s s' : Scheduled} {u : RuleUpdate} {f : Fault}
    (h : (scheduled check).update u s = (.error f, s')) : s'.table = s.table := by
  simp only [scheduled, answer] at h
  rcases hnext : s.updates.head? with _ | _ | g
  · rw [hnext] at h
    obtain ⟨herror, rfl⟩ := Prod.mk.inj h
    exact (memory_update_eq_error herror).1
  · rw [hnext] at h
    obtain ⟨herror, rfl⟩ := Prod.mk.inj h
    exact (memory_update_eq_error herror).1
  · rw [hnext] at h
    obtain ⟨-, rfl⟩ := Prod.mk.inj h
    rfl

private theorem listing_cases {α : Type} (answered : RuleTable → α) (s : Scheduled) :
    let call : StateM RuleTable (Except Fault α) := fun t ↦ (.ok (answered t), t)
    (listing call s).2.table = s.table ∧
      ((listing call s).1 = .ok (answered s.table) ∨ ∃ f, (listing call s).1 = .error f) := by
  simp only [listing, answer]
  rcases s.listings.head? with _ | _ | f
  · exact ⟨rfl, Or.inl rfl⟩
  · exact ⟨rfl, Or.inl rfl⟩
  · exact ⟨rfl, Or.inr ⟨f, rfl⟩⟩

theorem fallible : (scheduled check).Fallible check Scheduled.table where
  ids := listing_cases RuleTable.ids
  rules := listing_cases RuleTable.rules
  update u s := by
    rcases hcall : (scheduled check).update u s with ⟨f | ⟨⟩, s'⟩
    · exact Or.inr ⟨⟨f, rfl⟩, table_update_of_error hcall⟩
    · exact Or.inl ⟨rfl, update_eq_ok hcall⟩

end Scheduled

end Redirector.Engine
