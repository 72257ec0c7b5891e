import Redirector.Proofs.Profile.View

/-!
# Collecting garbage

A document whose profile is not in the list is an orphan. Collecting garbage reads the list, asks
for all keys, and takes out those of orphans one after the other while it goes through what it was
given. Whether a key is one of an orphan can be told from the key and the list alone. So the order
in which a store lists its keys does not matter (`KeyOrder`), no key is missed because another one
is gone already, and what is left has no orphans: collecting garbage again finds nothing
(`collectGarbage_exact`).

The list is the one that is read, which is in normal form, and not the one that is stored. The
default profile is in it even if it is not stored, so its document is never an orphan.
-/

namespace Redirector.Profiles

open Store (Program Entries KeyOrder)

theorem keyless_eraseAll (keys : List String) : (eraseAll keys).Keyless := by
  refine (makes_eraseAll (C := (· ≠ .keys)) fun key _ hkeys ↦ ?_).keyless fun h ↦ h rfl
  cases hkeys

/-! ## Orphans -/

section

variable {ps : List Profile}

theorem filter_orphaned (keys : List String) :
    (keys.filter fun key ↦ ((documentId? key).map fun id ↦ !Profile.listed id ps).getD false)
      = keys.filter (Orphaned ps ·) := by
  refine List.filter_congr fun key _ ↦ ?_
  rw [Bool.eq_iff_iff, orphaned_iff, decide_eq_true_eq]

theorem not_orphaned_listKey : ¬ Orphaned ps listKey := by
  rintro ⟨id, hkey, -⟩
  exact beside_documentKey id hkey.symm

theorem not_orphaned_documentKey {id : String} (hid : id ∈ Profile.ids ps) :
    ¬ Orphaned ps (documentKey id) := by
  rintro ⟨orphan, hkey, horphan⟩
  exact horphan (documentKey_injective hkey ▸ hid)

/-! ## What is left -/

/-- The entries after garbage was collected. -/
def collected (ps : List Profile) (es : Entries) : Entries :=
  (withList es).filter fun entry ↦ ¬ Orphaned ps entry.1

/-- **No orphan is left**, and everything else is. -/
theorem get?_collected (key : String) (es : Entries) :
    Sorted.get? key (collected ps es)
      = if Orphaned ps key then none else Sorted.get? key (withList es) := by
  rw [collected, Sorted.get?_filter (¬ Orphaned ps ·), ite_not]

theorem get?_listKey_collected (es : Entries) :
    Sorted.get? listKey (collected ps es) = Sorted.get? listKey (withList es) := by
  rw [get?_collected, if_neg not_orphaned_listKey]

theorem countP_keys_collected (es : Entries) :
    (Sorted.keys (collected ps es)).countP (Orphaned ps ·) = 0 := by
  rw [List.countP_eq_zero]
  intro key hkey
  obtain ⟨entry, hentry, rfl⟩ := List.mem_map.mp hkey
  simpa using (List.mem_filter.mp hentry).2

theorem countP_keys_withList (es : Entries) :
    (Sorted.keys (withList es)).countP (Orphaned ps ·)
      = (Sorted.keys es).countP (Orphaned ps ·) := by
  rcases withList_cases es with hes | hes
  · rw [hes]
  · rw [hes, started, Sorted.countP_keys_insert]
    exact decide_eq_false not_orphaned_listKey

theorem withList_collected (es : Entries) :
    withList (collected ps es) = collected ps es := by
  refine withList_of_listed ?_
  rw [unlisted_congr (get?_listKey_collected es)]
  exact not_unlisted_withList es

theorem collected_collected (es : Entries) :
    collected ps (collected ps es) = collected ps es := by
  rw [collected, withList_collected, collected, List.filter_filter]
  simp

theorem listing_collected {es : Entries} (h : listing es = .ok ps) :
    listing (collected ps es) = .ok ps := by
  rw [← h, ← AsFound.listing_eq (Or.inr rfl : AsFound es (withList es))]
  exact list_run_congr (get?_listKey_collected es)

end

/-! ## Collecting garbage -/

section

variable {es : Entries} {ps : List Profile}

/-- Taking out the orphans among the keys leaves the same entries in any order. -/
theorem without_orphans (o : KeyOrder) :
    without ((o.list (withList es)).filter (Orphaned ps ·)) (withList es) = collected ps es := by
  rw [without_eq_filter, collected]
  refine List.filter_congr fun entry hentry ↦ ?_
  have hlisted : entry.1 ∈ o.list (withList es) :=
    (o.perm _).mem_iff.mpr (List.mem_map_of_mem hentry)
  simp [hlisted]

theorem length_orphans (o : KeyOrder) :
    ((o.list (withList es)).filter (Orphaned ps ·)).length
      = (Sorted.keys es).countP (Orphaned ps ·) := by
  rw [← List.countP_eq_length_filter, (o.perm _).countP_eq, countP_keys_withList]

/-- **Where collecting garbage ends**, whatever order the keys are listed in. -/
theorem collectGarbage_run (h : listing es = .ok ps) (o : KeyOrder) :
    collectGarbage.run o.backend es
      = (.ok ((Sorted.keys es).countP (Orphaned ps ·)), collected ps es) := by
  rw [collectGarbage, list_bind_run_backend h]
  change (Program.keys fun keys ↦ eraseAll (keys.filter _) >>= fun _ ↦
    .done (keys.filter _).length).run o.backend (withList es) = _
  rw [Program.run_backend_keys, filter_orphaned, Program.run_bind_apply,
    (keyless_eraseAll _).run_backend, eraseAll_run, without_orphans, length_orphans]
  rfl

/-- Collecting garbage is the same in any order of the keys, whether the list can be read or not. -/
theorem collectGarbage_run_backend (o : KeyOrder) (es : Entries) :
    collectGarbage.run o.backend es = collectGarbage.run Store.memory es := by
  cases hps : listing es with
  | ok ps => exact (collectGarbage_run hps o).trans (collectGarbage_run hps .ascending).symm
  | error f =>
    refine list_bind_run_backend_eq o es fun ps hok ↦ ?_
    cases hps.symm.trans hok

end

/-- **What collecting garbage does to the entries.** -/
structure Collected (ps : List Profile) (es es' : Entries) : Prop where
  /-- All orphans are taken out. -/
  orphans : ∀ key, Orphaned ps key → Sorted.get? key es' = none
  /-- Everything else stays, the list apart. -/
  others : ∀ key, ¬ Orphaned ps key → Beside key → Sorted.get? key es' = Sorted.get? key es
  /-- A list with profiles stays as it is stored. -/
  list : ¬ Unlisted es → Sorted.get? listKey es' = Sorted.get? listKey es
  /-- Without one, there is the list to start with. -/
  started : Unlisted es → Sorted.get? listKey es' = some (Profile.listToJson [Profile.default])
  /-- The document of the default profile stays. -/
  default : Sorted.get? (documentKey Profile.defaultId) es'
    = Sorted.get? (documentKey Profile.defaultId) es

theorem collected_collects {es : Entries} {ps : List Profile} (h : Profile.Normal ps) :
    Collected ps es (collected ps es) where
  orphans key hkey := by rw [get?_collected, if_pos hkey]
  others key hkey hbeside := by rw [get?_collected, if_neg hkey, get?_withList hbeside]
  list hlisted := by
    rw [get?_listKey_collected, withList_of_listed hlisted]
  started hunlisted := by
    rw [get?_listKey_collected, withList_of_unlisted hunlisted, get?_listKey_started]
  default := by
    rw [get?_collected, if_neg (not_orphaned_documentKey h.defaultId_mem),
      get?_withList (beside_documentKey _)]

/-- **Collecting garbage is exact.** As long as the list can be decoded, it says how many documents
are stored without a profile in the list, takes out these and nothing else, and finds nothing more
to do right after that. -/
theorem collectGarbage_exact {es : Entries}
    (hlist : ∀ j, Sorted.get? listKey es = some j →
      ∃ ps, Profile.listDecoder.ofValue j = .ok ps) (first second : KeyOrder) :
    ∃ ps es', listing es = .ok ps ∧
      collectGarbage.run first.backend es
        = (.ok ((Sorted.keys es).countP (Orphaned ps ·)), es') ∧
      Collected ps es es' ∧
      collectGarbage.run second.backend es' = (.ok 0, es') := by
  obtain ⟨ps, hps⟩ := exists_listing_of_decodes hlist
  refine ⟨ps, collected ps es, hps, collectGarbage_run hps first,
    collected_collects (normal_of_listing hps), ?_⟩
  rw [collectGarbage_run (listing_collected hps), countP_keys_collected, collected_collected]

/-- A list in which the default profile is missing and another one occurs twice. One of the two
orphans has an empty identifier. -/
theorem collectGarbage_exact_leftovers :
    let es : Entries := [("config/", .null), ("config/0", .null), ("config/1", .null),
      ("config/2", .null),
      ("config_items", Profile.listToJson [⟨"2", "b", false⟩, ⟨"2", "c", true⟩])]
    ∃ ps es', listing es = .ok ps ∧ Profile.ids ps = ["0", "2"] ∧
      collectGarbage.run KeyOrder.descending.backend es = (.ok 2, es') ∧
      Collected ps es es' ∧ collectGarbage.run Store.memory es' = (.ok 0, es') := by
  intro es
  have hps : listing es = .ok [Profile.default, ⟨"2", "b", false⟩] := by decide +kernel
  have hlist : ∀ j, Sorted.get? listKey es = some j →
      ∃ ps, Profile.listDecoder.ofValue j = .ok ps := by
    intro j hj
    obtain rfl : _ = j := Option.some.inj hj
    exact ⟨_, listDecoder_listToJson _⟩
  obtain ⟨ps, es', hfound, hrun, hcollected, hagain⟩ :=
    collectGarbage_exact hlist KeyOrder.descending KeyOrder.ascending
  obtain rfl : ps = _ := Except.ok.inj (hfound.symm.trans hps)
  have hcount : (Sorted.keys es).countP
      (Orphaned [Profile.default, ⟨"2", "b", false⟩] ·) = 2 := by decide +kernel
  rw [hcount] at hrun
  rw [KeyOrder.backend_ascending] at hagain
  exact ⟨_, es', hps, rfl, hrun, hcollected, hagain⟩

/-- A list that is there but has no profiles does not stay as it is stored. -/
theorem collectGarbage_keeps_not_always :
    let es : Entries := [(listKey, .array [])]
    (∀ j, Sorted.get? listKey es = some j → ∃ ps, Profile.listDecoder.ofValue j = .ok ps) ∧
      ¬ ∃ ps es', listing es = .ok ps ∧
        collectGarbage.run Store.memory es
          = (.ok ((Sorted.keys es).countP (Orphaned ps ·)), es') ∧
        ∀ key, ¬ Orphaned ps key → (key = listKey → Sorted.get? listKey es ≠ none) →
          Sorted.get? key es' = Sorted.get? key es := by
  intro es
  constructor
  · intro j hj
    obtain rfl : _ = j := Option.some.inj hj
    exact ⟨[], rfl⟩
  · rintro ⟨ps, es', hps, hrun, hkept⟩
    have hunlisted : Unlisted es := by
      intro j hj
      obtain rfl : _ = j := Option.some.inj hj
      rfl
    have hkeeps := hkept listKey not_orphaned_listKey fun _ ↦ Option.some_ne_none _
    -- What is stored for the list in the end has a profile in it.
    obtain rfl : es' = collected ps es :=
      congrArg Prod.snd (hrun.symm.trans (collectGarbage_run hps KeyOrder.ascending))
    rw [(collected_collects (normal_of_listing hps)).started hunlisted] at hkeeps
    cases hkeeps

end Redirector.Profiles
