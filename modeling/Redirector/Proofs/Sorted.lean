import Mathlib.Data.List.Perm.Basic
import Redirector.Sorted

/-!
# Order and content of association lists

`Sorted.get?` says what is under a key. The laws here say what the list as a whole holds: putting in
a new key adds one pair and leaves the others as they were, and neither that nor taking a key out
breaks the order. The order on the keys is assumed only as far as each law needs it.
-/

namespace Redirector.Sorted

variable {κ β : Type} [LT κ] [DecidableLT κ] [DecidableEq κ]

omit [LT κ] [DecidableLT κ] in
theorem get?_eq_none_iff {k : κ} {xs : List (κ × β)} :
    get? k xs = none ↔ ∀ p ∈ xs, p.1 ≠ k := by
  induction xs with
  | nil => simp [get?]
  | cons p xs ih =>
    obtain ⟨a, v⟩ := p
    rw [get?]
    by_cases h : a = k
    · simp [h]
    · simp [h, ih]

omit [LT κ] [DecidableLT κ] in
theorem contains_iff_mem_keys {k : κ} {xs : List (κ × β)} :
    contains k xs = true ↔ k ∈ keys xs := by
  rw [contains, Option.isSome_iff_ne_none, ne_eq, get?_eq_none_iff, keys, List.mem_map]
  simp

omit [LT κ] [DecidableLT κ] in
/-- Under distinct keys, what is found under a key is what was put there. -/
theorem get?_eq_some_iff {k : κ} {v : β} {xs : List (κ × β)} (h : (keys xs).Nodup) :
    get? k xs = some v ↔ (k, v) ∈ xs := by
  induction xs with
  | nil => simp [get?]
  | cons p xs ih =>
    obtain ⟨a, w⟩ := p
    obtain ⟨hnew, htail⟩ := List.nodup_cons.mp h
    rw [get?, List.mem_cons]
    by_cases hak : a = k
    · subst hak
      have hnone : (a, v) ∉ xs := fun hmem ↦ hnew (List.mem_map.mpr ⟨_, hmem, rfl⟩)
      rw [if_pos rfl, Option.some.injEq, Prod.mk.injEq, or_iff_left hnone, eq_comm]
      exact (and_iff_right rfl).symm
    · rw [if_neg hak, ih htail, Prod.mk.injEq]
      exact (or_iff_right fun heq ↦ hak heq.1.symm).symm

theorem insert_ne_nil {k : κ} {v : β} {xs : List (κ × β)} : insert k v xs ≠ [] := by
  cases xs with
  | nil => exact List.cons_ne_nil _ _
  | cons p xs =>
    rw [insert]
    split_ifs
    · exact List.cons_ne_nil _ _
    · exact List.cons_ne_nil _ _
    · exact List.cons_ne_nil _ _

theorem insert_insert (irrefl : ∀ a : κ, ¬ a < a) (k : κ) (v w : β) (xs : List (κ × β)) :
    insert k w (insert k v xs) = insert k w xs := by
  have hfront (x : β) (ys : List (κ × β)) : insert k w ((k, x) :: ys) = (k, w) :: ys := by
    rw [insert, if_neg (irrefl k), if_pos rfl]
  induction xs with
  | nil => exact hfront v []
  | cons p xs ih =>
    obtain ⟨a, x⟩ := p
    rw [insert, insert]
    by_cases hlt : k < a
    · rw [if_pos hlt, if_pos hlt, hfront]
    · by_cases heq : a = k
      · rw [if_neg hlt, if_pos heq, if_neg hlt, if_pos heq, hfront]
      · rw [if_neg hlt, if_neg heq, if_neg hlt, if_neg heq, insert, if_neg hlt, if_neg heq, ih]

theorem insert_perm {k : κ} {v : β} {xs : List (κ × β)} (h : get? k xs = none) :
    (insert k v xs).Perm ((k, v) :: xs) := by
  induction xs with
  | nil => exact List.Perm.refl _
  | cons p xs ih =>
    obtain ⟨a, w⟩ := p
    rw [get?_eq_none_iff, List.forall_mem_cons] at h
    obtain ⟨hne, htail⟩ := h
    rw [insert]
    by_cases hlt : k < a
    · rw [if_pos hlt]
    · rw [if_neg hlt, if_neg hne]
      exact ((ih (get?_eq_none_iff.mpr htail)).cons _).trans (List.Perm.swap _ _ _)

/-- Every pair of the list with one more key is that key's, or was there before. -/
theorem eq_or_mem_of_mem_insert {k : κ} {v : β} {xs : List (κ × β)} {p : κ × β}
    (h : p ∈ insert k v xs) : p = (k, v) ∨ p ∈ xs := by
  induction xs with
  | nil => exact Or.inl (List.mem_singleton.mp h)
  | cons q xs ih =>
    rw [insert] at h
    split_ifs at h with hlt heq
    · exact List.mem_cons.mp h
    · rcases List.mem_cons.mp h with hp | hp
      · exact Or.inl hp
      · exact Or.inr (List.mem_cons_of_mem _ hp)
    · rcases List.mem_cons.mp h with rfl | hp
      · exact Or.inr List.mem_cons_self
      · exact (ih hp).imp id (List.mem_cons_of_mem _)

theorem mem_keys_insert (irrefl : ∀ a : κ, ¬ a < a) {k j : κ} {v : β} {xs : List (κ × β)} :
    j ∈ keys (insert k v xs) ↔ j ∈ keys xs ∨ j = k := by
  rw [← contains_iff_mem_keys, ← contains_iff_mem_keys, contains, contains, get?_insert irrefl]
  split_ifs with heq
  · exact iff_of_true rfl (Or.inr heq.symm)
  · exact (or_iff_left fun hjk ↦ heq hjk.symm).symm

omit [DecidableLT κ] [DecidableEq κ] in
theorem isSorted_of_keys {ks : List κ} (hks : ks.Pairwise (· < ·)) {xs : List (κ × β)}
    (h : xs.map Prod.fst = ks) : IsSorted xs :=
  List.pairwise_map.mp (h ▸ hks)

theorem isSorted_insert (trans : ∀ {a b c : κ}, a < b → b < c → a < c)
    (connex : ∀ {a b : κ}, ¬ a < b → b ≠ a → b < a) {k : κ} {v : β} {xs : List (κ × β)}
    (h : IsSorted xs) : IsSorted (insert k v xs) := by
  induction xs with
  | nil => exact List.pairwise_singleton _ _
  | cons p xs ih =>
    obtain ⟨hhead, htail⟩ := List.pairwise_cons.mp h
    rw [insert]
    split_ifs with hlt heq
    · refine List.pairwise_cons.mpr ⟨?_, h⟩
      intro q hq
      rcases List.mem_cons.mp hq with rfl | hq
      · exact hlt
      · exact trans hlt (hhead q hq)
    · exact List.pairwise_cons.mpr ⟨heq ▸ hhead, htail⟩
    · refine List.pairwise_cons.mpr ⟨?_, ih htail⟩
      intro q hq
      rcases eq_or_mem_of_mem_insert hq with rfl | hq
      · exact connex hlt heq
      · exact hhead q hq

theorem insert_of_forall_lt (asymm : ∀ {a b : κ}, a < b → ¬ b < a) {k : κ} (v : β)
    {xs : List (κ × β)} (h : ∀ p ∈ xs, p.1 < k) : insert k v xs = xs ++ [(k, v)] := by
  induction xs with
  | nil => rfl
  | cons p xs ih =>
    obtain ⟨hp, hxs⟩ := List.forall_mem_cons.mp h
    have hne : p.1 ≠ k := by
      intro heq
      rw [heq] at hp
      exact asymm hp hp
    rw [insert, if_neg (asymm hp), if_neg hne, ih hxs, List.cons_append]

theorem ofList_of_isSorted (asymm : ∀ {a b : κ}, a < b → ¬ b < a) {xs : List (κ × β)}
    (h : IsSorted xs) : ofList xs = xs := by
  suffices hfold : ∀ acc : List (κ × β), IsSorted (acc ++ xs) →
      xs.foldl (fun m p ↦ insert p.1 p.2 m) acc = acc ++ xs from hfold [] h
  clear h
  induction xs with
  | nil => exact fun acc _ ↦ (List.append_nil acc).symm
  | cons p xs ih =>
    intro acc hacc
    have hlast : ∀ q ∈ acc, q.1 < p.1 := fun q hq ↦
      (List.pairwise_append.mp hacc).2.2 q hq p List.mem_cons_self
    rw [List.append_cons] at hacc ⊢
    rw [List.foldl_cons, insert_of_forall_lt asymm p.2 hlast]
    exact ih _ hacc

omit [LT κ] [DecidableLT κ] in
theorem get?_eq_none_of_nodup {p : κ × β} {xs ys : List (κ × β)}
    (h : ((xs ++ p :: ys).map Prod.fst).Nodup) : get? p.1 xs = none := by
  rw [List.map_append, List.map_cons, List.nodup_append] at h
  refine get?_eq_none_iff.mpr fun q hq heq ↦ ?_
  exact h.2.2 q.1 (List.mem_map_of_mem hq) p.1 List.mem_cons_self heq

/-- Pairs with distinct keys are put into the one list of them that is in order. -/
theorem ofList_eq_of_perm (trans : ∀ {a b c : κ}, a < b → b < c → a < c)
    (asymm : ∀ {a b : κ}, a < b → ¬ b < a) (connex : ∀ {a b : κ}, ¬ a < b → b ≠ a → b < a)
    {xs ys : List (κ × β)} (hperm : xs.Perm ys) (hys : IsSorted ys) : ofList xs = ys := by
  have hdistinct : (xs.map Prod.fst).Nodup := by
    refine ((hperm.map Prod.fst).nodup_iff).mpr (List.pairwise_map.mpr (hys.imp ?_))
    intro a b hlt heq
    rw [heq] at hlt
    exact asymm hlt hlt
  have hfold : ∀ acc : List (κ × β), IsSorted acc → ((acc ++ xs).map Prod.fst).Nodup →
      IsSorted (xs.foldl (fun m p ↦ insert p.1 p.2 m) acc) ∧
        (xs.foldl (fun m p ↦ insert p.1 p.2 m) acc).Perm (acc ++ xs) := by
    clear hdistinct hperm
    induction xs with
    | nil =>
      intro acc hacc _
      exact ⟨hacc, by rw [List.append_nil, List.foldl_nil]⟩
    | cons p xs ih =>
      intro acc hacc hnodup
      have hinsert : (insert p.1 p.2 acc ++ xs).Perm (acc ++ p :: xs) :=
        ((insert_perm (get?_eq_none_of_nodup hnodup)).append_right xs).trans
          List.perm_middle.symm
      have hnext := ih (insert p.1 p.2 acc) (isSorted_insert trans connex hacc)
        (((hinsert.map Prod.fst).nodup_iff).mpr hnodup)
      exact ⟨hnext.1, hnext.2.trans hinsert⟩
  obtain ⟨hsorted, hsame⟩ := hfold [] List.Pairwise.nil hdistinct
  refine (hsame.trans hperm).eq_of_pairwise ?_ hsorted hys
  intro a b _ _ hab hba
  exact absurd hba (asymm hab)

omit [LT κ] [DecidableLT κ] in
theorem erase_of_get?_eq_none {k : κ} {xs : List (κ × β)} (h : get? k xs = none) :
    erase k xs = xs := by
  refine List.filter_eq_self.mpr fun p hp ↦ ?_
  rw [decide_eq_true_eq]
  exact get?_eq_none_iff.mp h p hp

omit [LT κ] [DecidableLT κ] in
/-- Of the keys of some kind, as many are found as before; of the others, none. -/
theorem get?_filter (p : κ → Prop) [DecidablePred p] (k : κ) (xs : List (κ × β)) :
    get? k (xs.filter fun q ↦ p q.1) = if p k then get? k xs else none := by
  induction xs with
  | nil => simp [get?]
  | cons q xs ih =>
    obtain ⟨a, v⟩ := q
    by_cases ha : p a
    · rw [List.filter_cons_of_pos (by simpa using ha), get?, ih, get?]
      by_cases hak : a = k
      · rw [if_pos hak, if_pos hak, if_pos (hak ▸ ha)]
      · rw [if_neg hak, if_neg hak]
    · rw [List.filter_cons_of_neg (by simpa using ha), ih, get?]
      by_cases hak : a = k
      · rw [if_neg (hak ▸ ha), if_neg (hak ▸ ha)]
      · rw [if_neg hak]

theorem countP_keys_insert {p : κ → Bool} {k : κ} (h : p k = false) (v : β) (xs : List (κ × β)) :
    (keys (insert k v xs)).countP p = (keys xs).countP p := by
  induction xs with
  | nil => simp [insert, keys, h]
  | cons q xs ih =>
    obtain ⟨a, w⟩ := q
    rw [insert]
    split_ifs with hlt heq
    · rw [keys, List.map_cons, ← keys, List.countP_cons_of_neg (by simp [h])]
    · subst heq
      rfl
    · rw [keys, keys, List.map_cons, List.map_cons, ← keys, ← keys, List.countP_cons,
        List.countP_cons, ih]

omit [DecidableLT κ] in
theorem isSorted_erase {k : κ} {xs : List (κ × β)} (h : IsSorted xs) : IsSorted (erase k xs) :=
  List.Pairwise.filter _ h

end Redirector.Sorted
