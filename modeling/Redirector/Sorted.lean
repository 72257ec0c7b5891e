/-!
# Association lists in key order

Stored maps are written out in key order, so they are kept in it: a list of pairs whose keys
ascend. `insert` and `erase` keep that order and look only as far as the key's place; `get?` does
not rely on it. The laws say what each operation does to `get?`, and that the order is kept.
-/

namespace Redirector.Sorted

variable {κ β : Type} [LT κ] [DecidableLT κ] [DecidableEq κ]

def get? (k : κ) : List (κ × β) → Option β
  | [] => none
  | (k', v) :: rest => if k' = k then some v else get? k rest

/-- The list with a value under a key, in its place or instead of the old one. -/
def insert (k : κ) (v : β) : List (κ × β) → List (κ × β)
  | [] => [(k, v)]
  | (k', v') :: rest =>
    if k < k' then (k, v) :: (k', v') :: rest
    else if k' = k then (k, v) :: rest
    else (k', v') :: insert k v rest

def erase (k : κ) (xs : List (κ × β)) : List (κ × β) := xs.filter fun p ↦ p.1 ≠ k

def contains (k : κ) (xs : List (κ × β)) : Bool := (get? k xs).isSome

def keys (xs : List (κ × β)) : List κ := xs.map Prod.fst

/-- The list of pairs put in one after the other, a later value replacing an earlier one. -/
def ofList (xs : List (κ × β)) : List (κ × β) := xs.foldl (fun m p ↦ insert p.1 p.2 m) []

/-- Ascending keys. -/
def IsSorted (xs : List (κ × β)) : Prop := xs.Pairwise fun a b ↦ a.1 < b.1

omit [LT κ] [DecidableLT κ] in
theorem get?_erase (k j : κ) (xs : List (κ × β)) :
    get? j (erase k xs) = if j = k then none else get? j xs := by
  induction xs with
  | nil => simp [erase, get?]
  | cons p xs ih =>
    obtain ⟨a, v⟩ := p
    unfold erase at ih ⊢
    by_cases hak : a = k
    · subst hak
      rw [List.filter_cons_of_neg (by simp), ih]
      by_cases hj : j = a
      · simp [hj]
      · simp [hj, get?, Ne.symm hj]
    · rw [List.filter_cons_of_pos (by simpa using hak)]
      by_cases haj : a = j
      · simp [get?, haj, show j ≠ k from haj ▸ hak]
      · rw [get?, if_neg haj, ih, get?, if_neg haj]

theorem get?_insert (irrefl : ∀ a : κ, ¬ a < a) (k j : κ) (v : β) (xs : List (κ × β)) :
    get? j (insert k v xs) = if k = j then some v else get? j xs := by
  induction xs with
  | nil => simp [insert, get?]
  | cons p xs ih =>
    obtain ⟨a, w⟩ := p
    unfold insert
    by_cases h : k < a
    · have hne : a ≠ k := fun he ↦ irrefl k (he ▸ h)
      simp [h, get?]
    · by_cases hak : a = k
      · subst hak
        by_cases haj : a = j <;> simp [irrefl, get?, haj]
      · by_cases haj : a = j
        · subst haj
          simp [h, hak, get?, Ne.symm hak]
        · simp [h, hak, get?, haj, ih]

end Redirector.Sorted
