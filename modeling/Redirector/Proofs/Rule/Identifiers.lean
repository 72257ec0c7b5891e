import Mathlib.Data.Finset.Card
import Mathlib.Data.List.Nodup
import Redirector.Proofs.Rule.Compile

/-!
# The identifiers of compiled rules

Identifiers are given out by a counter for each kind of rule, and a counter is a machine word. The
compiler counts with natural numbers instead; this is where that is justified. The pass with a word
as its state, for which counting past the last word is a failure (`Rule.compileInWords`), comes to
the same results exactly if the count stays below the last word (`Rule.compileInWords_eq_some_iff`).

Redirects stop at the end of their range, so their counter never gets far. Domains do not stop, and
their counter fits as long as there are not too many different ones. Up to there the identifiers can
be listed: they depend on nothing but how many different entries of each kind there are
(`Forwarding.map_kind_id_compileAll`).
-/

namespace Redirector

namespace Rule

/-! ## Counting in words -/

section

variable {α : Type} {compile : α → Nat → Except SkipReason Rule}

/-- The compiler with a machine word as its state. Nothing comes of it if an identifier has been
used and there is no word after it. -/
def compileInWords (compile : α → Nat → Except SkipReason Rule) :
    (next : UInt32) → List α → Option (List (Except SkipReason Rule))
  | _, [] => some []
  | next, a :: rest =>
    match compile a next.toNat with
    | .ok r =>
      if next.toNat + 1 < UInt32.size then
        (compileInWords compile (next + 1) rest).map (.ok r :: ·)
      else none
    | .error reason => (compileInWords compile next rest).map (.error reason :: ·)

theorem compiled_ok_cons (r : Rule) (entries : List (Except SkipReason Rule)) :
    compiled (.ok r :: entries) = r :: compiled entries := rfl

theorem compiled_error_cons (reason : SkipReason) (entries : List (Except SkipReason Rule)) :
    compiled (.error reason :: entries) = compiled entries := rfl

/-- **Words are enough** exactly if the count stays below the last word, and then the results are
those of counting without bounds. -/
theorem compileInWords_eq_some_iff {next : UInt32} {as : List α}
    {entries : List (Except SkipReason Rule)} :
    compileInWords compile next as = some entries ↔
      next.toNat + (compiled entries).length < UInt32.size ∧
        entries = compileFrom compile next.toNat as := by
  induction as generalizing next entries with
  | nil =>
    rw [compileInWords, compileFrom, Option.some.injEq, eq_comm, iff_and_self]
    rintro rfl
    exact next.toNat_lt_size
  | cons a as ih =>
    rw [compileInWords, compileFrom]
    cases compile a next.toNat with
    | error reason =>
      simp only [Option.map_eq_some_iff, ih]
      constructor
      · rintro ⟨rest, ⟨hbound, rfl⟩, rfl⟩
        exact ⟨hbound, rfl⟩
      · rintro ⟨hbound, rfl⟩
        exact ⟨compileFrom compile next.toNat as, ⟨hbound, rfl⟩, rfl⟩
    | ok r =>
      -- The word after `next`, as long as there is one.
      have hnext : next.toNat + 1 < UInt32.size → (next + 1).toNat = next.toNat + 1 := by
        intro hlt
        rw [UInt32.toNat_add]
        exact Nat.mod_eq_of_lt hlt
      dsimp only
      split_ifs with hlt
      · simp only [Option.map_eq_some_iff, ih, hnext hlt]
        constructor
        · rintro ⟨rest, ⟨hbound, rfl⟩, rfl⟩
          rw [compiled_ok_cons, List.length_cons]
          exact ⟨by omega, rfl⟩
        · rintro ⟨hbound, rfl⟩
          rw [compiled_ok_cons, List.length_cons] at hbound
          exact ⟨compileFrom compile (next.toNat + 1) as, ⟨by omega, rfl⟩, rfl⟩
      · refine iff_of_false (by simp) ?_
        rintro ⟨hbound, rfl⟩
        rw [compiled_ok_cons, List.length_cons] at hbound
        omega

end

/-! ## Kinds and identifiers -/

theorem forRedirect_id (r : Redirect) (n : Nat) : (forRedirect r n).id = UInt32.ofNat n := rfl

theorem forRedirect_kind (r : Redirect) (n : Nat) : (forRedirect r n).kind = .redirect := rfl

theorem forDomain_id (d : String) (n : Nat) : (forDomain d n).id = UInt32.ofNat n := rfl

theorem forDomain_kind (d : String) (n : Nat) : (forDomain d n).kind = .header := rfl

theorem map_kind_id_numbered {α : Type} {build : α → Nat → Rule} {k : Kind}
    (hid : ∀ a n, (build a n).id = UInt32.ofNat n) (hkind : ∀ a n, (build a n).kind = k)
    {first : Nat} {as : List α} (hbound : first + as.length ≤ UInt32.size) :
    (numbered build first as).map (fun r ↦ (r.kind, r.id.toNat))
      = (List.range' first as.length).map (k, ·) := by
  rw [numbered, List.map_map, ← List.zipIdx_map_snd, List.map_map]
  refine List.map_congr_left fun p hp ↦ ?_
  have hlt := (List.mem_zipIdx hp).2.1
  rw [Function.comp_apply, Function.comp_apply, hkind, hid, UInt32.toNat_ofNat_of_lt' (by omega)]

theorem filter_kind_numbered {α : Type} {build : α → Nat → Rule} {k k' : Kind}
    (hkind : ∀ a n, (build a n).kind = k) {first : Nat} {as : List α} :
    (numbered build first as).filter (·.kind = k')
      = if k = k' then numbered build first as else [] := by
  have hall : ∀ r ∈ numbered build first as, r.kind = k := by
    intro r hr
    obtain ⟨p, -, rfl⟩ := List.mem_map.mp hr
    exact hkind p.1 p.2
  split_ifs with heq
  · exact List.filter_eq_self.mpr fun r hr ↦ decide_eq_true ((hall r hr).trans heq)
  · refine List.filter_eq_nil_iff.mpr fun r hr ↦ ?_
    rw [hall r hr, decide_eq_true_eq]
    exact heq

end Rule

namespace Forwarding

open Rule

/-! ## How many there are -/

/-- How many different redirects have both of their parts. -/
def redirectCount (fs : List Forwarding) : Nat :=
  ((fs.flatMap redirects).filter isComplete).toFinset.card

/-- How many different domains there are, without the empty one. -/
def domainCount (fs : List Forwarding) : Nat :=
  ((fs.flatMap domains).filter (· ≠ "")).toFinset.card

theorem nodup_eraseDups {α : Type} [DecidableEq α] : (xs : List α) → xs.eraseDups.Nodup
  | [] => by simp
  | a :: xs => by
    rw [List.eraseDups_cons, List.nodup_cons, List.mem_eraseDups]
    have hshorter := List.length_filter_le (fun b ↦ !b == a) xs
    exact ⟨by simp, nodup_eraseDups (xs.filter fun b ↦ !b == a)⟩
termination_by xs => xs.length

/-- Dropping duplicates leaves as many entries of a sort as there are different ones. -/
theorem length_filter_eraseDups {α : Type} [DecidableEq α] (p : α → Bool) (xs : List α) :
    (xs.eraseDups.filter p).length = (xs.filter p).toFinset.card := by
  rw [← List.toFinset_card_of_nodup ((nodup_eraseDups xs).filter p)]
  congr 1
  ext a
  simp

theorem length_take_redirects (fs : List Forwarding) :
    (((fs.flatMap redirects).eraseDups.filter isComplete).take 999).length
      = min (redirectCount fs) 999 := by
  rw [List.length_take, length_filter_eraseDups, redirectCount, Nat.min_comm]

theorem length_filter_domains (fs : List Forwarding) :
    ((fs.flatMap domains).eraseDups.filter (· ≠ "")).length = domainCount fs :=
  length_filter_eraseDups _ _

/-! ## Which identifiers there are -/

theorem map_kind_id_compileAll (fs : List Forwarding) (withHeaders : Bool)
    (h : domainCount fs ≤ UInt32.size - 1001) :
    (compileAll fs withHeaders).map (fun r ↦ (r.kind, r.id.toNat))
      = (List.range' 1 (min (redirectCount fs) 999)).map (.redirect, ·) ++
        if withHeaders then (List.range' 1000 (domainCount fs)).map (.header, ·) else [] := by
  have hredirects : 1 + min (redirectCount fs) 999 ≤ UInt32.size := by
    rw [UInt32.size]
    omega
  have hdomains : 1000 + domainCount fs ≤ UInt32.size := by
    rw [UInt32.size] at h ⊢
    omega
  rw [← length_take_redirects] at hredirects
  rw [← length_filter_domains] at hdomains
  rw [compileAll_eq, List.map_append,
    map_kind_id_numbered forRedirect_id forRedirect_kind hredirects, length_take_redirects]
  congr 1
  split_ifs with hheaders
  · rw [map_kind_id_numbered forDomain_id forDomain_kind hdomains, length_filter_domains]
  · rfl

theorem id_ne_zero_of_mem_compileAll {fs : List Forwarding} {withHeaders : Bool}
    (h : domainCount fs ≤ UInt32.size - 1001) {r : Rule} (hr : r ∈ compileAll fs withHeaders) :
    r.id ≠ 0 := by
  have hmem : (r.kind, r.id.toNat) ∈
      (compileAll fs withHeaders).map (fun r ↦ (r.kind, r.id.toNat)) := List.mem_map_of_mem hr
  rw [map_kind_id_compileAll fs withHeaders h, List.mem_append, List.mem_map] at hmem
  intro hzero
  rcases hmem with ⟨n, hn, heq⟩ | hheader
  · rw [hzero, Prod.mk.injEq] at heq
    rw [List.mem_range'_1, heq.2] at hn
    exact absurd hn.1 (by decide)
  · split_ifs at hheader
    · obtain ⟨n, hn, heq⟩ := List.mem_map.mp hheader
      rw [hzero, Prod.mk.injEq] at heq
      rw [List.mem_range'_1, heq.2] at hn
      exact absurd hn.1 (by decide)
    · exact absurd hheader List.not_mem_nil

/-- Counters that do not run out number the compiled rules in ascending order. -/
theorem ascending_compileAll_of_domainCount {fs : List Forwarding} {withHeaders : Bool}
    (h : domainCount fs ≤ UInt32.size - 1001) : Ascending (compileAll fs withHeaders) :=
  ascending_compileAll fun _ hr ↦ id_ne_zero_of_mem_compileAll h hr

theorem filter_kind_compileAll (fs : List Forwarding) (withHeaders : Bool) (k : Kind) :
    (compileAll fs withHeaders).filter (·.kind = k)
      = match k with
        | .redirect => (union fs).redirectRules
        | .header => if withHeaders then (union fs).headerRules else [] := by
  have hredirects : (union fs).redirectRules.filter (·.kind = k)
      = if Kind.redirect = k then (union fs).redirectRules else [] := by
    rw [redirectRules_eq]
    exact filter_kind_numbered forRedirect_kind
  have hheaders : (union fs).headerRules.filter (·.kind = k)
      = if Kind.header = k then (union fs).headerRules else [] := by
    rw [headerRules_eq]
    exact filter_kind_numbered forDomain_kind
  rw [compileAll, List.filter_append, hredirects]
  cases withHeaders with
  | false => cases k with
    | redirect => exact List.append_nil _
    | header => rfl
  | true =>
    rw [if_pos rfl, hheaders]
    cases k with
    | redirect => exact List.append_nil _
    | header => rfl

/-- Leaving the header rules out changes nothing about the redirects. -/
theorem compileAll_false (fs : List Forwarding) :
    compileAll fs false = (compileAll fs true).filter (·.kind = .redirect) := by
  rw [filter_kind_compileAll, compileAll, if_neg Bool.false_ne_true, List.append_nil]

/-! ## Compiling in words -/

/-- `compileAll` with machine words for counters. -/
def compileAllInWords (fs : List Forwarding) (withHeaders : Bool) : Option (List Rule) := do
  let merged := union fs
  let redirects ← compileInWords ofRedirect (UInt32.ofNat firstRedirectId) merged.redirects
  if withHeaders then
    let domains ← compileInWords ofDomain (UInt32.ofNat firstHeaderId) merged.domains
    return compiled redirects ++ compiled domains
  return compiled redirects

theorem compileInWords_redirects (f : Forwarding) :
    compileInWords ofRedirect (UInt32.ofNat firstRedirectId) f.redirects
      = some f.redirectEntries := by
  rw [compileInWords_eq_some_iff]
  have hlength : (compiled f.redirectEntries).length ≤ 999 := by
    change f.redirectRules.length ≤ 999
    rw [redirectRules_eq, numbered, List.length_map, List.length_zipIdx, List.length_take]
    exact Nat.min_le_left _ _
  exact ⟨Nat.lt_of_le_of_lt (Nat.add_le_add_left hlength 1) (by decide), rfl⟩

/-- Domains can be counted in words exactly if there are not too many of them. -/
theorem compileInWords_domains_iff (f : Forwarding) :
    compileInWords ofDomain (UInt32.ofNat firstHeaderId) f.domains = some f.domainEntries ↔
      (f.domains.filter (· ≠ "")).length ≤ UInt32.size - 1001 := by
  have hlength : (compiled f.domainEntries).length = (f.domains.filter (· ≠ "")).length := by
    change f.headerRules.length = _
    rw [headerRules_eq, numbered, List.length_map, List.length_zipIdx]
  have hfirst : (UInt32.ofNat firstHeaderId).toNat = 1000 := by decide
  rw [compileInWords_eq_some_iff, hlength, hfirst, UInt32.size]
  exact ⟨fun h ↦ by omega, fun h ↦ ⟨by omega, rfl⟩⟩

theorem length_filter_domains_union (fs : List Forwarding) :
    ((union fs).domains.filter (· ≠ "")).length = domainCount fs := by
  rw [← length_filter_domains, ← firstOccurrences_eq]
  rfl

theorem compileAllInWords_eq (fs : List Forwarding) (withHeaders : Bool)
    (h : domainCount fs ≤ UInt32.size - 1001) :
    compileAllInWords fs withHeaders = some (compileAll fs withHeaders) := by
  rw [← length_filter_domains_union] at h
  rw [compileAllInWords]
  simp only [compileInWords_redirects, (compileInWords_domains_iff (union fs)).mpr h]
  cases withHeaders with
  | true => rfl
  | false => exact congrArg some (List.append_nil _).symm

/-- **The identifiers of compiled rules.** As long as the domains can be counted, counting in words
comes to the compiled rules. Redirects have the identifiers from the first one on without gaps, as
many as there are different redirects with both parts, but none beyond their range; if they are
wanted, header rules follow with the identifiers of their own range, one for each different domain.
Identifiers ascend along the list, so none occurs twice. -/
theorem identifiers_compileAll (fs : List Forwarding) (withHeaders : Bool)
    (h : domainCount fs ≤ UInt32.size - 1001) :
    compileAllInWords fs withHeaders = some (compileAll fs withHeaders) ∧
      (compileAll fs withHeaders).map (fun r ↦ (r.kind, r.id.toNat))
        = (List.range' 1 (min (redirectCount fs) 999)).map (.redirect, ·) ++
          (if withHeaders then (List.range' 1000 (domainCount fs)).map (.header, ·) else []) ∧
      compileAll fs false = (compileAll fs true).filter (·.kind = .redirect) ∧
      Ascending (compileAll fs withHeaders) ∧ ((compileAll fs withHeaders).map Rule.id).Nodup := by
  have hascending : Ascending (compileAll fs withHeaders) := ascending_compileAll_of_domainCount h
  exact ⟨compileAllInWords_eq fs withHeaders h, map_kind_id_compileAll fs withHeaders h,
    compileAll_false fs, hascending, hascending.distinct⟩

/-- Two configurations that share a redirect and a domain, with an incomplete redirect and an empty
domain before these. -/
theorem identifiers_compileAll_shared :
    let fs : List Forwarding := [
      ⟨[⟨"", "b"⟩, ⟨"a", "b"⟩, ⟨"c", "d"⟩], ["", "x.example"]⟩,
      ⟨[⟨"a", "b"⟩, ⟨"a", ""⟩, ⟨"a", "e"⟩], ["x.example", "y.example"]⟩]
    domainCount fs ≤ UInt32.size - 1001 ∧
      (compileAll fs true).map (fun r ↦ (r.kind, r.id.toNat))
        = [(.redirect, 1), (.redirect, 2), (.redirect, 3), (.header, 1000), (.header, 1001)] := by
  intro fs
  have hcount : domainCount fs = 2 := by decide
  have hredirects : redirectCount fs = 3 := by decide
  have hbound : domainCount fs ≤ UInt32.size - 1001 := by
    rw [hcount]
    decide
  refine ⟨hbound, ?_⟩
  rw [(identifiers_compileAll fs true hbound).2.1, hcount, hredirects]
  rfl

end Forwarding

/-! ## Configurations at the end of the list

Active profiles are compiled in the order in which they are displayed, and the identifiers of rules
go by that order. So it matters what a profile at the end does to the rules of those before it.
The answer is: nothing. Each stage of the compiler goes through its list once and never returns to
what it has put out, so it takes a list that goes on to results that go on:

* merging drops an entry for what stands before it, never for what follows (`prefix_foldl_addNew`);
* the pass over the entries continues with the identifier that it would end on
  (`compileFrom_append`), and the limit for redirects cuts off the end;
* skipped entries are dropped one by one.

The two kinds have to be looked at apart, as new redirects stand before the old header rules.
-/

namespace Forwarding

section

variable {α : Type} [DecidableEq α]

theorem prefix_addNew (kept : List α) (a : α) : kept <+: addNew kept a := by
  rw [addNew]
  split_ifs
  · exact List.prefix_refl kept
  · exact List.prefix_append kept [a]

theorem prefix_foldl_addNew (kept xs : List α) : kept <+: xs.foldl addNew kept := by
  induction xs generalizing kept with
  | nil => exact List.prefix_refl kept
  | cons a xs ih => exact (prefix_addNew kept a).trans (ih (addNew kept a))

theorem prefix_firstOccurrences_append (xs ys : List α) :
    firstOccurrences xs <+: firstOccurrences (xs ++ ys) := by
  rw [firstOccurrences, firstOccurrences, List.foldl_append]
  exact prefix_foldl_addNew _ ys

end

end Forwarding

namespace Rule

section

variable {α : Type} {compile : α → Nat → Except SkipReason Rule}

/-- **The pass goes on where it stopped**, with the first identifier that it has not used. -/
theorem compileFrom_append (next : Nat) (as bs : List α) :
    compileFrom compile next (as ++ bs) = compileFrom compile next as ++
      compileFrom compile (next + (compiled (compileFrom compile next as)).length) bs := by
  induction as generalizing next with
  | nil => rfl
  | cons a as ih =>
    rw [List.cons_append, compileFrom, compileFrom]
    cases compile a next with
    | ok r =>
      dsimp only
      rw [ih, compiled_ok_cons, List.length_cons, List.cons_append, Nat.add_right_comm,
        Nat.add_assoc]
    | error reason =>
      dsimp only
      rw [ih, compiled_error_cons, List.cons_append]

/-- Entries that follow do not change which rules came out before them. -/
theorem prefix_compiled_compileFrom (next : Nat) {as bs : List α} (h : as <+: bs) :
    compiled (compileFrom compile next as) <+: compiled (compileFrom compile next bs) := by
  obtain ⟨cs, rfl⟩ := h
  rw [compileFrom_append, compiled, compiled, List.filterMap_append]
  exact List.prefix_append _ _

end

end Rule

namespace Forwarding

open Rule

variable (fs gs : List Forwarding)

theorem prefix_redirects_union_append : (union fs).redirects <+: (union (fs ++ gs)).redirects := by
  change firstOccurrences (fs.flatMap redirects) <+: firstOccurrences ((fs ++ gs).flatMap redirects)
  rw [List.flatMap_append]
  exact prefix_firstOccurrences_append _ _

theorem prefix_domains_union_append : (union fs).domains <+: (union (fs ++ gs)).domains := by
  change firstOccurrences (fs.flatMap domains) <+: firstOccurrences ((fs ++ gs).flatMap domains)
  rw [List.flatMap_append]
  exact prefix_firstOccurrences_append _ _

theorem domainCount_le_append : domainCount fs ≤ domainCount (fs ++ gs) := by
  rw [domainCount, domainCount, List.flatMap_append, List.filter_append, List.toFinset_append]
  exact Finset.card_le_card Finset.subset_union_left

/-- **Configurations at the end leave earlier rules alone.** The rules of either kind that some
configurations compile to are the first ones, with the same identifiers and in the same order, of
those that they compile to together with others after them. As long as the domains of all of them
can be counted, counting in words comes to these rules for both lists. -/
theorem prefix_compileAll_append (withHeaders : Bool) :
    (∀ k : Kind, (compileAll fs withHeaders).filter (·.kind = k)
        <+: (compileAll (fs ++ gs) withHeaders).filter (·.kind = k)) ∧
      (domainCount (fs ++ gs) ≤ UInt32.size - 1001 →
        compileAllInWords fs withHeaders = some (compileAll fs withHeaders) ∧
        compileAllInWords (fs ++ gs) withHeaders = some (compileAll (fs ++ gs) withHeaders)) := by
  refine ⟨fun k ↦ ?_, fun h ↦ ⟨?_, compileAllInWords_eq (fs ++ gs) withHeaders h⟩⟩
  · rw [filter_kind_compileAll, filter_kind_compileAll]
    cases k with
    | redirect => exact prefix_compiled_compileFrom _ (prefix_redirects_union_append fs gs)
    | header =>
      dsimp only
      split_ifs
      · exact prefix_compiled_compileFrom _ (prefix_domains_union_append fs gs)
      · exact List.prefix_refl []
  · exact compileAllInWords_eq fs withHeaders ((domainCount_le_append fs gs).trans h)

/-- The second configuration repeats entries of the first, has others that are skipped, and adds a
redirect and a domain; these get the next identifiers. -/
theorem prefix_compileAll_append_repeated :
    let f : Forwarding := ⟨[⟨"a", "b"⟩, ⟨"", "b"⟩], ["x.example"]⟩
    let g : Forwarding := ⟨[⟨"a", "b"⟩, ⟨"c", ""⟩, ⟨"c", "d"⟩], ["", "x.example", "y.example"]⟩
    domainCount ([f] ++ [g]) ≤ UInt32.size - 1001 ∧
      (compileAll [f] true).filter (·.kind = .redirect)
        <+: (compileAll ([f] ++ [g]) true).filter (·.kind = .redirect) ∧
      (compileAll [f] true).filter (·.kind = .header)
        <+: (compileAll ([f] ++ [g]) true).filter (·.kind = .header) ∧
      compileAllInWords ([f] ++ [g]) true = some (compileAll ([f] ++ [g]) true) ∧
      (compileAll [f] true).map (·.id) = [1, 1000] ∧
      (compileAll ([f] ++ [g]) true).map (·.id) = [1, 2, 1000, 1001] := by
  intro f g
  have hbound : domainCount ([f] ++ [g]) ≤ UInt32.size - 1001 := by
    have hcount : domainCount ([f] ++ [g]) = 2 := by decide
    rw [hcount]
    decide
  obtain ⟨hkept, hwords⟩ := prefix_compileAll_append [f] [g] true
  exact ⟨hbound, hkept .redirect, hkept .header, (hwords hbound).2, by decide, by decide⟩

end Forwarding

end Redirector
