import Mathlib.Data.List.Infix
import Mathlib.Data.List.TakeWhile
import Mathlib.Tactic.SplitIfs
import Redirector.Pattern
import Redirector.Rule.Basic

/-!
# Translating patterns and templates

The filter of a redirect is translated from its pattern in three passes, and its target from a
template in one. Both translations can be told from the left, a character at a time.
-/

namespace Redirector.Pattern

/-! ## Translating a pattern in one scan

A pattern is translated in three passes over the whole text, and each pass looks at what the one
before it has written. None of them is misled by that: together they come to one scan from the left,
which copies a group where it finds one, puts a backslash before any other dot and before any dash,
and copies the rest (`toFilter_eq_scan`).

### Why nothing is mistaken for an escaped group

The last pass looks for `(\.*)`. Its backslash might come from the author of the pattern, and then
the dot behind it would have come through the first pass without one of its own. That this cannot be
is seen best from the other end. To take out each backslash that stands before a dot or a dash
(`unescape`) undoes the two escaping passes, so a text that they make begin with `\.*)` has begun
with `.*)` before; and restoring a group takes out such a backslash, too, so the same reading undoes
the whole translation (`unescape_toFilter`).
-/

/-! ### Replacing -/

/-- A text with every occurrence of one part replaced by another, looking for it from the left. What
was put in is not looked at again. -/
def replaceAll (old new : List Char) : List Char → List Char
  | [] => []
  | c :: rest =>
    if old <+: c :: rest then new ++ replaceAll old new (rest.drop (old.length - 1))
    else c :: replaceAll old new rest
termination_by s => s.length
decreasing_by
  · simp only [List.length_cons, List.length_drop]
    omega
  · simp

theorem escape_eq_replaceAll (c : Char) (s : List Char) :
    escape c s = replaceAll [c] ['\\', c] s := by
  induction s with
  | nil => simp [escape, replaceAll]
  | cons d rest ih =>
    rw [escape, List.flatMap_cons, ← escape, ih, replaceAll]
    by_cases heq : d = c
    · subst heq
      simp
    · simp [heq, Ne.symm heq]

/-! ### Escaping -/

/-- The text without the backslashes that stand immediately before a dot or a dash. -/
def unescape : List Char → List Char
  | [] => []
  | c :: rest =>
    if c = '\\' ∧ (rest.head? = some '.' ∨ rest.head? = some '-') then unescape rest
    else c :: unescape rest

theorem unescape_cons_of_ne {c : Char} (h : c ≠ '\\') (rest : List Char) :
    unescape (c :: rest) = c :: unescape rest := by
  rw [unescape, if_neg fun hcon ↦ h hcon.1]

/-- A text with a backslash before every dot and every dash. -/
def escapeBoth (s : List Char) : List Char :=
  s.flatMap fun c ↦ if c = '.' ∨ c = '-' then ['\\', c] else [c]

/-- The first pass writes no dash, and the second one leaves its dots alone. -/
theorem escape_escape (s : List Char) : escape '-' (escape '.' s) = escapeBoth s := by
  rw [escape, escape, List.flatMap_assoc, escapeBoth]
  refine List.flatMap_congr fun c _ ↦ ?_
  by_cases hdot : c = '.'
  · subst hdot
    rfl
  · by_cases hdash : c = '-'
    · subst hdash
      rfl
    · simp [hdot, hdash]

theorem ne_of_escaped {c d : Char} (hc : c = '.' ∨ c = '-') (hd : ¬ (d = '.' ∨ d = '-')) :
    c ≠ d := by
  rintro rfl
  exact hd hc

theorem escapeBoth_cons_of_escaped {c : Char} (h : c = '.' ∨ c = '-') (rest : List Char) :
    escapeBoth (c :: rest) = '\\' :: c :: escapeBoth rest := by
  rw [escapeBoth, List.flatMap_cons, if_pos h]
  rfl

theorem escapeBoth_cons_of_copied {c : Char} (h : ¬ (c = '.' ∨ c = '-')) (rest : List Char) :
    escapeBoth (c :: rest) = c :: escapeBoth rest := by
  rw [escapeBoth, List.flatMap_cons, if_neg h]
  rfl

/-- A backslash that was there before never comes to stand before a dot or a dash. -/
theorem head?_escapeBoth (s : List Char) :
    (escapeBoth s).head? ≠ some '.' ∧ (escapeBoth s).head? ≠ some '-' := by
  cases s with
  | nil => simp [escapeBoth]
  | cons c rest =>
    by_cases hescaped : c = '.' ∨ c = '-'
    · rw [escapeBoth_cons_of_escaped hescaped]
      simp
    · rw [escapeBoth_cons_of_copied hescaped]
      simpa [not_or] using hescaped

theorem unescape_escapeBoth (s : List Char) : unescape (escapeBoth s) = s := by
  induction s with
  | nil => rfl
  | cons c rest ih =>
    by_cases hescaped : c = '.' ∨ c = '-'
    · have hne : c ≠ '\\' := ne_of_escaped hescaped (by decide)
      have hhead : (c :: escapeBoth rest).head? = some '.' ∨
          (c :: escapeBoth rest).head? = some '-' := by
        simpa using hescaped
      rw [escapeBoth_cons_of_escaped hescaped, unescape, if_pos ⟨rfl, hhead⟩,
        unescape_cons_of_ne hne, ih]
    · obtain ⟨hdot, hdash⟩ := head?_escapeBoth rest
      rw [escapeBoth_cons_of_copied hescaped, unescape,
        if_neg fun hcon ↦ hcon.2.elim hdot hdash, ih]

/-! ### Restoring groups -/

/-- A group after the dots have been escaped. -/
def escapedGroup : List Char := ['(', '\\', '.', '*', ')']

theorem restoreStep_of_ne {c : Char} (h : c ≠ '(') (rest : List Char) :
    restoreStep c rest = c :: rest := by
  rw [restoreStep]
  rintro tail rfl
  exact absurd rfl h

theorem restoreGroups_cons (c : Char) (rest : List Char) :
    restoreGroups (c :: rest) = restoreStep c (restoreGroups rest) := rfl

theorem head?_restoreGroups (s : List Char) : (restoreGroups s).head? = s.head? := by
  cases s with
  | nil => rfl
  | cons c rest =>
    rw [restoreGroups_cons, restoreStep.eq_def]
    split
    · rfl
    · rfl

/-- Restoring leaves a text alone up to its first opening parenthesis. -/
theorem prefix_restoreGroups_iff {part : List Char} (h : '(' ∉ part) (s : List Char) :
    part <+: restoreGroups s ↔ part <+: s := by
  induction part generalizing s with
  | nil => exact iff_of_true List.nil_prefix List.nil_prefix
  | cons d part ih =>
    rw [List.mem_cons, not_or] at h
    cases s with
    | nil => rfl
    | cons c rest =>
      by_cases hopen : c = '('
      · -- Both texts begin with a parenthesis, and the part does not.
        have hrestored := head?_restoreGroups (c :: rest)
        refine iff_of_false ?_ ?_
        · rintro ⟨tail, htail⟩
          rw [← htail, hopen] at hrestored
          exact h.1 (Option.some.inj hrestored).symm
        · rw [hopen, List.cons_prefix_cons]
          exact fun hcon ↦ h.1 hcon.1.symm
      · rw [restoreGroups_cons, restoreStep_of_ne hopen, List.cons_prefix_cons,
          List.cons_prefix_cons, ih h.2]

theorem restoreGroups_escapedGroup_append (s : List Char) :
    restoreGroups (escapedGroup ++ s) = group ++ restoreGroups s := rfl

theorem restoreGroups_cons_of_no_group {c : Char} {rest : List Char}
    (h : ¬ escapedGroup <+: c :: rest) : restoreGroups (c :: rest) = c :: restoreGroups rest := by
  by_cases hopen : c = '('
  · subst hopen
    rw [restoreGroups_cons, restoreStep]
    rintro tail - htail
    have hbody : ['\\', '.', '*', ')'] <+: restoreGroups rest := ⟨tail, htail.symm⟩
    rw [prefix_restoreGroups_iff (by decide)] at hbody
    exact h (List.cons_prefix_cons.mpr ⟨rfl, hbody⟩)
  · rw [restoreGroups_cons, restoreStep_of_ne hopen]

/-- Groups do not overlap, so it does not matter from which side they are looked for. -/
theorem restoreGroups_eq_replaceAll (s : List Char) :
    restoreGroups s = replaceAll escapedGroup group s := by
  fun_induction replaceAll escapedGroup group s with
  | case1 => rfl
  | case2 c rest hgroup ih =>
    obtain ⟨tail, htail⟩ := hgroup
    cases htail
    exact (restoreGroups_escapedGroup_append tail).trans (congrArg (group ++ ·) ih)
  | case3 c rest hgroup ih => rw [restoreGroups_cons_of_no_group hgroup, ih]

/-- To restore a group takes out a backslash that stands before a dot. -/
theorem unescape_restoreGroups (s : List Char) : unescape (restoreGroups s) = unescape s := by
  rw [restoreGroups_eq_replaceAll]
  fun_induction replaceAll escapedGroup group s with
  | case1 => rfl
  | case2 c rest hgroup ih =>
    obtain ⟨tail, htail⟩ := hgroup
    cases htail
    exact congrArg (group ++ ·) ih
  | case3 c rest hgroup ih =>
    rw [← restoreGroups_eq_replaceAll] at ih ⊢
    rw [unescape, unescape, head?_restoreGroups, ih]

/-! ### One scan -/

/-- One scan from the left: a group is copied where it is met, any other dot and any dash gets a
backslash, and all other characters are copied. -/
def scan : List Char → List Char
  | '(' :: '.' :: '*' :: ')' :: rest => group ++ scan rest
  | c :: rest => if c = '.' ∨ c = '-' then '\\' :: c :: scan rest else c :: scan rest
  | [] => []

theorem restoreGroups_escapeBoth (s : List Char) : restoreGroups (escapeBoth s) = scan s := by
  fun_induction scan s with
  | case1 rest ih =>
    exact (restoreGroups_escapedGroup_append _).trans (congrArg (group ++ ·) ih)
  | case2 c rest hgroup hescaped ih =>
    have hopen : c ≠ '(' := ne_of_escaped hescaped (by decide)
    rw [escapeBoth_cons_of_escaped hescaped, restoreGroups_cons, restoreGroups_cons,
      restoreStep_of_ne hopen, restoreStep_of_ne (by decide), ih]
  | case3 c rest hgroup hescaped ih =>
    -- If `\.*)` follows a parenthesis after escaping, then `.*)` followed it before.
    rw [escapeBoth_cons_of_copied hescaped, restoreGroups_cons_of_no_group, ih]
    rintro ⟨tail, htail⟩
    obtain ⟨rfl, hrest⟩ := List.cons.inj htail
    have hread := congrArg unescape hrest
    rw [unescape_escapeBoth] at hread
    exact hgroup (unescape tail) rfl hread.symm
  | case4 => rfl

/-- **Three passes come to one scan.** The translation replaces each dot, then each dash, then each
group that the dots have left their backslashes in, each time in the whole text; what comes out is
what one scan from the left writes. -/
theorem toFilter_eq_scan (pattern : String) :
    toFilter pattern = String.ofList (scan pattern.toList) ∧
      toFilter pattern = String.ofList (replaceAll escapedGroup group
        (replaceAll ['-'] ['\\', '-'] (replaceAll ['.'] ['\\', '.'] pattern.toList))) := by
  constructor
  · rw [toFilter, escape_escape, restoreGroups_escapeBoth]
  · rw [toFilter, restoreGroups_eq_replaceAll, escape_eq_replaceAll, escape_eq_replaceAll]

/-- A group behind a backslash, a group that is written with one, and a group in parentheses. -/
example : scan "\\(.*).(\\.*)-((.*)".toList = "\\(.*)\\.(\\\\.*)\\-((.*)".toList := by decide

/-! ### Nothing is lost -/

theorem unescape_scan (s : List Char) : unescape (scan s) = s := by
  rw [← restoreGroups_escapeBoth, unescape_restoreGroups, unescape_escapeBoth]

theorem toList_toFilter (pattern : String) : (toFilter pattern).toList = scan pattern.toList := by
  rw [toFilter, escape_escape, restoreGroups_escapeBoth, String.toList_ofList]

theorem toFilter_injective : Function.Injective toFilter := by
  intro p q h
  have hscan : scan p.toList = scan q.toList := by
    rw [← toList_toFilter, ← toList_toFilter, h]
  have hread := congrArg unescape hscan
  rw [unescape_scan, unescape_scan] at hread
  exact String.toList_injective hread

/-- The number of places at which a part stands in a text. -/
def occurrences (part s : List Char) : Nat := s.tails.countP (part <+: ·)

theorem occurrences_cons (part : List Char) (c : Char) (rest : List Char) :
    occurrences part (c :: rest)
      = occurrences part rest + if part <+: c :: rest then 1 else 0 := by
  rw [occurrences, List.tails, List.countP_cons, ← occurrences]
  simp

theorem occurrences_group_cons {c : Char} (h : c ≠ '(') (rest : List Char) :
    occurrences group (c :: rest) = occurrences group rest := by
  have hnot : ¬ group <+: c :: rest := by
    rw [group, List.cons_prefix_cons]
    exact fun hcon ↦ h hcon.1.symm
  rw [occurrences_cons, if_neg hnot, Nat.add_zero]

theorem occurrences_group_append (rest : List Char) :
    occurrences group (group ++ rest) = occurrences group rest + 1 := by
  simp only [group, List.cons_append, List.nil_append]
  rw [← group, occurrences_cons, if_pos ⟨rest, rfl⟩, occurrences_group_cons (by decide),
    occurrences_group_cons (by decide), occurrences_group_cons (by decide)]

/-- No group comes about that was not one before, as no text begins with a dot after the scan. -/
theorem occurrences_group_scan (s : List Char) :
    occurrences group (scan s) = occurrences group s := by
  fun_induction scan s with
  | case1 rest ih =>
    have hgroup := occurrences_group_append rest
    rw [occurrences_group_append, ih]
    exact hgroup.symm
  | case2 c rest hgroup hescaped ih =>
    have hopen : c ≠ '(' := ne_of_escaped hescaped (by decide)
    rw [occurrences_group_cons (by decide), occurrences_group_cons hopen,
      occurrences_group_cons hopen, ih]
  | case3 c rest hgroup hescaped ih =>
    have hafter : ¬ group <+: c :: scan rest := by
      rintro ⟨tail, htail⟩
      obtain ⟨-, hrest⟩ := List.cons.inj htail
      rw [← restoreGroups_escapeBoth] at hrest
      have hhead := head?_restoreGroups (escapeBoth rest)
      rw [← hrest] at hhead
      exact (head?_escapeBoth rest).1 hhead.symm
    have hbefore : ¬ group <+: c :: rest := by
      rintro ⟨tail, htail⟩
      obtain ⟨rfl, rfl⟩ := List.cons.inj htail
      exact hgroup tail rfl rfl
    rw [occurrences_cons, occurrences_cons, if_neg hafter, if_neg hbefore, ih]
  | case4 => rfl

theorem regexFilter_of_ofRedirect {r : Redirect} {id : Nat} {x : Rule}
    (h : Rule.ofRedirect r id = .ok x) :
    x.condition.regexFilter = some (toFilter r.pattern) := by
  unfold Rule.ofRedirect at h
  split_ifs at h
  cases h
  rfl

/-- **A translated pattern is read back** by taking out each backslash that stands immediately
before a dot or a dash. So different patterns have different filters, also in the rules that they
compile to, and a filter has as many groups as its pattern. -/
theorem unescape_toFilter :
    (∀ p, String.ofList (unescape (toFilter p).toList) = p) ∧
      Function.Injective toFilter ∧
      (∀ (a b : Redirect) (i j : Nat) (x y : Rule), a.pattern ≠ b.pattern →
        Rule.ofRedirect a i = .ok x → Rule.ofRedirect b j = .ok y →
          x.condition.regexFilter ≠ y.condition.regexFilter) ∧
      ∀ p, occurrences group (toFilter p).toList = occurrences group p.toList := by
  refine ⟨fun p ↦ ?_, toFilter_injective, ?_, fun p ↦ ?_⟩
  · rw [toList_toFilter, unescape_scan, String.ofList_toList]
  · intro a b i j x y hne hx hy hsame
    rw [regexFilter_of_ofRedirect hx, regexFilter_of_ofRedirect hy] at hsame
    exact hne (toFilter_injective (Option.some.inj hsame))
  · rw [toList_toFilter, occurrences_group_scan]

/-- The filter of one pattern is spelled like the other pattern, whose own backslash is doubled. -/
theorem unescape_toFilter_backslash :
    let a : Redirect := ⟨"a.b(.*)", "https://c.example/$1"⟩
    let b : Redirect := ⟨"a\\.b(.*)", "https://c.example/$1"⟩
    toFilter a.pattern = b.pattern ∧ toFilter b.pattern = "a\\\\.b(.*)" ∧ a.pattern ≠ b.pattern ∧
      (∃ x y, Rule.ofRedirect a 1 = .ok x ∧ Rule.ofRedirect b 2 = .ok y ∧
        x.condition.regexFilter ≠ y.condition.regexFilter) ∧
      String.ofList (unescape (toFilter b.pattern).toList) = b.pattern ∧
      occurrences group (toFilter b.pattern).toList = 1 := by
  intro a b
  obtain ⟨hread, -, hrules, hcount⟩ := unescape_toFilter
  have hne : a.pattern ≠ b.pattern := by decide
  refine ⟨by decide, by decide, hne, ⟨_, _, rfl, rfl, ?_⟩, hread b.pattern, ?_⟩
  · exact hrules a b 1 2 _ _ hne rfl rfl
  · rw [hcount]
    decide

end Redirector.Pattern

namespace Redirector.Template

/-! ## References of a template, place by place

A template is translated from the left: each reference is taken with all of its digits, its dollar
sign is replaced, and the scan goes on behind it. At a single place none of that can be seen. A
dollar sign is replaced exactly if a digit stands immediately after it, however long the reference
is and whatever was replaced before (`getElem?_replaceReferences`).

### Why runs do not matter

The scan skips the digits of a reference. Had it gone on right behind the dollar sign, it would have
copied them one by one, since a digit does not begin a reference (`replaceReferences_append`). So
the translation can be told one character at a time, with the next one in view
(`replaceReferences_cons`).

### Why a second time changes nothing

The translation leaves every digit where it is and puts in none. A dollar sign that is left had no
digit after it, and has none now.
-/

/-- Whether a dollar sign stands at a place and a digit immediately after it. -/
def IsReferenceAt (s : List Char) (i : Nat) : Prop :=
  s[i]? = some '$' ∧ s[i + 1]?.any Text.isDigit = true

instance (s : List Char) (i : Nat) : Decidable (IsReferenceAt s i) :=
  inferInstanceAs (Decidable (_ ∧ _))

theorem isReferenceAt_cons_succ {c : Char} {rest : List Char} {i : Nat} :
    IsReferenceAt (c :: rest) (i + 1) ↔ IsReferenceAt rest i := Iff.rfl

/-! ### One character at a time -/

/-- Digits are copied, whether or not they are part of a reference. -/
theorem replaceReferences_append {digits : List Char} (h : ∀ d ∈ digits, Text.isDigit d = true)
    (rest : List Char) :
    replaceReferences (digits ++ rest) = digits ++ replaceReferences rest := by
  induction digits with
  | nil => rfl
  | cons d digits ih =>
    obtain ⟨hd, hdigits⟩ := List.forall_mem_cons.mp h
    have hne : d ≠ '$' := by
      rintro rfl
      exact absurd hd (by decide)
    rw [List.cons_append, replaceReferences, if_neg fun href ↦ hne href.1, ih hdigits,
      List.cons_append]

theorem takeWhile_isDigit_ne_nil_iff (s : List Char) :
    s.takeWhile Text.isDigit ≠ [] ↔ s[0]?.any Text.isDigit = true := by
  cases s with
  | nil => simp
  | cons c rest =>
    rw [List.takeWhile_cons]
    split_ifs with hc
    · simp [hc]
    · simp [hc]

theorem replaceReferences_cons (c : Char) (rest : List Char) :
    replaceReferences (c :: rest)
      = (if IsReferenceAt (c :: rest) 0 then '\\' else c) :: replaceReferences rest := by
  have href : (c = '$' ∧ rest.takeWhile Text.isDigit ≠ []) ↔ IsReferenceAt (c :: rest) 0 := by
    rw [takeWhile_isDigit_ne_nil_iff, IsReferenceAt, List.getElem?_cons_zero,
      List.getElem?_cons_succ, Option.some.injEq]
  rw [replaceReferences]
  simp only [href]
  split_ifs
  · have hdigits : ∀ d ∈ rest.takeWhile Text.isDigit, Text.isDigit d = true := fun _ ↦
      List.mem_takeWhile_imp
    rw [List.cons_append, ← replaceReferences_append hdigits, List.takeWhile_append_dropWhile]
  · rfl

/-! ### Place by place -/

theorem length_replaceReferences (s : List Char) : (replaceReferences s).length = s.length := by
  induction s with
  | nil => rw [replaceReferences]
  | cons c rest ih => rw [replaceReferences_cons, List.length_cons, List.length_cons, ih]

/-- **What becomes of one place** depends on the characters there and right after it. -/
theorem getElem?_replaceReferences (s : List Char) (i : Nat) :
    (replaceReferences s)[i]? = if IsReferenceAt s i then some '\\' else s[i]? := by
  induction s generalizing i with
  | nil => simp [replaceReferences, IsReferenceAt]
  | cons c rest ih =>
    rw [replaceReferences_cons]
    cases i with
    | zero =>
      rw [List.getElem?_cons_zero, List.getElem?_cons_zero]
      split_ifs
      · rfl
      · rfl
    | succ i =>
      rw [List.getElem?_cons_succ, List.getElem?_cons_succ, ih]
      simp only [isReferenceAt_cons_succ]

/-! ### A second time -/

/-- There are digits where there were digits before, and nowhere else. -/
theorem any_isDigit_replaceReferences (s : List Char) (i : Nat) :
    (replaceReferences s)[i]?.any Text.isDigit = s[i]?.any Text.isDigit := by
  rw [getElem?_replaceReferences]
  split_ifs with href
  · rw [href.1]
    decide
  · rfl

theorem not_isReferenceAt_replaceReferences (s : List Char) (i : Nat) :
    ¬ IsReferenceAt (replaceReferences s) i := by
  rintro ⟨hdollar, hdigit⟩
  rw [any_isDigit_replaceReferences] at hdigit
  rw [getElem?_replaceReferences] at hdollar
  split_ifs at hdollar with href
  · exact absurd (Option.some.inj hdollar) (by decide)
  · exact href ⟨hdollar, hdigit⟩

theorem replaceReferences_replaceReferences (s : List Char) :
    replaceReferences (replaceReferences s) = replaceReferences s := by
  refine List.ext_getElem? fun i ↦ ?_
  rw [getElem?_replaceReferences, if_neg (not_isReferenceAt_replaceReferences s i)]

/-- **The substitution of a template.** Each dollar sign that a digit follows immediately has become
a backslash, and every other character stands where it stood, so there are as many as before.
Translating the substitution once more changes nothing. -/
theorem toSubstitution_pointwise (template : String) :
    (∀ i, (toSubstitution template).toList[i]? =
        if IsReferenceAt template.toList i then some '\\' else template.toList[i]?) ∧
      (toSubstitution template).length = template.length ∧
      toSubstitution (toSubstitution template) = toSubstitution template := by
  have hlist : (toSubstitution template).toList = replaceReferences template.toList :=
    String.toList_ofList
  refine ⟨fun i ↦ ?_, ?_, ?_⟩
  · rw [hlist, getElem?_replaceReferences]
  · rw [← String.length_toList, hlist, length_replaceReferences, String.length_toList]
  · rw [toSubstitution, hlist, replaceReferences_replaceReferences, toSubstitution]

/-- Dollar signs before a reference and at the end stay, as does a backslash of the author's. -/
example : toSubstitution "$$1$2\\3$٤$x$" = "$\\1\\2\\3\\٤$x$" := by
  cbv

end Redirector.Template
