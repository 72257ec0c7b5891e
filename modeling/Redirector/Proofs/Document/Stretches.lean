import Mathlib.Data.List.Basic
import Mathlib.Data.List.Induction
import Redirector.Document

/-!
# Stretches of a document

Any text, be it JSON or not, is a sequence of stretches: strings, comments, and single characters
that are in neither. A string or comment that is never closed reaches to the end of the text. Which
stretch a text begins with is said with the rest of the text at hand (`Begins`), since a slash is a
character like any other unless the next one makes it open a comment. There is always exactly one,
so there is exactly one way to divide a text (`exists_divided`).

## What is left

The comments are taken out stretch by stretch: a character or a string stays, a line comment leaves
nothing, since its line break is not part of it, and a block comment leaves a blank
(`Divided.stripComments_eq`). What is left is divided as the text was, less the comments
(`Divided.left`). The one thing to see to is a slash that does not open a comment: would the next
character be another one afterwards, it might. But no comment comes right after such a slash, so
the next character stays. A second pass therefore finds the same strings and no comment, and changes
nothing (`stripComments_stable`).
-/

namespace Redirector.Document

/-! ## Strings -/

/-- How far a string reaches behind its opening quote: over `body`, with the closing quote if there
is one, and then `rest` follows. A quote behind a backslash does not close the string. -/
inductive Spans : (s body rest : List Char) → Prop
  | closed {s : List Char} : Spans ('"' :: s) ['"'] s
  | nil : Spans [] [] []
  | backslash : Spans ['\\'] ['\\'] []
  | plain {c : Char} {s body rest : List Char} (hquote : c ≠ '"') (hback : c ≠ '\\')
    (h : Spans s body rest) : Spans (c :: s) (c :: body) rest
  | escaped {s body rest : List Char} (c : Char) (h : Spans s body rest) :
    Spans ('\\' :: c :: s) ('\\' :: c :: body) rest

theorem exists_spans (s : List Char) : ∃ body rest, Spans s body rest := by
  induction s using List.twoStepInduction with
  | nil => exact ⟨[], [], .nil⟩
  | singleton c =>
    by_cases hquote : c = '"'
    · exact ⟨['"'], [], hquote ▸ .closed⟩
    · by_cases hback : c = '\\'
      · exact ⟨['\\'], [], hback ▸ .backslash⟩
      · exact ⟨[c], [], .plain hquote hback .nil⟩
  | cons_cons c d s ih ihd =>
    by_cases hquote : c = '"'
    · exact ⟨['"'], d :: s, hquote ▸ .closed⟩
    · by_cases hback : c = '\\'
      · obtain ⟨body, rest, hspans⟩ := ih
        exact ⟨'\\' :: d :: body, rest, hback ▸ .escaped d hspans⟩
      · obtain ⟨body, rest, hspans⟩ := ihd d
        exact ⟨c :: body, rest, .plain hquote hback hspans⟩

namespace Spans

variable {s body rest : List Char}

theorem unique (h : Spans s body rest) {body' rest' : List Char} (h' : Spans s body' rest') :
    body = body' ∧ rest = rest' := by
  induction h generalizing body' rest' with
  | closed =>
    cases h' with
    | closed => exact ⟨rfl, rfl⟩
    | plain hquote => exact absurd rfl hquote
  | nil =>
    cases h' with
    | nil => exact ⟨rfl, rfl⟩
  | backslash =>
    cases h' with
    | backslash => exact ⟨rfl, rfl⟩
    | plain _ hback => exact absurd rfl hback
  | plain hquote hback _ ih =>
    cases h' with
    | closed => exact absurd rfl hquote
    | backslash | escaped => exact absurd rfl hback
    | plain _ _ hspans =>
      obtain ⟨rfl, rfl⟩ := ih hspans
      exact ⟨rfl, rfl⟩
  | escaped c _ ih =>
    cases h' with
    | plain _ hback => exact absurd rfl hback
    | escaped _ hspans =>
      obtain ⟨rfl, rfl⟩ := ih hspans
      exact ⟨rfl, rfl⟩

theorem eq_append (h : Spans s body rest) : s = body ++ rest := by
  induction h with
  | closed | nil | backslash => rfl
  | plain _ _ _ ih => rw [ih, List.cons_append]
  | escaped c _ ih => rw [ih, List.cons_append, List.cons_append]

/-- What comes after a string has no part in where it ends, unless it ends because nothing comes. -/
theorem replace (h : Spans s body rest) (rest' : List Char) :
    rest = [] ∨ Spans (body ++ rest') body rest' := by
  induction h with
  | closed => exact Or.inr .closed
  | nil | backslash => exact Or.inl rfl
  | plain hquote hback _ ih => exact ih.imp_right (.plain hquote hback)
  | escaped c _ ih => exact ih.imp_right (.escaped c)

theorem finish_eq (h : Spans s body rest) (written : List Char) :
    (s.foldl CommentScan.step ⟨.string, written⟩).finish
      = (rest.foldl CommentScan.step ⟨.plain, body.reverse ++ written⟩).finish := by
  induction h generalizing written with
  | closed | nil | backslash => rfl
  | @plain c s body rest hquote hback _ ih =>
    have hstep : CommentScan.step ⟨.string, written⟩ c = ⟨.string, c :: written⟩ := by
      simp only [CommentScan.step, hback, hquote, if_false]
    rw [List.foldl_cons, hstep, ih, List.reverse_cons, List.append_assoc, List.singleton_append]
  | @escaped s body rest c _ ih =>
    have hstep : CommentScan.step (CommentScan.step ⟨.string, written⟩ '\\') c
        = ⟨.string, c :: '\\' :: written⟩ := rfl
    rw [List.foldl_cons, List.foldl_cons, hstep, ih]
    simp

end Spans

/-! ## Comments -/

/-- A comment opens here. -/
def Opens (s : List Char) : Prop := ['/', '/'] <+: s ∨ ['/', '*'] <+: s

theorem opens_line (s : List Char) : Opens ('/' :: '/' :: s) := Or.inl (List.prefix_append _ s)

theorem opens_block (s : List Char) : Opens ('/' :: '*' :: s) := Or.inr (List.prefix_append _ s)

theorem opens_cons_iff {c : Char} {s : List Char} :
    Opens (c :: s) ↔ c = '/' ∧ (s.head? = some '/' ∨ s.head? = some '*') := by
  cases s with
  | nil => simp [Opens]
  | cons d s =>
    simp only [Opens, List.cons_prefix_cons, List.nil_prefix, and_true, List.head?_cons,
      Option.some.injEq]
    rw [← and_or_left, eq_comm, @eq_comm _ '/' d, @eq_comm _ '*' d]

theorem not_opens_of_ne {c : Char} (hc : c ≠ '/') (s : List Char) : ¬ Opens (c :: s) :=
  fun h ↦ hc (opens_cons_iff.mp h).1

/-- How far a block comment reaches behind its opening: over `body`, with the star and the slash
that close it if they come, and then `rest` follows. -/
inductive Blocks : (s body rest : List Char) → Prop
  | closed {s : List Char} : Blocks ('*' :: '/' :: s) ['*', '/'] s
  | nil : Blocks [] [] []
  | other {c : Char} {s body rest : List Char} (hclose : ¬ ['*', '/'] <+: c :: s)
    (h : Blocks s body rest) : Blocks (c :: s) (c :: body) rest

theorem exists_blocks (s : List Char) : ∃ body rest, Blocks s body rest := by
  induction s with
  | nil => exact ⟨[], [], .nil⟩
  | cons c s ih =>
    by_cases hclose : ['*', '/'] <+: c :: s
    · obtain ⟨rest, hrest⟩ := hclose
      exact ⟨['*', '/'], rest, hrest ▸ .closed⟩
    · obtain ⟨body, rest, hblocks⟩ := ih
      exact ⟨c :: body, rest, .other hclose hblocks⟩

namespace Blocks

variable {s body rest : List Char}

theorem unique (h : Blocks s body rest) {body' rest' : List Char} (h' : Blocks s body' rest') :
    body = body' ∧ rest = rest' := by
  induction h generalizing body' rest' with
  | closed =>
    cases h' with
    | closed => exact ⟨rfl, rfl⟩
    | other hclose => exact absurd (List.prefix_append ['*', '/'] _) hclose
  | nil =>
    cases h' with
    | nil => exact ⟨rfl, rfl⟩
  | other hclose _ ih =>
    cases h' with
    | closed => exact absurd (List.prefix_append ['*', '/'] _) hclose
    | other _ hblocks =>
      obtain ⟨rfl, rfl⟩ := ih hblocks
      exact ⟨rfl, rfl⟩

theorem eq_append (h : Blocks s body rest) : s = body ++ rest := by
  induction h with
  | closed | nil => rfl
  | other _ _ ih => rw [ih, List.cons_append]

/-- A block comment is written as a blank. The star of its opening does not close it, so the scan
begins with no star behind it. -/
theorem finish_eq (h : Blocks s body rest) {star : Bool} (hstar : star = true → s.head? ≠ some '/')
    (written : List Char) :
    (s.foldl CommentScan.step ⟨.block star, written⟩).finish
      = (rest.foldl CommentScan.step ⟨.plain, ' ' :: written⟩).finish := by
  induction h generalizing star with
  | @closed s =>
    have hstep : CommentScan.step ⟨.block star, written⟩ '*' = ⟨.block true, written⟩ :=
      if_neg fun h ↦ absurd h.2 (by decide)
    rw [List.foldl_cons, hstep]
    rfl
  | nil => rfl
  | @other c s body rest hclose _ ih =>
    have hstep : CommentScan.step ⟨.block star, written⟩ c = ⟨.block (c = '*'), written⟩ := by
      refine if_neg ?_
      rintro ⟨hs, rfl⟩
      exact hstar hs rfl
    rw [List.foldl_cons, hstep]
    refine ih fun hc hhead ↦ hclose ?_
    obtain ⟨tail, rfl⟩ := List.head?_eq_some_iff.mp hhead
    rw [of_decide_eq_true hc]
    exact List.prefix_append ['*', '/'] tail

end Blocks

/-- A line comment is not written; its line break is. -/
theorem finish_line (s written : List Char) :
    (s.foldl CommentScan.step ⟨.line, written⟩).finish
      = ((s.dropWhile (· ≠ '\n')).foldl CommentScan.step ⟨.plain, written⟩).finish := by
  induction s with
  | nil => rfl
  | cons c s ih =>
    by_cases hbreak : c = '\n'
    · subst hbreak
      rw [List.dropWhile_cons_of_neg (by simp)]
      rfl
    · have hstep : CommentScan.step ⟨.line, written⟩ c = ⟨.line, written⟩ := if_neg hbreak
      rw [List.foldl_cons, hstep, ih, List.dropWhile_cons_of_pos (by simpa using hbreak)]

/-! ## Stretches -/

/-- A stretch of a text, with all of its characters. -/
inductive Stretch where
  /-- A character outside strings and comments. -/
  | bare (c : Char)
  /-- A string with its quotes. -/
  | literal (text : List Char)
  /-- A comment up to the end of the line. -/
  | line (text : List Char)
  | block (text : List Char)
  deriving DecidableEq, Repr

namespace Stretch

def text : Stretch → List Char
  | bare c => [c]
  | literal text | line text | block text => text

/-- The string that a stretch is. -/
def literal? : Stretch → Option (List Char)
  | literal text => some text
  | _ => none

/-- What is left of a stretch without comments. -/
def left : Stretch → List Stretch
  | line _ => []
  | block _ => [bare ' ']
  | p => [p]

theorem filterMap_literal?_left (p : Stretch) :
    p.left.filterMap literal? = p.literal?.toList := by
  cases p with
  | bare | literal | line | block => rfl

theorem left_of_mem_left {p q : Stretch} (h : q ∈ p.left) : q.left = [q] := by
  cases p with
  | bare | literal | block =>
    obtain rfl := List.mem_singleton.mp h
    rfl
  | line => nomatch h

end Stretch

/-- The text that is made of some stretches. -/
def content (ps : List Stretch) : List Char := ps.flatMap Stretch.text

/-- The stretch that a text begins with, and the rest of the text. -/
inductive Begins : List Char → Stretch → List Char → Prop
  | bare {c : Char} {s : List Char} (hquote : c ≠ '"') (hopens : ¬ Opens (c :: s)) :
    Begins (c :: s) (.bare c) s
  | literal {s body rest : List Char} (h : Spans s body rest) :
    Begins ('"' :: s) (.literal ('"' :: body)) rest
  | line {s : List Char} :
    Begins ('/' :: '/' :: s) (.line ('/' :: '/' :: s.takeWhile (· ≠ '\n')))
      (s.dropWhile (· ≠ '\n'))
  | block {s body rest : List Char} (h : Blocks s body rest) :
    Begins ('/' :: '*' :: s) (.block ('/' :: '*' :: body)) rest

theorem exists_begins (c : Char) (s : List Char) : ∃ p rest, Begins (c :: s) p rest := by
  by_cases hquote : c = '"'
  · obtain ⟨body, rest, hspans⟩ := exists_spans s
    rw [hquote]
    exact ⟨_, rest, .literal hspans⟩
  · by_cases hopens : Opens (c :: s)
    · rcases hopens with ⟨tail, htail⟩ | ⟨tail, htail⟩ <;> rw [← htail]
      · exact ⟨_, _, .line⟩
      · obtain ⟨body, rest, hblocks⟩ := exists_blocks tail
        exact ⟨_, rest, .block hblocks⟩
    · exact ⟨_, s, .bare hquote hopens⟩

namespace Begins

variable {s rest : List Char} {p : Stretch}

theorem unique (h : Begins s p rest) {p' : Stretch} {rest' : List Char}
    (h' : Begins s p' rest') : p = p' ∧ rest = rest' := by
  cases h with
  | bare hquote hopens =>
    cases h' with
    | bare => exact ⟨rfl, rfl⟩
    | literal => exact absurd rfl hquote
    | line => exact absurd (opens_line _) hopens
    | block => exact absurd (opens_block _) hopens
  | literal h =>
    cases h' with
    | bare hquote => exact absurd rfl hquote
    | literal h' =>
      obtain ⟨rfl, rfl⟩ := h.unique h'
      exact ⟨rfl, rfl⟩
  | line =>
    cases h' with
    | bare _ hopens => exact absurd (opens_line _) hopens
    | line => exact ⟨rfl, rfl⟩
  | block h =>
    cases h' with
    | bare _ hopens => exact absurd (opens_block _) hopens
    | block h' =>
      obtain ⟨rfl, rfl⟩ := h.unique h'
      exact ⟨rfl, rfl⟩

theorem eq_append (h : Begins s p rest) : s = p.text ++ rest := by
  cases h with
  | bare => rfl
  | literal h => rw [h.eq_append, Stretch.text, List.cons_append]
  | line => simp [Stretch.text]
  | block h => rw [h.eq_append, Stretch.text, List.cons_append, List.cons_append]

theorem length_lt (h : Begins s p rest) : rest.length < s.length := by
  have htext : p.text ≠ [] := by
    cases h with
    | bare | literal | line | block => exact List.cons_ne_nil _ _
  rw [h.eq_append, List.length_append]
  have := List.length_pos_iff.mpr htext
  omega

/-- **What is written of a stretch** is what is left of it. -/
theorem finish_eq (h : Begins s p rest) (written : List Char) :
    (s.foldl CommentScan.step ⟨.plain, written⟩).finish
      = (rest.foldl CommentScan.step ⟨.plain, (content p.left).reverse ++ written⟩).finish := by
  cases h with
  | @bare c _ hquote hopens =>
    by_cases hslash : c = '/'
    · subst hslash
      -- The slash waits for the next character, which is not one that opens a comment.
      have hwaits : CommentScan.step ⟨.plain, written⟩ '/' = ⟨.slash, written⟩ := rfl
      rw [List.foldl_cons, hwaits]
      cases rest with
      | nil => rfl
      | cons d rest =>
        rw [opens_cons_iff, List.head?_cons, Option.some.injEq, Option.some.injEq] at hopens
        have hnext : CommentScan.step ⟨.slash, written⟩ d
            = CommentScan.step ⟨.plain, '/' :: written⟩ d := by
          have hne : d ≠ '/' ∧ d ≠ '*' := by simpa using hopens
          simp only [CommentScan.step, hne, if_false]
        rw [List.foldl_cons, hnext]
        rfl
    · have hstep : CommentScan.step ⟨.plain, written⟩ c = ⟨.plain, c :: written⟩ := by
        simp only [CommentScan.step, CommentScan.stepPlain, hslash, hquote, if_false]
      rw [List.foldl_cons, hstep]
      rfl
  | @literal s body _ h =>
    have hopen : CommentScan.step ⟨.plain, written⟩ '"' = ⟨.string, '"' :: written⟩ := rfl
    rw [List.foldl_cons, hopen, h.finish_eq]
    simp [content, Stretch.left, Stretch.text]
  | line =>
    have hopen : CommentScan.step (CommentScan.step ⟨.plain, written⟩ '/') '/'
        = ⟨.line, written⟩ := rfl
    rw [List.foldl_cons, List.foldl_cons, hopen, finish_line]
    rfl
  | block h =>
    have hopen : CommentScan.step (CommentScan.step ⟨.plain, written⟩ '/') '*'
        = ⟨.block false, written⟩ := rfl
    rw [List.foldl_cons, List.foldl_cons, hopen,
      h.finish_eq fun hstar ↦ absurd hstar Bool.false_ne_true]
    rfl

end Begins

/-! ## Divisions -/

/-- A text and the stretches it is divided into. -/
inductive Divided : List Char → List Stretch → Prop
  | nil : Divided [] []
  | cons {s rest : List Char} {p : Stretch} {ps : List Stretch} (hp : Begins s p rest)
    (h : Divided rest ps) : Divided s (p :: ps)

theorem exists_divided (s : List Char) : ∃ ps, Divided s ps := by
  cases s with
  | nil => exact ⟨[], .nil⟩
  | cons c s =>
    obtain ⟨p, rest, hp⟩ := exists_begins c s
    obtain ⟨ps, h⟩ := exists_divided rest
    exact ⟨p :: ps, .cons hp h⟩
termination_by s.length
decreasing_by exact hp.length_lt

/-- What is left of some stretches without comments. -/
def remaining (ps : List Stretch) : List Stretch := ps.flatMap Stretch.left

theorem filterMap_literal?_remaining (ps : List Stretch) :
    (remaining ps).filterMap Stretch.literal? = ps.filterMap Stretch.literal? := by
  rw [remaining, List.filterMap_flatMap, List.filterMap_eq_flatMap_toList]
  exact congrArg ps.flatMap (funext Stretch.filterMap_literal?_left)

theorem left_of_mem_remaining {ps : List Stretch} {q : Stretch} (h : q ∈ remaining ps) :
    q.left = [q] := by
  obtain ⟨p, _, hq⟩ := List.mem_flatMap.mp h
  exact Stretch.left_of_mem_left hq

/-- There is nothing to take out of what is left. -/
theorem remaining_remaining (ps : List Stretch) : remaining (remaining ps) = remaining ps :=
  calc (remaining ps).flatMap Stretch.left
      = (remaining ps).flatMap fun q ↦ [q] :=
        List.flatMap_congr fun _ hq ↦ left_of_mem_remaining hq
    _ = remaining ps := List.flatMap_singleton' _

/-- No comment opens where one of these stretches begins, so none of them is a comment; and as what
is neither a comment nor a string is a single character, no comment opens outside the strings. -/
def Uncommented (ps : List Stretch) : Prop :=
  ∀ before after, ps = before ++ after → ¬ Opens (content after)

namespace Divided

variable {s : List Char} {ps : List Stretch}

/-- A text is divided in one way only. -/
theorem unique (h : Divided s ps) {ps' : List Stretch} (h' : Divided s ps') : ps = ps' := by
  induction h generalizing ps' with
  | nil =>
    cases h' with
    | nil => rfl
    | cons hp => nomatch hp
  | cons hp _ ih =>
    cases h' with
    | nil => nomatch hp
    | cons hp' h' =>
      obtain ⟨rfl, rfl⟩ := hp.unique hp'
      rw [ih h']

theorem content_eq (h : Divided s ps) : content ps = s := by
  induction h with
  | nil => rfl
  | cons hp _ ih => rw [hp.eq_append, ← ih, content, content, List.flatMap_cons]

theorem finish_eq (h : Divided s ps) (written : List Char) :
    (s.foldl CommentScan.step ⟨.plain, written⟩).finish
      = written.reverse ++ content (remaining ps) := by
  induction h generalizing written with
  | nil => exact (List.append_nil _).symm
  | @cons _ _ p ps hp _ ih =>
    rw [hp.finish_eq, ih, List.reverse_append, List.reverse_reverse, List.append_assoc]
    simp only [content, remaining, List.flatMap_cons, List.flatMap_append]

/-- **Comments are taken out stretch by stretch.** -/
theorem stripComments_eq (h : Divided s ps) : stripComments s = content (remaining ps) :=
  h.finish_eq []

/-- What is left of a text that does not begin with a comment begins as the text does. -/
theorem head?_remaining (h : Divided s ps) (hopens : ¬ Opens s) :
    (content (remaining ps)).head? = s.head? := by
  cases h with
  | nil => rfl
  | cons hp _ =>
    cases hp with
    | bare | literal => rfl
    | line => exact absurd (opens_line _) hopens
    | block => exact absurd (opens_block _) hopens

/-- A character does not open a comment with what is left behind it if it does not with what is
there. -/
theorem not_opens_remaining (h : Divided s ps) {c : Char} (hopens : ¬ Opens (c :: s)) :
    ¬ Opens (c :: content (remaining ps)) := by
  rw [opens_cons_iff] at hopens ⊢
  rintro ⟨rfl, hhead⟩
  -- The slash is not followed by a slash, so not by a comment either.
  have hnext : ¬ Opens s := by
    rintro (⟨tail, rfl⟩ | ⟨tail, rfl⟩) <;> exact hopens ⟨rfl, Or.inl rfl⟩
  rw [h.head?_remaining hnext] at hhead
  exact hopens ⟨rfl, hhead⟩

/-- **What is left is divided as the text was**, less the comments. -/
theorem left (h : Divided s ps) : Divided (content (remaining ps)) (remaining ps) := by
  induction h with
  | nil => exact .nil
  | cons hp h ih =>
    cases hp with
    | bare hquote hopens => exact .cons (.bare hquote (h.not_opens_remaining hopens)) ih
    | @literal _ body _ hspans =>
      refine .cons (.literal ?_) ih
      rcases hspans.replace (content (remaining _)) with rfl | hreplaced
      · obtain rfl := hspans.eq_append
        cases h with
        | nil =>
          change Spans (body ++ []) body []
          rwa [List.append_nil] at hspans ⊢
        | cons hp => nomatch hp
      · exact hreplaced
    | line => exact ih
    | block => exact .cons (.bare (by decide) (not_opens_of_ne (by decide) _)) ih

/-- A division without comments is one where no comment opens. -/
theorem uncommented (h : Divided s ps) (hps : ∀ p ∈ ps, p.left = [p]) : Uncommented ps := by
  induction h with
  | nil =>
    intro before after hsplit
    obtain ⟨-, rfl⟩ := List.append_eq_nil_iff.mp hsplit.symm
    simp [Opens, content]
  | cons hp h ih =>
    obtain ⟨hhead, htail⟩ := List.forall_mem_cons.mp hps
    intro before after hsplit
    cases before with
    | nil =>
      obtain rfl : _ = after := hsplit
      rw [(Divided.cons hp h).content_eq]
      cases hp with
      | bare _ hopens => exact hopens
      | literal => exact not_opens_of_ne (by decide) _
      | line | block => nomatch hhead
    | cons q before => exact ih htail before after (List.cons.inj hsplit).2

end Divided

/-- **Comment stripping is stable and leaves strings alone.** Any text is divided in one way, and so
is what is left of it without its comments. There the same strings stand in the same order, and no
comment opens outside them; so a second pass changes nothing, and a document without its comments
reads as the document does. -/
theorem stripComments_stable (text : String) :
    ∃ ps qs, (∀ ps', Divided text.toList ps' ↔ ps' = ps) ∧
      (∀ qs', Divided (stripComments text.toList) qs' ↔ qs' = qs) ∧
      qs.filterMap Stretch.literal? = ps.filterMap Stretch.literal? ∧
      Uncommented qs ∧
      stripComments (stripComments text.toList) = stripComments text.toList ∧
      parse (String.ofList (stripComments text.toList)) = parse text := by
  obtain ⟨ps, hps⟩ := exists_divided text.toList
  have hqs : Divided (stripComments text.toList) (remaining ps) := hps.stripComments_eq ▸ hps.left
  have htwice : stripComments (stripComments text.toList) = stripComments text.toList := by
    rw [hqs.stripComments_eq, remaining_remaining, hps.stripComments_eq]
  refine ⟨ps, remaining ps, fun ps' ↦ ⟨fun h ↦ h.unique hps, fun h ↦ h ▸ hps⟩,
    fun qs' ↦ ⟨fun h ↦ h.unique hqs, fun h ↦ h ▸ hqs⟩, filterMap_literal?_remaining ps,
    hqs.uncommented fun _ hq ↦ left_of_mem_remaining hq, htwice, ?_⟩
  rw [parse, parse, plain, plain, String.toList_ofList, htwice]

/-- A lone slash before a comment, then a string that is never closed and ends with a backslash. -/
example : stripComments "/ /*/ */1//\n\"/*//\\".toList = "/  1\n\"/*//\\".toList := by decide

end Redirector.Document
