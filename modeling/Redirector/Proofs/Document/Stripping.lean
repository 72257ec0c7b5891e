import Redirector.Document
import Redirector.Proofs.Document.Spelling
import Redirector.Proofs.Json.Places
import Redirector.Proofs.Rule.Wire

/-!
# Comments and extra commas make no difference

A document is a JSON text with comments and extra commas put into it. The two passes over it and the
reader of JSON each decide for themselves where a string begins and ends; here they are shown to
agree (`parse_decorated`). What is left of a document is spread from the same pieces as the plain
text, so both are cut into the same lexemes, places apart, and places do not count for what is read.
-/

namespace Redirector.Document

/-! ## Comments between the pieces of a document

Comment stripping keeps track of strings by itself, and it agrees with the grammar of JSON about
where they begin and end: a piece is written as it is spelled, whatever it contains
(`CommentScan.foldl_piece`). What stands between pieces is made blank. So a text that is spread from
some pieces with comments becomes a text that is spread from the same pieces with blanks
(`stripComments_spread`).
-/

open Json (Piece Spread IsBlank StringPart)

/-! ### Fillers -/

/-- Whitespace and comments in any order, each comment closed. -/
inductive Filler : List Char → Prop
  | nil : Filler []
  | blank {c : Char} {w : List Char} (hc : c ∈ [' ', '\n', '\t', '\r']) (hw : Filler w) :
    Filler (c :: w)
  | line {body w : List Char} (hbody : '\n' ∉ body) (hw : Filler w) :
    Filler ('/' :: '/' :: (body ++ '\n' :: w))
  | block {body w : List Char} (hbody : ¬ ['*', '/'] <:+: body) (hw : Filler w) :
    Filler ('/' :: '*' :: (body ++ '*' :: '/' :: w))

/-- A filler at the end of a text, where a line comment may be closed by the end. -/
inductive LastFiller : List Char → Prop
  | closed {w : List Char} (hw : Filler w) : LastFiller w
  | openLine {body w : List Char} (hbody : '\n' ∉ body) (hw : Filler w) :
    LastFiller (w ++ '/' :: '/' :: body)

namespace CommentScan

/-! ### Fillers are made blank -/

theorem foldl_line {body : List Char} (hbody : '\n' ∉ body) (written : List Char) :
    body.foldl step ⟨.line, written⟩ = ⟨.line, written⟩ := by
  induction body with
  | nil => rfl
  | cons c body ih =>
    obtain ⟨hc, hrest⟩ : '\n' ≠ c ∧ '\n' ∉ body := by simpa using hbody
    have hstep : step ⟨.line, written⟩ c = ⟨.line, written⟩ := if_neg (Ne.symm hc)
    rw [List.foldl_cons, hstep, ih hrest]

/-- The body of a block comment does not close it: no star in it is followed by a slash, and
neither is one before it. -/
theorem foldl_block {body : List Char} {star : Bool} (hbody : ¬ ['*', '/'] <:+: body)
    (hstar : star = true → body.head? ≠ some '/') (written : List Char) :
    ∃ star', body.foldl step ⟨.block star, written⟩ = ⟨.block star', written⟩ := by
  induction body generalizing star with
  | nil => exact ⟨star, rfl⟩
  | cons c body ih =>
    have hopen : ¬ (star = true ∧ c = '/') := by
      rintro ⟨hs, rfl⟩
      exact hstar hs rfl
    have hstep : step ⟨.block star, written⟩ c = ⟨.block (c = '*'), written⟩ := if_neg hopen
    have hrest : ¬ ['*', '/'] <:+: body := fun h ↦ hbody (h.trans (List.suffix_cons c body).isInfix)
    have hnext : decide (c = '*') = true → body.head? ≠ some '/' := by
      intro hc hhead
      obtain ⟨rest, rfl⟩ := List.head?_eq_some_iff.mp hhead
      rw [of_decide_eq_true hc] at hbody
      exact hbody (List.prefix_append ['*', '/'] rest).isInfix
    rw [List.foldl_cons, hstep]
    exact ih hrest hnext

theorem foldl_filler {f : List Char} (h : Filler f) :
    ∃ w, IsBlank w ∧ ∀ written,
      f.foldl step ⟨.plain, written⟩ = ⟨.plain, w.reverse ++ written⟩ := by
  induction h with
  | nil => exact ⟨[], List.forall_mem_nil _, fun _ ↦ rfl⟩
  | @blank c f hc _ ih =>
    obtain ⟨w, hw, hfold⟩ := ih
    have hplain : c ≠ '/' ∧ c ≠ '"' := by
      have hall : ∀ c ∈ [' ', '\n', '\t', '\r'], c ≠ '/' ∧ c ≠ '"' :=
        List.all_iff_forall_prop.mp (by decide)
      exact hall c hc
    refine ⟨c :: w, List.forall_mem_cons.mpr ⟨hc, hw⟩, fun written ↦ ?_⟩
    have hstep : step ⟨.plain, written⟩ c = ⟨.plain, c :: written⟩ := by
      simp only [step, stepPlain, hplain, if_false]
    rw [List.foldl_cons, hstep, hfold]
    simp
  | @line body f hbody _ ih =>
    obtain ⟨w, hw, hfold⟩ := ih
    refine ⟨'\n' :: w, List.forall_mem_cons.mpr ⟨by decide, hw⟩, fun written ↦ ?_⟩
    have hopen : step (step ⟨.plain, written⟩ '/') '/' = ⟨.line, written⟩ := rfl
    have hclose : step ⟨.line, written⟩ '\n' = ⟨.plain, '\n' :: written⟩ := rfl
    rw [List.foldl_cons, List.foldl_cons, hopen, List.foldl_append, foldl_line hbody,
      List.foldl_cons, hclose, hfold]
    simp
  | @block body f hbody _ ih =>
    obtain ⟨w, hw, hfold⟩ := ih
    refine ⟨' ' :: w, List.forall_mem_cons.mpr ⟨by decide, hw⟩, fun written ↦ ?_⟩
    have hopen : step (step ⟨.plain, written⟩ '/') '*' = ⟨.block false, written⟩ := rfl
    -- The star of the opening does not count: a slash right behind it does not close the comment.
    have hstart : false = true → body.head? ≠ some '/' := nofun
    obtain ⟨star, hblock⟩ := foldl_block hbody hstart written
    have hstar : step ⟨.block star, written⟩ '*' = ⟨.block true, written⟩ :=
      if_neg fun h ↦ absurd h.2 (by decide)
    have hclose : step ⟨.block true, written⟩ '/' = ⟨.plain, ' ' :: written⟩ := rfl
    rw [List.foldl_cons, List.foldl_cons, hopen, List.foldl_append, hblock, List.foldl_cons, hstar,
      List.foldl_cons, hclose, hfold]
    simp

/-! ### Pieces are kept -/

theorem tracksStrings : TracksStrings step (⟨.string, ·⟩) (⟨.escape, ·⟩) where
  plain written c hback hquote := by simp only [step, hback, hquote, if_false]
  backslash _ := rfl
  escaped _ _ := rfl

theorem foldl_plain {s : List Char} (hs : ∀ c ∈ s, c ≠ '"' ∧ c ≠ '/') (written : List Char) :
    s.foldl step ⟨.plain, written⟩ = ⟨.plain, s.reverse ++ written⟩ := by
  induction s generalizing written with
  | nil => rfl
  | cons c s ih =>
    obtain ⟨hc, hs⟩ := List.forall_mem_cons.mp hs
    have hstep : step ⟨.plain, written⟩ c = ⟨.plain, c :: written⟩ := by
      simp only [step, stepPlain, hc, if_false]
    rw [List.foldl_cons, hstep, ih hs]
    simp

theorem foldl_piece (p : Piece) (written : List Char) :
    p.text.foldl step ⟨.plain, written⟩ = ⟨.plain, p.text.reverse ++ written⟩ := by
  by_cases hp : ∃ parts, p = .string parts
  · obtain ⟨parts, rfl⟩ := hp
    have hopen : step ⟨.plain, written⟩ '"' = ⟨.string, '"' :: written⟩ := rfl
    have hclose : ∀ out, step ⟨.string, out⟩ '"' = ⟨.plain, '"' :: out⟩ := fun _ ↦ rfl
    rw [Piece.text, Json.literal, List.foldl_cons, hopen, List.foldl_append,
      tracksStrings.foldl_literal, List.foldl_cons, hclose]
    simp
  · rw [not_exists] at hp
    refine foldl_plain (fun c hc ↦ ?_) written
    obtain ⟨hquote, hslash, -⟩ := plain_of_mem_text hp hc
    exact ⟨hquote, hslash⟩

/-! ### Texts -/

theorem finish_lastFiller {f : List Char} (h : LastFiller f) :
    ∃ w, IsBlank w ∧ ∀ written,
      (f.foldl step ⟨.plain, written⟩).finish = written.reverse ++ w := by
  cases h with
  | closed hf =>
    obtain ⟨w, hw, hfold⟩ := foldl_filler hf
    exact ⟨w, hw, fun written ↦ by rw [hfold]; simp [finish]⟩
  | openLine hbody hf =>
    obtain ⟨w, hw, hfold⟩ := foldl_filler hf
    refine ⟨w, hw, fun written ↦ ?_⟩
    have hopen : ∀ out, step (step ⟨.plain, out⟩ '/') '/' = ⟨.line, out⟩ := fun _ ↦ rfl
    rw [List.foldl_append, hfold, List.foldl_cons, List.foldl_cons, hopen, foldl_line hbody]
    simp [finish]

theorem finish_spread {ps : List Piece} {s : List Char} (h : Spread Filler LastFiller ps s) :
    ∃ s', Spread IsBlank IsBlank ps s' ∧ ∀ written,
      (s.foldl step ⟨.plain, written⟩).finish = written.reverse ++ s' := by
  induction h with
  | nil hf =>
    obtain ⟨w, hw, hfinish⟩ := finish_lastFiller hf
    exact ⟨w, .nil hw, hfinish⟩
  | @cons f s p ps hf _ ih =>
    obtain ⟨w, hw, hfold⟩ := foldl_filler hf
    obtain ⟨s', hs', hfinish⟩ := ih
    refine ⟨w ++ (p.text ++ s'), .cons hw hs', fun written ↦ ?_⟩
    rw [List.foldl_append, hfold, List.foldl_append, foldl_piece, hfinish]
    simp

end CommentScan

/-- **Comments between pieces are made blank**, and nothing else is changed. -/
theorem stripComments_spread {ps : List Piece} {s : List Char} (h : Spread Filler LastFiller ps s) :
    Spread IsBlank IsBlank ps (stripComments s) := by
  obtain ⟨s', hs', hfinish⟩ := CommentScan.finish_spread h
  have hstrip : stripComments s = s' := hfinish []
  exact hstrip ▸ hs'

/-! ## Trailing commas between the pieces of a document

Seen from the pieces of a text, comma stripping drops each comma that stands right before a closing
bracket, whatever the blanks between them (`stripTrailingCommas_spread`). From a value this takes
its extra commas and nothing else (`dropTrailing_pieces`): a comma between two elements stands
before the first piece of a value, which closes nothing.
-/

open Json (IsBlank Mark Piece Spread StringPart Tree)

/-! ### On pieces -/

/-- The pieces without the commas that stand right before a closing bracket. -/
def dropTrailing : List Piece → List Piece
  | [] => []
  | p :: ps =>
    if p.isComma ∧ ps.head?.any Piece.isClosing then dropTrailing ps else p :: dropTrailing ps

theorem dropTrailing_cons_of_not_comma {p : Piece} (hp : p.isComma = false) (ps : List Piece) :
    dropTrailing (p :: ps) = p :: dropTrailing ps :=
  if_neg fun h ↦ Bool.false_ne_true (hp ▸ h.1)

theorem dropTrailing_cons_of_not_closing {p q : Piece} (hq : q.isClosing = false)
    (ps : List Piece) : dropTrailing (p :: q :: ps) = p :: dropTrailing (q :: ps) :=
  if_neg fun h ↦ Bool.false_ne_true (hq ▸ h.2)

theorem dropTrailing_comma_closing {p q : Piece} (hp : p.isComma = true)
    (hq : q.isClosing = true) (ps : List Piece) :
    dropTrailing (p :: q :: ps) = dropTrailing (q :: ps) :=
  if_pos ⟨hp, hq⟩

/-- The first of some pieces closes nothing. -/
def StartsOpen (ps : List Piece) : Prop := ∃ p qs, ps = p :: qs ∧ p.isClosing = false

theorem StartsOpen.append {ps : List Piece} (h : StartsOpen ps) (qs : List Piece) :
    StartsOpen (ps ++ qs) := by
  obtain ⟨p, ps, rfl, hp⟩ := h
  exact ⟨p, ps ++ qs, rfl, hp⟩

theorem startsOpen_pieces (extras : Bool) (t : Tree) : StartsOpen (t.pieces extras) := by
  cases t with
  | word w => exact ⟨_, _, by rw [Tree.pieces], rfl⟩
  | number n => exact ⟨_, _, by rw [Tree.pieces], rfl⟩
  | string parts => exact ⟨_, _, by rw [Tree.pieces], rfl⟩
  | array items extra => exact ⟨_, _, by rw [Tree.pieces], rfl⟩
  | object members extra => exact ⟨_, _, by rw [Tree.pieces], rfl⟩

theorem separated_append (isFirst : Bool) (ps qs : List Piece) :
    Tree.separated isFirst ps ++ qs = Tree.separated isFirst (ps ++ qs) := by
  cases isFirst with
  | true => rfl
  | false => rfl

theorem dropTrailing_separated (isFirst : Bool) {ps : List Piece} (h : StartsOpen ps) :
    dropTrailing (Tree.separated isFirst ps) = Tree.separated isFirst (dropTrailing ps) := by
  obtain ⟨p, ps, rfl, hp⟩ := h
  cases isFirst with
  | true => rfl
  | false => exact dropTrailing_cons_of_not_closing hp ps

theorem dropTrailing_closing (extraComma : Bool) {m : Mark} (hm : (Piece.mark m).isClosing = true)
    (ps : List Piece) :
    dropTrailing (Tree.closing extraComma m ++ ps) = .mark m :: dropTrailing ps := by
  have hcomma : (Piece.mark m).isComma = false := by
    cases m with
    | comma => cases hm
    | openArray | closeArray | openObject | closeObject | colon => rfl
  cases extraComma with
  | true =>
    exact (dropTrailing_comma_closing rfl hm ps).trans (dropTrailing_cons_of_not_comma hcomma ps)
  | false => exact dropTrailing_cons_of_not_comma hcomma ps

mutual

theorem dropTrailing_pieces_append (rest : List Piece) : ∀ t : Tree,
    dropTrailing (t.pieces true ++ rest) = t.pieces false ++ dropTrailing rest
  | .word w => by
    simp only [Tree.pieces]
    exact dropTrailing_cons_of_not_comma rfl rest
  | .number n => by
    simp only [Tree.pieces]
    exact dropTrailing_cons_of_not_comma rfl rest
  | .string parts => by
    simp only [Tree.pieces]
    exact dropTrailing_cons_of_not_comma rfl rest
  | .array items extra => by
    simp only [Tree.pieces, List.cons_append]
    rw [dropTrailing_cons_of_not_comma rfl, dropTrailing_itemPieces extra true rest items]
  | .object members extra => by
    simp only [Tree.pieces, List.cons_append]
    rw [dropTrailing_cons_of_not_comma rfl, dropTrailing_memberPieces extra true rest members]

theorem dropTrailing_itemPieces (extra isFirst : Bool) (rest : List Piece) :
    ∀ items : List Tree, dropTrailing (Tree.itemPieces true extra isFirst items ++ rest) =
      Tree.itemPieces false extra isFirst items ++ dropTrailing rest
  | [] => by
    rw [Tree.itemPieces, Tree.itemPieces, dropTrailing_closing _ rfl]
    simp [Tree.closing, Tree.separated]
  | t :: ts => by
    have hopen := (startsOpen_pieces true t).append (Tree.itemPieces true extra false ts ++ rest)
    rw [Tree.itemPieces, Tree.itemPieces, separated_append, separated_append, List.append_assoc,
      dropTrailing_separated isFirst hopen, dropTrailing_pieces_append _ t,
      dropTrailing_itemPieces extra false rest ts, List.append_assoc]

theorem dropTrailing_memberPieces (extra isFirst : Bool) (rest : List Piece) :
    ∀ members : List (List StringPart × Tree),
      dropTrailing (Tree.memberPieces true extra isFirst members ++ rest) =
        Tree.memberPieces false extra isFirst members ++ dropTrailing rest
  | [] => by
    rw [Tree.memberPieces, Tree.memberPieces, dropTrailing_closing _ rfl]
    simp [Tree.closing, Tree.separated]
  | (key, t) :: ms => by
    have hopen (qs : List Piece) : StartsOpen (.string key :: qs) := ⟨_, _, rfl, rfl⟩
    rw [Tree.memberPieces, Tree.memberPieces, separated_append, separated_append]
    simp only [List.cons_append, List.append_assoc]
    rw [dropTrailing_separated isFirst (hopen _), dropTrailing_cons_of_not_comma rfl,
      dropTrailing_cons_of_not_comma rfl, dropTrailing_pieces_append _ t,
      dropTrailing_memberPieces extra false rest ms]

end

/-- **A value without its extra commas** is what dropping trailing commas leaves of it. -/
theorem dropTrailing_pieces (t : Tree) : dropTrailing (t.pieces true) = t.pieces false := by
  have h := dropTrailing_pieces_append [] t
  rwa [List.append_nil, dropTrailing, List.append_nil] at h

/-! ### On texts -/

theorem isBlank_of_mem {c : Char} (hc : c ∈ [' ', '\n', '\t', '\r']) :
    Text.isBlank c = true ∧ c ≠ ',' ∧ c ≠ '"' := by
  have hall : ∀ c ∈ [' ', '\n', '\t', '\r'], Text.isBlank c = true ∧ c ≠ ',' ∧ c ≠ '"' :=
    List.all_iff_forall_prop.mp (by decide)
  exact hall c hc

namespace CommaScan

theorem tracksStrings : TracksStrings step (⟨.string, ·⟩) (⟨.escape, ·⟩) where
  plain written c hback hquote := by simp only [step, hback, hquote, if_false]
  backslash _ := rfl
  escaped _ _ := rfl

theorem foldl_plain {s : List Char} (hs : ∀ c ∈ s, c ≠ ',' ∧ c ≠ '"') (written : List Char) :
    s.foldl step ⟨.plain, written⟩ = ⟨.plain, s.reverse ++ written⟩ := by
  induction s generalizing written with
  | nil => rfl
  | cons c s ih =>
    obtain ⟨hc, hs⟩ := List.forall_mem_cons.mp hs
    have hstep : step ⟨.plain, written⟩ c = ⟨.plain, c :: written⟩ := by
      simp only [step, stepPlain, hc, if_false]
    rw [List.foldl_cons, hstep, ih hs]
    simp

theorem foldl_blank {w : List Char} (hw : IsBlank w) (written : List Char) :
    w.foldl step ⟨.plain, written⟩ = ⟨.plain, w.reverse ++ written⟩ :=
  foldl_plain (fun c hc ↦ (isBlank_of_mem (hw c hc)).2) written

theorem foldl_blank_comma {w : List Char} (hw : IsBlank w) (blanks written : List Char) :
    w.foldl step ⟨.comma blanks, written⟩ = ⟨.comma (w.reverse ++ blanks), written⟩ := by
  induction w generalizing blanks with
  | nil => rfl
  | cons c w ih =>
    obtain ⟨hc, hw⟩ := List.forall_mem_cons.mp hw
    have hstep : step ⟨.comma blanks, written⟩ c = ⟨.comma (c :: blanks), written⟩ :=
      if_pos (isBlank_of_mem hc).1
    rw [List.foldl_cons, hstep, ih hw]
    simp

theorem foldl_piece {p : Piece} (hp : p.isComma = false) (written : List Char) :
    p.text.foldl step ⟨.plain, written⟩ = ⟨.plain, p.text.reverse ++ written⟩ := by
  by_cases hstring : ∃ parts, p = .string parts
  · obtain ⟨parts, rfl⟩ := hstring
    have hopen : step ⟨.plain, written⟩ '"' = ⟨.string, '"' :: written⟩ := rfl
    have hclose : ∀ out, step ⟨.string, out⟩ '"' = ⟨.plain, '"' :: out⟩ := fun _ ↦ rfl
    rw [Piece.text, Json.literal, List.foldl_cons, hopen, List.foldl_append,
      tracksStrings.foldl_literal, List.foldl_cons, hclose]
    simp
  · rw [not_exists] at hstring
    refine foldl_plain (fun c hc ↦ ?_) written
    obtain ⟨hquote, -, hcomma⟩ := plain_of_mem_text hstring hc
    exact ⟨fun h ↦ Bool.false_ne_true (hp ▸ hcomma h), hquote⟩

/-- A piece after a comma that waits: the comma is dropped if the piece closes something, and else
it is written before the piece. -/
theorem foldl_piece_comma (p : Piece) (blanks written : List Char) :
    p.text.foldl step ⟨.comma blanks, written⟩ =
      p.text.foldl step ⟨.plain, blanks ++ (if p.isClosing then [] else [',']) ++ written⟩ := by
  obtain ⟨c, s, hs, hblank, hclosing⟩ := exists_first p
  rw [hs, List.foldl_cons, List.foldl_cons]
  congr 1
  cases hp : p.isClosing with
  | true =>
    rw [hp] at hclosing
    have hplain : c ≠ ',' ∧ c ≠ '"' := by
      constructor
      · rintro rfl; cases hclosing
      · rintro rfl; cases hclosing
    simp [step, stepPlain, hblank, hclosing, hplain]
  | false =>
    rw [hp] at hclosing
    simp [step, hblank, hclosing]

/-- What is written of a piece and what follows, given what is written of the latter. -/
theorem finish_piece (p : Piece) {ps : List Piece} {s : List Char}
    (hplain : ∃ s', Spread IsBlank IsBlank (dropTrailing ps) s' ∧ ∀ written,
      (s.foldl step ⟨.plain, written⟩).finish = written.reverse ++ s')
    (hcomma : ∃ s', Spread IsBlank IsBlank (dropTrailing (.mark .comma :: ps)) s' ∧ ∀ written,
      (s.foldl step ⟨.comma [], written⟩).finish = written.reverse ++ s') :
    ∃ s', Spread IsBlank IsBlank (dropTrailing (p :: ps)) s' ∧ ∀ written,
      ((p.text ++ s).foldl step ⟨.plain, written⟩).finish = written.reverse ++ s' := by
  by_cases hp : p = .mark .comma
  · subst hp
    obtain ⟨s', hs', hfinish⟩ := hcomma
    exact ⟨s', hs', hfinish⟩
  · obtain ⟨s', hs', hfinish⟩ := hplain
    have hno : p.isComma = false := by
      cases p with
      | mark m =>
        cases m with
        | comma => exact absurd rfl hp
        | openArray | closeArray | openObject | closeObject | colon => rfl
      | word | number | string => rfl
    rw [dropTrailing_cons_of_not_comma hno]
    refine ⟨[] ++ (p.text ++ s'), .cons (List.forall_mem_nil _) hs', fun written ↦ ?_⟩
    rw [List.foldl_append, foldl_piece hno, hfinish]
    simp

/-- What is written of a text, from its start or after a comma and some blanks. -/
theorem finish_spread {ps : List Piece} {s : List Char} (h : Spread IsBlank IsBlank ps s) :
    (∃ s', Spread IsBlank IsBlank (dropTrailing ps) s' ∧ ∀ written,
      (s.foldl step ⟨.plain, written⟩).finish = written.reverse ++ s') ∧
    ∀ {blanks : List Char}, IsBlank blanks →
      ∃ s', Spread IsBlank IsBlank (dropTrailing (.mark .comma :: ps)) s' ∧ ∀ written,
        (s.foldl step ⟨.comma blanks, written⟩).finish = written.reverse ++ s' := by
  have hreverse {blanks w : List Char} (hblanks : IsBlank blanks) (hw : IsBlank w) :
      IsBlank (blanks.reverse ++ w) :=
    List.forall_mem_append.mpr ⟨fun c hc ↦ hblanks c (List.mem_reverse.mp hc), hw⟩
  induction h with
  | @nil w hw =>
    refine ⟨⟨w, .nil hw, fun written ↦ ?_⟩, fun {blanks} hblanks ↦
      ⟨[] ++ ([','] ++ (blanks.reverse ++ w)),
        .cons (List.forall_mem_nil _) (.nil (hreverse hblanks hw)), fun written ↦ ?_⟩⟩
    · rw [foldl_blank hw]
      simp [finish]
    · rw [foldl_blank_comma hw]
      simp [finish]
  | @cons w s p ps hw hs ih =>
    obtain ⟨s', hs', hfinish⟩ := finish_piece p ih.1 (ih.2 (List.forall_mem_nil _))
    refine ⟨⟨w ++ s', hs'.prepend hw, fun written ↦ ?_⟩, fun {blanks} hblanks ↦ ?_⟩
    · rw [List.foldl_append, foldl_blank hw, hfinish]
      simp
    · have hspread := hs'.prepend (hreverse hblanks hw)
      have hfold : ∀ written, ((w ++ (p.text ++ s)).foldl step ⟨.comma blanks, written⟩).finish =
          written.reverse ++ ((if p.isClosing then [] else [',']) ++
            (blanks.reverse ++ w ++ s')) := by
        intro written
        rw [List.foldl_append, foldl_blank_comma hw, List.foldl_append, foldl_piece_comma,
          ← List.foldl_append, hfinish]
        cases p.isClosing with
        | true => simp
        | false => simp
      -- The blanks behind the comma are kept, whether or not the comma is.
      cases hp : p.isClosing with
      | true =>
        rw [dropTrailing_comma_closing rfl hp]
        exact ⟨_, hspread, fun written ↦ by rw [hfold, hp]; rfl⟩
      | false =>
        rw [dropTrailing_cons_of_not_closing hp]
        exact ⟨_, .cons (List.forall_mem_nil _) hspread, fun written ↦ by rw [hfold, hp]; rfl⟩

end CommaScan

/-- **Trailing commas between pieces are dropped**, and nothing else is changed. -/
theorem stripTrailingCommas_spread {ps : List Piece} {s : List Char}
    (h : Spread IsBlank IsBlank ps s) :
    Spread IsBlank IsBlank (dropTrailing ps) (stripTrailingCommas s) := by
  obtain ⟨⟨s', hs', hfinish⟩, -⟩ := CommaScan.finish_spread h
  have hstrip : stripTrailingCommas s = s' := hfinish []
  exact hstrip ▸ hs'

end Redirector.Document

namespace Redirector

/-! ## Both passes -/

open Json (Decoder IsBlank Piece Spread Tree)

theorem placeFree_forwarding : Forwarding.decoder.PlaceFree := by
  refine Decoder.Record.PlaceFree.decoder fun f hf ↦ ?_
  have hstring : Decoder.string.PlaceFree := Decoder.placeFree_scalar _ _
  simp only [Forwarding.record, List.mem_cons, List.not_mem_nil, or_false] at hf
  rcases hf with rfl | rfl
  · exact ((hstring.optional.list.map Redirect.ofParts).list).map _
  · exact hstring.list.map _

namespace Document

/-- Texts that are spread from the same pieces read as the same configuration, if as any. -/
theorem ofText_spread {ps : List Piece} (hps : ps.IsChain Piece.Apart) {s s' : String}
    (h : Spread IsBlank IsBlank ps s.toList) (h' : Spread IsBlank IsBlank ps s'.toList) :
    (Forwarding.decoder.ofText s).toOption = (Forwarding.decoder.ofText s').toOption := by
  refine placeFree_forwarding.run ?_
  rw [(h.cuts hps).lexemes_eq false, (h'.cuts hps).lexemes_eq false]

/-- **Comments and extra commas make no difference.** A value is written plainly, with nothing but
whitespace between its pieces, and once more as a document: with comments among the whitespace and
with an extra comma at the end of any of its lists and objects that is not empty. Then the document
reads as the configuration that the plain text reads as, and cannot be read if that cannot. -/
theorem parse_decorated (t : Tree) {plain decorated : String}
    (hplain : Spread IsBlank IsBlank (t.pieces false) plain.toList)
    (hdecorated : Spread Filler LastFiller (t.pieces true) decorated.toList) :
    (parse decorated).toOption = (Forwarding.decoder.ofText plain).toOption := by
  have hstripped : Spread IsBlank IsBlank (t.pieces false) (Document.plain decorated).toList := by
    rw [Document.plain, String.toList_ofList, ← dropTrailing_pieces]
    exact stripTrailingCommas_spread (stripComments_spread hdecorated)
  exact ofText_spread (t.chained_pieces false) hstripped hplain

/-- A list of one domain in an object of one member. The domain looks like a comment, and both the
list and the object have an extra comma. -/
def slashes : Tree :=
  .object [([.plain 'c' (by decide), .plain 'o' (by decide), .plain 'r' (by decide),
      .plain 's' (by decide)],
    .array [.string [.plain '/' (by decide), .plain '/' (by decide)]] true)] true

theorem parse_decorated_slashes :
    (parse "/*/*/\x7b\"cors\":[\"//\",]/***/,//\n\x7d//").toOption =
      (Forwarding.decoder.ofText "\x7b\"cors\": [\"//\"]\x7d").toOption := by
  have hnone : IsBlank [] := List.forall_mem_nil _
  have hspace : IsBlank [' '] := by simp [IsBlank]
  have hempty : Filler [] := .nil
  have hslash : Filler ['/', '*', '/', '*', '/'] := @Filler.block ['/'] [] (by decide) .nil
  have hstar : Filler ['/', '*', '*', '*', '/'] := @Filler.block ['*'] [] (by decide) .nil
  have hline : Filler ['/', '/', '\n'] := @Filler.line [] [] (by decide) .nil
  have hend : LastFiller ['/', '/'] := @LastFiller.openLine [] [] (by decide) .nil
  refine parse_decorated slashes ?_ ?_
  · simp only [slashes, Tree.pieces, Tree.memberPieces, Tree.itemPieces]
    have htext : "\x7b\"cors\": [\"//\"]\x7d".toList =
      ['{', '"', 'c', 'o', 'r', 's', '"', ':', ' ', '[', '"', '/', '/', '"', ']', '}'] := rfl
    rw [htext]
    exact .cons hnone <| .cons hnone <| .cons hnone <| .cons hspace <| .cons hnone <|
      .cons hnone <| .cons hnone <| .nil hnone
  · simp only [slashes, Tree.pieces, Tree.memberPieces, Tree.itemPieces]
    have htext : "/*/*/\x7b\"cors\":[\"//\",]/***/,//\n\x7d//".toList =
      ['/', '*', '/', '*', '/', '{', '"', 'c', 'o', 'r', 's', '"', ':', '[', '"', '/', '/', '"',
        ',', ']', '/', '*', '*', '*', '/', ',', '/', '/', '\n', '}', '/', '/'] := rfl
    rw [htext]
    exact .cons hslash <| .cons hempty <| .cons hempty <| .cons hempty <| .cons hempty <|
      .cons hempty <| .cons hempty <| .cons hstar <| .cons hline <| .nil hend

end Document

end Redirector

namespace Redirector.Document

/-! ## Written configurations are documents

The JSON text of a configuration is a document, too, and reads as that configuration
(`Document.parse_written`), although its strings may contain whatever a document gives a meaning to:
the marks of comments, a comma before a bracket, quotes and backslashes. Both passes over a document
leave the pieces of such a text alone: there are no comments between them and no extra commas.
-/

open Json (IsBlank Piece Spread Tree)

theorem filler_of_isBlank {w : List Char} (h : IsBlank w) : Filler w := by
  induction w with
  | nil => exact .nil
  | cons c w ih =>
    obtain ⟨hc, hw⟩ := List.forall_mem_cons.mp h
    exact .blank hc (ih hw)

/-- Blanks are a special case of what may stand in a document. -/
theorem spread_filler {ps : List Piece} {s : List Char} (h : Spread IsBlank IsBlank ps s) :
    Spread Filler LastFiller ps s := by
  induction h with
  | nil hw => exact .nil (.closed (filler_of_isBlank hw))
  | cons hw _ ih => exact .cons (filler_of_isBlank hw) ih

theorem spread_plain {t : Tree} (ht : t.pieces true = t.pieces false) {s : String}
    (h : Spread IsBlank IsBlank (t.pieces false) s.toList) :
    Spread IsBlank IsBlank (t.pieces false) (plain s).toList := by
  have hcommas := stripTrailingCommas_spread (stripComments_spread (spread_filler h))
  rw [← ht, dropTrailing_pieces] at hcommas
  rw [plain, String.toList_ofList]
  exact hcommas

/-- **A written configuration reads as itself**, in either layout and whatever its strings are. -/
theorem parse_written (f : Forwarding) :
    parse f.toJson.compact = .ok f ∧ parse f.toJson.pretty = .ok f := by
  obtain ⟨t, ht⟩ := Json.exists_isWrittenAs f.toJson f.fits_toJson.isIntegral
  have hparse {s : String} (hs : Json.Spells (t.pieces false) f.toJson.tokens s.toList) :
      parse s = .ok f := by
    have hplain : Json.Spells (t.pieces false) f.toJson.tokens (plain s).toList :=
      ⟨spread_plain ht.unadorned hs.spread, hs.tokens⟩
    exact Forwarding.agrees_decoder.run_spells f.ofJson_toJson f.fits_toJson (by decide) hplain
      false
  constructor
  · refine hparse ?_
    rw [Json.compact, String.toList_ofList]
    exact ht.compact
  · refine hparse ?_
    rw [Json.pretty, String.toList_ofList]
    exact ht.pretty 0

end Redirector.Document
