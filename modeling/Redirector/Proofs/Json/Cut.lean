import Mathlib.Tactic.SplitIfs
import Redirector.Json.Lexeme

/-!
# The cut of a text, places apart

Places are carried along by the cut and never looked at: which lexemes a text is cut into depends on
its characters alone. `bare` takes the places out of lexemes and out of the state of the cut. Two
states that differ in nothing else stay so with every character (`Lexer.bare_step`), whatever the
places are, and whether or not the text is pulled in byte by byte.
-/

namespace Redirector.Json

open Text (Place)

/-! ## Without places -/

/-- A verdict without what was wrong and where. -/
def bareVerdict {α : Type} (x : Except Snag α) : Except Snag α :=
  x.mapError fun _ ↦ ⟨.noValue, Place.start⟩

theorem bareVerdict_eq_cases {α : Type} {x y : Except Snag α} (h : bareVerdict x = bareVerdict y) :
    (∃ a, x = .ok a ∧ y = .ok a) ∨ ∃ e f, x = .error e ∧ y = .error f := by
  cases x with
  | ok a =>
    cases y with
    | ok b => exact Or.inl ⟨a, rfl, congrArg Except.ok (Except.ok.inj h).symm⟩
    | error f => cases h
  | error e =>
    cases y with
    | ok b => cases h
    | error f => exact Or.inr ⟨e, f, rfl, rfl⟩

theorem bareVerdict_map {α β : Type} {x y : Except Snag α} (f : α → β)
    (h : bareVerdict x = bareVerdict y) : bareVerdict (x.map f) = bareVerdict (y.map f) := by
  rcases bareVerdict_eq_cases h with ⟨a, rfl, rfl⟩ | ⟨e, e', rfl, rfl⟩
  · rfl
  · rfl

def Token.bare : Token → Token
  | .string content skipped => .string (bareVerdict content) (bareVerdict skipped)
  | .number value skipped => .number (bareVerdict value) (bareVerdict skipped)
  | .word value => .word (bareVerdict value)
  | t => t

def Lexeme.bare (l : Lexeme) : Lexeme := ⟨l.token.bare, Place.start, Place.start, Place.start⟩

def Outcome.bare {σ : Type} (f : σ → σ) : Outcome σ → Outcome σ
  | .more next => .more (f next)
  | .complete t => .complete t.bare
  | .ended t => .ended t.bare
  | .broken t => .broken t.bare

theorem Outcome.bare_eq_cases {σ : Type} {f : σ → σ} {x y : Outcome σ}
    (h : x.bare f = y.bare f) :
    (∃ s s', x = .more s ∧ y = .more s' ∧ f s = f s') ∨
    (∃ t t', x = .complete t ∧ y = .complete t' ∧ t.bare = t'.bare) ∨
    (∃ t t', x = .ended t ∧ y = .ended t' ∧ t.bare = t'.bare) ∨
    ∃ t t', x = .broken t ∧ y = .broken t' ∧ t.bare = t'.bare := by
  cases x with
  | more s =>
    cases y with
    | more s' => exact Or.inl ⟨s, s', rfl, rfl, Outcome.more.inj h⟩
    | complete | ended | broken => cases h
  | complete t =>
    cases y with
    | complete t' => exact Or.inr (Or.inl ⟨t, t', rfl, rfl, Outcome.complete.inj h⟩)
    | more | ended | broken => cases h
  | ended t =>
    cases y with
    | ended t' => exact Or.inr (Or.inr (Or.inl ⟨t, t', rfl, rfl, Outcome.ended.inj h⟩))
    | more | complete | broken => cases h
  | broken t =>
    cases y with
    | broken t' => exact Or.inr (Or.inr (Or.inr ⟨t, t', rfl, rfl, Outcome.broken.inj h⟩))
    | more | complete | ended => cases h

/-! ## Strings -/

namespace StringScan

def bare (s : StringScan) : StringScan := { s with content := bareVerdict s.content }

variable {s t : StringScan}

theorem bare_eq_cases (h : s.bare = t.bare) :
    s = t ∨ ∃ e f surrogate inside,
      s = ⟨.error e, surrogate, inside⟩ ∧ t = ⟨.error f, surrogate, inside⟩ := by
  obtain ⟨content, surrogate, inside⟩ := s
  obtain ⟨content', surrogate', inside'⟩ := t
  obtain ⟨hcontent, rfl, rfl⟩ := StringScan.mk.inj h
  rcases bareVerdict_eq_cases hcontent with ⟨cs, rfl, rfl⟩ | ⟨e, f, rfl, rfl⟩
  · exact Or.inl rfl
  · exact Or.inr ⟨e, f, surrogate, inside, rfl, rfl⟩

theorem surrogate_eq (h : s.bare = t.bare) : s.surrogate = t.surrogate :=
  (StringScan.mk.inj h).2.1

theorem inside_eq (h : s.bare = t.bare) : s.inside = t.inside := (StringScan.mk.inj h).2.2

variable (h : s.bare = t.bare)

include h

theorem bare_moved (inside : Inside) :
    bare { s with inside := inside } = bare { t with inside := inside } := by
  rcases bare_eq_cases h with rfl | ⟨e, f, surrogate, inside, rfl, rfl⟩
  · rfl
  · rfl

theorem bare_push (c : Char) : (s.push c).bare = (t.push c).bare := by
  rcases bare_eq_cases h with rfl | ⟨e, f, surrogate, inside, rfl, rfl⟩
  · rfl
  · rfl

theorem bare_blame (b b' : Breach) (p q : Place) : (s.blame b p).bare = (t.blame b' q).bare := by
  rcases bare_eq_cases h with rfl | ⟨e, f, surrogate, inside, rfl, rfl⟩
  · obtain ⟨content, surrogate, inside⟩ := s
    cases content with
    | ok cs => rfl
    | error e => rfl
  · rfl

theorem bare_dropSurrogate (p q : Place) :
    (s.dropSurrogate p).bare = (t.dropSurrogate q).bare := by
  have hblame := bare_blame h .surrogateCutShort .surrogateCutShort p q
  have hsurrogate := surrogate_eq h
  simp only [dropSurrogate, hsurrogate]
  split_ifs
  · obtain ⟨hcontent, -, hinside⟩ := StringScan.mk.inj hblame
    exact StringScan.mk.injEq .. |>.mpr ⟨hcontent, rfl, hinside⟩
  · exact h

theorem bare_unit (n : Nat) (p q : Place) : (s.unit n p).bare = (t.unit n q).bare := by
  have hsurrogate := surrogate_eq h
  have hcleared : ∀ m, bare { s with surrogate := m } = bare { t with surrogate := m } := by
    intro m
    rcases bare_eq_cases h with rfl | ⟨e, f, surrogate, inside, rfl, rfl⟩
    · rfl
    · rfl
  simp only [unit, hsurrogate]
  cases t.surrogate with
  | none =>
    dsimp only
    split_ifs
    · exact bare_blame h _ _ p q
    · exact hcleared _
    · exact bare_push h _
  | some lead =>
    dsimp only
    split_ifs
    · exact bare_push (hcleared none) _
    · exact bare_blame (hcleared none) _ _ p q

theorem bare_token {x y : Except Snag Unit} (hxy : bareVerdict x = bareVerdict y) :
    (s.token x).bare = (t.token y).bare := by
  have hcontent : bareVerdict s.content = bareVerdict t.content := (StringScan.mk.inj h).1
  simp only [token, Token.bare, bareVerdict_map _ hcontent, hxy]

theorem bare_broken (b : Breach) (p q p' q' : Place) :
    (s.broken b p p').bare bare = (t.broken b q q').bare bare :=
  congrArg Outcome.broken (bare_token (bare_blame h b b p q) rfl)

/-- What one more character makes of a string literal does not depend on places. -/
theorem bare_step (p q : Place) (c : Char) :
    (s.step p c).bare bare = (t.step q c).bare bare := by
  have hinside := inside_eq h
  simp only [step, hinside]
  cases t.inside with
  | plain =>
    have hdropped := bare_dropSurrogate h (p.nudge c) (q.nudge c)
    dsimp only
    split_ifs
    · exact congrArg Outcome.more (bare_moved h _)
    · exact congrArg Outcome.complete (bare_token hdropped rfl)
    · exact bare_broken hdropped _ _ _ _ _
    · exact congrArg Outcome.more (bare_push hdropped c)
  | escape =>
    have hdropped := bare_dropSurrogate h (p.nudge c) (q.nudge c)
    dsimp only
    split_ifs
    · exact congrArg Outcome.more (bare_moved h _)
    · cases escaped? c with
      | none => exact bare_broken hdropped _ _ _ _ _
      | some d => exact congrArg Outcome.more (bare_moved (bare_push hdropped d) _)
  | digits count value =>
    dsimp only
    split_ifs
    · exact congrArg Outcome.more (bare_moved h _)
    · cases (do return (← value) * 16 + (← digit? c) : Option Nat) with
      | none => exact bare_broken h _ _ _ _ _
      | some n => exact congrArg Outcome.more (bare_moved (bare_unit h n _ _) _)
    · cases (do return (← value) * 16 + (← digit? c) : Option Nat) with
      | none => exact bare_broken h _ _ _ _ _
      | some n => exact congrArg Outcome.more (bare_moved (bare_unit h n _ _) _)

end StringScan

/-! ## Numbers -/

namespace NumberScan

def bare (n : NumberScan) : NumberScan := { n with overrun := n.overrun.map fun _ ↦ Place.start }

variable {n m : NumberScan}

theorem bare_eq_cases (h : n.bare = m.bare) :
    n = m ∨ ∃ p q, n = { m with overrun := some p } ∧ m.overrun = some q := by
  obtain ⟨negative, part, significand, exponent, full, powerNegative, power, overrun⟩ := n
  obtain ⟨negative', part', significand', exponent', full', powerNegative', power', overrun'⟩ := m
  obtain ⟨rfl, rfl, rfl, rfl, rfl, rfl, rfl, hoverrun⟩ := NumberScan.mk.inj h
  cases overrun with
  | none =>
    cases overrun' with
    | none => exact Or.inl rfl
    | some q => cases hoverrun
  | some p =>
    cases overrun' with
    | none => cases hoverrun
    | some q => exact Or.inr ⟨p, q, rfl, rfl⟩

/-- Whether a number may end here. -/
def isComplete (n : NumberScan) : Bool :=
  n.part = .zero || n.part = .whole || n.part = .fraction || n.part = .power

variable (h : n.bare = m.bare)

include h

theorem part_eq : n.part = m.part := (NumberScan.mk.inj h).2.1

theorem bare_moved (part : Part) :
    bare { n with part := part } = bare { m with part := part } := by
  rcases bare_eq_cases h with rfl | ⟨p, q, rfl, hq⟩
  · rfl
  · simp [bare, hq]

theorem bare_pushWhole (d : Nat) : (n.pushWhole d).bare = (m.pushWhole d).bare := by
  rcases bare_eq_cases h with rfl | ⟨p, q, rfl, hq⟩
  · rfl
  · simp only [pushWhole]
    split_ifs
    · simp [bare, hq]
    · simp [bare, hq]

theorem bare_pushFraction (d : Nat) : (n.pushFraction d).bare = (m.pushFraction d).bare := by
  rcases bare_eq_cases h with rfl | ⟨p, q, rfl, hq⟩
  · rfl
  · simp only [pushFraction]
    split_ifs
    · simp [bare, hq]
    · simp [bare, hq]

theorem bare_pushPower (d : Nat) (p q : Place) :
    (n.pushPower d p).bare = (m.pushPower d q).bare := by
  rcases bare_eq_cases h with rfl | ⟨p', q', rfl, hq⟩
  · simp only [pushPower]
    split_ifs
    · rfl
    · rfl
    · rfl
  · simp [pushPower, bare, hq]

theorem bareVerdict_value (p q : Place) : bareVerdict (n.value p) = bareVerdict (m.value q) := by
  have hreal : bareVerdict (n.real p) = bareVerdict (m.real q) := by
    rcases bare_eq_cases h with rfl | ⟨p', q', rfl, hq⟩
    · simp only [real]
      split
      · rfl
      · split
        · rfl
        · rfl
    · simp only [real, hq]
      split_ifs
      · rfl
      · rfl
  obtain ⟨hnegative, hpart, hsignificand, -, hfull, -⟩ := NumberScan.mk.inj h
  simp only [value, hnegative, hpart, hsignificand, hfull]
  split_ifs
  · rfl
  · rfl
  · exact hreal

theorem bare_token (p q : Place) : (n.token p).bare = (m.token q).bare := by
  simp only [token, Token.bare, bareVerdict_value h p q]

theorem bare_signed (b : Bool) :
    bare { n with part := .sign, powerNegative := b } =
      bare { m with part := .sign, powerNegative := b } := by
  rcases bare_eq_cases h with rfl | ⟨p, q, rfl, hq⟩
  · rfl
  · simp [bare, hq]

theorem bare_afterWhole (p q : Place) (c : Char) :
    (step.afterWhole n p c).bare bare = (step.afterWhole m q c).bare bare := by
  simp only [step.afterWhole]
  split_ifs
  · rcases bare_eq_cases h with rfl | ⟨p, q, rfl, hq⟩
    · rfl
    · simp [Outcome.bare, bare, hq]
  · exact congrArg Outcome.more (bare_moved h _)
  · exact congrArg Outcome.ended (bare_token h p q)

/-- What one more character makes of a number does not depend on places. -/
theorem bare_step (p q p' q' : Place) (c : Char) :
    (n.step p p' c).bare bare = (m.step q q' c).bare bare := by
  have hended : (Outcome.ended (σ := NumberScan) (n.token p)).bare bare =
      (Outcome.ended (m.token q)).bare bare := congrArg Outcome.ended (bare_token h p q)
  simp only [step, part_eq h]
  cases digit? c with
  | none =>
    cases m.part with
    | minus | point | sign => rfl
    | zero | whole => exact bare_afterWhole h p q c
    | fraction =>
      dsimp only
      split_ifs
      · exact congrArg Outcome.more (bare_moved h _)
      · exact hended
    | mark =>
      dsimp only
      split_ifs
      · exact congrArg Outcome.more (bare_moved h _)
      · exact congrArg Outcome.more (bare_signed h true)
      · rfl
    | power => exact hended
  | some d =>
    have hpower := bare_pushPower h d (p'.step c) (q'.step c)
    cases m.part with
    | minus | zero => rfl
    | whole => exact congrArg Outcome.more (bare_pushWhole h d)
    | point => exact congrArg Outcome.more (bare_moved (bare_pushFraction h d) _)
    | fraction => exact congrArg Outcome.more (bare_pushFraction h d)
    | mark | sign => exact congrArg Outcome.more (bare_moved hpower _)
    | power => exact congrArg Outcome.more hpower

end NumberScan

/-! ## The cut -/

def Lexer.Mode.bare : Lexer.Mode → Lexer.Mode
  | .string _ s => .string ⟨Place.start, Place.start⟩ s.bare
  | .number _ n => .number ⟨Place.start, Place.start⟩ n.bare
  | .word _ rest w => .word ⟨Place.start, Place.start⟩ rest w
  | mode => mode

namespace Lexer

/-- One state of the cut stands like another, with some lexemes below those of the other. Places
and the way in which the text is pulled in do not count. -/
structure Atop (below : List Lexeme) (l k : Lexer) : Prop where
  mode : l.mode.bare = k.mode.bare
  lexemes : l.lexemes.map Lexeme.bare = k.lexemes.map Lexeme.bare ++ below

namespace Atop

variable {below : List Lexeme} {l k : Lexer}

theorem emit {t u : Token} {mode mode' : Mode} (h : Atop below l k) (o o' : Opening)
    (ht : t.bare = u.bare) (p q : Place) (hmode : mode.bare = mode'.bare) :
    Atop below (l.emit o t p mode) (k.emit o' u q mode') where
  mode := hmode
  lexemes := by simp only [Lexer.emit, List.map_cons, Lexeme.bare, ht, h.lexemes, List.cons_append]

theorem withMode {mode mode' : Mode} (h : Atop below l k) (hmode : mode.bare = mode'.bare) :
    Atop below { l with mode := mode } { k with mode := mode' } where
  mode := hmode
  lexemes := h.lexemes

theorem withPlace (h : Atop below l k) (p q : Place) :
    Atop below { l with place := p } { k with place := q } where
  mode := h.mode
  lexemes := h.lexemes

theorem stepBetween (h : Atop below l k) (c : Char) :
    Atop below (l.stepBetween c) (k.stepBetween c) := by
  simp only [Lexer.stepBetween]
  split
  all_goals first
    | exact h
    | exact h.emit _ _ rfl _ _ rfl
    | exact h.withMode rfl
    | skip
  cases NumberScan.digit? _ with
  | some d => exact h.withMode rfl
  | none => exact h.emit _ _ rfl _ _ rfl

theorem stepString {o o' : Opening} {s s' : StringScan} (h : Atop below l k)
    (hmode : l.mode = .string o s) (hmode' : k.mode = .string o' s') (c : Char) :
    Atop below (l.stepMode c) (k.stepMode c) := by
  have hscan : s.bare = s'.bare := by
    have hbare := h.mode
    rw [hmode, hmode'] at hbare
    exact (Mode.string.inj hbare).2
  simp only [Lexer.stepMode, hmode, hmode']
  rcases Outcome.bare_eq_cases (StringScan.bare_step hscan l.place k.place c) with
    ⟨t, t', ht, ht', hbare⟩ | ⟨t, t', ht, ht', hbare⟩ | ⟨t, t', ht, ht', hbare⟩ |
      ⟨t, t', ht, ht', hbare⟩
  · have hnext : (Mode.string o t).bare = (Mode.string o' t').bare := congrArg (Mode.string _) hbare
    simpa only [ht, ht'] using h.withMode hnext
  · simpa only [ht, ht'] using h.emit o o' hbare _ _ rfl
  -- What has ended before a character leaves it to be taken between lexemes.
  · simpa only [ht, ht'] using (h.emit o o' hbare _ _ rfl).stepBetween c
  · simpa only [ht, ht'] using h.emit o o' hbare _ _ rfl

theorem stepNumber {o o' : Opening} {n m : NumberScan} (h : Atop below l k)
    (hmode : l.mode = .number o n) (hmode' : k.mode = .number o' m) (c : Char) :
    Atop below (l.stepMode c) (k.stepMode c) := by
  have hscan : n.bare = m.bare := by
    have hbare := h.mode
    rw [hmode, hmode'] at hbare
    exact (Mode.number.inj hbare).2
  simp only [Lexer.stepMode, hmode, hmode']
  rcases Outcome.bare_eq_cases (NumberScan.bare_step hscan
      (if l.pulled then l.place.nudge c else l.place)
      (if k.pulled then k.place.nudge c else k.place) l.place k.place c) with
    ⟨t, t', ht, ht', hbare⟩ | ⟨t, t', ht, ht', hbare⟩ | ⟨t, t', ht, ht', hbare⟩ |
      ⟨t, t', ht, ht', hbare⟩
  · have hnext : (Mode.number o t).bare = (Mode.number o' t').bare := congrArg (Mode.number _) hbare
    simpa only [ht, ht'] using h.withMode hnext
  · simpa only [ht, ht'] using h.emit o o' hbare _ _ rfl
  · simpa only [ht, ht'] using (h.emit o o' hbare _ _ rfl).stepBetween c
  · simpa only [ht, ht'] using h.emit o o' hbare _ _ rfl

theorem stepWord {o o' : Opening} {rest : List Char} {w : Word} (h : Atop below l k)
    (hmode : l.mode = .word o rest w) (hmode' : k.mode = .word o' rest w) (c : Char) :
    Atop below (l.stepMode c) (k.stepMode c) := by
  cases rest with
  | nil =>
    simpa only [Lexer.stepMode, hmode, hmode'] using (h.emit o o' rfl _ _ rfl).stepBetween c
  | cons d rest =>
    simp only [Lexer.stepMode, hmode, hmode']
    split_ifs
    · exact h.emit o o' rfl _ _ rfl
    · exact h.withMode rfl
    · refine h.emit o o' ?_ _ _ rfl
      rfl

theorem stepMode (h : Atop below l k) (c : Char) : Atop below (l.stepMode c) (k.stepMode c) := by
  have hbare := h.mode
  cases hmode : l.mode with
  | between =>
    cases hmode' : k.mode with
    | between => simpa only [Lexer.stepMode, hmode, hmode'] using h.stepBetween c
    | string | number | word | halted => rw [hmode, hmode'] at hbare; cases hbare
  | string o s =>
    cases hmode' : k.mode with
    | string o' s' => exact h.stepString hmode hmode' c
    | between | number | word | halted => rw [hmode, hmode'] at hbare; cases hbare
  | number o n =>
    cases hmode' : k.mode with
    | number o' m => exact h.stepNumber hmode hmode' c
    | between | string | word | halted => rw [hmode, hmode'] at hbare; cases hbare
  | word o rest w =>
    cases hmode' : k.mode with
    | word o' rest' w' =>
      rw [hmode, hmode'] at hbare
      obtain ⟨-, rfl, rfl⟩ := Mode.word.inj hbare
      exact h.stepWord hmode hmode' c
    | between | string | number | halted => rw [hmode, hmode'] at hbare; cases hbare
  | halted =>
    cases hmode' : k.mode with
    | halted => simpa only [Lexer.stepMode, hmode, hmode'] using h
    | between | string | number | word => rw [hmode, hmode'] at hbare; cases hbare

theorem step (h : Atop below l k) (c : Char) : Atop below (l.step c) (k.step c) :=
  (h.stepMode c).withPlace _ _

theorem foldl (h : Atop below l k) (s : List Char) :
    Atop below (s.foldl Lexer.step l) (s.foldl Lexer.step k) := by
  induction s generalizing l k with
  | nil => exact h
  | cons c s ih => exact ih (h.step c)

end Atop

end Lexer

end Redirector.Json
