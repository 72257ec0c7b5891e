import Mathlib.Tactic.SplitIfs
import Redirector.Json.Value
import Redirector.Proofs.Json.Cut

/-!
# Reading, places apart

Places serve messages only. What is read off a cut text, and whether it can be read at all, depends
on the lexemes without their places (`PlaceFree`). Each step over the lexemes has this property, and
so has each decoder that is put together from such steps.
-/

namespace Redirector.Json

open Text (Place)

/-- What comes out of a step, its message apart, seen through a function. -/
def outcome {α β : Type} (f : α → β) (x : Except Misread α) : Option β := x.toOption.map f

section

variable {α β γ : Type} {f : α → β} {g : γ → β}

theorem outcome_eq_cases {x : Except Misread α} {y : Except Misread γ}
    (h : outcome f x = outcome g y) :
    (∃ e e', x = .error e ∧ y = .error e') ∨ ∃ a b, x = .ok a ∧ y = .ok b ∧ f a = g b := by
  cases x with
  | error e =>
    cases y with
    | error e' => exact Or.inl ⟨e, e', rfl, rfl⟩
    | ok b => cases h
  | ok a =>
    cases y with
    | error e' => cases h
    | ok b => exact Or.inr ⟨a, b, rfl, rfl, Option.some.inj h⟩

@[simp]
theorem outcome_placed (endOf : Cursor → Place) (x : Except Misread α) :
    outcome f (Read.placed endOf x) = outcome f x := by
  cases x with
  | error e => rfl
  | ok a => rfl

@[simp]
theorem outcome_under (step : Step) (x : Except Misread α) :
    outcome f (Read.under step x) = outcome f x := by
  cases x with
  | error e => rfl
  | ok a => rfl

end

@[simp]
theorem bareVerdict_bareVerdict {α : Type} (x : Except Snag α) :
    bareVerdict (bareVerdict x) = bareVerdict x := by
  cases x with
  | ok a => rfl
  | error e => rfl

@[simp]
theorem Token.bare_bare (t : Token) : t.bare.bare = t.bare := by
  cases t with
  | string | number | word => simp [Token.bare]
  | openObject | closeObject | openArray | closeArray | comma | colon | stray => rfl

@[simp]
theorem Lexeme.bare_bare (l : Lexeme) : l.bare.bare = l.bare := by
  simp [Lexeme.bare]

def Cursor.bare (c : Cursor) : Cursor := ⟨c.lexemes.map Lexeme.bare, Place.start, c.depth⟩

/-- What a step has read, with the rest without its places. -/
def afterRead {α : Type} : α × Cursor → α × Cursor := Prod.map id Cursor.bare

/-- A step does not look at places. -/
def PlaceFree {α : Type} (r : Read α) : Prop :=
  ∀ ⦃c c' : Cursor⦄, c.bare = c'.bare → outcome afterRead (r c) = outcome afterRead (r c')

theorem placeFree_of_bare {α : Type} {r : Read α}
    (h : ∀ c, outcome afterRead (r c) = outcome afterRead (r c.bare)) : PlaceFree r := by
  intro c c' hc
  rw [h c, h c', hc]

namespace Cursor

variable {c c' : Cursor} {rest rest' : List Lexeme}

theorem bare_eq (hc : c.bare = c'.bare) :
    c.lexemes.map Lexeme.bare = c'.lexemes.map Lexeme.bare ∧ c.depth = c'.depth := by
  obtain ⟨hlexemes, -, hdepth⟩ := Cursor.mk.inj hc
  exact ⟨hlexemes, hdepth⟩

theorem bare_mk {depth depth' : Nat} (hrest : rest.map Lexeme.bare = rest'.map Lexeme.bare)
    (hdepth : depth = depth') (p q : Place) : bare ⟨rest, p, depth⟩ = bare ⟨rest', q, depth'⟩ := by
  simp only [bare, hrest, hdepth]

@[simp]
theorem bare_bare (c : Cursor) : c.bare.bare = c.bare := by
  simp [bare, Function.comp_def]

theorem outcome_enter (l l' : Lexeme) (hc : c.bare = c'.bare)
    (hrest : rest.map Lexeme.bare = rest'.map Lexeme.bare) :
    outcome bare (c.enter l rest) = outcome bare (c'.enter l' rest') := by
  obtain ⟨-, hdepth⟩ := bare_eq hc
  simp only [enter, hdepth]
  split_ifs
  · rfl
  · exact congrArg some (bare_mk hrest rfl _ _)

/-! ## Lists -/

theorem outcome_some_bare (c : Cursor) :
    outcome (Option.map bare) (.ok (some c)) = outcome (Option.map bare) (.ok (some c.bare)) := by
  simp [outcome, Except.toOption]

theorem outcome_nextItem_bare (c : Cursor) (isFirst : Bool) :
    outcome (Option.map bare) (c.nextItem isFirst) =
      outcome (Option.map bare) (c.bare.nextItem isFirst) := by
  obtain ⟨_ | ⟨⟨token, before, seen, after⟩, rest⟩, finish, depth⟩ := c
  · rfl
  · cases isFirst with
    | true =>
      cases token with
      | closeArray => rfl
      | openObject | closeObject | openArray | comma | colon | stray | string | number | word =>
        exact outcome_some_bare _
    | false =>
      cases token with
      | comma =>
        obtain _ | ⟨⟨token, before, seen, after⟩, rest⟩ := rest
        · rfl
        · cases token with
          | closeArray => rfl
          | openObject | closeObject | openArray | comma | colon | stray | string | number
          | word => exact outcome_some_bare ⟨_, finish, depth⟩
      | closeArray | openObject | closeObject | openArray | colon | stray | string | number
      | word => rfl

theorem outcome_nextItem (hc : c.bare = c'.bare) (isFirst : Bool) :
    outcome (Option.map bare) (c.nextItem isFirst) =
      outcome (Option.map bare) (c'.nextItem isFirst) := by
  rw [outcome_nextItem_bare c, outcome_nextItem_bare c', hc]

theorem outcome_leaveList_bare (c : Cursor) (depth : Nat) :
    outcome bare (c.leaveList depth) = outcome bare (c.bare.leaveList depth) := by
  obtain ⟨_ | ⟨⟨token, before, seen, after⟩, rest⟩, finish, depth'⟩ := c
  · rfl
  · cases token with
    | closeArray => exact (congrArg some (bare_bare ⟨rest, finish, depth⟩)).symm
    | comma =>
      obtain _ | ⟨⟨token, before, seen, after⟩, rest⟩ := rest
      · rfl
      · cases token with
        | closeArray | openObject | closeObject | openArray | comma | colon | stray | string
        | number | word => rfl
    | openObject | closeObject | openArray | colon | stray | string | number | word => rfl

theorem outcome_leaveList (hc : c.bare = c'.bare) {depth depth' : Nat} (h : depth = depth') :
    outcome bare (c.leaveList depth) = outcome bare (c'.leaveList depth') := by
  rw [h, outcome_leaveList_bare c, outcome_leaveList_bare c', hc]

/-- The items of a list, given that an item does not look at places. The fuel counts only by its
length. -/
theorem outcome_readItems {α : Type} {item : Read α} (hitem : PlaceFree item)
    {fuel fuel' : List Lexeme} (hfuel : fuel.length = fuel'.length) (index : Nat) (found : List α)
    (hc : c.bare = c'.bare) :
    outcome afterRead (readItems item fuel index found c) =
      outcome afterRead (readItems item fuel' index found c') := by
  induction fuel generalizing fuel' index found c c' with
  | nil =>
    rw [List.eq_nil_of_length_eq_zero hfuel.symm]
    rfl
  | cons l fuel ih =>
    obtain ⟨l', fuel', rfl⟩ := List.exists_cons_of_length_eq_add_one hfuel.symm
    have hfuel : fuel.length = fuel'.length := Nat.succ.inj hfuel
    rw [readItems, readItems]
    rcases outcome_eq_cases (outcome_nextItem hc (index = 0)) with
      ⟨e, e', hx, hy⟩ | ⟨next, next', hx, hy, hnext⟩
    · rw [hx, hy]; rfl
    · rw [hx, hy]
      cases next with
      | none =>
        cases next' with
        | none =>
          simpa [outcome, afterRead, Except.toOption] using hc
        | some d' => cases hnext
      | some d =>
        cases next' with
        | none => cases hnext
        | some d' =>
          have hd := hitem (Option.some.inj hnext)
          rw [← outcome_under (.item index) (item d), ← outcome_under (.item index) (item d')] at hd
          rcases outcome_eq_cases hd with ⟨e, e', hx, hy⟩ | ⟨⟨a, d⟩, ⟨a', d'⟩, hx, hy, ha⟩
          · simp only [hx, hy]; rfl
          · obtain ⟨rfl, hd⟩ := Prod.mk.inj ha
            simp only [hx, hy]
            exact ih hfuel (index + 1) (a :: found) hd

theorem outcome_readList {α : Type} {item : Read α} (hitem : PlaceFree item) (l l' : Lexeme)
    (hc : c.bare = c'.bare) (hrest : rest.map Lexeme.bare = rest'.map Lexeme.bare) :
    outcome afterRead (readList item c l rest) = outcome afterRead (readList item c' l' rest') := by
  have hlength : (l :: rest).length = (l' :: rest').length := by
    simpa using congrArg List.length hrest
  rw [readList, readList]
  rcases outcome_eq_cases (outcome_enter l l' hc hrest) with
    ⟨e, e', hx, hy⟩ | ⟨inner, inner', hx, hy, hinner⟩
  · simp only [hx, hy]; rfl
  simp only [hx, hy]
  have hitems := outcome_readItems hitem hlength 0 [] hinner
  rw [← outcome_placed listEnd, ← outcome_placed listEnd (readItems item (l' :: rest') 0 [] inner')]
    at hitems
  rcases outcome_eq_cases hitems with ⟨e, e', hx, hy⟩ | ⟨⟨items, d⟩, ⟨items', d'⟩, hx, hy, heq⟩
  · simp only [hx, hy]; rfl
  obtain ⟨rfl, hd⟩ := Prod.mk.inj heq
  simp only [hx, hy]
  rcases outcome_eq_cases (outcome_leaveList hd (bare_eq hc).2) with
    ⟨e, e', hx, hy⟩ | ⟨outer, outer', hx, hy, houter⟩
  · simp only [hx, hy]; rfl
  · simp only [hx, hy]
    exact congrArg some (Prod.ext rfl houter)

/-! ## Objects -/

theorem outcome_nextKey_bare (c : Cursor) (isFirst : Bool) :
    outcome (Option.map bare) (c.nextKey isFirst) =
      outcome (Option.map bare) (c.bare.nextKey isFirst) := by
  obtain ⟨_ | ⟨⟨token, before, seen, after⟩, rest⟩, finish, depth⟩ := c
  · rfl
  · cases isFirst with
    | true =>
      cases token with
      | string => exact outcome_some_bare _
      | closeObject | openObject | closeArray | openArray | comma | colon | stray | number
      | word => rfl
    | false =>
      cases token with
      | comma =>
        obtain _ | ⟨⟨token, before, seen, after⟩, rest⟩ := rest
        · rfl
        · cases token with
          | string => exact outcome_some_bare ⟨_, finish, depth⟩
          | closeObject | openObject | closeArray | openArray | comma | colon | stray | number
          | word => rfl
      | closeObject | openObject | closeArray | openArray | colon | stray | string | number
      | word => rfl

theorem outcome_nextKey (hc : c.bare = c'.bare) (isFirst : Bool) :
    outcome (Option.map bare) (c.nextKey isFirst) =
      outcome (Option.map bare) (c'.nextKey isFirst) := by
  rw [outcome_nextKey_bare c, outcome_nextKey_bare c', hc]

theorem placeFree_readKey : PlaceFree readKey := by
  refine placeFree_of_bare fun c ↦ ?_
  obtain ⟨_ | ⟨⟨token, before, seen, after⟩, rest⟩, finish, depth⟩ := c
  · rfl
  · cases token with
    | string content skipped =>
      cases content with
      | ok key => exact (congrArg (fun c ↦ some (key, c)) (bare_bare ⟨rest, finish, depth⟩)).symm
      | error e => rfl
    | closeObject | openObject | closeArray | openArray | comma | colon | stray | number
    | word => rfl

theorem outcome_readColon_bare (c : Cursor) :
    outcome bare c.readColon = outcome bare c.bare.readColon := by
  obtain ⟨_ | ⟨⟨token, before, seen, after⟩, rest⟩, finish, depth⟩ := c
  · rfl
  · cases token with
    | colon => exact (congrArg some (bare_bare ⟨rest, finish, depth⟩)).symm
    | closeObject | openObject | closeArray | openArray | comma | string | stray | number
    | word => rfl

theorem outcome_readColon (hc : c.bare = c'.bare) :
    outcome bare c.readColon = outcome bare c'.readColon := by
  rw [outcome_readColon_bare c, outcome_readColon_bare c', hc]

/-- The members of an object, given that a member does not look at places. -/
theorem outcome_foldMembers {σ : Type} {member : σ → String → Read σ}
    (hmember : ∀ s key, PlaceFree (member s key)) {fuel fuel' : List Lexeme}
    (hfuel : fuel.length = fuel'.length) (isFirst : Bool) (s : σ) (hc : c.bare = c'.bare) :
    outcome afterRead (foldMembers member fuel isFirst s c) =
      outcome afterRead (foldMembers member fuel' isFirst s c') := by
  induction fuel generalizing fuel' isFirst s c c' with
  | nil =>
    rw [List.eq_nil_of_length_eq_zero hfuel.symm]
    rfl
  | cons l fuel ih =>
    obtain ⟨l', fuel', rfl⟩ := List.exists_cons_of_length_eq_add_one hfuel.symm
    have hfuel : fuel.length = fuel'.length := Nat.succ.inj hfuel
    rw [foldMembers, foldMembers]
    rcases outcome_eq_cases (outcome_nextKey hc isFirst) with
      ⟨e, e', hx, hy⟩ | ⟨next, next', hx, hy, hnext⟩
    · simp only [hx, hy]; rfl
    simp only [hx, hy]
    cases next with
    | none =>
      cases next' with
      | none => exact congrArg some (Prod.ext rfl hc)
      | some d' => cases hnext
    | some d =>
      cases next' with
      | none => cases hnext
      | some d' =>
        dsimp only
        rcases outcome_eq_cases (placeFree_readKey (Option.some.inj hnext)) with
          ⟨e, e', hx, hy⟩ | ⟨⟨key, d⟩, ⟨key', d'⟩, hx, hy, hkey⟩
        · simp only [hx, hy]; rfl
        obtain ⟨rfl, hd⟩ := Prod.mk.inj hkey
        simp only [hx, hy]
        rcases outcome_eq_cases (hmember s key hd) with
          ⟨e, e', hx, hy⟩ | ⟨⟨s', d⟩, ⟨_, d'⟩, hx, hy, hs⟩
        · simp only [id, hx, hy]; rfl
        obtain ⟨rfl, hd⟩ := Prod.mk.inj hs
        simp only [id, hx, hy]
        exact ih hfuel false s' hd

theorem leaveObject_bare (hc : c.bare = c'.bare) {depth depth' : Nat} (h : depth = depth') :
    (c.leaveObject depth).bare = (c'.leaveObject depth').bare := by
  obtain ⟨hlexemes, -⟩ := bare_eq hc
  exact bare_mk (by rw [List.map_drop, List.map_drop, hlexemes]) h _ _

theorem outcome_readObject {σ α : Type} {member : σ → String → Read σ}
    (hmember : ∀ s key, PlaceFree (member s key)) (init : σ) (close : σ → Except Fault α)
    (l l' : Lexeme) (hc : c.bare = c'.bare) (hrest : rest.map Lexeme.bare = rest'.map Lexeme.bare) :
    outcome afterRead (readObject member init close c l rest) =
      outcome afterRead (readObject member init close c' l' rest') := by
  have hlength : (l :: rest).length = (l' :: rest').length := by
    simpa using congrArg List.length hrest
  rw [readObject, readObject]
  rcases outcome_eq_cases (outcome_enter l l' hc hrest) with
    ⟨e, e', hx, hy⟩ | ⟨inner, inner', hx, hy, hinner⟩
  · simp only [hx, hy]; rfl
  simp only [hx, hy, outcome_placed]
  rcases outcome_eq_cases (outcome_foldMembers hmember hlength true init hinner) with
    ⟨e, e', hx, hy⟩ | ⟨⟨s, d⟩, ⟨_, d'⟩, hx, hy, hs⟩
  · simp only [hx, hy]; rfl
  obtain ⟨rfl, hd⟩ := Prod.mk.inj hs
  simp only [id, hx, hy]
  cases close s with
  | error f => rfl
  | ok a => exact congrArg some (Prod.ext rfl (leaveObject_bare hd (bare_eq hc).2))

/-! ## Skipping -/

/-- Skipping looks at a lexeme for its token only, and at a broken one only for that it is. -/
theorem outcome_skipStep_bare (c c' : Cursor) (frames : List Frame) (expecting : Expecting)
    (l : Lexeme) :
    outcome id (c.skipStep frames expecting l) =
      outcome id (c'.skipStep frames expecting l.bare) := by
  obtain ⟨token, before, seen, after⟩ := l
  cases token with
  | string content skipped =>
    cases skipped with
    | ok | error => cases expecting <;> rcases frames with _ | ⟨_ | _, _⟩ <;> rfl
  | number value skipped =>
    cases skipped with
    | ok | error => cases expecting <;> rcases frames with _ | ⟨_ | _, _⟩ <;> rfl
  | word value =>
    cases value with
    | ok | error => cases expecting <;> rcases frames with _ | ⟨_ | _, _⟩ <;> rfl
  | closeObject | openObject | closeArray | openArray | comma | colon | stray =>
    cases expecting <;> rcases frames with _ | ⟨_ | _, _⟩ <;> rfl

theorem outcome_skip (hc : c.bare = c'.bare) {ls ls' : List Lexeme}
    (hls : ls.map Lexeme.bare = ls'.map Lexeme.bare) (frames : List Frame)
    (expecting : Expecting) :
    outcome bare (c.skip frames expecting ls) = outcome bare (c'.skip frames expecting ls') := by
  induction ls generalizing ls' frames expecting with
  | nil =>
    rw [List.map_eq_nil_iff.mp hls.symm]
    rfl
  | cons l ls ih =>
    obtain ⟨l', ls', rfl, hl, hls⟩ := List.map_eq_cons_iff.mp hls.symm
    have hstep : outcome id (c.skipStep frames expecting l) =
        outcome id (c'.skipStep frames expecting l') := by
      rw [outcome_skipStep_bare c c, outcome_skipStep_bare c' c, hl]
    rw [skip, skip]
    rcases outcome_eq_cases hstep with ⟨e, e', hx, hy⟩ | ⟨next, _, hx, hy, rfl⟩
    · simp only [hx, hy]; rfl
    simp only [id, hx, hy]
    cases next with
    | none => exact congrArg some (bare_mk hls.symm (bare_eq hc).2 _ _)
    | some next => exact ih hls.symm next.1 next.2

theorem outcome_skipValue (hc : c.bare = c'.bare) :
    outcome bare c.skipValue = outcome bare c'.skipValue :=
  outcome_skip hc (bare_eq hc).1 [] .value

end Cursor

/-! ## Decoders -/

namespace Decoder

variable {α β δ : Type}

/-- A decoder reads off a text what it reads off it without its places. -/
def PlaceFree (d : Decoder α) : Prop := Json.PlaceFree d.read

theorem PlaceFree.map {d : Decoder α} (h : d.PlaceFree) (f : α → β) : (d.map f).PlaceFree := by
  intro c c' hc
  rcases outcome_eq_cases (h hc) with ⟨e, e', hx, hy⟩ | ⟨⟨a, d⟩, ⟨_, d'⟩, hx, hy, ha⟩
  · simp only [Decoder.map, hx, hy]; rfl
  · obtain ⟨rfl, hd⟩ := Prod.mk.inj ha
    simp only [Decoder.map, hx, hy]
    exact congrArg some (Prod.ext rfl hd)

theorem outcome_verdict (x : Option (Except Cause α)) (m m' : Cause → Misread) (e e' : Misread)
    (c : Cursor) :
    outcome afterRead (match x with
      | some (.ok a) => .ok (a, c)
      | some (.error cause) => .error (m cause)
      | none => .error e) =
    outcome afterRead (match x with
      | some (.ok a) => .ok (a, c.bare)
      | some (.error cause) => .error (m' cause)
      | none => .error e') := by
  rcases x with _ | _ | a
  · rfl
  · rfl
  · exact (congrArg (fun c ↦ some (a, c)) (Cursor.bare_bare c)).symm

theorem placeFree_scalar (expected : String) (take : Json → Option (Except Cause α)) :
    (scalar expected take).PlaceFree := by
  refine placeFree_of_bare fun c ↦ ?_
  obtain ⟨_ | ⟨⟨token, before, seen, after⟩, rest⟩, finish, depth⟩ := c
  · rfl
  have hverdict (j : Json) (m m' : Cause → Misread) (e e' : Misread) :=
    outcome_verdict (take j) m m' e e' ⟨rest, finish, depth⟩
  cases token with
  | string content skipped =>
    cases content with
    | ok s => exact hverdict (.string s) _ _ _ _
    | error e => rfl
  | number value skipped =>
    cases value with
    | ok n => exact hverdict (.number n) _ _ _ _
    | error e => rfl
  | word value =>
    obtain _ | _ | b := value
    · rfl
    · exact hverdict .null _ _ _ _
    · exact hverdict (.boolean b) _ _ _ _
  | closeObject | openObject | closeArray | openArray | comma | colon | stray => rfl

theorem PlaceFree.optional {d : Decoder α} (h : d.PlaceFree) : (optional d).PlaceFree := by
  refine placeFree_of_bare fun c ↦ ?_
  have hsome := h.map some (Cursor.bare_bare c).symm
  obtain ⟨_ | ⟨⟨token, before, seen, after⟩, rest⟩, finish, depth⟩ := c
  · exact hsome
  · cases token with
    | word value =>
      obtain _ | _ | b := value
      · exact hsome
      · exact (congrArg (fun c ↦ some (none, c)) (Cursor.bare_bare ⟨rest, finish, depth⟩)).symm
      · exact hsome
    | string | number | closeObject | openObject | closeArray | openArray | comma | colon
    | stray => exact hsome

theorem PlaceFree.list {d : Decoder α} (h : d.PlaceFree) : (list d).PlaceFree := by
  refine placeFree_of_bare fun c ↦ ?_
  have hbare := Cursor.bare_bare c
  obtain ⟨_ | ⟨⟨token, before, seen, after⟩, rest⟩, finish, depth⟩ := c
  · rfl
  · have hrest : rest.map Lexeme.bare = (rest.map Lexeme.bare).map Lexeme.bare := by
      simp [Function.comp_def]
    cases token with
    | openArray => exact Cursor.outcome_readList h _ _ hbare.symm hrest
    | string | number | word | closeObject | openObject | closeArray | comma | colon
    | stray => rfl

namespace Record

variable (r : Record δ α)

/-- A record whose fields do not look at places. -/
def PlaceFree : Prop := ∀ f ∈ r.fields, f.value.PlaceFree

variable {r}

theorem PlaceFree.readMember (h : r.PlaceFree) (s : δ) (key : String) :
    Json.PlaceFree (r.readMember s key) := by
  refine fun c c' hc ↦ ?_
  simp only [Record.readMember]
  cases hfind : r.fields.find? (·.name = key) with
  | none =>
    rcases outcome_eq_cases (Cursor.outcome_readColon hc) with
      ⟨e, e', hx, hy⟩ | ⟨d, d', hx, hy, hd⟩
    · simp only [hx, hy]; rfl
    simp only [hx, hy]
    rcases outcome_eq_cases (Cursor.outcome_skipValue hd) with
      ⟨e, e', hx, hy⟩ | ⟨d, d', hx, hy, hd⟩
    · simp only [hx, hy]; rfl
    · simp only [hx, hy]
      exact congrArg some (Prod.ext rfl hd)
  | some f =>
    dsimp only
    split_ifs
    · rfl
    rcases outcome_eq_cases (Cursor.outcome_readColon hc) with
      ⟨e, e', hx, hy⟩ | ⟨d, d', hx, hy, hd⟩
    · simp only [hx, hy]; rfl
    simp only [hx, hy]
    have hvalue := h f (List.mem_of_find?_eq_some hfind) hd
    rw [← outcome_under (.key key) (f.value.read d),
      ← outcome_under (.key key) (f.value.read d')] at hvalue
    rcases outcome_eq_cases hvalue with ⟨e, e', hx, hy⟩ | ⟨⟨g, d⟩, ⟨_, d'⟩, hx, hy, hg⟩
    · simp only [hx, hy]; rfl
    · obtain ⟨rfl, hd⟩ := Prod.mk.inj hg
      simp only [hx, hy]
      exact congrArg some (Prod.ext rfl hd)

theorem PlaceFree.readFields (h : r.PlaceFree) {fs : List (Field δ)} (hfs : fs ⊆ r.fields)
    (index : Nat) (s : δ) : Json.PlaceFree (r.readFields index fs s) := by
  induction fs generalizing index s with
  | nil => exact fun c c' hc ↦ congrArg some (Prod.ext rfl hc)
  | cons f fs ih =>
    refine fun c c' hc ↦ ?_
    obtain ⟨hf, hfs⟩ := List.cons_subset.mp hfs
    simp only [Record.readFields]
    rcases outcome_eq_cases (Cursor.outcome_nextItem hc (index = 0)) with
      ⟨e, e', hx, hy⟩ | ⟨next, next', hx, hy, hnext⟩
    · simp only [hx, hy]; rfl
    simp only [hx, hy]
    cases next with
    | none =>
      cases next' with
      | none =>
        dsimp only
        split_ifs
        · rfl
        · exact ih hfs (index + 1) s hc
      | some d' => cases hnext
    | some d =>
      cases next' with
      | none => cases hnext
      | some d' =>
        have hvalue := h f hf (Option.some.inj hnext)
        rw [← outcome_under (.item index) (f.value.read d),
          ← outcome_under (.item index) (f.value.read d')] at hvalue
        rcases outcome_eq_cases hvalue with ⟨e, e', hx, hy⟩ | ⟨⟨g, d⟩, ⟨_, d'⟩, hx, hy, hg⟩
        · simp only [hx, hy]; rfl
        · obtain ⟨rfl, hd⟩ := Prod.mk.inj hg
          simp only [hx, hy]
          exact ih hfs (index + 1) (g s) hd

theorem PlaceFree.readList (h : r.PlaceFree) {c c' : Cursor} {rest rest' : List Lexeme}
    (l l' : Lexeme) (hc : c.bare = c'.bare)
    (hrest : rest.map Lexeme.bare = rest'.map Lexeme.bare) :
    outcome afterRead (r.readList c l rest) = outcome afterRead (r.readList c' l' rest') := by
  rw [Record.readList, Record.readList]
  rcases outcome_eq_cases (Cursor.outcome_enter l l' hc hrest) with
    ⟨e, e', hx, hy⟩ | ⟨inner, inner', hx, hy, hinner⟩
  · simp only [hx, hy]; rfl
  simp only [hx, hy, outcome_placed]
  rcases outcome_eq_cases (h.readFields (List.Subset.refl _) 0 r.draft hinner) with
    ⟨e, e', hx, hy⟩ | ⟨⟨s, d⟩, ⟨_, d'⟩, hx, hy, hs⟩
  · simp only [hx, hy]; rfl
  obtain ⟨rfl, hd⟩ := Prod.mk.inj hs
  simp only [id, hx, hy]
  rcases outcome_eq_cases (Cursor.outcome_leaveList hd (Cursor.bare_eq hc).2) with
    ⟨e, e', hx, hy⟩ | ⟨outer, outer', hx, hy, houter⟩
  · simp only [hx, hy]; rfl
  simp only [hx, hy]
  cases r.close s with
  | error f => rfl
  | ok a => exact congrArg some (Prod.ext rfl houter)

theorem PlaceFree.decoder (h : r.PlaceFree) : r.decoder.PlaceFree := by
  refine placeFree_of_bare fun c ↦ ?_
  have hbare := Cursor.bare_bare c
  obtain ⟨_ | ⟨⟨token, before, seen, after⟩, rest⟩, finish, depth⟩ := c
  · rfl
  · have hrest : rest.map Lexeme.bare = (rest.map Lexeme.bare).map Lexeme.bare := by
      simp [Function.comp_def]
    cases token with
    | openArray => exact h.readList _ _ hbare.symm hrest
    | openObject => exact Cursor.outcome_readObject h.readMember _ _ _ _ hbare.symm hrest
    | string | number | word | closeObject | closeArray | comma | colon | stray => rfl

end Record

/-- **Reading a cut text, places apart.** Cuts that differ in places only read as the same value, or
neither can be read. -/
theorem PlaceFree.run {d : Decoder α} (h : d.PlaceFree) {cut cut' : Cut}
    (hcut : cut.lexemes.map Lexeme.bare = cut'.lexemes.map Lexeme.bare) :
    (d.run cut).toOption = (d.run cut').toOption := by
  have hc : (Cursor.ofCut cut).bare = (Cursor.ofCut cut').bare :=
    Cursor.bare_mk hcut rfl _ _
  rw [Decoder.run, Decoder.run]
  rcases outcome_eq_cases (h hc) with ⟨e, e', hx, hy⟩ | ⟨⟨a, d⟩, ⟨_, d'⟩, hx, hy, ha⟩
  · simp only [hx, hy]; rfl
  obtain ⟨rfl, hd⟩ := Prod.mk.inj ha
  simp only [id, hx, hy]
  obtain ⟨hlexemes, -⟩ := Cursor.bare_eq hd
  cases hl : d.lexemes with
  | nil =>
    rw [hl, List.map_nil] at hlexemes
    rw [List.map_eq_nil_iff.mp hlexemes.symm]
  | cons l rest =>
    rw [hl, List.map_cons] at hlexemes
    obtain ⟨l', rest', hl', -⟩ := List.map_eq_cons_iff.mp hlexemes.symm
    rw [hl']
    rfl

end Decoder

end Redirector.Json
