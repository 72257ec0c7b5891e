import Redirector.Proofs.Apply.Pipeline
import Redirector.Proofs.Apply.Wanted
import Redirector.Proofs.Rule.Compile
import Redirector.Regex.Automaton

/-!
# What an apply of the store means

The rules that are installed after a success can be read off the entries directly (`Means`): the
documents of the active profiles are read and their entries concatenated, duplicates and incomplete
entries are dropped, and what is left is numbered. Nothing else has any influence, neither what was
installed before nor what is remembered (`store_means`).

A document that cannot be read stands for no entries. It could as well be empty, which is shown for
each document by itself: what an apply is asked for depends on the documents only through the
concatenation of their entries (`Forwarding.concat`), and an empty one adds nothing to that.
-/

namespace Redirector

namespace Forwarding

/-- All entries of some configurations, one after the other. -/
def concat (fs : List Forwarding) : Forwarding := ⟨fs.flatMap redirects, fs.flatMap domains⟩

theorem union_eq_of_concat {fs gs : List Forwarding} (h : concat fs = concat gs) :
    union fs = union gs := by
  obtain ⟨hredirects, hdomains⟩ := Forwarding.mk.inj h
  rw [union, union, hredirects, hdomains]

end Forwarding

namespace Apply

open Store (Program Entries)
open Profiles (documentKey)

/-! ## The rules that entries mean -/

/-- **The rules that entries mean.** -/
inductive Means (es : Entries) : List Rule → Prop
  | off (henabled : (Profiles.isEnabled.run Store.memory es).1 = .ok false) : Means es []
  | on {ps : List Profile} {saved : String → Option String} {headers : Bool}
    {fs : List Forwarding}
    (henabled : (Profiles.isEnabled.run Store.memory es).1 = .ok true)
    (hlist : (Profiles.list.run Store.memory es).1 = .ok ps)
    (hsaved : ∀ p ∈ ps, p.active = true →
      ((Profiles.document? p.id).run Store.memory es).1 = .ok (saved p.id))
    (hheaders : (Profiles.headersEnabled.run Store.memory es).1 = .ok headers)
    -- A document that was never saved is the template, and one that cannot be read is dropped.
    (hfs : fs = (ps.filter Profile.active).filterMap fun p ↦
      (Document.parse ((saved p.id).getD Document.template)).toOption) :
    Means es
      (Rule.numbered Rule.forRedirect 1
          (((fs.flatMap Forwarding.redirects).eraseDups.filter Rule.isComplete).take 999) ++
        if headers then
          Rule.numbered Rule.forDomain 1000
            ((fs.flatMap Forwarding.domains).eraseDups.filter (· ≠ ""))
        else [])

theorem documentsOf_eq_ok {ps : List Profile} {es : Entries} {documents : List (Profile × String)}
    (h : ((Profiles.documentsOf ps).run Store.memory es).1 = .ok documents) :
    ∃ saved : String → Option String,
      (∀ p ∈ ps, ((Profiles.document? p.id).run Store.memory es).1 = .ok (saved p.id)) ∧
      documents = ps.map fun p ↦ (p, (saved p.id).getD Document.template) := by
  -- What is saved is a matter of the entries alone, so that all profiles agree on it.
  let saved : String → Option String := fun id ↦
    (((Profiles.document? id).run Store.memory es).1.toOption).join
  refine ⟨saved, ?_⟩
  induction ps generalizing documents with
  | nil =>
    cases h
    exact ⟨fun p hp ↦ absurd hp List.not_mem_nil, rfl⟩
  | cons p ps ih =>
    rw [Profiles.documentsOf_cons_run, Profiles.document_run] at h
    cases hdocument : ((Profiles.document? p.id).run Store.memory es).1 with
    | error e =>
      rw [hdocument] at h
      cases h
    | ok text =>
      have hsaved : saved p.id = text := by
        simp only [saved, hdocument]
        rfl
      rw [hdocument] at h
      cases hrest : ((Profiles.documentsOf ps).run Store.memory es).1 with
      | error e =>
        rw [hrest] at h
        cases h
      | ok rest =>
        rw [hrest] at h
        cases h
        obtain ⟨hall, rfl⟩ := ih hrest
        refine ⟨List.forall_mem_cons.mpr ⟨by rw [hdocument, hsaved], hall⟩, ?_⟩
        rw [List.map_cons, hsaved]

private theorem rules_ofWanted_readable (ps : List Profile) (text : String → String)
    (headers : Bool) :
    (Request.ofWanted (some ⟨readable (ps.map fun p ↦ (p, text p.id)), headers⟩)).rules
      = Forwarding.compileAll (ps.filterMap fun p ↦ (Document.parse (text p.id)).toOption)
          headers := by
  rw [Request.ofWanted, Wanted.rules, readable, List.filterMap_map]
  rfl

/-- **What entries ask for is what they mean.** -/
theorem means_iff_asked {es : Entries} {rules : List Rule} :
    Means es rules ↔ ∃ w, asked es = .ok w ∧ (Request.ofWanted w).rules = rules := by
  constructor
  · intro h
    cases h with
    | off henabled =>
      refine ⟨none, ?_, rfl⟩
      rw [asked_eq, henabled]
    | @on ps saved headers fs henabled hlist hsaved hheaders hfs =>
      have hactive : ∀ p ∈ ps.filter Profile.active,
          ((Profiles.document? p.id).run Store.memory es).1 = .ok (saved p.id) :=
        fun p hp ↦ hsaved p (List.mem_filter.mp hp).1 (List.mem_filter.mp hp).2
      have hasked : asked es = .ok (some ⟨readable ((ps.filter Profile.active).map fun p ↦
          (p, (saved p.id).getD Document.template)), headers⟩) := by
        rw [asked_eq, henabled, hlist]
        dsimp only
        rw [readFrom_run, Profiles.documentsOf_run_saved hactive, hheaders]
      refine ⟨_, hasked, ?_⟩
      rw [rules_ofWanted_readable _ (fun id ↦ (saved id).getD Document.template),
        Forwarding.compileAll_eq, hfs]
  · rintro ⟨w, hasked, rfl⟩
    rcases asked_eq_ok hasked with ⟨henabled, rfl⟩ |
      ⟨ps, documents, headers, henabled, hlist, hdocuments, hheaders, rfl⟩
    · exact .off henabled
    · obtain ⟨saved, hsaved, rfl⟩ := documentsOf_eq_ok hdocuments
      have hactive : ∀ p ∈ ps, p.active = true →
          ((Profiles.document? p.id).run Store.memory es).1 = .ok (saved p.id) :=
        fun p hp hactive ↦ hsaved p (List.mem_filter.mpr ⟨hp, hactive⟩)
      rw [rules_ofWanted_readable _ (fun id ↦ (saved id).getD Document.template),
        Forwarding.compileAll_eq]
      exact .on henabled hlist hactive hheaders rfl

/-! ## Documents that cannot be read -/

/-- The entries that a document stands for. -/
def contribution (text : String) : Forwarding := (Document.parse text).toOption.getD .empty

private theorem concat_readable_cons (p : Profile) (text : String)
    (documents : List (Profile × String)) :
    Forwarding.concat (readable ((p, text) :: documents))
      = ⟨(contribution text).redirects ++ (Forwarding.concat (readable documents)).redirects,
          (contribution text).domains ++ (Forwarding.concat (readable documents)).domains⟩ := by
  rw [contribution]
  cases hparse : (Document.parse text).toOption with
  | none =>
    have hdropped : readable ((p, text) :: documents) = readable documents :=
      List.filterMap_cons_none hparse
    rw [hdropped]
    rfl
  | some f =>
    have hkept : readable ((p, text) :: documents) = f :: readable documents :=
      List.filterMap_cons_some hparse
    rw [hkept]
    rfl

theorem concat_documentsOf_cons (p : Profile) (ps : List Profile) (es : Entries) :
    ((Profiles.documentsOf (p :: ps)).run Store.memory es).1.map (Forwarding.concat ∘ readable) =
      match ((Profiles.document p.id).run Store.memory es).1.map contribution with
      | .error e => .error e
      | .ok f =>
        (((Profiles.documentsOf ps).run Store.memory es).1.map (Forwarding.concat ∘ readable)).map
          fun g ↦ ⟨f.redirects ++ g.redirects, f.domains ++ g.domains⟩ := by
  rw [Profiles.documentsOf_cons_run]
  rcases ((Profiles.document p.id).run Store.memory es).1 with e | text
  · rfl
  · rcases ((Profiles.documentsOf ps).run Store.memory es).1 with e | documents
    · rfl
    · exact congrArg Except.ok (concat_readable_cons p text documents)

section

variable {es es' : Entries}

/-- The entries of the documents of some profiles. -/
def gather (ps : List Profile) (es : Entries) : Except Store.Fault Forwarding :=
  ((Profiles.documentsOf ps).run Store.memory es).1.map (Forwarding.concat ∘ readable)

/-- A document may be exchanged for one with the same entries, and a profile for another one. -/
theorem gather_congr {ps qs : List Profile}
    (h : List.Forall₂ (fun p q ↦ ((Profiles.document p.id).run Store.memory es).1.map contribution
      = ((Profiles.document q.id).run Store.memory es').1.map contribution) ps qs) :
    gather ps es = gather qs es' := by
  induction h with
  | nil => rfl
  | @cons p q ps qs hpq _ ih =>
    rw [gather, gather] at ih
    rw [gather, gather, concat_documentsOf_cons, concat_documentsOf_cons, hpq, ih]

private theorem cases_of_map_eq {φ α β : Type} {f : α → β} {x y : Except φ α}
    (h : x.map f = y.map f) :
    (∃ e, x = .error e ∧ y = .error e) ∨ ∃ a b, x = .ok a ∧ y = .ok b ∧ f a = f b := by
  rcases x with e | a
  · rcases y with e' | b
    · cases h
      exact Or.inl ⟨e, rfl, rfl⟩
    · cases h
  · rcases y with e' | b
    · cases h
    · exact Or.inr ⟨a, b, rfl, rfl, Except.ok.inj h⟩

private theorem ofWanted_some {fs gs : List Forwarding} (headers : Bool)
    (h : Forwarding.concat fs = Forwarding.concat gs) :
    Request.ofWanted (some ⟨fs, headers⟩) = Request.ofWanted (some ⟨gs, headers⟩) := by
  simp only [Request.ofWanted, Wanted.rules, Wanted.skips, Forwarding.compileAll,
    Forwarding.skippedBy, Forwarding.union_eq_of_concat h]

private theorem ofWanted_readFrom (ps : List Profile) (es : Entries) :
    ((readFrom ps).run Store.memory es).1.map Request.ofWanted =
      (gather (ps.filter Profile.active) es).bind fun g ↦
        (Profiles.headersEnabled.run Store.memory es).1.map fun headers ↦
          Request.ofWanted (some ⟨[g], headers⟩) := by
  rw [readFrom_run, gather]
  rcases ((Profiles.documentsOf (ps.filter Profile.active)).run Store.memory es).1
    with e | documents
  · rfl
  · rcases (Profiles.headersEnabled.run Store.memory es).1 with e | headers
    · rfl
    · have hconcat : ∀ fs, Forwarding.concat fs = Forwarding.concat [Forwarding.concat fs] := by
        intro fs
        simp only [Forwarding.concat, List.flatMap_singleton]
      exact congrArg Except.ok (ofWanted_some headers (hconcat _))

private theorem ofWanted_asked_eq (es : Entries) :
    (asked es).map Request.ofWanted =
      (Profiles.isEnabled.run Store.memory es).1.bind fun on ↦
        if on then
          ((Profiles.list.run Store.memory es).1.bind fun ps ↦
              gather (ps.filter Profile.active) es).bind fun g ↦
            (Profiles.headersEnabled.run Store.memory es).1.map fun headers ↦
              Request.ofWanted (some ⟨[g], headers⟩)
        else .ok (Request.ofWanted none) := by
  rw [asked_eq]
  rcases (Profiles.isEnabled.run Store.memory es).1 with e | _ | _
  · rfl
  · rfl
  · rcases (Profiles.list.run Store.memory es).1 with e | ps
    · rfl
    · exact ofWanted_readFrom ps es

/-- What is asked for depends on the list and the documents only through the entries of the active
profiles. -/
theorem ofWanted_asked_of_gather
    (hswitches : ∀ key ∈ [Profiles.enabledKey, Profiles.headersKey],
      Sorted.get? key es = Sorted.get? key es')
    (hgather : ((Profiles.list.run Store.memory es).1.bind fun ps ↦
        gather (ps.filter Profile.active) es)
      = (Profiles.list.run Store.memory es').1.bind fun ps ↦
        gather (ps.filter Profile.active) es') :
    (asked es).map Request.ofWanted = (asked es').map Request.ofWanted := by
  have henabled : (Profiles.isEnabled.run Store.memory es).1
      = (Profiles.isEnabled.run Store.memory es').1 := by
    rw [Profiles.isEnabled, Profiles.switch_run, Profiles.switch_run, hswitches _ (by simp)]
  have hheaders : (Profiles.headersEnabled.run Store.memory es).1
      = (Profiles.headersEnabled.run Store.memory es').1 := by
    rw [Profiles.headersEnabled, Profiles.switch_run, Profiles.switch_run, hswitches _ (by simp)]
  rw [ofWanted_asked_eq, ofWanted_asked_eq, henabled, hheaders, hgather]

/-- What is asked for depends on the documents only through their entries. -/
theorem ofWanted_asked
    (hdocument : ∀ id, ((Profiles.document id).run Store.memory es).1.map contribution
      = ((Profiles.document id).run Store.memory es').1.map contribution)
    (hkeys : ∀ key ∈ [Profiles.enabledKey, Profiles.headersKey, Profiles.listKey],
      Sorted.get? key es = Sorted.get? key es') :
    (asked es).map Request.ofWanted = (asked es').map Request.ofWanted := by
  have hswitches : ∀ key ∈ [Profiles.enabledKey, Profiles.headersKey],
      Sorted.get? key es = Sorted.get? key es' := fun key hkey ↦
    hkeys key (List.mem_append_left [Profiles.listKey] hkey)
  have hgather : ∀ ps, gather ps es = gather ps es' := fun ps ↦
    gather_congr (List.forall₂_same.mpr fun p _ ↦ hdocument p.id)
  refine ofWanted_asked_of_gather hswitches ?_
  rw [Profiles.list_run_congr (hkeys Profiles.listKey (by simp))]
  simp only [hgather]

end

/-- The entries with an empty document under an identifier. -/
def withEmptyDocument (id : String) (es : Entries) : Entries :=
  Sorted.insert (documentKey id) (Profile.documentToJson "\x7b\x7d") es

private theorem contribution_empty : contribution "\x7b\x7d" = .empty := rfl

/-- **A document that cannot be read might as well be empty.** -/
theorem ofWanted_asked_withEmptyDocument {id text : String} {es : Entries}
    (hstored : ((Profiles.document id).run Store.memory es).1 = .ok text)
    (hparse : (Document.parse text).toOption = none) :
    (asked (withEmptyDocument id es)).map Request.ofWanted = (asked es).map Request.ofWanted := by
  refine ofWanted_asked (fun j ↦ ?_) fun key hkey ↦ ?_
  · by_cases heq : j = id
    · subst heq
      have hempty : ((Profiles.document j).run Store.memory (withEmptyDocument j es)).1
          = .ok "\x7b\x7d" := by
        refine Profiles.document_run_stored ?_
        rw [withEmptyDocument, Store.get?_insert, if_pos rfl]
      have hnothing : contribution text = .empty := by
        rw [contribution, hparse]
        rfl
      rw [hempty, hstored, Except.map, Except.map, hnothing, contribution_empty]
    · congr 1
      refine Profiles.document_run_congr ?_
      rw [withEmptyDocument, Store.get?_insert,
        if_neg fun hkeys ↦ heq (Profiles.documentKey_injective hkeys).symm]
  · have hne : documentKey id ≠ key := by
      refine Profiles.documentKey_ne ?_ id
      revert key
      decide
    rw [withEmptyDocument, Store.get?_insert, if_neg hne]

/-! ## Success -/

/-- The outcome depends on the entries only through what is asked for. -/
theorem conclude_congr {m : Type → Type} [Monad m] (engine : Engine m) (r : Record)
    {x y : Except Store.Fault (Option Wanted)}
    (h : x.map Request.ofWanted = y.map Request.ofWanted) :
    conclude engine x r = conclude engine y r := by
  rcases cases_of_map_eq h with ⟨e, rfl, rfl⟩ | ⟨w, w', rfl, rfl, hrequest⟩
  · rfl
  · rw [conclude, conclude, hrequest]

variable {check : Regex.Check}

theorem ascending_ofWanted {w : Option Wanted}
    (h : Rule.Installable check (Request.ofWanted w).rules) :
    Rule.Ascending (Request.ofWanted w).rules := by
  cases w with
  | none => exact List.Pairwise.nil
  | some w =>
    exact Forwarding.ascending_compileAll fun x hx ↦ Rule.id_ne_zero_of_valid (h.valid x hx)

/-- **The meaning of an apply.** It is a success exactly if the entries mean rules that an empty
table takes, and then just these are installed, in their order; neither what was installed nor what
is remembered matters to that. A document that cannot be read might as well be empty: what happens
is the same to the last detail. -/
theorem store_means (check : Regex.Check) (installed : List Rule) (es : Entries) (r : Record) :
    (∀ t', (∃ report r' es',
        store ((Engine.memory check).lift onFirst.map) (Store.memory.lift onSecond.map) r
          (.ofRules installed, es) = ((.ok report, r'), (t', es'))) ↔
      ∃ rules, Means es rules ∧ Rule.Installable check rules ∧ t' = .ofRules rules ∧
        t'.rules = rules) ∧
    ∀ id text, ((Profiles.document id).run Store.memory es).1 = .ok text →
      (Document.parse text).toOption = none →
        let out := store ((Engine.memory check).lift onFirst.map)
          (Store.memory.lift onSecond.map) r (.ofRules installed, es)
        let out' := store ((Engine.memory check).lift onFirst.map)
          (Store.memory.lift onSecond.map) r (.ofRules installed, withEmptyDocument id es)
        out'.1 = out.1 ∧ out'.2.1 = out.2.1 := by
  constructor
  · intro t'
    have hconclude := @conclude_memory_eq_ok_iff check (.ofRules installed) t'
      (RuleTable.wellFormed_ofRules installed) (asked es) r
    constructor
    · rintro ⟨report, r', es', h⟩
      rw [store_apply] at h
      obtain ⟨hout, hrest⟩ := Prod.mk.inj h
      obtain ⟨w, hasked, hinstallable, rfl⟩ :=
        hconclude.mp ⟨report, r', Prod.ext hout (Prod.mk.inj hrest).1⟩
      exact ⟨_, means_iff_asked.mpr ⟨w, hasked, rfl⟩, hinstallable, rfl,
        RuleTable.rules_ofRules_of_ascending (ascending_ofWanted hinstallable)⟩
    · rintro ⟨rules, hmeans, hinstallable, htable, -⟩
      obtain ⟨w, hasked, rfl⟩ := means_iff_asked.mp hmeans
      obtain ⟨report, r', hout⟩ := hconclude.mpr ⟨w, hasked, hinstallable, htable⟩
      refine ⟨report, r', (wanted.run Store.memory es).2, ?_⟩
      rw [asked] at hout
      rw [store_apply, hout]
  · intro id text hstored hparse
    have hsame :=
      conclude_congr (Engine.memory check) r (ofWanted_asked_withEmptyDocument hstored hparse)
    rw [store_apply, store_apply]
    exact ⟨congrArg (fun k ↦ (k (.ofRules installed)).1) hsame,
      congrArg (fun k ↦ (k (.ofRules installed)).2) hsame⟩

/-- A document that can be read, and one that cannot. -/
def twoDocuments : Entries :=
  [(documentKey Profile.defaultId,
      Profile.documentToJson "\x7b\"proxy\": [[\"a\", \"b\"]], \"cors\": [\"c\"]\x7d"),
    (documentKey "1", Profile.documentToJson "\x7b"),
    (Profiles.listKey, Profile.listToJson [Profile.default, ⟨"1", "Other", true⟩])]

/-- The two rules of the first document take the place of another one. -/
theorem store_means_twoDocuments :
    let out := store ((Engine.memory Regex.check).lift onFirst.map)
      (Store.memory.lift onSecond.map) .initial (.ofRules [pageRule 7], twoDocuments)
    out.1.1 = .ok ⟨1, 1, 1⟩ ∧ (∃ rules, Means twoDocuments rules ∧ out.2.1.rules = rules) ∧
      (store ((Engine.memory Regex.check).lift onFirst.map)
        (Store.memory.lift onSecond.map) .initial
        (.ofRules [pageRule 7], withEmptyDocument "1" twoDocuments)).1.1 = .ok ⟨1, 1, 1⟩ := by
  intro out
  have hok : out.1.1 = .ok ⟨1, 1, 1⟩ := by decide +kernel
  have hmeans := store_means Regex.check [pageRule 7] twoDocuments .initial
  obtain ⟨rules, hrules, -, -, htable⟩ :=
    (hmeans.1 out.2.1).mp ⟨_, _, _, Prod.ext (Prod.ext hok rfl) rfl⟩
  have hsame := hmeans.2 "1" "\x7b" (by decide +kernel) (by decide +kernel)
  exact ⟨hok, ⟨rules, hrules, htable⟩, (congrArg Prod.fst hsame.1).trans hok⟩

end Apply

end Redirector
