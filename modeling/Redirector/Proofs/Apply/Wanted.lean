import Redirector.Apply
import Redirector.Proofs.Profile.Store

/-!
# What the store asks for

An apply reads the switch, the list and the documents of the active profiles, and the other switch,
in that order. Reading the list may write it (`Profiles.withList`), and that is harmless: the
entries before, after and between the calls of an apply all ask for the same (`wanted_along`).
-/

namespace Redirector.Apply

open Store (Program Entries)
open Store.Program (ReadsOnly Along)
open Profiles (withList)

/-- What entries ask for. -/
def asked (es : Entries) : Except Store.Fault (Option Wanted) := (wanted.run Store.memory es).1

/-- What is read once the list is known. -/
def readFrom (ps : List Profile) : Program (Option Wanted) := do
  let documents ← Profiles.documentsOf (ps.filter Profile.active)
  return some ⟨readable documents, ← Profiles.headersEnabled⟩

theorem readsOnly_isEnabled : Profiles.isEnabled.ReadsOnly Profiles.Beside :=
  Profiles.readsOnly_switch Profiles.beside_enabledKey

theorem readsOnly_headersEnabled : Profiles.headersEnabled.ReadsOnly Profiles.Beside :=
  Profiles.readsOnly_switch Profiles.beside_headersKey

theorem readsOnly_readFrom (ps : List Profile) : (readFrom ps).ReadsOnly Profiles.Beside :=
  (Profiles.readsOnly_documentsOf _).bind fun _ ↦
    readsOnly_headersEnabled.bind fun _ ↦ trivial

private def readProfiles : Bool → Program (Option Wanted)
  | true => do readFrom (← Profiles.list)
  | false => return none

private theorem wanted_eq : wanted = Profiles.isEnabled >>= readProfiles := by
  refine congrArg (Profiles.isEnabled >>= ·) (funext fun on ↦ ?_)
  cases on with
  | true => exact Program.bind_assoc _ _ _
  | false => rfl

theorem wanted_run (es : Entries) :
    wanted.run Store.memory es =
      match (Profiles.isEnabled.run Store.memory es).1 with
      | .error e => (.error e, es)
      | .ok false => (.ok none, es)
      | .ok true =>
        match Profiles.list.run Store.memory es with
        | (.ok ps, es') => (readFrom ps).run Store.memory es'
        | (.error e, es') => (.error e, es') := by
  rw [wanted_eq, readsOnly_isEnabled.run_bind]
  rcases (Profiles.isEnabled.run Store.memory es).1 with e | on
  · rfl
  · cases on with
    | true =>
      change (Profiles.list >>= readFrom).run Store.memory es = _
      rw [Program.run_bind_apply]
      rcases Profiles.list.run Store.memory es with ⟨e | ps, es'⟩
      · rfl
      · rfl
    | false => rfl

/-- A list that was written while reading asks for nothing new. -/
theorem asked_withList (es : Entries) : asked (withList es) = asked es := by
  rw [asked, asked, wanted_run, wanted_run, Profiles.run_withList readsOnly_isEnabled,
    Profiles.list_run_again]
  rcases (Profiles.isEnabled.run Store.memory es).1 with e | on
  · rfl
  · cases on with
    | true => rfl
    | false => rfl

/-- What is left behind is what was found, or that with the list that was written while reading. -/
theorem wanted_run_entries (es : Entries) :
    (wanted.run Store.memory es).2 = es ∨ (wanted.run Store.memory es).2 = withList es ∧
      (Profiles.isEnabled.run Store.memory es).1 = .ok true := by
  rw [wanted_run]
  rcases henabled : (Profiles.isEnabled.run Store.memory es).1 with e | _ | _
  · exact Or.inl rfl
  · exact Or.inl rfl
  · refine Or.inr ⟨?_, rfl⟩
    rw [withList]
    rcases Profiles.list.run Store.memory es with ⟨e | ps, es'⟩
    · rfl
    · exact (readsOnly_readFrom ps).run_entries es'

/-- **Reading once more** finds the same and leaves the same behind. -/
theorem wanted_run_again (es : Entries) :
    wanted.run Store.memory (wanted.run Store.memory es).2 = wanted.run Store.memory es := by
  rcases wanted_run_entries es with hes | ⟨hes, henabled⟩
  · rw [hes]
  · rw [hes, wanted_run, wanted_run, Profiles.run_withList readsOnly_isEnabled, henabled,
      Profiles.list_run_again]

theorem readFrom_run (ps : List Profile) (es : Entries) :
    ((readFrom ps).run Store.memory es).1 =
      match ((Profiles.documentsOf (ps.filter Profile.active)).run Store.memory es).1,
        (Profiles.headersEnabled.run Store.memory es).1 with
      | .ok documents, .ok headers => .ok (some ⟨readable documents, headers⟩)
      | .ok _, .error e => .error e
      | .error e, _ => .error e := by
  rw [readFrom, (Profiles.readsOnly_documentsOf _).run_bind]
  rcases ((Profiles.documentsOf (ps.filter Profile.active)).run Store.memory es).1
    with e | documents
  · rfl
  · dsimp only
    rw [readsOnly_headersEnabled.run_bind]
    rcases (Profiles.headersEnabled.run Store.memory es).1 with e | headers
    · rfl
    · rfl

/-- **What entries ask for**, with nothing written on the way. -/
theorem asked_eq (es : Entries) :
    asked es =
      match (Profiles.isEnabled.run Store.memory es).1 with
      | .error e => .error e
      | .ok false => .ok none
      | .ok true =>
        match (Profiles.list.run Store.memory es).1 with
        | .error e => .error e
        | .ok ps => ((readFrom ps).run Store.memory es).1 := by
  rw [asked, wanted_run]
  rcases (Profiles.isEnabled.run Store.memory es).1 with e | on
  · rfl
  · cases on with
    | false => rfl
    | true =>
      have hagree : ∀ ps, ((readFrom ps).run Store.memory (withList es)).1
          = ((readFrom ps).run Store.memory es).1 := fun ps ↦
        Profiles.run_withList (readsOnly_readFrom ps) es
      rw [withList] at hagree
      rcases hlist : Profiles.list.run Store.memory es with ⟨e | ps, es'⟩
      · rfl
      · rw [hlist] at hagree
        exact hagree ps

theorem exists_asked {es : Entries} (h : Profiles.Decodable es) : ∃ w, asked es = .ok w := by
  obtain ⟨ps, hps⟩ := h.exists_listing
  choose saved hsaved using h.exists_document?
  have hdocuments : ((Profiles.documentsOf (ps.filter Profile.active)).run Store.memory es).1 = _ :=
    Profiles.documentsOf_run_saved fun p _ ↦ hsaved p.id
  rw [Profiles.listing] at hps
  rw [asked_eq, hps]
  dsimp only
  rw [readFrom_run, hdocuments, Profiles.isEnabled, Profiles.headersEnabled, Profiles.switch_run,
    Profiles.switch_run]
  cases ((Sorted.get? Profiles.enabledKey es).bind Json.boolean?).getD true with
  | false => exact ⟨_, rfl⟩
  | true => exact ⟨_, rfl⟩

theorem asked_eq_ok {es : Entries} {w : Option Wanted} (h : asked es = .ok w) :
    (Profiles.isEnabled.run Store.memory es).1 = .ok false ∧ w = none ∨
      ∃ ps documents headers,
        (Profiles.isEnabled.run Store.memory es).1 = .ok true ∧
        (Profiles.list.run Store.memory es).1 = .ok ps ∧
        ((Profiles.documentsOf (ps.filter Profile.active)).run Store.memory es).1
          = .ok documents ∧
        (Profiles.headersEnabled.run Store.memory es).1 = .ok headers ∧
        w = some ⟨readable documents, headers⟩ := by
  rw [asked_eq] at h
  rcases henabled : (Profiles.isEnabled.run Store.memory es).1 with e | _ | _
  · rw [henabled] at h
    cases h
  · rw [henabled] at h
    cases h
    exact Or.inl ⟨rfl, rfl⟩
  · rw [henabled] at h
    rcases hlist : (Profiles.list.run Store.memory es).1 with e | ps
    · rw [hlist] at h
      cases h
    · rw [hlist] at h
      dsimp only at h
      rw [readFrom_run] at h
      rcases hdocuments : ((Profiles.documentsOf (ps.filter Profile.active)).run
        Store.memory es).1 with e | documents
      · rw [hdocuments] at h
        cases h
      · rw [hdocuments] at h
        rcases hheaders : (Profiles.headersEnabled.run Store.memory es).1 with e | headers
        · rw [hheaders] at h
          cases h
        · rw [hheaders] at h
          cases h
          exact Or.inr ⟨ps, documents, headers, rfl, rfl, hdocuments, rfl, rfl⟩

/-- **Reading does not change what is read.** -/
theorem wanted_along (es : Entries) : wanted.Along (fun es' ↦ asked es' = asked es) es := by
  rw [wanted_eq]
  have hfirst : Profiles.isEnabled.Along (fun es' ↦ asked es' = asked es) es :=
    readsOnly_isEnabled.along rfl
  refine hfirst.bind fun on es₁ hrun ↦ ?_
  obtain rfl : es = es₁ := by
    rw [← readsOnly_isEnabled.run_entries es, hrun]
  cases on with
  | false => exact rfl
  | true =>
    have hlisting : Profiles.list.Along (fun es' ↦ asked es' = asked es) es :=
      Profiles.list_along rfl (asked_withList es)
    refine hlisting.bind fun ps es₂ hlist ↦ ?_
    obtain rfl : withList es = es₂ := by rw [withList, hlist]
    exact (readsOnly_readFrom ps).along (asked_withList es)

end Redirector.Apply
