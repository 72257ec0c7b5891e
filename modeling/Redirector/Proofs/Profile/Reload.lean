import Redirector.Proofs.Profile.Mirror
import Redirector.Proofs.Store.Amid

/-!
# Operations during which the file is read again

The operations on profiles wait for one another, but who reads the store file again does not wait
for them. So others may change the file in the middle of an operation, and its remaining calls are
made on entries that it knows nothing of. In a file and in memory this comes to the same: the
entries that are read take the place of those that are held (`runAmid_file`).

Collecting garbage shows what can go wrong. It first reads the list and then takes out the documents
of profiles that are not there, one by one. If the new list has a profile that the old one did not
have, then its document is gone (`serialized_not_always`). An operation is safe if it is done in one
piece, before the file is read again or after it, as far as its calls can tell
(`Operation.serialized_of_undivided`); and documents are safe as long as no profile is new
(`collectGarbage_spares`).
-/

namespace Redirector

open Files (Path Tree)
open Store (Call Program Entries)

namespace Store

/-! ## Reading the file again -/

/-- Others write the file, and it is read again. -/
def overwrite (path : Path) (content : ByteArray) : StateT Entries (StateM Tree) Unit := do
  let _ ← StateT.lift (Tree.system.replace path content)
  let _ ← reload Tree.system path

section

variable {path : Path} {t : Tree}

/-- The entries that are read, if any can be, take the place of those that are held. -/
theorem overwrite_of_free (h : t.Free path) (content : ByteArray) (es : Entries) :
    ∃ t', overwrite path content es t =
      (((), (Entries.decode content).toOption.getD es), t') ∧ t'.Free path := by
  obtain ⟨t', hreplace, hfree⟩ := h.replace content
  have hload := load_of_read (Tree.read_of_replace hreplace)
  have hoverwrite : overwrite path content es t =
      (((), (reload Tree.system path es (Tree.system.replace path content t).2).1.2),
        (reload Tree.system path es (Tree.system.replace path content t).2).2) := rfl
  refine ⟨t', ?_, hfree⟩
  rw [hoverwrite, hreplace, reload, bind_apply, hload]
  rcases Entries.decode content with f | es'
  · rfl
  · rfl

/-- **In a file as in memory**: if the file is written and read again after some calls, the entries
in it take the place of those that are held. -/
theorem runAmid_file (h : t.Free path) (content : ByteArray) {α : Type} (p : Program α) (n : ℕ)
    (es : Entries) :
    (p.runAmid (file Tree.system path) (overwrite path content) n es t).1 =
      p.runAmid memory (Program.replaceBy (Entries.decode content).toOption) n es := by
  obtain ⟨t₁, hsteps, hfree⟩ := steps_file h n p es
  obtain ⟨t₂, hoverwrite, hfree⟩ := overwrite_of_free hfree content (p.steps memory n es).2
  obtain ⟨t₃, hrun, -⟩ := run_file hfree (p.steps memory n es).1
    ((Entries.decode content).toOption.getD (p.steps memory n es).2)
  rw [Program.runAmid_replaceBy, Program.runAmid, bind_apply_apply, bind_apply_apply, hsteps,
    hoverwrite, hrun]

end

end Store

namespace Profiles

/-! ## Listed profiles -/

/-- The list that readers would find has a profile. -/
def IsListed (id : String) (es : Entries) : Prop :=
  ∃ ps, listing es = .ok ps ∧ id ∈ Profile.ids ps

/-- No document is taken out while its profile is in the list. -/
def SparesListed (calls : List (Call × Entries)) : Prop :=
  ∀ id es, (Call.remove (documentKey id), es) ∈ calls → ¬ IsListed id es

theorem isListed_congr {id : String} {es es' : Entries}
    (h : Sorted.get? listKey es = Sorted.get? listKey es') : IsListed id es ↔ IsListed id es' := by
  rw [IsListed, listing, list_run_congr h]
  exact Iff.rfl

/-! ## Collecting garbage -/

/-- What is written after the list was read: documents of profiles that are not in it are taken out,
and if there was none, the one that there is to start with is put in. -/
inductive Sweep (ps : List Profile) : String → Option Json → Prop
  | orphan {id : String} (h : id ∉ Profile.ids ps) : Sweep ps (documentKey id) none
  | start (h : ps = [Profile.default]) :
    Sweep ps listKey (some (Profile.listToJson [Profile.default]))

/-- What is left of collecting garbage after the list was read. -/
private def sweep (ps : List Profile) : Program Nat := do
  let orphans := (← Program.allKeys).filter fun key ↦
    ((documentId? key).map fun id ↦ !Profile.listed id ps).getD false
  eraseAll orphans
  return orphans.length

private theorem makes_sweep (ps : List Profile) :
    (sweep ps).Makes fun c ↦ c = .keys ∨ ∃ id ∉ Profile.ids ps, c = .remove (documentKey id) := by
  refine ⟨Or.inl rfl, fun keys ↦ (makes_eraseAll fun key hkey ↦ ?_).bind fun _ ↦ trivial⟩
  obtain ⟨id, rfl, hid⟩ := orphaned_iff.mp (List.mem_filter.mp hkey).2
  exact Or.inr ⟨id, hid, rfl⟩

private theorem writes_sweep (ps : List Profile) : (sweep ps).Writes (Sweep ps) := by
  refine (makes_sweep ps).writes ?_ ?_
  · rintro key value (hcall | ⟨id, -, hcall⟩)
    · cases hcall
    · cases hcall
  · rintro key (hcall | ⟨id, hid, hcall⟩)
    · cases hcall
    · cases hcall
      exact .orphan hid

theorem isListed_iff {id : String} {es : Entries} {ps : List Profile} (h : listing es = .ok ps) :
    IsListed id es ↔ id ∈ Profile.ids ps := by
  rw [IsListed, h]
  exact ⟨fun ⟨_, hqs, hid⟩ ↦ Except.ok.inj hqs ▸ hid, fun hid ↦ ⟨ps, rfl, hid⟩⟩

/-- The first call is for the list, and what it finds decides what is left to do. -/
private theorem collectGarbage_answered (es : Entries) :
    ∃ next ps, collectGarbage = .get listKey next ∧ (∀ id, IsListed id es ↔ id ∈ Profile.ids ps) ∧
      (next (Sorted.get? listKey es)).Writes (Sweep ps) := by
  have hsweep : collectGarbage = list >>= sweep := rfl
  obtain ⟨next, hlist, hnext⟩ := list_answered es
  have hgc : collectGarbage = .get listKey fun v ↦ next v >>= sweep := by
    rw [hsweep, hlist]
    rfl
  rcases hnext with ⟨f, hf⟩ | ⟨ps, hps, hdone | ⟨rfl, hstart⟩⟩
  · have hnone (id : String) : ¬ IsListed id es := by
      rintro ⟨ps, hps, -⟩
      rw [listing, hlist, Program.run_memory_get, hf] at hps
      cases hps
    refine ⟨_, [], hgc, fun id ↦ iff_of_false (hnone id) List.not_mem_nil, ?_⟩
    rw [hf]
    trivial
  · refine ⟨_, ps, hgc, fun id ↦ isListed_iff hps, ?_⟩
    rw [hdone]
    exact writes_sweep ps
  · refine ⟨_, [Profile.default], hgc, fun id ↦ isListed_iff hps, ?_⟩
    rw [hstart]
    exact ⟨.start rfl, writes_sweep _⟩

/-- Sweeping spares documents of listed profiles if there are no others than those in the list that
was read. It goes on being so. -/
theorem spares_of_sweep {α : Type} {p : Program α} {ps : List Profile} (h : p.Writes (Sweep ps))
    {es : Entries} (hes : ∀ id, IsListed id es → id ∈ Profile.ids ps) :
    SparesListed (p.calls es) := by
  have halong := h.along_calls (P := fun es ↦ ∀ id, IsListed id es → id ∈ Profile.ids ps) hes ?_ ?_
  · intro id es' hmem hlisted
    obtain ⟨hP, hremove⟩ := halong _ hmem
    have hsweep := hremove _ rfl
    generalize hkey : documentKey id = key at hsweep
    cases hsweep with
    | orphan hid => exact hid (documentKey_injective hkey ▸ hP id hlisted)
  · intro key value es' hsweep _ id hid
    cases hsweep with
    | start hps =>
      subst hps
      exact (isListed_iff (listing_written Profile.normal_default es')).mp hid
  · intro key es' hsweep hP id hlisted
    cases hsweep with
    | orphan hid =>
      refine hP id ((isListed_congr ?_).mp hlisted)
      rw [Sorted.get?_erase, if_neg (beside_documentKey _).symm]

/-- Collecting garbage spares the documents of listed profiles if it is left alone. -/
theorem collectGarbage_spares_alone (es : Entries) : SparesListed (collectGarbage.calls es) := by
  obtain ⟨next, ps, hgc, hps, hwrites⟩ := collectGarbage_answered es
  intro id es' hmem
  rw [hgc] at hmem
  rcases List.mem_cons.mp hmem with hget | hrest
  · cases hget
  · exact spares_of_sweep hwrites (fun id ↦ (hps id).mp) id es' hrest

/-- **Collecting garbage spares the documents of listed profiles** if no profile is new in the
entries that take the place of the others. -/
theorem collectGarbage_spares {new : Option Entries} {es : Entries}
    (h : ∀ es' ∈ new, ∀ id, IsListed id es' → IsListed id es) (n : ℕ) :
    SparesListed (collectGarbage.callsAmid new n es) := by
  cases new with
  | none =>
    rw [Program.callsAmid_none]
    exact collectGarbage_spares_alone es
  | some es' =>
    cases n with
    | zero => exact collectGarbage_spares_alone es'
    | succ n =>
      obtain ⟨next, ps, hgc, hps, hwrites⟩ := collectGarbage_answered es
      intro id es'' hmem
      rcases List.mem_append.mp hmem with hbefore | hafter
      · exact collectGarbage_spares_alone es id es'' (List.mem_of_mem_take hbefore)
      · rw [hgc] at hafter
        have hrest := hwrites.steps n es
        exact spares_of_sweep hrest (fun id hid ↦ (hps id).mp (h es' rfl id hid)) id es'' hafter

/-! ## Any operation -/

/-- Whatever the entries are and whatever is left of it, an operation that takes a document out is
collecting garbage. -/
theorem Operation.eq_collectGarbage_of_mem {o : Operation} {α : Type} {p : Program α}
    (hp : o.Covers p) {id : String} {es es' : Entries}
    (h : (Call.remove (documentKey id), es') ∈ p.calls es) : o = .collectGarbage := by
  obtain ⟨-, hremove⟩ := hp.along_calls (P := fun _ ↦ True) trivial
    (fun _ _ _ _ _ ↦ trivial) (fun _ _ _ _ ↦ trivial) _ h
  exact (hremove _ rfl).eq_collectGarbage

/-- Left alone, no operation takes out the document of a listed profile. -/
theorem Operation.spares_alone (o : Operation) (es : Entries) :
    SparesListed (o.program.calls es) := by
  intro id es' hmem
  obtain rfl := eq_collectGarbage_of_mem o.writes hmem
  exact collectGarbage_spares_alone es id es' hmem

/-- No operation takes out the document of a listed profile if no profile is new. -/
theorem Operation.spares {new : Option Entries} {es : Entries}
    (h : ∀ es' ∈ new, ∀ id, IsListed id es' → IsListed id es) (o : Operation) (n : ℕ) :
    SparesListed (o.program.callsAmid new n es) := by
  intro id es' hmem
  have hgc : o = .collectGarbage := by
    rcases List.mem_append.mp hmem with hbefore | hafter
    · exact eq_collectGarbage_of_mem o.writes (List.mem_of_mem_take hbefore)
    · exact eq_collectGarbage_of_mem (o.writes.steps n es) hafter
  subst hgc
  exact collectGarbage_spares h n id es' hmem

section

variable (path : Path) (content : ByteArray) (o : Operation) (n : ℕ) (es : Entries) (t : Tree)

/-- The entries after an operation, during which the file is written and read again. -/
def Operation.amid : Entries :=
  (o.program.runAmid (Store.file Tree.system path) (Store.overwrite path content) n es t).1.2

/-- The entries after an operation, after which the file is written and read again. -/
def Operation.before : Entries :=
  ((o.program.run (Store.file Tree.system path) >>= fun _ ↦
    Store.overwrite path content : StateT Entries (StateM Tree) Unit) es t).1.2

/-- The entries after an operation, before which the file is written and read again. -/
def Operation.after : Entries :=
  ((Store.overwrite path content >>= fun _ ↦ o.program.run (Store.file Tree.system path) :
    StateT Entries (StateM Tree) (Except Store.Fault o.Result)) es t).1.2

/-- Nobody can tell that the file was written and read again in the middle of an operation: no
document is taken out while its profile is in the list, and what is held afterwards is what would be
held if the one had come after the other. -/
structure Operation.Serialized : Prop where
  spares : SparesListed (o.program.callsAmid (Entries.decode content).toOption n es)
  effect : o.amid path content n es t = o.before path content es t ∨
    o.amid path content n es t = o.after path content es t

end

section

variable {path : Path} {t : Tree}

theorem Operation.before_eq (h : t.Free path) (content : ByteArray) (o : Operation) (es : Entries) :
    o.before path content es t =
      (Entries.decode content).toOption.getD (o.program.run Store.memory es).2 := by
  obtain ⟨t₁, hrun, hfree⟩ := Store.run_file h o.program es
  obtain ⟨t₂, hoverwrite, -⟩ := Store.overwrite_of_free hfree content
    (o.program.run Store.memory es).2
  rw [before, bind_apply_apply, hrun, hoverwrite]

theorem Operation.after_eq (h : t.Free path) (content : ByteArray) (o : Operation) (es : Entries) :
    o.after path content es t =
      (o.program.run Store.memory ((Entries.decode content).toOption.getD es)).2 := by
  obtain ⟨t₁, hoverwrite, hfree⟩ := Store.overwrite_of_free h content es
  obtain ⟨t₂, hrun, -⟩ := Store.run_file hfree o.program
    ((Entries.decode content).toOption.getD es)
  rw [after, bind_apply_apply, hoverwrite, hrun]

/-- **An operation that is done in one piece** might as well have been made before the file was
written, or after that. Documents are safe in any case if no profile is new in the file. -/
theorem Operation.serialized_of_undivided (h : t.Free path) (content : ByteArray) (o : Operation)
    (n : ℕ) (es : Entries) :
    (o.program.Undivided (Entries.decode content).toOption n es →
      o.Serialized path content n es t) ∧
    ((∀ es' ∈ (Entries.decode content).toOption, ∀ id, IsListed id es' → IsListed id es) →
      SparesListed (o.program.callsAmid (Entries.decode content).toOption n es)) := by
  refine ⟨fun hundivided ↦ ⟨fun id es' hmem ↦ ?_, ?_⟩, fun hnew ↦ Operation.spares hnew o n⟩
  · rcases hundivided.mem_calls hmem rfl with hold | ⟨es₁, -, hnew⟩
    · exact o.spares_alone es id es' hold
    · exact o.spares_alone es₁ id es' hnew
  · rw [amid, before_eq h, after_eq h, Store.runAmid_file h content]
    exact hundivided.run_entries

end

/-- A profile is renamed, and after the list was looked up others save a document. -/
theorem Operation.serialized_of_undivided_rename :
    let es := written [Profile.default] []
    (Operation.rename "0" "a").Serialized ["profiles.json"] (saved "{}" "0" es).encode 1 es
      .empty := by
  intro es
  have hstorable : (saved "{}" "0" es).Storable :=
    (Entries.Storable.nil.insert _ (storable_listToJson _)).insert _ (storable_documentToJson _)
  refine (Operation.serialized_of_undivided (Tree.free_empty (by decide) (by decide)) _ _ _ _).1 ?_
  rw [hstorable.decode_encode]
  intro es' hnew
  obtain rfl := Option.some.inj hnew
  refine Or.inl fun c hc ↦ ?_
  obtain rfl : c = (.get listKey, es) := List.mem_singleton.mp hc
  exact (get?_saved (documentKey_ne_fixed (by decide) _) _ _).symm

/-- Collecting garbage takes out the document of a profile that others have just put into the list:
the list was looked up before that, and the documents after it. -/
theorem serialized_not_always :
    ¬ Operation.collectGarbage.Serialized ["profiles.json"]
      (saved "{}" "1" (written [Profile.default, ⟨"1", "a", true⟩] [])).encode 1
      (written [Profile.default] []) .empty := by
  intro h
  have hstorable : (saved "{}" "1" (written [Profile.default, ⟨"1", "a", true⟩] [])).Storable :=
    (Entries.Storable.nil.insert _ (storable_listToJson _)).insert _ (storable_documentToJson _)
  have hspares := h.spares
  rw [hstorable.decode_encode] at hspares
  refine hspares "1" (saved "{}" "1" (written [Profile.default, ⟨"1", "a", true⟩] [])) ?_ ?_
  · exact List.mem_of_getElem? (i := 2) rfl
  · have hnormal : Profile.Normal ([Profile.default] ++ [⟨"1", "a", true⟩]) :=
      Profile.normal_default.append (by decide)
    refine (isListed_congr (get?_saved (documentKey_ne_fixed (by decide) _) _ _)).mpr ?_
    exact (isListed_iff (listing_written hnormal _)).mpr (by decide)

end Profiles

end Redirector
