import OpenAide.NativeSessions.CatalogRuns

/-!
# Archived Native Sessions and pins

The archived references and the pins of the entries are two structures.  Archiving by the user takes
the pin off, an entry that is listed again is not pinned, and a removal takes both away
(`unpinned_performApi`).  Two paths look at one structure only: `archive_task_identity`, with which
retention archives the session of a Task (`retention.rs:72`), leaves a pin, and `set_metadata`, with
which the API pins a session (`native_session_metadata.rs:71`), does not ask whether it is archived.
-/

namespace OpenAide.NativeSessions

open NativeSessionCatalog

/-! ## The product API -/

/-- What the metadata API reads of a Task. -/
structure SessionTask where
  agentId : String
  agentSessionId : Option String
  tombstoned : Bool

inductive MetadataError where
  | notFound
  | conflict (message : String)
  | runtime (error : RuntimeError)
  deriving DecidableEq

namespace NativeSessionCatalog

variable (catalog : NativeSessionCatalog)

/-- `set_native_session_metadata` (`native_session_metadata.rs:33`); `tasks` is what
`list_all_task_records_strict` returns. -/
def setNativeSessionMetadata (tasks : Except RuntimeError (List SessionTask))
    (reference : NativeSessionRef) (title : Option String) (pinned : Option Bool) (write : Write) :
    Except MetadataError NativeSessionCatalogEntry × NativeSessionCatalog :=
  if (catalog.state.entry reference).isNone then (.error .notFound, catalog)
  else match tasks with
    | .error error => (.error (.runtime error), catalog)
    | .ok tasks =>
      if tasks.any fun task => !task.tombstoned && task.agentId = reference.agentId &&
          task.agentSessionId = some reference.sessionId then
        (.error (.conflict "This Native Session belongs to an OpenAIDE Task"), catalog)
      else
        let edited := catalog.setMetadata reference title pinned write
        match edited.1 with
        | .error error => (.error (.runtime error), edited.2)
        | .ok _ =>
          match edited.2.state.entry reference with
          | some entry => (.ok entry, edited.2)
          | none => (.error .notFound, edited.2)

theorem setNativeSessionMetadata_cases (tasks : Except RuntimeError (List SessionTask))
    (reference : NativeSessionRef) (title : Option String) (pinned : Option Bool) (write : Write) :
    let edited := (catalog.setNativeSessionMetadata tasks reference title pinned write).2
    edited = catalog ∨ edited = (catalog.setMetadata reference title pinned write).2 := by
  dsimp only [setNativeSessionMetadata]
  repeat' split
  all_goals first | exact .inl rfl | exact .inr rfl

end NativeSessionCatalog

/-- An operation of the catalog, or an edit of metadata through the product API. -/
inductive ApiStep where
  | operation (operation : Operation)
  | metadata (tasks : Except RuntimeError (List SessionTask)) (reference : NativeSessionRef)
      (title : Option String) (pinned : Option Bool)

def NativeSessionCatalog.performApi (catalog : NativeSessionCatalog) :
    ApiStep × Write → NativeSessionCatalog
  | (.operation operation, write) => catalog.perform (operation, write)
  | (.metadata tasks reference title pinned, write) =>
    (catalog.setNativeSessionMetadata tasks reference title pinned write).2

def NativeSessionCatalog.runApi (catalog : NativeSessionCatalog) (steps : List (ApiStep × Write)) :
    NativeSessionCatalog :=
  steps.foldl performApi catalog

/-- The entry of a reference is pinned. -/
def StoredNativeSessionCatalog.pins (state : StoredNativeSessionCatalog)
    (reference : NativeSessionRef) : Bool :=
  (state.entry reference).any (·.pinned)

/-- No archived reference is pinned in its entry. -/
def Unpinned (state : StoredNativeSessionCatalog) : Prop :=
  ∀ reference ∈ state.archived, state.pins reference = false

instance (state : StoredNativeSessionCatalog) : Decidable (Unpinned state) :=
  inferInstanceAs (Decidable (∀ reference ∈ state.archived, state.pins reference = false))

/-- The two steps that look at one of pin and archive only do so where the other is not set. -/
def Allowed (state : StoredNativeSessionCatalog) : ApiStep → Prop
  | .operation (.archiveTaskIdentity reference) => state.pins reference = false
  | .operation (.setMetadata reference _ pinned) | .metadata _ reference _ pinned =>
    pinned = some true → reference ∉ state.archived
  | _ => True

/-- Every step of a run is allowed where it is taken. -/
def AllowedRun : NativeSessionCatalog → List (ApiStep × Write) → Prop
  | _, [] => True
  | catalog, step :: rest =>
    Allowed catalog.state step.1 ∧ AllowedRun (catalog.performApi step) rest

/-! ## One step -/

section Pins

variable {before after : StoredNativeSessionCatalog} {catalog : NativeSessionCatalog}

theorem Unpinned.update {f : NativeSessionCatalogEntry → NativeSessionCatalogEntry}
    {reference : NativeSessionRef} (h : Unpinned before)
    (hentries : after.entries = updateEntry reference f before.entries)
    (hf : ∀ entry, (f entry).reference = entry.reference)
    (harchived : ∀ other ∈ after.archived, other ≠ reference → other ∈ before.archived)
    (hpinned : reference ∈ after.archived → ∀ entry : NativeSessionCatalogEntry,
      (reference ∈ before.archived → entry.pinned = false) → (f entry).pinned = false) :
    Unpinned after := by
  intro other hmem
  have hnot := h other
  unfold StoredNativeSessionCatalog.pins StoredNativeSessionCatalog.entry at hnot ⊢
  rw [hentries, find?_updateEntry hf, Option.any_map]
  cases hentry : before.entries.find? (·.reference = other) with
  | none => rfl
  | some entry =>
    rw [hentry, Option.any_some] at hnot
    rw [Option.any_some]
    split
    · rename_i hsame
      subst hsame
      exact hpinned hmem entry hnot
    · rename_i hother
      exact hnot (harchived other hmem hother)

theorem Unpinned.append {entry : NativeSessionCatalogEntry} (h : Unpinned before)
    (hentries : after.entries = before.entries ++ [entry])
    (harchived : after.archived = before.archived) (hentry : entry.pinned = false) :
    Unpinned after := by
  intro other hmem
  have hnot := h other (harchived ▸ hmem)
  unfold StoredNativeSessionCatalog.pins StoredNativeSessionCatalog.entry at hnot ⊢
  rw [hentries, List.find?_append]
  cases hfound : before.entries.find? (·.reference = other) with
  | some found => rwa [hfound] at hnot
  | none =>
    rw [Option.none_or, List.find?_singleton]
    split
    · exact hentry
    · rfl

theorem unpinned_recordObservation {recorded : StoredNativeSessionCatalog × Bool}
    (h : Unpinned recorded.1) (projectId workspaceRoot : String) (scanGeneration : Option Nat)
    (observation : NativeSessionObservation) :
    Unpinned (StoredNativeSessionCatalog.recordObservation projectId workspaceRoot scanGeneration
      recorded observation).1 := by
  unfold StoredNativeSessionCatalog.recordObservation
  dsimp only
  split
  · exact h
  · split
    · split
      · exact h
      · refine h.update rfl (reference_mergeListed projectId observation) (fun _ hmem _ => hmem) ?_
        intro hmem entry hentry
        unfold NativeSessionCatalogEntry.mergeListed
        dsimp only
        repeat' split
        all_goals exact hentry hmem
    · exact h.append rfl rfl rfl

theorem unpinned_hide (h : Unpinned before) (reference : NativeSessionRef) :
    Unpinned (before.hide reference) :=
  h.update rfl (fun _ => rfl) (fun _ hmem hne => Finset.mem_of_mem_insert_of_ne hmem hne)
    fun _ _ _ => rfl

theorem unpinned_replace {α : Type} (write : Write) {candidate : StoredNativeSessionCatalog}
    (result : α) (h : Unpinned catalog.state) (hcandidate : Unpinned candidate) :
    Unpinned (catalog.replace write candidate result).2.state := by
  cases write with
  | ok => exact hcandidate
  | error e => exact h

theorem unpinned_save {α : Type} (write : Write) (result : α) (h : Unpinned catalog.state) :
    Unpinned (catalog.save write result).2.state := by
  cases write <;> exact h

theorem unpinned_setMetadata (h : Unpinned catalog.state) (reference : NativeSessionRef)
    (title : Option String) {pinned : Option Bool} (write : Write)
    (hallowed : pinned = some true → reference ∉ catalog.state.archived) :
    Unpinned (catalog.setMetadata reference title pinned write).2.state := by
  unfold setMetadata
  dsimp only
  split
  · exact h
  · refine unpinned_replace write _ h (h.update rfl (fun _ => rfl) (fun _ hmem _ => hmem) ?_)
    intro hmem entry hentry
    -- an archived reference may only be unpinned
    match pinned with
    | none => exact hentry hmem
    | some false => rfl
    | some true => exact absurd hmem (hallowed rfl)

theorem unpinned_setArchived (h : Unpinned catalog.state) (reference : NativeSessionRef)
    (archived : Bool) (write : Write) :
    Unpinned (catalog.setArchived reference archived write).2.state := by
  unfold setArchived
  dsimp only
  split
  · exact h
  · split
    · exact h
    · refine unpinned_replace write _ h ?_
      split
      · exact unpinned_hide h reference
      · exact fun other hmem => h other (Finset.mem_of_mem_erase hmem)

theorem unpinned_removal (h : Unpinned catalog.state) (reference : NativeSessionRef)
    (generation : Option Nat) (write : Write) :
    Unpinned (catalog.removeIfUnobserved reference generation write).2.state := by
  unfold removeIfUnobserved
  split
  · exact h
  · refine unpinned_replace write _ h fun other hmem => ?_
    obtain ⟨hne, hold⟩ := Finset.mem_erase.mp hmem
    have hnot := h other hold
    unfold StoredNativeSessionCatalog.pins StoredNativeSessionCatalog.entry at hnot ⊢
    rw [List.find?_filter]
    refine Eq.trans (congrArg (Option.any _) (congrArg (List.find? · _) ?_)) hnot
    funext entry
    by_cases heq : entry.reference = other
    · simp [heq, hne]
    · simp [heq]

/-- **One step** of the catalog or the API. -/
theorem unpinned_performApi (h : Unpinned catalog.state) {step : ApiStep × Write}
    (hallowed : Allowed catalog.state step.1) : Unpinned (catalog.performApi step).state := by
  obtain ⟨step, write⟩ := step
  cases step with
  | metadata tasks reference title pinned =>
    rcases catalog.setNativeSessionMetadata_cases tasks reference title pinned write with heq | heq
    · exact (congrArg (fun edited : NativeSessionCatalog => Unpinned edited.state) heq).mpr h
    · exact (congrArg (fun edited : NativeSessionCatalog => Unpinned edited.state) heq).mpr
        (unpinned_setMetadata h reference title write hallowed)
  | operation operation =>
    cases operation with
    | recordPage projectId workspaceRoot observations scanGeneration =>
      have hpage : Unpinned
          (observations.foldl (StoredNativeSessionCatalog.recordObservation projectId
          workspaceRoot scanGeneration) (catalog.state, false)).1 :=
        List.foldlRecOn (motive := fun recorded : StoredNativeSessionCatalog × Bool =>
          Unpinned recorded.1) observations _ h fun _ hseen observation _ =>
            unpinned_recordObservation hseen projectId workspaceRoot scanGeneration observation
      dsimp only [performApi, perform, recordPageFromScan]
      split
      · exact unpinned_save write _ hpage
      · exact hpage
    | recordFork projectId workspaceRoot reference localFallbackTitle now =>
      dsimp only [performApi, perform, recordFork]
      split
      · exact h
      · exact unpinned_replace write _ h (h.append rfl rfl rfl)
    | recordLiveMetadata reference title updatedAt =>
      dsimp only [performApi, perform, recordLiveMetadata]
      split
      · exact h
      · have hmerged : Unpinned { (catalog.observe reference).state with
            entries := updateEntry reference (fun entry => (entry.mergeLive title updatedAt).1)
              (catalog.observe reference).state.entries } := by
          refine h.update rfl (reference_mergeLive title updatedAt) (fun _ hmem _ => hmem) ?_
          intro hmem entry hentry
          unfold NativeSessionCatalogEntry.mergeLive
          dsimp only
          split <;> exact hentry hmem
        split
        · exact unpinned_save write _ hmerged
        · exact hmerged
    | archive reference => exact unpinned_setArchived h reference true write
    | restore reference => exact unpinned_setArchived h reference false write
    | archiveMany references =>
      have hseen : Unpinned (references.foldl NativeSessionCatalog.observe catalog).state :=
        List.foldlRecOn (motive := fun seen : NativeSessionCatalog => Unpinned seen.state)
        references _ h fun _ hseen _ _ => hseen
      dsimp only [performApi, perform, archiveMany]
      split
      · exact hseen
      · exact unpinned_replace write _ hseen
          (List.foldlRecOn _ _ hseen fun _ hhidden reference _ => unpinned_hide hhidden reference)
    | archiveTaskIdentity reference =>
      dsimp only [performApi, perform, archiveTaskIdentity]
      split
      · exact h
      · refine unpinned_replace write _ h fun other hmem => ?_
        rcases Finset.mem_insert.mp hmem with rfl | hold
        · exact hallowed
        · exact h other hold
    | setMetadata reference title pinned =>
      exact unpinned_setMetadata h reference title write hallowed
    | remove reference => exact unpinned_removal h reference none write
    | removeIfUnobserved reference generation => exact unpinned_removal h reference generation write

end Pins

/-! ## Runs -/

/-- **No archived session is pinned** in any state of a run in which retention does not archive a
pinned session and no archived session is pinned: neither step looks at the other mark. -/
theorem archived_sessions_unpinned (steps : List (ApiStep × Write))
    (hallowed : AllowedRun (NativeSessionCatalog.open none) steps) :
    ∀ seen, seen <+: steps → Unpinned ((NativeSessionCatalog.open none).runApi seen).state := by
  have hempty : Unpinned (NativeSessionCatalog.open none).state := fun reference hmem =>
    absurd hmem (Finset.notMem_empty reference)
  generalize NativeSessionCatalog.open none = catalog at hallowed hempty ⊢
  intro seen hseen
  induction seen generalizing catalog steps with
  | nil => exact hempty
  | cons step rest ih =>
    obtain ⟨more, rfl⟩ := hseen
    exact ih _ _ hallowed.2 (unpinned_performApi hempty hallowed.1) (List.prefix_append rest more)

namespace Example

def listed : ApiStep × Write := (.operation (.recordPage "p" "/w" [observation "1"] none), .ok ())

def pin : ApiStep × Write := (.metadata (.ok []) reference none (some true), .ok ())

/-- A session is pinned, and archived by the user: the pin is taken off. -/
theorem archived_by_user_unpinned :
    Unpinned ((NativeSessionCatalog.open none).runApi
      [listed, pin, (.operation (.archive reference), .ok ())]).state := by
  refine archived_sessions_unpinned [listed, pin, (.operation (.archive reference), .ok ())]
    ⟨trivial, fun _ => ?_, trivial, trivial⟩ _ (List.prefix_refl _)
  exact Finset.notMem_empty reference

/-- An archived session is pinned through the API, and a pinned one archived by retention. -/
theorem archived_and_pinned :
    ¬Unpinned ((NativeSessionCatalog.open none).runApi
      [listed, (.operation (.archive reference), .ok ()), pin]).state ∧
    ¬Unpinned ((NativeSessionCatalog.open none).runApi
      [listed, pin, (.operation (.archiveTaskIdentity reference), .ok ())]).state := by
  decide

end Example

end OpenAide.NativeSessions
