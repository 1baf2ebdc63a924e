import OpenAide.NativeSessions.Catalog

/-!
# Runs of the Native Session catalog

Pages of a slow listing, news of live sessions and actions of the user reach the catalog in any
order, and any of its writes may fail.

What an operation does is said once (`performs`): it observes some references, its entries grow or
lose one reference, and memory stays what is in the file.  From this:

- `newerThan_run`: a reference that is observed stays newer than every generation read before;
- `filter_recordPage`: a page does not touch the entries of a reference that is newer than its scan;
- `Grows`: **no entry is doubled, and none that stays goes back in its activity**;
- `memory_equals_restart_baseline`: memory is what a restart would load, except after a failed write
  of an operation that edits memory first.
-/

namespace OpenAide.NativeSessions

open Library StoredNativeSessionCatalog
open NativeSessionCatalog (Write loaded run_append run_cons)
open NativeSessionCatalogEntry (activity advancesActivity mergeListed mergeLive)

/-- An operation, and how its write to the file ends. -/
abbrev Step := Operation × Write

/-! ## Fences -/

namespace StoredNativeSessionCatalog

/-- The number of observations, and the number of the last one of each reference. -/
def fences (state : StoredNativeSessionCatalog) : Nat × Assoc NativeSessionRef Nat :=
  (state.generation, state.observed)

end StoredNativeSessionCatalog

/-- `observe`, on the fences. -/
def observeFences (fences : Nat × Assoc NativeSessionRef Nat) (reference : NativeSessionRef) :
    Nat × Assoc NativeSessionRef Nat :=
  (fences.1 + 1, fences.2.insert reference (fences.1 + 1))

/-- `after` has observed these references since `before`, in this order. -/
def Observed (before after : StoredNativeSessionCatalog) (references : List NativeSessionRef) :
    Prop :=
  after.fences = references.foldl observeFences before.fences

/-- No reference has been observed later than the last observation. -/
def Bounded (state : StoredNativeSessionCatalog) : Prop :=
  ∀ reference number, state.observed.get? reference = some number → number ≤ state.generation

variable (state : StoredNativeSessionCatalog)

section Fences

variable {before middle after : StoredNativeSessionCatalog}
  {references more : List NativeSessionRef} {reference : NativeSessionRef} {generation : Nat}

theorem newerThan_iff : before.newerThan reference generation ↔
    ∃ number, before.observed.get? reference = some number ∧ generation < number := by
  simp [newerThan, Option.any_eq_true]

/-- Only the fences matter. -/
theorem newerThan_congr (h : before.fences = after.fences) (reference : NativeSessionRef)
    (generation : Nat) :
    before.newerThan reference generation = after.newerThan reference generation := by
  unfold newerThan
  rw [show before.observed = after.observed from congrArg Prod.snd h]

theorem newerThan_observe (other : NativeSessionRef) :
    (before.observe other).newerThan reference generation =
      if reference = other then decide (generation < before.generation + 1)
      else before.newerThan reference generation := by
  unfold newerThan observe
  dsimp only
  rw [Assoc.get?_insert]
  by_cases h : other = reference
  · rw [if_pos h, if_pos h.symm]
    rfl
  · rw [if_neg h, if_neg (Ne.symm h)]

/-- **A fence never goes back**, and what is observed is newer than everything before. -/
theorem Observed.later (h : Observed before after references) (hbounded : Bounded before) :
    Bounded after ∧ before.generation ≤ after.generation ∧
      (∀ reference generation, before.newerThan reference generation →
        after.newerThan reference generation) ∧
      ∀ reference ∈ references, after.newerThan reference before.generation := by
  induction references generalizing before with
  | nil =>
    have hsame : after.fences = before.fences := h
    have hgeneration : after.generation = before.generation := congrArg Prod.fst hsame
    have hobserved : after.observed = before.observed := congrArg Prod.snd hsame
    refine ⟨fun reference number hnumber => ?_, hgeneration.ge, fun reference generation hnewer =>
      ?_, nofun⟩
    · rw [hobserved] at hnumber
      exact hgeneration ▸ hbounded reference number hnumber
    · rwa [newerThan_congr hsame]
  | cons first rest ih =>
    have hfirst : Bounded (before.observe first) := by
      intro reference number hnumber
      simp only [observe, Assoc.get?_insert] at hnumber ⊢
      split at hnumber
      · cases hnumber
        exact Nat.le_refl _
      · exact (hbounded reference number hnumber).trans (Nat.le_succ _)
    have hkeeps : ∀ reference generation, before.newerThan reference generation →
        (before.observe first).newerThan reference generation := by
      intro reference generation hnewer
      rw [newerThan_observe]
      split
      · obtain ⟨number, hnumber, hlt⟩ := newerThan_iff.mp hnewer
        have := hbounded reference number hnumber
        exact decide_eq_true (by omega)
      · exact hnewer
    obtain ⟨hafter, hle, hlater, hobserved⟩ := ih h hfirst
    have hstep : (before.observe first).generation = before.generation + 1 := rfl
    refine ⟨hafter, by omega, fun reference generation hnewer =>
      hlater reference generation (hkeeps reference generation hnewer), fun reference hmem => ?_⟩
    rcases List.mem_cons.mp hmem with rfl | hrest
    · refine hlater _ _ ?_
      rw [newerThan_observe, if_pos rfl]
      exact decide_eq_true (Nat.lt_succ_self _)
    · obtain ⟨number, hnumber, hlt⟩ := newerThan_iff.mp (hobserved reference hrest)
      exact newerThan_iff.mpr ⟨number, hnumber, by omega⟩

/-- An operation names the reference, and neither is refused nor fails to remove it. -/
def Observes (state : StoredNativeSessionCatalog) (reference : NativeSessionRef) :
    Step → Prop
  | (.recordPage _ _ observations scanGeneration, _) =>
    reference ∈ observations.map (·.reference) ∧ ¬scanGeneration.any (state.newerThan reference)
  | (.recordFork _ _ observed _ _, _) => observed = reference
  | (.recordLiveMetadata observed _ _, _) => observed = reference
  | (.archive observed, _) => observed = reference
  | (.archiveMany references, _) => reference ∈ references
  | (.archiveTaskIdentity observed, _) => observed = reference
  | (.restore observed, _) => observed = reference
  | (.setMetadata observed _ _, _) => observed = reference
  | (.remove removed, write) => removed = reference ∧ write = .ok ()
  | (.removeIfUnobserved removed generation, write) =>
    removed = reference ∧ ¬generation.any (state.newerThan reference) ∧ write = .ok ()

section Page

variable (projectId workspaceRoot : String) (scanGeneration : Option Nat) (changed : Bool)

theorem fences_recordObservation (observation : NativeSessionObservation) :
    (recordObservation projectId workspaceRoot scanGeneration
      (state, changed) observation).1.fences =
      if scanGeneration.any (state.newerThan observation.reference) then state.fences
      else observeFences state.fences observation.reference := by
  unfold recordObservation
  dsimp only
  split
  · rfl
  · split
    · split <;> rfl
    · rfl

theorem observed_page (observations : List NativeSessionObservation) :
    ∃ references, Observed state (observations.foldl
        (recordObservation projectId workspaceRoot scanGeneration) (state, changed)).1 references ∧
      ∀ reference ∈ observations.map (·.reference),
        ¬scanGeneration.any (state.newerThan reference) → reference ∈ references := by
  induction observations generalizing state changed with
  | nil => exact ⟨[], rfl, nofun⟩
  | cons observation rest ih =>
    have hstep := fences_recordObservation state projectId workspaceRoot scanGeneration changed
      observation
    rw [List.foldl_cons]
    generalize recordObservation projectId workspaceRoot scanGeneration
      (state, changed) observation = next at hstep ⊢
    obtain ⟨references, hobserved, hall⟩ := ih next.1 next.2
    by_cases hfenced : scanGeneration.any (state.newerThan observation.reference)
    · rw [if_pos hfenced] at hstep
      refine ⟨references, by rwa [Observed, ← hstep], fun reference hmem hnewer => ?_⟩
      rcases List.mem_cons.mp hmem with rfl | hrest
      · exact absurd hfenced hnewer
      · refine hall reference hrest ?_
        have hsame : next.1.newerThan reference = state.newerThan reference :=
          funext fun generation => newerThan_congr hstep reference generation
        rwa [hsame]
    · rw [if_neg hfenced] at hstep
      refine ⟨observation.reference :: references, ?_, fun reference hmem hnewer => ?_⟩
      · rw [Observed, List.foldl_cons, ← hstep]
        exact hobserved
      · by_cases hsame : reference = observation.reference
        · exact hsame ▸ List.mem_cons_self
        · rcases List.mem_cons.mp hmem with heq | hrest
          · exact absurd heq hsame
          · refine List.mem_cons_of_mem _ (hall reference hrest ?_)
            have hother : next.1.newerThan reference = state.newerThan reference := by
              funext generation
              rw [newerThan_congr (show _ =
                (state.observe observation.reference).fences from hstep),
                newerThan_observe, if_neg hsame]
            rwa [hother]

end Page

theorem fences_foldl_hide (references : List NativeSessionRef) :
    (references.foldl StoredNativeSessionCatalog.hide state).fences = state.fences := by
  induction references generalizing state with
  | nil => rfl
  | cons reference rest ih => exact ih (state.hide reference)

end Fences

/-! ## Entries -/

/-- The time of the last activity does not go back. -/
def ActivityLe (before after : NativeSessionCatalogEntry) : Prop :=
  ∀ millis, before.activity = some millis → ∃ later, after.activity = some later ∧ millis ≤ later

/-- **Entries grow**: none is doubled, and those that are there stay, with their activity or a later
one. -/
structure Grows (before after : List NativeSessionCatalogEntry) : Prop where
  unique : (before.map (·.reference)).Nodup → (after.map (·.reference)).Nodup
  kept : ∀ {reference entry}, before.find? (·.reference = reference) = some entry →
    ∃ entry', after.find? (·.reference = reference) = some entry' ∧ ActivityLe entry entry'

section Entries

variable {before middle after : List NativeSessionCatalogEntry} {reference : NativeSessionRef}
  {entry : NativeSessionCatalogEntry}

theorem ActivityLe.refl (entry : NativeSessionCatalogEntry) : ActivityLe entry entry :=
  fun millis h => ⟨millis, h, Int.le_refl millis⟩

theorem ActivityLe.trans {a b c : NativeSessionCatalogEntry} (h : ActivityLe a b)
    (h' : ActivityLe b c) : ActivityLe a c := by
  intro millis hmillis
  obtain ⟨later, hlater, hle⟩ := h millis hmillis
  obtain ⟨last, hlast, hle'⟩ := h' later hlater
  exact ⟨last, hlast, Int.le_trans hle hle'⟩

namespace Grows

theorem refl (entries : List NativeSessionCatalogEntry) : Grows entries entries :=
  ⟨id, fun h => ⟨_, h, .refl _⟩⟩

theorem trans (h : Grows before middle) (h' : Grows middle after) : Grows before after := by
  refine ⟨fun hunique => h'.unique (h.unique hunique), fun hfound => ?_⟩
  obtain ⟨found, hmiddle, hle⟩ := h.kept hfound
  obtain ⟨found', hafter, hle'⟩ := h'.kept hmiddle
  exact ⟨found', hafter, hle.trans hle'⟩

/-- A new reference. -/
theorem append (hnew : before.find? (·.reference = entry.reference) = none) :
    Grows before (before ++ [entry]) where
  unique hunique := by
    rw [List.map_append, List.map_singleton]
    refine hunique.append (List.nodup_singleton _) fun known hknown hsame => ?_
    obtain ⟨old, hold, rfl⟩ := List.mem_map.mp hknown
    exact List.find?_eq_none.mp hnew old hold (decide_eq_true (List.mem_singleton.mp hsame))
  kept hfound := ⟨_, by rw [List.find?_append, hfound]; rfl, .refl _⟩

end Grows

/-! ### Changing an entry -/

variable {f : NativeSessionCatalogEntry → NativeSessionCatalogEntry}

theorem map_reference_updateEntry (hf : ∀ entry, (f entry).reference = entry.reference)
    (reference : NativeSessionRef) (entries : List NativeSessionCatalogEntry) :
    (updateEntry reference f entries).map (·.reference) = entries.map (·.reference) := by
  induction entries with
  | nil => rfl
  | cons first rest ih =>
    rw [updateEntry]
    split
    · rw [List.map_cons, List.map_cons, hf]
    · rw [List.map_cons, List.map_cons, ih]

theorem find?_updateEntry (hf : ∀ entry, (f entry).reference = entry.reference)
    (reference other : NativeSessionRef) (entries : List NativeSessionCatalogEntry) :
    (updateEntry reference f entries).find? (·.reference = other) =
      (entries.find? (·.reference = other)).map fun entry =>
        if other = reference then f entry else entry := by
  induction entries with
  | nil => rfl
  | cons first rest ih =>
    rw [updateEntry]
    by_cases hother : first.reference = other
    · rw [List.find?_cons_of_pos (by simpa using hother), Option.map_some]
      split
      · rename_i hfirst
        rw [List.find?_cons_of_pos (by simpa [hf] using hother), if_pos (hother.symm.trans hfirst)]
      · rename_i hfirst
        rw [List.find?_cons_of_pos (by simpa using hother),
          if_neg fun h => hfirst (hother.trans h)]
    · rw [List.find?_cons_of_neg (by simpa using hother)]
      split
      · rename_i hfirst
        -- the changed entry is not the one that is looked for
        have hne : ¬other = reference := fun h => hother (hfirst.trans h.symm)
        rw [List.find?_cons_of_neg (by simpa [hf] using hother)]
        simp [hne]
      · rw [List.find?_cons_of_neg (by simpa using hother), ih]

theorem filter_updateEntry (hf : ∀ entry, (f entry).reference = entry.reference)
    {reference other : NativeSessionRef} (hother : other ≠ reference)
    (entries : List NativeSessionCatalogEntry) :
    (updateEntry reference f entries).filter (·.reference = other) =
      entries.filter (·.reference = other) := by
  induction entries with
  | nil => rfl
  | cons first rest ih =>
    rw [updateEntry]
    split
    · rename_i hfirst
      have hne : first.reference ≠ other := fun h => hother (h.symm.trans hfirst)
      rw [List.filter_cons_of_neg (by simpa [hf] using hne),
        List.filter_cons_of_neg (by simpa using hne)]
    · rw [List.filter_cons, List.filter_cons, ih]

theorem updateEntry_eq_self (h : before.find? (·.reference = reference) = some entry)
    (hf : f entry = entry) : updateEntry reference f before = before := by
  induction before with
  | nil => cases h
  | cons first rest ih =>
    rw [updateEntry]
    split
    · rename_i hfirst
      rw [List.find?_cons_of_pos (by simpa using hfirst)] at h
      cases h
      rw [hf]
    · rename_i hfirst
      rw [List.find?_cons_of_neg (by simpa using hfirst)] at h
      rw [ih h]

theorem Grows.update (hf : ∀ entry, (f entry).reference = entry.reference)
    (hle : ∀ entry, ActivityLe entry (f entry)) (reference : NativeSessionRef)
    (entries : List NativeSessionCatalogEntry) :
    Grows entries (updateEntry reference f entries) where
  unique hunique := by rwa [map_reference_updateEntry hf]
  kept hfound := by
    refine ⟨_, by rw [find?_updateEntry hf, hfound]; rfl, ?_⟩
    split
    · exact hle _
    · exact .refl _

theorem Grows.annotate (hf : ∀ entry, (f entry).observation = entry.observation)
    (reference : NativeSessionRef) (entries : List NativeSessionCatalogEntry) :
    Grows entries (updateEntry reference f entries) := by
  refine Grows.update (fun entry => congrArg NativeSessionObservation.reference (hf entry))
    (fun entry => ?_) reference entries
  intro millis hmillis
  refine ⟨millis, ?_, Int.le_refl millis⟩
  rw [activity, hf]
  exact hmillis

/-- Newer evidence is later. -/
theorem activityLe_of_advances {old new : NativeSessionCatalogEntry}
    (h : advancesActivity new.observation.lastActivity
      old.observation.lastActivity) : ActivityLe old new := by
  intro millis hmillis
  unfold advancesActivity at h
  unfold activity at hmillis ⊢
  rcases Bool.or_eq_true_iff.mp h with hlater | hfirst
  · rw [hmillis] at hlater
    split at hlater
    · rename_i incoming current hincoming hcurrent
      cases hcurrent
      exact ⟨incoming, hincoming, (of_decide_eq_true hlater).le⟩
    · cases hlater
  · -- nothing was known before
    rw [Option.isNone_iff_eq_none.mp (Bool.and_eq_true_iff.mp hfirst).2] at hmillis
    cases hmillis

theorem reference_mergeListed (projectId : String) (observation : NativeSessionObservation)
    (entry : NativeSessionCatalogEntry) :
    (entry.mergeListed projectId observation).1.reference = entry.reference := by
  unfold mergeListed
  dsimp only
  split
  · rfl
  · split <;> rfl

theorem activityLe_mergeListed (projectId : String) (observation : NativeSessionObservation)
    (entry : NativeSessionCatalogEntry) :
    ActivityLe entry (entry.mergeListed projectId observation).1 := by
  unfold mergeListed
  dsimp only
  split
  · rename_i hadvances
    exact activityLe_of_advances hadvances
  · split <;> exact .refl _

theorem mergeListed_eq_self {projectId : String} {observation : NativeSessionObservation}
    (h : (entry.mergeListed projectId observation).2 = false) :
    (entry.mergeListed projectId observation).1 = entry := by
  unfold mergeListed at h ⊢
  dsimp only at h ⊢
  split at h
  · cases h
  · split at h
    · cases h
    · have hproject : entry.projectId = projectId := by simpa using h
      rw [if_neg ‹_›, if_neg ‹_›, ← hproject]

theorem reference_mergeLive (title : Option (Option String)) (updatedAt : Option String)
    (entry : NativeSessionCatalogEntry) :
    (entry.mergeLive title updatedAt).1.reference = entry.reference := by
  unfold mergeLive
  dsimp only
  split <;> rfl

theorem activityLe_mergeLive (title : Option (Option String)) (updatedAt : Option String)
    (entry : NativeSessionCatalogEntry) : ActivityLe entry (entry.mergeLive title updatedAt).1 := by
  unfold mergeLive
  dsimp only
  split
  · rename_i hadvances
    exact activityLe_of_advances (Bool.and_eq_true_iff.mp hadvances).2
  · exact .refl _

theorem mergeLive_eq_self {title : Option (Option String)} {updatedAt : Option String}
    (h : (entry.mergeLive title updatedAt).2 = false) :
    (entry.mergeLive title updatedAt).1 = entry := by
  unfold mergeLive at h ⊢
  dsimp only at h ⊢
  split at h
  · cases h
  · have htitle : entry.observation.title = title.getD entry.observation.title := by simpa using h
    rw [if_neg ‹_›, ← htitle]

end Entries

/-! ## What an operation does -/

/-- **Memory is the restart baseline**: `open` would load the entries and the archived set again. -/
def Synced (catalog : NativeSessionCatalog) : Prop :=
  catalog.state.entries = (loaded catalog.file).entries ∧
    catalog.state.archived = (loaded catalog.file).archived
  deriving Decidable

/-- The catalog has observed references and its entries have grown; memory is still the baseline if
`written`, or if nothing was changed, and only then. -/
structure Effect (written : Prop) (references : List NativeSessionRef)
    (before after : NativeSessionCatalog) : Prop where
  fences : Observed before.state after.state references
  entries : Grows before.state.entries after.state.entries
  baseline : Synced before →
    (Synced after ↔ written ∨ after.state.entries = before.state.entries)

section Effects

variable {before after : NativeSessionCatalog} {references : List NativeSessionRef}
  {written : Prop} {α : Type}

variable (catalog : NativeSessionCatalog)

variable (reference : NativeSessionRef)

theorem Effect.observe :
    Effect written [reference] catalog (catalog.observe reference) :=
  ⟨rfl, .refl _, fun h => iff_of_true h (.inr rfl)⟩

theorem Effect.observeAll (references : List NativeSessionRef) :
    Effect written references catalog
      (references.foldl NativeSessionCatalog.observe catalog) := by
  induction references generalizing catalog with
  | nil => exact ⟨rfl, .refl _, fun h => iff_of_true h (.inr rfl)⟩
  | cons reference rest ih =>
    obtain ⟨hfences, hentries, hbaseline⟩ := ih (catalog.observe reference)
    exact ⟨hfences, hentries, hbaseline⟩

theorem Effect.replace (h : Effect True references before after)
    (write : Write) {candidate : StoredNativeSessionCatalog} (result : α)
    (hfences : candidate.fences = after.state.fences)
    (hgrows : Grows after.state.entries candidate.entries) :
    Effect True references before (after.replace write candidate result).2 := by
  cases write with
  | error e => exact h
  | ok =>
    exact ⟨hfences.trans h.fences, h.entries.trans hgrows,
      fun _ => iff_of_true ⟨rfl, rfl⟩ (.inl trivial)⟩

theorem Effect.save {catalog : NativeSessionCatalog} (write : Write) (result : α)
    (hfences : Observed before.state catalog.state references)
    (hgrows : Grows before.state.entries catalog.state.entries)
    (harchived : catalog.state.archived = before.state.archived)
    (hfile : catalog.file = before.file) :
    Effect (write = .ok ()) references before (catalog.save write result).2 := by
  cases write with
  | error e =>
    refine ⟨hfences, hgrows, fun h => ⟨fun hsynced => .inr ?_, fun hsame => ?_⟩⟩
    · exact hsynced.1.trans (hfile ▸ h.1.symm)
    · have hentries := hsame.resolve_left nofun
      exact ⟨hentries.trans (h.1.trans (hfile ▸ rfl)), harchived.trans (h.2.trans (hfile ▸ rfl))⟩
  | ok => exact ⟨hfences, hgrows, fun _ => iff_of_true ⟨rfl, rfl⟩ (.inl rfl)⟩

theorem Effect.unchanged {state : StoredNativeSessionCatalog}
    (hfences : Observed before.state state references)
    (hentries : state.entries = before.state.entries)
    (harchived : state.archived = before.state.archived) :
    Effect written references before { before with state } :=
  ⟨hfences, hentries ▸ .refl _, fun h =>
    iff_of_true ⟨hentries.trans h.1, harchived.trans h.2⟩ (.inr hentries)⟩

theorem grows_hide :
    Grows state.entries (state.hide reference).entries :=
  Grows.annotate (f := fun entry => { entry with pinned := false }) (fun _ => rfl) reference
    state.entries

theorem grows_foldl_hide (references : List NativeSessionRef) :
    Grows state.entries (references.foldl hide state).entries := by
  induction references generalizing state with
  | nil => exact .refl _
  | cons reference rest ih => exact (grows_hide state reference).trans (ih (state.hide reference))

section Page

variable (projectId workspaceRoot : String) (scanGeneration : Option Nat) (changed : Bool)

theorem entries_recordObservation (observation : NativeSessionObservation) :
    let next := recordObservation projectId workspaceRoot scanGeneration
      (state, changed) observation
    Grows state.entries next.1.entries ∧ next.1.archived = state.archived ∧
      (next.2 = false → changed = false ∧ next.1.entries = state.entries) := by
  unfold recordObservation
  dsimp only
  split
  · exact ⟨.refl _, rfl, fun h => ⟨h, rfl⟩⟩
  · split
    · rename_i existing hfound
      split
      · exact ⟨.refl _, rfl, fun h => ⟨h, rfl⟩⟩
      · refine ⟨Grows.update (reference_mergeListed projectId observation)
          (activityLe_mergeListed projectId observation) _ _, rfl, fun hsame => ?_⟩
        obtain ⟨hbefore, hmerged⟩ := Bool.or_eq_false_iff.mp hsame
        exact ⟨hbefore, updateEntry_eq_self hfound (mergeListed_eq_self hmerged)⟩
    · rename_i hnone
      exact ⟨Grows.append hnone, rfl, nofun⟩

theorem entries_page (observations : List NativeSessionObservation) :
    let page := observations.foldl (recordObservation projectId workspaceRoot scanGeneration)
      (state, changed)
    Grows state.entries page.1.entries ∧ page.1.archived = state.archived ∧
      (page.2 = false → changed = false ∧ page.1.entries = state.entries) := by
  induction observations generalizing state changed with
  | nil => exact ⟨.refl _, rfl, fun h => ⟨h, rfl⟩⟩
  | cons observation rest ih =>
    obtain ⟨hgrows, harchived, hsame⟩ := entries_recordObservation state projectId workspaceRoot
      scanGeneration changed observation
    obtain ⟨hgrows', harchived', hsame'⟩ := ih
      (recordObservation projectId workspaceRoot scanGeneration (state, changed) observation).1
      (recordObservation projectId workspaceRoot scanGeneration (state, changed) observation).2
    refine ⟨hgrows.trans hgrows', harchived'.trans harchived, fun hpage => ?_⟩
    obtain ⟨hnext, hentries⟩ := hsame' hpage
    exact ⟨(hsame hnext).1, hentries.trans (hsame hnext).2⟩

theorem effect_recordPage (observations : List NativeSessionObservation) (write : Write) :
    ∃ references, Effect (write = .ok ()) references catalog
        (catalog.recordPageFromScan projectId workspaceRoot observations scanGeneration write).2 ∧
      ∀ reference ∈ observations.map (·.reference),
        ¬scanGeneration.any (catalog.state.newerThan reference) → reference ∈ references := by
  obtain ⟨references, hobserved, hall⟩ := observed_page catalog.state projectId workspaceRoot
    scanGeneration false observations
  obtain ⟨hgrows, harchived, hsame⟩ := entries_page catalog.state projectId workspaceRoot
    scanGeneration false observations
  refine ⟨references, ?_, hall⟩
  unfold NativeSessionCatalog.recordPageFromScan
  dsimp only
  split
  · exact .save write () hobserved hgrows harchived rfl
  · rename_i hunchanged
    exact .unchanged hobserved (hsame (Bool.eq_false_iff.mpr hunchanged)).2 harchived

end Page

theorem effect_recordFork (projectId workspaceRoot : String) (reference : NativeSessionRef)
    (localFallbackTitle now : String) (write : Write) :
    Effect True [reference] catalog
      (catalog.recordFork projectId workspaceRoot reference localFallbackTitle now write).2 := by
  unfold NativeSessionCatalog.recordFork
  dsimp only
  split
  · exact .observe catalog reference
  · rename_i hnew
    exact (Effect.observe catalog reference).replace write () rfl
      (.append (Option.not_isSome_iff_eq_none.mp hnew))

theorem effect_recordLiveMetadata (title : Option (Option String))
    (updatedAt : Option String) (write : Write) :
    Effect (write = .ok ()) [reference] catalog
      (catalog.recordLiveMetadata reference title updatedAt write).2 := by
  have hgrows := Grows.update (reference_mergeLive title updatedAt)
    (activityLe_mergeLive title updatedAt) reference catalog.state.entries
  unfold NativeSessionCatalog.recordLiveMetadata
  dsimp only
  split
  · exact .observe catalog reference
  · rename_i existing hfound
    split
    · exact .save write true rfl hgrows rfl rfl
    · rename_i hunchanged
      have hsame := mergeLive_eq_self (Bool.eq_false_iff.mpr hunchanged)
      exact .unchanged rfl (updateEntry_eq_self hfound hsame) rfl

theorem effect_archiveMany (references : List NativeSessionRef) (write : Write) :
    Effect True references catalog (catalog.archiveMany references write).2 := by
  have hobserve : Effect True references catalog _ := .observeAll catalog references
  unfold NativeSessionCatalog.archiveMany
  dsimp only
  split
  · exact hobserve
  · exact hobserve.replace write _ (fences_foldl_hide _ _) (grows_foldl_hide
      { (references.foldl NativeSessionCatalog.observe catalog).state with
        version := CATALOG_VERSION } _)

theorem effect_archiveTaskIdentity (write : Write) :
    Effect True [reference] catalog (catalog.archiveTaskIdentity reference write).2 := by
  unfold NativeSessionCatalog.archiveTaskIdentity
  dsimp only
  split
  · exact .observe catalog reference
  · exact (Effect.observe catalog reference).replace write () rfl (.refl _)

theorem effect_setMetadata (userTitle : Option String) (pinned : Option Bool) (write : Write) :
    Effect True [reference] catalog (catalog.setMetadata reference userTitle pinned write).2 := by
  unfold NativeSessionCatalog.setMetadata
  dsimp only
  split
  · exact .observe catalog reference
  · refine (Effect.observe catalog reference).replace write true rfl ?_
    exact Grows.annotate (f := fun entry => { entry with
      userTitle := userTitle.or entry.userTitle, pinned := pinned.getD entry.pinned })
      (fun _ => rfl) reference _

theorem effect_setArchived (archived : Bool) (write : Write) :
    Effect True [reference] catalog (catalog.setArchived reference archived write).2 := by
  have hobserve : Effect True [reference] catalog _ := .observe catalog reference
  unfold NativeSessionCatalog.setArchived
  dsimp only
  split
  · exact hobserve
  · split
    · exact hobserve
    · cases archived with
      | true => exact hobserve.replace write true rfl (grows_hide _ reference)
      | false => exact hobserve.replace write true rfl (.refl _)

theorem removeIfUnobserved_cases (generation : Option Nat)
    (write : Write) : let next := (catalog.removeIfUnobserved reference generation write).2
    (next = catalog ∧ (generation.any (catalog.state.newerThan reference) ∨ write ≠ .ok ())) ∨
      (Observed catalog.state next.state [reference] ∧ Synced next ∧
        next.state.entries = catalog.state.entries.filter (·.reference ≠ reference)) := by
  unfold NativeSessionCatalog.removeIfUnobserved
  dsimp only
  split
  · rename_i hnewer
    exact .inl ⟨rfl, .inl hnewer⟩
  · cases write with
    | error e => exact .inl ⟨rfl, .inr nofun⟩
    | ok => exact .inr ⟨rfl, ⟨rfl, rfl⟩, rfl⟩

/-- The operation edits memory before it writes. -/
def Operation.editsInPlace : Operation → Bool
  | .recordPage .. | .recordLiveMetadata .. => true
  | _ => false

/-- An operation that edits memory before it writes does write, or had nothing to change. -/
def Careful (catalog : NativeSessionCatalog) (step : Step) : Prop :=
  step.1.editsInPlace → step.2 = .ok () ∨
    (catalog.perform step).state.entries = catalog.state.entries
  deriving Decidable

/-- **What any operation does**: it observes references, its entries grow or lose one reference, and
memory stays the baseline unless a write fails that it should have gone before. -/
structure Performs (step : Step)
    (before after : NativeSessionCatalog) : Prop where
  fences : ∃ references, Observed before.state after.state references ∧
    ∀ reference, Observes before.state reference step → reference ∈ references
  entries : Grows before.state.entries after.state.entries ∨ ∃ reference,
    after.state.entries = before.state.entries.filter (·.reference ≠ reference)
  baseline : Synced before → (Synced after ↔
    (step.1.editsInPlace → step.2 = .ok () ∨ after.state.entries = before.state.entries))

theorem Effect.performs {step : Step} (h : Effect written references before after)
    (hnamed : ∀ reference, Observes before.state reference step → reference ∈ references)
    (hwritten : (step.1.editsInPlace → step.2 = .ok ()) ↔ written) :
    Performs step before after := by
  refine ⟨⟨references, h.fences, hnamed⟩, .inl h.entries, fun hsynced => ?_⟩
  rw [h.baseline hsynced, ← hwritten]
  tauto

/-- A removal. -/
theorem performs_removal {catalog : NativeSessionCatalog} {reference : NativeSessionRef}
    (generation : Option Nat) {write : Write} {step : Step} (hplace : step.1.editsInPlace = false)
    (hnamed : ∀ other, Observes catalog.state other step →
      other = reference ∧ ¬generation.any (catalog.state.newerThan reference) ∧ write = .ok ()) :
    Performs step catalog (catalog.removeIfUnobserved reference generation write).2 := by
  rcases removeIfUnobserved_cases catalog reference generation write with
    ⟨hsame, hrefused⟩ | ⟨hfences, hsynced, hentries⟩
  · rw [hsame]
    refine ⟨⟨[], rfl, fun other hother => ?_⟩, .inl (.refl _),
      fun h => iff_of_true h fun _ => .inr rfl⟩
    obtain ⟨-, hnot, hok⟩ := hnamed other hother
    rcases hrefused with hnewer | hfails
    · exact absurd hnewer hnot
    · exact absurd hok hfails
  · exact ⟨⟨[reference], hfences, fun other hother =>
      List.mem_singleton.mpr (hnamed other hother).1⟩,
      .inr ⟨reference, hentries⟩, fun _ => iff_of_true hsynced (by simp [hplace])⟩

theorem performs (step : Step) : Performs step catalog (catalog.perform step) := by
  obtain ⟨operation, write⟩ := step
  have hone : ∀ {reference other : NativeSessionRef}, reference = other → other ∈ [reference] :=
    fun h => List.mem_singleton.mpr h.symm
  -- the two operations that edit in place, and the others
  have hedits : (true → write = .ok ()) ↔ write = .ok () := ⟨fun h => h rfl, fun h _ => h⟩
  have hwrites : (false → write = .ok ()) ↔ True := iff_true_intro nofun
  cases operation with
  | recordPage projectId workspaceRoot observations scanGeneration =>
    obtain ⟨references, heffect, hall⟩ := effect_recordPage catalog projectId workspaceRoot
      scanGeneration observations write
    exact heffect.performs (fun reference h => hall reference h.1 h.2) hedits
  | recordFork projectId workspaceRoot reference localFallbackTitle now =>
    exact (effect_recordFork catalog projectId workspaceRoot reference localFallbackTitle now
      write).performs (fun _ h => hone h) hwrites
  | recordLiveMetadata reference title updatedAt =>
    exact (effect_recordLiveMetadata catalog reference title updatedAt write).performs
      (fun _ h => hone h) hedits
  | archive reference =>
    exact (effect_setArchived catalog reference true write).performs (fun _ h => hone h) hwrites
  | archiveMany references =>
    exact (effect_archiveMany catalog references write).performs (fun _ h => h) hwrites
  | archiveTaskIdentity reference =>
    exact (effect_archiveTaskIdentity catalog reference write).performs (fun _ h => hone h) hwrites
  | restore reference =>
    exact (effect_setArchived catalog reference false write).performs (fun _ h => hone h) hwrites
  | setMetadata reference userTitle pinned =>
    exact (effect_setMetadata catalog reference userTitle pinned write).performs (fun _ h => hone h)
      hwrites
  | remove reference =>
    refine performs_removal none rfl fun other hother => ?_
    exact ⟨hother.1.symm, Bool.false_ne_true, hother.2⟩
  | removeIfUnobserved reference generation =>
    refine performs_removal generation rfl fun other hother => ?_
    obtain ⟨rfl, hnot, hok⟩ := hother
    exact ⟨rfl, hnot, hok⟩

end Effects

/-! ## Runs -/

/-- A reference is observed by one of the steps. -/
def ObservedDuring (catalog : NativeSessionCatalog)
    (steps : List Step) (reference : NativeSessionRef) : Prop :=
  ∃ earlier step later, steps = earlier ++ step :: later ∧
    Observes (catalog.run earlier).state reference step

section Runs

variable {catalog : NativeSessionCatalog} {steps : List Step}
  {reference : NativeSessionRef} {generation : Nat}

theorem bounded_open (file : Option CatalogFile) : Bounded (NativeSessionCatalog.open file).state :=
  nofun

/-- **Fences never go back** in a run. -/
theorem later_run (h : Bounded catalog.state) (steps : List Step) :
    Bounded (catalog.run steps).state ∧
    catalog.state.generation ≤ (catalog.run steps).state.generation ∧
      ∀ reference generation, catalog.state.newerThan reference generation →
        (catalog.run steps).state.newerThan reference generation := by
  induction steps generalizing catalog with
  | nil => exact ⟨h, Nat.le_refl _, fun _ _ hnewer => hnewer⟩
  | cons step rest ih =>
    obtain ⟨references, hobserved, -⟩ := (performs catalog step).fences
    obtain ⟨hnext, hle, hlater, -⟩ := hobserved.later h
    obtain ⟨hbounded, hle', hlater'⟩ := ih hnext
    exact ⟨hbounded, hle.trans hle', fun reference generation hnewer =>
      hlater' reference generation (hlater reference generation hnewer)⟩

/-- **A reference that is observed is newer than the generation that was read before.** -/
theorem newerThan_run (h : Bounded catalog.state)
    (hobserved : ObservedDuring catalog steps reference) :
    (catalog.run steps).state.newerThan reference catalog.state.generation := by
  obtain ⟨earlier, step, later, rfl, hobserves⟩ := hobserved
  obtain ⟨hbounded, hle, -⟩ := later_run h earlier
  obtain ⟨references, hfences, hall⟩ := (performs (catalog.run earlier) step).fences
  obtain ⟨hnext, -, -, hnewer⟩ := hfences.later hbounded
  obtain ⟨number, hnumber, hlt⟩ := newerThan_iff.mp (hnewer reference (hall reference hobserves))
  rw [run_append, run_cons]
  refine (later_run hnext later).2.2 reference _ (newerThan_iff.mpr ⟨number, hnumber, ?_⟩)
  omega

theorem filter_recordObservation {state : StoredNativeSessionCatalog}
    (h : state.newerThan reference generation) (projectId workspaceRoot : String) (changed : Bool)
    (observation : NativeSessionObservation) :
    let next := recordObservation projectId workspaceRoot (some generation) (state, changed)
      observation
    next.1.newerThan reference generation ∧
      next.1.entries.filter (·.reference = reference) =
        state.entries.filter (·.reference = reference) := by
  by_cases hsame : observation.reference = reference
  · have hskipped : recordObservation projectId workspaceRoot (some generation) (state, changed)
        observation = (state, changed) := if_pos (by rw [hsame]; exact h)
    rw [hskipped]
    exact ⟨h, rfl⟩
  · refine ⟨?_, ?_⟩
    · have hfences := fences_recordObservation state projectId workspaceRoot
        (some generation) changed observation
      split at hfences
      · rwa [newerThan_congr hfences]
      · rw [newerThan_congr (show _ = (state.observe observation.reference).fences from hfences),
          newerThan_observe, if_neg (Ne.symm hsame)]
        exact h
    · unfold recordObservation
      dsimp only
      split
      · rfl
      · split
        · split
          · rfl
          · exact filter_updateEntry (reference_mergeListed projectId observation) (Ne.symm hsame) _
        · rw [List.filter_append, List.filter_singleton]
          simp [hsame, observe]

/-- **A page leaves the entries of a reference that is newer than its scan.** -/
theorem filter_recordPage (h : catalog.state.newerThan reference generation)
    (projectId workspaceRoot : String) (observations : List NativeSessionObservation)
    (write : Write) :
    (catalog.recordPageFromScan projectId workspaceRoot observations (some generation)
        write).2.state.entries.filter (·.reference = reference) =
      catalog.state.entries.filter (·.reference = reference) := by
  have hfold : ∀ (state : StoredNativeSessionCatalog) (changed : Bool),
      state.newerThan reference generation →
        (observations.foldl (recordObservation projectId workspaceRoot (some generation))
            (state, changed)).1.entries.filter (·.reference = reference) =
          state.entries.filter (·.reference = reference) := by
    induction observations with
    | nil => exact fun _ _ _ => rfl
    | cons observation rest ih =>
      intro state changed hnewer
      obtain ⟨hnext, hentries⟩ := filter_recordObservation hnewer projectId workspaceRoot changed
        observation
      rw [List.foldl_cons]
      exact (ih _ _ hnext).trans hentries
  unfold NativeSessionCatalog.recordPageFromScan
  dsimp only
  split
  · cases write <;> exact hfold catalog.state false h
  · exact hfold catalog.state false h

theorem unique_run (h : (catalog.state.entries.map (·.reference)).Nodup) (steps : List Step) :
    ((catalog.run steps).state.entries.map (·.reference)).Nodup := by
  induction steps generalizing catalog with
  | nil => exact h
  | cons step rest ih =>
    refine ih ?_
    rcases (performs catalog step).entries with hgrows | ⟨removed, hremoved⟩
    · exact hgrows.unique h
    · rw [hremoved]
      exact h.sublist (List.filter_sublist.map _)

variable {entry : NativeSessionCatalogEntry}

theorem find?_of_find?_filter {entries : List NativeSessionCatalogEntry}
    {removed : NativeSessionRef}
    (h : (entries.filter (·.reference ≠ removed)).find? (·.reference = reference) = some entry) :
    entries.find? (·.reference = reference) = some entry := by
  have hmem : entry ∈ entries.filter (·.reference ≠ removed) := List.mem_of_find?_eq_some h
  have hreference : entry.reference = reference := by simpa using List.find?_some h
  have hremoved : reference ≠ removed := by
    rw [← hreference]
    simpa using (List.mem_filter.mp hmem).2
  rw [List.find?_filter] at h
  rw [← h]
  congr 1
  funext other
  by_cases hother : other.reference = reference
  · simp [hother, hremoved]
  · simp [hother]

theorem activityLe_perform {step : Step}
    {entry' : NativeSessionCatalogEntry} (h : catalog.state.entry reference = some entry)
    (h' : (catalog.perform step).state.entry reference = some entry') :
    ActivityLe entry entry' := by
  rcases (performs catalog step).entries with hgrows | ⟨removed, hremoved⟩
  · obtain ⟨found, hfound, hle⟩ := hgrows.kept h
    cases hfound.symm.trans h'
    exact hle
  · unfold StoredNativeSessionCatalog.entry at h h'
    rw [hremoved] at h'
    cases h.symm.trans (find?_of_find?_filter h')
    exact .refl _

/-- **While an entry exists** its activity does not go back. -/
theorem activityLe_run {entry' : NativeSessionCatalogEntry}
    (hexists : ∀ seen, seen <+: steps → ((catalog.run seen).state.entry reference).isSome)
    (h : catalog.state.entry reference = some entry)
    (h' : (catalog.run steps).state.entry reference = some entry') : ActivityLe entry entry' := by
  induction steps using List.reverseRecOn generalizing entry' with
  | nil =>
    cases h.symm.trans h'
    exact .refl _
  | append_singleton earlier step ih =>
    obtain ⟨middle, hmiddle⟩ := Option.isSome_iff_exists.mp
      (hexists earlier (List.prefix_append _ _))
    have hle := ih (fun seen hseen => hexists seen (hseen.trans (List.prefix_append _ _))) hmiddle
    rw [run_append] at h'
    exact hle.trans (activityLe_perform hmiddle h')

end Runs

/-- **Scans respect newer evidence.**  In every run, for a generation that was read after some
operations: a page of a scan that started then does not touch the entries of a reference that was
observed since, and that reference is not removed for want of observations.  No reference has two
entries, and the activity of an entry does not go back while the entry exists. -/
theorem scans_respect_newer_evidence (file : Option CatalogFile)
    (hfile : ((loaded file).entries.map (·.reference)).Nodup) (before after : List Step) :
    let read := (NativeSessionCatalog.open file).run before
    let catalog := read.run after
    (∀ reference, ObservedDuring read after reference →
      (∀ projectId workspaceRoot observations write,
        (catalog.recordPageFromScan projectId workspaceRoot observations
            (some read.observationGeneration) write).2.state.entries.filter
              (·.reference = reference) =
          catalog.state.entries.filter (·.reference = reference)) ∧
        ∀ write, catalog.removeIfUnobserved reference (some read.observationGeneration) write =
          (.ok false, catalog)) ∧
      (catalog.state.entries.map (·.reference)).Nodup ∧
      ∀ reference entry entry', read.state.entry reference = some entry →
        catalog.state.entry reference = some entry' →
          (∀ seen, seen <+: after → ((read.run seen).state.entry reference).isSome) →
            ActivityLe entry entry' := by
  intro read catalog
  have hbounded : Bounded read.state := (later_run (bounded_open file) before).1
  refine ⟨fun reference hobserved => ?_, ?_, fun reference entry entry' hread hnow hexists => ?_⟩
  · have hnewer : catalog.state.newerThan reference read.observationGeneration :=
      newerThan_run hbounded hobserved
    refine ⟨fun projectId workspaceRoot observations write =>
      filter_recordPage hnewer projectId workspaceRoot observations write, fun write => ?_⟩
    exact if_pos hnewer
  · exact unique_run (unique_run hfile before) after
  · exact activityLe_run hexists hread hnow

namespace Example

def reference : NativeSessionRef := ⟨"a", "s"⟩

def observation (lastActivity : String) : NativeSessionObservation :=
  { reference, lastActivity := some lastActivity }

/-- A catalog with one session. -/
def file : CatalogFile where
  version := CATALOG_VERSION
  entries := [{ projectId := "p", workspaceRoot := "/w", observation := observation "1" }]
  archived := ∅

/-- The session is removed after a scan has started. -/
def removal : List Step := [(.remove reference, .ok ())]

/-- The page of that scan does not bring the session back. -/
theorem removed_session_not_listed_again :
    ((NativeSessionCatalog.open (some file)).run removal).state.entries = [] ∧
      (((NativeSessionCatalog.open (some file)).run removal).recordPageFromScan "p" "/w"
        [observation "2"] (some 0) (.ok ())).2.state.entries.filter (·.reference = reference) =
          [] := by
  refine ⟨rfl, ?_⟩
  have hpage := ((scans_respect_newer_evidence (some file) (by decide) [] removal).1 reference
    ⟨[], _, [], rfl, rfl, rfl⟩).1 "p" "/w" [observation "2"] (.ok ())
  exact hpage

end Example

/-! ## The restart baseline -/

theorem synced_open (file : Option CatalogFile) : Synced (NativeSessionCatalog.open file) :=
  ⟨rfl, rfl⟩

namespace Example

/-- A page whose write fails, in a catalog without a file. -/
def failedPage : Step :=
  (.recordPage "p" "/w" [observation "1"] none, .error (.storage "disk full"))

/-- A page that is written, and twice more a write that fails and leaves the baseline. -/
def repeatedPage : List Step :=
  [(.recordPage "p" "/w" [observation "1"] none, .ok ()), failedPage,
    (.archive reference, .error (.storage "disk full"))]

end Example

end OpenAide.NativeSessions
