import OpenAide.Library.Maps
import OpenAide.Library.Text
import OpenAide.Protocol.Model

/-!
# The catalog of Native Sessions

`native_sessions/catalog.rs`: the sessions of Agents that `session/list` has shown, with what the
user has set for them.  The catalog is kept in memory and written as one file.  Every observation of
a session gets a number; a listing that was started before a session was last observed may not touch
that session (`newerThan`).

Memory and file are one state here, and a write may fail.  The clock is an argument of `recordFork`.
Refresh states and the pages that are left of a Project are kept elsewhere and are not part of it.
-/

namespace OpenAide.NativeSessions

open Library

/-! ## Activity times -/

/-- The text before the last sign and from it on. -/
def splitLastSign (chars : List Char) : Option (List Char × List Char) :=
  let before := chars.rdropWhile fun c => !(c = '+' || c = '-')
  if before.isEmpty then none else some (before.dropLast, chars.drop (before.length - 1))

/-- `parse_time_and_offset` (`time.rs:67`): the offset in minutes. -/
def parseTimeAndOffset (value : List Char) : Option (List Char × Int) :=
  if value.getLast? = some 'Z' then some (value.dropLast, 0)
  else
    match splitLastSign value with
    | none => some (value, 0)
    | some (time, offset) => do
      let sign : Int := if offset.head? = some '+' then 1 else -1
      let (hours, minutes) ← splitOnce ':' offset.tail
      if (String.ofList hours).utf8ByteSize ≠ 2 ∨ (String.ofList minutes).utf8ByteSize ≠ 2 then none
      else
        let hours ← parseI32 hours
        let minutes ← parseI32 minutes
        if 23 < hours ∨ 59 < minutes then none
        else some (time, sign * (hours * 60 + minutes))

/-- `days_in_month` (`time.rs:94`). -/
def daysInMonth (year : Int) (month : Nat) : Nat :=
  if month = 4 ∨ month = 6 ∨ month = 9 ∨ month = 11 then 30
  else if month = 2 then
    if year.tmod 4 = 0 ∧ (year.tmod 100 ≠ 0 ∨ year.tmod 400 = 0) then 29 else 28
  else 31

/-- `days_from_civil` (`time.rs:103`); `/` of the source truncates. -/
def daysFromCivil (year : Int) (month day : Nat) : Int :=
  let year := year - if month ≤ 2 then 1 else 0
  let era := (if 0 ≤ year then year else year - 399).tdiv 400
  let yoe := year - era * 400
  let doy := (153 * ((month : Int) + if 2 < month then -3 else 9) + 2).tdiv 5 + day - 1
  let doe := yoe * 365 + yoe.tdiv 4 - yoe.tdiv 100 + doy
  era * 146097 + doe - 719468

/-- A second with its fraction, as milliseconds. -/
def parseSecond (value : List Char) : Option (Nat × Nat) :=
  match splitOnce '.' value with
  | some (second, fraction) =>
    if fraction.isEmpty || !fraction.all Char.isDigit then none
    else do
      let millis ← parseU32 ((fraction.take 3).rightpad 3 '0')
      let second ← parseU32 second
      return (second, millis)
  | none => (parseU32 value).map fun second => (second, 0)

/-- `parse_iso_utc_millis` (`time.rs:23`). -/
def parseIsoUtcMillis (value : List Char) : Option Int := do
  let (date, timeWithOffset) ← splitOnce 'T' value
  match date.splitOn '-' with
  | [year, month, day] =>
    let year ← parseI32 year
    let month ← parseU32 month
    let day ← parseU32 day
    let (time, offsetMinutes) ← parseTimeAndOffset timeWithOffset
    match time.splitOn ':' with
    | [hour, minute, secondAndMillis] =>
      let hour ← parseU32 hour
      let minute ← parseU32 minute
      let (second, millis) ← parseSecond secondAndMillis
      if month < 1 ∨ 12 < month ∨ day < 1 ∨ daysInMonth year month < day ∨ 23 < hour ∨
        59 < minute ∨ 59 < second then none
      else
        let days := daysFromCivil year month day
        let localMillis := (((days * 24 + hour) * 60 + minute) * 60 + second) * 1000 + millis
        return localMillis - offsetMinutes * 60 * 1000
    | _ => none
  | _ => none

/-- `activity_millis` (`time.rs:12`). -/
def activityMillis (value : String) : Option Int :=
  let trimmed := trimBoth isWhitespace value.toList
  if trimmed.isEmpty then none
  else if trimmed.all Char.isDigit then (parseDigits (2 ^ 127 - 1) trimmed).map Int.ofNat
  else parseIsoUtcMillis trimmed

example : activityMillis "2000-01-01T00:00:01.5+00:01" = some 946684741500 := by decide +kernel

/-! ## Entries -/

/-- `CATALOG_VERSION`. -/
def CATALOG_VERSION : Nat := 4

structure NativeSessionRef where
  agentId : String
  sessionId : String
  deriving DecidableEq

structure NativeSessionObservation where
  reference : NativeSessionRef
  title : Option String := none
  lastActivity : Option String := none
  deriving DecidableEq

structure NativeSessionCatalogEntry where
  projectId : String
  workspaceRoot : String
  observation : NativeSessionObservation
  localFallbackTitle : Option String := none
  userTitle : Option String := none
  pinned : Bool := false
  deriving DecidableEq

namespace NativeSessionCatalogEntry

abbrev reference (entry : NativeSessionCatalogEntry) :
    NativeSessionRef := entry.observation.reference

/-- The time of the last activity, if it can be read. -/
def activity (entry : NativeSessionCatalogEntry) : Option Int :=
  entry.observation.lastActivity.bind activityMillis

/-- Whether `incoming` is newer evidence than `current`, or the first. -/
def advancesActivity (incoming current : Option String) : Bool :=
  (match incoming.bind activityMillis, current.bind activityMillis with
    | some incoming, some current => current < incoming
    | _, _ => false) || (incoming.isSome && current.isNone)

/-- An entry that a page lists again, and whether it changes (`catalog.rs:129-160`). -/
def mergeListed (existing : NativeSessionCatalogEntry) (projectId : String)
    (observation : NativeSessionObservation) : NativeSessionCatalogEntry × Bool :=
  let moved := { existing with projectId }
  let seen := existing.observation
  if advancesActivity observation.lastActivity seen.lastActivity then
    let title := observation.title.or seen.title
    ({ moved with observation := { seen with lastActivity := observation.lastActivity, title } },
      true)
  else if seen.title.isNone && observation.title.isSome then
    ({ moved with observation := { seen with title := observation.title } }, true)
  else (moved, existing.projectId ≠ projectId)

/-- An entry of which a live session tells, and whether it changes (`catalog.rs:237-258`). -/
def mergeLive (existing : NativeSessionCatalogEntry) (title : Option (Option String))
    (updatedAt : Option String) : NativeSessionCatalogEntry × Bool :=
  let seen := existing.observation
  let newTitle := title.getD seen.title
  let retitled := seen.title ≠ newTitle
  if updatedAt.isSome && advancesActivity updatedAt seen.lastActivity then
    ({ existing with observation := { seen with title := newTitle, lastActivity := updatedAt } },
      true)
  else ({ existing with observation := { seen with title := newTitle } }, retitled)

end NativeSessionCatalogEntry

/-- Change the first entry of a reference (`iter_mut().find`). -/
def updateEntry (reference : NativeSessionRef)
    (f : NativeSessionCatalogEntry → NativeSessionCatalogEntry) :
    List NativeSessionCatalogEntry → List NativeSessionCatalogEntry
  | [] => []
  | entry :: rest =>
    if entry.reference = reference then f entry :: rest else entry :: updateEntry reference f rest

/-! ## State -/

/-- What the file holds of the catalog. -/
structure CatalogFile where
  version : Nat
  entries : List NativeSessionCatalogEntry
  archived : Finset NativeSessionRef
  deriving DecidableEq

/-- `StoredNativeSessionCatalog` (`catalog.rs:581`). -/
structure StoredNativeSessionCatalog extends CatalogFile where
  generation : Nat
  observed : Assoc NativeSessionRef Nat
  deriving DecidableEq

namespace StoredNativeSessionCatalog

/-- `observe` (`catalog.rs:613`). -/
def observe (state : StoredNativeSessionCatalog) (reference : NativeSessionRef) :
    StoredNativeSessionCatalog :=
  { state with
    generation := state.generation + 1
    observed := state.observed.insert reference (state.generation + 1) }

/-- `newer_than` (`catalog.rs:618`). -/
def newerThan (state : StoredNativeSessionCatalog) (reference : NativeSessionRef)
    (generation : Nat) : Bool :=
  (state.observed.get? reference).any fun observed => generation < observed

/-- `entry` (`catalog.rs:290`). -/
def entry (state : StoredNativeSessionCatalog) (reference : NativeSessionRef) :
    Option NativeSessionCatalogEntry :=
  state.entries.find? (·.reference = reference)

/-- One observation of a page (`catalog.rs:107-174`): the state, and whether anything changed. -/
def recordObservation (projectId workspaceRoot : String) (scanGeneration : Option Nat)
    (before : StoredNativeSessionCatalog × Bool) (observation : NativeSessionObservation) :
    StoredNativeSessionCatalog × Bool :=
  let reference := observation.reference
  if scanGeneration.any (before.1.newerThan reference) then before
  else
    let state := before.1.observe reference
    match state.entry reference with
    | some existing =>
      -- another workspace keeps its entry
      if existing.workspaceRoot ≠ workspaceRoot then (state, before.2)
      else
        let merge := fun entry : NativeSessionCatalogEntry =>
          entry.mergeListed projectId observation
        let entries := updateEntry reference (fun entry => (merge entry).1) state.entries
        ({ state with entries }, before.2 || (merge existing).2)
    | none =>
      ({ state with entries := state.entries ++ [{ projectId, workspaceRoot, observation }] }, true)

/-- A known entry is hidden, and no longer pinned. -/
def hide (state : StoredNativeSessionCatalog) (reference : NativeSessionRef) :
    StoredNativeSessionCatalog :=
  { state with
    archived := insert reference state.archived
    entries := updateEntry reference (fun entry => { entry with pinned := false }) state.entries }

end StoredNativeSessionCatalog

/-- `NativeSessionCatalog`: memory and file. -/
structure NativeSessionCatalog where
  state : StoredNativeSessionCatalog
  file : Option CatalogFile
  deriving DecidableEq

namespace NativeSessionCatalog

/-- What `open` loads (`catalog.rs:66`). -/
def loaded (file : Option CatalogFile) : CatalogFile := file.getD ⟨CATALOG_VERSION, [], ∅⟩

/-- `open`. -/
def «open» (file : Option CatalogFile) : NativeSessionCatalog where
  state := { loaded file with generation := 0, observed := [] }
  file := file

variable (catalog : NativeSessionCatalog)

def observe (reference : NativeSessionRef) : NativeSessionCatalog :=
  { catalog with state := catalog.state.observe reference }

/-- The outcome of a call of `atomic::write_json`; a write that fails leaves the file. -/
abbrev Write := Except RuntimeError Unit

/-- Memory is written, after it was changed. -/
def save {α : Type} (write : Write) (result : α) : Except RuntimeError α × NativeSessionCatalog :=
  match write with
  | .ok () => (.ok result, { catalog with file := some catalog.state.toCatalogFile })
  | .error e => (.error e, catalog)

/-- A candidate is written, and replaces memory after that. -/
def replace {α : Type} (write : Write) (candidate : StoredNativeSessionCatalog) (result : α) :
    Except RuntimeError α × NativeSessionCatalog :=
  match write with
  | .ok () => (.ok result, ⟨candidate, some candidate.toCatalogFile⟩)
  | .error e => (.error e, catalog)

/-! ## Operations -/

/-- `record_page_from_scan` (`catalog.rs:97`). -/
def recordPageFromScan (projectId workspaceRoot : String)
    (observations : List NativeSessionObservation) (scanGeneration : Option Nat) (write : Write) :
    Except RuntimeError Unit × NativeSessionCatalog :=
  let recorded := observations.foldl
    (StoredNativeSessionCatalog.recordObservation projectId workspaceRoot scanGeneration)
    (catalog.state, false)
  let catalog := { catalog with state := recorded.1 }
  if recorded.2 then catalog.save write () else (.ok (), catalog)

/-- `record_fork` (`catalog.rs:182`). -/
def recordFork (projectId workspaceRoot : String) (reference : NativeSessionRef)
    (localFallbackTitle now : String) (write : Write) :
    Except RuntimeError Unit × NativeSessionCatalog :=
  let catalog := catalog.observe reference
  if (catalog.state.entry reference).isSome then (.ok (), catalog)
  else
    let entry : NativeSessionCatalogEntry :=
      { projectId, workspaceRoot
        observation := { reference, lastActivity := some now }
        localFallbackTitle := some localFallbackTitle }
    catalog.replace write { catalog.state with
      entries := catalog.state.entries ++ [entry], version := CATALOG_VERSION } ()

/-- `record_live_metadata` (`catalog.rs:221`). -/
def recordLiveMetadata (reference : NativeSessionRef) (title : Option (Option String))
    (updatedAt : Option String) (write : Write) : Except RuntimeError Bool × NativeSessionCatalog :=
  let catalog := catalog.observe reference
  match catalog.state.entry reference with
  | none => (.ok false, catalog)
  | some existing =>
    let merge := fun entry : NativeSessionCatalogEntry => entry.mergeLive title updatedAt
    let catalog := { catalog with state := { catalog.state with
      entries := updateEntry reference (fun entry => (merge entry).1) catalog.state.entries } }
    if (merge existing).2 then catalog.save write true else (.ok false, catalog)

/-- `archive_many` (`catalog.rs:331`). -/
def archiveMany (references : List NativeSessionRef) (write : Write) :
    Except RuntimeError (List Bool) × NativeSessionCatalog :=
  let catalog := references.foldl observe catalog
  let known := fun reference => (catalog.state.entry reference).isSome
  let results := references.map known
  if !references.any fun reference => known reference && reference ∉ catalog.state.archived then
    (.ok results, catalog)
  else
    let candidate := (references.filter known).foldl StoredNativeSessionCatalog.hide
      { catalog.state with version := CATALOG_VERSION }
    catalog.replace write candidate results

/-- `archive_task_identity` (`catalog.rs:379`). -/
def archiveTaskIdentity (reference : NativeSessionRef) (write : Write) :
    Except RuntimeError Unit × NativeSessionCatalog :=
  let catalog := catalog.observe reference
  if reference ∈ catalog.state.archived then (.ok (), catalog)
  else
    catalog.replace write { catalog.state with
      version := CATALOG_VERSION, archived := insert reference catalog.state.archived } ()

/-- `set_metadata` (`catalog.rs:402`). -/
def setMetadata (reference : NativeSessionRef) (userTitle : Option String) (pinned : Option Bool)
    (write : Write) : Except RuntimeError Bool × NativeSessionCatalog :=
  let catalog := catalog.observe reference
  if (catalog.state.entry reference).isNone then (.ok false, catalog)
  else
    let set := fun entry : NativeSessionCatalogEntry => { entry with
      userTitle := userTitle.or entry.userTitle, pinned := pinned.getD entry.pinned }
    catalog.replace write { catalog.state with
      version := CATALOG_VERSION, entries := updateEntry reference set catalog.state.entries } true

/-- `set_archived` (`catalog.rs:430`), of `archive` and `restore`. -/
def setArchived (reference : NativeSessionRef) (archived : Bool) (write : Write) :
    Except RuntimeError Bool × NativeSessionCatalog :=
  let catalog := catalog.observe reference
  if (catalog.state.entry reference).isNone then (.ok false, catalog)
  else if decide (reference ∈ catalog.state.archived) = archived then (.ok true, catalog)
  else
    let candidate := { catalog.state with version := CATALOG_VERSION }
    let candidate :=
      if archived then candidate.hide reference
      else { candidate with archived := candidate.archived.erase reference }
    catalog.replace write candidate true

def archive (reference : NativeSessionRef) (write : Write) :
    Except RuntimeError Bool × NativeSessionCatalog :=
  catalog.setArchived reference true write

def restore (reference : NativeSessionRef) (write : Write) :
    Except RuntimeError Bool × NativeSessionCatalog :=
  catalog.setArchived reference false write

/-- `observation_generation` (`catalog.rs:469`). -/
def observationGeneration : Nat := catalog.state.generation

/-- `remove_if_unobserved` (`catalog.rs:485`). -/
def removeIfUnobserved (reference : NativeSessionRef) (generation : Option Nat) (write : Write) :
    Except RuntimeError Bool × NativeSessionCatalog :=
  if generation.any (catalog.state.newerThan reference) then (.ok false, catalog)
  else
    let candidate := catalog.state.observe reference
    catalog.replace write { candidate with
      entries := candidate.entries.filter (·.reference ≠ reference)
      archived := candidate.archived.erase reference
      version := CATALOG_VERSION } true

/-- `remove` (`catalog.rs:477`). -/
def remove (reference : NativeSessionRef) (write : Write) :
    Except RuntimeError Bool × NativeSessionCatalog :=
  let existed := (catalog.state.entry reference).isSome
  let removed := catalog.removeIfUnobserved reference none write
  (removed.1.map fun _ => existed, removed.2)

end NativeSessionCatalog

/-- An operation on the catalog. -/
inductive Operation where
  | recordPage (projectId workspaceRoot : String) (observations : List NativeSessionObservation)
      (scanGeneration : Option Nat)
  | recordFork (projectId workspaceRoot : String) (reference : NativeSessionRef)
      (localFallbackTitle now : String)
  | recordLiveMetadata (reference : NativeSessionRef) (title : Option (Option String))
      (updatedAt : Option String)
  | archive (reference : NativeSessionRef)
  | archiveMany (references : List NativeSessionRef)
  | archiveTaskIdentity (reference : NativeSessionRef)
  | restore (reference : NativeSessionRef)
  | setMetadata (reference : NativeSessionRef) (userTitle : Option String) (pinned : Option Bool)
  | remove (reference : NativeSessionRef)
  | removeIfUnobserved (reference : NativeSessionRef) (generation : Option Nat)
  deriving DecidableEq

namespace NativeSessionCatalog

/-- The catalog after an operation whose write, if it makes one, has an outcome. -/
def perform (catalog : NativeSessionCatalog) : Operation × Write → NativeSessionCatalog
  | (.recordPage projectId workspaceRoot observations scanGeneration, write) =>
    (catalog.recordPageFromScan projectId workspaceRoot observations scanGeneration write).2
  | (.recordFork projectId workspaceRoot reference localFallbackTitle now, write) =>
    (catalog.recordFork projectId workspaceRoot reference localFallbackTitle now write).2
  | (.recordLiveMetadata reference title updatedAt, write) =>
    (catalog.recordLiveMetadata reference title updatedAt write).2
  | (.archive reference, write) => (catalog.archive reference write).2
  | (.archiveMany references, write) => (catalog.archiveMany references write).2
  | (.archiveTaskIdentity reference, write) => (catalog.archiveTaskIdentity reference write).2
  | (.restore reference, write) => (catalog.restore reference write).2
  | (.setMetadata reference userTitle pinned, write) =>
    (catalog.setMetadata reference userTitle pinned write).2
  | (.remove reference, write) => (catalog.remove reference write).2
  | (.removeIfUnobserved reference generation, write) =>
    (catalog.removeIfUnobserved reference generation write).2

def run (catalog : NativeSessionCatalog) (operations : List (Operation × Write)) :
    NativeSessionCatalog :=
  operations.foldl perform catalog

@[simp] theorem run_append (catalog : NativeSessionCatalog)
    (before after : List (Operation × Write)) :
    catalog.run (before ++ after) = (catalog.run before).run after :=
  List.foldl_append

@[simp] theorem run_cons (catalog : NativeSessionCatalog) (step : Operation × Write)
    (rest : List (Operation × Write)) :
    catalog.run (step :: rest) = (catalog.perform step).run rest := rfl

end NativeSessionCatalog

end OpenAide.NativeSessions
