import OpenAide.Storage.HistoryVersion
import OpenAide.Tasks.JournalOperations

/-!
# Task snapshots

`tasks/snapshot.rs` builds a Task snapshot from two reads of storage, the Task record and the tail
page of the Chat (`message_store.rs:97-215`), with commits going on in between.  It takes the reads
for those of one state if the record's history version is the page's, and tries again otherwise.
That is right as long as the history version tells the states apart, which the batches have to see
to (`Versioned`).  What a page shows of a Tool step may be read out of the step's artifact; the
results hold for every way to show a step.

- `versionedOn_draft`: what mutations commit is versioned;
- `soundEntry_of_reachable`, `version_commits`: the invariant and what a run of commits does to it;
- `snapshot_of_one_projection`: **a snapshot shows the record and the page of one projection**, if
  every batch is versioned;
- `snapshot_of_two_projections`: a Task created with different versions gives a snapshot of two.
-/

namespace OpenAide

open Library Projection

/-! ## Chat pages -/

/-- `MessagePage` (`protocol/model.rs`). -/
structure MessagePage where
  taskId : String
  items : List ChatMessage
  startCursor : Option String
  endCursor : Option String
  hasBefore : Bool
  totalCount : Nat
  version : Nat
  deriving DecidableEq

namespace ChatPage

def TARGET_CHAT_TURNS : Nat := 10

def MAX_SEMANTIC_WINDOW_RECORDS : Nat := 500

/-- Rows that a page does not begin with if it can help it. -/
def continuesRun : NormalizedMessage → Bool
  | .activity _ => true
  | .agentMessage { role := .thought, .. } => true
  | _ => false

def isUser : NormalizedMessage → Bool
  | .user _ => true
  | _ => false

/-- The scan for the start of the tenth turn from the end, over rows with their index, the last
first: the earliest user row found. -/
def turnStart : (turns : Nat) → (found : Option Nat) → List (StoredMessage × Nat) → Option Nat
  | _, found, [] => found
  | turns, found, (stored, index) :: rest =>
    if isUser stored.chat.message then
      if turns + 1 = TARGET_CHAT_TURNS then some index else turnStart (turns + 1) (some index) rest
    else turnStart turns found rest

/-- The backward walk over activity and thoughts, from `index` down. -/
def runStart (messages : List StoredMessage) : (index : Nat) → Nat
  | 0 => 0
  | index + 1 =>
    if (messages[index + 1]?).any (continuesRun ·.chat.message) then runStart messages index
    else index + 1

/-- `chat_page_start` (`message_store.rs:351`). -/
def chatPageStart (messages : List StoredMessage) (requestedStart finish : Nat) : Nat :=
  if requestedStart = 0 ∨ messages.length ≤ requestedStart then requestedStart
  else
    let window := (messages.zipIdx.take finish).drop (finish - MAX_SEMANTIC_WINDOW_RECORDS)
    let requestedStart := ((turnStart 0 none window.reverse).map (min requestedStart)).getD
      requestedStart
    if !(messages[requestedStart]?).any (continuesRun ·.chat.message) then requestedStart
    else
      let start := runStart messages requestedStart
      if (messages[start]?).any (isUser ·.chat.message) then start else start + 1

/-- `with_lightweight_tool_summaries` (`message_store.rs:217`): `summarized` is what is shown of a
Tool step, with the artifacts as they are when the page is built. -/
def withLightweightToolSummaries (summarized : ToolStep → ToolStep) (message : ChatMessage) :
    ChatMessage :=
  match message.message with
  | .activity activity =>
    let steps := activity.steps.map fun
      | .tool step => .tool (summarized step)
      | step => step
    { message with message := .activity { activity with steps } }
  | _ => message

section Pages

variable (summarized : ToolStep → ToolStep) (p : TaskProjection)

/-- `page_from_projection` (`message_store.rs:184`). -/
def pageFromProjection (start finish : Nat) : MessagePage :=
  let items := ((p.messages.take finish).drop start).map fun stored =>
    withLightweightToolSummaries summarized stored.chat
  { taskId := p.task.taskId
    items
    startCursor := items.head?.map (·.cursor)
    endCursor := items.getLast?.map (·.cursor)
    hasBefore := 0 < start
    totalCount := p.messages.length
    version := p.messageMeta.version }

/-- The page of at most `limit` rows before `finish`, but for the rows its start is moved over. -/
def pageTo (limit finish : Nat) : MessagePage :=
  let limit := max 1 (min limit 500)
  pageFromProjection summarized p (chatPageStart p.messages (finish - limit) finish) finish

/-- The tail page of a projection (`tail_page`, `message_store.rs:97`). -/
def tailPageOf (limit : Nat) : MessagePage := pageTo summarized p limit p.messages.length

end Pages

end ChatPage

/-! ## Reading a snapshot -/

namespace Snapshot

open ChatPage

/-- `read_task`: the record of the projection in memory. -/
def readTask (entry : Option RecoveredTask) (taskId : String) : Except RuntimeError TaskRecord := do
  let (p, _) ← availableProjection entry taskId
  return p.task

/-- `tail_page`. -/
def tailPage (summarized : ToolStep → ToolStep) (entry : Option RecoveredTask) (taskId : String)
    (limit : Nat) : Except RuntimeError MessagePage := do
  let (p, _) ← availableProjection entry taskId
  return tailPageOf summarized p limit

/-- `TaskSnapshot`: the record's fields and the page. -/
structure TaskSnapshot where
  task : TaskRecord
  chat : MessagePage
  deriving DecidableEq

/-- What the two reads of one attempt find in storage, and what the second one shows of a Tool
step. -/
structure Reads where
  task : Option RecoveredTask
  chat : Option RecoveredTask
  summarized : ToolStep → ToolStep

def CONSISTENT_SNAPSHOT_READ_ATTEMPTS : Nat := 4

/-- The attempts that are left. -/
def attempts (taskId : String) (limit : Nat) : List Reads → Except RuntimeError TaskSnapshot
  | [] => .error (.storage
      s!"Task snapshot did not stabilize after {CONSISTENT_SNAPSHOT_READ_ATTEMPTS} reads")
  | reads :: rest => do
    let task ← readTask reads.task taskId
    let chat ← tailPage reads.summarized reads.chat taskId limit
    if task.messageHistoryVersion ≠ chat.version then attempts taskId limit rest
    else return { task, chat }

/-- `build_snapshot` (`snapshot.rs:8`). -/
def buildSnapshot (taskId : String) (limit : Nat)
    (reads : Fin CONSISTENT_SNAPSHOT_READ_ATTEMPTS → Reads) : Except RuntimeError TaskSnapshot :=
  attempts taskId limit (List.ofFn reads)

/-! ## Runs of versioned commits -/

/-- What a reachable entry of a Task is like. -/
structure Sound (taskId : String) (p : TaskProjection) : Prop where
  identified : p.task.taskId = taskId
  aligned : p.Aligned

variable {taskId : String} {p : TaskProjection} {operations : List TaskOperation}

theorem sound_commit {q : TaskProjection} {n m sequence : Nat} (h : Sound taskId p)
    (hversioned : VersionedOn p operations)
    (hvalid : validateOperations (some (.available p n)) taskId operations = .ok ())
    (happly : applyOperations (some (.available p n)) taskId operations sequence =
      .ok (.available q m)) :
    Sound taskId q ∧ p.messageMeta.version ≤ q.messageMeta.version ∧
      (q.messages = p.messages ∨ p.messageMeta.version < q.messageMeta.version) := by
  have hops := validateOperations_available hvalid
  have hcreate : ∀ op ∈ operations, op.isCreate = false := fun op hop => (hops op hop).1
  obtain ⟨haligned, hle, hrows⟩ := version_applyOperations h.aligned hversioned hcreate happly
  obtain ⟨c, -, heq⟩ := applyOperations_eq_ok hcreate happly
  cases heq
  refine ⟨⟨?_, haligned⟩, hle, hrows⟩
  have hid : (applyTask p.task operations c.messageMeta.version).taskId =
      (lastTask p.task operations).taskId :=
    TaskRecord.taskId_of_unversioned_eq (unversioned_applyTask hcreate p.task _)
  exact hid.trans (taskId_lastTask (fun op hop => (hops op hop).2) h.identified)

/-- The entry is no Task or a sound one. -/
def SoundEntry (taskId : String) (entry : Option RecoveredTask) : Prop :=
  ∀ p n, entry = some (.available p n) → Sound taskId p

/-- Creating a Task. -/
theorem sound_create {rest : List TaskOperation} (haligned : p.Aligned)
    (hvalid : validateOperations none taskId (.create p :: rest) = .ok ()) : Sound taskId p := by
  obtain ⟨last, hfold⟩ := validateOperations_missing_iff.mp hvalid
  obtain ⟨middle, hop, -⟩ := foldlM_cons_eq_ok.mp hfold
  simp only [validateOperation, Option.isSome_none, Bool.false_eq_true, if_false] at hop
  split at hop
  · cases hop
  · rename_i hids
    exact ⟨by simpa using (not_or.mp hids).1, haligned⟩

variable {entry : Option RecoveredTask}

/-- **Versioned commits keep every entry sound.** -/
theorem soundEntry_commit {next : Option RecoveredTask} (h : SoundEntry taskId entry)
    (hcommit : Commit taskId Versioned entry next) : SoundEntry taskId next := by
  obtain ⟨hversioned, hvalid, happly⟩ := hcommit
  intro q m heq
  cases heq
  cases entry with
  | none =>
    obtain rfl | ⟨p, rest, rfl, hrest⟩ := validateOperations_none hvalid
    · cases happly
    · rw [applyOperations_create] at happly
      have hp := sound_create hversioned.1 hvalid
      exact (sound_commit hp hversioned.2 (hrest _) happly).1
  | some task =>
    cases task with
    | available p n => exact (sound_commit (h p n rfl) hversioned hvalid happly).1
    | unavailable error => cases hvalid

theorem soundEntry_of_reachable (h : Reachable taskId Versioned entry) :
    SoundEntry taskId entry := by
  induction h with
  | refl => exact fun _ _ heq => nomatch heq
  | tail _ hcommit ih => exact soundEntry_commit ih hcommit

theorem version_commits {n : Nat} {later : Option RecoveredTask} (hp : Sound taskId p)
    (h : Relation.ReflTransGen (Commit taskId Versioned) (some (.available p n)) later) :
    ∃ q m, later = some (.available q m) ∧ Sound taskId q ∧
      p.messageMeta.version ≤ q.messageMeta.version ∧
      (q.messages = p.messages ∨ p.messageMeta.version < q.messageMeta.version) := by
  induction h with
  | refl => exact ⟨p, n, rfl, hp, le_rfl, .inl rfl⟩
  | tail _ hcommit ih =>
    obtain ⟨q, m, rfl, hq, hle, hrows⟩ := ih
    obtain ⟨hversioned, hvalid, happly⟩ := hcommit
    rename_i operations sequence next
    obtain ⟨c, -, rfl⟩ := applyOperations_eq_ok
      (fun op hop => (validateOperations_available hvalid op hop).1) happly
    obtain ⟨hsound, hle', hrows'⟩ := sound_commit hq hversioned hvalid happly
    refine ⟨_, _, rfl, hsound, hle.trans hle', ?_⟩
    rcases hrows' with hrows' | hlt
    · exact hrows.imp (hrows'.trans ·) (·.trans_le hle')
    · exact .inr (hle.trans_lt hlt)

/-! ## What mutations commit -/

section Drafts

open TaskMutationContext Mutation JournalOperations

variable (ctx : TaskMutationContext)

/-- The version and the recorded changes are as they were, or a change is recorded and the version
advances. -/
def Advances (ctx' : TaskMutationContext) : Prop :=
  (ctx'.projection.messageMeta = ctx.projection.messageMeta ∧ ctx'.chatChanges = ctx.chatChanges) ∨
    ctx'.chatChanges ≠ [] ∧
      saturatingAdd ctx.projection.messageMeta.version 1 ≤ ctx'.projection.messageMeta.version

theorem advances_record (messages : List StoredMessage) {changes : List CommittedChatChange}
    (hchanges : changes ≠ []) (now minimumUpdatedAt : Nat) :
    Advances ctx (ctx.record messages changes now minimumUpdatedAt) :=
  .inr ⟨List.append_ne_nil_of_right_ne_nil _ hchanges, le_max_left _ _⟩

theorem advances_recordChanged (messages changed : List StoredMessage) (now : Nat) :
    Advances ctx (ctx.recordChanged messages changed now) := by
  unfold recordChanged
  split
  · exact .inl ⟨rfl, rfl⟩
  · rename_i hchanged
    exact advances_record ctx _ (by simpa using hchanged) now 0

theorem advances_perform (mutation : TaskMutation) : Advances ctx (ctx.perform mutation) := by
  cases mutation with
  | editTask f => exact .inl ⟨rfl, rfl⟩
  | appendMessage message now => exact advances_record (ctx.replaceArtifacts _) _ (by simp) now 0
  | appendChatMessage message now => exact advances_record ctx _ (by simp) now 0
  | appendTerminal append => exact .inl ⟨rfl, rfl⟩
  | recordToolPermissionOutcome activityIdentity toolCallId outcome now =>
    exact advances_recordChanged ctx _ _ now
  | upsertMessageWithDetails message observedAt now =>
    simp only [perform, upsertMessageWithDetails]
    split <;> exact advances_record (ctx.replaceArtifacts _) _ (by simp) now 0
  | appendAgentMessagePart message now =>
    simp only [perform]
    split
    · rename_i ctx' h
      unfold appendAgentMessagePart at h
      simp only at h
      split at h
      · obtain ⟨part, -, heq⟩ := bind_eq_ok.mp h
        cases heq
        exact advances_record ctx _ (by simp) now 0
      · cases h
        exact advances_record ctx _ (by simp) now 0
    · exact .inl ⟨rfl, rfl⟩
  | replaceMessagesFromNativeSession messages nativeUpdatedAt newId now =>
    exact advances_record (ctx.replaceArtifacts _) _ (by simp) now nativeUpdatedAt
  | finishRunningActivities status observedAt now => exact advances_recordChanged ctx _ _ now
  | finishRunningActivity identity status observedAt now => exact advances_recordChanged ctx _ _ now
  | closeTurnOnFinalAnswer endedAt now =>
    simp only [perform, closeTurnOnFinalAnswer]
    split
    · exact .inl ⟨rfl, rfl⟩
    · split
      · exact .inl ⟨rfl, rfl⟩
      · exact advances_record ctx _ (by simp) now 0
  | closeTurnOnLastRow endedAt now =>
    simp only [perform, closeTurnOnLastRow]
    split
    · exact advances_record ctx _ (by simp) now 0
    · exact .inl ⟨rfl, rfl⟩

theorem version_draft (hbound : p.messageMeta.version + 1 < 2 ^ 64)
    (mutations : List TaskMutation) :
    ((draft p mutations).projection.messageMeta = p.messageMeta ∧
      (draft p mutations).chatChanges = []) ∨
    (draft p mutations).chatChanges ≠ [] ∧
      p.messageMeta.version < (draft p mutations).projection.messageMeta.version := by
  induction mutations using List.reverseRecOn with
  | nil => exact .inl ⟨rfl, rfl⟩
  | append_singleton mutations mutation ih =>
    have hlast : draft p (mutations ++ [mutation]) = (draft p mutations).perform mutation := by
      simp [draft]
    rw [hlast]
    rcases advances_perform (draft p mutations) mutation with ⟨hmeta, hchanges⟩ | hadvance
    · rw [hmeta, hchanges]
      exact ih
    · refine .inr ⟨hadvance.1, ?_⟩
      have hadvance := hadvance.2
      simp only [saturatingAdd] at hadvance
      rcases ih with ⟨hmeta, -⟩ | ⟨-, hlt⟩
      · rw [hmeta] at hadvance
        omega
      · omega

theorem version?_delta {projection : TaskProjection}
    {appended upserted emitted emitted' : List String} {change : CommittedChatChange}
    (h : delta projection appended upserted emitted change = .ok (operations, emitted')) :
    ∀ op ∈ operations, op.version? = none := by
  unfold delta at h
  repeat' split at h
  all_goals
    cases h
    try simp [TaskOperation.version?]

theorem version?_deltas {projection : TaskProjection} {appended upserted : List String}
    {changes : List CommittedChatChange} {emitted : List String}
    (h : deltas projection appended upserted emitted changes = .ok operations) :
    ∀ op ∈ operations, op.version? = none := by
  induction changes generalizing emitted operations with
  | nil =>
    cases h
    exact fun _ hop => (List.not_mem_nil hop).elim
  | cons change rest ih =>
    obtain ⟨⟨first, emitted'⟩, hfirst, hrest⟩ := bind_eq_ok.mp h
    obtain ⟨others, hothers, heq⟩ := bind_eq_ok.mp hrest
    cases heq
    intro op hop
    rcases List.mem_append.mp hop with hop | hop
    · exact version?_delta hfirst op hop
    · exact ih hothers op hop

theorem sets_after_record (init : List TaskOperation) {before after : List TaskOperation}
    {last : TaskOperation} {task : TaskRecord} (hlast : last.version?.isSome)
    (h : init ++ [last] = before ++ .replaceTask task :: after) :
    ∃ op ∈ after, op.version?.isSome := by
  rcases List.eq_nil_or_concat after with rfl | ⟨front, op, rfl⟩
  · obtain ⟨-, heq⟩ := List.append_inj' h rfl
    cases heq
    cases hlast
  · refine ⟨op, by simp, ?_⟩
    have hlists : init ++ [last] = (before ++ .replaceTask task :: front) ++ [op] := by
      rw [h]
      simp
    obtain ⟨-, heq⟩ := List.append_inj' hlists rfl
    cases heq
    exact hlast

/-- **What a mutation commits is versioned**: the operations that `persist_changed_projection` makes
of its draft, whether or not it refreshes the history version of the record.  The draft itself
leaves that version alone (`validate_task_invariants`). -/
theorem versionedOn_draft (haligned : p.Aligned) (hbound : p.messageMeta.version + 1 < 2 ^ 64)
    {mutations : List TaskMutation} (refresh : Bool)
    (hvalid : (draft p mutations).projection.task.messageHistoryVersion =
      p.task.messageHistoryVersion)
    (h : journalOperations
      { (draft p mutations).projection with
        task := committedRecord refresh p.task (draft p mutations).projection }
      (committedChat p.task (committedRecord refresh p.task (draft p mutations).projection)
        (draft p mutations).chatChanges) = .ok operations) : VersionedOn p operations := by
  have hversion := version_draft hbound mutations
  generalize draft p mutations = ctx at *
  -- without a Chat change the metadata is the same, so that a refresh changes nothing
  have hrecord : ctx.chatChanges = [] →
      (committedRecord refresh p.task ctx.projection).messageHistoryVersion =
        p.task.messageHistoryVersion := by
    intro hnone
    obtain ⟨hmeta, -⟩ := hversion.resolve_right fun hlt => hlt.1 hnone
    cases refresh
    · exact hvalid
    · exact (congrArg _ hmeta).trans haligned.symm
  have hchat : committedChat p.task (committedRecord refresh p.task ctx.projection)
      ctx.chatChanges = ctx.chatChanges := by
    refine if_neg fun hreplaced => hreplaced.1 (hrecord ?_)
    simpa using hreplaced.2
  rw [hchat] at h
  unfold journalOperations at h
  split at h
  · -- no Chat change: the record alone, with the version it had
    rename_i hnone
    cases h
    refine ⟨fun op hop => ?_, fun before task after heq => .inr (.inr ?_)⟩
    · rw [List.mem_singleton.mp hop]
      trivial
    · cases before with
      | nil =>
        cases heq
        exact ⟨fun _ hop => (List.not_mem_nil hop).elim,
          (hrecord (by simpa using hnone)).trans haligned⟩
      | cons op rest => simp at heq
  · rename_i hne
    have hlt : p.messageMeta.version < ctx.projection.messageMeta.version := by
      refine (hversion.resolve_left fun hidle => hne ?_).2
      rw [hidle.2]
      rfl
    split at h
    · cases h
      refine ⟨fun op hop => ?_, fun before task after heq => .inr (.inl ?_)⟩
      · rcases List.mem_pair.mp hop with rfl | rfl
        · trivial
        · exact hlt
      · exact sets_after_record [.replaceTask _] rfl heq
    · obtain ⟨rows, hrows, heq⟩ := bind_eq_ok.mp h
      cases heq
      refine ⟨fun op hop => ?_, fun before task after heq => .inr (.inl ?_)⟩
      · rcases List.mem_append.mp hop with hop | hop
        · rcases List.mem_cons.mp hop with rfl | hop
          · trivial
          · exact raises_of_version?_none (version?_deltas hrows op hop)
        · rw [List.mem_singleton.mp hop]
          exact hlt
      · exact sets_after_record (.replaceTask _ :: rows) rfl heq

open JournalOperations.Example (first projection)

/-- An appended message whose commit refreshes the version of the record, as those of the Chat do.
-/
theorem versionedOn_draft_append :
    let ctx := draft projection [first]
    let task := committedRecord true projection.task ctx.projection
    task.messageHistoryVersion = 1 ∧ ∃ operations,
      journalOperations { ctx.projection with task }
        (committedChat projection.task task ctx.chatChanges) = .ok operations ∧
      operations.length = 3 ∧ VersionedOn projection operations := by
  have h : journalOperations
      { (draft projection [first]).projection with
        task := committedRecord true projection.task (draft projection [first]).projection }
      (committedChat projection.task
        (committedRecord true projection.task (draft projection [first]).projection)
        (draft projection [first]).chatChanges) = .ok _ := rfl
  exact ⟨rfl, _, h, rfl, versionedOn_draft rfl (by decide) true rfl h⟩

end Drafts

/-! ## One projection -/

theorem readTask_eq_ok {task : TaskRecord} (h : readTask entry taskId = .ok task) :
    ∃ p n, entry = some (.available p n) ∧ task = p.task := by
  cases entry with
  | none => cases h
  | some recovered =>
    cases recovered with
    | available p n =>
      cases h
      exact ⟨p, n, rfl, rfl⟩
    | unavailable error => cases h

theorem tailPageOf_congr {q : TaskProjection} (hid : q.task.taskId = p.task.taskId)
    (hmessages : q.messages = p.messages) (hversion : q.messageMeta.version = p.messageMeta.version)
    (summarized : ToolStep → ToolStep) (limit : Nat) :
    tailPageOf summarized q limit = tailPageOf summarized p limit := by
  simp only [tailPageOf, pageTo, pageFromProjection, hid, hmessages, hversion]

/-- **Reads with equal versions are reads of one projection.** -/
theorem tailPage_of_version_eq {limit : Nat} {n : Nat} {later : Option RecoveredTask}
    {summarized : ToolStep → ToolStep} {chat : MessagePage} (hp : Sound taskId p)
    (hcommits : Relation.ReflTransGen (Commit taskId Versioned) (some (.available p n)) later)
    (hchat : tailPage summarized later taskId limit = .ok chat)
    (hversion : p.task.messageHistoryVersion = chat.version) :
    chat = tailPageOf summarized p limit := by
  obtain ⟨q, m, rfl, hq, -, hrows⟩ := version_commits hp hcommits
  cases hchat
  have hsame : q.messageMeta.version = p.messageMeta.version := hversion.symm.trans hp.aligned
  have hmessages : q.messages = p.messages := hrows.resolve_right (by omega)
  exact tailPageOf_congr (hq.identified.trans hp.identified.symm) hmessages hsame summarized limit

theorem attempts_eq_ok {limit : Nat} {reads : List Reads}
    (hreads : ∀ r ∈ reads, Reachable taskId Versioned r.task ∧
      Relation.ReflTransGen (Commit taskId Versioned) r.task r.chat) {snapshot : TaskSnapshot}
    (h : attempts taskId limit reads = .ok snapshot) :
    ∃ r ∈ reads, ∃ p n, r.task = some (.available p n) ∧ snapshot.task = p.task ∧
      snapshot.chat = tailPageOf r.summarized p limit := by
  induction reads with
  | nil => cases h
  | cons r rest ih =>
    obtain ⟨task, htask, hrest⟩ := bind_eq_ok.mp h
    obtain ⟨chat, hchat, hend⟩ := bind_eq_ok.mp hrest
    obtain ⟨p, n, hentry, rfl⟩ := readTask_eq_ok htask
    split at hend
    · obtain ⟨r', hr', hp'⟩ := ih (fun r' hr' => hreads r' (List.mem_cons_of_mem _ hr')) hend
      exact ⟨r', List.mem_cons_of_mem _ hr', hp'⟩
    · rename_i hversion
      cases hend
      obtain ⟨hreach, hcommits⟩ := hreads r List.mem_cons_self
      have hp := soundEntry_of_reachable hreach p n hentry
      refine ⟨r, List.mem_cons_self, p, n, hentry, rfl, ?_⟩
      exact tailPage_of_version_eq hp (hentry ▸ hcommits) hchat (not_not.mp hversion)

/-- **Snapshot reads are consistent** if every batch is versioned: in every projection reached the
two history versions agree, a commit that changes the rows raises them, and a snapshot that is
returned, whatever was committed between the two reads of each attempt, shows the record and the
tail page of one committed projection. -/
theorem snapshot_of_one_projection (taskId : String) (limit : Nat) :
    (∀ p n, Reachable taskId Versioned (some (.available p n)) → p.Aligned) ∧
    (∀ p n q m, Reachable taskId Versioned (some (.available p n)) →
      Commit taskId Versioned (some (.available p n)) (some (.available q m)) →
      q.messages ≠ p.messages → p.messageMeta.version < q.messageMeta.version) ∧
    ∀ reads : Fin CONSISTENT_SNAPSHOT_READ_ATTEMPTS → Reads,
      (∀ i, Reachable taskId Versioned (reads i).task ∧
        Relation.ReflTransGen (Commit taskId Versioned) (reads i).task (reads i).chat) →
      ∀ snapshot, buildSnapshot taskId limit reads = .ok snapshot →
        ∃ i p n, (reads i).task = some (.available p n) ∧ snapshot.task = p.task ∧
          snapshot.chat = tailPageOf (reads i).summarized p limit := by
  refine ⟨fun p n h => (soundEntry_of_reachable h p n rfl).aligned, ?_, ?_⟩
  · intro p n q m hreach hcommit hne
    obtain ⟨q', m', heq, -, -, hrows⟩ :=
      version_commits (soundEntry_of_reachable hreach p n rfl) (.single hcommit)
    cases heq
    exact hrows.resolve_left hne
  · intro reads hreads snapshot h
    have hall : ∀ r ∈ List.ofFn reads, Reachable taskId Versioned r.task ∧
        Relation.ReflTransGen (Commit taskId Versioned) r.task r.chat := by
      intro r hr
      obtain ⟨i, rfl⟩ := (List.mem_ofFn' reads r).mp hr
      exact hreads i
    obtain ⟨r, hr, p, n, hp⟩ := attempts_eq_ok hall h
    obtain ⟨i, rfl⟩ := (List.mem_ofFn' reads r).mp hr
    exact ⟨i, p, n, hp⟩

namespace Example

/-- A Task with one Agent row, whose record gives its history the version `version`. -/
def start (version : Nat) : TaskProjection :=
  let p := Projection.Example.created [Projection.Example.row 1 "a"]
  { p with task := p.task.withVersion version }

/-- A record that brings a new revision, then streamed text (`store.rs:360`). -/
def text (version : Nat) : List TaskOperation :=
  [.replaceTask { (start version).task with taskVersion := 2, revision := 1, updatedAt := "2" },
    .appendText "acp:s:message:m" "b" "2" (some "2")]

/-- The Task with the text. -/
def extended : TaskProjection where
  task := { (start 1).task with taskVersion := 2, revision := 1, updatedAt := "2" }
  messages := [Projection.Example.row 1 "ab"]
  messageMeta := ⟨"t", 1, 1, "2", none, none⟩

def before (version : Nat) : Option RecoveredTask := some (.available (start version) 1)

def after : Option RecoveredTask := some (.available extended 2)

theorem versioned_text : Versioned (before 0) (text 0) where
  raises op hop := by
    rcases List.mem_cons.mp hop with rfl | hop
    · trivial
    · rw [List.mem_singleton.mp hop]
      trivial
  records _ _ _ _ := .inl rfl

theorem commit_text {allowed : Option RecoveredTask → List TaskOperation → Prop} {version : Nat}
    (hversion : version ≤ 1) (hallowed : allowed (before version) (text version)) :
    Commit "t" allowed (before version) after := by
  have hvalid : validateOperations (before version) "t" (text version) = .ok () := by
    interval_cases version <;> decide +kernel
  have happly : applyOperations (before version) "t" (text version) 2 =
      .ok (.available extended 2) := by
    interval_cases version <;> decide +kernel
  exact .intro hallowed hvalid happly

theorem commit_create {allowed : Option RecoveredTask → List TaskOperation → Prop} {version : Nat}
    (hallowed : allowed none [.create (start version)]) :
    Commit "t" allowed none (before version) := by
  have hvalid : validateOperations none "t" [.create (start version)] = .ok () := rfl
  exact .intro hallowed hvalid rfl

theorem versioned_create : Versioned none [.create (start 0)] := by
  refine ⟨rfl, fun op hop => (List.not_mem_nil hop).elim, fun front task rest h => ?_⟩
  simp at h

/-- Record before and Chat after the text at first, then both after it. -/
def reads (version : Nat) (i : Fin CONSISTENT_SNAPSHOT_READ_ATTEMPTS) : Reads :=
  if i.val = 0 then ⟨before version, after, id⟩ else ⟨after, after, id⟩

end Example

open Example

/-- Text is committed between the first two reads; the second attempt sees one projection. -/
theorem snapshot_of_one_projection_text :
    ∃ snapshot, buildSnapshot "t" 100 (reads 0) = .ok snapshot ∧
      ∃ i p n, (reads 0 i).task = some (.available p n) ∧ snapshot.task = p.task ∧
        snapshot.chat = tailPageOf (reads 0 i).summarized p 100 := by
  have hcreate : Commit "t" Versioned none (before 0) :=
    commit_create versioned_create
  have htext : Commit "t" Versioned (before 0) after :=
    commit_text (Nat.zero_le _) versioned_text
  have hreads : ∀ i, Reachable "t" Versioned (reads 0 i).task ∧
      Relation.ReflTransGen (Commit "t" Versioned) (reads 0 i).task
        (reads 0 i).chat := by
    intro i
    unfold reads
    split
    · exact ⟨.single hcreate, .single htext⟩
    · exact ⟨.tail (.single hcreate) htext, .refl⟩
  have hok : buildSnapshot "t" 100 (reads 0) =
      .ok ⟨extended.task, tailPageOf id extended 100⟩ := by
    decide +kernel
  exact ⟨_, hok, (snapshot_of_one_projection "t" 100).2.2 _ hreads _ hok⟩

/-- A Task created with history version 1 in its record and 0 in its metadata is accepted.  Its
record read before a text and its Chat read after it agree in the version 1, and the snapshot is of
neither projection. -/
theorem snapshot_of_two_projections :
    Reachable "t" (fun _ _ => True) (before 1) ∧
    Commit "t" (fun _ _ => True) (before 1) after ∧
    ¬ (start 1).Aligned ∧
    ∃ snapshot, buildSnapshot "t" 100 (reads 1) = .ok snapshot ∧
      snapshot.chat ≠ tailPageOf id (start 1) 100 ∧
      snapshot.task ≠ extended.task := by
  refine ⟨.single (commit_create trivial), commit_text le_rfl trivial,
    by simp [TaskProjection.Aligned, start, Projection.Example.created], ?_⟩
  refine ⟨⟨(start 1).task, tailPageOf id extended 100⟩, by decide +kernel, ?_, ?_⟩
  · decide +kernel
  · decide +kernel

end Snapshot

end OpenAide
