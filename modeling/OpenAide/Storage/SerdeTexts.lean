import OpenAide.Storage.Split

/-!
# serde_json with given texts

The split store takes serde_json as a parameter with laws (`Serde`).  `Serde.ofTexts` is an instance
of it: a finite list of values is written as the JSON texts that serde_json writes for them, and
every other value gets some bytes of its own that no JSON text starts with.  Runs of the store on
those values can then be evaluated.
-/

namespace OpenAide

open Library

/-! ## JSON texts -/

namespace Json

/-- A string between quotes, with its own quotes and backslashes escaped. -/
def quote (s : String) : Bytes :=
  34 :: (asciiBytes s).flatMap (fun b => if b = 34 ∨ b = 92 then [92, b] else [b]) ++ [34]

mutual

/-- The text of a value, as `serde_json::to_vec` writes it. -/
def bytes : Json → Bytes
  | null => asciiBytes "null"
  | bool true => asciiBytes "true"
  | bool false => asciiBytes "false"
  | number n => asciiBytes (toString n)
  | decimal text => asciiBytes text
  | string s => quote s
  | array items => 91 :: itemsBytes items ++ [93]
  | object fields => 123 :: fieldsBytes fields ++ [125]

def itemsBytes : List Json → Bytes
  | [] => []
  | [item] => bytes item
  | item :: rest => bytes item ++ 44 :: itemsBytes rest

def fieldsBytes : List (String × Json) → Bytes
  | [] => []
  | [(key, value)] => quote key ++ 58 :: bytes value
  | (key, value) :: rest => quote key ++ 58 :: bytes value ++ 44 :: fieldsBytes rest

end

end Json

example : Json.bytes (.object [("a", .array [.number 12, .null]), ("b", .string "x")]) =
    asciiBytes "\x7b\"a\":[12,null],\"b\":\"x\"\x7d" := by decide +kernel

/-! ## Values without a text -/

instance countableChar : Countable Char :=
  Function.Injective.countable fun _ _ h => Char.ext (UInt32.toNat_inj.mp h)

instance countableString : Countable String :=
  Function.Injective.countable fun _ _ => String.toList_injective

deriving instance Countable for JsonText, ObservedSpan, ChatTiming, ActivityToolLocation,
  ActivityToolContent, ActivityToolLeaf, ActivityToolValue, ActivityToolInput, ActivityToolDetails,
  ActivityStatus, BackgroundCommandOutcome, ToolPermissionDecision, ToolPermissionOutcome, ToolStep,
  CommandStep, SubagentStep, ActivityStep, AgentMessageRole, AgentMessagePart, Attachment,
  UserMessage, AgentMessage, ActivityMessage, PlanMessage, QuestionState, QuestionMessage,
  InterruptionReason, InterruptionMessage, CompactionStatus, CompactionMessage, NormalizedMessage,
  ChatMessage, TaskStatus, TaskLifecycle, TaskNativeSessionCatalogFreshness,
  TaskNativeSessionDataFreshness, TaskConfigMutationState, QueuedMessageRecord,
  TaskMessageQueuePauseRecord, TaskMessageQueueRecord, TaskRecord, StoredMessage, MessageMeta,
  TaskProjection, TaskOperation, JournalFrame, StreamFile, FileName, DurableTaskFile, Chat,
  ChatSnapshotFile

instance : (f : TaskRecord.Field) → Countable f.Value
  | .taskId | .updatedAt | .lastActivity | .agentSessionId | .activeTurnId | .activeTurnStartedAt =>
    inferInstanceAs (Countable String)
  | .taskVersion | .messageHistoryVersion | .revision => inferInstanceAs (Countable Nat)
  | .unread | .tombstoned => inferInstanceAs (Countable Bool)
  | .status => inferInstanceAs (Countable TaskStatus)
  | .messageQueue => inferInstanceAs (Countable TaskMessageQueueRecord)
  | .lifecycle => inferInstanceAs (Countable TaskLifecycle)
  | .nativeSessionDataFreshness => inferInstanceAs (Countable TaskNativeSessionDataFreshness)
  | .configMutation => inferInstanceAs (Countable TaskConfigMutationState)
  | .configOptionsCatalog | .agentCommandsCatalog | .contextUsage | .lastTurnUsage =>
    inferInstanceAs (Countable JsonText)

instance : Countable TaskMetadataPatch :=
  Function.Injective.countable
    fun (a b : TaskMetadataPatch) (h : (a.fields, a.removed) = (b.fields, b.removed)) => by
      cases a; cases b; cases h; rfl

deriving instance Countable for ChatFrame

section Codes

variable {α : Type} [Countable α]

/-- A number for every value. -/
noncomputable def code (a : α) : Nat := (exists_injective_nat α).choose a

open Classical in
noncomputable def ofCode (n : Nat) : Except RuntimeError α :=
  if h : ∃ a : α, code a = n then .ok h.choose else .error (.storage "expected value")

@[simp] theorem ofCode_code (a : α) : ofCode (code a) = .ok a := by
  have h : ∃ b : α, code b = code a := ⟨a, rfl⟩
  rw [ofCode, dif_pos h]
  exact congrArg _ ((exists_injective_nat α).choose_spec h.choose_spec)

end Codes

/-- Bytes for a number; no text begins like them. -/
def codeBytes (n : Nat) : Bytes := 255 :: List.replicate n 0

def codeOfBytes : Bytes → Option Nat
  | [] => none
  | first :: rest => if first = 255 then some rest.length else none

@[simp] theorem codeOfBytes_codeBytes (n : Nat) : codeOfBytes (codeBytes n) = some n := by
  simp [codeBytes, codeOfBytes]

/-- The number a value of the table's form was made from. -/
def Json.code? (value : Json) : Option Nat :=
  match value.get? "code" with
  | some (number n) => some n.toNat
  | _ => none

/-! ## Tables -/

/-- Values with the JSON serde_json gives them. -/
abbrev Table (α : Type) := List (α × Json)

namespace Table

variable {α : Type} (table : Table α)

/-- The entry with a text. -/
def read (bytes : Bytes) : Option (α × Json) := table.find? (·.2.bytes = bytes)

theorem read_bytes {table : Table α} (h : (table.map (·.2.bytes)).Nodup) {e : α × Json}
    (he : e ∈ table) : table.read e.2.bytes = some e := by
  rw [read, List.find?_eq_some_iff_append]
  refine ⟨by simp, ?_⟩
  obtain ⟨before, behind, rfl⟩ := List.append_of_mem he
  refine ⟨before, behind, rfl, fun f hf => ?_⟩
  simp only [List.map_append, List.map_cons, List.nodup_append, List.mem_map] at h
  have := h.2.2 _ ⟨f, hf, rfl⟩ _ List.mem_cons_self
  simpa using this

variable [DecidableEq α] (number : α → Nat)

/-- A value of the table is written as its text, any other as its number. -/
def write (a : α) : Bytes :=
  match table.find? (·.1 = a) with
  | some e => e.2.bytes
  | none => codeBytes (number a)

theorem write_cases (a : α) :
    (∃ json, (a, json) ∈ table ∧ table.write number a = json.bytes) ∨
      table.write number a = codeBytes (number a) := by
  unfold write
  split
  · rename_i e he
    obtain rfl : e.1 = a := by simpa using List.find?_some he
    exact .inl ⟨e.2, List.mem_of_find?_eq_some he, rfl⟩
  · exact .inr rfl

end Table

/-- The values of a split store that have texts.  The laws say that the texts tell them apart, that
none of them looks like a number, and what the JSON of each says about schema and patch. -/
structure Texts where
  taskFiles : Table DurableTaskFile
  snapshots : Table ChatSnapshotFile
  frames : Table ChatFrame
  taskFiles_nodup : (taskFiles.map (·.2.bytes)).Nodup
  snapshots_nodup : (snapshots.map (·.2.bytes)).Nodup
  frames_nodup : (frames.map (·.2.bytes)).Nodup
  disjoint : ∀ e ∈ snapshots, ∀ f ∈ frames, f.2.bytes ≠ e.2.bytes
  taskFiles_text : ∀ e ∈ taskFiles, codeOfBytes e.2.bytes = none
  snapshots_text : ∀ e ∈ snapshots, codeOfBytes e.2.bytes = none ∧ e.2.code? = none
  frames_text : ∀ e ∈ frames, codeOfBytes e.2.bytes = none ∧ e.2.code? = none
  snapshots_schema : ∀ e ∈ snapshots,
    e.2.get? "schemaVersion" = some (.number e.1.schemaVersion)
  frames_schema : ∀ e ∈ frames,
    e.2.get? "schema_version" = some (.number e.1.journal.schemaVersion)
  frames_patch : ∀ e ∈ frames, ∃ patch, e.2.get? "task_patch" = some patch ∧ patch.code? = none ∧
    ∀ f ∈ frames, (f.2.get? "task_patch").map Json.bytes = some patch.bytes →
      f.1.taskPatch = e.1.taskPatch

namespace Texts

variable (t : Texts)

/-- The JSON of a snapshot or a frame without a text. -/
noncomputable def codedSnapshot (snapshot : ChatSnapshotFile) : Json :=
  .object [("schemaVersion", .number snapshot.schemaVersion), ("code", .number (code snapshot))]

noncomputable def codedFrame (frame : ChatFrame) : Json :=
  .object [("schema_version", .number frame.journal.schemaVersion), ("code", .number (code frame)),
    ("task_patch", .object [("code", .number (code frame.taskPatch))])]

/-- `serde_json::from_slice` for a value. -/
noncomputable def parse (bytes : Bytes) : Except RuntimeError Json :=
  match codeOfBytes bytes with
  | some n => do
    match ← (ofCode n : Except RuntimeError (ChatSnapshotFile ⊕ ChatFrame)) with
    | .inl snapshot => return codedSnapshot snapshot
    | .inr frame => return codedFrame frame
  | none =>
    match t.snapshots.read bytes, t.frames.read bytes with
    | some e, _ => .ok e.2
    | none, some e => .ok e.2
    | none, none => .error (.storage "expected value")

noncomputable def taskFileFromSlice (bytes : Bytes) : Except RuntimeError DurableTaskFile :=
  match codeOfBytes bytes, t.taskFiles.read bytes with
  | some n, _ => ofCode n
  | none, some e => .ok e.1
  | none, none => .error (.storage "expected value")

noncomputable def snapshotFromValue (value : Json) : Except RuntimeError ChatSnapshotFile :=
  match value.code?, t.snapshots.read value.bytes with
  | some n, _ => ofCode n
  | none, some e => .ok e.1
  | none, none => .error (.storage "expected value")

noncomputable def journalFrameFromValue (value : Json) : Except RuntimeError JournalFrame :=
  match value.code?, t.frames.read value.bytes with
  | some n, _ => do return (← (ofCode n : Except RuntimeError ChatFrame)).journal
  | none, some e => .ok e.1.journal
  | none, none => .error (.storage "expected value")

noncomputable def patchFromValue (value : Json) : Except RuntimeError TaskMetadataPatch :=
  match value.code?,
    t.frames.find? (fun e => (e.2.get? "task_patch").map Json.bytes = some value.bytes) with
  | some n, _ => ofCode n
  | none, some e => .ok e.1.taskPatch
  | none, none => .error (.storage "expected value")

theorem taskFile_roundTrip (file : DurableTaskFile) :
    t.taskFileFromSlice (t.taskFiles.write code file) = .ok file := by
  rcases t.taskFiles.write_cases code file with ⟨json, hmem, hwrite⟩ | hwrite
  · have hread := Table.read_bytes t.taskFiles_nodup hmem
    simp only [taskFileFromSlice, hwrite, t.taskFiles_text _ hmem, hread]
  · simp only [taskFileFromSlice, hwrite, codeOfBytes_codeBytes, ofCode_code]

/-- The number of a snapshot, of a frame: each kind has its own. -/
noncomputable def snapshotCode (snapshot : ChatSnapshotFile) : Nat :=
  code (.inl snapshot : ChatSnapshotFile ⊕ ChatFrame)

noncomputable def frameCode (frame : ChatFrame) : Nat :=
  code (.inr frame : ChatSnapshotFile ⊕ ChatFrame)

theorem snapshot_roundTrip (snapshot : ChatSnapshotFile) :
    ∃ value, t.parse (t.snapshots.write snapshotCode snapshot) = .ok value ∧
      value.get? "schemaVersion" = some (.number snapshot.schemaVersion) ∧
      t.snapshotFromValue value = .ok snapshot := by
  rcases t.snapshots.write_cases snapshotCode snapshot with ⟨json, hmem, hwrite⟩ | hwrite
  · have hread := Table.read_bytes t.snapshots_nodup hmem
    obtain ⟨hbytes, hcode⟩ := t.snapshots_text _ hmem
    refine ⟨json, ?_, t.snapshots_schema _ hmem, ?_⟩
    · simp only [parse, hwrite, hbytes, hread]
    · simp only [snapshotFromValue, hcode, hread]
  · refine ⟨codedSnapshot snapshot, ?_, rfl, ?_⟩
    · simp only [parse, hwrite, codeOfBytes_codeBytes, snapshotCode, ofCode_code]
      rfl
    · exact ofCode_code snapshot

theorem chatFrame_roundTrip (frame : ChatFrame) :
    ∃ value patch, t.parse (t.frames.write frameCode frame) = .ok value ∧
      value.get? "schema_version" = some (.number frame.journal.schemaVersion) ∧
      t.journalFrameFromValue value = .ok frame.journal ∧
      value.get? "task_patch" = some patch ∧ t.patchFromValue patch = .ok frame.taskPatch := by
  rcases t.frames.write_cases frameCode frame with ⟨json, hmem, hwrite⟩ | hwrite
  · have hread := Table.read_bytes t.frames_nodup hmem
    obtain ⟨hbytes, hcode⟩ := t.frames_text _ hmem
    obtain ⟨patch, hpatch, hpatchCode, hsame⟩ := t.frames_patch _ hmem
    have hsnapshot : t.snapshots.read json.bytes = none := by
      refine List.find?_eq_none.mpr fun e he => ?_
      simpa using fun h => t.disjoint e he _ hmem h.symm
    refine ⟨json, patch, ?_, t.frames_schema _ hmem, ?_, hpatch, ?_⟩
    · simp only [parse, hwrite, hbytes, hread, hsnapshot]
    · simp only [journalFrameFromValue, hcode, hread]
    · have hfound : (t.frames.find? fun e =>
          (e.2.get? "task_patch").map Json.bytes = some patch.bytes).isSome := by
        rw [List.find?_isSome]
        exact ⟨_, hmem, by simp [hpatch]⟩
      obtain ⟨e, he⟩ := Option.isSome_iff_exists.mp hfound
      have htask := hsame e (List.mem_of_find?_eq_some he) (by simpa using List.find?_some he)
      simp only [patchFromValue, hpatchCode, he, htask]
  · refine ⟨codedFrame frame, _, ?_, rfl, ?_, rfl, ?_⟩
    · simp only [parse, hwrite, codeOfBytes_codeBytes, frameCode, ofCode_code]
      rfl
    · show (do return (← (ofCode (code frame) : Except RuntimeError ChatFrame)).journal) = _
      rw [ofCode_code]
      rfl
    · exact ofCode_code frame.taskPatch

end Texts

/-- **serde_json with these texts.** -/
noncomputable def Serde.ofTexts (t : Texts) : Serde where
  parse := t.parse
  taskFileToVec := t.taskFiles.write code
  taskFileFromSlice := t.taskFileFromSlice
  snapshotToVec := t.snapshots.write Texts.snapshotCode
  snapshotFromValue := t.snapshotFromValue
  chatFrameToVec := t.frames.write Texts.frameCode
  journalFrameFromValue := t.journalFrameFromValue
  patchFromValue := t.patchFromValue
  taskFile_roundTrip := t.taskFile_roundTrip
  snapshot_roundTrip := t.snapshot_roundTrip
  chatFrame_roundTrip := t.chatFrame_roundTrip

end OpenAide
