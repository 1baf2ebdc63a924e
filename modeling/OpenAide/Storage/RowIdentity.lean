import OpenAide.Storage.Rows

/-!
# Row identity in stored projections

Which projections the journal can reach, and whether their rows can be told apart.  Every operation
that edits rows checks the identities it brings (`projection.rs:359-424`); `Create` and
`ReplaceProjection` install a whole projection and check only its Task ids
(`projection.rs:29-43`, `56-70`).

- `distinct_applyOperations`: one batch keeps the rows apart if what it installs has distinct rows;
- `applies_of_validates`: a batch that validates applies, the shadow following the real rows up to
  the text appended to them (`Alike`);
- `distinct_rows_of_distinct_installs`: **the rows of every reachable projection are distinct** if
  those of the installed ones are, and validation promises application;
- `create_with_equal_rows`: without that condition two rows of one identity are accepted.
-/

namespace OpenAide

open Library

namespace TaskOperation

/-- A whole projection that the operation puts in place has distinct rows. -/
def InstallsDistinct : TaskOperation → Prop
  | create p => Distinct p.messages
  | replaceProjection p => Distinct p.messages
  | _ => True

end TaskOperation

namespace Projection

/-- One batch of operations that `validate_operations` accepts and that is applied to the entry of a
Task, if `allowed` allows it there. -/
inductive Commit (taskId : String) (allowed : Option RecoveredTask → List TaskOperation → Prop) :
    Option RecoveredTask → Option RecoveredTask → Prop
  | intro {entry : Option RecoveredTask} {operations : List TaskOperation} {sequence : Nat}
      {next : RecoveredTask} (allows : allowed entry operations)
      (validates : validateOperations entry taskId operations = .ok ())
      (applies : applyOperations entry taskId operations sequence = .ok next) :
      Commit taskId allowed entry (some next)

/-- What batch after batch leads to, from no entry at all. -/
def Reachable (taskId : String) (allowed : Option RecoveredTask → List TaskOperation → Prop) :
    Option RecoveredTask → Prop :=
  Relation.ReflTransGen (Commit taskId allowed) none

/-- Everything the batch installs has distinct rows. -/
def InstallsDistinct (_ : Option RecoveredTask) (operations : List TaskOperation) : Prop :=
  ∀ op ∈ operations, op.InstallsDistinct

/-! ## Rows stay apart -/

variable {messages : List StoredMessage}

theorem distinct_set (h : Distinct messages) {index : Nat} {message : StoredMessage}
    (hlt : index < messages.length)
    (hidentity : messages[index].chat.identity = message.chat.identity)
    (hcollides : collides messages index message = false) :
    Distinct (messages.set index message) := by
  have hothers : ∀ i (hi : i < messages.length), i ≠ index →
      messages[i].sequence ≠ message.sequence ∧
        messages[i].chat.messageId ≠ message.chat.messageId := by
    intro i hi hne
    have hrow := List.any_eq_false.mp hcollides (messages[i], i)
      (List.mk_mem_zipIdx_iff_getElem?.mpr (List.getElem?_eq_getElem hi))
    simpa [hne, not_or] using hrow
  constructor
  · rw [List.map_set]
    refine nodup_set h.sequences fun i hi hne => ?_
    simpa using (hothers i (by simpa using hi) hne).1
  · rw [List.map_set]
    have hrow : index < (messages.map (·.chat.identity)).length := by simpa using hlt
    refine nodup_set h.identities fun i hi hne heq => hne ?_
    have hsame : (messages.map (·.chat.identity))[i] = (messages.map (·.chat.identity))[index] := by
      rw [heq, List.getElem_map, hidentity]
    exact h.identities.getElem_inj_iff.mp hsame
  · rw [List.map_set]
    refine nodup_set h.messageIds fun i hi hne => ?_
    simpa using (hothers i (by simpa using hi) hne).2

theorem distinct_upsertMessage {rows : List StoredMessage} {message : StoredMessage}
    (h : Distinct messages) (hupsert : upsertMessage messages message = .ok rows) :
    Distinct rows := by
  unfold upsertMessage at hupsert
  split at hupsert
  · rename_i index hindex
    obtain ⟨hlt, hidentity, -⟩ := List.findIdx?_eq_some_iff_getElem.mp hindex
    split at hupsert
    · cases hupsert
    · rename_i hcollides
      cases hupsert
      exact distinct_set h hlt (of_decide_eq_true hidentity) (Bool.not_eq_true _ ▸ hcollides)
  · obtain ⟨⟨⟩, happend, heq⟩ := bind_eq_ok.mp hupsert
    cases heq
    exact distinct_append h happend

theorem distinct_appendText {rows : List StoredMessage} {identity chunk : String}
    (h : Distinct messages) (happend : appendText messages identity chunk = .ok rows) :
    Distinct rows := by
  obtain ⟨⟨⟩, -, heq⟩ := bind_eq_ok.mp happend
  cases heq
  exact distinct_of_sameKeys
    (sameKeys_updateFirst (sameKeys_appendToMessage chunk) messages identity) h

variable {taskId : String} {c : Chat}

theorem distinct_editChat {c' : Chat} {op : TaskOperation} (h : Distinct c.messages)
    (hop : op.InstallsDistinct) (hedit : editChat taskId c op = .ok c') : Distinct c'.messages := by
  cases op with
  | create p =>
    cases hedit
    exact hop
  | replaceTask task =>
    cases hedit
    exact h
  | replaceProjection p =>
    cases hedit
    exact hop
  | appendText identity text updatedAt taskUpdatedAt =>
    obtain ⟨rows, happend, heq⟩ := bind_eq_ok.mp hedit
    cases heq
    exact distinct_appendText h happend
  | appendMessage message =>
    obtain ⟨⟨⟩, happend, heq⟩ := bind_eq_ok.mp hedit
    cases heq
    exact distinct_append h happend
  | upsertMessage message =>
    obtain ⟨rows, hupsert, heq⟩ := bind_eq_ok.mp hedit
    cases heq
    exact distinct_upsertMessage h hupsert
  | replaceMessages messages messageMeta =>
    obtain ⟨⟨⟩, hset, hrest⟩ := bind_eq_ok.mp hedit
    obtain ⟨⟨⟩, -, heq⟩ := bind_eq_ok.mp hrest
    cases heq
    exact validateMessageSet_eq_ok_iff.mp hset
  | replaceMessageMeta messageMeta =>
    obtain ⟨⟨⟩, -, heq⟩ := bind_eq_ok.mp hedit
    cases heq
    exact h
  | commitArtifact artifactId artifactSequence =>
    cases hedit
    exact h

variable {operations : List TaskOperation}

theorem distinct_foldlM_editChat {c' : Chat} (h : Distinct c.messages)
    (hops : ∀ op ∈ operations, op.InstallsDistinct)
    (hedit : operations.foldlM (editChat taskId) c = .ok c') : Distinct c'.messages := by
  induction operations generalizing c with
  | nil =>
    cases hedit
    exact h
  | cons op rest ih =>
    obtain ⟨middle, hmiddle, hrest⟩ := foldlM_cons_eq_ok.mp hedit
    exact ih (distinct_editChat h (hops op List.mem_cons_self) hmiddle)
      (fun o ho => hops o (List.mem_cons_of_mem _ ho)) hrest

/-! ## Validation promises application -/

theorem validated_iff {start : Option TaskProjection} :
    ((operations.foldlM (validateOperation taskId) start).bind fun _ => .ok ()) = .ok () ↔
      ∃ last, operations.foldlM (validateOperation taskId) start = .ok last := by
  cases operations.foldlM (validateOperation taskId) start <;> simp [Except.bind]

theorem validateOperations_missing_iff :
    validateOperations none taskId operations = .ok () ↔
      ∃ last, operations.foldlM (validateOperation taskId) none = .ok last :=
  validated_iff

variable {p : TaskProjection}

theorem validateOperations_available_iff {n : Nat} :
    validateOperations (some (.available p n)) taskId operations = .ok () ↔
      ∃ last, operations.foldlM (validateOperation taskId) (some p) = .ok last :=
  validated_iff

theorem validateOperations_none (h : validateOperations none taskId operations = .ok ()) :
    operations = [] ∨ ∃ p rest, operations = .create p :: rest ∧
      ∀ n, validateOperations (some (.available p n)) taskId rest = .ok () := by
  cases operations with
  | nil => exact .inl rfl
  | cons op rest =>
    refine .inr ?_
    obtain ⟨last, hfold⟩ := validateOperations_missing_iff.mp h
    obtain ⟨middle, hop, hrest⟩ := foldlM_cons_eq_ok.mp hfold
    cases op with
    | create p =>
      simp only [validateOperation, Option.isSome_none, Bool.false_eq_true, if_false] at hop
      split at hop
      · cases hop
      · cases hop
        exact ⟨p, rest, rfl, fun n => validateOperations_available_iff.mpr ⟨last, hrest⟩⟩
    | _ => cases hop

theorem applyOperations_create (taskId : String) (sequence : Nat) (p : TaskProjection)
    (operations : List TaskOperation) :
    applyOperations none taskId (.create p :: operations) sequence =
      applyOperations (some (.available p sequence)) taskId operations sequence := rfl

theorem alike_flip {xs ys : List StoredMessage} (h : List.Forall₂ Alike xs ys) :
    List.Forall₂ Alike ys xs :=
  h.flip.imp fun _ _ hab => ⟨hab.keys.symm, hab.endsInText.symm⟩

/-- **An operation that validates on the shadow applies to the real rows**, and leaves them alike.
-/
theorem editChat_of_validateOperation {p' : TaskProjection} {op : TaskOperation}
    (h : List.Forall₂ Alike c.messages p.messages)
    (hvalid : validateOperation taskId (some p) op = .ok (some p')) :
    ∃ c', editChat taskId c op = .ok c' ∧ List.Forall₂ Alike c'.messages p'.messages := by
  cases op with
  | create created => cases hvalid
  | replaceTask task =>
    simp only [validateOperation, shadow, bind, Except.bind] at hvalid
    split at hvalid
    · cases hvalid
    · cases hvalid
      exact ⟨c, rfl, h⟩
  | replaceProjection replacement =>
    simp only [validateOperation, shadow, bind, Except.bind] at hvalid
    split at hvalid
    · cases hvalid
    · cases hvalid
      exact ⟨_, rfl, alike_refl _⟩
  | appendText identity text updatedAt taskUpdatedAt =>
    obtain ⟨_, hp, hvalid⟩ := bind_eq_ok.mp hvalid
    cases hp
    obtain ⟨⟨⟩, htarget, heq⟩ := bind_eq_ok.mp hvalid
    cases heq
    obtain ⟨y, hy, hends⟩ := validateTextTarget_eq_ok_iff.mp htarget
    obtain ⟨x, hx, hxy⟩ := find?_alike h hy
    have hreal := validateTextTarget_eq_ok_iff.mpr ⟨x, hx, hxy.endsInText.mpr hends⟩
    refine ⟨{ c with
      messages := updateFirst identity (appendToMessage text) c.messages
      messageMeta := { c.messageMeta with localHistoryUpdatedAt := updatedAt } }, ?_, ?_⟩
    · simp only [editChat, appendText, bind, Except.bind, hreal]
      rfl
    · exact alike_flip (alike_updateFirst (alike_flip h) identity text)
  | appendMessage message =>
    obtain ⟨_, hp, hvalid⟩ := bind_eq_ok.mp hvalid
    cases hp
    obtain ⟨⟨⟩, happend, heq⟩ := bind_eq_ok.mp hvalid
    cases heq
    have hreal := validateMessageAppend_alike (h.imp fun _ _ hab => hab.keys) happend
    refine ⟨{ c with messages := c.messages ++ [message] }, ?_, ?_⟩
    · simp only [editChat, bind, Except.bind, hreal]
      rfl
    · exact List.rel_append h (.cons ⟨.refl message, Iff.rfl⟩ .nil)
  | upsertMessage message =>
    obtain ⟨_, hp, hvalid⟩ := bind_eq_ok.mp hvalid
    cases hp
    obtain ⟨rows, hupsert, heq⟩ := bind_eq_ok.mp hvalid
    cases heq
    obtain ⟨rows', hrows, halike⟩ := upsertMessage_alike h hupsert
    refine ⟨{ c with messages := rows' }, ?_, halike⟩
    simp only [editChat, bind, Except.bind, hrows]
    rfl
  | replaceMessages messages messageMeta =>
    obtain ⟨_, hp, hvalid⟩ := bind_eq_ok.mp hvalid
    cases hp
    obtain ⟨⟨⟩, hmeta, hrest⟩ := bind_eq_ok.mp hvalid
    obtain ⟨⟨⟩, hset, heq⟩ := bind_eq_ok.mp hrest
    cases heq
    refine ⟨{ c with messages, messageMeta }, ?_, alike_refl _⟩
    simp only [editChat, bind, Except.bind, hset, hmeta]
    rfl
  | replaceMessageMeta messageMeta =>
    obtain ⟨_, hp, hvalid⟩ := bind_eq_ok.mp hvalid
    cases hp
    obtain ⟨⟨⟩, hmeta, heq⟩ := bind_eq_ok.mp hvalid
    cases heq
    refine ⟨{ c with messageMeta }, ?_, h⟩
    simp only [editChat, bind, Except.bind, hmeta]
    rfl
  | commitArtifact artifactId artifactSequence =>
    refine ⟨_, rfl, ?_⟩
    simp only [validateOperation, shadow, bind, Except.bind] at hvalid
    repeat' split at hvalid
    all_goals cases hvalid
    exact h

theorem foldlM_editChat_of_validateOperation {last : Option TaskProjection}
    (h : List.Forall₂ Alike c.messages p.messages)
    (hvalid : operations.foldlM (validateOperation taskId) (some p) = .ok last) :
    ∃ c', operations.foldlM (editChat taskId) c = .ok c' := by
  induction operations generalizing p c with
  | nil => exact ⟨c, rfl⟩
  | cons op rest ih =>
    obtain ⟨middle, hop, hrest⟩ := foldlM_cons_eq_ok.mp hvalid
    obtain ⟨p', rfl⟩ := Option.isSome_iff_exists.mp (validateOperation_some hop).2.2
    obtain ⟨next, hnext, halike⟩ := editChat_of_validateOperation h hop
    obtain ⟨c', hc'⟩ := ih halike hrest
    exact ⟨c', foldlM_cons_eq_ok.mpr ⟨next, hnext, hc'⟩⟩

/-- The one way in which an accepted batch on an existing Task can fail. -/
def historyOverflow : RuntimeError := .storage "Message history version overflow"

theorem applyChat_of_foldlM {c' : Chat} (h : operations.foldlM (editChat taskId) c = .ok c') :
    (∃ last, applyChat taskId c operations = .ok last) ∨
      applyChat taskId c operations = .error historyOverflow := by
  simp only [applyChat, h, bind, Except.bind, checkedAdd]
  by_cases hadvances : advances operations = true
  · by_cases hlt : c'.messageMeta.version + 1 < 2 ^ 64
    · exact .inl ⟨_, by rw [if_pos hadvances, if_pos hlt]; rfl⟩
    · exact .inr (by rw [if_pos hadvances, if_neg hlt]; rfl)
  · exact .inl ⟨_, if_neg hadvances⟩

variable {sequence : Nat}

/-- **A batch that validates on an available Task applies**, or overflows the history version. -/
theorem applies_of_validates {n : Nat}
    (h : validateOperations (some (.available p n)) taskId operations = .ok ()) :
    (∃ next, applyOperations (some (.available p n)) taskId operations sequence = .ok next) ∨
      applyOperations (some (.available p n)) taskId operations sequence =
        .error historyOverflow := by
  have hcreate : ∀ op ∈ operations, op.isCreate = false := fun op hop =>
    (validateOperations_available h op hop).1
  obtain ⟨last, hfold⟩ := validateOperations_available_iff.mp h
  obtain ⟨c, hc⟩ := foldlM_editChat_of_validateOperation (alike_refl p.chat.messages) hfold
  rw [applyOperations_available taskId sequence n p hcreate]
  obtain ⟨c', hc'⟩ | hc' := applyChat_of_foldlM hc
  · rw [hc']
    exact .inl ⟨_, rfl⟩
  · rw [hc']
    exact .inr rfl

/-! ## Every reachable projection -/

theorem distinct_applyOperations_available {q : TaskProjection} {n m : Nat}
    (h : Distinct p.messages) (hops : ∀ op ∈ operations, op.InstallsDistinct)
    (hvalid : validateOperations (some (.available p n)) taskId operations = .ok ())
    (happly : applyOperations (some (.available p n)) taskId operations sequence =
      .ok (.available q m)) : Distinct q.messages := by
  obtain ⟨c, hc, heq⟩ := applyOperations_eq_ok
    (fun op hop => (validateOperations_available hvalid op hop).1) happly
  cases heq
  obtain ⟨middle, hfold, hversion⟩ := bind_eq_ok.mp hc
  have hmiddle := distinct_foldlM_editChat (c := p.chat) h hops hfold
  -- advancing the history version leaves the rows as they are
  split at hversion
  · obtain ⟨version, -, heq⟩ := bind_eq_ok.mp hversion
    cases heq
    exact hmiddle
  · cases hversion
    exact hmiddle

variable {entry : Option RecoveredTask}

/-- **One accepted batch keeps the rows apart**, also the one that creates the Task. -/
theorem distinct_applyOperations {q : TaskProjection} {m : Nat}
    (h : ∀ p n, entry = some (.available p n) → Distinct p.messages)
    (hops : ∀ op ∈ operations, op.InstallsDistinct)
    (hvalid : validateOperations entry taskId operations = .ok ())
    (happly : applyOperations entry taskId operations sequence = .ok (.available q m)) :
    Distinct q.messages := by
  cases entry with
  | none =>
    obtain rfl | ⟨p, rest, rfl, hrest⟩ := validateOperations_none hvalid
    · cases happly
    · exact distinct_applyOperations_available (hops _ List.mem_cons_self)
        (fun o ho => hops o (List.mem_cons_of_mem _ ho)) (hrest sequence) happly
  | some task =>
    cases task with
    | available p n => exact distinct_applyOperations_available (h p n rfl) hops hvalid happly
    | unavailable error => cases hvalid

theorem distinct_of_reachable (h : Reachable taskId InstallsDistinct entry) {n : Nat}
    (hentry : entry = some (.available p n)) : Distinct p.messages := by
  induction h generalizing p n with
  | refl => cases hentry
  | tail _ hcommit ih =>
    obtain ⟨allows, validates, applies⟩ := hcommit
    cases hentry
    exact distinct_applyOperations (fun _ _ => ih) allows validates applies

theorem applies_iff_of_validates (h : validateOperations entry taskId operations = .ok ()) :
    ((∃ next, applyOperations entry taskId operations sequence = .ok next) ∨
      applyOperations entry taskId operations sequence = .error historyOverflow) ↔
      ¬(entry = none ∧ operations = []) := by
  cases entry with
  | none =>
    obtain rfl | ⟨p, rest, rfl, hrest⟩ := validateOperations_none h
    · have happly : applyOperations none taskId [] sequence = .error (.taskNotFound taskId) := rfl
      simp [happly, historyOverflow]
    · rw [applyOperations_create]
      simp [applies_of_validates (hrest sequence)]
  | some task =>
    cases task with
    | available p n => simp [applies_of_validates h]
    | unavailable error => cases h

/-- **Rows are told apart in every projection that accepted batches lead to**, provided the whole
projections that `Create` and `ReplaceProjection` install have distinct rows; and an accepted batch
applies, or overflows the history version, unless it is the empty one on a missing Task. -/
theorem distinct_rows_of_distinct_installs (taskId : String) :
    (∀ p n, Reachable taskId InstallsDistinct (some (.available p n)) →
      Distinct p.messages) ∧
    ∀ entry operations sequence, validateOperations entry taskId operations = .ok () →
      (((∃ next, applyOperations entry taskId operations sequence = .ok next) ∨
        applyOperations entry taskId operations sequence = .error historyOverflow) ↔
        ¬(entry = none ∧ operations = [])) :=
  ⟨fun _ _ h => distinct_of_reachable h rfl, fun _ _ _ h => applies_iff_of_validates h⟩

namespace Example

/-- An Agent text row. -/
def row (sequence : Nat) (text : String) : StoredMessage where
  sequence := sequence
  chat := {
    cursor := "1"
    identity := "acp:s:message:m"
    messageId := "acp:s:message:m"
    messageType := "agent_message"
    message := .agentMessage
      { id := "acp:s:message:m", role := .agent, parts := [.text text], createdAt := "1" } }

def created (messages : List StoredMessage) : TaskProjection where
  task := {
    taskId := "t", status := .inactive, taskVersion := 1, messageHistoryVersion := 0
    unread := false, updatedAt := "1", lastActivity := "1", lifecycle := .open }
  messages := messages
  messageMeta := ⟨"t", 0, messages.length, "1", none, none⟩

theorem distinct_row : Distinct (created [row 1 "a"]).messages :=
  validateMessageSet_eq_ok_iff.mp rfl

theorem installs_create (h : Distinct p.messages) : InstallsDistinct none [.create p] := by
  intro op hop
  rw [List.mem_singleton.mp hop]
  exact h

/-- A row of another message. -/
def other (text : String) : StoredMessage :=
  { sequence := 2
    chat := { (row 2 text).chat with
      identity := "acp:s:message:n", messageId := "acp:s:message:n" } }

/-- A row is appended, the first one replaced, and text goes to the new one. -/
def batch : List TaskOperation :=
  [.appendMessage (other "b"), .upsertMessage (row 1 "c"),
  .appendText "acp:s:message:n" "d" "2" none]

/-- The Task after the batch. -/
def batched : TaskProjection :=
  { created [row 1 "c", other "bd"] with
    task := { (created []).task with messageHistoryVersion := 1 }
    messageMeta := ⟨"t", 1, 1, "2", none, none⟩ }

end Example

open Example

/-- A Task created with one row, to which a batch appends another: the two rows are distinct, and
another batch with a third row and a replaced one applies. -/
theorem distinct_rows_after_batch :
    Reachable "t" InstallsDistinct (some (.available batched 2)) ∧
    Distinct [row 1 "c", other "bd"] ∧
    ∃ next, applyOperations (some (.available batched 2)) "t"
      [.upsertMessage (other "e"), .appendText "acp:s:message:m" "f" "3" none] 3 =
        .ok next := by
  have hcreate : Commit "t" InstallsDistinct none
      (some (.available (created [row 1 "a"]) 1)) :=
    .intro (installs_create distinct_row) rfl rfl
  have hallowed : InstallsDistinct (some (.available (created [row 1 "a"]) 1))
      batch := by
    intro op hop
    fin_cases hop <;> trivial
  have happlied : applyOperations (some (.available (created [row 1 "a"]) 1)) "t"
      batch 2 = .ok (.available batched 2) := by
    decide +kernel
  have hbatch : Commit "t" InstallsDistinct
      (some (.available (created [row 1 "a"]) 1))
      (some (.available batched 2)) :=
    .intro hallowed (by decide +kernel) happlied
  have hreach := Relation.ReflTransGen.tail (.single hcreate) hbatch
  obtain ⟨hrows, happlies⟩ := distinct_rows_of_distinct_installs "t"
  refine ⟨hreach, hrows _ _ hreach, ?_⟩
  have hvalid : validateOperations (some (.available batched 2)) "t"
      [.upsertMessage (other "e"), .appendText "acp:s:message:m" "f" "3" none] = .ok () := by
    decide +kernel
  obtain h | h := (happlies _ _ 3 hvalid).mpr (by simp)
  · exact h
  · exact absurd h (by decide +kernel)

/-- `Create` with two rows of one identity is accepted and applied; the empty batch on a missing
Task is accepted and not applied. -/
theorem create_with_equal_rows :
    (∃ p, Reachable "t" (fun _ _ => True) (some (.available p 1)) ∧ ¬ Distinct p.messages) ∧
    validateOperations none "t" [] = .ok () ∧
    applyOperations none "t" [] 1 = .error (.taskNotFound "t") := by
  refine ⟨⟨created [row 1 "a", row 2 "b"], ?_, ?_⟩, rfl, rfl⟩
  · have hvalid : validateOperations none "t"
        [.create (created [row 1 "a", row 2 "b"])] = .ok () := rfl
    exact .single (.intro trivial hvalid rfl)
  · intro h
    have hset := validateMessageSet_eq_ok_iff.mpr h
    revert hset
    decide

end Projection

end OpenAide
