import OpenAide.Tasks.Snapshot

/-!
# Reading a Chat page by page

A client that has the tail page of a Chat asks for the page before the first row it has
(`message_store.rs:97-116`), and so on until a page says that nothing is before it.  Where a page
starts depends on the requested size, on the turns of the user and on the run of activity it would
cut (`chat_page_start`).

- `chatPageStart_le_requested`: whatever moves the start of a page, it is never moved forward;
- `pageBeforeIndex_cursor`: the cursor of a row names that row;
- `readBack_page`: so the pages before any row end, and are the rows before it;
- `splitsRun_chatPageStart`: a page begins inside a run of activity and thoughts only if this run
  reaches from the first row to the requested start.

What a page shows of a Tool step (`with_lightweight_tool_summaries`) may be read out of an artifact;
the results hold for every way to show a step.
-/

namespace OpenAide.ChatPage

open Library Projection Mutation

/-! ## The pages -/

@[simp] theorem cursor_withLightweightToolSummaries (summarized : ToolStep → ToolStep)
    (message : ChatMessage) :
    (withLightweightToolSummaries summarized message).cursor = message.cursor := by
  unfold withLightweightToolSummaries
  split <;> rfl

section Reading

variable (summarized : ToolStep → ToolStep) (p : TaskProjection) (limit : Nat)

/-- `cursor::to_sequence`. -/
def toSequence (cursor : String) : Except RuntimeError Nat :=
  match cursor.toList with
  | 'm' :: ':' :: digits =>
    match parseU64 (.ofList digits) with
    | some sequence => .ok sequence
    | none => .error (.invalidParams "before_cursor")
  | _ => .error (.invalidParams "before_cursor")

/-- `page_before_index` (`message_store.rs:406`). -/
def pageBeforeIndex (messages : List StoredMessage) (beforeCursor : String) :
    Except RuntimeError Nat :=
  let bySequence := (toSequence beforeCursor).toOption.bind fun before =>
    messages.findIdx? (·.sequence = before)
  match bySequence.or (messages.findIdx? (·.chat.cursor = beforeCursor)) with
  | some index => .ok index
  | none => .error (.invalidParams "before_cursor")

/-- `page_before` (`message_store.rs:105`). -/
def pageBefore (beforeCursor : String) : Except RuntimeError MessagePage := do
  let finish ← pageBeforeIndex p.messages beforeCursor
  return pageTo summarized p limit finish

/-- A client reads on from a page it has, in at most `rounds` further requests: the pages in the
order in which it gets them, or `none` if it is not at the first row by then or was refused. -/
def readBack : (rounds : Nat) → MessagePage → Option (List MessagePage)
  | 0, page => if page.hasBefore then none else some [page]
  | rounds + 1, page =>
    if page.hasBefore then do
      let cursor ← page.startCursor
      let earlier ← (pageBefore summarized p limit cursor).toOption
      return page :: (← readBack rounds earlier)
    else some [page]

end Reading

/-! ## Where a page starts -/

variable {index : Nat}

theorem isUser_of_turnStart {rows : List (StoredMessage × Nat)} {turns : Nat} {found : Option Nat}
    (h : turnStart turns found rows = some index) :
    found = some index ∨ ∃ stored, (stored, index) ∈ rows ∧ isUser stored.chat.message := by
  induction rows generalizing turns found with
  | nil => exact .inl h
  | cons row rest ih =>
    obtain ⟨stored, position⟩ := row
    rw [turnStart] at h
    by_cases huser : isUser stored.chat.message
    · have hhere : (stored, position) ∈ (stored, position) :: rest := List.mem_cons_self
      rw [if_pos huser] at h
      split at h
      · cases h
        exact .inr ⟨stored, hhere, huser⟩
      · rcases ih h with heq | ⟨other, hmem, hother⟩
        · cases heq
          exact .inr ⟨stored, hhere, huser⟩
        · exact .inr ⟨other, List.mem_cons_of_mem _ hmem, hother⟩
    · rw [if_neg huser] at h
      rcases ih h with heq | ⟨other, hmem, hother⟩
      · exact .inl heq
      · exact .inr ⟨other, List.mem_cons_of_mem _ hmem, hother⟩

variable (messages : List StoredMessage)

theorem runStart_le_self (index : Nat) : runStart messages index ≤ index := by
  induction index with
  | zero => exact Nat.le_refl 0
  | succ index ih =>
    rw [runStart]
    split
    · exact Nat.le_succ_of_le ih
    · exact Nat.le_refl _

/-- The row at an index is an activity or a thought. -/
def isWork (messages : List StoredMessage) (index : Nat) : Bool :=
  (messages[index]?).any (continuesRun ·.chat.message)

theorem runStart_spec (index : Nat) :
    (0 < runStart messages index → isWork messages (runStart messages index) = false) ∧
      ∀ row, runStart messages index < row → row ≤ index → isWork messages row := by
  induction index with
  | zero =>
    refine ⟨fun h => absurd h (Nat.lt_irrefl 0), fun row hlt hle => ?_⟩
    exact absurd (hlt.trans_le hle) (Nat.lt_irrefl 0)
  | succ index ih =>
    rw [runStart]
    split
    · rename_i hwork
      refine ⟨ih.1, fun row hlt hle => ?_⟩
      rcases Nat.lt_or_ge index row with hlast | hearlier
      · obtain rfl : row = index + 1 := Nat.le_antisymm hle hlast
        exact hwork
      · exact ih.2 row hlt hearlier
    · rename_i hother
      refine ⟨fun _ => Bool.eq_false_iff.mpr hother, fun row hlt hle => ?_⟩
      omega

theorem isWork_eq_false_of_isUser {messages : List StoredMessage}
    (h : (messages[index]?).any (isUser ·.chat.message)) : isWork messages index = false := by
  rw [isWork]
  cases hstored : messages[index]? with
  | none => rfl
  | some stored =>
    rw [hstored, Option.any_some] at h
    rw [Option.any_some]
    cases hmessage : stored.chat.message <;> rw [hmessage] at h <;> first | rfl | cases h

variable (requestedStart : Nat)

theorem moved_spec {messages : List StoredMessage} {finish floor : Nat} {found : Option Nat}
    (hfound : turnStart 0 none ((messages.zipIdx.take finish).drop floor).reverse = found) :
    let moved := (found.map (min requestedStart)).getD requestedStart
    moved ≤ requestedStart ∧ (isWork messages moved → moved = requestedStart) := by
  cases found with
  | none => exact ⟨Nat.le_refl _, fun _ => rfl⟩
  | some turn =>
    refine ⟨Nat.min_le_left _ _, fun hwork => ?_⟩
    rcases Nat.le_total requestedStart turn with hle | hle
    · exact Nat.min_eq_left hle
    · rcases isUser_of_turnStart hfound with h | ⟨stored, hmem, huser⟩
      · cases h
      · have hrow := List.mem_zipIdx_iff_getElem?.mp
          (List.mem_of_mem_take (List.mem_of_mem_drop (List.mem_reverse.mp hmem)))
        have hturn : isWork messages turn = false :=
          isWork_eq_false_of_isUser (by rw [hrow]; exact huser)
        rw [Option.map_some, Option.getD_some, Nat.min_eq_right hle, hturn] at hwork
        cases hwork

/-- **Where a page starts**, of the rows before `finish`: where it was asked to if there is nothing
to decide, else at a row that is no work or behind the row at which the walk has stopped. -/
theorem chatPageStart_cases (finish : Nat) :
    let start := chatPageStart messages requestedStart finish
    (start = requestedStart ∧ (requestedStart = 0 ∨ messages.length ≤ requestedStart)) ∨
      (start ≤ requestedStart ∧ isWork messages start = false) ∨
      (0 < requestedStart ∧ isWork messages requestedStart ∧
        start = runStart messages requestedStart + 1) := by
  unfold chatPageStart
  by_cases hdecided : requestedStart = 0 ∨ messages.length ≤ requestedStart
  · rw [if_pos hdecided]
    exact .inl ⟨rfl, hdecided⟩
  rw [if_neg hdecided]
  refine .inr ?_
  dsimp only
  generalize hfound : turnStart 0 none _ = found
  obtain ⟨hle, hmoved⟩ := moved_spec requestedStart hfound
  generalize (found.map (min requestedStart)).getD requestedStart = moved at hle hmoved ⊢
  cases hwork : isWork messages moved with
  | false =>
    rw [isWork] at hwork
    rw [hwork]
    exact .inl ⟨hle, hwork⟩
  | true =>
    obtain rfl := hmoved hwork
    have hany := hwork
    rw [isWork] at hany
    rw [hany, if_neg (by decide)]
    split
    · rename_i huser
      exact .inl ⟨runStart_le_self messages moved, isWork_eq_false_of_isUser huser⟩
    · exact .inr ⟨Nat.pos_of_ne_zero fun h => hdecided (.inl h), hwork, rfl⟩

/-- **A page starts no later than it was asked to.**  The one row by which the start is moved
forward at the end of the backward walk has been walked over before. -/
theorem chatPageStart_le_requested (finish : Nat) :
    chatPageStart messages requestedStart finish ≤ requestedStart := by
  rcases chatPageStart_cases messages requestedStart finish with ⟨h, -⟩ | ⟨h, -⟩ | ⟨hpos, hwork, h⟩
  · exact h.le
  · exact h
  · obtain ⟨before, rfl⟩ := Nat.exists_eq_succ_of_ne_zero hpos.ne'
    rw [isWork] at hwork
    rw [h, runStart, if_pos hwork]
    exact Nat.succ_le_succ (runStart_le_self messages before)

/-! ## The cursor of a row -/

theorem toList_fromSequence (sequence : Nat) :
    (fromSequence sequence).toList = 'm' :: ':' :: Nat.toDigits 10 sequence := by
  have hdigits : (toString sequence).toList = Nat.toDigits 10 sequence := Nat.toList_repr
  rw [fromSequence, String.toList_append, hdigits]
  rfl

theorem fromSequence_inj {n m : Nat} (h : fromSequence n = fromSequence m) : n = m := by
  have hlist := congrArg String.toList h
  rw [toList_fromSequence, toList_fromSequence] at hlist
  have hdigits := (List.cons.inj (List.cons.inj hlist).2).2
  have hn := Nat.ofDigitChars_toDigits (b := 10) (n := n) (by decide) (by decide)
  rw [hdigits, Nat.ofDigitChars_toDigits (by decide) (by decide)] at hn
  exact hn.symm

theorem eq_of_toSequence {n sequence : Nat} (h : toSequence (fromSequence n) = .ok sequence) :
    sequence = n := by
  unfold toSequence at h
  rw [toList_fromSequence] at h
  simp only [parseU64, String.toList_ofList, parseUnsigned_toDigits] at h
  split at h
  · rename_i parsed hparsed
    cases h
    split at hparsed
    · cases hparsed
    · exact (Option.some.inj hparsed).symm
  · cases h

/-- The rows that can be paged: no sequence twice, and each row has the cursor of its sequence. -/
structure Pageable (messages : List StoredMessage) : Prop where
  distinct : (messages.map (·.sequence)).Nodup
  cursors : ∀ stored ∈ messages, stored.chat.cursor = fromSequence stored.sequence

theorem Pageable.findIdx? {messages : List StoredMessage} (h : Pageable messages)
    (hindex : index < messages.length) {q : StoredMessage → Bool}
    (hq : ∀ stored ∈ messages, q stored ↔ stored.sequence = messages[index].sequence) :
    messages.findIdx? q = some index := by
  refine List.findIdx?_eq_some_iff_getElem.mpr
    ⟨hindex, (hq _ (List.getElem_mem hindex)).mpr rfl, fun j hj hqj => ?_⟩
  have hsame := (hq _ (List.getElem_mem (hj.trans hindex))).mp hqj
  have hinj : messages[j] = messages[index] :=
    List.inj_on_of_nodup_map h.distinct (List.getElem_mem _) (List.getElem_mem _) hsame
  have hnodup : messages.Nodup := List.Nodup.of_map _ h.distinct
  exact absurd (hnodup.getElem_inj_iff.mp hinj) hj.ne

/-- **The cursor of a row names that row**, by its sequence or, if that is no `u64`, as a text. -/
theorem pageBeforeIndex_cursor {messages : List StoredMessage} (h : Pageable messages)
    (hindex : index < messages.length) :
    pageBeforeIndex messages messages[index].chat.cursor = .ok index := by
  have hcursor := h.cursors _ (List.getElem_mem hindex)
  have htext : messages.findIdx? (·.chat.cursor = messages[index].chat.cursor) = some index := by
    refine h.findIdx? hindex fun stored hstored => ?_
    rw [decide_eq_true_eq, h.cursors stored hstored, hcursor]
    exact ⟨fromSequence_inj, fun heq => heq ▸ rfl⟩
  unfold pageBeforeIndex
  dsimp only
  rw [htext]
  cases hsequence : toSequence messages[index].chat.cursor with
  | error e => rfl
  | ok sequence =>
    have heq : sequence = messages[index].sequence := eq_of_toSequence (hcursor ▸ hsequence)
    have hfound : messages.findIdx? (·.sequence = sequence) = some index :=
      h.findIdx? hindex fun stored _ => by rw [decide_eq_true_eq, heq]
    simp [Except.toOption, hfound]

/-! ## Reading back -/

section Coverage

variable {summarized : ToolStep → ToolStep} {p : TaskProjection} {limit finish : Nat}

/-- Where the page before `finish` starts. -/
def startOf (p : TaskProjection) (limit finish : Nat) : Nat :=
  chatPageStart p.messages (finish - max 1 (min limit 500)) finish

theorem startOf_lt (p : TaskProjection) (limit : Nat) (hpos : 0 < finish) :
    startOf p limit finish < finish := by
  have hle := chatPageStart_le_requested p.messages (finish - max 1 (min limit 500)) finish
  unfold startOf
  omega

/-- The rows of a page. -/
theorem items_pageTo : (pageTo summarized p limit finish).items =
    ((p.messages.take finish).drop (startOf p limit finish)).map fun stored =>
      withLightweightToolSummaries summarized stored.chat := rfl

theorem take_append_items (summarized : ToolStep → ToolStep) (p : TaskProjection)
    (limit finish : Nat) : (p.messages.take (startOf p limit finish)).map
      (fun stored => withLightweightToolSummaries summarized stored.chat) ++
        (pageTo summarized p limit finish).items =
    (p.messages.take finish).map fun stored =>
      withLightweightToolSummaries summarized stored.chat := by
  by_cases hpos : 0 < finish
  · have htake : p.messages.take (startOf p limit finish) =
        (p.messages.take finish).take (startOf p limit finish) := by
      rw [List.take_take, Nat.min_eq_left (startOf_lt _ _ hpos).le]
    rw [items_pageTo, htake, ← List.map_append, List.take_append_drop]
  · obtain rfl : finish = 0 := Nat.eq_zero_of_not_pos hpos
    rw [items_pageTo]
    simp [startOf, chatPageStart]

theorem items_pageTo_ne_nil (hpos : 0 < finish) (hfinish : finish ≤ p.messages.length) :
    (pageTo summarized p limit finish).items ≠ [] := by
  have hlt := startOf_lt p limit hpos
  apply List.ne_nil_of_length_pos
  rw [items_pageTo, List.length_map, List.length_drop, List.length_take]
  omega

theorem startCursor_pageTo (hpos : 0 < finish) :
    (pageTo summarized p limit finish).startCursor =
      (p.messages[startOf p limit finish]?).map (·.chat.cursor) := by
  have hlt := startOf_lt p limit hpos
  show (pageTo summarized p limit finish).items.head?.map (·.cursor) = _
  rw [items_pageTo, List.head?_map, List.head?_drop, List.getElem?_take_of_lt hlt, Option.map_map]
  congr 1
  funext stored
  exact cursor_withLightweightToolSummaries summarized stored.chat

theorem pageBefore_startCursor (summarized : ToolStep → ToolStep) (limit : Nat)
    (h : Pageable p.messages) (hpos : 0 < finish) (hfinish : finish ≤ p.messages.length) :
    ∃ cursor, (pageTo summarized p limit finish).startCursor = some cursor ∧
      pageBefore summarized p limit cursor =
        .ok (pageTo summarized p limit (startOf p limit finish)) := by
  have hindex := (startOf_lt p limit hpos).trans_le hfinish
  refine ⟨p.messages[startOf p limit finish].chat.cursor, ?_, ?_⟩
  · rw [startCursor_pageTo hpos, List.getElem?_eq_getElem hindex, Option.map_some]
  · rw [pageBefore, pageBeforeIndex_cursor h hindex]
    rfl

/-- A client has read the rows up to `finish` in these pages, the last of them the Chat's first. -/
structure Reads (summarized : ToolStep → ToolStep) (p : TaskProjection) (finish : Nat)
    (pages : List MessagePage) : Prop where
  nonempty : ∀ page ∈ pages, page.items ≠ []
  first : pages.getLast?.map (·.hasBefore) = some false
  rows : pages.reverse.flatMap (·.items) = (p.messages.take finish).map fun stored =>
    withLightweightToolSummaries summarized stored.chat

theorem readBack_first (hpos : 0 < finish) (hfinish : finish ≤ p.messages.length) (rounds : Nat)
    (hstart : startOf p limit finish = 0) :
    readBack summarized p limit rounds (pageTo summarized p limit finish) =
        some [pageTo summarized p limit finish] ∧
      Reads summarized p finish [pageTo summarized p limit finish] := by
  have hfirst : (pageTo summarized p limit finish).hasBefore = false :=
    decide_eq_false (by rw [← startOf, hstart]; exact Nat.lt_irrefl 0)
  have hcover := take_append_items summarized p limit finish
  rw [hstart, List.take_zero, List.map_nil, List.nil_append] at hcover
  constructor
  · cases rounds <;> rw [readBack, hfirst] <;> rfl
  · constructor
    · simpa using items_pageTo_ne_nil hpos hfinish
    · exact congrArg some hfirst
    · simpa using hcover

theorem Reads.cons {pages : List MessagePage} (hpos : 0 < finish)
    (hfinish : finish ≤ p.messages.length) (h : Reads summarized p (startOf p limit finish) pages) :
    Reads summarized p finish (pageTo summarized p limit finish :: pages) where
  nonempty := List.forall_mem_cons.mpr ⟨items_pageTo_ne_nil hpos hfinish, h.nonempty⟩
  first := by
    cases hpages : pages with
    | nil =>
      have hnone := h.first
      rw [hpages] at hnone
      cases hnone
    | cons page rest => rw [List.getLast?_cons_cons, ← hpages, h.first]
  rows := by
    rw [List.reverse_cons, List.flatMap_append, h.rows, List.flatMap_singleton, take_append_items]

/-- **Reading back from a page** ends at the first row, and the pages are the rows up to the page's
end.  The induction is on the requests that are left: every page starts before it ends. -/
theorem readBack_page (summarized : ToolStep → ToolStep) (limit : Nat) (h : Pageable p.messages)
    {rounds : Nat} (hpos : 0 < finish)
    (hfinish : finish ≤ p.messages.length) (hrounds : finish ≤ rounds + 1) :
    ∃ pages, readBack summarized p limit rounds (pageTo summarized p limit finish) = some pages ∧
      Reads summarized p finish pages := by
  have hlt := startOf_lt p limit hpos
  by_cases hstart : startOf p limit finish = 0
  · exact ⟨_, readBack_first hpos hfinish rounds hstart⟩
  · induction rounds generalizing finish with
    | zero => omega
    | succ rounds ih =>
      have hmore : (pageTo summarized p limit finish).hasBefore = true :=
        decide_eq_true (Nat.pos_of_ne_zero hstart)
      have hstartPos := Nat.pos_of_ne_zero hstart
      obtain ⟨cursor, hcursor, hbefore⟩ := pageBefore_startCursor summarized limit h
        hpos hfinish
      obtain ⟨pages, hpages, hreads⟩ : ∃ pages, readBack summarized p limit rounds
          (pageTo summarized p limit (startOf p limit finish)) = some pages ∧
            Reads summarized p (startOf p limit finish) pages := by
        by_cases hnext : startOf p limit (startOf p limit finish) = 0
        · exact ⟨_, readBack_first hstartPos (by omega) rounds hnext⟩
        · exact ih hstartPos (by omega) (by omega) (startOf_lt _ _ hstartPos) hnext
      refine ⟨_, ?_, hreads.cons hpos hfinish⟩
      rw [readBack, if_pos hmore, hcursor, Option.bind_eq_bind, Option.bind_some, hbefore]
      show (do return pageTo summarized p limit finish :: (← readBack summarized p limit rounds
        (pageTo summarized p limit (startOf p limit finish)))) = _
      rw [hpages]
      rfl

end Coverage

/-! ## The two results -/

/-- **Paging covers a Chat exactly once.**  From the tail page on, as many requests as there are
rows are enough to get to a page that has nothing before it; no page is empty, and the pages from
the last one read to the tail page are the rows of the Chat, in order and each of them once. -/
theorem paging_covers_chat (summarized : ToolStep → ToolStep) (p : TaskProjection) (limit : Nat)
    (hrows : p.messages ≠ []) (hpageable : Pageable p.messages) :
    ∃ pages, readBack summarized p limit p.messages.length (tailPageOf summarized p limit) =
      some pages ∧
      (∀ page ∈ pages, page.items ≠ []) ∧ pages.getLast?.map (·.hasBefore) = some false ∧
      pages.reverse.flatMap (·.items) = p.messages.map fun stored =>
        withLightweightToolSummaries summarized stored.chat := by
  obtain ⟨pages, hpages, hreads⟩ := readBack_page summarized limit
    hpageable (List.length_pos_iff.mpr hrows) (Nat.le_refl _) (Nat.le_succ p.messages.length)
  have hcover := hreads.rows
  rw [List.take_length] at hcover
  exact ⟨pages, hpages, hreads.nonempty, hreads.first, hcover⟩

namespace Example

def row (sequence : Nat) (message : NormalizedMessage) : StoredMessage where
  sequence
  chat := {
    cursor := fromSequence sequence
    messageId := "m"
    identity := message.identity
    messageType := message.messageType
    message
    timing := {} }

def thought : NormalizedMessage :=
  .agentMessage { id := "a", role := .thought, parts := [.text "x"], createdAt := "1" }

/-- A message of the user between two thoughts. -/
def chat : TaskProjection where
  task := {
    taskId := "t"
    status := .inactive
    taskVersion := 0
    messageHistoryVersion := 0
    unread := false
    updatedAt := "1"
    lastActivity := "1"
    lifecycle := .open }
  messages := [row 1 thought, row 4 (.user { id := "u", text := "y", createdAt := "1" }),
    row 7 thought]
  messageMeta := ⟨"t", 3, 3, "1", some "m:1", some "m:7"⟩

/-- The rows of the Chat are paged one or two at a time. -/
theorem paging_covers_three_rows :
    ∃ pages, readBack id chat 1 3 (tailPageOf id chat 1) = some pages ∧
      (∀ page ∈ pages, page.items ≠ []) ∧ pages.getLast?.map (·.hasBefore) = some false ∧
      pages.reverse.flatMap (·.items) = chat.messages.map fun stored =>
        withLightweightToolSummaries id stored.chat :=
  paging_covers_chat id chat 1 (by simp [chat])
    { distinct := by decide
      cursors := by simp [chat, row] }

end Example

/-- A page of the rows from `start` on begins inside a run of work. -/
def SplitsRun (messages : List StoredMessage) (start : Nat) : Prop :=
  0 < start ∧ isWork messages start ∧ isWork messages (start - 1)

/-- The pages a client gets by reading back from the tail page, with the row each of them ends
before. -/
inductive Reached (summarized : ToolStep → ToolStep) (p : TaskProjection) (limit : Nat) :
    Nat → MessagePage → Prop
  | tail : Reached summarized p limit p.messages.length (tailPageOf summarized p limit)
  | before {finish earlier : Nat} {page previous : MessagePage} {cursor : String}
      (h : Reached summarized p limit finish page) (hcursor : page.startCursor = some cursor)
      (hindex : pageBeforeIndex p.messages cursor = .ok earlier)
      (hpage : pageBefore summarized p limit cursor = .ok previous) :
      Reached summarized p limit earlier previous

theorem Reached.eq_pageTo {summarized : ToolStep → ToolStep} {p : TaskProjection}
    {limit finish : Nat} {page : MessagePage} (h : Reached summarized p limit finish page) :
    page = pageTo summarized p limit finish := by
  cases h with
  | tail => rfl
  | before h hcursor hindex hpage =>
    rw [pageBefore, hindex] at hpage
    exact (Except.ok.inj hpage).symm

theorem splitsRun_chatPageStart (messages : List StoredMessage) (requestedStart finish : Nat) :
    SplitsRun messages (chatPageStart messages requestedStart finish) ↔
      0 < requestedStart ∧ ∀ index ≤ requestedStart, isWork messages index := by
  rcases chatPageStart_cases messages requestedStart finish with
    ⟨hstart, hdecided⟩ | ⟨hle, hother⟩ | ⟨hpos, hwork, hstart⟩
  · rw [hstart]
    constructor
    · rintro ⟨hpos, hwork, -⟩
      rcases hdecided with hzero | hbeyond
      · exact absurd hzero hpos.ne'
      · rw [isWork, List.getElem?_eq_none hbeyond] at hwork
        cases hwork
    · rintro ⟨hpos, hall⟩
      exact ⟨hpos, hall _ (Nat.le_refl _), hall _ (Nat.sub_le _ _)⟩
  · constructor
    · rintro ⟨-, hwork, -⟩
      rw [hother] at hwork
      cases hwork
    · rintro ⟨-, hall⟩
      have hwork := hall _ hle
      rw [hother] at hwork
      cases hwork
  · obtain ⟨hstopped, hpassed⟩ := runStart_spec messages requestedStart
    rw [hstart, SplitsRun, Nat.add_sub_cancel]
    constructor
    · rintro ⟨-, -, hbefore⟩
      -- the walk has not stopped at a row, so it is at the first one
      have hzero : runStart messages requestedStart = 0 := by
        refine Nat.eq_zero_of_not_pos fun h => ?_
        rw [hstopped h] at hbefore
        cases hbefore
      rw [hzero] at hbefore hpassed
      refine ⟨hpos, fun index hindex => ?_⟩
      rcases Nat.eq_zero_or_pos index with rfl | hlater
      · exact hbefore
      · exact hpassed index hlater hindex
    · rintro ⟨-, hall⟩
      have hle := chatPageStart_le_requested messages requestedStart finish
      rw [hstart] at hle
      exact ⟨Nat.succ_pos _, hall _ hle, hall _ (Nat.le_of_succ_le hle)⟩

/-- **Which pages split a run of work**: those for which the rows from the first one to the
requested start are work without exception, so that the walk back stops at the first row, which is
part of the run, and the start is put behind it. -/
theorem page_splits_run_iff {summarized : ToolStep → ToolStep} {p : TaskProjection}
    {limit finish : Nat} {page : MessagePage} (h : Reached summarized p limit finish page) :
    page = pageFromProjection summarized p (startOf p limit finish) finish ∧
      (SplitsRun p.messages (startOf p limit finish) ↔
        0 < finish - max 1 (min limit 500) ∧
          ∀ index ≤ finish - max 1 (min limit 500), isWork p.messages index) :=
  ⟨h.eq_pageTo, splitsRun_chatPageStart _ _ _⟩

namespace Example

/-- The tail page of the three rows keeps to the user's turn. -/
theorem tail_of_three_rows_unsplit : ¬SplitsRun chat.messages (startOf chat 1 3) := by
  have htail : Reached id chat 1 3 (tailPageOf id chat 1) := .tail
  rw [(page_splits_run_iff htail).2]
  rintro ⟨-, hall⟩
  exact absurd (hall 1 (by decide)) (by decide)

/-- A Chat that begins with two thoughts. -/
def thoughts : TaskProjection := { chat with messages := [row 1 thought, row 2 thought] }

/-- Its tail page of one row leaves the first thought to another page. -/
theorem tail_page_splits_thoughts :
    Reached id thoughts 1 2 (tailPageOf id thoughts 1) ∧
      tailPageOf id thoughts 1 = pageFromProjection id thoughts 1 2 ∧
      SplitsRun thoughts.messages 1 :=
  ⟨.tail, by decide +kernel, by decide, by decide, by decide⟩

end Example

end OpenAide.ChatPage
