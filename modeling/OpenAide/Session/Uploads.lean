import OpenAide.Library.Bytes

/-!
# Uploads in chunks

A client frame that is too large for one request is sent in chunks
(`packages/app-server-client/src/httpTransportLink.ts:265`) and put together again in memory
(`protocol_edge/local_http/reliable_upload_chunks.rs`).  A chunk at offset zero starts its upload
over; every other chunk must continue what has been received.

What is buffered for a key is what was accepted for it since it was last started (`Buffers`),
whatever else was asked for in between:

- `append_cases`: what a request can do;
- `buffers_append`: one request keeps the buffers right;
- `buffers_run`: so does any history of requests;
- `complete_of_append`: what is reported complete is what was buffered and the last chunk.
-/

namespace OpenAide.Uploads

open Library

def MAX_CHUNK_BYTES : Nat := 512 * 1024

def MAX_UPLOAD_BYTES : Nat := 128 * 1024 * 1024

/-- `STALE_UPLOAD_AGE`, in nanoseconds. -/
def STALE_UPLOAD_AGE : Nat := 5 * 60 * 1000000000

/-- A session and the sequence of a frame in it. -/
abbrev Key := String × Nat

structure PendingUpload where
  totalSize : Nat
  bytes : List UInt8
  lastActivity : Nat
  deriving DecidableEq

/-- The uploads under way. -/
def Registry : Type := Key → Option PendingUpload

inductive AppendOutcome where
  | partialUpload
  | complete (message : String)
  deriving DecidableEq

inductive AppendError where
  | invalidChunk | chunkTooLarge | uploadTooLarge | metadataMismatch | offsetMismatch | invalidUtf8
  deriving DecidableEq

/-- One request to `append`, and the time at which it is served. -/
structure Chunk where
  sessionId : String
  sequence : Nat
  offset : Nat
  totalSize : Nat
  chunk : List UInt8
  now : Nat
  deriving DecidableEq

def Chunk.key (request : Chunk) : Key := (request.sessionId, request.sequence)

/-! ## Appending -/

/-- `uploads.retain`: what was not touched for a while goes. -/
def Registry.retain (uploads : Registry) (now : Nat) : Registry := fun key =>
  (uploads key).filter fun upload => now - upload.lastActivity < STALE_UPLOAD_AGE

def Registry.insert (uploads : Registry) (key : Key) (upload : PendingUpload) : Registry :=
  Function.update uploads key (some upload)

def Registry.remove (uploads : Registry) (key : Key) : Registry := Function.update uploads key none

variable (uploads : Registry)

@[simp] theorem Registry.insert_self (key : Key) (upload : PendingUpload) :
    uploads.insert key upload key = some upload := Function.update_self ..

theorem Registry.insert_of_ne {key other : Key} (h : key ≠ other)
    (upload : PendingUpload) : uploads.insert key upload other = uploads other :=
  Function.update_of_ne (Ne.symm h) ..

@[simp] theorem Registry.remove_self (key : Key) :
    uploads.remove key key = none := Function.update_self ..

theorem Registry.remove_of_ne {key other : Key} (h : key ≠ other) :
    uploads.remove key other = uploads other := Function.update_of_ne (Ne.symm h) ..

/-- The uploads a chunk meets: stale ones are gone, and offset zero has started its own over. -/
def Registry.started (uploads : Registry) (request : Chunk) : Registry :=
  if request.offset = 0 then
    (uploads.retain request.now).insert request.key
      { totalSize := request.totalSize, bytes := [], lastActivity := request.now }
  else uploads.retain request.now

/-- The upload with the chunk. -/
def PendingUpload.extend (upload : PendingUpload) (request : Chunk) : PendingUpload :=
  { upload with bytes := upload.bytes ++ request.chunk, lastActivity := request.now }

/-- `append` (`reliable_upload_chunks.rs:47`): the answer, and the uploads after it. -/
def Registry.append (uploads : Registry) (request : Chunk) :
    Except AppendError AppendOutcome × Registry :=
  if request.chunk = [] ∨ request.totalSize < request.offset ∨
      request.totalSize - request.offset < request.chunk.length then (.error .invalidChunk, uploads)
  else if MAX_CHUNK_BYTES < request.chunk.length then (.error .chunkTooLarge, uploads)
  else if MAX_UPLOAD_BYTES < request.totalSize then (.error .uploadTooLarge, uploads)
  else
    let uploads := uploads.started request
    match uploads request.key with
    | none => (.error .offsetMismatch, uploads)
    | some upload =>
      if upload.totalSize ≠ request.totalSize then (.error .metadataMismatch, uploads)
      else if upload.bytes.length ≠ request.offset then (.error .offsetMismatch, uploads)
      else
        let upload := upload.extend request
        if upload.bytes.length < request.totalSize then
          (.ok .partialUpload, uploads.insert request.key upload)
        else
          match String.fromUTF8? ⟨upload.bytes.toArray⟩ with
          | some message => (.ok (.complete message), uploads.remove request.key)
          | none => (.error .invalidUtf8, uploads.remove request.key)

/-- The chunk became part of its upload.  The bytes of the last chunk are taken before they turn out
not to be text. -/
def Accepted : Except AppendError AppendOutcome → Prop
  | .ok _ => True
  | .error error => error = .invalidUtf8

instance (answer : Except AppendError AppendOutcome) : Decidable (Accepted answer) := by
  unfold Accepted
  split <;> infer_instance

/-! ## What was accepted -/

/-- The chunks received so far and one more, which starts over if it is at offset zero. -/
def received (chunks : List Chunk) (request : Chunk) : List Chunk :=
  if request.offset = 0 then [request] else chunks ++ [request]

/-- The accepted chunks of `key`, in `accepted`, since the last one of them at offset zero. -/
def since (key : Key) (accepted : List Chunk) : List Chunk :=
  accepted.foldl (fun chunks request =>
    if request.key = key then received chunks request else chunks) []

/-- The bytes of the chunks, one after another. -/
def joined (chunks : List Chunk) : List UInt8 := chunks.flatMap (·.chunk)

/-- Every chunk is at the offset of what was received before it. -/
def Contiguous (chunks : List Chunk) : Prop :=
  ∀ before request behind, chunks = before ++ request :: behind →
    request.offset = (joined before).length

/-- The chunks are pieces of one upload of `totalSize` bytes, in order and without a gap. -/
structure Pieces (totalSize : Nat) (chunks : List Chunk) : Prop where
  contiguous : Contiguous chunks
  sizes : ∀ request ∈ chunks, request.totalSize = totalSize

theorem joined_concat (chunks : List Chunk) (request : Chunk) :
    joined (chunks ++ [request]) = joined chunks ++ request.chunk := by
  simp [joined]

theorem since_concat (key : Key) (accepted : List Chunk) (request : Chunk) :
    since key (accepted ++ [request]) =
      if request.key = key then received (since key accepted) request else since key accepted := by
  simp [since]

theorem contiguous_nil : Contiguous [] := by
  intro before request behind h
  simp at h

theorem Contiguous.concat {chunks : List Chunk} (h : Contiguous chunks) {request : Chunk}
    (hoffset : request.offset = (joined chunks).length) : Contiguous (chunks ++ [request]) := by
  intro before piece behind heq
  rcases List.eq_nil_or_concat behind with rfl | ⟨more, last, rfl⟩
  · obtain ⟨rfl, hlast⟩ := List.append_inj' heq rfl
    cases hlast
    exact hoffset
  · rw [List.concat_eq_append, ← List.cons_append, ← List.append_assoc] at heq
    exact h before piece more (List.append_inj' heq rfl).1

theorem Pieces.single {request : Chunk} (h : request.offset = 0) :
    Pieces request.totalSize [request] where
  contiguous := contiguous_nil.concat h
  sizes piece hpiece := by rw [List.mem_singleton.mp hpiece]

theorem Pieces.concat {totalSize : Nat} {chunks : List Chunk} (h : Pieces totalSize chunks)
    {request : Chunk} (hoffset : request.offset = (joined chunks).length)
    (hsize : request.totalSize = totalSize) : Pieces totalSize (chunks ++ [request]) where
  contiguous := h.contiguous.concat hoffset
  sizes piece hpiece := by
    rcases List.mem_append.mp hpiece with hpiece | hpiece
    · exact h.sizes piece hpiece
    · rw [List.mem_singleton.mp hpiece]
      exact hsize

/-! ## The buffers -/

/-- What is buffered is what was accepted since the upload was last started. -/
structure Buffers (accepted : List Chunk) (key : Key) (upload : PendingUpload) : Prop where
  bytes : upload.bytes = joined (since key accepted)
  pieces : Pieces upload.totalSize (since key accepted)
  fits : upload.bytes.length ≤ upload.totalSize
  bounded : upload.totalSize ≤ MAX_UPLOAD_BYTES

/-- Every upload under way is buffered right. -/
def Assembling (uploads : Registry) (accepted : List Chunk) : Prop :=
  ∀ key upload, uploads key = some upload → Buffers accepted key upload

/-- Every upload that is still under way is as it was. -/
def Registry.Within (uploads before : Registry) : Prop :=
  ∀ key upload, uploads key = some upload → before key = some upload

theorem Registry.Within.refl : uploads.Within uploads := fun _ _ h => h

theorem within_retain (now : Nat) : (uploads.retain now).Within uploads :=
  fun _ _ h => (Option.filter_eq_some_iff.mp h).1

/-- The upload of a request that was checked: the whole chunk fits behind the bytes before it. -/
structure Continues (uploads : Registry) (request : Chunk) (upload : PendingUpload) : Prop where
  size : upload.totalSize = request.totalSize
  offset : upload.bytes.length = request.offset
  room : request.offset + request.chunk.length ≤ request.totalSize
  bounded : request.totalSize ≤ MAX_UPLOAD_BYTES
  /-- It was started over, or it was under way. -/
  before : request.offset = 0 ∧ upload.bytes = [] ∨
    request.offset ≠ 0 ∧ uploads request.key = some upload

/-- **What a request can do**: it is rejected and changes no upload, or its chunk is put behind what
its upload holds; a full upload leaves the registry. -/
theorem append_cases (request : Chunk) :
    ¬Accepted (uploads.append request).1 ∧ (uploads.append request).2.Within uploads ∨
      ∃ upload, Continues uploads request upload ∧ Accepted (uploads.append request).1 ∧
        ((uploads.append request).1 = .ok .partialUpload ∧
            (uploads.append request).2 =
              (uploads.started request).insert request.key (upload.extend request) ∨
          (upload.extend request).bytes.length = request.totalSize ∧
            (uploads.append request).2 = (uploads.started request).remove request.key ∧
            ((∃ message, String.fromUTF8? ⟨(upload.extend request).bytes.toArray⟩ = some message ∧
                (uploads.append request).1 = .ok (.complete message)) ∨
              (uploads.append request).1 = .error .invalidUtf8)) := by
  have hlength (upload : PendingUpload) :
      (upload.extend request).bytes.length = upload.bytes.length + request.chunk.length :=
    List.length_append
  unfold Registry.append
  split
  · exact .inl ⟨nofun, .refl _⟩
  next hvalid =>
  split
  · exact .inl ⟨nofun, .refl _⟩
  split
  · exact .inl ⟨nofun, .refl _⟩
  next hbounded =>
  simp only [not_or, not_lt] at hvalid hbounded
  dsimp only
  by_cases hzero : request.offset = 0
  · -- Offset zero: the upload that is found is the one just started.
    have hfound : uploads.started request request.key =
        some { totalSize := request.totalSize, bytes := [], lastActivity := request.now } := by
      rw [Registry.started, if_pos hzero, Registry.insert_self]
    rw [hfound]
    dsimp only
    rw [if_neg (by simp), if_neg (by simp [hzero])]
    refine .inr ⟨{ totalSize := request.totalSize, bytes := [], lastActivity := request.now },
      ⟨rfl, by simp [hzero], by omega, hbounded, .inl ⟨hzero, rfl⟩⟩, ?_⟩
    split
    · next hmore => exact ⟨trivial, .inl ⟨rfl, rfl⟩⟩
    · next hfull =>
      have hend := hlength
        { totalSize := request.totalSize, bytes := [], lastActivity := request.now }
      rw [List.length_nil] at hend
      split
      · next message htext => exact ⟨trivial, .inr ⟨by omega, rfl, .inl ⟨message, htext, rfl⟩⟩⟩
      · exact ⟨rfl, .inr ⟨by omega, rfl, .inr rfl⟩⟩
  · have hstarted : uploads.started request = uploads.retain request.now := by
      rw [Registry.started, if_neg hzero]
    have hwithin : (uploads.started request).Within uploads := by
      rw [hstarted]
      exact within_retain uploads request.now
    split
    · exact .inl ⟨nofun, hwithin⟩
    next upload hfound =>
    split
    · exact .inl ⟨nofun, hwithin⟩
    next hsize =>
    split
    · exact .inl ⟨nofun, hwithin⟩
    next hoffset =>
    simp only [not_not] at hsize hoffset
    refine .inr ⟨upload, ⟨hsize, hoffset, by omega, hbounded,
      .inr ⟨hzero, hwithin _ _ hfound⟩⟩, ?_⟩
    have hend := hlength upload
    split
    · next hmore => exact ⟨trivial, .inl ⟨rfl, rfl⟩⟩
    · next hfull =>
      split
      · next message htext => exact ⟨trivial, .inr ⟨by omega, rfl, .inl ⟨message, htext, rfl⟩⟩⟩
      · exact ⟨rfl, .inr ⟨by omega, rfl, .inr rfl⟩⟩

section Steps

variable {uploads : Registry} {accepted : List Chunk} {request : Chunk} {upload : PendingUpload}

theorem pieces_received (h : Assembling uploads accepted)
    (hcontinues : Continues uploads request upload) :
    Pieces request.totalSize (received (since request.key accepted) request) ∧
      joined (received (since request.key accepted) request) = (upload.extend request).bytes := by
  unfold received PendingUpload.extend
  rcases hcontinues.before with ⟨hzero, hempty⟩ | ⟨hzero, hfound⟩
  · rw [if_pos hzero]
    refine ⟨.single hzero, ?_⟩
    rw [hempty]
    simp [joined]
  · have hbuffers := h request.key upload hfound
    have hpieces := hbuffers.pieces
    rw [hcontinues.size] at hpieces
    rw [if_neg hzero, joined_concat, hbuffers.bytes]
    refine ⟨hpieces.concat ?_ rfl, rfl⟩
    rw [← hbuffers.bytes, hcontinues.offset]

theorem started_of_ne (uploads : Registry) {request : Chunk} {key : Key}
    (hkey : request.key ≠ key) : uploads.started request key = uploads.retain request.now key := by
  unfold Registry.started
  split
  · exact Registry.insert_of_ne _ hkey _
  · rfl

theorem buffers_of_ne (h : Assembling uploads accepted) {key : Key} (hkey : request.key ≠ key)
    (hfound : uploads.started request key = some upload) :
    Buffers (accepted ++ [request]) key upload := by
  rw [started_of_ne uploads hkey] at hfound
  have hbuffers := h key upload (within_retain uploads request.now key upload hfound)
  have hsince : since key (accepted ++ [request]) = since key accepted := by
    rw [since_concat, if_neg hkey]
  exact ⟨hsince ▸ hbuffers.bytes, hsince ▸ hbuffers.pieces, hbuffers.fits, hbuffers.bounded⟩

/-- What was accepted, after a request. -/
def acceptedAfter (uploads : Registry) (accepted : List Chunk) (request : Chunk) : List Chunk :=
  if Accepted (uploads.append request).1 then accepted ++ [request] else accepted

/-- **A request keeps the buffers right.** -/
theorem buffers_append (h : Assembling uploads accepted) (request : Chunk) :
    Assembling (uploads.append request).2 (acceptedAfter uploads accepted request) := by
  unfold acceptedAfter
  rcases append_cases uploads request with ⟨hrejected, hwithin⟩ |
    ⟨upload, hcontinues, haccepted, hafter⟩
  · rw [if_neg hrejected]
    exact fun key upload hfound => h key upload (hwithin key upload hfound)
  rw [if_pos haccepted]
  obtain ⟨hpieces, hjoined⟩ := pieces_received h hcontinues
  intro key found hfound
  by_cases hkey : request.key = key
  · subst hkey
    rcases hafter with ⟨-, huploads⟩ | ⟨-, huploads, -⟩
    · have heq : found = upload.extend request := by
        rw [huploads, Registry.insert_self] at hfound
        exact (Option.some.inj hfound).symm
      subst heq
      have hsince : since request.key (accepted ++ [request]) =
          received (since request.key accepted) request := by rw [since_concat, if_pos rfl]
      refine ⟨?_, ?_, ?_, ?_⟩
      · rw [hsince, hjoined]
      · rw [hsince]
        exact hcontinues.size ▸ hpieces
      · show (upload.bytes ++ request.chunk).length ≤ upload.totalSize
        rw [List.length_append, hcontinues.offset, hcontinues.size]
        exact hcontinues.room
      · exact hcontinues.size ▸ hcontinues.bounded
    · rw [huploads, Registry.remove_self] at hfound
      cases hfound
  · refine buffers_of_ne h hkey ?_
    rcases hafter with ⟨-, huploads⟩ | ⟨-, huploads, -⟩
    · rw [huploads, Registry.insert_of_ne _ hkey] at hfound
      exact hfound
    · rw [huploads, Registry.remove_of_ne _ hkey] at hfound
      exact hfound

/-- **What is reported complete is what was accepted since the upload was last started**, all of it.
-/
theorem complete_of_append (h : Assembling uploads accepted) {message : String}
    (hcomplete : (uploads.append request).1 = .ok (.complete message)) :
    let chunks := since request.key (acceptedAfter uploads accepted request)
    message.toUTF8.data.toList = joined chunks ∧ (joined chunks).length = request.totalSize ∧
      Pieces request.totalSize chunks := by
  have haccepts : Accepted (uploads.append request).1 := by
    rw [hcomplete]
    trivial
  rcases append_cases uploads request with ⟨hrejected, -⟩ | ⟨upload, hcontinues, -, hafter⟩
  · exact absurd haccepts hrejected
  obtain ⟨hpieces, hjoined⟩ := pieces_received h hcontinues
  have hsince : since request.key (acceptedAfter uploads accepted request) =
      received (since request.key accepted) request := by
    rw [acceptedAfter, if_pos haccepts, since_concat, if_pos rfl]
  dsimp only
  rw [hsince, hjoined]
  rcases hafter with ⟨hmore, -⟩ | ⟨hfull, -, ⟨text, htext, hanswer⟩ | hinvalid⟩
  · rw [hcomplete] at hmore
    cases hmore
  · rw [hcomplete] at hanswer
    cases hanswer
    exact ⟨toUTF8_of_fromUTF8? htext, hfull, hpieces⟩
  · rw [hcomplete] at hinvalid
    cases hinvalid

end Steps

/-! ## Histories of requests -/

/-- The registry after the requests, and the ones that were accepted. -/
def run (requests : List Chunk) : Registry × List Chunk :=
  requests.foldl (fun state request =>
    ((state.1.append request).2, acceptedAfter state.1 state.2 request)) (fun _ => none, [])

/-- **After any requests, every buffer is right.** -/
theorem buffers_run (requests : List Chunk) : Assembling (run requests).1 (run requests).2 := by
  induction requests using List.reverseRecOn with
  | nil => exact fun _ _ h => nomatch h
  | append_singleton requests request ih =>
    have hstep := buffers_append ih request
    simpa [run] using hstep

/-- **Uploads are assembled exactly.**  After any requests, for the next one: what it reports
complete is the chunks of its upload accepted since the last one at offset zero, each at the offset
of the bytes before it, to the declared size; a rejected one leaves every upload that is still under
way as it was, and an accepted one is put at the end of its own; and no upload under way holds more
than it declared, nor declared more than the bound. -/
theorem uploads_assemble_exactly (requests : List Chunk) (request : Chunk) :
    (∀ message, ((run requests).1.append request).1 = .ok (.complete message) →
      let chunks := since request.key (run (requests ++ [request])).2
      message.toUTF8.data.toList = joined chunks ∧ (joined chunks).length = request.totalSize ∧
        Pieces request.totalSize chunks) ∧
      (¬Accepted ((run requests).1.append request).1 →
        ((run requests).1.append request).2.Within (run requests).1) ∧
      ∀ key upload, (run requests).1 key = some upload →
        upload.bytes = joined (since key (run requests).2) ∧
          Pieces upload.totalSize (since key (run requests).2) ∧
          upload.bytes.length ≤ upload.totalSize ∧ upload.totalSize ≤ MAX_UPLOAD_BYTES := by
  have hbuffers := buffers_run requests
  refine ⟨fun message hcomplete => ?_, fun hrejected => ?_, fun key upload hfound => ?_⟩
  · have hrun : (run (requests ++ [request])).2 =
        acceptedAfter (run requests).1 (run requests).2 request := by simp [run]
    rw [hrun]
    exact complete_of_append hbuffers hcomplete
  · rcases append_cases (run requests).1 request with ⟨-, hwithin⟩ | ⟨_, -, haccepted, -⟩
    · exact hwithin
    · exact absurd haccepted hrejected
  · have h := hbuffers key upload hfound
    exact ⟨h.bytes, h.pieces, h.fits, h.bounded⟩

end OpenAide.Uploads
