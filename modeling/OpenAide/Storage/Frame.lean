import OpenAide.Library.Checksum
import OpenAide.Library.Files
import OpenAide.Protocol.Model

/-!
# The framed journal file

`storage/task_journal/frame.rs`: a journal is a ten-byte header followed by frames, each the length
of its payload, the payload and the payload's CRC-32.  `replay` accepts every complete, verified
frame, cuts off an incomplete last one, and reports everything else as corruption.

The record type is a parameter (`FramedRecord`): `toVec` is the JSON the record serialises to,
`decode` the record type's own decoder.  The fault injector of the source is a test seam that
production leaves disabled; here every action can fail on its own (`OpenAide.Library.Files`).

Results:
* `replayFrames_take`: on any byte prefix of well-formed frames the loop returns exactly the frames
  that lie wholly inside it;
* `exec_replayInternal`: what `replay` and `scan` return and leave on disk for any file that parses;
* `ensures_append`, `ensures_create`, `ensures_replayInternal`: the files a write or a replay can
  leave, whatever goes wrong;
* `replay_written_and_torn`: written records replay, and so does every byte prefix of the file;
* `toBitVec_foldl_crcByte`: the checksum is a CRC (`OpenAide.Library.Checksum`), so no burst of at
  most 32 bits goes unnoticed.
-/

namespace OpenAide.Frame

open Library
open FileSystem (perform set_files_self set_self set_set torn_access torn_sync)
open Outcome (crashed_ne error_ne)

/-! ## Constants and checksum -/

/-- The first bytes of every journal file, `OAIDETJ` and a zero. -/
def MAGIC : Bytes := [79, 65, 73, 68, 69, 84, 74, 0]

def FORMAT_VERSION : Nat := 1

def FILE_HEADER_LEN : Nat := 10

def FRAME_LENGTH_LEN : Nat := 8

def FRAME_CHECKSUM_LEN : Nat := 4

def MAX_FRAME_BYTES : Nat := 256 * 1024 * 1024

/-- The inner loop of `crc32`: shift out eight bits. -/
def crcByte : Nat → UInt32 → UInt32
  | 0, crc => crc
  | n + 1, crc => crcByte n ((crc >>> 1) ^^^ (0xedb88320 &&& (0 - (crc &&& 1))))

/-- `crc32` (`frame.rs:702`). -/
def crc32 (bytes : Bytes) : UInt32 :=
  ~~~ bytes.foldl (fun crc byte => crcByte 8 (crc ^^^ byte.toUInt32)) 0xffffffff

def ioErrorKind : IoErrorKind → String
  | .notFound => "not_found"
  | .permissionDenied => "permission_denied"
  | .alreadyExists => "already_exists"
  | .invalidInput => "invalid_input"
  | .invalidData => "invalid_data"
  | .timedOut => "timed_out"
  | .writeZero => "write_zero"
  | .unexpectedEof => "unexpected_eof"
  | .outOfMemory => "out_of_memory"
  | .unsupported => "unsupported"
  | .other => "other"

/-- `io_error`: the error a failed system call of this file becomes. -/
def ioError (stage : String) (kind : IoErrorKind) : RuntimeError :=
  .storage s!"Task journal {stage} failed (kind={ioErrorKind kind})"

/-! ## Records and frames -/

/-- The trait `FramedRecord`: how a record is written, read back, and numbered. -/
structure FramedRecord (T : Type) where
  toVec : T → Bytes
  decode : Bytes → Except RuntimeError T
  formatVersion : T → Nat
  sequence : T → Nat

/-- What `replay` and `scan` report (`ReplayedFrames`). -/
structure ReplayedFrames (T : Type) where
  frames : List T
  frameEnds : List Nat
  frameCount : Nat
  deriving DecidableEq

def frameTooLarge : RuntimeError :=
  .storage s!"Task journal frame exceeds {MAX_FRAME_BYTES} bytes"

variable {π T : Type}

/-- The bytes of one frame on disk. -/
def frameBytes (record : FramedRecord T) (frame : T) : Bytes :=
  let payload := record.toVec frame
  toLE FRAME_LENGTH_LEN payload.length ++ (payload ++ toLE FRAME_CHECKSUM_LEN (crc32 payload).toNat)

/-- The header every journal starts with. -/
def fileHeader : Bytes := MAGIC ++ toLE 2 FORMAT_VERSION

/-- The bytes of a whole journal. -/
def fileBytes (record : FramedRecord T) (frames : List T) : Bytes :=
  fileHeader ++ frames.flatMap (frameBytes record)

/-! ## Writing -/

/-- A system call of this file, its failure reported under `stage`. -/
def call (stage : String) (a : FileAction π) : FileProg π RuntimeError Unit :=
  .perform a (ioError stage)

/-- `write_frame` (`frame.rs:555`): length, payload and checksum, three writes. -/
def writeFrame (record : FramedRecord T) (path : π) (frame : T) : FileProg π RuntimeError Unit := do
  let payload := record.toVec frame
  if MAX_FRAME_BYTES < payload.length then
    .throw frameTooLarge
  else do
    call "frame_length_write" (.append path (toLE FRAME_LENGTH_LEN payload.length))
    call "frame_payload_write" (.append path payload)
    call "frame_checksum_write" (.append path (toLE FRAME_CHECKSUM_LEN (crc32 payload).toNat))

/-- `create` (`frame.rs:175`). -/
def create (record : FramedRecord T) (path : π) (frame : T) : FileProg π RuntimeError Unit := do
  call "parent_sync" .sync
  call "create_open" (.createNew path)
  call "create_header_write" (.append path MAGIC)
  call "create_header_write" (.append path (toLE 2 FORMAT_VERSION))
  writeFrame record path frame
  call "create_sync" .sync
  call "parent_sync" .sync

/-- `append` (`frame.rs:242`). -/
def append (record : FramedRecord T) (path : π) (frame : T) : FileProg π RuntimeError Unit := do
  call "append_open" (.access path)
  writeFrame record path frame
  call "append_sync" .sync

/-! ## Reading -/

/-- `validate_header` (`frame.rs:534`); a file shorter than the header fails the same way. -/
def validateHeader (bytes : Bytes) : Except RuntimeError Unit :=
  if bytes.length < FILE_HEADER_LEN ∨ bytes.take MAGIC.length ≠ MAGIC then
    .error (.storage "Invalid Task journal header")
  else
    let version := fromLE ((bytes.drop MAGIC.length).take 2)
    if version ≠ FORMAT_VERSION then
      .error (.storage s!"Unsupported Task journal version {version}")
    else .ok ()

/-- The body of the loop of `replay_internal` (`frame.rs:394`) on the bytes from the cursor on: the
next frame and its length on disk, or `none` for an incomplete final frame. -/
def readFrame (record : FramedRecord T) (expected : Nat) (rest : Bytes) :
    Except RuntimeError (Option (T × Nat)) :=
  if rest.length < FRAME_LENGTH_LEN then .ok none
  else
    let payloadLen := fromLE (rest.take FRAME_LENGTH_LEN)
    if MAX_FRAME_BYTES < payloadLen then .error frameTooLarge
    else
      let frameLen := FRAME_LENGTH_LEN + payloadLen + FRAME_CHECKSUM_LEN
      if rest.length < frameLen then .ok none
      else
        let payload := (rest.drop FRAME_LENGTH_LEN).take payloadLen
        let checksum := fromLE ((rest.drop (FRAME_LENGTH_LEN + payloadLen)).take FRAME_CHECKSUM_LEN)
        if (crc32 payload).toNat ≠ checksum then
          .error (.storage s!"Task journal checksum mismatch at sequence {expected}")
        else
          match record.decode payload with
          | .error e => .error e
          | .ok frame =>
            if record.formatVersion frame ≠ FORMAT_VERSION then
              .error (.storage s!"Unsupported journal frame version {record.formatVersion frame}")
            else if record.sequence frame ≠ expected then
              .error (.storage
                s!"Task journal sequence gap: expected {expected}, found {record.sequence frame}")
            else .ok (some (frame, frameLen))

/-- The loop: each frame with the file position it ends at. -/
def replayFrames (record : FramedRecord T) :
    (fuel cursor expected : Nat) → Bytes → Except RuntimeError (List (T × Nat))
  | 0, _, _, _ => .ok []
  | fuel + 1, cursor, expected, rest =>
    match readFrame record expected rest with
    | .error e => .error e
    | .ok none => .ok []
    | .ok (some (frame, frameLen)) =>
      match replayFrames record fuel (cursor + frameLen) (expected + 1) (rest.drop frameLen) with
      | .error e => .error e
      | .ok later => .ok ((frame, cursor + frameLen) :: later)

/-- Header check and loop: the frames of a whole file with their ends. -/
def parseFile (record : FramedRecord T) (bytes : Bytes) : Except RuntimeError (List (T × Nat)) :=
  match validateHeader (bytes.take FILE_HEADER_LEN) with
  | .error e => .error e
  | .ok () =>
    let body := bytes.drop FILE_HEADER_LEN
    replayFrames record body.length FILE_HEADER_LEN 1 body

/-- Where a run of the loop from `cursor` ends. -/
def lastEnd (cursor : Nat) (frames : List (T × Nat)) : Nat :=
  (frames.getLast?.map Prod.snd).getD cursor

/-- Where the last complete frame of a file ends: `complete_len`. -/
def completeLen (frames : List (T × Nat)) : Nat := lastEnd FILE_HEADER_LEN frames

/-- `replay_internal` (`frame.rs:365`). -/
def replayInternal (record : FramedRecord T) (path : π) (retainFrames : Bool) :
    FileProg π RuntimeError (ReplayedFrames T) := do
  let bytes ← FileProg.readFile path (ioError "replay_open")
  let frames ← .ofExcept (parseFile record bytes)
  if completeLen frames < bytes.length then do
    call "tail_recovery_truncate" (.setLen path (completeLen frames))
    call "tail_recovery_sync" .sync
  .pure
    { frames := if retainFrames then frames.map Prod.fst else []
      frameEnds := frames.map Prod.snd
      frameCount := frames.length }

/-- Replays complete verified frames, removing an incomplete final one. -/
def replay (record : FramedRecord T) (path : π) : FileProg π RuntimeError (ReplayedFrames T) :=
  replayInternal record path true

/-- Validates and indexes a journal without keeping its frames. -/
def scan (record : FramedRecord T) (path : π) : FileProg π RuntimeError (ReplayedFrames T) :=
  replayInternal record path false

/-! ## What replay reads back -/

/-- A record that can stand at position `n` of a journal: its decoder inverts its encoding, it fits
a frame, and it carries the current version and the number `n`. -/
structure Replayable (record : FramedRecord T) (n : Nat) (frame : T) : Prop where
  decode_toVec : record.decode (record.toVec frame) = .ok frame
  fits : (record.toVec frame).length ≤ MAX_FRAME_BYTES
  version : record.formatVersion frame = FORMAT_VERSION
  sequence : record.sequence frame = n

/-- Records numbered consecutively from `n` on. -/
def Consecutive (record : FramedRecord T) (n : Nat) (frames : List T) : Prop :=
  ∀ i frame, frames[i]? = some frame → Replayable record (n + i) frame

theorem consecutive_nil (record : FramedRecord T) (n : Nat) : Consecutive record n [] := by
  intro i frame h
  simp at h

theorem consecutive_cons {record : FramedRecord T} {n : Nat} {f : T} {fs : List T} :
    Consecutive record n (f :: fs) ↔ Replayable record n f ∧ Consecutive record (n + 1) fs := by
  constructor
  · intro h
    refine ⟨h 0 f rfl, fun i g hg => ?_⟩
    have := h (i + 1) g (by simpa using hg)
    rwa [show n + (i + 1) = n + 1 + i by omega] at this
  · rintro ⟨hf, hfs⟩ i g hg
    cases i with
    | zero =>
      obtain rfl : f = g := by simpa using hg
      exact hf
    | succ i =>
      have := hfs i g (by simpa using hg)
      rwa [show n + 1 + i = n + (i + 1) by omega] at this

theorem consecutive_append {record : FramedRecord T} {n : Nat} {fs gs : List T} :
    Consecutive record n (fs ++ gs) ↔
      Consecutive record n fs ∧ Consecutive record (n + fs.length) gs := by
  induction fs generalizing n with
  | nil => simp [consecutive_nil]
  | cons f fs ih =>
    simp only [List.cons_append, consecutive_cons, ih, List.length_cons, and_assoc]
    rw [show n + 1 + fs.length = n + (fs.length + 1) by omega]

/-- The frames of a journal with the file positions they end at. -/
def withEnds (record : FramedRecord T) : Nat → List T → List (T × Nat)
  | _, [] => []
  | cursor, f :: fs =>
    let ending := cursor + (frameBytes record f).length
    (f, ending) :: withEnds record ending fs

theorem length_frameBytes (record : FramedRecord T) (f : T) :
    (frameBytes record f).length =
      FRAME_LENGTH_LEN + (record.toVec f).length + FRAME_CHECKSUM_LEN := by
  simp [frameBytes]
  omega

variable {k cursor : Nat}

section Loop

variable {record : FramedRecord T} {n : Nat} {f : T}

theorem fromLE_payloadLen (hf : Replayable record n f) :
    fromLE (toLE FRAME_LENGTH_LEN (record.toVec f).length) = (record.toVec f).length := by
  refine fromLE_toLE (lt_of_le_of_lt hf.fits ?_)
  decide

theorem fromLE_checksum (crc : UInt32) : fromLE (toLE FRAME_CHECKSUM_LEN crc.toNat) = crc.toNat :=
  fromLE_toLE (lt_of_lt_of_le crc.toNat_lt (by decide))

theorem readFrame_frameBytes (hf : Replayable record n f) (rest : Bytes) :
    readFrame record n (frameBytes record f ++ rest) =
      .ok (some (f, (frameBytes record f).length)) := by
  rw [length_frameBytes]
  generalize hP : record.toVec f = P
  generalize hL : toLE FRAME_LENGTH_LEN P.length = L
  generalize hC : toLE FRAME_CHECKSUM_LEN (crc32 P).toNat = C
  have hLlen : L.length = FRAME_LENGTH_LEN := by rw [← hL, length_toLE]
  have hClen : C.length = FRAME_CHECKSUM_LEN := by rw [← hC, length_toLE]
  have hbytes : frameBytes record f ++ rest = L ++ (P ++ (C ++ rest)) := by
    simp [frameBytes, hP, hL, hC]
  -- the fields of the frame, as the loop cuts them out
  have hlen : fromLE ((L ++ (P ++ (C ++ rest))).take FRAME_LENGTH_LEN) = P.length := by
    rw [List.take_left' hLlen, ← hL, ← hP, fromLE_payloadLen hf]
  have hpayload : ((L ++ (P ++ (C ++ rest))).drop FRAME_LENGTH_LEN).take P.length = P := by
    rw [List.drop_left' hLlen, List.take_left]
  have hchecksum : ((L ++ (P ++ (C ++ rest))).drop (FRAME_LENGTH_LEN + P.length)).take
      FRAME_CHECKSUM_LEN = C := by
    rw [← List.append_assoc, List.drop_left' (by simp [hLlen]), List.take_left' hClen]
  have hfits : ¬ MAX_FRAME_BYTES < P.length := by rw [← hP]; exact not_lt.mpr hf.fits
  have hdecode : record.decode P = .ok f := by rw [← hP]; exact hf.decode_toVec
  have hcrc : fromLE C = (crc32 P).toNat := by rw [← hC, fromLE_checksum]
  have hlong : ¬ (L ++ (P ++ (C ++ rest))).length < FRAME_LENGTH_LEN := by simp [hLlen]
  have hwhole : ¬ (L ++ (P ++ (C ++ rest))).length <
      FRAME_LENGTH_LEN + P.length + FRAME_CHECKSUM_LEN := by
    simp [hLlen, hClen]; omega
  rw [hbytes, readFrame]
  simp only [hlong, hlen, hfits, hwhole, hpayload, hchecksum, hdecode, hcrc, hf.version,
    hf.sequence, if_false, ne_eq, not_true_eq_false]

theorem readFrame_torn (hf : Replayable record n f) (rest : Bytes)
    (hk : k < (frameBytes record f).length) :
    readFrame record n ((frameBytes record f ++ rest).take k) = .ok none := by
  rw [List.take_append_of_le_length hk.le]
  have hlen : ((frameBytes record f).take k).length = k := by
    rw [List.length_take, min_eq_left hk.le]
  rw [readFrame, hlen]
  by_cases hshort : k < FRAME_LENGTH_LEN
  · rw [if_pos hshort]
  · -- the length field is complete, so the announced length is the frame's own
    have hfield : ((frameBytes record f).take k).take FRAME_LENGTH_LEN =
        toLE FRAME_LENGTH_LEN (record.toVec f).length := by
      rw [List.take_take, min_eq_left (not_lt.mp hshort), frameBytes,
        List.take_left' (length_toLE _ _)]
    have hk' : k < FRAME_LENGTH_LEN + (record.toVec f).length + FRAME_CHECKSUM_LEN := by
      rwa [← length_frameBytes]
    simp only [hshort, hfield, fromLE_payloadLen hf, not_lt.mpr hf.fits, hk', if_true, if_false]

theorem slice_eq {xs ys : Bytes} {a b len : Nat} (h : xs.take len = ys.take len)
    (hab : a + b ≤ len) : (xs.drop a).take b = (ys.drop a).take b := by
  have hslice : ∀ zs : Bytes, (zs.drop a).take b = ((zs.take len).take (a + b)).drop a := by
    intro zs
    rw [List.take_take, min_eq_left hab, List.drop_take, Nat.add_sub_cancel_left]
  rw [hslice xs, hslice ys, h]

theorem readFrame_eq_some {rest : Bytes} {len : Nat}
    (h : readFrame record n rest = .ok (some (f, len))) :
    FRAME_LENGTH_LEN + FRAME_CHECKSUM_LEN ≤ len ∧ len ≤ rest.length ∧
      ∀ other, other.take len = rest.take len → readFrame record n other = .ok (some (f, len)) := by
  unfold readFrame at h
  simp only at h
  split_ifs at h with hshort hbig hpart hcrc
  · cases h
  · cases h
  · cases hdec : record.decode ((rest.drop FRAME_LENGTH_LEN).take
        (fromLE (rest.take FRAME_LENGTH_LEN))) with
    | error e => simp [hdec] at h
    | ok g =>
      simp only [hdec] at h
      split_ifs at h with hver hseq
      obtain ⟨rfl, rfl⟩ : g = f ∧ _ = len := by simpa using h
      refine ⟨by omega, not_lt.mp hpart, fun other hother => ?_⟩
      have hlong : FRAME_LENGTH_LEN + fromLE (rest.take FRAME_LENGTH_LEN) + FRAME_CHECKSUM_LEN ≤
          other.length := by
        have := congrArg List.length hother
        rw [List.length_take, List.length_take, min_eq_left (not_lt.mp hpart)] at this
        omega
      have hfield : other.take FRAME_LENGTH_LEN = rest.take FRAME_LENGTH_LEN := by
        have := slice_eq (a := 0) (b := FRAME_LENGTH_LEN) hother (by omega)
        simpa using this
      have hpayload := slice_eq (a := FRAME_LENGTH_LEN)
        (b := fromLE (rest.take FRAME_LENGTH_LEN)) hother (by omega)
      have hchecksum := slice_eq (a := FRAME_LENGTH_LEN + fromLE (rest.take FRAME_LENGTH_LEN))
        (b := FRAME_CHECKSUM_LEN) hother le_rfl
      have hshort' : ¬ other.length < FRAME_LENGTH_LEN := by omega
      unfold readFrame
      simp only [hshort', hfield, hbig, not_lt.mpr hlong, hpayload, hchecksum, hcrc, hdec, hver,
        hseq, if_false]

theorem withEnds_ge {frames : List T} {e : T × Nat} (he : e ∈ withEnds record cursor frames) :
    cursor ≤ e.2 := by
  induction frames generalizing cursor with
  | nil => simp [withEnds] at he
  | cons g gs ih =>
    rcases List.mem_cons.mp he with rfl | he
    · exact Nat.le_add_right _ _
    · exact le_trans (Nat.le_add_right _ _) (ih he)

theorem withEnds_cons_ge {g : T} {gs : List T} {e : T × Nat}
    (he : e ∈ withEnds record cursor (g :: gs)) : cursor + (frameBytes record g).length ≤ e.2 := by
  rcases List.mem_cons.mp he with rfl | he
  · exact le_rfl
  · exact withEnds_ge he

/-- **The loop on a byte prefix of well-formed frames** returns the frames wholly inside it. -/
theorem replayFrames_take {frames : List T} (h : Consecutive record n frames)
    (fuel cursor k : Nat) (hfuel : k ≤ fuel) :
    replayFrames record fuel cursor n ((frames.flatMap (frameBytes record)).take k) =
      .ok ((withEnds record cursor frames).filter (·.2 ≤ cursor + k)) := by
  -- the induction follows the frames; each complete one uses up one unit of fuel and its bytes
  induction frames generalizing n fuel cursor k with
  | nil => cases fuel <;> simp [replayFrames, readFrame, withEnds, FRAME_LENGTH_LEN]
  | cons g gs ih =>
    obtain ⟨hg, hgs⟩ := consecutive_cons.mp h
    have hlen := length_frameBytes record g
    rw [List.flatMap_cons]
    by_cases hk : (frameBytes record g).length ≤ k
    · obtain ⟨fuel, rfl⟩ : ∃ m, fuel = m + 1 :=
        ⟨fuel - 1, by simp only [FRAME_LENGTH_LEN] at hlen; omega⟩
      have hfuel' : k - (frameBytes record g).length ≤ fuel := by
        simp only [FRAME_LENGTH_LEN] at hlen; omega
      rw [List.take_append, List.take_of_length_le hk, replayFrames, readFrame_frameBytes hg]
      simp only [List.drop_left]
      rw [ih hgs fuel _ _ hfuel', withEnds, List.filter_cons_of_pos (by simpa using hk)]
      simp only [Nat.add_assoc, Nat.add_sub_cancel' hk]
    · have hnone : (withEnds record cursor (g :: gs)).filter (·.2 ≤ cursor + k) = [] := by
        refine List.filter_eq_nil_iff.mpr fun e he => ?_
        have hge := withEnds_cons_ge he
        simp only [decide_eq_true_eq]
        omega
      rw [hnone]
      cases fuel with
      | zero => rfl
      | succ fuel => rw [replayFrames, readFrame_torn hg _ (not_le.mp hk)]

theorem replayFrames_fuel {fuel : Nat} {rest : Bytes} (h : rest.length ≤ fuel) :
    replayFrames record fuel cursor n rest = replayFrames record rest.length cursor n rest := by
  induction fuel using Nat.strong_induction_on generalizing cursor n rest with
  | _ fuel ih =>
    cases fuel with
    | zero => rw [Nat.le_zero.mp h]
    | succ fuel =>
      cases hr : rest.length with
      | zero =>
        obtain rfl : rest = [] := List.length_eq_zero_iff.mp hr
        simp [replayFrames, readFrame, FRAME_LENGTH_LEN]
      | succ m =>
        cases hread : readFrame record n rest with
        | error e => simp only [replayFrames, hread]
        | ok found =>
          match found with
          | none => simp only [replayFrames, hread]
          | some (g, len) =>
            have hlen := (readFrame_eq_some hread).1
            have hdrop : (rest.drop len).length ≤ m := by
              simp only [List.length_drop, FRAME_LENGTH_LEN, FRAME_CHECKSUM_LEN] at hlen ⊢
              omega
            simp only [replayFrames, hread]
            rw [ih fuel (by omega) (by omega), ih m (by omega) hdrop]

theorem lastEnd_cons (cursor : Nat) (x : T × Nat) (xs : List (T × Nat)) :
    lastEnd cursor (x :: xs) = lastEnd x.2 xs := by
  cases xs with
  | nil => rfl
  | cons y ys =>
    simp only [lastEnd, List.getLast?_cons_cons]
    cases h : (y :: ys).getLast? with
    | none => simp at h
    | some z => rfl

theorem replayFrames_truncate {fuel : Nat} {rest : Bytes} {frames : List (T × Nat)}
    (h : replayFrames record fuel cursor n rest = .ok frames) :
    cursor ≤ lastEnd cursor frames ∧ lastEnd cursor frames - cursor ≤ rest.length ∧
      replayFrames record fuel cursor n (rest.take (lastEnd cursor frames - cursor)) =
        .ok frames := by
  induction fuel generalizing cursor n rest frames with
  | zero =>
    obtain rfl : [] = frames := by simpa [replayFrames] using h
    simp [lastEnd, replayFrames]
  | succ fuel ih =>
    rw [replayFrames] at h
    cases hread : readFrame record n rest with
    | error e => simp [hread] at h
    | ok found =>
      match found with
      | none =>
        obtain rfl : [] = frames := by simpa [hread] using h
        simp [lastEnd, replayFrames, readFrame, FRAME_LENGTH_LEN]
      | some (g, len) =>
        obtain ⟨hmin, hmax, hother⟩ := readFrame_eq_some hread
        simp only [hread] at h
        cases hlater : replayFrames record fuel (cursor + len) (n + 1) (rest.drop len) with
        | error e => simp [hlater] at h
        | ok later =>
          obtain rfl : (g, cursor + len) :: later = frames := by simpa [hlater] using h
          obtain ⟨hge, hle, hagain⟩ := ih hlater
          rw [lastEnd_cons]
          simp only at hge hle hagain ⊢
          rw [List.length_drop] at hle
          refine ⟨by omega, by omega, ?_⟩
          have hsame : (rest.take (lastEnd (cursor + len) later - cursor)).take len =
              rest.take len := by
            rw [List.take_take, min_eq_left (by omega)]
          have hdrop : (rest.take (lastEnd (cursor + len) later - cursor)).drop len =
              (rest.drop len).take (lastEnd (cursor + len) later - (cursor + len)) := by
            rw [List.drop_take, Nat.sub_sub]
          rw [replayFrames, hother _ hsame]
          simp only [hdrop, hagain]

end Loop

/-! ## Whole files -/

variable {f : T} {bytes : Bytes} {found : List (T × Nat)}

section Files

variable {record : FramedRecord T} {frames : List T}

/-- The frames that lie wholly inside the first `k` bytes of a journal. -/
def wholeFrames (record : FramedRecord T) (frames : List T) (k : Nat) : List T :=
  ((withEnds record FILE_HEADER_LEN frames).filter (·.2 ≤ k)).map Prod.fst

@[simp] theorem map_fst_withEnds (cursor : Nat) (frames : List T) :
    (withEnds record cursor frames).map Prod.fst = frames := by
  induction frames generalizing cursor with
  | nil => rfl
  | cons f fs ih => simp [withEnds, ih]

@[simp] theorem length_withEnds (cursor : Nat) (frames : List T) :
    (withEnds record cursor frames).length = frames.length := by
  rw [← List.length_map Prod.fst, map_fst_withEnds]

theorem lastEnd_withEnds (cursor : Nat) (frames : List T) :
    lastEnd cursor (withEnds record cursor frames) =
      cursor + (frames.flatMap (frameBytes record)).length := by
  induction frames generalizing cursor with
  | nil => rfl
  | cons f fs ih =>
    rw [withEnds, lastEnd_cons]
    simp only [ih, List.flatMap_cons, List.length_append, Nat.add_assoc]

theorem filter_withEnds (record : FramedRecord T) (cursor k : Nat) (frames : List T) :
    ∃ fs gs, frames = fs ++ gs ∧ (fs.flatMap (frameBytes record)).length ≤ k ∧
      (withEnds record cursor frames).filter (·.2 ≤ cursor + k) = withEnds record cursor fs := by
  induction frames generalizing cursor k with
  | nil => exact ⟨[], [], rfl, by simp, rfl⟩
  | cons f fs ih =>
    by_cases hk : (frameBytes record f).length ≤ k
    · obtain ⟨as, bs, rfl, hlen, hfilter⟩ := ih (cursor + (frameBytes record f).length)
        (k - (frameBytes record f).length)
      refine ⟨f :: as, bs, rfl, ?_, ?_⟩
      · simp only [List.flatMap_cons, List.length_append]; omega
      · rw [Nat.add_assoc, Nat.add_sub_cancel' hk] at hfilter
        rw [withEnds, List.filter_cons_of_pos (by simpa using hk), hfilter, withEnds]
    · refine ⟨[], f :: fs, rfl, by simp, List.filter_eq_nil_iff.mpr fun e he => ?_⟩
      have hge := withEnds_cons_ge he
      simp only [decide_eq_true_eq]
      omega

theorem wholeFrames_spec (record : FramedRecord T) (frames : List T) (hk : FILE_HEADER_LEN ≤ k) :
    ∃ gs, frames = wholeFrames record frames k ++ gs ∧
      (withEnds record FILE_HEADER_LEN frames).filter (·.2 ≤ k) =
        withEnds record FILE_HEADER_LEN (wholeFrames record frames k) ∧
      (fileBytes record (wholeFrames record frames k)).length ≤ k := by
  obtain ⟨fs, gs, hsplit, hlen, hfilter⟩ :=
    filter_withEnds record FILE_HEADER_LEN (k - FILE_HEADER_LEN) frames
  rw [Nat.add_sub_cancel' hk] at hfilter
  have hwhole : wholeFrames record frames k = fs := by
    rw [wholeFrames, hfilter, map_fst_withEnds]
  rw [hwhole]
  refine ⟨gs, hsplit, hfilter, ?_⟩
  have hheader : fileHeader.length = FILE_HEADER_LEN := rfl
  rw [fileBytes, List.length_append, hheader]
  omega

@[simp] theorem length_fileHeader : fileHeader.length = FILE_HEADER_LEN := rfl

theorem validateHeader_fileHeader : validateHeader fileHeader = .ok () := rfl

/-- **Parsing a byte prefix of a journal** that still holds the header. -/
theorem parseFile_take (h : Consecutive record 1 frames) (hk : FILE_HEADER_LEN ≤ k) :
    parseFile record ((fileBytes record frames).take k) =
      .ok (withEnds record FILE_HEADER_LEN (wholeFrames record frames k)) := by
  have hheader : ((fileBytes record frames).take k).take FILE_HEADER_LEN = fileHeader := by
    rw [List.take_take, min_eq_left hk, fileBytes, List.take_left' length_fileHeader]
  have hbody : ((fileBytes record frames).take k).drop FILE_HEADER_LEN =
      (frames.flatMap (frameBytes record)).take (k - FILE_HEADER_LEN) := by
    rw [List.drop_take, fileBytes, List.drop_left' length_fileHeader]
  have hlen : ((frames.flatMap (frameBytes record)).take (k - FILE_HEADER_LEN)).length ≤
      k - FILE_HEADER_LEN := List.length_take_le _ _
  obtain ⟨_, _, hfilter, _⟩ := wholeFrames_spec record frames hk
  simp only [parseFile, hheader, hbody, validateHeader_fileHeader]
  rw [← replayFrames_fuel hlen, replayFrames_take h _ _ _ le_rfl, Nat.add_sub_cancel' hk, hfilter]

theorem length_fileBytes (record : FramedRecord T) (frames : List T) :
    (fileBytes record frames).length =
      completeLen (withEnds record FILE_HEADER_LEN frames) := by
  rw [completeLen, lastEnd_withEnds, fileBytes, List.length_append, length_fileHeader]

theorem withEnds_le {record : FramedRecord T} {frames : List T} {e : T × Nat}
    (he : e ∈ withEnds record cursor frames) :
    e.2 ≤ cursor + (frames.flatMap (frameBytes record)).length := by
  induction frames generalizing cursor with
  | nil => simp [withEnds] at he
  | cons f fs ih =>
    rcases List.mem_cons.mp he with rfl | he
    · simp
    · have := ih he
      simp only [List.flatMap_cons, List.length_append]
      omega

theorem withEnds_concat (record : FramedRecord T) (cursor : Nat) (frames : List T) (f : T) :
    withEnds record cursor (frames ++ [f]) = withEnds record cursor frames ++
      [(f, cursor + ((frames ++ [f]).flatMap (frameBytes record)).length)] := by
  induction frames generalizing cursor with
  | nil => simp [withEnds]
  | cons g fs ih =>
    simp only [List.cons_append, withEnds, ih, List.flatMap_cons, List.length_append]
    rw [Nat.add_assoc]

theorem fileBytes_concat (record : FramedRecord T) (frames : List T) (f : T) :
    fileBytes record (frames ++ [f]) = fileBytes record frames ++ frameBytes record f := by
  simp [fileBytes]

theorem wholeFrames_length (record : FramedRecord T) (frames : List T) :
    wholeFrames record frames (fileBytes record frames).length = frames := by
  rw [wholeFrames, List.filter_eq_self.mpr, map_fst_withEnds]
  intro e he
  have := withEnds_le he
  simpa [fileBytes] using this

theorem wholeFrames_torn {record : FramedRecord T} {frames : List T}
    (hge : (fileBytes record frames).length ≤ k)
    (hlt : k < (fileBytes record (frames ++ [f])).length) :
    wholeFrames record (frames ++ [f]) k = frames := by
  have hkept : (withEnds record FILE_HEADER_LEN frames).filter (·.2 ≤ k) =
      withEnds record FILE_HEADER_LEN frames := by
    refine List.filter_eq_self.mpr fun e he => ?_
    have := withEnds_le he
    rw [fileBytes, List.length_append, length_fileHeader] at hge
    simp only [decide_eq_true_eq]
    omega
  rw [fileBytes, List.length_append, length_fileHeader] at hlt
  rw [wholeFrames, withEnds_concat, List.filter_append, hkept,
    List.filter_cons_of_neg (by simpa using hlt), List.filter_nil, List.append_nil,
    map_fst_withEnds]

theorem parseFile_fileBytes (h : Consecutive record 1 frames) :
    parseFile record (fileBytes record frames) = .ok (withEnds record FILE_HEADER_LEN frames) := by
  have hlen : FILE_HEADER_LEN ≤ (fileBytes record frames).length := by simp [fileBytes]
  have := parseFile_take h hlen
  rwa [List.take_length, wholeFrames_length] at this

theorem take_completeLen (record : FramedRecord T) (frames : List T) (hk : FILE_HEADER_LEN ≤ k) :
    ((fileBytes record frames).take k).take
        (completeLen (withEnds record FILE_HEADER_LEN (wholeFrames record frames k))) =
      fileBytes record (wholeFrames record frames k) := by
  obtain ⟨gs, hsplit, _, hlen⟩ := wholeFrames_spec record frames hk
  rw [← length_fileBytes, List.take_take, min_eq_left hlen]
  have hwhole : fileBytes record frames = fileBytes record (wholeFrames record frames k) ++
      gs.flatMap (frameBytes record) := by
    conv_lhs => rw [hsplit]
    simp [fileBytes]
  rw [hwhole, List.take_left]

theorem parseFile_truncate (h : parseFile record bytes = .ok found) :
    completeLen found ≤ bytes.length ∧
      parseFile record (bytes.take (completeLen found)) = .ok found := by
  unfold parseFile at h
  cases hv : validateHeader (bytes.take FILE_HEADER_LEN) with
  | error e => simp [hv] at h
  | ok u =>
    simp only [hv] at h
    obtain ⟨hge, hle, hagain⟩ := replayFrames_truncate h
    have hshort : FILE_HEADER_LEN ≤ bytes.length := by
      by_contra hlt
      unfold validateHeader at hv
      rw [if_pos (.inl (by rw [List.length_take]; omega))] at hv
      cases hv
    rw [List.length_drop] at hle
    refine ⟨by rw [completeLen]; omega, ?_⟩
    have hheader : (bytes.take (completeLen found)).take FILE_HEADER_LEN =
        bytes.take FILE_HEADER_LEN := by
      rw [List.take_take, min_eq_left (by rw [completeLen]; exact hge)]
    have hbody : (bytes.take (completeLen found)).drop FILE_HEADER_LEN =
        (bytes.drop FILE_HEADER_LEN).take (lastEnd FILE_HEADER_LEN found - FILE_HEADER_LEN) := by
      rw [List.drop_take, completeLen]
    have hfuel : ((bytes.drop FILE_HEADER_LEN).take
        (lastEnd FILE_HEADER_LEN found - FILE_HEADER_LEN)).length ≤
        (bytes.drop FILE_HEADER_LEN).length := by
      rw [List.length_take]; exact min_le_right _ _
    simp only [parseFile, hheader, hv, hbody]
    rw [← replayFrames_fuel hfuel, hagain]

end Files

/-! ## Runs without faults -/

variable {content : Bytes}

section Exec

variable [DecidableEq π] {record : FramedRecord T} {path : π} {fs : FileSystem π}

theorem exec_writeFrame (hc : fs.files path = some content)
    (hfits : (record.toVec f).length ≤ MAX_FRAME_BYTES) :
    (writeFrame record path f).exec fs =
      (.ok (), fs.set path (some (content ++ frameBytes record f))) := by
  simp [writeFrame, call, not_lt.mpr hfits, perform, hc, frameBytes]

theorem exec_create (hc : fs.files path = none)
    (hfits : (record.toVec f).length ≤ MAX_FRAME_BYTES) :
    (create record path f).exec fs = (.ok (), fs.set path (some (fileBytes record [f]))) := by
  have hframe : (writeFrame record path f).exec (fs.set path (some fileHeader)) =
      (.ok (), (fs.set path (some fileHeader)).set path
        (some (fileHeader ++ frameBytes record f))) :=
    exec_writeFrame (set_files_self _ _ _) hfits
  simp only [create, call, Prog.bind_eq, Prog.exec_bind, FileProg.exec_perform,
    perform, hc, set_files_self, set_set, List.nil_append]
  rw [show MAGIC ++ toLE 2 FORMAT_VERSION = fileHeader from rfl, hframe]
  simp [fileBytes]

theorem exec_append (hc : fs.files path = some content)
    (hfits : (record.toVec f).length ≤ MAX_FRAME_BYTES) :
    (append record path f).exec fs =
      (.ok (), fs.set path (some (content ++ frameBytes record f))) := by
  simp [append, call, perform, hc, exec_writeFrame hc hfits]

/-- What `replay` and `scan` report about parsed frames. -/
def report (retainFrames : Bool) (found : List (T × Nat)) : ReplayedFrames T where
  frames := if retainFrames then found.map Prod.fst else []
  frameEnds := found.map Prod.snd
  frameCount := found.length

/-- **Replaying a file**: its complete frames are reported and the rest is cut off. -/
theorem exec_replayInternal (hc : fs.files path = some bytes)
    (hparse : parseFile record bytes = .ok found) (retain : Bool) :
    (replayInternal record path retain).exec fs =
      (.ok (report retain found), fs.set path (some (bytes.take (completeLen found)))) := by
  have hle := (parseFile_truncate hparse).1
  by_cases htail : completeLen found < bytes.length
  · simp [replayInternal, call, hc, hparse, Prog.ofExcept, htail, perform, report]
  · have hsame : fs.set path (some (bytes.take (completeLen found))) = fs := by
      rw [List.take_of_length_le (not_lt.mp htail), ← hc, set_self]
    simp [replayInternal, call, hc, hparse, Prog.ofExcept, htail, report, hsame]

variable {frames : List T}

theorem exec_replay_take (h : Consecutive record 1 frames) (hk : FILE_HEADER_LEN ≤ k)
    (hc : fs.files path = some ((fileBytes record frames).take k)) (retain : Bool) :
    (replayInternal record path retain).exec fs =
      (.ok (report retain (withEnds record FILE_HEADER_LEN (wholeFrames record frames k))),
        fs.set path (some (fileBytes record (wholeFrames record frames k)))) := by
  rw [exec_replayInternal hc (parseFile_take h hk), take_completeLen record frames hk]

theorem exec_replay_fileBytes (h : Consecutive record 1 frames)
    (hc : fs.files path = some (fileBytes record frames)) (retain : Bool) :
    (replayInternal record path retain).exec fs =
      (.ok (report retain (withEnds record FILE_HEADER_LEN frames)), fs) := by
  have hlen : FILE_HEADER_LEN ≤ (fileBytes record frames).length := by simp [fileBytes]
  have hcut : fs.files path =
      some ((fileBytes record frames).take (fileBytes record frames).length) := by
    rw [List.take_length, hc]
  rw [exec_replay_take h hlen hcut, wholeFrames_length, ← hc, set_self]

/-- Writing a whole journal: the first record creates the file, the others are appended. -/
def writeFrames (record : FramedRecord T) (path : π) : List T → FileProg π RuntimeError Unit
  | [] => .pure ()
  | f :: fs => do
    create record path f
    appendFrames record path fs
where
  /-- The appends after the first record. -/
  appendFrames (record : FramedRecord T) (path : π) : List T → FileProg π RuntimeError Unit
    | [] => .pure ()
    | f :: fs => do
      append record path f
      appendFrames record path fs

theorem exec_appendFrames {n : Nat} (h : Consecutive record n frames)
    (hc : fs.files path = some content) :
    (writeFrames.appendFrames record path frames).exec fs =
      (.ok (), fs.set path (some (content ++ frames.flatMap (frameBytes record)))) := by
  induction frames generalizing n fs content with
  | nil => simp [writeFrames.appendFrames, ← hc]
  | cons f gs ih =>
    obtain ⟨hf, hgs⟩ := consecutive_cons.mp h
    simp [writeFrames.appendFrames, exec_append hc hf.fits,
      ih hgs (set_files_self _ _ _)]

theorem exec_writeFrames (h : Consecutive record 1 (f :: frames)) (hc : fs.files path = none) :
    (writeFrames record path (f :: frames)).exec fs =
      (.ok (), fs.set path (some (fileBytes record (f :: frames)))) := by
  obtain ⟨hf, hgs⟩ := consecutive_cons.mp h
  simp [writeFrames, exec_create hc hf.fits,
    exec_appendFrames hgs (set_files_self _ _ _), fileBytes]

theorem consecutive_wholeFrames (h : Consecutive record 1 frames) (hk : FILE_HEADER_LEN ≤ k) :
    Consecutive record 1 (wholeFrames record frames k) := by
  obtain ⟨gs, hsplit, _, _⟩ := wholeFrames_spec record frames hk
  rw [hsplit] at h
  exact (consecutive_append.mp h).1

/-- **Frame codec and torn-tail recovery.**  Records written one by one replay to exactly
themselves.  Of any byte prefix that holds the header, replay returns exactly the records whose
frames lie wholly inside it and truncates the file to the end of the last of them; `scan` reports
the same ends and count; and the record with the next number can be appended to the truncated file
and is replayed behind the recovered ones. -/
theorem replay_written_and_torn (record : FramedRecord T) (path : π) (fs : FileSystem π) (f : T)
    (frames : List T) (hnew : fs.files path = none) (h : Consecutive record 1 (f :: frames)) :
    (writeFrames record path (f :: frames)).exec fs =
        (.ok (), fs.set path (some (fileBytes record (f :: frames)))) ∧
      (replay record path).exec (fs.set path (some (fileBytes record (f :: frames)))) =
        (.ok { frames := f :: frames
               frameEnds := (withEnds record FILE_HEADER_LEN (f :: frames)).map Prod.snd
               frameCount := (f :: frames).length },
          fs.set path (some (fileBytes record (f :: frames)))) ∧
      ∀ k, FILE_HEADER_LEN ≤ k → k ≤ (fileBytes record (f :: frames)).length →
        let kept := wholeFrames record (f :: frames) k
        let cut := fs.set path (some ((fileBytes record (f :: frames)).take k))
        let repaired := fs.set path (some (fileBytes record kept))
        (replay record path).exec cut =
            (.ok { frames := kept
                   frameEnds := (withEnds record FILE_HEADER_LEN kept).map Prod.snd
                   frameCount := kept.length }, repaired) ∧
          (scan record path).exec cut =
            (.ok { frames := []
                   frameEnds := (withEnds record FILE_HEADER_LEN kept).map Prod.snd
                   frameCount := kept.length }, repaired) ∧
          fileBytes record kept = (fileBytes record (f :: frames)).take
            (completeLen (withEnds record FILE_HEADER_LEN kept)) ∧
          ∀ next, Replayable record (kept.length + 1) next →
            ((append record path next).bind fun _ => replay record path).exec repaired =
              (.ok { frames := kept ++ [next]
                     frameEnds :=
                       (withEnds record FILE_HEADER_LEN (kept ++ [next])).map Prod.snd
                     frameCount := kept.length + 1 },
                fs.set path (some (fileBytes record (kept ++ [next])))) := by
  have hall := fun frames (h : Consecutive record 1 frames) => exec_replay_fileBytes h
    (set_files_self fs path (some (fileBytes record frames))) true
  refine ⟨exec_writeFrames h hnew, by simpa [report, replay] using hall _ h, fun k hk _ => ?_⟩
  have hkept := consecutive_wholeFrames h hk
  have hcut := fun retain => exec_replay_take h hk
    (set_files_self fs path (some ((fileBytes record (f :: frames)).take k))) retain
  refine ⟨by simpa [report, replay] using hcut true, by simpa [report, scan] using hcut false,
    ?_, ?_⟩
  · have := take_completeLen record (f :: frames) hk
    obtain ⟨_, _, _, hlen⟩ := wholeFrames_spec record (f :: frames) hk
    rw [List.take_take, ← length_fileBytes, min_eq_left hlen] at this
    rw [← length_fileBytes, this]
  · intro next hnext
    have happ : Consecutive record 1 (wholeFrames record (f :: frames) k ++ [next]) := by
      refine consecutive_append.mpr ⟨hkept, consecutive_cons.mpr ⟨?_, consecutive_nil _ _⟩⟩
      rwa [Nat.add_comm]
    have hbytes : fileBytes record (wholeFrames record (f :: frames) k) ++ frameBytes record next =
        fileBytes record (wholeFrames record (f :: frames) k ++ [next]) := by
      simp [fileBytes]
    rw [Prog.exec_bind, exec_append (set_files_self _ _ _) hnext.fits]
    simp only [set_set, hbytes]
    simpa [report, replay] using hall _ happ

end Exec

/-! ## Runs with faults and crashes -/

section Faults

variable [DecidableEq π] {record : FramedRecord T} {path : π} {fs : FileSystem π}

/-- The file has grown by a byte prefix of `block`, by all of it if the program returned. -/
def Grown (path : π) (content block : Bytes) (fs : FileSystem π)
    (o : Outcome RuntimeError Unit) (fs' : FileSystem π) : Prop :=
  ∃ k, fs' = fs.set path (some (content ++ block.take k)) ∧ (o = .ok () → block.length ≤ k)

theorem grown_zero (hc : fs.files path = some content) (block : Bytes)
    {o : Outcome RuntimeError Unit} (ho : o ≠ .ok ()) : Grown path content block fs o fs :=
  ⟨0, by simp [← hc], fun h => absurd h ho⟩

theorem ensures_call_append (hc : fs.files path = some content) (stage : String) (bytes : Bytes) :
    (call stage (.append path bytes)).Ensures fs (Grown path content bytes fs) := by
  have hdone : fs.perform (.append path bytes) = .ok (fs.set path (some (content ++ bytes))) := by
    simp [perform, hc]
  have htorn : ∀ fs', fs.Torn (.append path bytes) fs' →
      ∃ k, fs' = fs.set path (some (content ++ bytes.take k)) := by
    intro fs' ht
    cases ht with
    | untouched => exact ⟨0, by simp [← hc]⟩
    | finished h => exact ⟨bytes.length, by rw [hdone] at h; cases h; simp⟩
    | partly k h => exact ⟨k, by rw [hc] at h; cases h; rfl⟩
  refine FileProg.ensures_perform (fun fs' ht => ?_) fun fs' hp => ?_
  · obtain ⟨k, hk⟩ := htorn fs' ht
    exact ⟨⟨k, hk, fun h => absurd h crashed_ne⟩,
      fun e => ⟨k, hk, fun h => absurd h error_ne⟩⟩
  · rw [hdone] at hp
    cases hp
    exact ⟨bytes.length, by simp, fun _ => le_rfl⟩

theorem ensures_call_same {a : FileAction π} (ha : ∀ fs', fs.Torn a fs' → fs' = fs)
    (stage : String) : (call stage a).Ensures fs fun _ fs' => fs' = fs :=
  FileProg.ensures_perform (fun fs' ht => ⟨ha fs' ht, fun _ => ha fs' ht⟩)
    fun fs' hp => ha fs' (.finished hp)

theorem ensures_call_sync (stage : String) :
    (call stage .sync : FileProg π RuntimeError Unit).Ensures fs fun _ fs' => fs' = fs :=
  ensures_call_same (fun _ => torn_sync) stage

variable {p : FileProg π RuntimeError Unit} {q : Unit → FileProg π RuntimeError Unit}

theorem ensures_bind_same {Q : Outcome RuntimeError Unit → FileSystem π → Prop}
    (hp : p.Ensures fs fun _ fs' => fs' = fs) (hfailed : ∀ o, o ≠ .ok () → Q o fs)
    (hq : (q ()).Ensures fs Q) : (p.bind q).Ensures fs Q := by
  refine .of_bind fun o fs₁ h₁ => ?_
  obtain rfl : fs₁ = fs := hp o fs₁ h₁
  cases o with
  | error e => exact hfailed _ nofun
  | crashed => exact hfailed _ nofun
  | ok u => exact hq

theorem ensures_two_syncs (first second : String) :
    ((call first .sync : FileProg π RuntimeError Unit).bind fun _ => call second .sync).Ensures fs
      fun _ fs' => fs' = fs :=
  ensures_bind_same (ensures_call_sync _) (fun _ _ => rfl) (ensures_call_sync _)

/-- Two writes to one file. -/
theorem Grown.bind {a b : Bytes} (hp : p.Ensures fs (Grown path content a fs))
    (hq : ∀ fs₁, fs₁ = fs.set path (some (content ++ a)) →
      (q ()).Ensures fs₁ (Grown path (content ++ a) b fs₁)) :
    (p.bind q).Ensures fs (Grown path content (a ++ b) fs) := by
  refine .of_bind fun o fs₁ h₁ => ?_
  obtain ⟨k, hk, hall⟩ := hp o fs₁ h₁
  have hshort : ∀ o' : Outcome RuntimeError Unit, o' ≠ .ok () →
      Grown path content (a ++ b) fs o' fs₁ := by
    intro o' ho'
    refine ⟨min k a.length, ?_, fun h => absurd h ho'⟩
    rw [hk, List.take_append_of_le_length (min_le_right _ _), ← List.take_take, List.take_length]
  cases o with
  | error e => exact hshort _ nofun
  | crashed => exact hshort _ nofun
  | ok u =>
    rw [List.take_of_length_le (hall rfl)] at hk
    intro o' fs₂ h₂
    obtain ⟨j, hj, hall'⟩ := hq fs₁ hk o' fs₂ h₂
    refine ⟨a.length + j, ?_, fun h => ?_⟩
    · rw [hj, hk, set_set, List.take_length_add_append, List.append_assoc]
    · have := hall' h
      rw [List.length_append]
      omega

theorem Grown.bind_same {a : Bytes} (hp : p.Ensures fs (Grown path content a fs))
    (hq : ∀ fs₁, (q ()).Ensures fs₁ fun _ fs' => fs' = fs₁) :
    (p.bind q).Ensures fs (Grown path content a fs) := by
  refine .of_bind fun o fs₁ h₁ => ?_
  obtain ⟨k, hk, hall⟩ := hp o fs₁ h₁
  cases o with
  | error e => exact ⟨k, hk, nofun⟩
  | crashed => exact ⟨k, hk, nofun⟩
  | ok u =>
    intro o' fs₂ h₂
    exact ⟨k, (hq fs₁ o' fs₂ h₂).trans hk, fun _ => hall rfl⟩

theorem ensures_writeFrame (hc : fs.files path = some content)
    (hfits : (record.toVec f).length ≤ MAX_FRAME_BYTES) :
    (writeFrame record path f).Ensures fs (Grown path content (frameBytes record f) fs) := by
  simp only [writeFrame, if_neg (not_lt.mpr hfits), Prog.bind_eq, frameBytes]
  refine Grown.bind (ensures_call_append hc _ _) fun fs₁ h₁ => ?_
  refine Grown.bind (ensures_call_append (by simp [h₁]) _ _) fun fs₂ h₂ => ?_
  exact ensures_call_append (by simp [h₂]) _ _

theorem ensures_writeFrame_tooLarge (hlarge : MAX_FRAME_BYTES < (record.toVec f).length) :
    (writeFrame record path f).Ensures fs fun o fs' => fs' = fs ∧ o ≠ .ok () := by
  simp only [writeFrame, if_pos hlarge]
  exact .of_throw ⟨rfl, nofun⟩ ⟨rfl, nofun⟩

/-- **The files an append can leave**: the old one with a byte prefix of the frame behind it. -/
theorem ensures_append (hc : fs.files path = some content)
    (hfits : (record.toVec f).length ≤ MAX_FRAME_BYTES) :
    (append record path f).Ensures fs (Grown path content (frameBytes record f) fs) := by
  refine ensures_bind_same (ensures_call_same (fun _ => torn_access) _)
    (fun _ ho => grown_zero hc _ ho) ?_
  exact Grown.bind_same (ensures_writeFrame hc hfits) fun _ => ensures_call_sync _

theorem ensures_append_tooLarge (hlarge : MAX_FRAME_BYTES < (record.toVec f).length) :
    (append record path f).Ensures fs fun o fs' => fs' = fs ∧ o ≠ .ok () := by
  refine ensures_bind_same (ensures_call_same (fun _ => torn_access) _)
    (fun _ ho => ⟨rfl, ho⟩) (.of_bind fun o fs₂ h₂ => ?_)
  obtain ⟨rfl, ho⟩ := ensures_writeFrame_tooLarge hlarge _ _ h₂
  cases o with
  | error e => exact ⟨rfl, nofun⟩
  | crashed => exact ⟨rfl, nofun⟩
  | ok u => exact absurd rfl ho

/-- The file is still missing, or it has been created and is a byte prefix of `block`. -/
def Created (path : π) (block : Bytes) (fs : FileSystem π) (o : Outcome RuntimeError Unit)
    (fs' : FileSystem π) : Prop :=
  (fs' = fs ∧ o ≠ .ok ()) ∨ Grown path [] block (fs.set path (some [])) o fs'

theorem Created.of_grown {stage : String} {block : Bytes} (hc : fs.files path = none)
    (hq : (q ()).Ensures (fs.set path (some [])) (Grown path [] block (fs.set path (some [])))) :
    ((call stage (.createNew path)).bind q).Ensures fs (Created path block fs) := by
  have hdone : fs.perform (.createNew path) = .ok (fs.set path (some [])) := by
    simp [perform, hc]
  have hempty : ∀ o : Outcome RuntimeError Unit, o ≠ .ok () →
      Created path block fs o (fs.set path (some [])) := fun o ho =>
    .inr (grown_zero (set_files_self _ _ _) _ ho)
  have htorn : ∀ fs', fs.Torn (.createNew path) fs' → ∀ o : Outcome RuntimeError Unit,
      o ≠ .ok () → Created path block fs o fs' := by
    intro fs' ht o ho
    cases ht with
    | untouched => exact .inl ⟨rfl, ho⟩
    | finished h => rw [hdone] at h; cases h; exact hempty o ho
  refine .of_bind (FileProg.ensures_perform (fun fs' ht => ⟨?_, fun e => ?_⟩) fun fs' hp => ?_)
  · exact htorn fs' ht _ crashed_ne
  · exact htorn fs' ht _ error_ne
  · rw [hdone] at hp
    cases hp
    exact hq.mono fun o fs' h => .inr h

theorem ensures_header {block : Bytes} (hc : fs.files path = some [])
    (hq : ∀ fs₁, fs₁ = fs.set path (some fileHeader) →
      (q ()).Ensures fs₁ (Grown path fileHeader block fs₁)) :
    ((call "create_header_write" (.append path MAGIC)).bind fun _ =>
      (call "create_header_write" (.append path (toLE 2 FORMAT_VERSION))).bind q).Ensures fs
      (Grown path [] (fileHeader ++ block) fs) := by
  rw [fileHeader, List.append_assoc]
  refine Grown.bind (ensures_call_append hc _ _) fun fs₁ h₁ => ?_
  refine Grown.bind (ensures_call_append (by simp [h₁]) _ _) fun fs₂ h₂ => ?_
  exact hq fs₂ (by simp [h₂, h₁, fileHeader])

/-- **The files a creation can leave**: none, or a byte prefix of the one-frame journal. -/
theorem ensures_create (hc : fs.files path = none)
    (hfits : (record.toVec f).length ≤ MAX_FRAME_BYTES) :
    (create record path f).Ensures fs (Created path (fileBytes record [f]) fs) := by
  have hbytes : fileBytes record [f] = fileHeader ++ frameBytes record f := by simp [fileBytes]
  refine ensures_bind_same (ensures_call_sync _) (fun _ ho => .inl ⟨rfl, ho⟩) ?_
  refine Created.of_grown hc ?_
  rw [hbytes]
  refine ensures_header (set_files_self _ _ _) fun fs₂ h₂ => ?_
  exact Grown.bind_same (ensures_writeFrame (by simp [h₂]) hfits) fun _ => ensures_two_syncs _ _

theorem ensures_create_tooLarge (hc : fs.files path = none)
    (hlarge : MAX_FRAME_BYTES < (record.toVec f).length) :
    (create record path f).Ensures fs fun o fs' =>
      Created path fileHeader fs o fs' ∧ o ≠ .ok () := by
  have hwrite : ∀ fs : FileSystem π, (writeFrame record path f).Ensures fs fun o fs' =>
      fs' = fs ∧ o ≠ .ok () := fun _ => ensures_writeFrame_tooLarge hlarge
  have hnever : (create record path f).Ensures fs fun o _ => ∀ u, o ≠ .ok u := by
    refine .of_bind_never fun _ _ => .of_bind_never fun _ _ => .of_bind_never fun _ _ =>
      .of_bind_never fun _ fs₁ => .of_bind ((hwrite fs₁).mono fun o fs' h => ?_)
    cases o with
    | ok u => exact absurd rfl h.2
    | error e => exact nofun
    | crashed => exact nofun
  have hfiles : (create record path f).Ensures fs (Created path fileHeader fs) := by
    refine ensures_bind_same (ensures_call_sync _) (fun _ ho => .inl ⟨rfl, ho⟩) ?_
    refine Created.of_grown hc ?_
    rw [← List.append_nil fileHeader]
    refine ensures_header (set_files_self _ _ _) fun fs₂ h₂ => ?_
    refine Grown.bind_same ((hwrite fs₂).mono fun o fs' h => ?_) fun _ => ensures_two_syncs _ _
    rw [h.1]
    exact grown_zero (by simp [h₂]) _ h.2
  exact (hfiles.and hnever).mono fun o fs' h => ⟨h.1, h.2 ()⟩

/-- **The files a replay can leave**: the old one, or the one cut to its complete frames, and the
latter if it returns, which it does with those frames. -/
theorem ensures_replayInternal (hc : fs.files path = some bytes)
    (hparse : parseFile record bytes = .ok found) (retain : Bool) :
    (replayInternal record path retain).Ensures fs fun o fs' =>
      (fs' = fs ∨ fs' = fs.set path (some (bytes.take (completeLen found)))) ∧
        ∀ r, o = .ok r → r = report retain found ∧
          fs' = fs.set path (some (bytes.take (completeLen found))) := by
  have hsame : ∀ o : Outcome RuntimeError (ReplayedFrames T), (∀ r, o ≠ .ok r) →
      (fs = fs ∨ fs = fs.set path (some (bytes.take (completeLen found)))) ∧
        ∀ r, o = .ok r → r = report retain found ∧
          fs = fs.set path (some (bytes.take (completeLen found))) :=
    fun o ho => ⟨.inl rfl, fun r hr => absurd hr (ho r)⟩
  refine .of_bind (FileProg.ensures_readFile (hsame _ fun _ => crashed_ne)
    (fun e => hsame _ fun _ => error_ne) fun content hcontent => ?_)
  obtain rfl : bytes = content := by rw [hc] at hcontent; cases hcontent; rfl
  simp only [Prog.bindPost, hparse, Prog.ofExcept, Prog.bind_eq, Prog.bind_pure_left]
  by_cases htail : completeLen found < bytes.length
  · rw [if_pos htail]
    have hdone : fs.perform (.setLen path (completeLen found)) =
        .ok (fs.set path (some (bytes.take (completeLen found)))) := by
      simp [perform, hc]
    have htorn : ∀ fs', fs.Torn (.setLen path (completeLen found)) fs' →
        fs' = fs ∨ fs' = fs.set path (some (bytes.take (completeLen found))) := by
      intro fs' ht
      cases ht with
      | untouched => exact .inl rfl
      | finished h => rw [hdone] at h; cases h; exact .inr rfl
    refine .of_bind (FileProg.ensures_perform (fun fs' ht => ⟨?_, fun e => ?_⟩) fun fs' hp => ?_)
    · exact ⟨htorn fs' ht, fun r h => absurd h crashed_ne⟩
    · exact ⟨htorn fs' ht, fun r h => absurd h error_ne⟩
    rw [hdone] at hp
    cases hp
    refine .of_bind ((ensures_call_sync _).mono fun o fs' h => ?_)
    subst h
    cases o with
    | ok u =>
      exact .of_pure ⟨.inr rfl, fun r hr => by cases hr; exact ⟨rfl, rfl⟩⟩
        ⟨.inr rfl, fun r hr => absurd hr crashed_ne⟩
    | error e => exact ⟨.inr rfl, fun r hr => absurd hr error_ne⟩
    | crashed => exact ⟨.inr rfl, fun r hr => absurd hr crashed_ne⟩
  · have hwhole : fs.set path (some (bytes.take (completeLen found))) = fs := by
      rw [List.take_of_length_le (not_lt.mp htail), ← hc, set_self]
    rw [if_neg htail, hwhole]
    exact .of_pure ⟨.inl rfl, fun r hr => by cases hr; exact ⟨rfl, rfl⟩⟩
      ⟨.inl rfl, fun r hr => absurd hr crashed_ne⟩

end Faults

/-- Journal frames without operations, of which the decoder knows the first two. -/
def emptyFrames : FramedRecord Nat where
  toVec := text
  decode bytes :=
    if bytes = text 1 then .ok 1
    else if bytes = text 2 then .ok 2
    else .error (.storage "Task journal frame_decode failed (kind=syntax)")
  formatVersion _ := FORMAT_VERSION
  sequence n := n
where
  /-- The serialised frame. -/
  text (n : Nat) : Bytes :=
    asciiBytes ("\x7b\"format_version\":1,\"schema_version\":3,\"sequence\":" ++ toString n ++
      ",\"operations\":[]\x7d")

theorem emptyFrames_replayable : ∀ n ∈ [1, 2], Replayable emptyFrames n n := by
  intro n hn
  simp only [List.mem_cons, List.not_mem_nil, or_false] at hn
  rcases hn with rfl | rfl
  · exact ⟨by decide, by decide, rfl, rfl⟩
  · exact ⟨by decide, by decide, rfl, rfl⟩

/-- Two frames, the second cut short by one byte: the first comes back, and appending the second
again restores the file. -/
theorem replay_second_frame_torn :
    let fs : FileSystem Unit := ⟨fun _ => none, 0⟩
    ((replay emptyFrames ()).exec
        (fs.set () (some ((fileBytes emptyFrames [1, 2]).take 169)))).1 =
      .ok { frames := [1], frameEnds := [90], frameCount := 1 } ∧
    (((append emptyFrames () 2).bind fun _ => replay emptyFrames ()).exec
        (fs.set () (some (fileBytes emptyFrames [1])))).2.files () =
      some (fileBytes emptyFrames [1, 2]) := by
  have h1 := emptyFrames_replayable 1 (by simp)
  have h2 := emptyFrames_replayable 2 (by simp)
  have hall := consecutive_cons.mpr ⟨h1, consecutive_cons.mpr ⟨h2, consecutive_nil emptyFrames 3⟩⟩
  obtain ⟨_, _, htorn⟩ := replay_written_and_torn emptyFrames () ⟨fun _ => none, 0⟩ 1 [2] rfl hall
  have hkept : wholeFrames emptyFrames [1, 2] 169 = [1] := by decide +kernel
  obtain ⟨hreplay, _, _, hnext⟩ := htorn 169 (by decide) (by decide +kernel)
  rw [hkept] at hreplay hnext
  refine ⟨?_, ?_⟩
  · rw [hreplay]
    decide +kernel
  · rw [hnext 2 h2]
    rfl

/-! ## What the checksum detects -/

open Library.Checksum

/-- The bits of a byte, the lowest first. -/
def bitsOfByte (byte : UInt8) : List Bool := (List.range 8).map byte.toBitVec.getLsbD

/-- The bits of a text in the order in which the checksum takes them. -/
def bitsOf (bytes : Bytes) : List Bool := bytes.flatMap bitsOfByte

/-- A text in which the bits of `error` are flipped. -/
def corrupted (bytes error : Bytes) : Bytes := List.zipWith (· ^^^ ·) bytes error

/-- The polynomial of `crc32`. -/
def polynomial : BitVec 32 := 0xedb88320#32

theorem toBitVec_crcByte (n : Nat) (crc : UInt32) :
    (crcByte n crc).toBitVec = feed polynomial crc.toBitVec (List.replicate n false) := by
  induction n generalizing crc with
  | zero => rfl
  | succ n ih =>
    have hlow : (crc &&& 1).toBitVec = lowest (crc.toBitVec.getLsbD 0) := by
      apply BitVec.eq_of_getLsbD_eq
      intro i hi
      rw [getLsbD_lowest _ hi, UInt32.toBitVec_and, BitVec.getLsbD_and]
      cases i with
      | zero => simp
      | succ i => simp [BitVec.getLsbD_one]
    have hstep : ((crc >>> 1) ^^^ (0xedb88320 &&& (0 - (crc &&& 1)))).toBitVec =
        shiftOut polynomial crc.toBitVec := by
      rw [UInt32.toBitVec_xor, UInt32.toBitVec_and, UInt32.toBitVec_sub, hlow, shiftOut]
      cases crc.toBitVec.getLsbD 0 with
      | false => rfl
      | true => rfl
    rw [crcByte, ih, hstep, List.replicate_succ, feed_cons, lowest_false, BitVec.xor_zero]

theorem length_bitsOfByte (byte : UInt8) : (bitsOfByte byte).length = 8 := rfl

theorem word_bitsOfByte (byte : UInt8) : word (bitsOfByte byte) = byte.toUInt32.toBitVec := by
  apply BitVec.eq_of_getLsbD_eq
  intro i hi
  rw [getLsbD_word _ hi, UInt8.toBitVec_toUInt32, BitVec.getLsbD_setWidth, decide_eq_true hi,
    Bool.true_and]
  rcases Nat.lt_or_ge i 8 with hlt | hge
  · simp [bitsOfByte, hlt]
  · rw [BitVec.getLsbD_of_ge _ _ hge]
    simp [bitsOfByte, hge]

theorem toBitVec_foldl_crcByte (bytes : Bytes) (crc : UInt32) :
    (bytes.foldl (fun crc byte => crcByte 8 (crc ^^^ byte.toUInt32)) crc).toBitVec =
      feed polynomial crc.toBitVec (bitsOf bytes) := by
  induction bytes generalizing crc with
  | nil => rfl
  | cons byte rest ih =>
    have hfits : (bitsOfByte byte).length ≤ 32 := by
      rw [length_bitsOfByte]
      decide
    have hbyte := feed_eq_word polynomial crc.toBitVec hfits
    rw [length_bitsOfByte, word_bitsOfByte] at hbyte
    rw [List.foldl_cons, ih, toBitVec_crcByte, UInt32.toBitVec_xor, ← hbyte, ← feed_append]
    rfl

theorem bitsOfByte_xor (a b : UInt8) :
    bitsOfByte (a ^^^ b) = List.zipWith (· ^^ ·) (bitsOfByte a) (bitsOfByte b) := by
  simp [bitsOfByte, List.zipWith_map, List.zipWith_self]

theorem bitsOf_corrupted {error : Bytes} (h : error.length = bytes.length) :
    bitsOf (corrupted bytes error) = List.zipWith (· ^^ ·) (bitsOf bytes) (bitsOf error) := by
  induction bytes generalizing error with
  | nil => rfl
  | cons byte bytes ih =>
    obtain ⟨flipped, error, rfl⟩ := List.exists_cons_of_length_eq_add_one h
    show bitsOfByte (byte ^^^ flipped) ++ bitsOf (corrupted bytes error) =
      List.zipWith (· ^^ ·) (bitsOfByte byte ++ bitsOf bytes) (bitsOfByte flipped ++ bitsOf error)
    rw [List.zipWith_append (by rw [length_bitsOfByte, length_bitsOfByte]), bitsOfByte_xor,
      ih (Nat.succ.inj h)]

/-- **The checksum detects every burst of at most 32 bits**, in a text of any length. -/
theorem crc32_detects_burst (bytes error : Bytes) (start : Nat)
    (hlength : error.length = bytes.length) (herror : true ∈ bitsOf error)
    (hburst : ∀ i, (bitsOf error)[i]? = some true → start ≤ i ∧ i < start + 32) :
    crc32 (corrupted bytes error) ≠ crc32 bytes := by
  intro heq
  have hregister := congrArg (fun crc : UInt32 => (~~~crc).toBitVec) heq
  simp only [crc32, UInt32.not_not, toBitVec_foldl_crcByte, bitsOf_corrupted hlength] at hregister
  have hbits : (bitsOf error).length = (bitsOf bytes).length := by
    simp [bitsOf, bitsOfByte, hlength]
  have hpolynomial : polynomial.msb := by decide
  exact feed_burst hpolynomial _ hbits herror hburst hregister

/-- A burst from the last bit of the second byte to the seventh of the sixth. -/
theorem crc32_burst_in_six_bytes :
    crc32 (corrupted [1, 2, 3, 4, 5, 6] [0, 0x80, 1, 0, 0, 0x40]) ≠ crc32 [1, 2, 3, 4, 5, 6] := by
  refine crc32_detects_burst _ _ 15 rfl (by decide) fun i hi => ?_
  obtain ⟨hlt, hbit⟩ := List.getElem?_eq_some_iff.mp hi
  have hall : ∀ i : Fin 48, (bitsOf [0, 0x80, 1, 0, 0, 0x40])[i]? = some true →
      15 ≤ i.val ∧ i.val < 15 + 32 := by decide
  exact hall ⟨i, hlt⟩ hi

end OpenAide.Frame
