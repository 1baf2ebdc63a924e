import OpenAide.Storage.SplitFiles
import OpenAide.Storage.ToolArtifacts

/-!
# Chat images

`storage/chat_images.rs`: image bytes a message carries inline are moved to files named after
their hash before the message is journaled, and the message keeps a reference.  The libraries that
decode base64, hash, read an image header and match the retired text form of an image are
parameters (`Imaging`); so is the reading and printing of an attachment's JSON payload.

* `storedMessage_of_no_image`: a message without inline images is stored as it is;
* `storesImages_stored`: what `externalize_message` returns is the message once its images are
  stored (`storedMessage`), all of which can be decoded; only image files change.
-/

namespace OpenAide

open Library Prog ToolArtifacts

/-- What the image code takes from libraries. -/
structure Imaging where
  /-- Standard base64. -/
  decode : String → Option Bytes
  /-- The SHA-256 of the bytes, in hexadecimal. -/
  digest : Bytes → String
  /-- `media::display_dimensions`. -/
  dimensions : Bytes → Option (Nat × Nat)
  /-- The media type and the data of every match of the retired `[@image](data:...)` form. -/
  captures : String → List (String × String)
  /-- The text with every match removed. -/
  removeMatches : String → String
  value : JsonText → Json
  text : Json → JsonText

namespace ChatImages

variable (imaging : Imaging) (task : String)

def invalidBase64 : RuntimeError := .storage "Stored Chat image is not valid base64"

/-- `decode` (`chat_images.rs:484`). -/
def decode (data : String) : Except RuntimeError Bytes :=
  match imaging.decode data with
  | some bytes => .ok bytes
  | none => .error invalidBase64

/-- `store` (`chat_images.rs:44`): a file of the right length is kept and only touched. -/
def store (bytes : Bytes) : DiskProg String :=
  let imageId := imaging.digest bytes
  let path : Path := ⟨task, .image imageId⟩
  let write : DiskProg String := do
    Split.durableReplace path bytes
    return imageId
  .act (.access path)
    (.read fun d =>
      if ((d.files path).getD []).length = bytes.length then do
        Split.sys (.access path)
        return imageId
      else write)
    fun _ => write

/-- `ImageReference` (`chat_images.rs:301`). -/
structure ImageReference where
  imageId : String
  sizeBytes : Nat
  dimensions : Option (Nat × Nat)

def describe (imageId : String) (bytes : Bytes) : ImageReference where
  imageId := imageId
  sizeBytes := bytes.length
  dimensions := imaging.dimensions bytes

/-- `inline_image_payload` (`chat_images.rs:438`). -/
def inlineImagePayload (attachment : Attachment) : Option String :=
  match attachment.payload.map imaging.value with
  | some payload =>
    match payload.get? "mimeType", payload.get? "data" with
    | some (.string mediaType), some (.string data) =>
      if "image/".toList.isPrefixOf mediaType.toList ∧ data ≠ "" then some data else none
    | _, _ => none
  | none => none

/-- The payload with the reference in place of the data. -/
def referencePayload (reference : ImageReference) : Json → Json
  | .object fields =>
    let stored := Assoc.insert (Assoc.insert (fields.filter (·.1 ≠ "data")) "imageId"
      (.string reference.imageId)) "sizeBytes" (.number reference.sizeBytes)
    .object <| match reference.dimensions with
      | some (width, height) =>
        Assoc.insert (Assoc.insert stored "width" (.number width)) "height" (.number height)
      | none => stored
  | payload => payload

/-- `externalize_attachment` (`chat_images.rs:264`). -/
def externalizeAttachment (attachment : Attachment) : DiskProg Attachment :=
  match inlineImagePayload imaging attachment with
  | none => .pure attachment
  | some data => do
    let bytes ← .ofExcept (decode imaging data)
    let imageId ← store imaging task bytes
    let reference := describe imaging imageId bytes
    return { attachment with
      payload := attachment.payload.map fun payload =>
        imaging.text (referencePayload reference (imaging.value payload)) }

def externalizeAttachments : List Attachment → DiskProg (List Attachment)
  | [] => .pure []
  | attachment :: rest => do
    let attachment ← externalizeAttachment imaging task attachment
    let rest ← externalizeAttachments rest
    return attachment :: rest

/-- `move_legacy_text_images` (`chat_images.rs:465`). -/
def moveLegacyTextImages (text : String) (attachments : List Attachment) :
    String × List Attachment :=
  if (imaging.captures text).isEmpty then (text, attachments)
  else
    let moved := (imaging.captures text).map fun (mediaType, data) =>
      let data := String.ofList (data.toList.filter (!isWhitespace ·))
      ({ kind := "image"
         label := "Image"
         payload := some (imaging.text (.object
          [("data", .string data), ("mimeType", .string mediaType.toLower)])) } : Attachment)
    (trim (imaging.removeMatches text), attachments ++ moved)

def externalizePart (part : AgentMessagePart) : DiskProg AgentMessagePart :=
  match part with
  | .image mediaType data _ _ _ _ uri =>
    if data = "" then .pure part
    else do
      let bytes ← .ofExcept (decode imaging data)
      let imageId ← store imaging task bytes
      let reference := describe imaging imageId bytes
      return .image mediaType "" (some reference.imageId) (some reference.sizeBytes)
        (reference.dimensions.map Prod.fst) (reference.dimensions.map Prod.snd) uri
  | part => .pure part

def externalizeParts : List AgentMessagePart → DiskProg (List AgentMessagePart)
  | [] => .pure []
  | part :: rest => do
    let part ← externalizePart imaging task part
    let rest ← externalizeParts rest
    return part :: rest

/-- `externalize_message` (`chat_images.rs:101`); the number of images moved is only logged. -/
def externalizeMessage (message : NormalizedMessage) : DiskProg NormalizedMessage :=
  match message with
  | .user m => do
    let (text, attachments) := moveLegacyTextImages imaging m.text m.attachments
    let attachments ← externalizeAttachments imaging task attachments
    return .user { m with text, attachments }
  | .agentMessage m => do
    let parts ← externalizeParts imaging task m.parts
    return .agentMessage { m with parts }
  | message => .pure message

/-! ### What is stored -/

/-- An attachment once its image is stored. -/
def storedAttachment (attachment : Attachment) : Attachment :=
  match (inlineImagePayload imaging attachment).bind imaging.decode with
  | some bytes => { attachment with
      payload := attachment.payload.map fun payload =>
        imaging.text
          (referencePayload (describe imaging (imaging.digest bytes) bytes)
            (imaging.value payload)) }
  | none => attachment

/-- What the user said, once its images are stored. -/
def storedUser (text : String) (attachments : List Attachment) : String × List Attachment :=
  let (text, attachments) := moveLegacyTextImages imaging text attachments
  (text, attachments.map (storedAttachment imaging))

/-- A part once its image is stored. -/
def storedPart : AgentMessagePart → AgentMessagePart
  | .image mediaType data imageId sizeBytes width height uri =>
    match if data = "" then none else imaging.decode data with
    | some bytes =>
      .image mediaType "" (some (imaging.digest bytes)) (some bytes.length)
        ((imaging.dimensions bytes).map Prod.fst) ((imaging.dimensions bytes).map Prod.snd) uri
    | none => .image mediaType data imageId sizeBytes width height uri
  | part => part

/-- A message once its images are stored. -/
def storedMessage : NormalizedMessage → NormalizedMessage
  | .user m =>
    let (text, attachments) := storedUser imaging m.text m.attachments
    .user { m with text, attachments }
  | .agentMessage m => .agentMessage { m with parts := m.parts.map (storedPart imaging) }
  | message => message

/-- A row once its images are stored. -/
def storedRow (row : StoredMessage) : StoredMessage :=
  { row with chat := { row.chat with message := storedMessage imaging row.chat.message } }

/-- The bytes an attachment holds inline. -/
def attachmentBytes (attachment : Attachment) : Option Bytes :=
  (inlineImagePayload imaging attachment).bind imaging.decode

/-- Every inline image of a message can be decoded. -/
def AllDecode : NormalizedMessage → Prop
  | .user m => ∀ attachment ∈ (moveLegacyTextImages imaging m.text m.attachments).2,
      (inlineImagePayload imaging attachment).isSome → (attachmentBytes imaging attachment).isSome
  | .agentMessage m => ∀ part ∈ m.parts, match part with
    | .image _ data _ _ _ _ _ => data ≠ "" → (imaging.decode data).isSome
    | _ => True
  | _ => True

instance : DecidablePred (AllDecode imaging)
  | .user _ => inferInstanceAs (Decidable (∀ attachment ∈ _, _ → _))
  | .agentMessage m =>
    have (part : AgentMessagePart) : Decidable (match part with
        | .image _ data _ _ _ _ _ => data ≠ "" → (imaging.decode data).isSome
        | _ => True) :=
      match part with
      | .image _ data _ _ _ _ _ => inferInstanceAs (Decidable (data ≠ "" → _))
      | .text _ | .shown _ => isTrue trivial
    inferInstanceAs (Decidable (∀ part ∈ m.parts, _))
  | .activity _ | .completedPlan _ | .closedPlan _ | .question _ | .interruption _
  | .compaction _ => isTrue trivial

/-- The part is an image that is not stored yet. -/
def partHasImage : AgentMessagePart → Bool
  | .image _ data _ _ _ _ _ => data ≠ ""
  | _ => false

/-- `has_inline_images` (`chat_images.rs:144`), for one message. -/
def hasInlineImage : NormalizedMessage → Bool
  | .user m => !(imaging.captures m.text).isEmpty ||
      m.attachments.any fun attachment => (inlineImagePayload imaging attachment).isSome
  | .agentMessage m => m.parts.any partHasImage
  | _ => false

/-- `has_inline_images`. -/
def hasInlineImages (messages : List StoredMessage) : Bool :=
  messages.any fun stored => hasInlineImage imaging stored.chat.message

/-! ### Dimensions of references written before they were kept -/

/-- `is_image_id` (`chat_images.rs:34`). -/
def isImageId (value : String) : Bool :=
  value.length == 64 && value.toList.all fun c => c.isDigit || ('a' ≤ c && c ≤ 'f')

/-- `attachment_image_id` (`chat_images.rs:254`). -/
def attachmentImageId (attachment : Attachment) : Option String :=
  match (attachment.payload.map imaging.value).bind (·.get? "imageId") with
  | some (.string id) => if isImageId id then some id else none
  | _ => none

/-- `attachment_dimensions` (`chat_images.rs:324`). -/
def attachmentDimensions (attachment : Attachment) : Option (Nat × Nat) :=
  match attachment.payload.map imaging.value with
  | some payload =>
    match ((payload.get? "width").bind Json.asU64).filter (· < 2 ^ 32),
        ((payload.get? "height").bind Json.asU64).filter (· < 2 ^ 32) with
    | some width, some height => some (width, height)
    | _, _ => none
  | none => none

/-! ## Messages without inline images -/

section NoImages

variable {imaging : Imaging} {task : String}

theorem storedMessage_of_no_image {message : NormalizedMessage}
    (h : hasInlineImage imaging message = false) : storedMessage imaging message = message := by
  unfold storedMessage
  split
  · rename_i m
    simp only [hasInlineImage, Bool.or_eq_false_iff, Bool.not_eq_false', List.any_eq_false,
      Option.isSome_iff_ne_none, ne_eq, not_not] at h
    have hattachments : m.attachments.map (storedAttachment imaging) = m.attachments := by
      refine (List.map_congr_left fun a ha => ?_).trans (List.map_id _)
      simp only [storedAttachment, h.2 a ha, Option.bind_none, id]
    simp only [storedUser, moveLegacyTextImages, h.1, if_true, hattachments]
  · rename_i m
    have hparts : m.parts.map (storedPart imaging) = m.parts := by
      refine (List.map_congr_left fun part hpart => ?_).trans (List.map_id _)
      have himage : partHasImage part = false := by simpa using List.any_eq_false.mp h part hpart
      unfold storedPart
      split
      · rw [if_pos (by simpa [partHasImage] using himage)]
        rfl
      · rfl
    rw [hparts]
  · rfl

end NoImages

/-! ## What it leaves -/

section Leaves

open Split

variable {imaging : Imaging} {task : String} {d : Disk} {v : Files}

/-- Nothing has changed but image files. -/
def ImagesOnly (task : String) (v v' : Files) : Prop :=
  ∀ p : Path, (∀ imageId, p ≠ ⟨task, .image imageId⟩) → v' p = v p

theorem ImagesOnly.refl (task : String) (v : Files) : ImagesOnly task v v := fun _ _ => rfl

theorem ImagesOnly.trans {v₁ v₂ v₃ : Files} (h₁ : ImagesOnly task v₁ v₂)
    (h₂ : ImagesOnly task v₂ v₃) : ImagesOnly task v₁ v₃ :=
  fun p hp => (h₂ p hp).trans (h₁ p hp)

/-- A program that only ever changes image files. -/
abbrev StoresImages {α : Type} (task : String) (program : DiskProg α) (d : Disk) (v : Files)
    (T : α → Prop) : Prop :=
  Ends program d (ImagesOnly task v) fun a v' => ImagesOnly task v v' ∧ T a

theorem StoresImages.pure {α : Type} {a : α} {T : α → Prop} (h : Shows d v) (hT : T a) :
    StoresImages task (.pure a) d v T :=
  (leaves_pure h (ImagesOnly.refl _ _) ⟨ImagesOnly.refl _ _, hT⟩).ends

theorem StoresImages.bind {α β : Type} {program : DiskProg α} {next : α → DiskProg β}
    {T : α → Prop} {U : β → Prop} (h : StoresImages task program d v T)
    (hnext : ∀ a d' v', Shows d' v' → T a → StoresImages task (next a) d' v' U) :
    StoresImages task (program.bind next) d v U := by
  refine Ends.bind h fun a d' v' hv' ⟨hsame, hT⟩ => ?_
  exact Ends.mono (hnext a d' v' hv' hT) (fun _ h => hsame.trans h)
    fun _ _ h => ⟨hsame.trans h.1, h.2⟩

theorem storesImages_ofExcept {α : Type} {x : Except RuntimeError α} (h : Shows d v) :
    StoresImages task (.ofExcept x) d v fun a => x = .ok a := by
  refine .of_ofExcept (fun a ha => ⟨v, h, ImagesOnly.refl _ _, ha⟩)
    (fun e _ => ⟨v, h, ImagesOnly.refl _ _⟩) ⟨v, h, ImagesOnly.refl _ _⟩

theorem storesImages_store (h : Shows d v) (bytes : Bytes) :
    StoresImages task (store imaging task bytes) d v fun id => id = imaging.digest bytes := by
  have hsame : ∃ v', Shows d v' ∧ ImagesOnly task v v' := ⟨v, h, ImagesOnly.refl _ _⟩
  have hset : ImagesOnly task v
      (v.set ⟨task, .image (imaging.digest bytes)⟩ (some bytes)) := fun p hp =>
    Files.set_of_ne _ _ (hp _)
  have hwrite : StoresImages task (do
      Split.durableReplace ⟨task, .image (imaging.digest bytes)⟩ bytes
      return imaging.digest bytes) d v fun id => id = imaging.digest bytes := by
    refine Ends.bind (leaves_durableReplace h rfl (fun _ h => by cases h) bytes
      (ImagesOnly.refl _ _) hset).ends fun _ d' v' hv' hv => ?_
    subst hv
    exact (leaves_pure hv' hset ⟨hset, rfl⟩).ends
  refine .of_act (fun d' ht => ?_) (fun d' hd => ?_) fun e _ => hwrite
  · obtain rfl := FileSystem.torn_access ht
    exact ⟨hsame, fun e _ => hwrite⟩
  · obtain rfl := FileSystem.torn_access (.finished hd)
    refine .of_read ?_
    split
    · refine .of_bind (FileProg.ensures_perform (fun d'' ht => ?_) fun d'' hd' => ?_)
      · obtain rfl := FileSystem.torn_access ht
        exact ⟨hsame, fun _ => hsame⟩
      · obtain rfl := FileSystem.torn_access (.finished hd')
        exact StoresImages.pure h rfl
    · exact hwrite

theorem decode_eq_ok {data : String} {bytes : Bytes} (h : decode imaging data = .ok bytes) :
    imaging.decode data = some bytes := by
  unfold decode at h
  split at h
  · cases h
    assumption
  · cases h

theorem storesImages_externalizeAttachments (h : Shows d v) (attachments : List Attachment) :
    StoresImages task (externalizeAttachments imaging task attachments) d v
      fun stored => stored = attachments.map (storedAttachment imaging) ∧
        ∀ a ∈ attachments, (inlineImagePayload imaging a).isSome →
          (attachmentBytes imaging a).isSome := by
  induction attachments generalizing d v with
  | nil => exact .pure h ⟨rfl, nofun⟩
  | cons attachment rest ih =>
    have hfirst : StoresImages task (externalizeAttachment imaging task attachment) d v
        fun stored => stored = storedAttachment imaging attachment ∧
          ((inlineImagePayload imaging attachment).isSome →
            (attachmentBytes imaging attachment).isSome) := by
      unfold externalizeAttachment
      split
      · rename_i hnone
        exact .pure h ⟨by simp only [storedAttachment, hnone, Option.bind_none], by simp [hnone]⟩
      · rename_i data hdata
        refine StoresImages.bind (storesImages_ofExcept h) fun bytes d' v' hv' hbytes => ?_
        refine StoresImages.bind (storesImages_store hv' bytes) fun id d' v' hv' hid =>
          .pure hv' ⟨?_, fun _ => ?_⟩
        · simp only [storedAttachment, hdata, Option.bind_some, decode_eq_ok hbytes, hid]
        · simp only [attachmentBytes, hdata, Option.bind_some, decode_eq_ok hbytes,
            Option.isSome_some]
    refine StoresImages.bind hfirst fun first d' v' hv' hfirst => ?_
    refine StoresImages.bind (ih hv') fun others d' v' hv' hothers => .pure hv' ⟨?_, ?_⟩
    · rw [hfirst.1, hothers.1, List.map_cons]
    · exact List.forall_mem_cons.mpr ⟨hfirst.2, hothers.2⟩

theorem storesImages_externalizeParts (h : Shows d v) (parts : List AgentMessagePart) :
    StoresImages task (externalizeParts imaging task parts) d v
      fun stored => stored = parts.map (storedPart imaging) ∧ ∀ part ∈ parts, match part with
        | .image _ data _ _ _ _ _ => data ≠ "" → (imaging.decode data).isSome
        | _ => True := by
  induction parts generalizing d v with
  | nil => exact .pure h ⟨rfl, nofun⟩
  | cons part rest ih =>
    have hfirst : StoresImages task (externalizePart imaging task part) d v
        fun stored => stored = storedPart imaging part ∧ match part with
          | .image _ data _ _ _ _ _ => data ≠ "" → (imaging.decode data).isSome
          | _ => True := by
      unfold externalizePart
      split
      · rename_i mediaType data imageId sizeBytes width height uri
        split
        · rename_i hempty
          exact .pure h ⟨by simp only [storedPart, if_pos hempty], fun hne => absurd hempty hne⟩
        · rename_i hdata
          refine StoresImages.bind (storesImages_ofExcept h) fun bytes d' v' hv' hbytes => ?_
          refine StoresImages.bind (storesImages_store hv' bytes) fun id d' v' hv' hid =>
            .pure hv' ⟨?_, fun _ => ?_⟩
          · simp only [storedPart, if_neg hdata, decode_eq_ok hbytes, hid, describe]
          · rw [decode_eq_ok hbytes, Option.isSome_some]
      · rename_i hother
        refine .pure h ?_
        cases part with
        | image => exact absurd rfl (hother _ _ _ _ _ _ _)
        | text text => exact ⟨rfl, trivial⟩
        | shown json => exact ⟨rfl, trivial⟩
    refine StoresImages.bind hfirst fun first d' v' hv' hfirst => ?_
    refine StoresImages.bind (ih hv') fun others d' v' hv' hothers => .pure hv' ⟨?_, ?_⟩
    · rw [hfirst.1, hothers.1, List.map_cons]
    · exact List.forall_mem_cons.mpr ⟨hfirst.2, hothers.2⟩

/-- **What externalizing a message returns**, if all its images can be decoded; otherwise it
fails. -/
theorem storesImages_stored (h : Shows d v) (message : NormalizedMessage) :
    StoresImages task (externalizeMessage imaging task message) d v
      fun stored => stored = storedMessage imaging message ∧ AllDecode imaging message := by
  unfold externalizeMessage
  split
  · exact StoresImages.bind (storesImages_externalizeAttachments h _) fun _ d' v' hv' hstored =>
      .pure hv' ⟨by rw [hstored.1]; rfl, hstored.2⟩
  · exact StoresImages.bind (storesImages_externalizeParts h _) fun _ d' v' hv' hstored =>
      .pure hv' ⟨by rw [hstored.1]; rfl, hstored.2⟩
  · rename_i huser hagent
    refine .pure h ?_
    cases message <;>
      first | exact ⟨rfl, trivial⟩ | exact absurd rfl (huser _) | exact absurd rfl (hagent _)

theorem storedRow_of_no_image {row : StoredMessage}
    (h : hasInlineImage imaging row.chat.message = false) : storedRow imaging row = row := by
  rw [storedRow, storedMessage_of_no_image h]

end Leaves

end ChatImages

namespace ChatImages.Example

/-- A message text in the retired form of an image: three zero bytes. -/
def retired : String := "[@image](data:image/png;base64,AAAA)"

/-- The libraries on that text, and on the payload `inline` with those bytes. -/
def imaging : Imaging where
  decode data := if data = "AAAA" then some [0, 0, 0] else none
  digest _ := "709e80c88487a2411e1ee4dfb9f22a861492d20c4765150c0c794abd70f8147c"
  dimensions _ := none
  captures text := if text = retired then [("image/png", "AAAA")] else []
  removeMatches text := if text = retired then "" else text
  value payload :=
    if payload.text = "inline" then
      .object [("data", .string "AAAA"), ("mimeType", .string "image/png")]
    else .object [("mimeType", .string "image/png"),
      ("imageId", .string "709e80c88487a2411e1ee4dfb9f22a861492d20c4765150c0c794abd70f8147c"),
      ("sizeBytes", .number 3)]
  text payload := if (payload.get? "data").isSome then ⟨"inline"⟩ else ⟨"stored"⟩

/-- Libraries that find no payload and no text in the retired form. -/
def plain : Imaging :=
  { imaging with
    captures := fun _ => [], removeMatches := id, value := fun _ => .null, text := fun _ =>
      ⟨"null"⟩ }

/-- An image that is not stored yet, and how it is stored. -/
def image (payload : String) : Attachment :=
  { kind := "image", label := "Image", payload := some ⟨payload⟩ }

example : storedUser imaging "see" [image "inline"] = ("see", [image "stored"]) := by
  decide +kernel

end ChatImages.Example

end OpenAide
