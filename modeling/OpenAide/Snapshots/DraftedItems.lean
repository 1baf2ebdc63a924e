import OpenAide.Snapshots.Chat

/-!
# Items of drafts and of stored messages

A commit publishes the items of its draft, whose images may still be inline; later snapshots show
the items of what `externalize_message` has stored.  Both sides recognise inline images on their
own: the projection to show the reference they will get (`chat_projection.rs:170-275`), the store to
move their bytes (`chat_images.rs:101-145`).

- `attachment_shown_iff`, `part_shown_iff`: when the two show one attachment or part alike;
- `user_shown_iff`: a text in the retired form of an image is shown as text until it is stored.

`ChatImages.storesImages_stored` says that `storedMessage` is what `externalize_message` makes of a
message.
-/

namespace OpenAide.ChatProjection

open Library ChatImages ToolArtifacts

/-- What is assumed of the libraries. -/
structure Libraries (imaging : Imaging) : Prop where
  hashes : ∀ bytes, isImageId (imaging.digest bytes)
  dimensions : ∀ bytes width height, imaging.dimensions bytes = some (width, height) →
    width < 2 ^ 32 ∧ height < 2 ^ 32
  lengths : ∀ data bytes, imaging.decode data = some bytes → bytes.length < 2 ^ 64
  /-- A payload that was written is read back. -/
  rereads : ∀ reference payload, imaging.value (imaging.text (referencePayload reference
    (imaging.value payload))) = referencePayload reference (imaging.value payload)
  /-- A match is text, and is gone when it is removed. -/
  removes : ∀ text, imaging.captures text ≠ [] →
    (trim text).isEmpty = false ∧ trim (imaging.removeMatches text) ≠ text

section Drafted

variable (imaging : Imaging)

/-- What an attachment says about a stored image is what is true of the bytes it holds.  Only an
attachment of kind `image` may say nothing, and then it says nothing about a size that cannot be
read from the bytes. -/
def AttachmentTrue (attachment : Attachment) (bytes : Bytes) : Prop :=
  if attachment.kind = "image" then
    match attachmentImageId imaging attachment with
    | none => imaging.dimensions bytes = none → attachmentDimensions imaging attachment = none
    | some imageId => imageId = imaging.digest bytes ∧
      (attachmentPayloadU64 imaging attachment "sizeBytes").getD 0 = bytes.length ∧
      attachmentDimensions imaging attachment =
        (imaging.dimensions bytes).or (attachmentDimensions imaging attachment)
  else attachmentImageId imaging attachment = some (imaging.digest bytes) ∧
    attachmentPayloadU64 imaging attachment "sizeBytes" = some bytes.length

/-- The same for an image part of the Agent. -/
def PartTrue : AgentMessagePart → Prop
  | .image _ data (some imageId) sizeBytes width height _ =>
    ∀ bytes, data ≠ "" → imaging.decode data = some bytes →
      imageId = imaging.digest bytes ∧ sizeBytes.getD 0 = bytes.length ∧
        (width.bind fun w => height.map fun h => (w, h)) = imaging.dimensions bytes
  | _ => True

/-- What a message says about stored images is true of the images it holds. -/
def ImagesTrue : NormalizedMessage → Prop
  | .user m => imaging.captures m.text = [] ∧ ∀ attachment ∈ m.attachments, ∀ bytes,
      attachmentBytes imaging attachment = some bytes → AttachmentTrue imaging attachment bytes
  | .agentMessage m => ∀ part ∈ m.parts, PartTrue imaging part
  | _ => True

variable {imaging}

/-! ## Attachments -/

theorem get?_object (fields : Assoc String Json) (key : String) :
    Json.get? key (.object fields) = fields.get? key := by
  induction fields with
  | nil => rfl
  | cons field rest ih =>
    rw [Json.get?] at ih ⊢
    rw [Assoc.get?, List.find?_cons]
    by_cases h : field.1 = key
    · simp [h]
    · simp [h, ← ih]

variable {attachment : Attachment}

theorem inlineImagePayload_eq_some {data : String}
    (h : inlineImagePayload imaging attachment = some data) :
    ∃ payload fields mediaType, attachment.payload = some payload ∧
      imaging.value payload = .object fields ∧
      Assoc.get? fields "mimeType" = some (.string mediaType) ∧ mediaType ≠ "" := by
  unfold inlineImagePayload at h
  cases hpayload : attachment.payload with
  | none => simp [hpayload] at h
  | some payload =>
    rw [hpayload] at h
    simp only [Option.map_some] at h
    split at h
    · rename_i mediaType data' hmedia hdata
      split at h
      · rename_i hcond
        cases hvalue : imaging.value payload with
        | object fields =>
          refine ⟨payload, fields, mediaType, rfl, hvalue, ?_, ?_⟩
          · rwa [hvalue, get?_object] at hmedia
          · rintro rfl
            exact absurd hcond.1 (by decide)
        | _ => simp [hvalue, Json.get?] at hmedia
      · cases h
    · cases h

theorem get?_referencePayload (reference : ImageReference) (fields : Assoc String Json)
    (key : String) :
    (referencePayload reference (.object fields)).get? key =
      if key = "height" ∧ reference.dimensions.isSome then
        reference.dimensions.map fun d => .number d.2
      else if key = "width" ∧ reference.dimensions.isSome then
        reference.dimensions.map fun d => .number d.1
      else if key = "sizeBytes" then some (.number reference.sizeBytes)
      else if key = "imageId" then some (.string reference.imageId)
      else if key = "data" then none
      else fields.get? key := by
  unfold referencePayload
  cases reference.dimensions with
  | none =>
    simp only [get?_object, Assoc.get?_insert, Assoc.get?_filter_ne, eq_comm (b := key)]
    simp
  | some size =>
    simp only [get?_object, Assoc.get?_insert, Assoc.get?_filter_ne, eq_comm (b := key)]
    simp

theorem asU64_number {n : Nat} (h : n < 2 ^ 64) : Json.asU64 (.number n) = some n := by
  have hlt : (n : Int) < 2 ^ 64 := by exact_mod_cast h
  rw [Json.asU64, if_pos ⟨Int.natCast_nonneg n, hlt⟩, Int.toNat_natCast]

theorem side_number {n : Nat} (h : n < 2 ^ 32) :
    ((some (.number n)).bind Json.asU64).filter (· < 2 ^ 32) = some n := by
  rw [Option.bind_some, asU64_number (h.trans (by norm_num)), Option.filter_some,
    if_pos (decide_eq_true h)]

/-- **What is read of an attachment once its image is stored.** -/
theorem storedAttachment_fields (hlib : Libraries imaging) {bytes : Bytes}
    (h : attachmentBytes imaging attachment = some bytes) :
    let stored := storedAttachment imaging attachment
    attachmentImageId imaging stored = some (imaging.digest bytes) ∧
      attachmentPayloadU64 imaging stored "sizeBytes" = some bytes.length ∧
      attachmentDimensions imaging stored =
        (imaging.dimensions bytes).or (attachmentDimensions imaging attachment) ∧
      attachmentPayloadString imaging stored "mimeType" =
        attachmentPayloadString imaging attachment "mimeType" ∧
      attachmentPayloadString imaging stored "mime" =
        attachmentPayloadString imaging attachment "mime" := by
  obtain ⟨data, hdata, hbytes⟩ := Option.bind_eq_some_iff.mp h
  obtain ⟨payload, fields, mediaType, hpayload, hvalue, -⟩ := inlineImagePayload_eq_some hdata
  have hread := hlib.rereads (describe imaging (imaging.digest bytes) bytes) payload
  have hstored : ((storedAttachment imaging attachment).payload.map imaging.value) =
      some (referencePayload (describe imaging (imaging.digest bytes) bytes) (.object fields)) := by
    rw [hvalue] at hread
    rw [storedAttachment, show (inlineImagePayload imaging attachment).bind imaging.decode =
      _ from h]
    simp [hpayload, hread, hvalue]
  have hbefore : attachment.payload.map imaging.value = some (.object fields) := by
    rw [hpayload, Option.map_some, hvalue]
  refine ⟨?_, ?_, ?_, ?_, ?_⟩
  · rw [attachmentImageId, hstored, Option.bind_some, get?_referencePayload]
    simp [describe, hlib.hashes]
  · have hsize : (referencePayload (describe imaging (imaging.digest bytes) bytes)
        (.object fields)).get? "sizeBytes" = some (.number bytes.length) := by
      rw [get?_referencePayload]
      simp [describe]
    rw [attachmentPayloadU64, hstored, Option.bind_some, hsize, Option.bind_some,
      asU64_number (hlib.lengths data bytes hbytes)]
  · unfold attachmentDimensions
    rw [hstored, hbefore]
    dsimp only
    rw [get?_referencePayload, get?_referencePayload]
    cases hsize : imaging.dimensions bytes with
    | none => simp [get?_object, describe, hsize]
    | some size =>
      obtain ⟨hwidth, hheight⟩ := hlib.dimensions bytes size.1 size.2 hsize
      simp only [describe, hsize, String.reduceEq, false_and, if_false, Option.isSome_some,
        and_self, if_true, Option.map_some, side_number hwidth, side_number hheight, Option.some_or]
  · rw [attachmentPayloadString, attachmentPayloadString, hstored, hbefore, Option.bind_some,
      Option.bind_some, get?_referencePayload, get?_object]
    simp
  · rw [attachmentPayloadString, attachmentPayloadString, hstored, hbefore, Option.bind_some,
      Option.bind_some, get?_referencePayload, get?_object]
    simp

theorem projectUserAttachment_image {mediaType : String}
    {reference : ImageReference} (index : Nat) (hkind : attachment.kind = "image")
    (hmedia : attachmentPayloadString imaging attachment "mimeType" = some mediaType)
    (hreference : attachmentReference imaging attachment = some reference) :
    projectUserAttachment imaging index attachment = projectImage mediaType reference none := by
  simp only [projectUserAttachment, if_pos hkind, hmedia, hreference]

theorem projectUserAttachment_other (index : Nat) (hkind : attachment.kind ≠ "image") :
    projectUserAttachment imaging index attachment =
      .attachment (attachmentSnapshot imaging index attachment) := by
  simp only [projectUserAttachment, if_neg hkind]

theorem attachmentReference_of_imageId {imageId : String}
    (h : attachmentImageId imaging attachment = some imageId) :
    attachmentReference imaging attachment =
      some ⟨imageId, (attachmentPayloadU64 imaging attachment "sizeBytes").getD 0,
        attachmentDimensions imaging attachment⟩ := by
  simp only [attachmentReference, h]

theorem attachmentReference_of_bytes {bytes : Bytes}
    (hid : attachmentImageId imaging attachment = none)
    (h : attachmentBytes imaging attachment = some bytes) :
    attachmentReference imaging attachment =
      some ⟨imaging.digest bytes, bytes.length, imaging.dimensions bytes⟩ := by
  obtain ⟨data, hdata, hbytes⟩ := Option.bind_eq_some_iff.mp h
  simp only [attachmentReference, hid, hdata, Option.bind_some, inlineReference, hbytes,
    Option.map_some, describe]

theorem projectImage_inj {mediaType : String} {a b : ImageReference} :
    projectImage mediaType a none = projectImage mediaType b none ↔
      a.imageId = b.imageId ∧ a.sizeBytes = b.sizeBytes ∧ a.dimensions = b.dimensions := by
  simp [projectImage]

theorem attachment_shown_iff (hlib : Libraries imaging) {bytes : Bytes}
    (h : attachmentBytes imaging attachment = some bytes) (index : Nat) :
    projectUserAttachment imaging index attachment =
        projectUserAttachment imaging index (storedAttachment imaging attachment) ↔
      AttachmentTrue imaging attachment bytes := by
  obtain ⟨data, hdata, -⟩ := Option.bind_eq_some_iff.mp h
  obtain ⟨payload, fields, mediaType, hpayload, hvalue, hmedia, hne⟩ :=
    inlineImagePayload_eq_some hdata
  obtain ⟨hid, hsize, hdimensions, hmime, hmime'⟩ := storedAttachment_fields hlib h
  have hsame : (storedAttachment imaging attachment).kind = attachment.kind ∧
      (storedAttachment imaging attachment).label = attachment.label := by
    unfold storedAttachment
    split <;> exact ⟨rfl, rfl⟩
  have hstring : attachmentPayloadString imaging attachment "mimeType" = some mediaType := by
    simp [attachmentPayloadString, hpayload, hvalue, get?_object, hmedia, Json.asStr, hne]
  have hstored := attachmentReference_of_imageId hid
  rw [hsize, hdimensions, Option.getD_some] at hstored
  unfold AttachmentTrue
  by_cases hkind : attachment.kind = "image"
  · -- both are shown as an image
    rw [if_pos hkind, projectUserAttachment_image index (hsame.1.trans hkind)
      (hmime.trans hstring) hstored]
    cases himage : attachmentImageId imaging attachment with
    | none =>
      rw [projectUserAttachment_image index hkind hstring (attachmentReference_of_bytes himage h),
        projectImage_inj]
      cases imaging.dimensions bytes <;> simp [eq_comm]
    | some imageId =>
      rw [projectUserAttachment_image index hkind hstring (attachmentReference_of_imageId himage),
        projectImage_inj]
  · have hkind' : (storedAttachment imaging attachment).kind ≠ "image" := by rwa [hsame.1]
    rw [if_neg hkind, projectUserAttachment_other index hkind,
      projectUserAttachment_other index hkind', MessagePart.attachment.injEq, ← hid, ← hsize]
    constructor
    · intro heq
      exact ⟨congrArg AttachmentSnapshot.previewImageId heq,
        congrArg AttachmentSnapshot.sizeBytes heq⟩
    · rintro ⟨himage, hbytes⟩
      unfold attachmentSnapshot
      rw [hsame.1, hsame.2, hmime, hmime', himage, hbytes]

/-! ## Parts of the Agent -/

theorem part_shown_iff (part : AgentMessagePart) :
    projectAgentMessagePart imaging part =
      projectAgentMessagePart imaging (storedPart imaging part) ↔ PartTrue imaging part := by
  cases part with
  | image mediaType data imageId sizeBytes width height uri =>
    cases hbytes : if data = "" then none else imaging.decode data with
    | none =>
      have hstored : storedPart imaging (.image mediaType data imageId sizeBytes width height uri) =
          .image mediaType data imageId sizeBytes width height uri := by
        rw [storedPart, hbytes]
      rw [hstored]
      refine iff_of_true rfl ?_
      cases imageId with
      | none => trivial
      | some imageId =>
        intro bytes hdata hdecode
        rw [if_neg hdata, hdecode] at hbytes
        cases hbytes
    | some bytes =>
      have hdata : data ≠ "" := by
        rintro rfl
        simp at hbytes
      rw [if_neg hdata] at hbytes
      have hzip : (((imaging.dimensions bytes).map Prod.fst).bind fun w =>
          ((imaging.dimensions bytes).map Prod.snd).map fun h => (w, h)) =
            imaging.dimensions bytes := by
        cases imaging.dimensions bytes <;> rfl
      rw [storedPart, if_neg hdata, hbytes]
      simp only [projectAgentMessagePart, Option.getD_some, hzip]
      cases imageId with
      | none => simp [inlineReference, hbytes, describe, PartTrue, Option.filter_some, hdata]
      | some imageId => simp [projectImage, PartTrue, hbytes, hdata]
  | _ => exact iff_of_true rfl trivial

theorem filterMap_eq_iff {α β : Type} {f g : α → Option β} {l : List α}
    (h : ∀ a ∈ l, (f a).isSome = (g a).isSome) :
    l.filterMap f = l.filterMap g ↔ ∀ a ∈ l, f a = g a := by
  induction l with
  | nil => simp
  | cons a rest ih =>
    have hrest := ih fun b hb => h b (List.mem_cons_of_mem a hb)
    have hfirst := h a List.mem_cons_self
    rw [List.forall_mem_cons, ← hrest, List.filterMap_cons, List.filterMap_cons]
    cases hf : f a <;> cases hg : g a <;> simp_all

theorem parts_shown_iff {m : AgentMessage} (hdecode : AllDecode imaging (.agentMessage m)) :
    m.parts.filterMap (projectAgentMessagePart imaging) =
        (m.parts.map (storedPart imaging)).filterMap (projectAgentMessagePart imaging) ↔
      ∀ part ∈ m.parts, PartTrue imaging part := by
  have hshown : ∀ part ∈ m.parts, (projectAgentMessagePart imaging part).isSome =
      ((projectAgentMessagePart imaging ∘ storedPart imaging) part).isSome := by
    intro part hpart
    have hdata := hdecode part hpart
    rw [Function.comp_apply]
    cases part with
    | image mediaType data imageId sizeBytes width height uri =>
      by_cases hempty : data = ""
      · simp [storedPart, hempty]
      · obtain ⟨bytes, hbytes⟩ := Option.isSome_iff_exists.mp (hdata hempty)
        cases imageId <;>
          simp [storedPart, hempty, hbytes, projectAgentMessagePart, inlineReference,
            Option.filter_some]
    | _ => rfl
  rw [List.filterMap_map, filterMap_eq_iff hshown]
  exact forall₂_congr fun part _ => part_shown_iff part

/-! ## Messages of the user -/

theorem attachments_shown_iff (hlib : Libraries imaging) (attachments : List Attachment) :
    (attachments.zipIdx.map fun (attachment, index) =>
      projectUserAttachment imaging index attachment) =
        ((attachments.map (storedAttachment imaging)).zipIdx.map fun (attachment, index) =>
          projectUserAttachment imaging index attachment) ↔
      ∀ attachment ∈ attachments, ∀ bytes, attachmentBytes imaging attachment = some bytes →
        AttachmentTrue imaging attachment bytes := by
  rw [List.zipIdx_map, List.map_map, List.map_inj_left]
  constructor
  · intro hshown attachment hmem bytes hbytes
    obtain ⟨index, hindex⟩ := List.mem_iff_getElem?.mp hmem
    exact (attachment_shown_iff hlib hbytes index).mp
      (hshown (attachment, index) (List.mk_mem_zipIdx_iff_getElem?.mpr hindex))
  · rintro htrue ⟨attachment, index⟩ hmem
    have hattachment := List.fst_mem_of_mem_zipIdx hmem
    cases hbytes : attachmentBytes imaging attachment with
    | some bytes =>
      exact (attachment_shown_iff hlib hbytes index).mpr (htrue _ hattachment bytes hbytes)
    | none =>
      have hsame : storedAttachment imaging attachment = attachment := by
        rw [storedAttachment, show (inlineImagePayload imaging attachment).bind imaging.decode = _
          from hbytes]
      simp [hsame]

theorem projectUserAttachment_ne_text (index : Nat) (attachment : Attachment) (text : String) :
    projectUserAttachment imaging index attachment ≠ .text text := by
  unfold projectUserAttachment
  dsimp only
  split
  · split <;> simp [projectImage]
  · simp

theorem user_shown_iff (hlib : Libraries imaging) (m : UserMessage) :
    projectMessage imaging (.user m) = projectMessage imaging (storedMessage imaging (.user m)) ↔
      ImagesTrue imaging (.user m) := by
  unfold storedMessage storedUser ImagesTrue moveLegacyTextImages projectMessage
  by_cases hcaptures : imaging.captures m.text = []
  · simp only [hcaptures, List.isEmpty_nil, if_true]
    rw [Prod.mk.injEq, Prod.mk.injEq, List.append_cancel_left_eq, attachments_shown_iff hlib]
    simp
  · -- the draft shows the text, the stored message another text or none
    obtain ⟨hblank, hother⟩ := hlib.removes m.text hcaptures
    have hcaptures' : (imaging.captures m.text).isEmpty = false := by simpa using hcaptures
    refine iff_of_false ?_ fun h => hcaptures h.1
    simp only [hcaptures', hblank, if_false, Bool.false_eq_true, Prod.mk.injEq, true_and]
    intro hparts
    have hhead := congrArg List.head? hparts
    split at hhead
    · rw [List.nil_append, List.head?_map, List.singleton_append, List.head?_cons] at hhead
      obtain ⟨first, -, hfirst⟩ := Option.map_eq_some_iff.mp hhead.symm
      exact projectUserAttachment_ne_text _ _ _ hfirst
    · simp only [List.singleton_append, List.head?_cons, Option.some.injEq,
        MessagePart.text.injEq] at hhead
      exact hother hhead.symm

/-! ## Items -/

/-- **The item of a draft is the item of what is stored** exactly where no text holds an image in
the retired form and the message says nothing untrue about its inline images. -/
theorem published_equals_stored_iff (hlib : Libraries imaging) (message : ChatMessage)
    (hdecode : AllDecode imaging message.message) :
    (∀ task d v, Shows d v → StoresImages task (externalizeMessage imaging task message.message) d v
      fun stored => stored = storedMessage imaging message.message) ∧
    (view imaging (projectChatItem message) =
        view imaging (projectChatItem
          { message with message := storedMessage imaging message.message }) ↔
      ImagesTrue imaging message.message) := by
  refine ⟨fun task d v h => Split.Ends.mono (storesImages_stored h _) (fun _ h => h)
    fun _ _ h => ⟨h.1, h.2.1⟩, ?_⟩
  have hview : ∀ stored, view imaging (projectChatItem message) =
      view imaging (projectChatItem { message with message := stored }) ↔
        projectMessage imaging message.message = projectMessage imaging stored := by
    intro stored
    simp [view, projectChatItem, Prod.ext_iff]
  rw [hview]
  cases hmessage : message.message with
  | user m => exact user_shown_iff hlib m
  | agentMessage m =>
    rw [hmessage] at hdecode
    simp only [storedMessage, projectMessage, Prod.mk.injEq, true_and, parts_shown_iff hdecode,
      ImagesTrue]
  | _ => exact iff_of_true rfl trivial

end Drafted

namespace Example

open ChatImages.Example

theorem libraries : Libraries plain where
  hashes _ := show isImageId (imaging.digest []) from by decide +kernel
  dimensions _ _ _ h := by cases h
  lengths data bytes h := by
    simp only [plain, imaging] at h
    split at h <;> cases h
    norm_num
  rereads _ _ := rfl
  removes _ h := absurd rfl h

/-- An image of the Agent that is not stored yet. -/
def drafted : ChatMessage where
  cursor := "1"
  identity := "agent-1"
  messageType := "agent"
  messageId := "agent-1"
  message := .agentMessage {
    id := "agent-1", role := .agent, createdAt := ""
    parts := [.text "Here it is.", .image "image/png" "AAAA" none none none none none] }

theorem agent_image_shown_alike :
    view plain (projectChatItem drafted) =
      view plain (projectChatItem
        { drafted with message := storedMessage plain drafted.message }) :=
  (published_equals_stored_iff libraries drafted (by
    intro part hpart
    fin_cases hpart
    · trivial
    · exact fun _ => rfl)).2.mpr (by
    intro part hpart
    fin_cases hpart <;> trivial)

/-- A message in the retired form. -/
def sent : ChatMessage where
  cursor := "1"
  identity := "user-1"
  messageType := "user"
  messageId := "user-1"
  message := .user { id := "user-1", text := retired, createdAt := "" }

/-- **The text is shown live; later snapshots show an image.** -/
theorem retired_text_shown_until_stored :
    AllDecode imaging sent.message ∧
    (view imaging (projectChatItem sent)).parts = [.text retired] ∧
    (view imaging (projectChatItem
      { sent with message := storedMessage imaging sent.message })).parts =
        [.image "image/png" (imaging.digest [0, 0, 0]) 3 none none] := by
  refine ⟨?_, by decide +kernel, by decide +kernel⟩
  intro attachment hattachment _
  have hone : (moveLegacyTextImages imaging retired []).2 =
      [⟨"image", "Image", none, some ⟨"inline"⟩⟩] := by decide +kernel
  rw [show (moveLegacyTextImages imaging _ _).2 = _ from hone, List.mem_singleton] at hattachment
  subst hattachment
  decide +kernel

end Example

end OpenAide.ChatProjection
