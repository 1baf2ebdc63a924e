import OpenAide.Library.Text
import OpenAide.Storage.Model

/-!
# Moving Tool details out of Chat

`storage/tool_artifacts.rs`.  A Tool step enters Chat without its heavy details: they become the
replacement of an artifact, the step keeps the artifact's id, and a missing or empty input summary
is filled from a path in the details.  The row keeps its identity (`identity_extractToolArtifacts`),
which is all that the journal of the row depends on.
-/

namespace OpenAide

namespace ToolArtifacts

open Library

/-! ## Input summaries -/

/-- The summaries that only repeat the Tool's name. -/
def genericSummaries : List (String × String) :=
  [("edit", "edit"), ("edit", "updated file"), ("edit", "created file"), ("read", "read"),
    ("read", "read file"), ("read", "name view_image"), ("delete", "delete"),
    ("delete", "deleted file"), ("move", "move"), ("move", "moved file")]

/-- `should_replace_input_summary` (`tool_artifacts.rs:102`). -/
def shouldReplaceInputSummary (toolName : String) (summary : Option String) : Bool :=
  match summary.map trim with
  | none => true
  | some summary =>
    summary.isEmpty || genericSummaries.contains (toolName, toAsciiLowercase summary)

/-- A quote, a double quote or a backquote. -/
def isQuote (c : Char) : Bool := c.toNat == 0x27 || c.toNat == 0x22 || c.toNat == 0x60

/-- A slash or a backslash. -/
def isSeparator (c : Char) : Bool := c.toNat == 0x2F || c.toNat == 0x5C

/-- `path_leaf` (`tool_artifacts.rs:191`). -/
def pathLeaf (value : String) : String :=
  let bare := trimEnd isSeparator (trimBoth isQuote (trimBoth isWhitespace value.toList))
  match (bare.splitOnP isSeparator).reverse.find? (!·.isEmpty) with
  | some leaf => String.ofList leaf
  | none => value

def firstDiffPath (content : List ActivityToolContent) : Option String :=
  content.findSome? fun
    | .diff path _ _ => some path
    | _ => none

/-- `field_object` of the arguments, then `field_string` of one of them. -/
def legacyToolArgument (details : ActivityToolDetails) (name : String) : Option String := do
  let input ← details.input
  let arguments ← input.fields.findSome? fun (field, value) =>
    if field ≠ "arguments" then none
    else match value with
      | .object fields => some fields
      | _ => none
  arguments.findSome? fun (field, value) =>
    if field ≠ name then none
    else match value with
      | .string value => some value
      | .other _ => none

/-- `lightweight_detail_summary` (`tool_artifacts.rs:125`). -/
def lightweightDetailSummary (details : ActivityToolDetails) : Option String :=
  let path := (details.locations.head?.map (·.path))
    <|> firstDiffPath details.content
    <|> (details.input.bind (·.path))
    <|> legacyToolArgument details "path"
  path.map pathLeaf

/-! ## Artifact ids -/

/-- `fnv64` (`tool_artifacts.rs:211`). -/
def fnv64 (bytes : List UInt8) (seed : UInt64) : UInt64 :=
  bytes.foldl (fun hash byte => (hash ^^^ byte.toUInt64) * 0x100000001b3) seed

/-- A word in sixteen lower-case hexadecimal digits. -/
def hex16 (n : UInt64) : String :=
  let digits := Nat.toDigits 16 n.toNat
  String.ofList (List.replicate (16 - digits.length) '0' ++ digits)

/-- `tool_artifact_id` (`tool_artifacts.rs:204`): two independently seeded streams keep the raw
identifiers out of storage paths. -/
def toolArtifactId (messageId : String) (stepIndex : Nat) : String :=
  let input := (messageId ++ String.singleton (Char.ofNat 0) ++ toString stepIndex).toUTF8.toList
  "artifact_" ++ hex16 (fnv64 input 0xcbf29ce484222325) ++ hex16 (fnv64 input 0x84222325cbf29ce4)

/-! ## Extraction -/

/-- The details of one step, taken out of it. -/
def extractStep (messageId : String) (index : Nat) :
    ActivityStep → ActivityStep × Option ToolArtifactReplacement
  | .tool step =>
    match step.details with
    | none => (.tool step, none)
    | some details =>
      let inputSummary :=
        if shouldReplaceInputSummary step.name step.inputSummary then
          lightweightDetailSummary details
        else step.inputSummary
      let artifactId := step.detailArtifactId.getD (toolArtifactId messageId index)
      (.tool { step with details := none, inputSummary, detailArtifactId := some artifactId },
        some ⟨artifactId, details⟩)
  | step => (step, none)

/-- `extract_tool_artifacts` (`tool_artifacts.rs:67`). -/
def extractToolArtifacts (message : NormalizedMessage) :
    NormalizedMessage × List ToolArtifactReplacement :=
  match message with
  | .activity m =>
    let extracted := m.steps.zipIdx.map fun (step, index) => extractStep m.id index step
    (.activity { m with steps := extracted.map (·.1) }, extracted.filterMap (·.2))
  | message => (message, [])

@[simp] theorem identity_extractToolArtifacts (message : NormalizedMessage) :
    (extractToolArtifacts message).1.identity = message.identity := by
  cases message <;> rfl

end ToolArtifacts

end OpenAide
