import Mathlib.Logic.Function.Basic
import Kinetix.Foundation.Json
import Kinetix.Foundation.Text
import Kinetix.Foundation.Types

/-!
# The internal request

The provider-neutral request of `types.rs`, and what the decoders of the three formats have in
common (`frontends/mod.rs` and the functions that two of them repeat).

## Implementation notes

A number that the code reads as `f64` is rational. The `HashMap` from call ids to names is a
function.
-/

namespace Kinetix.Frontends
open Json

/-- `Role`. -/
inductive Role where
  | system
  | user
  | assistant
  | tool
  deriving DecidableEq

/-- `ImageData`. -/
inductive ImageData where
  | base64 (mime data : String)
  | url (url : String)
  deriving DecidableEq

/-- `Part`, a part of a message. -/
inductive Part where
  | text (text : String)
  | image (image : ImageData)
  | toolCall (id : Option String) (name arguments : String) (signature : Option String)
  | toolResult (toolCallId : String) (name : Option String) (content : String) (isError : Bool)
  | thinking (text : String) (signature : Option String)
  deriving DecidableEq

def Part.isText : Part → Bool
  | .text _ => true
  | _ => false

def Part.isImage : Part → Bool
  | .image _ => true
  | _ => false

def Part.isCall : Part → Bool
  | .toolCall _ _ _ _ => true
  | _ => false

def Part.isResult : Part → Bool
  | .toolResult _ _ _ _ => true
  | _ => false

def Part.isThinking : Part → Bool
  | .thinking _ _ => true
  | _ => false

/-- `Message`. -/
structure Message where
  role : Role
  parts : List Part
  deriving DecidableEq

/-- `ToolDef`. -/
structure ToolDef where
  name : String
  description : Option String
  parameters : Value
  deferLoading : Option Bool

/-- `ToolChoice`. -/
inductive ToolChoice where
  | auto
  | none
  | required
  | specific
  deriving DecidableEq

/-- `ThinkingLevel`. -/
inductive ThinkingLevel where
  | off
  | default
  | minimal
  | low
  | medium
  | high
  | xHigh
  | max
  deriving DecidableEq

/-- `SamplingParams`. -/
structure SamplingParams where
  temperature : Option ℚ := none
  topP : Option ℚ := none
  topK : Option ℚ := none
  maxTokens : Option Nat := none
  stop : List String := []
  seed : Option Int := none
  presencePenalty : Option ℚ := none
  frequencyPenalty : Option ℚ := none

/-- `InternalRequest`. -/
structure InternalRequest where
  requestedModel : String
  system : List String
  messages : List Message
  tools : List ToolDef
  toolChoice : Option ToolChoice
  toolChoiceName : Option String
  params : SamplingParams
  stream : Bool
  includeUsage : Bool
  thinking : Option ThinkingLevel
  extra : List (String × Value)
  rawBody : Option String

/-! ## Tool results -/

/-- The names of the calls with ids, after the calls of a message. -/
def recordCalls (names : String → Option String) (parts : List Part) : String → Option String :=
  parts.foldl (fun names part =>
    match part with
    | .toolCall (some id) name _ _ => Function.update names id (some name)
    | _ => names) names

/-- A result without a name gets that of its call; the issue if there is none. -/
def resolvePart (names : String → Option String) (messageIndex : Nat) : Part → Part × List String
  | .toolResult id none content isError =>
    match names id with
    | some name => (.toolResult id (some name) content isError, [])
    | none =>
      (.toolResult id none content isError,
        if id = "" then
          [s!"messages[{messageIndex}] tool result is missing tool-call identity"]
        else
          [s!"messages[{messageIndex}] tool result references unknown tool call id '{id}'"])
  | part => (part, [])

/-- Names for the results, message by message. -/
def resolveFrom (names : String → Option String) (messageIndex : Nat) :
    List Message → List Message × List String
  | [] => ([], [])
  | m :: messages =>
    let names := recordCalls names m.parts
    let resolved := m.parts.map (resolvePart names messageIndex)
    let (rest, issues) := resolveFrom names (messageIndex + 1) messages
    ({ m with parts := resolved.map (·.1) } :: rest, resolved.flatMap (·.2) ++ issues)

/-- `resolve_tool_result_names`: the messages with names, and the issues. -/
def resolveToolResultNames (messages : List Message) : List Message × List String :=
  resolveFrom (fun _ => none) 0 messages

/-! ## Translation issues -/

def translationIssuesKey : String := "__kinetix_translation_issues"

/-- `attach_translation_issues`. -/
def attachTranslationIssues (extra : List (String × Value)) (issues : List String) :
    List (String × Value) :=
  if issues = [] then extra
  else insertField translationIssuesKey (.array (issues.map .string)) extra

def containsKey (fields : List (String × Value)) (name : String) : Bool :=
  (fields.lookup name).isSome

/-- Why the fields that are not modelled cannot be translated. -/
def translationUnsupported (extra : List (String × Value)) : Option String :=
  match ((extra.lookup translationIssuesKey).bind (·.asArray)).bind (·.head?) |>.bind (·.asStr) with
  | some issue => some ("unsupported nested content cannot be translated safely: " ++ issue)
  | none =>
    if ((extra.lookup "n").bind (·.asU64)).any (1 < ·) then
      some ("'n' (multiple completions) is not supported on a translating path; " ++
        "remove it or route to a same-format provider")
    else if containsKey extra "logprobs" ∨ containsKey extra "top_logprobs" then
      some "'logprobs'/'top_logprobs' are not supported on a translating path"
    else if ((extra.lookup "response_format").any fun format =>
        (format.get "json_schema").any (!·.isNull) ||
          ((format.get "type").bind (·.asStr)) = some "json_schema") then
      some "'response_format.json_schema' is not enforceable on a translating path"
    else if containsKey extra "modalities" ∨ containsKey extra "audio" then
      some "'modalities'/'audio' output are not supported on a translating path"
    else if containsKey extra "prediction" then
      some "'prediction' is not supported on a translating path"
    else none

/-- A request that can be translated has no issues. -/
theorem issues_of_translatable {extra : List (String × Value)} {issues : List String}
    (h : translationUnsupported (attachTranslationIssues extra issues) = none) : issues = [] := by
  cases issues with
  | nil => rfl
  | cons issue issues =>
    rw [attachTranslationIssues, if_neg (List.cons_ne_nil _ _), translationUnsupported,
      lookup_insertField] at h
    exact nomatch h

/-! ## What two formats decode alike -/

/-- The string of a field. -/
def strField (v : Value) (name : String) : Option String := (v.get name).bind (·.asStr)

/-- The `type` of a block. -/
def kindOf (v : Value) : String := (strField v "type").getD ""

/-- `parse_data_url`: a MIME type and its data. -/
def parseDataUrl (url : String) : Option (String × String) :=
  (Text.stripPrefix url "data:").bind fun rest =>
    let part := rest.toList.takeWhile (· ≠ ',')
    if part.length < rest.toList.length then
      let data := String.ofList (rest.toList.drop (part.length + 1))
      let suffix := ";base64".toList
      let mime := if suffix.isSuffixOf part then part.take (part.length - suffix.length) else part
      some (String.ofList mime, data)
    else none

/-- The URL of an image block. -/
def imageUrl (p : Value) : Option String :=
  (((p.get "image_url").bind (strField · "url")).or (strField p "image_url")).or (strField p "url")

/-- The data of an image, or its URL. -/
def decodeImageUrl (url : String) : Part :=
  match parseDataUrl url with
  | some (mime, data) => .image (.base64 mime data)
  | none => .image (.url url)

def isTextKind (kind : String) : Bool := kind ∈ ["text", "input_text", "output_text"]

def isImageKind (kind : String) : Bool := kind ∈ ["image_url", "input_image"]

/-- The part of a content block of the OpenAI formats, if there is one. -/
def decodeBlock (p : Value) : Option Part :=
  if isTextKind (kindOf p) then (strField p "text").map .text
  else if isImageKind (kindOf p) then (imageUrl p).map decodeImageUrl
  else none

/-- `decode_content_parts` of the OpenAI formats. -/
def decodeContentParts : Option Value → List Part
  | some (.string s) => if s = "" then [] else [.text s]
  | some (.array blocks) => blocks.filterMap decodeBlock
  | _ => []

/-- What is wrong with a content block of the OpenAI formats. -/
def inspectBlock (path : String) (textOnly : Bool) (p : Value) : List String :=
  let kind := kindOf p
  if textOnly ∧ !isTextKind kind then
    [s!"{path} type '{kind}' cannot be represented in this message role during translation"]
  else if !isTextKind kind ∧ !isImageKind kind then
    [s!"{path} type '{kind}' has no canonical cross-format representation"]
  else if isImageKind kind ∧ imageUrl p = none then
    [s!"{path} image is missing a translatable URL"]
  else []

/-- The inspection of a content of the OpenAI formats. -/
def inspectContent (path : String) (textOnly : Bool) : Option Value → List String
  | some (.array blocks) =>
    (blocks.zipIdx.map fun (p, i) => inspectBlock s!"{path}[{i}]" textOnly p).flatten
  | _ => []

/-- The arguments of a call: a string as it is, another value as its text. -/
def argumentsText (J : SerdeJson) : Option Value → String
  | some (.string s) => s
  | some other => J.toString other
  | none => "\x7b\x7d"

/-- A call of an assistant message of the OpenAI formats; a call without a name is left out. -/
def decodeToolCall (J : SerdeJson) (tc : Value) : Option Part :=
  let func := tc.get "function"
  let name := (func.bind (strField · "name")).getD ""
  if name = "" then none
  else some (.toolCall (strField tc "id") name
    (argumentsText J (func.bind (·.get "arguments"))) none)

/-- The calls of an assistant message of the OpenAI formats. -/
def decodeToolCalls (J : SerdeJson) (m : Value) : List Part :=
  match (m.get "tool_calls").bind (·.asArray) with
  | some calls => calls.filterMap (decodeToolCall J)
  | none => []

/-- `decode_tools` of the OpenAI formats. -/
def decodeFunctionTools (tools : Option Value) : List ToolDef :=
  ((tools.bind (·.asArray)).getD []).filterMap fun t =>
    let func := (t.get "function").getD t
    (strField func "name").map fun name =>
      { name := name
        description := strField func "description"
        parameters := (func.get "parameters").getD (.object [])
        deferLoading := ((t.get "defer_loading").or (func.get "defer_loading")).bind (·.asBool) }

/-- `map_reasoning_effort` of the OpenAI formats. -/
def mapReasoningEffort (s : String) : Option ThinkingLevel :=
  if s = "none" ∨ s = "off" then some .off
  else if s = "minimal" then some .minimal
  else if s = "low" then some .low
  else if s = "medium" then some .medium
  else if s = "high" then some .high
  else if s = "xhigh" then some .xHigh
  else if s = "max" then some .max
  else none

/-- The tool choices that are named by a string. -/
def choiceOfName (s : String) : ToolChoice :=
  if s = "none" then .none else if s = "required" then .required else .auto

/-- `v as u32`. -/
def asU32 (n : Nat) : Nat := n % 2 ^ 32

end Kinetix.Frontends
