import Kinetix.Foundation.Words
import Kinetix.Frontends.Events
import Kinetix.Frontends.Request

/-!
# The events of a Gemini answer

`events_from_gemini` of `adapters/gemini.rs`, for a chunk of a stream and for a whole answer. The
parts of a stream and its finishes, in the order in which they are read, are its tokens.

## Implementation notes

The counter of calls of a chunk is not bounded.
-/

namespace Kinetix.Adapters.Gemini
open Frontends Json Kinetix.Words

/-- `map_finish`. -/
def mapFinish (reason : String) : FinishReason :=
  if reason = "STOP" then .stop
  else if reason = "MAX_TOKENS" then .length
  else if reason ∈ ["SAFETY", "RECITATION", "BLOCKLIST", "PROHIBITED_CONTENT", "SPII"] then
    .contentFilter
  else .other reason

/-! ## Parts -/

def partText (part : Value) : String := (strField part "text").getD ""

def isThought (part : Value) : Bool := ((part.get "thought").bind (·.asBool)).getD false

def partSignature (part : Value) : Option String := strField part "thoughtSignature"

/-- The events of what a part says or thinks. -/
def deltaEvents (part : Value) : List StreamEvent :=
  if isThought part ∧ (partText part ≠ "" ∨ (partSignature part).isSome) then
    [.thinkingDelta (partText part) (partSignature part)]
  else if partText part ≠ "" then [.textDelta (partText part)]
  else []

section Calls
variable (J : SerdeJson)

/-- The events of the call of a part. -/
def callEvents (index : Nat) (part fc : Value) : List StreamEvent :=
  [.toolCallStart index (strField fc "id") ((strField fc "name").getD "tool") (partSignature part),
    .toolCallArgsDelta index (J.toString ((fc.get "args").getD (.object [])))]

/-- The events of parts, with the index for the next call. -/
def partsEvents (index : Nat) : List Value → List StreamEvent
  | [] => []
  | part :: parts =>
    deltaEvents part ++
      match part.get "functionCall" with
      | some fc => callEvents J index part fc ++ partsEvents (index + 1) parts
      | none => partsEvents index parts

end Calls

/-! ## Chunks -/

def candidates (v : Value) : List Value := ((v.get "candidates").bind (·.asArray)).getD []

def candidateParts (cand : Value) : List Value :=
  (((cand.get "content").bind (·.get "parts")).bind (·.asArray)).getD []

def chunkParts (v : Value) : List Value := (candidates v).flatMap candidateParts

def chunkFinishes (v : Value) : List String := (candidates v).filterMap (strField · "finishReason")

/-- The output count is the sum of the two that are there. -/
def parseUsage (usage : Value) : TokenUsage :=
  let count name := (usage.get name).bind (·.asU64)
  let thinking := count "thoughtsTokenCount"
  { input := count "promptTokenCount"
    output :=
      match count "candidatesTokenCount", thinking with
      | some candidates, some thinking => some (saturatingAdd candidates thinking)
      | some candidates, none => some candidates
      | none, some thinking => some thinking
      | none, none => none
    cached := count "cachedContentTokenCount"
    cacheWrite := none
    thinking := thinking }

/-- What a chunk says was used. -/
def usageEvents (v : Value) : List StreamEvent :=
  ((v.get "usageMetadata").map fun usage => .usage (parseUsage usage)).toList

/-- The finishes come last, after the usage. -/
def eventsFromGemini (J : SerdeJson) (v : Value) : List StreamEvent :=
  partsEvents J 0 (chunkParts v) ++ usageEvents v ++
    (chunkFinishes v).map fun reason => .finish (mapFinish reason)

/-- The events of a stream, chunk by chunk. -/
def streamEvents (J : SerdeJson) (chunks : List Value) : List StreamEvent :=
  chunks.flatMap (eventsFromGemini J)

/-! ## Tokens -/

/-- A part or a finish. -/
inductive Token where
  | part (part : Value)
  | finish (reason : String)

def chunkTokens (v : Value) : List Token :=
  (chunkParts v).map .part ++ (chunkFinishes v).map .finish

def streamTokens (chunks : List Value) : List Token := chunks.flatMap chunkTokens

end Kinetix.Adapters.Gemini
