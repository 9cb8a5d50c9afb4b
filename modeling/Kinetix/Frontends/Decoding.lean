import Kinetix.Frontends.Anthropic.Content
import Kinetix.Frontends.OpenAi.Content
import Kinetix.Frontends.Responses.Content

/-!
# Decoding drops nothing that is readable

For each of the three formats: a request that is accepted and may be translated represents
everything that its body says exactly if the body is readable.
-/

namespace Kinetix.Frontends
open Json Kinetix.Types

inductive FrontendFormat where
  | openAi
  | anthropic
  | openAiResponses
  deriving DecidableEq

/-- `decode_request` of each format. -/
def decodeRequest : FrontendFormat → SerdeJson → Value → Except ProxyError InternalRequest
  | .openAi => OpenAi.decodeRequest
  | .anthropic => Anthropic.decodeRequest
  | .openAiResponses => Responses.decodeRequest

/-- Every system text and every content of the body is represented, in order. -/
def Represented : FrontendFormat → SerdeJson → Value → InternalRequest → Prop
  | .openAi => OpenAi.Represented
  | .anthropic => Anthropic.Represented
  | .openAiResponses => Responses.Represented

/-- The body says nothing that its decoder does not read. -/
def Readable : FrontendFormat → Value → Prop
  | .openAi => OpenAi.Readable
  | .anthropic => Anthropic.Readable
  | .openAiResponses => Responses.Readable

/-- A request that is accepted and that translation does not refuse represents all that its body
says exactly if the body is readable. -/
theorem body_represented_iff (format : FrontendFormat) (J : SerdeJson) (body : Value)
    (req : InternalRequest) (hdecode : decodeRequest format J body = .ok req)
    (h : translationUnsupported req.extra = none) :
    Represented format J body req ↔ Readable format body := by
  cases format with
  | openAi => exact OpenAi.represented_iff hdecode h
  | anthropic => exact Anthropic.represented_iff hdecode h
  | openAiResponses => exact Responses.represented_iff hdecode

def exampleSystem (entryType : String) : Value :=
  .object [("role", .string "system"), ("content", .array
    [.object [("type", .string entryType), ("text", .string "Be brief.")]])]

def exampleQuestion : Value :=
  .object [("role", .string "user"), ("content", .string "What time is it?")]

/-- A Chat body with a system message and a question. -/
def exampleBody (entryType : String) : Value :=
  .object [("model", .string "gpt"),
    ("messages", .array [exampleSystem entryType, exampleQuestion])]

theorem exampleBody_represented :
    ∃ req, decodeRequest .openAi .ofEmptyObject (exampleBody "text") = .ok req ∧
      translationUnsupported req.extra = none ∧
        Represented .openAi .ofEmptyObject (exampleBody "text") req := by
  obtain ⟨req, hdecode, htranslatable⟩ : ∃ req,
      decodeRequest .openAi .ofEmptyObject (exampleBody "text") = .ok req ∧
        translationUnsupported req.extra = none := ⟨_, rfl, rfl⟩
  have hreadable : Readable .openAi (exampleBody "text") := by
    have hmessages : bodyMessages (exampleBody "text") =
        [exampleSystem "text", exampleQuestion] := rfl
    refine ⟨?_, ?_⟩
    · rw [hmessages, List.forall_mem_cons, List.forall_mem_singleton]
      refine ⟨fun _ b hb => ?_, fun _ => trivial⟩
      rw [List.mem_singleton.mp hb]
      exact ⟨rfl, .inl rfl⟩
    · rw [hmessages, List.forall_mem_cons, List.forall_mem_singleton]
      exact ⟨⟨rfl, rfl⟩, ⟨rfl, trivial, rfl⟩⟩
  exact ⟨req, hdecode, htranslatable,
    (body_represented_iff .openAi .ofEmptyObject _ req hdecode htranslatable).mpr hreadable⟩

/-- A system text of type `input_text` passes the inspection and is left out. -/
theorem input_text_dropped :
    ¬ ∀ (format : FrontendFormat) (J : SerdeJson) (body : Value) (req : InternalRequest),
      decodeRequest format J body = .ok req → translationUnsupported req.extra = none →
        Represented format J body req := by
  intro h
  obtain ⟨req, hdecode, htranslatable, hsystem⟩ : ∃ req,
      decodeRequest .openAi .ofEmptyObject (exampleBody "input_text") = .ok req ∧
        translationUnsupported req.extra = none ∧ req.system = [] := ⟨_, rfl, rfl, rfl⟩
  obtain ⟨⟨sub, hsub, hall⟩, -⟩ := h .openAi .ofEmptyObject _ req hdecode htranslatable
  rw [hsystem, List.sublist_nil] at hsub
  rw [hsub] at hall
  exact absurd hall.length_eq (by decide)

end Kinetix.Frontends
