import Fumiko.LocalAi.Prompt
import Mathlib.Algebra.Order.Ring.Unbundled.Rat

namespace Fumiko.LocalAi

open Fumiko.Foundation Fumiko.Net

/-- The value of an `f32`. -/
inductive Float32Value
  | nan
  | infinite (negative : Bool)
  | finite (value : Rat)
  deriving DecidableEq

namespace Float32Value

/-- `is_nan` is asked first, then `clamp(0.0, 1.0)`. -/
def confidence : Float32Value → Rat
  | nan => 0
  | infinite negative => if negative then 0 else 1
  | finite value => min (max value 0) 1

end Float32Value

structure ModelClassificationOutput where
  matched : Bool
  criterionLabel : Option String
  confidence : Option Float32Value
  deriving DecidableEq

def eqIgnoreAsciiCase (a b : String) : Bool := a.toList.map Char.toLower = b.toList.map Char.toLower

def trimmed (text : String) : String := String.ofList (trim text.toList)

def validateOutput (criteria : List Criterion) (parsed : ModelClassificationOutput) :
    Option ClassificationMatch :=
  let rawLabel := parsed.criterionLabel.getD ""
  if !parsed.matched || (trim rawLabel.toList).isEmpty then none
  else
    match criteria.find? fun c => eqIgnoreAsciiCase c.label (trimmed rawLabel) with
    | none => none
    | some canonical => some {
        criterionLabel := canonical.label
        confidence := (parsed.confidence.getD (.finite 1)).confidence }

/-- `fromJson` is the decoder of the JSON library. -/
def readAnswer (invalid : String) (fromJson : String → Except String ModelClassificationOutput)
    (criteria : List Criterion) (content : String) : Except String (Option ClassificationMatch) :=
  match fromJson (cleanJsonResponse content) with
  | .error e => .error (invalid ++ " returned invalid JSON: " ++ e ++ ", raw output: " ++ content)
  | .ok parsed => .ok (validateOutput criteria parsed)

def aiMaxContextTokens : Nat := 2048

def aiMaxOutputTokens : Nat := 128

section Builtin

def builtinBaseUrl : String := "http://127.0.0.1:11435"

structure LlamaServerCompletionRequest where
  prompt : String
  jsonSchema : JsonValue
  nPredict : Nat
  temperature : Rat
  stream : Bool

structure LlamaServerClassifier where
  baseUrl : String
  completion : (url : String) → LlamaServerCompletionRequest → HttpReply String
  fromJson : String → Except String ModelClassificationOutput

namespace LlamaServerClassifier

def runClassification (self : LlamaServerClassifier) (prompt : String) (schema : JsonValue)
    (criteria : List Criterion) : Except String (Option ClassificationMatch) :=
  let request : LlamaServerCompletionRequest := {
    prompt, jsonSchema := schema, nPredict := aiMaxOutputTokens, temperature := 1 / 10, stream := false }
  let url := self.baseUrl ++ "/completion"
  match (self.completion url request).json url with
  | .error e => .error e.text
  | .ok content => readAnswer "llama-server" self.fromJson criteria content

def classify (self : LlamaServerClassifier) (subject sender : String) (snippet : Option String)
    (criteria : List Criterion) : Except String (Option ClassificationMatch) :=
  if criteria.isEmpty then .ok none
  else self.runClassification (buildPrompt subject sender snippet none criteria)
    (classificationJsonSchema criteria) criteria

def classifyWithBody (self : LlamaServerClassifier) (subject sender body : String)
    (criteria : List Criterion) : Except String (Option ClassificationMatch) :=
  if criteria.isEmpty then .ok none
  else self.runClassification (buildPrompt subject sender none (some body) criteria)
    (classificationJsonSchema criteria) criteria

end LlamaServerClassifier

end Builtin

section Ollama

def defaultOllamaUrl : String := "http://127.0.0.1:11434"

structure OllamaOptions where
  numCtx : Nat
  numPredict : Nat
  temperature : Rat

structure OllamaGenerateRequest where
  model : String
  prompt : String
  format : JsonValue
  stream : Bool
  keepAlive : String
  options : OllamaOptions

structure OllamaClassifier where
  baseUrl : String
  model : String
  generate : (url : String) → OllamaGenerateRequest → HttpReply String
  fromJson : String → Except String ModelClassificationOutput

namespace OllamaClassifier

def runClassification (self : OllamaClassifier) (prompt : String) (schema : JsonValue)
    (criteria : List Criterion) : Except String (Option ClassificationMatch) :=
  let request : OllamaGenerateRequest := {
    model := self.model, prompt, format := schema, stream := false, keepAlive := "1m"
    options := {
      numCtx := aiMaxContextTokens, numPredict := aiMaxOutputTokens, temperature := 1 / 10 } }
  let url := self.baseUrl ++ "/api/generate"
  match (self.generate url request).json url with
  | .error e => .error e.text
  | .ok content => readAnswer "model" self.fromJson criteria content

def classify (self : OllamaClassifier) (subject sender : String) (snippet : Option String)
    (criteria : List Criterion) : Except String (Option ClassificationMatch) :=
  if criteria.isEmpty then .ok none
  else self.runClassification (buildPrompt subject sender snippet none criteria)
    (classificationJsonSchema criteria) criteria

def classifyWithBody (self : OllamaClassifier) (subject sender body : String)
    (criteria : List Criterion) : Except String (Option ClassificationMatch) :=
  if criteria.isEmpty then .ok none
  else self.runClassification (buildPrompt subject sender none (some body) criteria)
    (classificationJsonSchema criteria) criteria

end OllamaClassifier

end Ollama

end Fumiko.LocalAi
