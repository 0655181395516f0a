import Fumiko.Foundation.Slicing
import Fumiko.Net.Models

namespace Fumiko.LocalAi

open Fumiko.Foundation Fumiko.Net

inductive JsonValue
  | string (text : String)
  | array (items : List JsonValue)
  | object (fields : List (String × JsonValue))

namespace JsonValue

def field (key : String) : JsonValue → Option JsonValue
  | object fields => (fields.find? (·.1 = key)).map Prod.snd
  | _ => none

def strings : JsonValue → List String
  | array items => items.filterMap fun
    | string text => some text
    | _ => none
  | _ => []

end JsonValue

def allowedLabels (criteria : List Criterion) : List String := "" :: criteria.map (·.label)

def classificationJsonSchema (criteria : List Criterion) : JsonValue :=
  .object [
    ("type", .string "object"),
    ("properties", .object [
      ("matched", .object [("type", .string "boolean")]),
      ("criterion_label", .object [
        ("type", .string "string"),
        ("enum", .array ((allowedLabels criteria).map .string))]),
      ("confidence", .object [("type", .string "number")])]),
    ("required", .array [.string "matched", .string "criterion_label", .string "confidence"])]

/-- The values the schema allows for `criterion_label`. -/
def enumLabels (schema : JsonValue) : List String :=
  (((schema.field "properties").bind (·.field "criterion_label")).bind (·.field "enum")).elim []
    JsonValue.strings

def truncateChars (text : String) (maxChars : Nat) : String := String.ofList (text.toList.take maxChars)

def contentSection (snippet body : Option String) : String :=
  match body, snippet with
  | some body, _ => "Body:\n" ++ truncateChars body 4000 ++ "\n"
  | none, some snippet =>
    let trimmed := trim snippet.toList
    if trimmed.isEmpty then "" else "Snippet Preview:\n" ++ String.ofList trimmed ++ "\n"
  | none, none => ""

def buildPrompt (subject sender : String) (snippet body : Option String) (criteria : List Criterion) :
    String :=
  let criteriaList := String.intercalate "\n"
    (criteria.map fun c => "- \"" ++ c.label ++ "\": " ++ c.description)
  String.intercalate "\n" [
    "You are an email classification assistant. Given an email and a list of criteria, determine if the email matches ANY of the criteria.",
    "",
    "Criteria:",
    criteriaList,
    "",
    "Email:",
    "Subject: " ++ subject,
    "From: " ++ sender,
    contentSection snippet body,
    "Respond with ONLY a JSON object in this exact shape, no other text:",
    "\x7b\"matched\": true or false, \"criterion_label\": \"the exact label of the matched criterion, or empty string if no match\", \"confidence\": a number between 0 and 1\x7d"]

section Response

def stripPrefix (front text : List Char) : Option (List Char) :=
  if front <+: text then some (text.drop front.length) else none

def stripSuffix (back text : List Char) : Option (List Char) :=
  if back <:+ text then some (text.take (text.length - back.length)) else none

def withoutFences (trimmed : List Char) : List Char :=
  match stripPrefix "```json".toList trimmed with
  | some rest => trim ((stripSuffix "```".toList rest).getD rest)
  | none =>
    match stripPrefix "```".toList trimmed with
    | some rest => trim ((stripSuffix "```".toList rest).getD rest)
    | none => trimmed

def cleanJsonResponse (raw : String) : String :=
  let text := withoutFences (trim raw.toList)
  let opened := text.dropWhile (· ≠ '\x7b')
  String.ofList (if '\x7d' ∈ opened then (opened.reverse.dropWhile (· ≠ '\x7d')).reverse else text)

/-- The text from the first opening brace to the last closing one by their offsets, and nothing where
a slice would panic. -/
def cleanJsonSlice (raw : String) : Option String :=
  let text := withoutFences (trim raw.toList)
  match Slicing.find '\x7b' text, Slicing.rfind '\x7d' text with
  | some start, some stop =>
    if start ≤ stop then (Slicing.slice start (stop + 1) text).map String.ofList
    else some (String.ofList text)
  | _, _ => some (String.ofList text)

end Response

end Fumiko.LocalAi
