import Fumiko.Foundation.Action
import Fumiko.Foundation.Text
import Fumiko.Foundation.Utf8

namespace Fumiko.LocalAi

open Fumiko.Foundation

structure PullProgress where
  status : Option String
  digest : Option String
  total : Option Nat
  completed : Option Nat
  error : Option String
  deriving DecidableEq

def PullProgress.isSuccess (progress : PullProgress) : Bool := progress.status = some "success"

structure Pulling where
  sawSuccess : Bool
  delivered : List PullProgress
  deriving DecidableEq

def splitLine : List Char → Option (List Char × List Char)
  | [] => none
  | c :: cs =>
    if c = '\n' then some ([], cs)
    else (splitLine cs).map fun split => (c :: split.1, split.2)

section Pull

variable (fromJson : String → Except String PullProgress)

/-- `fromJson` is the decoder of the JSON library. -/
def onProgressLine (text : List Char) : Action Pulling String Unit :=
  let line := trim text
  if line.isEmpty then pure ()
  else
    match fromJson (String.ofList line) with
    | .error e => Action.raise
      ("failed to parse pull progress line: " ++ e ++ ", raw line: " ++ String.ofList line)
    | .ok progress =>
      match progress.error with
      | some err => Action.raise ("ollama pull error: " ++ err)
      | none => Action.update fun s =>
        { sawSuccess := s.sawSuccess || progress.isSuccess, delivered := s.delivered ++ [progress] }

/-- The inner loop, which leaves the unfinished line in the buffer.  A turn takes at least one
character off. -/
def drainLines : Nat → List Char → Action Pulling String (List Char)
  | 0, buffer => pure buffer
  | turns + 1, buffer =>
    match splitLine buffer with
    | none => pure buffer
    | some (line, rest) => do
      onProgressLine fromJson line
      drainLines turns rest

def readChunks : List Char → List (Except String (List UInt8)) → Action Pulling String Unit
  | _, [] => pure ()
  | buffer, chunk :: chunks => do
    let bytes ← Action.liftExcept chunk
    let filled := buffer ++ Utf8.decodeLossy bytes
    let rest ← drainLines fromJson filled.length filled
    readChunks rest chunks

def pullModel (model : String) (response : Except String (List (Except String (List UInt8)))) :
    Action Pulling String Unit := do
  let chunks ← Action.liftExcept response
  readChunks fromJson [] chunks
  let sawSuccess ← Action.read Pulling.sawSuccess
  if sawSuccess then pure ()
  else Action.raise ("pull for model '" ++ model ++ "' ended without a success status")

end Pull

end Fumiko.LocalAi
