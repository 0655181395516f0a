import Fumiko.Foundation.BufWriter
import Fumiko.Foundation.Pool

/-! The model downloader: the response is streamed into a file beside the destination, which
is then put in its place. -/

namespace Fumiko.LocalAi

open Fumiko.Foundation

inductive FileName
  | utf8 (name : String)
  | raw (bytes : List UInt8)
  deriving DecidableEq

def FileName.toStr : FileName → Option String
  | .utf8 name => some name
  | .raw _ => none

structure Path where
  parent : List String
  fileName : FileName
  deriving DecidableEq

def Path.tempPath (destPath : Path) : Path :=
  { destPath with fileName := .utf8 (destPath.fileName.toStr.getD "model.gguf" ++ ".part") }

/-- The volume, and whether the next call fails.  A future that is dropped at its call looks
the same as a call that fails. -/
structure Disk where
  volume : Volume Path
  failing : Bool

namespace Download

inductive Phase
  | requesting
  | creating
  | streaming (writer : BufWriter) (unread : List (List UInt8))
  /-- The download has ended with an error, and its buffer with it.  The write under way has
  not. -/
  | abandoned (writer : BufWriter)
  | flushed
  | removing
  | replacing
  | returned
  | failed

def capacity : Nat := 1024 * 1024

def maxBufSize : Nat := 2 * 1024 * 1024

end Download

structure Download where
  chunks : List (List UInt8)
  phase : Download.Phase

namespace Download

def body (d : Download) : List UInt8 := d.chunks.flatten

def resume (destPath : Path) (d : Download) (s : Disk) : Download × Disk :=
  match d.phase, s.failing with
  | .requesting, false => ({ d with phase := .creating }, s)
  | .creating, false =>
    ({ d with phase := .streaming (.new (s.volume.opened destPath.tempPath)) d.chunks },
      { s with volume := s.volume.create destPath.tempPath })
  -- `write_all` has come to the end of the chunk.
  | .streaming writer ([] :: unread), false => ({ d with phase := .streaming writer unread }, s)
  | .streaming writer (chunk :: unread), false =>
    let (writer, rest) := writer.pollWrite capacity maxBufSize chunk
    ({ d with phase := .streaming writer (rest :: unread) }, s)
  | .streaming writer [], false =>
    if writer.isFlushed then ({ d with phase := .flushed }, s)
    else ({ d with phase := .streaming writer.flushBuf [] }, s)
  | .streaming writer _, true => ({ d with phase := .abandoned writer }, s)
  | .abandoned _, _ => ({ d with phase := .failed }, s)
  | .flushed, false =>
    match s.volume.read destPath with
    | some _ => ({ d with phase := .removing }, s)
    | none => ({ d with phase := .replacing }, s)
  -- `exists` answers no when it cannot tell.
  | .flushed, true => ({ d with phase := .replacing }, s)
  | .removing, false =>
    ({ d with phase := .replacing }, { s with volume := s.volume.remove destPath })
  | .removing, true => ({ d with phase := .replacing }, s)
  | .replacing, false =>
    match s.volume.read destPath.tempPath with
    | some _ => ({ d with phase := .returned },
        { s with volume := s.volume.rename destPath.tempPath destPath })
    | none => ({ d with phase := .failed }, s)
  | .returned, _ => (d, s)
  | _, _ => ({ d with phase := .failed }, s)

def writes (n : Nat) (d : Download) (s : Disk) : Download × Disk :=
  match d.phase with
  | .streaming writer unread =>
    let (writer, volume) := writer.write n s.volume
    ({ d with phase := .streaming writer unread }, { s with volume })
  | .abandoned writer =>
    let (writer, volume) := writer.write n s.volume
    ({ d with phase := .abandoned writer }, { s with volume })
  | _ => (d, s)

inductive Step (destPath : Path) : Download → Disk → Download → Disk → Prop
  | resume (d s) : Step destPath d s (d.resume destPath s).1 (d.resume destPath s).2
  | writes (n d s) : Step destPath d s (d.writes n s).1 (d.writes n s).2

def rules (destPath : Path) : Pool.Rules Disk Download where
  start d := d.phase = .requesting
  step := Step destPath
  surroundings s s' := ∃ failing, s' = { s with failing }

def HoldsTemp (d : Download) : Prop :=
  match d.phase with
  | .streaming _ _ | .flushed | .removing | .replacing => True
  | .abandoned writer => writer.writing ≠ []
  | _ => False

/-- A download creates the temporary file only while no other one holds it, and does not
remove a file that stands at the destination. -/
def Safe (destPath : Path) (s : Disk) (d : Download) (others : List Download) : Prop :=
  match d.phase with
  | .creating => s.failing = true ∨ ∀ u ∈ others, ¬u.HoldsTemp
  | .removing => s.failing = true ∨ s.volume.read destPath = none
  | _ => True

/-- What stands at the destination at one moment, against what stood there before. -/
structure Intact (destPath : Path) (before after : Pool Disk Download) : Prop where
  complete {content : List UInt8} (h : after.shared.volume.read destPath = some content) :
    before.shared.volume.read destPath = some content ∨
      ∃ d ∈ after.tasks, d.phase = .returned ∧ d.body = content
  kept (h : after.shared.volume.read destPath = none) : before.shared.volume.read destPath = none
  returned {d : Download} (hd : d ∈ after.tasks) (h : d.phase = .returned) :
    ∃ u ∈ after.tasks, u.phase = .returned ∧ after.shared.volume.read destPath = some u.body

end Download

end Fumiko.LocalAi
