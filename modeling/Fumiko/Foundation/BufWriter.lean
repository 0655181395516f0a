import Fumiko.Foundation.Volume

namespace Fumiko.Foundation

structure BufWriter where
  file : Nat
  offset : Nat
  writing : List UInt8
  buffer : List UInt8

namespace BufWriter

def new (file : Nat) : BufWriter := ⟨file, 0, [], []⟩

def flushBuf (w : BufWriter) : BufWriter :=
  if w.writing.isEmpty then { w with writing := w.buffer, buffer := [] } else w

/-- One call, and the bytes that it has not taken.  The buffer is flushed when the bytes do not
fit; as many bytes as the buffer holds go past it, and the file takes at most `most` of them. -/
def pollWrite (capacity most : Nat) (w : BufWriter) (bytes : List UInt8) : BufWriter × List UInt8 :=
  if capacity < w.buffer.length + bytes.length && !w.buffer.isEmpty then (w.flushBuf, bytes)
  else if bytes.length < capacity then ({ w with buffer := w.buffer ++ bytes }, [])
  else if w.writing.isEmpty then ({ w with writing := bytes.take most }, bytes.drop most)
  else (w, bytes)

def isFlushed (w : BufWriter) : Bool := w.writing.isEmpty && w.buffer.isEmpty

def write {ν : Type} (n : Nat) (w : BufWriter) (v : Volume ν) : BufWriter × Volume ν :=
  ({ w with offset := w.offset + (w.writing.take n).length, writing := w.writing.drop n },
    v.write w.file w.offset (w.writing.take n))

def unwritten (w : BufWriter) : List UInt8 := w.writing ++ w.buffer

theorem isFlushed_iff {w : BufWriter} : w.isFlushed ↔ w.unwritten = [] := by
  simp [isFlushed, unwritten]

section FlushBuf

variable (w : BufWriter)

@[simp] theorem file_flushBuf : w.flushBuf.file = w.file := by
  rw [flushBuf]
  split <;> rfl

@[simp] theorem offset_flushBuf : w.flushBuf.offset = w.offset := by
  rw [flushBuf]
  split <;> rfl

@[simp] theorem unwritten_flushBuf : w.flushBuf.unwritten = w.unwritten := by
  rw [flushBuf]
  split
  · next hempty => simp [unwritten, List.isEmpty_iff.mp hempty]
  · rfl

theorem flushBuf_of_idle {w : BufWriter} (h : w.writing = []) :
    w.flushBuf = { w with writing := w.buffer, buffer := [] } := by
  simp [flushBuf, h]

end FlushBuf

section PollWrite

variable (capacity most : Nat) (w : BufWriter) (bytes : List UInt8)

@[simp] theorem file_pollWrite : (w.pollWrite capacity most bytes).1.file = w.file := by
  rw [pollWrite]
  split
  · exact w.file_flushBuf
  · split
    · rfl
    · split <;> rfl

@[simp] theorem offset_pollWrite : (w.pollWrite capacity most bytes).1.offset = w.offset := by
  rw [pollWrite]
  split
  · exact w.offset_flushBuf
  · split
    · rfl
    · split <;> rfl

variable {capacity w bytes}

theorem buffer_eq_nil (hfits : ¬(capacity < w.buffer.length + bytes.length && !w.buffer.isEmpty) = true)
    (hlarge : ¬bytes.length < capacity) : w.buffer = [] := by
  cases hbuffer : w.buffer with
  | nil => rfl
  | cons byte buffer =>
    simp [hbuffer] at hfits
    omega

variable (capacity w bytes)

theorem unwritten_pollWrite :
    (w.pollWrite capacity most bytes).1.unwritten ++ (w.pollWrite capacity most bytes).2 =
      w.unwritten ++ bytes := by
  rw [pollWrite]
  split
  · rw [unwritten_flushBuf]
  · next hfits =>
    split
    · simp [unwritten]
    · next hlarge =>
      have hbuffer := buffer_eq_nil hfits hlarge
      split
      · next hidle => simp [unwritten, hbuffer, List.isEmpty_iff.mp hidle]
      · rfl

variable {most w bytes}

theorem pollWrite_lt (hidle : w.writing = []) (hbytes : bytes ≠ []) (hmost : 0 < most) :
    2 * (w.pollWrite capacity most bytes).2.length +
        (w.pollWrite capacity most bytes).1.buffer.length <
      2 * bytes.length + w.buffer.length := by
  have hpos : 0 < bytes.length := List.length_pos_iff.mpr hbytes
  rw [pollWrite]
  split
  · next hfull =>
    have hbuffer : 0 < w.buffer.length := by
      apply List.length_pos_iff.mpr
      intro hnil
      simp [hnil] at hfull
    simp only [flushBuf_of_idle hidle, List.length_nil]
    omega
  · split
    · simp only [List.length_nil, List.length_append]
      omega
    · simp only [hidle, List.isEmpty_nil, if_true, List.length_drop]
      omega

end PollWrite

section Write

variable {ν : Type} {w : BufWriter} {v : Volume ν} (n : Nat)

theorem write_of_idle {n : Nat} (hidle : w.writing = []) : w.write n v = (w, v) := by
  obtain ⟨file, offset, writing, buffer⟩ := w
  cases hidle
  simp [write, Volume.write_nil]

variable (h : w.offset = (v.contents w.file).length)
include h

theorem offset_write : (w.write n v).1.offset = ((w.write n v).2.contents w.file).length := by
  simp only [write]
  rw [h, Volume.contents_write_end, List.length_append]

theorem contents_write :
    (w.write n v).2.contents w.file ++ (w.write n v).1.unwritten =
      v.contents w.file ++ w.unwritten := by
  simp only [write, unwritten]
  rw [h, Volume.contents_write_end, List.append_assoc, ← List.append_assoc (w.writing.take n),
    List.take_append_drop]

end Write

end BufWriter

end Fumiko.Foundation
