import Fumiko.LocalAi.Ollama

namespace Fumiko.LocalAi

open Fumiko.Foundation Fumiko.Foundation.Action

theorem splitLine_none {cs : List Char} (h : splitLine cs = none) : fields '\n' cs = [cs] := by
  induction cs with
  | nil => rfl
  | cons c cs ih =>
    rw [splitLine] at h
    split at h
    · cases h
    · next hc => rw [fields_cons_of_ne hc, ih (Option.map_eq_none_iff.mp h), List.modifyHead_cons]

theorem splitLine_some {cs line rest : List Char} (h : splitLine cs = some (line, rest)) :
    fields '\n' cs = line :: fields '\n' rest ∧ rest.length < cs.length := by
  induction cs generalizing line with
  | nil => cases h
  | cons c cs ih =>
    rw [splitLine] at h
    split at h
    · next hc =>
      cases h
      rw [fields, if_pos hc]
      exact ⟨rfl, Nat.lt_succ_self _⟩
    · next hc =>
      obtain ⟨⟨front, back⟩, hsplit, heq⟩ := Option.map_eq_some_iff.mp h
      cases heq
      obtain ⟨hfields, hlength⟩ := ih hsplit
      rw [fields_cons_of_ne hc, hfields, List.modifyHead_cons]
      exact ⟨rfl, Nat.lt_succ_of_lt hlength⟩

theorem fields_unfinished (sep : Char) (a : List Char) :
    fields sep (unfinished sep a) = [unfinished sep a] := by
  have happend := fields_append_unfinished sep a []
  rw [List.append_nil, List.append_nil, fields_eq_append sep a, List.dropLast_concat] at happend
  exact (List.append_cancel_left happend).symm

section Loops

variable (fromJson : String → Except String PullProgress)

def readLines (lines : List (List Char)) : Action Pulling String Unit :=
  forEach (onProgressLine fromJson) lines

theorem readLines_nil : readLines fromJson [] = pure () := rfl

theorem readLines_cons (line : List Char) (lines : List (List Char)) :
    readLines fromJson (line :: lines) =
      (onProgressLine fromJson line >>= fun _ => readLines fromJson lines) := rfl

theorem readLines_append (lines later : List (List Char)) :
    readLines fromJson (lines ++ later) =
      (readLines fromJson lines >>= fun _ => readLines fromJson later) := by
  induction lines with
  | nil => rw [List.nil_append, readLines_nil, pure_bind]
  | cons line lines ih => rw [List.cons_append, readLines_cons, readLines_cons, ih, bind_assoc]

theorem drainLines_eq {turns : Nat} {buffer : List Char} (h : buffer.length ≤ turns) :
    drainLines fromJson turns buffer =
      (readLines fromJson (fields '\n' buffer).dropLast >>= fun _ => pure (unfinished '\n' buffer)) := by
  induction turns generalizing buffer with
  | zero =>
    have hempty : buffer = [] := List.eq_nil_of_length_eq_zero (Nat.le_zero.mp h)
    have hnone : (fields '\n' []).dropLast = [] := rfl
    rw [hempty, hnone, readLines_nil, pure_bind]
    rfl
  | succ turns ih =>
    rw [drainLines]
    cases hsplit : splitLine buffer with
    | none =>
      have hfields := splitLine_none hsplit
      have hcut : fields '\n' buffer = [] ++ [buffer] := hfields
      obtain ⟨hfront, hlast⟩ := dropLast_unfinished hcut
      rw [hfront, hlast, readLines_nil, pure_bind]
    | some split =>
      obtain ⟨line, rest⟩ := split
      obtain ⟨hfields, hlength⟩ := splitLine_some hsplit
      have hcut : fields '\n' buffer =
          (line :: (fields '\n' rest).dropLast) ++ [unfinished '\n' rest] := by
        rw [hfields, List.cons_append, ← fields_eq_append]
      obtain ⟨hfront, hlast⟩ := dropLast_unfinished hcut
      rw [hfront, hlast, readLines_cons, bind_assoc, ← ih (by omega)]

theorem readChunks_eq {buffer : List Char} (hbuffer : fields '\n' buffer = [buffer])
    (chunks : List (List UInt8)) :
    readChunks fromJson buffer (chunks.map .ok) =
      readLines fromJson (fields '\n' (buffer ++ Utf8.decodeChunks chunks)).dropLast := by
  induction chunks generalizing buffer with
  | nil =>
    have hnone : Utf8.decodeChunks [] = [] := rfl
    rw [hnone, List.append_nil, hbuffer]
    rfl
  | cons chunk chunks ih =>
    have hstep : readChunks fromJson buffer ((chunk :: chunks).map .ok) =
        (drainLines fromJson (buffer ++ Utf8.decodeLossy chunk).length (buffer ++ Utf8.decodeLossy chunk)
          >>= fun rest => readChunks fromJson rest (chunks.map .ok)) := rfl
    have hnext := ih (fields_unfinished '\n' (buffer ++ Utf8.decodeLossy chunk))
    rw [hstep, drainLines_eq fromJson (Nat.le_refl _), bind_assoc]
    simp only [pure_bind, hnext]
    rw [← readLines_append, Utf8.decodeChunks_cons, ← List.append_assoc,
      fields_append_unfinished '\n' (buffer ++ Utf8.decodeLossy chunk),
      List.dropLast_append_of_ne_nil (fields_ne_nil _ _)]

end Loops

def responseText (finalNewline : Bool) : List (List Char) → List Char
  | [] => []
  | line :: lines =>
    line ++ if lines.isEmpty && !finalNewline then [] else '\n' :: responseText finalNewline lines

structure PullResponse where
  lines : List (List Char)
  finalNewline : Bool
  chunks : List (List UInt8)
  single : ∀ line ∈ lines, '\n' ∉ line
  object : ∀ line ∈ lines, trim line ≠ []
  whole : chunks.flatten = Utf8.encode (responseText finalNewline lines)

section Spec

variable (fromJson : String → Except String PullProgress)

def reported (line : List Char) : Option PullProgress :=
  match fromJson (String.ofList (trim line)) with
  | .error _ => none
  | .ok progress => if progress.error.isSome then none else some progress

def pullWhole (model : String) (lines : List (List Char)) : Action Pulling String Unit := do
  readLines fromJson lines
  let sawSuccess ← Action.read Pulling.sawSuccess
  if sawSuccess then pure ()
  else Action.raise ("pull for model '" ++ model ++ "' ended without a success status")

def notStarted : Pulling := ⟨false, []⟩

/-- The outcome does not depend on the chunks: every line is delivered once and in order up to the
first that cannot be read or is an error, and the pull succeeds if there is none and some line reports
success. -/
structure ReadsWhole (model : String) (r : PullResponse) : Prop where
  same : pullModel fromJson model (.ok (r.chunks.map .ok)) notStarted =
    pullWhole fromJson model r.lines notStarted
  delivered : (pullModel fromJson model (.ok (r.chunks.map .ok)) notStarted).2.delivered =
    (r.lines.takeWhile fun line => (reported fromJson line).isSome).filterMap (reported fromJson)
  succeeds : (pullModel fromJson model (.ok (r.chunks.map .ok)) notStarted).1 = .ok () ↔
    (∀ line ∈ r.lines, (reported fromJson line).isSome) ∧
      ∃ line ∈ r.lines, ∃ progress, reported fromJson line = some progress ∧ progress.isSuccess

end Spec

section Lines

variable {fromJson : String → Except String PullProgress} {line : List Char} {lines : List (List Char)}
  {s : Pulling}

def delivering (progress : PullProgress) (s : Pulling) : Pulling where
  sawSuccess := s.sawSuccess || progress.isSuccess
  delivered := s.delivered ++ [progress]

theorem onProgressLine_reported {progress : PullProgress} (hline : trim line ≠ [])
    (h : reported fromJson line = some progress) :
    onProgressLine fromJson line s = (.ok (), delivering progress s) := by
  rw [onProgressLine, if_neg (by simpa using hline)]
  rw [reported] at h
  cases hread : fromJson (String.ofList (trim line)) with
  | error e => simp [hread] at h
  | ok read =>
    cases herror : read.error with
    | some err => simp [hread, herror] at h
    | none =>
      simp only [hread, herror, Option.isSome_none, Bool.false_eq_true, if_false, Option.some.injEq] at h
      rw [← h]
      simp only [herror]
      rfl

theorem onProgressLine_failed (hline : trim line ≠ []) (h : reported fromJson line = none) :
    ∃ e, onProgressLine fromJson line s = (.error e, s) := by
  rw [onProgressLine, if_neg (by simpa using hline)]
  rw [reported] at h
  cases hread : fromJson (String.ofList (trim line)) with
  | error e => exact ⟨_, rfl⟩
  | ok read =>
    cases herror : read.error with
    | some err =>
      simp only [herror]
      exact ⟨_, rfl⟩
    | none => simp [hread, herror] at h

theorem readLines_run (fromJson : String → Except String PullProgress)
    (hlines : ∀ line ∈ lines, trim line ≠ []) (s : Pulling) :
    (readLines fromJson lines s).2.delivered = s.delivered ++
        (lines.takeWhile fun line => (reported fromJson line).isSome).filterMap (reported fromJson) ∧
      ((readLines fromJson lines s).1 = .ok () ↔ ∀ line ∈ lines, (reported fromJson line).isSome) ∧
      ((∀ line ∈ lines, (reported fromJson line).isSome) →
        ((readLines fromJson lines s).2.sawSuccess ↔ s.sawSuccess ∨ ∃ line ∈ lines, ∃ progress,
          reported fromJson line = some progress ∧ progress.isSuccess)) := by
  induction lines generalizing s with
  | nil => simp [readLines_nil]
  | cons line lines ih =>
    have hline := hlines line List.mem_cons_self
    rw [readLines_cons, bind_run]
    cases hreported : reported fromJson line with
    | none =>
      obtain ⟨e, he⟩ := onProgressLine_failed (s := s) hline hreported
      rw [he]
      simp [hreported]
    | some progress =>
      obtain ⟨hdelivered, hok, hsuccess⟩ :=
        ih (fun later hlater => hlines later (List.mem_cons_of_mem _ hlater)) (delivering progress s)
      rw [onProgressLine_reported hline hreported]
      dsimp only
      simp only [List.takeWhile_cons, hreported, Option.isSome_some, if_true, List.filterMap_cons,
        List.forall_mem_cons, true_and, List.exists_mem_cons_iff, Option.some.injEq, exists_eq_left']
      refine ⟨?_, hok, ?_⟩
      · rw [hdelivered, delivering, List.append_assoc, List.singleton_append]
      · intro hall
        rw [hsuccess hall, delivering, Bool.or_eq_true, or_assoc]

theorem pullWhole_run (fromJson : String → Except String PullProgress) (model : String)
    (lines : List (List Char)) (s : Pulling) :
    (pullWhole fromJson model lines s).2 = (readLines fromJson lines s).2 ∧
      ((pullWhole fromJson model lines s).1 = .ok () ↔
        (readLines fromJson lines s).1 = .ok () ∧ (readLines fromJson lines s).2.sawSuccess) := by
  rw [pullWhole, bind_run]
  rcases readLines fromJson lines s with ⟨e | u, t⟩
  · simp
  · cases hsuccess : t.sawSuccess <;> simp [bind_run, hsuccess]

theorem pullWhole_reads (fromJson : String → Except String PullProgress) (model : String)
    (hlines : ∀ line ∈ lines, trim line ≠ []) :
    (pullWhole fromJson model lines notStarted).2.delivered =
        (lines.takeWhile fun line => (reported fromJson line).isSome).filterMap (reported fromJson) ∧
      ((pullWhole fromJson model lines notStarted).1 = .ok () ↔
        (∀ line ∈ lines, (reported fromJson line).isSome) ∧
          ∃ line ∈ lines, ∃ progress, reported fromJson line = some progress ∧ progress.isSuccess) := by
  obtain ⟨hdelivered, hok, hsuccess⟩ := readLines_run fromJson hlines notStarted
  obtain ⟨hstate, houtcome⟩ := pullWhole_run fromJson model lines notStarted
  rw [hstate, houtcome, hok]
  refine ⟨hdelivered, and_congr_right fun hall => (hsuccess hall).trans ?_⟩
  simp [notStarted]

end Lines

section Chunks

variable {r : PullResponse}

theorem pullModel_eq (fromJson : String → Except String PullProgress) (model : String)
    (chunks : List (List UInt8)) : pullModel fromJson model (.ok (chunks.map .ok)) =
      pullWhole fromJson model (fields '\n' (Utf8.decodeChunks chunks)).dropLast := by
  have hempty : fields '\n' [] = [[]] := rfl
  have hread := readChunks_eq fromJson hempty chunks
  rw [List.nil_append] at hread
  rw [pullWhole, ← hread]
  rfl

theorem fields_responseText {lines : List (List Char)} (hlines : ∀ line ∈ lines, '\n' ∉ line)
    (finalNewline : Bool) : fields '\n' (responseText finalNewline lines) =
      if lines.isEmpty || finalNewline then lines ++ [[]] else lines := by
  induction lines with
  | nil => rfl
  | cons line lines ih =>
    have hline := hlines line List.mem_cons_self
    have hrest := ih fun later hlater => hlines later (List.mem_cons_of_mem _ hlater)
    rw [responseText]
    cases finalNewline with
    | true =>
      rw [Bool.not_true, Bool.and_false, if_neg Bool.false_ne_true, fields_append hline, hrest]
      simp
    | false =>
      cases lines with
      | nil => simp [fields_of_not_mem hline]
      | cons next lines =>
        rw [if_neg (by simp), fields_append hline, hrest]
        simp

def EndsLine (r : PullResponse) : Prop := r.finalNewline = true ∨ r.lines = []

theorem fields_response (r : PullResponse) :
    (EndsLine r → fields '\n' (responseText r.finalNewline r.lines) = r.lines ++ [[]]) ∧
      (¬EndsLine r → fields '\n' (responseText r.finalNewline r.lines) = r.lines) := by
  have hfields := fields_responseText r.single r.finalNewline
  have hends : (r.lines.isEmpty || r.finalNewline) = true ↔ EndsLine r := by
    simp [EndsLine, or_comm]
  constructor
  · intro h
    rw [hfields, if_pos (hends.mpr h)]
  · intro h
    rw [hfields, if_neg (mt hends.mp h)]

theorem readsWhole_of_whole (fromJson : String → Except String PullProgress) (model : String)
    (hwhole : Utf8.Whole r.chunks) (hends : EndsLine r) : ReadsWhole fromJson model r := by
  have hsame : pullModel fromJson model (.ok (r.chunks.map .ok)) = pullWhole fromJson model r.lines := by
    rw [pullModel_eq, Utf8.decodeChunks_of_whole hwhole r.whole, (fields_response r).1 hends,
      List.dropLast_concat]
  obtain ⟨hdelivered, hok⟩ := pullWhole_reads fromJson model r.object
  exact ⟨by rw [hsame], by rw [hsame, hdelivered], by rw [hsame, hok]⟩

def echo (line : String) : PullProgress := ⟨some line, none, none, none, none⟩

theorem readLines_echo (lines : List (List Char)) (s : Pulling) :
    ∃ t, readLines (fun line => .ok (echo line)) lines s = (.ok (), t) ∧
      t.delivered = s.delivered ++
        ((lines.map trim).filter (· ≠ [])).map fun line => echo (String.ofList line) := by
  induction lines generalizing s with
  | nil => exact ⟨s, rfl, by simp⟩
  | cons line lines ih =>
    rw [readLines_cons]
    by_cases hline : trim line = []
    · obtain ⟨t, hrun, hdelivered⟩ := ih s
      refine ⟨t, ?_, ?_⟩
      · rw [bind_run, onProgressLine, hline]
        exact hrun
      · rw [hdelivered, List.map_cons, hline]
        simp
    · have hreported : reported (fun line => .ok (echo line)) line =
          some (echo (String.ofList (trim line))) := rfl
      obtain ⟨t, hrun, hdelivered⟩ := ih (delivering (echo (String.ofList (trim line))) s)
      refine ⟨t, ?_, ?_⟩
      · rw [bind_run, onProgressLine_reported hline hreported]
        exact hrun
      · rw [hdelivered, List.map_cons, List.filter_cons_of_pos (by simpa using hline), List.map_cons,
          delivering, List.append_assoc, List.singleton_append]

theorem echo_injective : Function.Injective fun line : List Char => echo (String.ofList line) := by
  intro a b h
  exact String.ofList_injective (Option.some.inj (congrArg PullProgress.status h))

theorem shown_lines {model : String} (h : ∀ fromJson, ReadsWhole fromJson model r) :
    ((fields '\n' (Utf8.decodeChunks r.chunks)).dropLast.map trim).filter (· ≠ []) =
      r.lines.map trim := by
  have hsame := congrArg (fun run => run.2.delivered) (h fun line => .ok (echo line)).same
  obtain ⟨t, hrun, hdelivered⟩ :=
    readLines_echo (fields '\n' (Utf8.decodeChunks r.chunks)).dropLast notStarted
  obtain ⟨u, hwhole, hdelivered'⟩ := readLines_echo r.lines notStarted
  have hall : (r.lines.map trim).filter (· ≠ []) = r.lines.map trim := by
    rw [List.filter_eq_self]
    intro line hline
    obtain ⟨l, hl, rfl⟩ := List.mem_map.mp hline
    simpa using r.object l hl
  simp only [pullModel_eq, (pullWhole_run _ model _ notStarted).1, hrun, hwhole, hdelivered, hdelivered',
    hall] at hsame
  exact List.map_injective_iff.mpr echo_injective (List.append_cancel_left hsame)

theorem endsLine_of_shown (hshown : ((fields '\n' (Utf8.decodeChunks r.chunks)).dropLast.map trim).filter
    (· ≠ []) = r.lines.map trim) : EndsLine r := by
  by_contra hends
  have hblurred := (Utf8.decodeChunks_blurred r.whole).fields.length_eq
  rw [(fields_response r).2 hends] at hblurred
  have hlength := congrArg List.length hshown
  have hle := List.length_filter_le (fun line => decide (line ≠ []))
    ((fields '\n' (Utf8.decodeChunks r.chunks)).dropLast.map trim)
  have hpos : 0 < r.lines.length := List.length_pos_iff.mpr fun hnone => hends (Or.inr hnone)
  rw [hlength, List.length_map, List.length_map, List.length_dropLast] at hle
  omega

theorem eq_of_shown {lines blurred : List (List Char)} (h : List.Forall₂ Utf8.Blurred lines blurred)
    (hlines : ∀ line ∈ lines, trim line ≠ [])
    (hshown : (blurred.map trim).filter (· ≠ []) = lines.map trim) : lines = blurred := by
  induction h with
  | nil => rfl
  | @cons line seen lines blurred hline h ih =>
    have hseen : trim seen ≠ [] := by
      rw [trim_ne_nil]
      exact Nat.lt_of_lt_of_le (trim_ne_nil.mp (hlines line List.mem_cons_self)) hline.marks.1
    rw [List.map_cons, List.filter_cons_of_pos (by simpa using hseen), List.map_cons,
      List.cons.injEq] at hshown
    rw [hline.eq_of_trim hshown.1.symm,
      ih (fun later hlater => hlines later (List.mem_cons_of_mem _ hlater)) hshown.2]

theorem whole_of_shown (hends : EndsLine r)
    (hshown : ((fields '\n' (Utf8.decodeChunks r.chunks)).dropLast.map trim).filter (· ≠ []) =
      r.lines.map trim) : Utf8.Whole r.chunks := by
  have hfields := (fields_response r).1 hends
  have hblurred := (Utf8.decodeChunks_blurred r.whole).fields
  have hcount := hblurred.length_eq
  have hlast := fields_eq_append '\n' (Utf8.decodeChunks r.chunks)
  rw [hfields, hlast] at hblurred hcount
  have hlength : (fields '\n' (Utf8.decodeChunks r.chunks)).dropLast.length = r.lines.length := by
    rw [List.length_append, List.length_append] at hcount
    exact (Nat.add_right_cancel hcount).symm
  have hfront := List.forall₂_take_append _ _ _ hblurred
  have hback := List.forall₂_drop_append _ _ _ hblurred
  rw [hlength, List.take_left] at hfront
  rw [hlength, List.drop_left] at hback
  have hlines := eq_of_shown hfront r.object hshown
  have hempty := (List.forall₂_cons.mp hback).1.nil_left
  have hsame := length_flatten_fields '\n' (Utf8.decodeChunks r.chunks)
  rw [hlast, ← hlines, hempty, ← hfields, length_flatten_fields] at hsame
  exact (Utf8.whole_or_longer r.whole).resolve_right (by omega)

def statusOnly (line : String) : Except String PullProgress :=
  .ok (echo (String.ofList ((line.toList.drop 11).dropLast.dropLast)))

def statusLine (status : List Char) : List Char :=
  ['{', '"', 's', 't', 'a', 't', 'u', 's', '"', ':', '"'] ++ status ++ ['"', '}']

theorem trim_statusLine (status : List Char) : trim (statusLine status) = statusLine status := by
  have hbrace : isWhitespace '{' = false := by decide
  have hbrace' : isWhitespace '}' = false := by decide
  simp [trim, statusLine, hbrace, hbrace']

theorem reported_statusLine (status : List Char) :
    reported statusOnly (statusLine status) = some (echo (String.ofList status)) := by
  have hmember : ((statusLine status).drop 11).dropLast.dropLast = status := by
    simp [statusLine]
  rw [reported, trim_statusLine, statusOnly, String.toList_ofList, hmember]
  rfl

theorem delivered_statusLine (status : List Char) :
    (pullWhole statusOnly "m" [statusLine status] notStarted).2.delivered =
      [echo (String.ofList status)] := by
  have hline : ∀ line ∈ [statusLine status], trim line ≠ [] := by
    rw [List.forall_mem_singleton, trim_statusLine]
    simp [statusLine]
  rw [(pullWhole_reads statusOnly "m" hline).1]
  simp [reported_statusLine]

def splitInside : PullResponse where
  lines := [statusLine ['é']]
  finalNewline := true
  chunks := [(Utf8.encode (statusLine ['é'] ++ ['\n'])).take 12,
    (Utf8.encode (statusLine ['é'] ++ ['\n'])).drop 12]
  single := by decide
  object := by decide
  whole := rfl

def unterminated : PullResponse where
  lines := [statusLine ['s', 'u', 'c', 'c', 'e', 's', 's']]
  finalNewline := false
  chunks := [Utf8.encode (statusLine ['s', 'u', 'c', 'c', 'e', 's', 's'])]
  single := by decide
  object := by decide
  whole := rfl

end Chunks

end Fumiko.LocalAi
